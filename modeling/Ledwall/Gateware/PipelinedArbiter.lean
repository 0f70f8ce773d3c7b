import Mathlib.Data.Nat.Size
import Ledwall.Library.Rings
import Ledwall.Library.Runs

/-! The shared memory port of the pixel sources: one clock cycle of its arbiter. -/

namespace Ledwall.Gateware

/-- `bits_for`: the width of a register that reaches `n`. -/
def bitsFor (n : ℕ) : ℕ := max 1 n.size

/-- What a pixel source shows the port. -/
structure SourcePort where
  memAdr : BitVec 32
  memReq : Bool
  memLast : Bool

/-- The inputs of one cycle: the sources as `connect` wires them, and the memory's side. -/
structure ArbiterCycle where
  sources : ℕ → SourcePort
  cmdReady : Bool
  datValid : Bool
  dat : BitVec 32

structure ArbiterConfig where
  nSources : ℕ
  perSource : ℕ := 1
  maxOutstanding : Option ℕ := none
  sticky : Bool := false

namespace ArbiterConfig

variable (z : ArbiterConfig)

def tagW : ℕ := bitsFor (z.nSources - 1)

def depth : ℕ :=
  max 2 (match z.maxOutstanding with
    | none | some 0 => z.nSources * z.perSource
    | some n => n)

end ArbiterConfig

structure PipelinedArbiter where
  grant : ℕ := 0
  pick : ℕ := 0
  armed : Bool := false
  bubble : Bool := false
  outst : ℕ → ℕ := fun _ => 0
  tags : ℕ → ℕ := fun _ => 0
  wptr : ℕ := 0
  rptr : ℕ := 0
  count : ℕ := 0

namespace PipelinedArbiter

open Library.Rings

variable (z : ArbiterConfig) (s : PipelinedArbiter) (c : ArbiterCycle)

def eligible (i : ℕ) : Bool := (c.sources i).memReq && s.outst i != z.perSource

def anyElig : Bool := (List.range z.nSources).any (s.eligible z c)

/-- The priority chain: the eligible source that comes first from the granted one on. -/
def pickC : ℕ :=
  if s.grant < z.nSources then
    let order := (List.range z.nSources).map fun k => (s.grant + k) % z.nSources
    order.dropLast.foldr (fun cand arm => if s.eligible z c cand then cand else arm)
      (order.getLastD 0)
  else 0

def stillEligible : Bool := s.pick < z.nSources && s.eligible z c s.pick

def lastSel : Bool := s.pick < z.nSources && (c.sources s.pick).memLast

def cmdValid : Bool := s.armed && s.stillEligible z c && s.count < z.depth && !s.bubble

def cmdAdr : BitVec 32 := if s.pick < z.nSources then (c.sources s.pick).memAdr else 0

def issue : Bool := s.cmdValid z c && c.cmdReady

/-- The tag port reads without a clock. -/
def srcAck (i : ℕ) : Bool := c.datValid && s.tags s.rptr == i

def srcCmdAck (i : ℕ) : Bool := s.issue z c && s.pick == i

/-- A register of `bits` bits that goes up and down by one in one cycle. -/
def count' (bits n : ℕ) (up down : Bool) : ℕ := (n + up.toNat + 2 ^ bits - down.toNat) % 2 ^ bits

def nextGrant : ℕ :=
  if z.sticky then
    if !s.lastSel z c then s.pick
    else if s.pick = z.nSources - 1 then 0
    else (s.pick + 1) % 2 ^ z.tagW
  else if s.grant = z.nSources - 1 then 0
  else (s.grant + 1) % 2 ^ z.tagW

def next : PipelinedArbiter where
  grant := if s.issue z c then s.nextGrant z c else s.grant
  pick := s.pickC z c
  armed := s.anyElig z c
  bubble := z.sticky && s.issue z c && s.lastSel z c
  outst i := count' (bitsFor z.perSource) (s.outst i) (s.srcCmdAck z c i) (s.srcAck c i)
  tags := if s.issue z c then Function.update s.tags s.wptr s.pick else s.tags
  wptr := if s.issue z c then bump z.depth s.wptr else s.wptr
  rptr := if c.datValid then bump z.depth s.rptr else s.rptr
  count := count' (bitsFor z.depth) s.count (s.issue z c) c.datValid

end PipelinedArbiter

end Ledwall.Gateware
