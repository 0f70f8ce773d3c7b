import Mathlib.Data.BitVec

/-! The command train ahead of each frame of an S-PWM output: command bursts, then register blocks. -/

namespace Ledwall.Gateware.Spwm

/-- A bit for each colour lane. -/
abbrev Lanes := Fin 3 → Bool

def V_SYNC : BitVec 5 := 3
def PRE_ACT_MID : BitVec 5 := 11
def PRE_ACT_END : BitVec 5 := 14
def CLK_PAD : BitVec 5 := 8
def REG_LATCH : ℕ := 5
def MAX_REGS : ℕ := 64

/-- `Cat(0, x)`, in the same width. -/
def shiftUp {w : ℕ} (x : BitVec w) : BitVec w := x <<< 1

namespace SpwmCommand

inductive Fsm
  | idle
  | latHigh
  | pad
  deriving DecidableEq

structure Request where
  start : Bool
  length : BitVec 5
  pad : BitVec 5
  data : BitVec 16

end SpwmCommand

structure SpwmCommand where
  fsm : SpwmCommand.Fsm := .idle
  shift : BitVec 16 := 0
  count : BitVec 6 := 0
  padL : BitVec 6 := 0

namespace SpwmCommand

variable (s : SpwmCommand)

def busy : Bool := s.fsm ≠ .idle

def lat : Bool := s.fsm = .latHigh

def dataOut : Bool := s.fsm ≠ .idle && s.shift.msb

def next (q : Request) : SpwmCommand :=
  match s.fsm with
  | .idle =>
    if q.start then
      { fsm := .latHigh, shift := q.data, count := q.length.setWidth 6, padL := q.pad.setWidth 6 }
    else s
  | .latHigh =>
    if s.count = 1 then
      { s with
        fsm := if s.padL = 0 then .idle else .pad
        shift := shiftUp s.shift
        count := s.padL }
    else { s with shift := shiftUp s.shift, count := s.count - 1 }
  | .pad =>
    { s with
      fsm := if s.count = 1 then .idle else .pad
      shift := shiftUp s.shift
      count := s.count - 1 }

end SpwmCommand

/-- A register block, without the repeats' counter, which nothing reads. -/
structure SpwmRegBlock where
  shifting : Bool := false
  shift : Fin 3 → BitVec 16 := fun _ => 0
  bit : BitVec 4 := 0
  left : ℕ := 0

namespace SpwmRegBlock

variable (s : SpwmRegBlock)

def busy : Bool := s.shifting

def lat : Bool := s.shifting && s.left ≤ REG_LATCH

def dataOut : Lanes := fun i => (s.shift i).msb

def next (blockLen : ℕ) (start : Bool) (data : Fin 3 → BitVec 16) : SpwmRegBlock :=
  if s.shifting then
    { shifting := s.left ≠ 1
      shift := if s.bit = 0 then data else fun i => shiftUp (s.shift i)
      bit := if s.bit = 0 then 15 else s.bit - 1
      left := s.left - 1 }
  else if start then { shifting := true, shift := data, bit := 15, left := blockLen }
  else s

end SpwmRegBlock

/-- What the CPU has configured, and the table it has loaded. -/
structure PrefixConfig where
  regCount : BitVec 7
  slots : BitVec 4
  rotSlot : BitVec 4
  midLatch : Bool
  table : BitVec 7 → Fin 3 → BitVec 16

namespace SpwmPrefix

inductive Fsm
  | idle
  | cmd
  | cmdWait
  | block
  | blockWait
  deriving DecidableEq

end SpwmPrefix

structure SpwmPrefix where
  fsm : SpwmPrefix.Fsm := .idle
  cmd : SpwmCommand := {}
  blk : SpwmRegBlock := {}
  step : BitVec 4 := 0
  slot : BitVec 4 := 0
  regIndex : BitVec 6 := 0

namespace SpwmPrefix

variable (s : SpwmPrefix) (c : PrefixConfig)

def busy : Bool := s.fsm ≠ .idle

def lat : Bool := s.cmd.lat || s.blk.lat

/-- A bare command is on all lanes, a register block on each its own. -/
def dataOut : Lanes := if s.blk.busy then s.blk.dataOut else fun _ => s.cmd.dataOut

def lastCmd : BitVec 4 := if c.midLatch then 2 else 1

def cmdLen : BitVec 5 :=
  if s.step = 0 then V_SYNC
  else if s.step = 1 then if c.midLatch then PRE_ACT_MID else PRE_ACT_END
  else if s.step = 2 then PRE_ACT_END
  else 0

/-- `rd.adr`: the row of the table that the slot reads. -/
def row : BitVec 7 :=
  if s.slot = c.rotSlot then s.regIndex.setWidth 7
  else BitVec.ofNat 7 (MAX_REGS + if s.slot > c.rotSlot then s.slot.toNat - 1 else s.slot.toNat)

/-- The command unit's inputs; no payload is ever connected to it. -/
def request : SpwmCommand.Request where
  start := s.fsm = .cmd
  length := if s.fsm = .cmd then s.cmdLen c else 0
  pad := if s.fsm = .cmd then CLK_PAD else 0
  data := 0

def next (blockLen : ℕ) (start : Bool) : SpwmPrefix :=
  let s' := { s with
    cmd := s.cmd.next (s.request c)
    blk := s.blk.next blockLen (s.fsm = .block) (c.table (s.row c)) }
  match s.fsm with
  | .idle => if start then { s' with fsm := .cmd, step := 0, slot := 0 } else s'
  | .cmd => { s' with fsm := .cmdWait }
  | .cmdWait =>
    if s.cmd.busy then s'
    else if s.step = lastCmd c then { s' with fsm := .block }
    else { s' with fsm := .cmd, step := s.step + 1 }
  | .block => { s' with fsm := .blockWait }
  | .blockWait =>
    if s.blk.busy then s'
    else if s.slot.toNat + 1 = c.slots.toNat then
      { s' with
        fsm := .idle
        regIndex := if s.regIndex.toNat + 1 = c.regCount.toNat then 0 else s.regIndex + 1 }
    else { s' with fsm := .block, slot := s.slot + 1 }

end SpwmPrefix

end Ledwall.Gateware.Spwm
