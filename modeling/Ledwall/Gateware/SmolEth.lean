import Ledwall.Wire.Protocol

/-! The receive path of the Ethernet core: the gates and classifiers behind the MAC. -/

namespace Ledwall.Gateware

open Ledwall.Wire

/-- One beat of `eth_phy_description(32)`. -/
structure PhyBeat where
  data : BitVec 32
  lastBe : BitVec 4
  error : BitVec 4
  last : Bool
  deriving DecidableEq, Repr

def PhyBeat.byte (b : PhyBeat) (k : ℕ) : Byte := b.data.extractLsb' (8 * k) 8

/-- What a module sees of its two ends in one cycle: the wires of its sink, and `source.ready`. -/
structure Ends where
  valid : Bool
  sink : PhyBeat
  ready : Bool
  deriving DecidableEq, Repr

structure AlwaysReady where
  inPacket : Bool := false
  dropping : Bool := false
  needLast : Bool := false
  dropped : BitVec 32 := 0
  deriving DecidableEq, Repr

namespace AlwaysReady

variable (s : AlwaysReady) (i : Ends)

def sourceValid : Bool := s.needLast || (i.valid && !s.dropping)

def sourceBeat : PhyBeat := { i.sink with last := s.needLast || i.sink.last }

/-- Downstream has just refused a beat inside a packet. -/
def refused : Bool := !s.dropping && !s.needLast && !i.ready

def next : AlwaysReady :=
  let t := { s with needLast := s.needLast && !i.ready }
  if i.valid then
    if i.sink.last then { t with inPacket := false, dropping := false }
    else if s.refused i then
      { inPacket := true, dropping := true, needLast := true, dropped := s.dropped + 1 }
    else { t with inPacket := true }
  else t

end AlwaysReady

structure SmolEthPixelClassifier where
  beat : BitVec 8 := 0
  isIp : Bool := false
  isUdp : Bool := false
  matched : Bool := false
  portOk : Bool := false
  killed : BitVec 32 := 0
  deriving DecidableEq, Repr

namespace SmolEthPixelClassifier

variable (s : SmolEthPixelClassifier) (enable : Bool) (port : BitVec 16) (b : PhyBeat)

def invalid : Bool := s.matched && enable

/-- A beat that does not end its packet. -/
def observe : SmolEthPixelClassifier :=
  { s with
    beat := s.beat + 1
    isIp := if s.beat = 3 then b.byte 0 == 0x08 && b.byte 1 == 0x00 && b.byte 2 == 0x45 else s.isIp
    isUdp := if s.beat = 5 ∧ s.isIp = true then b.byte 3 == 17 else s.isUdp
    portOk := s.portOk || (s.beat == 9 && s.isIp && s.isUdp &&
      b.byte 0 == port.extractLsb' 8 8 && b.byte 1 == port.extractLsb' 0 8)
    matched := s.matched ||
      (s.beat == 10 && s.portOk && !(b.byte 2 == 0x42 && b.byte 3 == 0x50)) }

/-- A beat that the invalidator takes. -/
def take : SmolEthPixelClassifier :=
  if b.last then { killed := s.killed + if s.invalid enable then 1 else 0 } else s.observe port b

end SmolEthPixelClassifier

inductive InvalidatorFsm
  | idle
  | copy
  | invalidate
  | waitTillDone
  deriving DecidableEq, Repr

structure SmolEthInvalidator where
  fsm : InvalidatorFsm := .idle
  lengthCounter : BitVec 11 := 0
  deriving DecidableEq, Repr

namespace SmolEthInvalidator

variable (s : SmolEthInvalidator) (length : ℕ) (invalid : Bool) (sink : Option PhyBeat) (ready : Bool)

def terminator : PhyBeat := ⟨0, 0x1, 0xF, true⟩

def sinkReady : Bool :=
  match s.fsm with
  | .idle | .copy => ready
  | .invalidate => !sink.any PhyBeat.last
  | .waitTillDone => true

def source : Option PhyBeat :=
  match s.fsm with
  | .idle | .copy => sink
  | .invalidate => some terminator
  | .waitTillDone => none

/-- The beat that is taken in this cycle. -/
def taken : Option PhyBeat := if s.sinkReady sink ready then sink else none

def next : SmolEthInvalidator :=
  match s.fsm with
  | .idle => ⟨if (s.taken sink ready).isSome then .copy else .idle, 1⟩
  | .copy =>
    let cut := if invalid && decide (length < s.lengthCounter.toNat) then .invalidate else .copy
    match s.taken sink ready with
    | none => { s with fsm := cut }
    | some b => ⟨if b.last then .idle else cut, s.lengthCounter + 1⟩
  | .invalidate => { s with fsm := if ready then .waitTillDone else .invalidate }
  | .waitTillDone => { s with fsm := if sink.any PhyBeat.last then .idle else .waitTillDone }

end SmolEthInvalidator

structure SmolEthGroupReject where
  first : Bool := true
  killing : Bool := false
  rejected : BitVec 32 := 0
  deriving DecidableEq, Repr

namespace SmolEthGroupReject

variable (s : SmolEthGroupReject) (b : PhyBeat)

/-- The group bit of a destination that is not broadcast, as far as its first beat shows. -/
def isGroup : Bool := b.data.getLsbD 0 && !(b.data == 0xFFFFFFFF)

def killNow : Bool := if s.first then isGroup b else s.killing

/-- A beat that is taken. -/
def take : SmolEthGroupReject where
  first := b.last
  killing := !b.last && (if s.first then isGroup b else s.killing)
  rejected := s.rejected + if s.first && isGroup b then 1 else 0

end SmolEthGroupReject

end Ledwall.Gateware
