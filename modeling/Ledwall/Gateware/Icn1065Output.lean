import Ledwall.Gateware.SpwmPrefix

/-! One connector of S-PWM panels: the serialiser, the row scanner, and the output around them. -/

namespace Ledwall.Gateware.Spwm

def SPWM_BITS : ℕ := 16
def CHANNELS_PER_CHIP : ℕ := 16

/-- The shapes of a build. -/
structure Shape where
  columns : ℕ
  rowsPerFrame : ℕ
  slotLen : ℕ
  groups : ℕ
  greyBits : ℕ

namespace Shape

variable (z : Shape)

/-- The channels of a connector, and so its colour lines. -/
abbrev Channels := Fin (3 * z.groups)

def sections : ℕ := z.columns / CHANNELS_PER_CHIP

end Shape

/-- `Icn1065Serialiser` -/
structure Serialiser (z : Shape) where
  shifting : Bool := false
  shifts : z.Channels → BitVec 16 := fun _ => 0
  count : BitVec 5 := 0

namespace Serialiser

variable {z : Shape} (s : Serialiser z)

def busy : Bool := s.shifting

def lastBit : Bool := s.shifting && s.count == 1

/-- Nothing ever raises `start`. -/
def loading (run : Bool) : Bool := run && (!s.shifting || s.count == 1)

def channelsOut : z.Channels → Bool := fun i => (s.shifts i).msb

def next (run : Bool) (channelsIn : z.Channels → BitVec z.greyBits) : Serialiser z :=
  if s.loading run then
    { shifting := true
      shifts := fun i => (channelsIn i).setWidth 16
      count := BitVec.ofNat 5 SPWM_BITS }
  else if s.shifting then
    if s.count = 1 then { s with shifting := false, count := s.count - 1 }
    else { s with shifts := fun i => shiftUp (s.shifts i), count := s.count - 1 }
  else s

end Serialiser

/-- The widths of the row pulse and how many passes there are between two wide ones, all of it live. -/
structure RowPulses where
  pulseW : BitVec 5
  pulseWFirst : BitVec 5
  passesM1 : BitVec 7

/-- `Icn1065RowScanner`, without the count of pulses left, which nothing reads. -/
structure RowScanner where
  inSlot : Bool := false
  row : ℕ := 0
  left : ℕ := 0
  passN : BitVec 7 := 0

namespace RowScanner

variable (rowsPerFrame slotLen : ℕ) (s : RowScanner) (p : RowPulses)

def busy : Bool := s.inSlot

/-- The first row of a pass after which the count of passes was cleared has the wide pulse. -/
def wide : Bool := s.row == 0 && s.passN == 0

def width : ℕ := (if s.wide then p.pulseWFirst else p.pulseW).toNat

def oe : Bool := s.inSlot && decide ((slotLen : ℤ) - s.width p < s.left)

def next (start : Bool) : RowScanner :=
  if s.inSlot then
    if s.left = 1 then
      if s.row = rowsPerFrame - 1 then
        { s with
          inSlot := false
          left := 0
          passN := if s.passN ≥ p.passesM1 then 0 else s.passN + 1 }
      else { s with row := s.row + 1, left := slotLen }
    else { s with left := s.left - 1 }
  else if start then { s with inSlot := true, row := 0, left := slotLen }
  else s

end RowScanner

/-- The live settings of an output. -/
structure OutputConfig extends RowPulses where
  dataLatchEn : Bool
  chanRev : Bool
  chanXor : BitVec 4
  sweepAdv : BitVec 3
  latchPhase : BitVec 4

namespace Icn1065Output

inductive Fsm
  | idle
  | prefixReq
  | prefixWait
  | phase
  | pixels
  | drain
  | hold
  deriving DecidableEq

end Icn1065Output

/-- `Icn1065Output`, with a prefix that all outputs share. -/
structure Icn1065Output (z : Shape) where
  fsm : Icn1065Output.Fsm := .idle
  ser : Serialiser z := {}
  scan : RowScanner := {}
  sect : ℕ := 0
  chan : BitVec 4 := 0
  row : ℕ := 0
  primed : Bool := false
  phaseN : BitVec 4 := 0
  phaseGap : BitVec 4 := 0

namespace Icn1065Output

variable {z : Shape} (s : Icn1065Output z) (c : OutputConfig) (pre : SpwmPrefix)

def advSum : BitVec 5 := s.chan.setWidth 5 + c.sweepAdv.setWidth 5

def chanA : BitVec 4 := (s.advSum c).setWidth 4

def sweepCarry : Bool := (s.advSum c).msb

def chanEff : BitVec 4 := (if c.chanRev then ~~~(s.chanA c) else s.chanA c) ^^^ c.chanXor

/-- `pix_col` and `pix_row`: the pixel that is asked for. -/
def pixCol : ℕ := CHANNELS_PER_CHIP * s.sect + (s.chanEff c).toNat

def pixRow : ℕ :=
  if s.sweepCarry c then if s.row = z.rowsPerFrame - 1 then 0 else s.row + 1 else s.row

def prefixReq : Bool := s.fsm = .prefixReq

def run : Bool := s.fsm = .pixels

def pixReq : Bool :=
  match s.fsm with
  | .prefixWait => !s.primed
  | .pixels => s.ser.loading s.run
  | _ => false

/-- The latch at the end of a sweep, which is when the counter of the sections has wrapped. -/
def dataLat : Bool :=
  c.dataLatchEn && s.ser.lastBit && s.sect == 0 && decide (s.fsm = .pixels ∨ s.fsm = .drain)

def phaseLat : Bool := s.fsm = .phase && s.phaseN ≠ 0 && s.phaseGap == 0

def lat : Bool := pre.lat || s.dataLat c || s.phaseLat

def oe : Bool := s.scan.oe z.slotLen c.toRowPulses

/-- The colour lines: the prefix's lanes while it is busy, each group with all three of them. -/
def rgb : z.Channels → Bool :=
  if pre.busy then fun i => pre.dataOut ⟨i % 3, Nat.mod_lt _ (by decide)⟩ else s.ser.channelsOut

def frameDone : Bool := s.fsm = .drain && !s.ser.busy

/-- The counters behind a word that the serialiser takes. -/
def advance : Icn1065Output z :=
  if s.sect = z.sections - 1 then
    if s.chan = 15 then
      if s.row = z.rowsPerFrame - 1 then { s with sect := 0, chan := 0, fsm := .drain }
      else { s with sect := 0, chan := 0, row := s.row + 1 }
    else { s with sect := 0, chan := s.chan + 1 }
  else { s with sect := s.sect + 1 }

/-- One panel clock. -/
def next (start : Bool) (pixIn : z.Channels → BitVec z.greyBits) : Icn1065Output z :=
  let s' := { s with
    ser := s.ser.next s.run pixIn
    scan := s.scan.next z.rowsPerFrame z.slotLen c.toRowPulses (!s.scan.busy) }
  match s.fsm with
  | .idle | .hold => if start then { s' with sect := 0, chan := 0, row := 0, fsm := .prefixReq } else s'
  | .prefixReq => { s' with primed := false, fsm := .prefixWait }
  | .prefixWait =>
    if pre.busy then { s' with primed := true }
    else { s' with primed := true, phaseN := c.latchPhase, phaseGap := 15, fsm := .phase }
  | .phase =>
    if s.phaseN = 0 then { s' with fsm := .pixels }
    else if s.phaseGap = 0 then { s' with phaseGap := 15, phaseN := s.phaseN - 1 }
    else { s' with phaseGap := s.phaseGap - 1 }
  | .pixels => if s.ser.loading s.run then s'.advance else s'
  | .drain => if s.ser.busy then s' else { s' with fsm := .hold }

end Icn1065Output

end Ledwall.Gateware.Spwm
