import Ledwall.Layout.LayoutConfig
import Ledwall.Layout.SpwmTables
import Ledwall.Library.Overlays

/-! The registers of the output stage a layout reaches, and the driver calls that write them. -/

namespace Ledwall.Layout

open Ledwall.Wire Ledwall.Library.Overlays

def CHAIN_LENGTH : ℕ := 1
def OUTPUTS : ℕ := 4

/-- What the bitstream reports of itself. `spwm` is the stage the firmware was built for, and a
register that is absent reads 0 and drops its writes. -/
structure Bitstream where
  spwm : Bool
  hwColumns : BitVec 16
  hwRows : BitVec 16
  hwConfig : BitVec 16
  hwDriver : Byte
  rgbOrderCsr : Bool

namespace Bitstream

variable (b : Bitstream)

def scan : Byte := b.hwConfig.setWidth 8

def chainLength2 : ℕ := if b.hwDriver ≠ 0 then 0 else ((b.hwConfig >>> 8) &&& 0xF#16).toNat

def nOutputs : ℕ := ((b.hwConfig >>> 12) &&& 0xF#16).toNat

def panelCsrCount : ℕ :=
  let fw := OUTPUTS * CHAIN_LENGTH
  let hw := b.nOutputs * 2 ^ b.chainLength2
  if hw = 0 then fw else min fw hw

theorem panelCsrCount_le : b.panelCsrCount ≤ OUTPUTS := by
  rw [panelCsrCount]
  split
  · exact Nat.le_refl _
  · exact Nat.min_le_left _ _

end Bitstream

structure PanelParam where
  x : Byte
  y : Byte
  rot : BitVec 2
  deriving DecidableEq, Repr

structure ChipCfg where
  regCount : BitVec 7
  slots : BitVec 4
  rotSlot : BitVec 4
  midLatch : Bool
  rowPulse : BitVec 5
  rowPulseFirst : BitVec 5
  dataLatch : Bool
  chanRev : Bool
  rowAddress : Bool
  rowAddrShift : BitVec 3
  deriving DecidableEq, Repr

/-- `mapping` is the pins, polarities and widths, which no layout writes. -/
structure RowSer where
  enable : Bool
  mapping : BitVec 21
  deriving DecidableEq, Repr

structure LatchCfg where
  latchPhase : BitVec 4
  chanXor : BitVec 4
  sweepAdv : BitVec 3
  passes : BitVec 7
  deriving DecidableEq, Repr

structure Csrs where
  panel : ℕ → PanelParam
  rgbOrder : Byte
  groupOrigin : ℕ → Byte × Byte
  clkDiv : Byte
  throttle : BitVec 4
  chipTable : ℕ → Row
  chipCfg : ChipCfg
  rowSer : RowSer
  latchCfg : LatchCfg
  pixelFilterEnable : Bool

namespace Csrs

variable (b : Bitstream) (c : Csrs)

def readRgbOrder : Byte := if b.rgbOrderCsr then c.rgbOrder else 0

/-- The flag says whether the order could be applied. -/
def setRgbOrder (order : Byte) : Bool × Csrs :=
  let o := if 5 < order then 0 else order
  let c := if b.rgbOrderCsr then { c with rgbOrder := o } else c
  (o == 0 || c.readRgbOrder b == o, c)

def originCsr (xy : BitVec 16 × BitVec 16) : Byte × Byte :=
  ((xy.1 / 16).setWidth 8, (xy.2 / 16).setWidth 8)

/-- One group's write. The count of the writes is not modelled: no caller reads it. -/
def setGroupOrigin (g : ℕ) (xy : BitVec 16 × BitVec 16) : Csrs :=
  if g < MAX_GROUPS then
    { c with groupOrigin := Function.update c.groupOrigin g (originCsr xy) }
  else c

def setGroupOrigins (origins : List (BitVec 16 × BitVec 16)) : Csrs :=
  if b.spwm then (origins.zipIdx).foldl (fun c p => c.setGroupOrigin p.2 p.1) c else c

def setPanelParam (output chainNum : ℕ) (x y : Byte) (rot : BitVec 2) : Csrs :=
  if OUTPUTS ≤ output ∨ CHAIN_LENGTH ≤ chainNum then c
  else
    let chainOffset := output * CHAIN_LENGTH + chainNum
    if b.panelCsrCount ≤ chainOffset then c
    else { c with panel := Function.update c.panel chainOffset ⟨x, y, rot⟩ }

def writeRow (addr : ℕ) (row : Row) : Csrs :=
  { c with chipTable := Function.update c.chipTable addr row }

def writeRows (base : ℕ) (rows : List Row) : Csrs :=
  (rows.zipIdx base).foldl (fun c p => c.writeRow p.2 p.1) c

end Csrs

inductive Configured
  | default
  | chip (name : String)
  | unknown
  deriving DecidableEq, Repr

namespace Chip

variable (chip : Chip)

/-- The scan-row count patched into the register that carries it. -/
def withScan (row : Row) (rows : BitVec 16) : Row :=
  if (row.r >>> 8).setWidth 8 ≠ chip.scanReg then row
  else
    let keep := row.r.setWidth 8 &&& ~~~chip.scanMask
    let v := chip.scanReg.setWidth 16 <<< 8 ||| keep.setWidth 16 |||
      ((rows - 1) &&& chip.scanMask.setWidth 16)
    ⟨v, v, v⟩

def grammar : ChipCfg where
  regCount := .ofNat 7 chip.regs.length
  slots := chip.slots.setWidth 4
  rotSlot := chip.rotSlot.setWidth 4
  midLatch := chip.midLatch
  rowPulse := chip.rowPulse.setWidth 5
  rowPulseFirst := chip.rowPulseFirst.setWidth 5
  dataLatch := chip.dataLatch != 0
  chanRev := chip.chanRev != 0
  rowAddress := chip.rowAddress != 0
  rowAddrShift := chip.rowAddrShift.setWidth 3

/-- Table first, grammar last. -/
def load (c : Csrs) (scan : BitVec 16) : Csrs :=
  let c := c.writeRows 0 (chip.regs.map fun row => chip.withScan row scan)
  let c := c.writeRows MAX_REGS chip.wrappers
  { c with
    chipCfg := chip.grammar
    rowSer := { c.rowSer with enable := chip.rowSerial != 0 }
    latchCfg := { c.latchCfg with
      chanXor := chip.chanXor.setWidth 4
      sweepAdv := chip.sweepAdv.setWidth 3
      passes := chip.passesM1.setWidth 7 } }

end Chip

/-- The chip a name selects: none for no name and for an unknown one. -/
def selectedChip (name : List Byte) : Option Chip :=
  if name.isEmpty then none else chipByName name

def configure (c : Csrs) (name : Option (List Byte)) (scan : BitVec 16) : Configured × Csrs :=
  match name with
  | none => (.default, c)
  | some name =>
    if name.isEmpty then (.default, c)
    else
      match chipByName name with
      | none => (.unknown, c)
      | some chip => (.chip chip.name, chip.load c scan)

theorem configure_some (c : Csrs) (name : List Byte) (scan : BitVec 16) :
    (configure c (some name) scan).2 =
      (match selectedChip name with
      | none => c
      | some chip => chip.load c scan) := by
  simp only [configure, selectedChip]
  split
  · rfl
  · split <;> rfl

namespace Csrs

variable (b : Bitstream) (c : Csrs)

theorem setRgbOrder_read (order : Byte) : (c.setRgbOrder b order).2.readRgbOrder b =
    if b.rgbOrderCsr then (if 5 < order then 0 else order) else 0 := by
  cases hb : b.rgbOrderCsr <;> simp [setRgbOrder, readRgbOrder, hb]

theorem writeRows_eq (base : ℕ) (rows : List Row) : c.writeRows base rows =
    { c with chipTable := fun a =>
        if base ≤ a then (rows[a - base]?).getD (c.chipTable a) else c.chipTable a } := by
  have hloop : c.writeRows base rows =
      { c with chipTable :=
          (rows.zipIdx base).foldl (fun f p => Function.update f p.2 p.1) c.chipTable } := by
    rw [writeRows]
    induction rows generalizing base c with
    | nil => rfl
    | cons row rows ih => exact ih (c.writeRow base row) (base + 1)
  rw [hloop, mk.injEq]
  simp only [true_and, and_true]
  funext a
  simpa using updates_apply c.chipTable id rows base a

theorem setGroupOrigins_eq (origins : List (BitVec 16 × BitVec 16))
    (ho : origins.length ≤ MAX_GROUPS) : c.setGroupOrigins b origins =
      { c with groupOrigin := fun g =>
          if b.spwm then ((origins[g]?).map originCsr).getD (c.groupOrigin g)
          else c.groupOrigin g } := by
  rw [setGroupOrigins]
  cases b.spwm with
  | false => rfl
  | true =>
    have hloop (base : ℕ) (hb : base + origins.length ≤ MAX_GROUPS) :
        (origins.zipIdx base).foldl (fun c p => c.setGroupOrigin p.2 p.1) c =
          { c with
            groupOrigin := (origins.zipIdx base).foldl
              (fun f p => Function.update f p.2 (originCsr p.1)) c.groupOrigin } := by
      induction origins generalizing base c with
      | nil => rfl
      | cons xy origins ih =>
        rw [List.length_cons] at ho hb
        rw [List.zipIdx_cons, List.foldl_cons, ih _ (by omega) _ (by omega), setGroupOrigin,
          if_pos (by omega)]
        rfl
    rw [if_pos rfl, hloop 0 (by omega), mk.injEq]
    simp only [true_and, and_true]
    funext g
    simpa using updates_apply c.groupOrigin originCsr origins 0 g

end Csrs

end Ledwall.Layout
