import Ledwall.Layout.OutputStage
import Ledwall.Layout.TestScreen
import Ledwall.Receiver.BitmapReceiver

/-! Applying a layout, and what the display state remembers of the layouts applied before. -/

namespace Ledwall.Layout

open Ledwall.Wire Ledwall.Receiver Ledwall.Library.Overlays

/-- The program mode's statics. -/
structure ProgramState where
  fn : Option Program
  dynamic : Option (ℕ × ℕ)
  fullLeft : ℕ
  primeLeft : ℕ
  name : String
  active : Bool
  frame : ℕ
  nextMs : ℕ
  paletteDirty : Bool

structure Card where
  hub75Ptr : Bool
  layoutPtr : Bool
  hub75 : Hub75
  csrs : Csrs
  rx : BitmapReceiver
  layout : LayoutConfig
  spwmState : Configured
  rgbOrderUnsupported : Bool
  outputMismatch : ℕ
  moduleMismatch : ℕ
  prog : ProgramState

namespace Card

variable (b : Bitstream) (layout : LayoutConfig) (s : Card)

def setStreamHold (on : Bool) : Card :=
  let s := { s with rx := s.rx.setHold on }
  if s.hub75Ptr then { s with hub75 := s.hub75.setDmaEnabled (!on) } else s

/-- The chip, on a build with an S-PWM stage. -/
def configureDriver : Card :=
  if b.spwm then
    let scan := if 0 < b.scan then b.scan.setWidth 16 else .ofNat 16 layout.scanRows
    let res := configure s.csrs (some layout.drive) scan
    { s with csrs := res.2, spwmState := res.1 }
  else s

def setOperatingPoint : Card :=
  { s with
    csrs :=
      let c := if 2 ≤ layout.clkDiv then { s.csrs with clkDiv := layout.clkDiv } else s.csrs
      if 0 < layout.writeThrottle then { c with throttle := layout.writeThrottle.setWidth 4 }
      else c }

def checkBitstream : Card :=
  { s with
    outputMismatch := if b.nOutputs ≠ OUTPUTS then b.nOutputs else 0
    moduleMismatch :=
      if b.hwColumns ≠ 0 ∧ (b.hwColumns ≠ layout.panelWidth ∨ b.hwRows ≠ layout.panelHeight) then 1
      else 0 }

def placeSlot (output : Fin MAX_OUTPUTS) (chain : Fin MAX_CHAIN) (c : Csrs) : Csrs :=
  match layout.assignments output chain with
  | some cell =>
    c.setPanelParam b output chain (layout.placement cell).1 (layout.placement cell).2 0
  | none => c

/-- The loop of `LayoutConfig::apply` over the outputs and their chain slots. -/
def placePanels (c : Csrs) : Csrs :=
  (List.finRange MAX_OUTPUTS).foldl (fun c output =>
    (List.finRange MAX_CHAIN).foldl (fun c chain => placeSlot b layout output chain c) c) c

/-- `LayoutConfig::apply` -/
def applyGeometry : Card :=
  let s := { s with hub75 := s.hub75.setImgParam layout.virtualWidth layout.virtualLength }
  let ordered := s.csrs.setRgbOrder b layout.rgbOrder
  let s := { s with
    csrs := ordered.2
    rgbOrderUnsupported := if ordered.1 then s.rgbOrderUnsupported else true }
  { s with csrs := placePanels b layout (s.csrs.setGroupOrigins b layout.groupOrigins) }

def drawTestScreen : Card :=
  let w := layout.virtualWidth
  let h := layout.virtualHeight
  let hub75 := s.hub75.setImgParam w (w.setWidth 32 * h.setWidth 32)
  let hub75 := hub75.writeImgData 0
    (gridTiled w.toNat h.toNat layout.panelWidth.toNat layout.panelHeight.toNat)
  let hub75 := hub75.drawVersionBanners w.toNat h.toNat layout.panelWidth.toNat
    layout.panelHeight.toNat
  { s with hub75 := hub75.swapBuffers }

/-- `mode: program`. A name this firmware does not have falls back to the stream. -/
def startProgram : Except Panic Card :=
  if layout.mode = .program then
    match programByName layout.program with
    | some pr => do
      let s := { s with
        prog := { s.prog with
          fn := some pr
          dynamic := pr.dynamic
          fullLeft := 2
          primeLeft := 2
          name := pr.name
          active := true
          frame := 0
          nextMs := 0 } }
      let hub75 ← s.hub75.setPaletteAll 0 paletteDefault
      return setStreamHold { s with hub75 := hub75 } true
    | none => .ok (setStreamHold { s with prog := { s.prog with active := false } } false)
  else .ok s

def applyLayout : Except Panic Card :=
  if s.hub75Ptr = false ∨ s.layoutPtr = false then .ok s
  else
    let s := s.configureDriver b layout
    let s := s.setOperatingPoint layout
    let s := s.checkBitstream b layout
    let s := s.applyGeometry b layout
    let s := { s with layout := layout }
    let s := s.drawTestScreen layout
    s.startProgram layout

end Card

/-- The display state a layout is about, item by item. -/
inductive Item
  | imageWidth
  | imageLength
  | dmaLimit
  | panel (n : ℕ)
  | rgbOrder
  | groupOrigin (g : ℕ)
  | clkDiv
  | throttle
  | chipRow (addr : ℕ)
  | chipCfg
  | rowSerial
  | chanXor
  | sweepAdv
  | passes
  | programActive
  | hold
  | dmaEnable
  | pixelFilter
  | paletteDirty

abbrev Item.Val : Item → Type
  | imageWidth | imageLength | dmaLimit => ℕ
  | panel _ => PanelParam
  | rgbOrder | clkDiv => Byte
  | groupOrigin _ => Byte × Byte
  | throttle | chanXor => BitVec 4
  | chipRow _ => Row
  | chipCfg => ChipCfg
  | sweepAdv => BitVec 3
  | passes => BitVec 7
  | rowSerial | programActive | hold | dmaEnable | pixelFilter | paletteDirty => Bool

def Card.display (b : Bitstream) (s : Card) : (i : Item) → i.Val
  | .imageWidth => s.hub75.ctrlWidth
  | .imageLength => s.hub75.length
  | .dmaLimit => s.hub75.dmaLimit
  | .panel n => s.csrs.panel n
  | .rgbOrder => s.csrs.readRgbOrder b
  | .groupOrigin g => s.csrs.groupOrigin g
  | .clkDiv => s.csrs.clkDiv
  | .throttle => s.csrs.throttle
  | .chipRow addr => s.csrs.chipTable addr
  | .chipCfg => s.csrs.chipCfg
  | .rowSerial => s.csrs.rowSer.enable
  | .chanXor => s.csrs.latchCfg.chanXor
  | .sweepAdv => s.csrs.latchCfg.sweepAdv
  | .passes => s.csrs.latchCfg.passes
  | .programActive => s.prog.active
  | .hold => s.rx.hold
  | .dmaEnable => s.hub75.dmaEnable
  | .pixelFilter => s.csrs.pixelFilterEnable
  | .paletteDirty => s.prog.paletteDirty

end Ledwall.Layout
