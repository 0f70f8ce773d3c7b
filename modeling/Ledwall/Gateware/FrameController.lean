import Ledwall.Gateware.ReaderPace
import Ledwall.Gateware.RowModule

/-! The HUB75 controller cycle by cycle: the frame controller, the row controller, the prefetching
reader and the shift-out, with what the panels on the outputs take in and show. -/

namespace Ledwall.Gateware

structure Hub75Config where
  size : PanelSize
  scan : ℕ
  brightnessPsc : ℕ
  gamma : BitVec 8 → BitVec 8
  rgbOrder : BitVec 3

inductive FrameFsm
  | rst
  | wait
  | latch
  deriving DecidableEq, Repr

structure FrameController where
  fsm : FrameFsm := .rst
  counter : ℕ := 0
  brightnessBit : ℕ := 0
  brightnessCounter : ℕ := 0
  rowActive : ℕ := 0
  rowShifting : ℕ := 0
  deriving DecidableEq, Repr

namespace FrameController

variable (z : Hub75Config) (c : FrameController) (shiftingDone enable : Bool)

def startShifting : Bool :=
  match c.fsm with
  | .rst => true
  | .wait => false
  | .latch => c.counter == 0

def lat : Bool := c.fsm == .latch

/-- Active low. -/
def oe : Bool := c.brightnessCounter == 0 || c.counter != 0

def refreshTick : Bool :=
  c.fsm == .latch && c.counter == 0 && c.brightnessBit == 0 && decide (z.scan - 1 ≤ c.rowShifting)

def count : FrameController :=
  { c with
    counter := c.counter - 1
    brightnessCounter := if c.brightnessCounter ≠ 0 ∧ c.counter = 0 then c.brightnessCounter - 1
      else c.brightnessCounter }

/-- What the state machine sets wins over the counting. -/
def next : FrameController :=
  match c.fsm with
  | .rst => { c.count with fsm := .wait }
  | .wait =>
    if c.brightnessCounter == 0 && shiftingDone && enable then { c.count with counter := 7, fsm := .latch }
    else c.count
  | .latch =>
    if c.counter = 0 then
      let shown := { c.count with
        counter := 7, brightnessCounter := 2 ^ c.brightnessBit * z.brightnessPsc, fsm := .wait }
      if c.brightnessBit ≠ 0 then
        { shown with rowActive := c.rowShifting, brightnessBit := c.brightnessBit - 1 }
      else
        { shown with
          rowShifting := if z.scan - 1 ≤ c.rowShifting then 0 else c.rowShifting + 1
          brightnessBit := 7 }
    else c.count

end FrameController

inductive RowFsm
  | idle
  | waitTillStart
  | shiftOut
  deriving DecidableEq, Repr

/-- The registers between a row buffer and the pins of its output. -/
structure PinRegisters where
  datR : Pixel := {}
  outputsBuffer : Pins × Pins := ({}, {})
  outputs : Pins × Pins := ({}, {})
  deriving DecidableEq, Repr

/-- The row buffers: by bank, output and address. -/
structure Hub75 where
  common : FrameController := {}
  fsm : RowFsm := .idle
  shiftingBuffer : Bool := false
  rowBuffers : Bool → ℕ → ℕ → Pixel
  reader : RamToBufferReader := {}
  rowModule : RowModule := {}
  pins : ℕ → PinRegisters := fun _ => {}

/-- What comes from outside in a cycle. The row of the settings is the controller's own. -/
structure HubCycle where
  enable : Bool
  settings : RowSettings
  port : PortCycle

namespace Hub75

variable (z : Hub75Config) (w : Hub75) (c : HubCycle)

def rowStart : Bool := w.fsm == .idle && w.common.startShifting

def memStart : Bool := w.rowStart && w.common.brightnessBit == 7

def shiftingDone : Bool := w.fsm == .idle && !w.common.startShifting

/-- `buffer_reader.done`. -/
def readerDone : Bool := !w.memStart && w.reader.done

def nextRow : ℕ := if z.scan - 1 ≤ w.common.rowShifting then 0 else w.common.rowShifting + 1

/-- The bank that is shifted out. -/
def shownBank : ℕ → ℕ → Pixel := w.rowBuffers w.shiftingBuffer

/-- The reader with the bank that it fills. -/
def filling : RowFetch where
  reader := w.reader
  buffers := w.rowBuffers !w.shiftingBuffer

def filled : RowFetch :=
  w.filling.next z.size z.gamma { c.settings with row := w.nextRow z } w.memStart c.port

/-- The row counter with the registers of output `o`. -/
def lane (o : ℕ) : ShiftOut :=
  let p := w.pins o
  ⟨w.rowModule, p.datR, p.outputsBuffer, p.outputs⟩

def nextLane (o : ℕ) : ShiftOut :=
  (w.lane o).next z.size (w.shownBank o) z.rgbOrder w.common.brightnessBit w.rowStart

/-- A row's last plane is out, and the next row is there. -/
def swaps : Bool :=
  w.fsm == .shiftOut && w.common.brightnessBit == 0 && !w.rowModule.shifting && w.readerDone

def nextFsm : RowFsm :=
  match w.fsm with
  | .idle => if w.common.startShifting then .waitTillStart else .idle
  | .waitTillStart => if w.rowModule.shifting then .shiftOut else .waitTillStart
  | .shiftOut =>
    if w.swaps || w.common.brightnessBit != 0 && !w.rowModule.shifting then .idle else .shiftOut

def next : Hub75 where
  common := w.common.next z w.shiftingDone c.enable
  fsm := w.nextFsm
  shiftingBuffer := w.shiftingBuffer ^^ w.swaps
  rowBuffers b := if b = !w.shiftingBuffer then (w.filled z c).buffers else w.rowBuffers b
  reader := (w.filled z c).reader
  rowModule := w.rowModule.next z.size w.rowStart
  pins o :=
    let s := w.nextLane z o
    ⟨s.datR, s.outputsBuffer, s.outputs⟩

/-- What the panels on output `o` take in at the end of the cycle. -/
def sampled (o : ℕ) : Option (Pins × Pins) :=
  (w.lane o).sampled z.size (w.shownBank o) z.rgbOrder w.common.brightnessBit w.rowStart

end Hub75

/-- What is latched, and the row lines in each cycle that it is lit. -/
structure Shown where
  data : ℕ → List (Pins × Pins)
  rows : List ℕ := []

/-- The controller with its panels: their shift registers, what they have shown and what they show,
and the rows that have been fetched, each with the words that the fetch left. -/
structure Wall where
  hub : Hub75
  registers : ℕ → List (Pins × Pins)
  past : List Shown := []
  now : Option Shown := none
  fetching : Option ℕ := none
  fetches : List (ℕ × (ℕ → ℕ → Pixel)) := []

namespace Wall

variable (z : Hub75Config) (w : Wall) (c : HubCycle)

/-- What is shown changes as the latch closes. -/
def latches : Bool := w.hub.common.lat && w.hub.common.counter == 0

def nextNow : Option Shown :=
  if w.latches then some { data := w.registers }
  else if w.hub.common.oe then w.now
  else w.now.map fun s => { s with rows := s.rows ++ [w.hub.common.rowActive] }

/-- The row whose fetch ends with this cycle. -/
def fetched : Option ℕ := w.fetching.filter fun _ => (w.hub.filled z c).reader.done

def next : Wall where
  hub := w.hub.next z c
  registers o := (w.hub.sampled z o).elim (w.registers o) fun p => (w.registers o).tail ++ [p]
  past := if w.latches then w.past ++ w.now.toList else w.past
  now := w.nextNow
  fetching :=
    if w.hub.memStart then some (w.hub.nextRow z)
    else if (w.fetched z c).isSome then none
    else w.fetching
  fetches := w.fetches ++ (w.fetched z c).toList.map fun r => (r, (w.hub.filled z c).buffers)

def shows : List Shown := w.past ++ w.now.toList

end Wall

namespace Hub75Config

variable (z : Hub75Config)

/-- The clocks that fill the panels on an output. -/
def clocks : ℕ := z.size.columns * 2 ^ z.size.chainLength2

/-- Bit `b` of a row's words on output `o`. -/
def planeOf (words : ℕ → ℕ → Pixel) (b o : ℕ) : List (Pins × Pins) :=
  (List.range z.clocks).map (ShiftOut.pair (words o) z.rgbOrder b)

/-- From reset, over any content of the memories. -/
def reset (memory : Bool → ℕ → ℕ → Pixel) : Wall where
  hub := { rowBuffers := memory }
  registers _ := List.replicate z.clocks ({}, {})

def run (memory : Bool → ℕ → ℕ → Pixel) (cs : List HubCycle) : Wall :=
  cs.foldl (Wall.next z) (z.reset memory)

end Hub75Config

/-- The planes of the rows in turn, 7 down to 0, each for its time on its row's lines, when the first
`skipped` are left out; the data from row pass `unfilled` on are the words fetched for the row. -/
structure Wall.Refreshes (z : Hub75Config) (skipped unfilled : ℕ) (w : Wall) : Prop where
  lines {k : ℕ} {s : Shown} : w.shows[k]? = some s →
    ∃ n ≤ 2 ^ (7 - (k + skipped) % 8) * z.brightnessPsc,
      s.rows = List.replicate n ((k + skipped) / 8 % z.scan)
  whole {k : ℕ} {s : Shown} : w.past[k]? = some s →
    s.rows.length = 2 ^ (7 - (k + skipped) % 8) * z.brightnessPsc
  words {k : ℕ} {s : Shown} : w.shows[k]? = some s → unfilled ≤ (k + skipped) / 8 → ∃ words,
    w.fetches[(k + skipped) / 8 - unfilled]? = some ((k + skipped) / 8 % z.scan, words) ∧
      ∀ o < z.size.nOutputs, s.data o = z.planeOf words (7 - (k + skipped) % 8) o
  steady {r : ℕ} : w.fetching = some r → w.hub.nextRow z = r

end Ledwall.Gateware
