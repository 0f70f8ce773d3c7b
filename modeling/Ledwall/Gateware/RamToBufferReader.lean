import Ledwall.Gateware.Hub75UdpDma

/-! The HUB75 scan-out's way from the framebuffer to the row buffers, one clock cycle at a time: the
address generator, the reads on their way, the palette lookup, the gamma stage and the writer. -/

namespace Ledwall.Gateware

/-- `fb_base_eff` after a cycle: a write to `fb_base` wins over the swap. -/
def nextFbBase (base : BitVec 20) (write : Option (BitVec 20)) (autoSwap swapReq : Bool) :
    BitVec 20 :=
  match write with
  | some b => b
  | none =>
    if autoSwap && swapReq then
      if base = sdramOffset.setWidth 20 then (sdramOffset + halfWords).setWidth 20
      else sdramOffset.setWidth 20
    else base

def paletteBank (base : BitVec 20) : Bool := base ≠ sdramOffset.setWidth 20

/-- A word address, as the framebuffer base it counts from and the offset added to it. -/
structure FbAddress where
  base : BitVec 20 := sdramOffset.setWidth 20
  offset : BitVec 32 := 0
  deriving DecidableEq, Repr

def FbAddress.word (a : FbAddress) : BitVec 32 := a.base.setWidth 32 + a.offset

/-- Where a word was read from, and the palette bank on the lookup's address when it came back. -/
structure Lookup where
  adr : FbAddress := {}
  bank : Bool := false
  deriving DecidableEq, Repr

/-- The bank is that of the half the word was read from. -/
def Lookup.Matched (l : Lookup) : Prop := l.bank = paletteBank l.adr.base

instance (l : Lookup) : Decidable l.Matched := inferInstanceAs (Decidable (_ = _))

structure Pixel extends Lookup where
  colour : BitVec 24 := 0
  deriving DecidableEq, Repr

/-- The constructor arguments that size the scan-out. -/
structure PanelSize where
  columns : ℕ
  rowsPerHalf : ℕ
  chainLength2 : ℕ
  nOutputs : ℕ
  deriving DecidableEq, Repr

namespace PanelSize

variable (z : PanelSize)

def columnsBits : ℕ := (z.columns - 1).size
def outputsBits : ℕ := (z.nOutputs - 1).size
def counterMax : ℕ := z.columns * 2 * 2 ^ z.chainLength2 * z.nOutputs - 1

/-- The width of the counters of the address generator and of the writer. -/
def counterBits : ℕ := z.columnsBits + 1 + z.chainLength2 + z.outputsBits

end PanelSize

structure PanelConfig where
  x : BitVec 8 := 0
  y : BitVec 8 := 0
  rot : BitVec 2 := 0
  deriving DecidableEq, Repr

structure RamAddressGenerator where
  counter : ℕ := 0
  started : Bool := false
  curPanelConfig : PanelConfig := {}
  configLookupValid : Bool := false
  counterPrevious : ℕ := 0
  adr : FbAddress := {}
  valid : Bool := false
  deriving DecidableEq, Repr

/-- What the scan-out sees from outside in one cycle. The read port's side is the environment's: whether
a read is accepted, whether the oldest one's word is there, and what the memory holds. -/
structure ScanInputs where
  start : Bool := false
  row : ℕ := 0
  usePalette : Bool := true
  imageWidth : BitVec 16 := 0
  panelConfig : ℕ → PanelConfig := fun _ => {}
  preventRead : Bool := false
  sinkReady : Bool := true
  sourceValid : Bool := false
  ram : BitVec 32 → BitVec 32 := fun _ => 0
  palette : BitVec 9 → BitVec 32 := fun _ => 0
  fbBase : Option (BitVec 20) := none
  autoSwap : Bool := false
  swapReq : Bool := false

/-- The low `n` bits of a difference. -/
def subBits (n : ℕ) (a : ℤ) (b : ℕ) : ℕ := ((a - b) % 2 ^ n).toNat

namespace RamAddressGenerator

variable (z : PanelSize) (g : RamAddressGenerator) (enable : Bool) (base : BitVec 20) (i : ScanInputs)

def en : Bool := g.counter < 2 || enable
def running : Bool := i.start || g.counter ≠ 0
def counterSelect : ℕ := g.counter / 2 ^ (z.columnsBits + 1)
def collumn : ℕ := g.counterPrevious % 2 ^ z.columnsBits
def halfSelect : ℕ := g.counterPrevious / 2 ^ z.columnsBits % 2
def rowComb : ℕ := (g.halfSelect z * z.rowsPerHalf + i.row) % 2 ^ 7

def xOffset : ℕ :=
  match g.curPanelConfig.rot with
  | 0 => g.collumn z % 2 ^ z.columnsBits
  | 1 => subBits z.columnsBits (z.rowsPerHalf - 1) (g.rowComb z i)
  | 2 => subBits z.columnsBits (z.columns - 1) (g.collumn z)
  | 3 => g.rowComb z i % 2 ^ z.columnsBits

def yOffset : ℕ :=
  match g.curPanelConfig.rot with
  | 0 => g.rowComb z i % 2 ^ 7
  | 1 => g.collumn z % 2 ^ 7
  | 2 => subBits 7 (z.rowsPerHalf - 1) (g.rowComb z i)
  | 3 => subBits 7 (z.columns - 1) (g.collumn z)

/-- What is added to the base. -/
def offset : BitVec 32 := BitVec.ofNat 32 <|
  (g.yOffset z i + g.curPanelConfig.y.toNat * 16) * i.imageWidth.toNat + g.xOffset z i +
    g.curPanelConfig.x.toNat * 16

def nextCounter : ℕ :=
  if g.counter = 0 then if i.start then 1 else 0
  else if g.counter = z.counterMax ∧ g.en enable then 0
  else if g.en enable then (g.counter + 1) % 2 ^ z.counterBits
  else g.counter

def nextStarted : Bool :=
  if g.en enable && g.valid && !g.configLookupValid then false else i.start || g.started

def next : RamAddressGenerator where
  counter := g.nextCounter z enable i
  started := g.nextStarted enable i
  curPanelConfig := if g.en enable then i.panelConfig (g.counterSelect z) else g.curPanelConfig
  configLookupValid := if g.en enable then g.running i else g.configLookupValid
  counterPrevious := if g.en enable then g.counter else g.counterPrevious
  adr := if g.en enable then ⟨base, g.offset z i⟩ else g.adr
  valid := if g.en enable then g.configLookupValid else g.valid

end RamAddressGenerator

/-- A row buffer's write port: what it writes when `we`, where. -/
structure WritePort where
  adr : ℕ := 0
  datW : Pixel := {}
  we : Bool := false
  deriving DecidableEq, Repr

/-- The reader with the reads its port has accepted and not yet returned, in order. -/
structure RamToBufferReader where
  ramAdr : RamAddressGenerator := {}
  reads : List FbAddress := []
  sourceReady : Bool := false
  rsvLevel : BitVec 5 := 0
  paletteRead : BitVec 32 := 0
  paletteData : Pixel := {}
  paletteDataValid : Bool := false
  paletteDataDone : Bool := false
  gammaData : Pixel := {}
  gammaDataValid : Bool := false
  gammaDataDone : Bool := false
  bufferCounter : ℕ := 0
  bufferDone : Bool := false
  done : Bool := false
  ports : ℕ → WritePort := fun _ => {}

namespace RamToBufferReader

variable (z : PanelSize) (gamma : BitVec 8 → BitVec 8) (r : RamToBufferReader) (base : BitVec 20)
  (i : ScanInputs)

def sinkValid : Bool := r.ramAdr.valid && !i.preventRead
def accepts : Bool := r.sinkValid i && i.sinkReady

/-- The oldest read's word is on the source. -/
def sourceValid : Bool := i.sourceValid && !r.reads.isEmpty
def returns : Bool := r.sourceValid i && r.sourceReady
def head : FbAddress := r.reads.headD {}
def ramData : BitVec 32 := i.ram r.head.word
def ramDone : Bool := !r.ramAdr.started && r.rsvLevel == 0 && !r.sourceValid i

def nextReads : List FbAddress :=
  (if r.returns i then r.reads.tail else r.reads) ++ if r.accepts i then [r.ramAdr.adr] else []

def nextSourceReady : Bool :=
  r.sourceValid i || !(!r.ramAdr.started && r.rsvLevel == 0)

def nextRsvLevel : BitVec 5 :=
  if r.accepts i then if r.returns i then r.rsvLevel else r.rsvLevel + 1
  else if r.returns i then r.rsvLevel - 1
  else r.rsvLevel

/-- `palette_data`: the entry looked up a cycle ago, or the word's own low 24 bits. -/
def lookedUp : BitVec 24 :=
  if i.usePalette then r.paletteRead.setWidth 24 else r.paletteData.colour

def corrected (c : BitVec 24) : BitVec 24 :=
  gamma (c.extractLsb' 16 8) ++ gamma (c.extractLsb' 8 8) ++ gamma (c.extractLsb' 0 8)

def bufferSelect : ℕ := r.bufferCounter / 2 ^ (z.columnsBits + 1 + z.chainLength2)

/-- The half in the lowest bit, then the column, then the chain position. -/
def bufferAddress : ℕ :=
  r.bufferCounter / 2 ^ z.columnsBits % 2 + 2 * (r.bufferCounter % 2 ^ z.columnsBits) +
    2 ^ (z.columnsBits + 1) * (r.bufferCounter / 2 ^ (z.columnsBits + 1) % 2 ^ z.chainLength2)

/-- An index outside the array names its last element. -/
def portAt (k : ℤ) : ℕ := if 0 ≤ k ∧ k < z.nOutputs then k.toNat else z.nOutputs - 1

def nextPort (k : ℕ) : WritePort :=
  if r.gammaDataValid then
    { adr := r.bufferAddress z, datW := r.gammaData
      we := if k = portAt z (r.bufferSelect z) then true
        else if k = portAt z (r.bufferSelect z - 1) then false else (r.ports k).we }
  else if r.gammaDataDone && !r.bufferDone then
    { r.ports k with we := k ≠ portAt z (r.bufferSelect z - 1) && (r.ports k).we }
  else r.ports k

def next : RamToBufferReader where
  ramAdr := r.ramAdr.next z (i.sinkReady && !i.preventRead) base i
  reads := r.nextReads i
  sourceReady := r.nextSourceReady i
  rsvLevel := r.nextRsvLevel i
  paletteRead := i.palette (BitVec.ofBool (paletteBank base) ++ (r.ramData i).setWidth 8)
  paletteData := ⟨⟨r.head, paletteBank base⟩, (r.ramData i).setWidth 24⟩
  paletteDataValid := r.sourceValid i
  paletteDataDone := r.ramDone i
  gammaData := { r.paletteData with colour := corrected gamma (r.lookedUp i) }
  gammaDataValid := r.paletteDataValid
  gammaDataDone := r.paletteDataDone
  bufferCounter :=
    if r.gammaDataValid then (r.bufferCounter + 1) % 2 ^ z.counterBits
    else if r.gammaDataDone && !r.bufferDone then 0
    else r.bufferCounter
  bufferDone := r.gammaDataDone
  done := if !r.gammaDataValid && r.gammaDataDone && !r.bufferDone then true
    else !i.start && r.done
  ports := r.nextPort z

end RamToBufferReader

/-- The scan-out with the base it follows. -/
structure ScanOut where
  fbBaseEff : BitVec 20 := sdramOffset.setWidth 20
  reader : RamToBufferReader := {}

namespace ScanOut

variable (z : PanelSize) (gamma : BitVec 8 → BitVec 8) (s : ScanOut) (i : ScanInputs)

def next : ScanOut where
  fbBaseEff := nextFbBase s.fbBaseEff i.fbBase i.autoSwap i.swapReq
  reader := s.reader.next z gamma s.fbBaseEff i

def after (is : List ScanInputs) : ScanOut := is.foldl (next z gamma) s

end ScanOut

end Ledwall.Gateware
