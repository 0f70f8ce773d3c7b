import Ledwall.Wire.Protocol

/-! The framebuffer driver: two halves in SDRAM, the palette banks and the pixel DMA's registers. -/

namespace Ledwall.Receiver

open Ledwall.Wire

abbrev Word := BitVec 32

/-- What makes the firmware panic, which reboots the card. -/
inductive Panic
  | indexOutOfBounds
  | sliceOutOfBounds
  deriving DecidableEq, Repr

/-- Rust's check on `xs[a..b]` for an `xs` of length `len`. -/
def checkSlice (a b len : ℕ) : Except Panic Unit :=
  if a ≤ b ∧ b ≤ len then .ok () else .error .sliceOutOfBounds

/-- Rust's check on `xs[i]` for an `xs` of length `len`. -/
def checkIndex (i len : ℕ) : Except Panic Unit :=
  if i < len then .ok () else .error .indexOutOfBounds

/-- A borrowed byte slice. The address matters to the word-wide pixel reads only. -/
structure Slice where
  addr : ℕ
  bytes : List Byte
  deriving DecidableEq, Repr

/-- `&data[k..]`. -/
def Slice.from (s : Slice) (k : ℕ) : Except Panic Slice := do
  checkSlice k s.bytes.length s.bytes.length
  return ⟨s.addr + k, s.bytes.drop k⟩

/-- `data[i]`. -/
def Slice.get (s : Slice) (i : ℕ) : Except Panic Byte := do
  checkIndex i s.bytes.length
  return s.bytes.getD i 0

def FB_SDRAM_OFFSET_BYTES : ℕ := 0x140000
def FB_TOTAL_WORDS : ℕ := 2 * (0x140000 / 4)
def FB_HALF_WORDS : ℕ := FB_TOTAL_WORDS / 2
def MAX_IMG_PIXELS : ℕ := FB_HALF_WORDS
def FB_BASE_WORDS : ℕ := FB_SDRAM_OFFSET_BYTES / 4

/-- What one call reads from the gateware's status registers. The environment picks a fresh record
before each call; `fbBaseNow` is read several times in one call and may move between the reads. -/
structure Registers where
  arrival : Vector Word 16
  arrivalFrameId : BitVec 16
  done : Vector Word 16
  frameIdDone : BitVec 16
  totalChunksDone : BitVec 16
  indexedDone : Bool
  doneSeq : BitVec 16
  doneSeqAfter : BitVec 16
  frameId : BitVec 16
  totalChunks : BitVec 16
  indexed : Bool
  lastChunk : Byte
  fbBaseNow : ℕ → BitVec 20

/-- The registers before the gateware has parsed a header. -/
def Registers.reset : Registers where
  arrival := Vector.replicate 16 0
  arrivalFrameId := 0
  done := Vector.replicate 16 0
  frameIdDone := 0
  totalChunksDone := 0
  indexedDone := false
  doneSeq := 0
  doneSeqAfter := 0
  frameId := 0
  totalChunks := 0
  indexed := false
  lastChunk := 0
  fbBaseNow := fun _ => 0

/-- One flip of the halves by the CPU: the picture taken off the glass, the one put on it, and the
output mode at that moment. -/
structure Flip where
  before : ℕ → Word
  after : ℕ → Word
  indexedMode : Bool

/-- `drawn` and `flips` are history: the pixel words written to the back half and the flips made,
oldest first. The code reads neither. -/
structure Hub75 where
  hub75Data : ℕ → Word
  displayBuffer : ℕ → Word
  length : ℕ
  activeBuf : ℕ
  paletteShadow : ℕ → Word
  paletteGen : ℕ
  bankGen : ℕ → ℕ
  autoSwap : Bool
  ctrlIndexed : Bool
  ctrlWidth : ℕ
  fbBase : ℕ
  autoSwapCsr : Bool
  hwPaletteBanks : Byte
  paletteRam : ℕ → Word
  dmaLimit : ℕ
  dmaEnable : Bool
  regs : Registers
  fbReads : ℕ
  drawn : List (ℕ × Word)
  flips : List Flip

namespace Hub75

/-- The driver over the frame buffer memory `fb`, with the gateware's registers as given. -/
def new (fb : ℕ → Word) (regs : Registers) : Hub75 where
  hub75Data := fun i => fb (FB_HALF_WORDS + i)
  displayBuffer := fb
  length := 0
  activeBuf := 0
  paletteShadow := fun _ => 0
  paletteGen := 0
  bankGen := fun _ => 0
  autoSwap := false
  ctrlIndexed := false
  ctrlWidth := 0
  fbBase := FB_BASE_WORDS
  autoSwapCsr := false
  hwPaletteBanks := 0
  paletteRam := fun _ => 0
  dmaLimit := 0
  dmaEnable := false
  regs := regs
  fbReads := 0
  drawn := []
  flips := []

/-- `(self.length as usize).min(self.hub75_data.len())`; both halves have the same length. -/
def limit (h : Hub75) : ℕ := min h.length FB_HALF_WORDS

def imgLen (h : Hub75) : ℕ := h.limit

def setMode (h : Hub75) (indexed : Bool) : Hub75 := { h with ctrlIndexed := indexed }

def getImgParam (h : Hub75) : ℕ × ℕ := (h.ctrlWidth, h.length)

def setImgParam (h : Hub75) (width : BitVec 16) (length : BitVec 32) : Hub75 :=
  let h := { h with ctrlWidth := width.toNat, length := length.toNat }
  { h with dmaLimit := h.limit }

/-- The back half with `words` written from `offset` on. -/
def store (h : Hub75) (offset : ℕ) (words : List Word) : Hub75 :=
  { h with
    hub75Data := fun p =>
      if offset ≤ p ∧ p < offset + words.length then words.getD (p - offset) 0 else h.hub75Data p
    drawn := h.drawn ++ words.mapIdx fun i w => (offset + i, w) }

/-- `read_volatile(words.add(k))` through the pointer of an aligned slice. -/
def wordAt (src : List Byte) (k : ℕ) : Word :=
  src.getD (4 * k + 3) 0 ++ src.getD (4 * k + 2) 0 ++ src.getD (4 * k + 1) 0 ++ src.getD (4 * k) 0

def indexedByte (src : List Byte) (i : ℕ) : Word := (src.getD i 0).setWidth 32

/-- The four pixels of one aligned word. -/
def indexedGroup (src : List Byte) (g : ℕ) : List Word :=
  let w := wordAt src g
  [w &&& 0xFF#32, (w >>> 8) &&& 0xFF#32, (w >>> 16) &&& 0xFF#32, (w >>> 24) &&& 0xFF#32]

/-- The words the indexed write puts down for its first `n` pixels, in order. -/
def indexedWords (src : Slice) (n : ℕ) : List Word :=
  if src.addr % 4 = 0 then
    let groups := n / 4
    (List.range groups).flatMap (indexedGroup src.bytes) ++
      (List.range' (groups * 4) (n - groups * 4)).map (indexedByte src.bytes)
  else (List.range n).map (indexedByte src.bytes)

/-- `B<<16 | G<<8 | R`. -/
def rgbWord (r g b : Byte) : Word :=
  b.setWidth 32 <<< 16 ||| g.setWidth 32 <<< 8 ||| r.setWidth 32

def rgbTriple (src : List Byte) (i : ℕ) : Word :=
  rgbWord (src.getD (i * 3) 0) (src.getD (i * 3 + 1) 0) (src.getD (i * 3 + 2) 0)

/-- The four pixels of three aligned words. -/
def rgbGroup (src : List Byte) (g : ℕ) : List Word :=
  let w0 := wordAt src (g * 3)
  let w1 := wordAt src (g * 3 + 1)
  let w2 := wordAt src (g * 3 + 2)
  [((w0 >>> 16) &&& 0xFF#32) <<< 16 ||| ((w0 >>> 8) &&& 0xFF#32) <<< 8 ||| (w0 &&& 0xFF#32),
   ((w1 >>> 8) &&& 0xFF#32) <<< 16 ||| (w1 &&& 0xFF#32) <<< 8 ||| ((w0 >>> 24) &&& 0xFF#32),
   (w2 &&& 0xFF#32) <<< 16 ||| ((w1 >>> 24) &&& 0xFF#32) <<< 8 ||| ((w1 >>> 16) &&& 0xFF#32),
   ((w2 >>> 24) &&& 0xFF#32) <<< 16 ||| ((w2 >>> 16) &&& 0xFF#32) <<< 8 |||
     ((w2 >>> 8) &&& 0xFF#32)]

/-- The words the RGB write puts down for its first `n` pixels, in order. -/
def rgbWords (src : Slice) (n : ℕ) : List Word :=
  if src.addr % 4 = 0 then
    let groups := n / 4
    (List.range groups).flatMap (rgbGroup src.bytes) ++
      (List.range' (groups * 4) (n - groups * 4)).map (rgbTriple src.bytes)
  else (List.range n).map (rgbTriple src.bytes)

/-- The shape both pixel writes share. The returned count is not modelled: no caller reads it. -/
def writePixels (h : Hub75) (offset bytesPerPixel : ℕ) (src : Slice) (words : ℕ → List Word) :
    Except Panic Hub75 := do
  if h.limit ≤ offset then return h
  let n := min (src.bytes.length / bytesPerPixel) (h.limit - offset)
  if n = 0 then return h
  checkSlice offset (offset + n) FB_HALF_WORDS
  -- every source read of the loops is below `n * bytesPerPixel`
  checkSlice 0 (n * bytesPerPixel) src.bytes.length
  return h.store offset (words n)

def writeImgIndexed (h : Hub75) (offset : ℕ) (src : Slice) : Except Panic Hub75 :=
  h.writePixels offset 1 src (indexedWords src)

def writeImgRgb888 (h : Hub75) (offset : ℕ) (src : Slice) : Except Panic Hub75 :=
  h.writePixels offset 3 src (rgbWords src)

def repairFromFront (h : Hub75) (offset len : ℕ) : Except Panic Hub75 :=
  if h.limit ≤ offset ∨ len = 0 then .ok h
  else do
    let stop := min (offset + len) h.limit
    checkSlice offset stop FB_HALF_WORDS
    return { h with
      hub75Data := fun p =>
        if offset ≤ p ∧ p < stop then h.displayBuffer p else h.hub75Data p }

def setAutoSwap (h : Hub75) (on : Bool) : Hub75 := { h with autoSwap := on, autoSwapCsr := on }

/-- One read of the `fb_base_now` register. -/
def fbBaseNow (h : Hub75) : ℕ × Hub75 :=
  ((h.regs.fbBaseNow h.fbReads).toNat, { h with fbReads := h.fbReads + 1 })

def swapBuffers (h : Hub75) : Hub75 :=
  let activeBuf := 1 - h.activeBuf
  { h with
    hub75Data := h.displayBuffer
    displayBuffer := h.hub75Data
    activeBuf := activeBuf
    fbBase := if activeBuf = 1 then FB_BASE_WORDS + FB_HALF_WORDS else FB_BASE_WORDS
    flips := h.flips ++ [⟨h.displayBuffer, h.hub75Data, h.ctrlIndexed⟩] }

def syncBuffersFromHw (h : Hub75) : Hub75 :=
  let (now, h) := h.fbBaseNow
  let hwActive := if now = FB_BASE_WORDS then 0 else 1
  if hwActive ≠ h.activeBuf then
    { h with hub75Data := h.displayBuffer, displayBuffer := h.hub75Data, activeBuf := hwActive }
  else h

def setDmaEnabled (h : Hub75) (on : Bool) : Hub75 :=
  { h with dmaLimit := h.limit, dmaEnable := on }

def dmaArrival (h : Hub75) : Option (Vector Word 16 × ℕ) :=
  if h.dmaEnable then some (h.regs.arrival, h.regs.arrivalFrameId.toNat) else none

def dmaDoneFrame (h : Hub75) : Option (Vector Word 16 × ℕ × ℕ × Bool × ℕ) :=
  if h.dmaEnable then
    -- `done_seq` is read first and last
    if h.regs.doneSeqAfter ≠ h.regs.doneSeq then none
    else some (h.regs.done, h.regs.frameIdDone.toNat, h.regs.totalChunksDone.toNat,
      h.regs.indexedDone, h.regs.doneSeq.toNat)
  else none

def dmaFrameIdentity (h : Hub75) : Option (ℕ × ℕ × Bool) :=
  if h.dmaEnable then some (h.regs.frameId.toNat, h.regs.totalChunks.toNat, h.regs.indexed)
  else none

def dmaLastChunk (h : Hub75) : ℕ := h.regs.lastChunk.toNat

def paletteBanks (h : Hub75) : ℕ := if h.hwPaletteBanks = 0 then 1 else h.hwPaletteBanks.toNat

def backPaletteBank (h : Hub75) : ℕ × Hub75 :=
  if h.paletteBanks < 2 then (0, h)
  else
    let (live, h) := h.fbBaseNow
    (if live = FB_BASE_WORDS then 1 else 0, h)

/-- Record a palette into the shadow. Returns how many entries were taken. -/
def stash (h : Hub75) (offset : ℕ) (data : List Word) : Except Panic (ℕ × Hub75) := do
  let taken := data.take (256 - min offset 256)
  -- the last of the indexed stores is the highest
  checkSlice 0 (offset + taken.length) 256
  let h := { h with
    paletteShadow := fun e =>
      if offset ≤ e ∧ e < offset + taken.length then taken.getD (e - offset) 0
      else h.paletteShadow e }
  return (taken.length,
    if 0 < taken.length then { h with paletteGen := (h.paletteGen + 1) % 2 ^ 32 } else h)

def setPaletteBank (h : Hub75) (bank offset : ℕ) (data : List Word) : Except Panic Hub75 := do
  let total := 256 * h.paletteBanks
  let base := bank * 256 + offset
  if total ≤ base then return h
  let taken := data.take (total - base)
  checkSlice base (base + taken.length) total
  return { h with
    paletteRam := fun e =>
      if base ≤ e ∧ e < base + taken.length then taken.getD (e - base) 0 else h.paletteRam e }

def writeBank (h : Hub75) (bank offset count : ℕ) : Except Panic Hub75 := do
  let stop := min (offset + count) 256
  checkSlice offset stop 256
  h.setPaletteBank bank offset ((List.range' offset (stop - offset)).map h.paletteShadow)

def setPalette (h : Hub75) (offset : ℕ) (data : List Word) : Except Panic Hub75 := do
  let (n, h) ← h.stash offset data
  if n = 0 then return h
  let (bank, h) := h.backPaletteBank
  let h ← h.writeBank bank offset n
  return { h with bankGen := fun b => if b = bank % 2 then h.paletteGen else h.bankGen b }

/-- The catch-up of the bank being drawn into. -/
def syncPaletteBank (h : Hub75) : Except Panic Hub75 := do
  if h.paletteBanks < 2 ∨ h.paletteGen = 0 then return h
  let (bank, h) := h.backPaletteBank
  if h.bankGen (bank % 2) = h.paletteGen then return h
  let h ← h.writeBank bank 0 256
  return { h with bankGen := fun b => if b = bank % 2 then h.paletteGen else h.bankGen b }

end Hub75

end Ledwall.Receiver
