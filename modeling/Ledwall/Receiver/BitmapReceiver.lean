import Ledwall.Receiver.Hub75Driver

/-! The bitmap UDP receiver: the frame in progress, its arrival mask, and what presents it. -/

namespace Ledwall.Receiver

open Ledwall.Wire

def HEADER_SIZE : ℕ := 10
def HEADER_SIZE_WIDE : ℕ := 12
def MAX_PAYLOAD : ℕ := 1462
def PIXELS_PER_CHUNK : ℕ := MAX_PAYLOAD / 3
def PIXELS_PER_CHUNK_WIDE : ℕ := PIXELS_PER_CHUNK - 1
def MAX_CHUNKS_NARROW : ℕ := 255
def PIXELS_PER_CHUNK_INDEXED : ℕ := 3 * PIXELS_PER_CHUNK
def MAX_CHUNKS : ℕ := 512
def MASK_WORDS : ℕ := MAX_CHUNKS / 64
def PALETTE_LEN : ℕ := 256
def PALETTE_DEFER_MS : ℤ := 200
def MAX_REPAIR_CHUNKS : ℕ := 2
def STALE_MS : ℤ := 250
def STUCK_FRAMES : ℕ := 8

/-- `n + 1` on a `u32`; the release profile wraps. -/
def inc32 (n : ℕ) : ℕ := (n + 1) % 2 ^ 32

structure BitmapStats where
  packetsTotal : ℕ := 0
  packetsValid : ℕ := 0
  paletteWrites : ℕ := 0
  packetsBadMagic : ℕ := 0
  packetsBadHeader : ℕ := 0
  packetsBadSize : ℕ := 0
  packetsDuplicate : ℕ := 0
  packetsCpuSkipped : ℕ := 0
  swapOverlapMax : ℕ := 0
  swapOverlapLast : ℕ := 0
  framesCompleted : ℕ := 0
  framesPartial : ℕ := 0
  framesDropped : ℕ := 0
  framesStale : ℕ := 0
  chunksRepaired : ℕ := 0
  autoSwapDemoted : ℕ := 0
  lastFrameId : ℕ := 0
  lastChunkIndex : ℕ := 0
  lastTotalChunks : ℕ := 0
  lastWidth : ℕ := 0
  lastHeight : ℕ := 0
  lastDataLen : ℕ := 0
  lastMissing : ℕ := 0
  missBuckets : ℕ → ℕ := fun _ => 0
  chunksReceived : ℕ := 0
  frameIntervalMs : ℕ := 0
  avgIntervalMs : ℕ := 0
  jitterMs : ℕ := 0

abbrev ChunkMask := Vector (BitVec 64) MASK_WORDS

structure BitmapReceiver where
  currentFrameId : ℕ := 65535
  hwFilterOn : Bool := false
  lastDoneSeq : ℕ := 0
  lastFbBase : ℕ := 2 ^ 32 - 1
  fbBaseStuck : ℕ := 0
  cpuSawPacket : Bool := false
  cpuPixels : Bool := true
  chunkMask : ChunkMask := Vector.replicate MASK_WORDS 0
  totalChunks : ℕ := 0
  indexed : Bool := false
  wide : Bool := false
  modeIndexed : Option Bool := none
  hold : Bool := false
  pendingPalette : ℕ → Word := fun _ => 0
  pendingPaletteStart : ℕ := 0
  pendingPaletteLen : ℕ := 0
  pendingPaletteValid : Bool := false
  received : ℕ := 0
  lastPacketMs : ℤ := 0
  lastCompleteMs : ℤ := 0
  stats : BitmapStats := {}

/-- What a call returns: `true` when a frame was presented. -/
structure Outcome where
  presented : Bool
  rx : BitmapReceiver
  hub : Hub75

/-- The header fields of a pixel packet; the payload starts at `hdrLen`. -/
structure PixelHeader where
  frameId : ℕ
  chunkIndex : ℕ
  totalChunks : ℕ
  width : ℕ
  height : ℕ
  hdrLen : ℕ
  deriving DecidableEq, Repr

namespace ChunkMask

def empty : ChunkMask := Vector.replicate MASK_WORDS 0

/-- `mask_test`. -/
def test (m : ChunkMask) (idx : ℕ) : Except Panic Bool :=
  if h : idx >>> 6 < MASK_WORDS then .ok (m[idx >>> 6].getLsbD (idx &&& 63))
  else .error .indexOutOfBounds

/-- `mask_set`. -/
def insert (m : ChunkMask) (idx : ℕ) : Except Panic ChunkMask :=
  if h : idx >>> 6 < MASK_WORDS then
    .ok (m.set (idx >>> 6) (m[idx >>> 6] ||| 1#64 <<< (idx &&& 63)))
  else .error .indexOutOfBounds

/-- `w.count_ones()`. -/
def countOnes (w : BitVec 64) : ℕ := ((List.range 64).filter fun i => w.getLsbD i).length

/-- The population count summed over the words. -/
def count (m : ChunkMask) : ℕ := (m.toList.map countOnes).sum

/-- The sixteen 32-bit arrival words as eight 64-bit mask words. -/
def ofWords (words : Vector Word 16) : ChunkMask :=
  Vector.ofFn fun i : Fin MASK_WORDS =>
    have h : i.val < 8 := i.isLt
    words.get ⟨2 * i.val + 1, by omega⟩ ++ words.get ⟨2 * i.val, by omega⟩

def union (m n : ChunkMask) : ChunkMask := Vector.zipWith (· ||| ·) m n

end ChunkMask

namespace BitmapReceiver

/-- Pixels per chunk for the frame in progress. -/
def ppc (r : BitmapReceiver) : ℕ :=
  if r.indexed then PIXELS_PER_CHUNK_INDEXED
  else if r.wide then PIXELS_PER_CHUNK_WIDE
  else PIXELS_PER_CHUNK

def applyMode (r : BitmapReceiver) (h : Hub75) (indexed : Bool) : BitmapReceiver × Hub75 :=
  if r.modeIndexed ≠ some indexed then
    ({ r with modeIndexed := some indexed }, h.setMode indexed)
  else (r, h)

def resetFrame (r : BitmapReceiver) : BitmapReceiver :=
  { r with
    chunkMask := ChunkMask.empty
    totalChunks := 0
    received := 0
    stats.chunksReceived := 0
    cpuSawPacket := false }

def updateTiming (r : BitmapReceiver) (timeMs : ℤ) : BitmapReceiver :=
  let r :=
    if 0 < r.lastCompleteMs then
      let interval := ((timeMs - r.lastCompleteMs) % 2 ^ 32).toNat
      let avg :=
        if r.stats.avgIntervalMs = 0 then interval
        else (r.stats.avgIntervalMs * 7 + interval) % 2 ^ 32 / 8
      { r with
        stats.frameIntervalMs := interval
        stats.avgIntervalMs := avg
        stats.jitterMs := if avg < interval then interval - avg else avg - interval }
    else r
  { r with lastCompleteMs := timeMs }

/-- The damage histogram's loop over the chunks of the frame. -/
def countMissing (mask : ChunkMask) (expected : ℕ) (buckets : ℕ → ℕ) : Except Panic (ℕ → ℕ) :=
  (List.range expected).foldlM (fun buckets idx => do
    if ← mask.test idx then return buckets
    let b := idx * 16 / expected
    if b < 16 then
      return fun i => if i = b then min (buckets b + 1) (2 ^ 32 - 1) else buckets i
    return buckets) buckets

/-- The repair loop: every chunk of the frame that never arrived is copied from the front half. -/
def repairMissing (r : BitmapReceiver) (h : Hub75) (expected : ℕ) :
    Except Panic (BitmapReceiver × Hub75) := do
  let imgLen := h.imgLen
  let ppc := r.ppc
  (List.range expected).foldlM (fun (s : BitmapReceiver × Hub75) idx => do
    if ← r.chunkMask.test idx then return s
    let offset := idx * ppc
    if imgLen ≤ offset then return s
    let len := min ppc (imgLen - offset)
    let h ← s.2.repairFromFront offset len
    return ({ s.1 with stats.chunksRepaired := inc32 s.1.stats.chunksRepaired }, h)) (r, h)

def applyPendingPalette (r : BitmapReceiver) (h : Hub75) :
    Except Panic (BitmapReceiver × Hub75) := do
  if ¬ r.pendingPaletteValid then return (r, h)
  let n := r.pendingPaletteLen
  checkSlice 0 n PALETTE_LEN
  let h ← h.setPalette r.pendingPaletteStart ((List.range n).map r.pendingPalette)
  return ({ r with pendingPaletteValid := false }, h)

/-- The flip at the end of `present`: the CPU's own, or following the gateware's. -/
def flip (r : BitmapReceiver) (h : Hub75) : BitmapReceiver × Hub75 :=
  if h.autoSwap then
    let (base, h) := h.fbBaseNow
    let r :=
      if base = r.lastFbBase then { r with fbBaseStuck := min (r.fbBaseStuck + 1) 255 }
      else { r with fbBaseStuck := 0, lastFbBase := base }
    if STUCK_FRAMES ≤ r.fbBaseStuck then
      ({ r with stats.autoSwapDemoted := inc32 r.stats.autoSwapDemoted, fbBaseStuck := 0 },
        (h.setAutoSwap false).swapBuffers)
    else (r, h.syncBuffersFromHw)
  else (r, h.swapBuffers)

/-- `present` up to the drop test: the damage is localised before the frame is judged. -/
def localiseDamage (r : BitmapReceiver) (expected missing : ℕ) : Except Panic BitmapReceiver :=
  let r := { r with stats.lastMissing := missing }
  if 0 < missing ∧ 0 < expected then do
    let buckets ← countMissing r.chunkMask expected r.stats.missBuckets
    return { r with stats.missBuckets := buckets }
  else return r

/-- `present` from the drop test to the palette. -/
def repairOrComplete (r : BitmapReceiver) (h : Hub75) (expected missing : ℕ) :
    Except Panic (BitmapReceiver × Hub75) :=
  if 0 < missing ∧ ¬ h.autoSwap then do
    let (r, h) ← r.repairMissing h expected
    return ({ r with stats.framesPartial := inc32 r.stats.framesPartial }, h)
  else return ({ r with stats.framesCompleted := inc32 r.stats.framesCompleted }, h)

def present (r : BitmapReceiver) (h : Hub75) (timeMs : ℤ) : Except Panic Outcome := do
  if r.totalChunks = 0 then return ⟨false, r, h⟩
  let expected := r.totalChunks % 65536
  let missing := expected - r.received
  let r ← r.localiseDamage expected missing
  if MAX_REPAIR_CHUNKS < missing then
    let r := { r with stats.framesDropped := inc32 r.stats.framesDropped }
    return ⟨false, r.resetFrame, h⟩
  let (r, h) ← r.repairOrComplete h expected missing
  let (r, h) ← r.applyPendingPalette h
  let (r, h) := r.flip h
  let r := r.updateTiming timeMs
  return ⟨true, r.resetFrame, h⟩

/-- `body.chunks_exact(3)` as palette words; the palette word is `0x00GGRRBB`. -/
def paletteTriple (body : List Byte) (i : ℕ) : Word :=
  (body.getD (i * 3 + 1) 0).setWidth 32 <<< 16 ||| (body.getD (i * 3) 0).setWidth 32 <<< 8 |||
    (body.getD (i * 3 + 2) 0).setWidth 32

def stashPalette (r : BitmapReceiver) (h : Hub75) (start : ℕ) (body : List Byte) (timeMs : ℤ) :
    Except Panic (BitmapReceiver × Hub75) := do
  let streaming := decide (timeMs - r.lastPacketMs < PALETTE_DEFER_MS)
  let room := PALETTE_LEN - start
  let n := min (body.length / 3) room
  checkSlice 0 n PALETTE_LEN
  let r := { r with
    pendingPalette := fun i => if i < n then paletteTriple body i else r.pendingPalette i
    pendingPaletteStart := start
    pendingPaletteLen := n
    pendingPaletteValid := true }
  if ¬ streaming then r.applyPendingPalette h else return (r, h)

/-- The finished frame taken over wholesale: identity, mask and count. -/
def takeSnapshot (r : BitmapReceiver) (h : Hub75) (words : Vector Word 16) (fid total : ℕ)
    (indexed : Bool) (timeMs : ℤ) : BitmapReceiver × Hub75 :=
  let r := { r with
    chunkMask := ChunkMask.ofWords words
    currentFrameId := fid
    totalChunks := total
    indexed := indexed
    wide := !indexed && decide (MAX_CHUNKS_NARROW < total) }
  let (r, h) := r.applyMode h indexed
  let received := min r.chunkMask.count total
  let overlap := h.dmaLastChunk
  ({ r with
    received := received
    stats.chunksReceived := received
    lastPacketMs := timeMs
    stats.swapOverlapLast := overlap
    stats.swapOverlapMax := max r.stats.swapOverlapMax overlap }, h)

def presentDoneFrame (r : BitmapReceiver) (h : Hub75) (timeMs : ℤ) : Except Panic Outcome :=
  match h.dmaDoneFrame with
  | none => return ⟨false, r, h⟩
  | some (words, fid, total, indexed, seq) => do
    if total = 0 ∨ seq = r.lastDoneSeq then return ⟨false, r, h⟩
    let r := { r with lastDoneSeq := seq }
    if r.cpuSawPacket then return ⟨false, r, h⟩
    let (r, h) := r.takeSnapshot h words fid total indexed timeMs
    r.present h timeMs

def presentDoneNow (r : BitmapReceiver) (h : Hub75) (timeMs : ℤ) : Except Panic Outcome := do
  if ¬ r.hwFilterOn then return ⟨false, r, h⟩
  r.presentDoneFrame h timeMs

/-- The live frame taken over: identity only, nothing received yet. -/
def takeIdentity (r : BitmapReceiver) (h : Hub75) (fid total : ℕ) (indexed : Bool) (timeMs : ℤ) :
    BitmapReceiver × Hub75 :=
  let r := { r with
    chunkMask := ChunkMask.empty
    received := 0
    stats.chunksReceived := 0
    currentFrameId := fid
    totalChunks := total
    indexed := indexed
    wide := !indexed && decide (MAX_CHUNKS_NARROW < total) }
  let (r, h) := r.applyMode h indexed
  ({ r with lastPacketMs := timeMs }, h)

def adoptDmaFrame (r : BitmapReceiver) (h : Hub75) (timeMs : ℤ) : Except Panic Outcome :=
  match h.dmaFrameIdentity with
  | none => return ⟨false, r, h⟩
  | some (hwFrameId, hwTotal, hwIndexed) => do
    if hwTotal = 0 then return ⟨false, r, h⟩
    if hwFrameId = r.currentFrameId then return ⟨false, r, h⟩
    if r.cpuSawPacket then return ⟨false, r, h⟩
    -- flushed before `indexed` moves: the outgoing frame keeps its own stride
    let ⟨presented, r, h⟩ ← r.present h timeMs
    let (r, h) := r.takeIdentity h hwFrameId hwTotal hwIndexed timeMs
    return ⟨presented, r, h⟩

def mergeDmaArrival (r : BitmapReceiver) (h : Hub75) (timeMs : ℤ) : BitmapReceiver :=
  match h.dmaArrival with
  | none => r
  | some (words, dmaFrameId) =>
    if dmaFrameId ≠ r.currentFrameId then r
    else
      let mask := r.chunkMask.union (ChunkMask.ofWords words)
      let merged := min mask.count r.totalChunks % 65536
      { r with
        chunkMask := mask
        lastPacketMs := if r.received < merged then timeMs else r.lastPacketMs
        received := merged
        stats.chunksReceived := merged }

def countStale (r : BitmapReceiver) : BitmapReceiver :=
  { r with stats.framesStale := inc32 r.stats.framesStale }

/-- `tick` from the arrival merge on, for a frame in progress. -/
def tickFrame (r : BitmapReceiver) (h : Hub75) (timeMs : ℤ) (presented : Bool) :
    Except Panic Outcome := do
  let r := r.mergeDmaArrival h timeMs
  if r.totalChunks % 65536 ≤ r.received then
    let o ← r.present h timeMs
    return { o with presented := o.presented || presented }
  if r.received = 0 then return ⟨presented, r, h⟩
  if timeMs - r.lastPacketMs < STALE_MS then return ⟨presented, r, h⟩
  let o ← r.countStale.present h timeMs
  return { o with presented := presented || o.presented }

/-- A palette stashed for a swap that never came. -/
def tickPalette (r : BitmapReceiver) (h : Hub75) (timeMs : ℤ) :
    Except Panic (BitmapReceiver × Hub75) :=
  if r.pendingPaletteValid ∧ PALETTE_DEFER_MS ≤ timeMs - r.lastPacketMs then
    r.applyPendingPalette h
  else return (r, h)

def tick (r : BitmapReceiver) (h : Hub75) (timeMs : ℤ) : Except Panic Outcome := do
  let (r, h) ← r.tickPalette h timeMs
  let ⟨presented, r, h⟩ ← r.presentDoneFrame h timeMs
  if r.hwFilterOn then return ⟨presented, r, h⟩
  let ⟨adopted, r, h⟩ ← r.adoptDmaFrame h timeMs
  let presented := presented || adopted
  if r.totalChunks = 0 then return ⟨presented, r, h⟩
  r.tickFrame h timeMs presented

def setHold (r : BitmapReceiver) (on : Bool) : BitmapReceiver := { r with hold := on }

/-- `forget_frame`, and what `set_cpu_pixels(false)` does to the frame in progress. -/
def forgetFrame (r : BitmapReceiver) : BitmapReceiver := r.resetFrame

def setCpuPixels (r : BitmapReceiver) (on : Bool) : BitmapReceiver :=
  let r := { r with cpuPixels := on }
  if on then r else r.forgetFrame

def setHwFilter (r : BitmapReceiver) (on : Bool) : BitmapReceiver := { r with hwFilterOn := on }

def invalidateModeCache (r : BitmapReceiver) : BitmapReceiver := { r with modeIndexed := none }

/-- `u16::from_le_bytes([data[i], data[i + 1]])`. -/
def u16At (data : Slice) (i : ℕ) : Except Panic ℕ := do
  let lo ← data.get i
  let hi ← data.get (i + 1)
  return lo.toNat + 256 * hi.toNat

def parseHeader (data : Slice) (wide : Bool) : Except Panic PixelHeader := do
  let frameId ← u16At data 2
  if wide then
    let chunkIndex ← u16At data 4
    let totalChunks ← u16At data 6
    let width ← u16At data 8
    let height ← u16At data 10
    return ⟨frameId, chunkIndex, totalChunks, width, height, HEADER_SIZE_WIDE⟩
  else
    let chunkIndex ← data.get 4
    let totalChunks ← data.get 5
    let width ← u16At data 6
    let height ← u16At data 8
    return ⟨frameId, chunkIndex.toNat, totalChunks.toNat, width, height, HEADER_SIZE⟩

def countBadHeader (r : BitmapReceiver) : BitmapReceiver :=
  { r with stats.packetsBadHeader := inc32 r.stats.packetsBadHeader }

def countBadSize (r : BitmapReceiver) : BitmapReceiver :=
  { r with stats.packetsBadSize := inc32 r.stats.packetsBadSize }

def countValid (r : BitmapReceiver) : BitmapReceiver :=
  { r with stats.packetsValid := inc32 r.stats.packetsValid }

def noteHeader (r : BitmapReceiver) (p : PixelHeader) : BitmapReceiver :=
  { r with
    stats.lastFrameId := p.frameId
    stats.lastChunkIndex := p.chunkIndex
    stats.lastTotalChunks := p.totalChunks
    stats.lastWidth := p.width
    stats.lastHeight := p.height }

def beginFrame (r : BitmapReceiver) (p : PixelHeader) : BitmapReceiver :=
  { r with currentFrameId := p.frameId, totalChunks := p.totalChunks }

/-- The pixel write of an accepted chunk; with the DMA on the gateware has already made it. -/
def drawChunk (h : Hub75) (p : PixelHeader) (ppc : ℕ) (indexed : Bool) (data : Slice) :
    Except Panic Hub75 :=
  if h.dmaEnable then return h
  else do
    let pixelOffset := p.chunkIndex * ppc
    let payload ← data.from p.hdrLen
    if indexed then h.writeImgIndexed pixelOffset payload else h.writeImgRgb888 pixelOffset payload

def countChunk (r : BitmapReceiver) (mask : ChunkMask) (timeMs : ℤ) : BitmapReceiver :=
  let received := (r.received + 1) % 65536
  { r with
    chunkMask := mask
    received := received
    cpuSawPacket := true
    lastPacketMs := timeMs
    stats.chunksReceived := received }

/-- The tail of `process_packet`: the chunk of a frame already made current. -/
def storeChunk (r : BitmapReceiver) (h : Hub75) (p : PixelHeader) (ppc : ℕ) (indexed : Bool)
    (data : Slice) (timeMs : ℤ) (presented : Bool) : Except Panic Outcome := do
  if ← r.chunkMask.test p.chunkIndex then
    return ⟨presented, { r with
      stats.packetsDuplicate := inc32 r.stats.packetsDuplicate
      lastPacketMs := timeMs }, h⟩
  let h ← drawChunk h p ppc indexed data
  let mask ← r.chunkMask.insert p.chunkIndex
  let r := r.countChunk mask timeMs
  let r :=
    if r.totalChunks % 65536 ≤ (r.received + 1) % 65536 then r.mergeDmaArrival h timeMs else r
  if r.totalChunks % 65536 ≤ r.received then
    let o ← r.present h timeMs
    return { o with presented := o.presented || presented }
  return ⟨presented, r, h⟩

/-- `process_packet` from the format latch on, for a packet whose magic is a pixel one. -/
def pixelPacket (r : BitmapReceiver) (h : Hub75) (indexed wide : Bool) (data : Slice)
    (timeMs : ℤ) : Except Panic Outcome := do
  let r := { r with indexed := indexed, wide := wide }
  let (r, h) := r.applyMode h indexed
  if wide ∧ data.bytes.length < HEADER_SIZE_WIDE then return ⟨false, r.countBadHeader, h⟩
  let p ← parseHeader data wide
  if MAX_CHUNKS < p.totalChunks then return ⟨false, r.countBadHeader, h⟩
  let r := r.noteHeader p
  if p.totalChunks = 0 ∨ p.totalChunks ≤ p.chunkIndex then return ⟨false, r.countBadHeader, h⟩
  let imgLen := h.imgLen
  let ppc := r.ppc
  if p.width ≠ 0 ∧ p.height ≠ 0 ∧ p.width * p.height ≠ imgLen then
    return ⟨false, r.countBadSize, h⟩
  let maxChunks := (imgLen + ppc - 1) / ppc
  if imgLen = 0 ∨ maxChunks < p.totalChunks then return ⟨false, r.countBadHeader, h⟩
  let r := r.countValid
  if p.frameId ≠ r.currentFrameId ∨ p.totalChunks ≠ r.totalChunks then
    let (curW, curLen) := h.getImgParam
    if curW ≠ 0 ∧ (p.width ≠ curW ∨ p.width * p.height ≠ curLen) then
      return ⟨false, r.countBadHeader, h⟩
    let ⟨presented, r, h⟩ ← r.present h timeMs
    (r.beginFrame p).storeChunk h p ppc indexed data timeMs presented
  else
    r.storeChunk h p ppc indexed data timeMs false

def countPacket (r : BitmapReceiver) (data : Slice) : BitmapReceiver :=
  { r with
    stats.packetsTotal := inc32 r.stats.packetsTotal
    stats.lastDataLen := data.bytes.length % 65536 }

def countSkipped (r : BitmapReceiver) (timeMs : ℤ) : BitmapReceiver :=
  { r with
    stats.packetsCpuSkipped := inc32 r.stats.packetsCpuSkipped
    lastPacketMs := timeMs }

def countPalette (r : BitmapReceiver) : BitmapReceiver :=
  { r with stats.paletteWrites := inc32 r.stats.paletteWrites }

def countBadMagic (r : BitmapReceiver) : BitmapReceiver :=
  { r with stats.packetsBadMagic := inc32 r.stats.packetsBadMagic }

def processPacket (r : BitmapReceiver) (h : Hub75) (data : Slice) (timeMs : ℤ) :
    Except Panic Outcome := do
  let r := r.countPacket data
  if r.hold then return ⟨false, r, h⟩
  if data.bytes.length < HEADER_SIZE then return ⟨false, r.countBadHeader, h⟩
  let b0 ← data.get 0
  let b1 ← data.get 1
  if ¬ r.cpuPixels ∧ b0 = letterB ∧ (b1 = letterM ∨ b1 = letterI ∨ b1 = letterW) then
    return ⟨false, r.countSkipped timeMs, h⟩
  if b0 = letterB ∧ b1 = letterM then r.pixelPacket h false false data timeMs
  else if b0 = letterB ∧ b1 = letterI then r.pixelPacket h true false data timeMs
  else if b0 = letterB ∧ b1 = letterW then r.pixelPacket h false true data timeMs
  else if b0 = letterB ∧ b1 = letterP then
    let start ← data.get 4
    let body ← data.from HEADER_SIZE
    let (r, h) ← r.stashPalette h start.toNat body.bytes timeMs
    return ⟨false, r.countPalette, h⟩
  else
    return ⟨false, r.countBadMagic, h⟩

end BitmapReceiver

end Ledwall.Receiver
