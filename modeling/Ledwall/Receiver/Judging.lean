import Ledwall.Library.Callees
import Ledwall.Receiver.BitmapReceiver

/-! The receiver's calls with something else in the place of `present`: where they call it. -/

namespace Ledwall.Receiver

open Ledwall.Wire

abbrev Judge := BitmapReceiver × Hub75 × ℤ → Except Panic Outcome

def presentAt : Judge := fun s => s.1.present s.2.1 s.2.2

namespace BitmapReceiver

variable (judge : Judge)

def completeWith (r : BitmapReceiver) (h : Hub75) (timeMs : ℤ) (presented : Bool) :
    Except Panic Outcome := do
  if r.totalChunks % 65536 ≤ r.received then
    let o ← judge (r, h, timeMs)
    return { o with presented := o.presented || presented }
  return ⟨presented, r, h⟩

def storeChunkWith (r : BitmapReceiver) (h : Hub75) (p : PixelHeader) (ppc : ℕ) (indexed : Bool)
    (data : Slice) (timeMs : ℤ) (presented : Bool) : Except Panic Outcome := do
  if ← r.chunkMask.test p.chunkIndex then
    return ⟨presented, { r with
      stats.packetsDuplicate := inc32 r.stats.packetsDuplicate
      lastPacketMs := timeMs }, h⟩
  let h ← drawChunk h p ppc indexed data
  let mask ← r.chunkMask.insert p.chunkIndex
  let r := r.countChunk mask timeMs
  let r :=
    if r.totalChunks % 65536 ≤ (r.received + 1) % 65536 then r.mergeDmaArrival h timeMs else r
  r.completeWith judge h timeMs presented

def pixelPacketWith (r : BitmapReceiver) (h : Hub75) (indexed wide : Bool) (data : Slice)
    (timeMs : ℤ) : Except Panic Outcome := do
  let r := { r with indexed := indexed, wide := wide }
  let (r, h) := r.applyMode h indexed
  if wide ∧ data.bytes.length < HEADER_SIZE_WIDE then return ⟨false, r.countBadHeader, h⟩
  let p ← parseHeader data wide
  if MAX_CHUNKS < p.totalChunks then return ⟨false, r.countBadHeader, h⟩
  let r := r.noteHeader p
  if p.totalChunks = 0 ∨ p.totalChunks ≤ p.chunkIndex then return ⟨false, r.countBadHeader, h⟩
  let imgLen := h.imgLen
  let ppc := r.ppc
  if p.width ≠ 0 ∧ p.height ≠ 0 ∧ p.width * p.height ≠ imgLen then
    return ⟨false, r.countBadSize, h⟩
  let maxChunks := (imgLen + ppc - 1) / ppc
  if imgLen = 0 ∨ maxChunks < p.totalChunks then return ⟨false, r.countBadHeader, h⟩
  let r := r.countValid
  if p.frameId ≠ r.currentFrameId ∨ p.totalChunks ≠ r.totalChunks then
    let (curW, curLen) := h.getImgParam
    if curW ≠ 0 ∧ (p.width ≠ curW ∨ p.width * p.height ≠ curLen) then
      return ⟨false, r.countBadHeader, h⟩
    let ⟨presented, r, h⟩ ← judge (r, h, timeMs)
    (r.beginFrame p).storeChunkWith judge h p ppc indexed data timeMs presented
  else
    r.storeChunkWith judge h p ppc indexed data timeMs false

def processPacketWith (r : BitmapReceiver) (h : Hub75) (data : Slice) (timeMs : ℤ) :
    Except Panic Outcome := do
  let r := r.countPacket data
  if r.hold then return ⟨false, r, h⟩
  if data.bytes.length < HEADER_SIZE then return ⟨false, r.countBadHeader, h⟩
  let b0 ← data.get 0
  let b1 ← data.get 1
  if ¬ r.cpuPixels ∧ b0 = letterB ∧ (b1 = letterM ∨ b1 = letterI ∨ b1 = letterW) then
    return ⟨false, r.countSkipped timeMs, h⟩
  if b0 = letterB ∧ b1 = letterM then r.pixelPacketWith judge h false false data timeMs
  else if b0 = letterB ∧ b1 = letterI then r.pixelPacketWith judge h true false data timeMs
  else if b0 = letterB ∧ b1 = letterW then r.pixelPacketWith judge h false true data timeMs
  else if b0 = letterB ∧ b1 = letterP then
    let start ← data.get 4
    let body ← data.from HEADER_SIZE
    let (r, h) ← r.stashPalette h start.toNat body.bytes timeMs
    return ⟨false, r.countPalette, h⟩
  else
    return ⟨false, r.countBadMagic, h⟩

def presentDoneFrameWith (r : BitmapReceiver) (h : Hub75) (timeMs : ℤ) : Except Panic Outcome :=
  match h.dmaDoneFrame with
  | none => return ⟨false, r, h⟩
  | some (words, fid, total, indexed, seq) => do
    if total = 0 ∨ seq = r.lastDoneSeq then return ⟨false, r, h⟩
    let r := { r with lastDoneSeq := seq }
    if r.cpuSawPacket then return ⟨false, r, h⟩
    let (r, h) := r.takeSnapshot h words fid total indexed timeMs
    judge (r, h, timeMs)

def presentDoneNowWith (r : BitmapReceiver) (h : Hub75) (timeMs : ℤ) : Except Panic Outcome := do
  if ¬ r.hwFilterOn then return ⟨false, r, h⟩
  r.presentDoneFrameWith judge h timeMs

def adoptDmaFrameWith (r : BitmapReceiver) (h : Hub75) (timeMs : ℤ) : Except Panic Outcome :=
  match h.dmaFrameIdentity with
  | none => return ⟨false, r, h⟩
  | some (hwFrameId, hwTotal, hwIndexed) => do
    if hwTotal = 0 then return ⟨false, r, h⟩
    if hwFrameId = r.currentFrameId then return ⟨false, r, h⟩
    if r.cpuSawPacket then return ⟨false, r, h⟩
    let ⟨presented, r, h⟩ ← judge (r, h, timeMs)
    let (r, h) := r.takeIdentity h hwFrameId hwTotal hwIndexed timeMs
    return ⟨presented, r, h⟩

def tickFrameWith (r : BitmapReceiver) (h : Hub75) (timeMs : ℤ) (presented : Bool) :
    Except Panic Outcome := do
  let r := r.mergeDmaArrival h timeMs
  if r.totalChunks % 65536 ≤ r.received then
    let o ← judge (r, h, timeMs)
    return { o with presented := o.presented || presented }
  if r.received = 0 then return ⟨presented, r, h⟩
  if timeMs - r.lastPacketMs < STALE_MS then return ⟨presented, r, h⟩
  let o ← judge (r.countStale, h, timeMs)
  return { o with presented := presented || o.presented }

def tickWith (r : BitmapReceiver) (h : Hub75) (timeMs : ℤ) : Except Panic Outcome := do
  let (r, h) ← r.tickPalette h timeMs
  let ⟨presented, r, h⟩ ← r.presentDoneFrameWith judge h timeMs
  if r.hwFilterOn then return ⟨presented, r, h⟩
  let ⟨adopted, r, h⟩ ← r.adoptDmaFrameWith judge h timeMs
  let presented := presented || adopted
  if r.totalChunks = 0 then return ⟨presented, r, h⟩
  r.tickFrameWith judge h timeMs presented

end BitmapReceiver

end Ledwall.Receiver
