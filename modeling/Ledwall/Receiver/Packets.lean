import Ledwall.Receiver.Judging
import Ledwall.Receiver.PixelWrites
import Ledwall.Receiver.Presenting

/-! What one datagram does: which packets are accepted, and where an accepted chunk goes. -/

namespace Ledwall.Receiver

open Ledwall.Library.Outcomes Ledwall.Wire

def pixelWord (indexed : Bool) (src : List Byte) (i : ℕ) : Word :=
  if indexed then Hub75.indexedByte src i else Hub75.rgbTriple src i

def pixelBytes (indexed : Bool) : ℕ := if indexed then 1 else 3

namespace Glass

/-- `words` written to the back half from `offset` on. -/
def draw (g : Glass) (offset : ℕ) (words : List Word) : Glass :=
  { g with
    back := fun p =>
      if offset ≤ p ∧ p < offset + words.length then words.getD (p - offset) 0 else g.back p
    drawn := g.drawn ++ words.mapIdx fun i w => (offset + i, w) }

/-- The words of a chunk that land inside the image. -/
def chunkWords (g : Glass) (indexed : Bool) (offset : ℕ) (src : List Byte) : List Word :=
  (List.range (min (src.length / pixelBytes indexed) (g.imgLen - offset))).map (pixelWord indexed src)

lemma draw_nil (g : Glass) (offset : ℕ) : g.draw offset [] = g := by
  have hp (p : ℕ) : ¬ (offset ≤ p ∧ p < offset) := by omega
  simp [draw, hp]

lemma chunkWords_nil (g : Glass) {indexed : Bool} {offset : ℕ} {src : List Byte}
    (h : g.imgLen ≤ offset ∨ min (src.length / pixelBytes indexed) (g.imgLen - offset) = 0) :
    g.chunkWords indexed offset src = [] := by
  have h₀ : min (src.length / pixelBytes indexed) (g.imgLen - offset) = 0 := by
    rcases h with h | h
    · rw [Nat.sub_eq_zero_of_le h, Nat.min_zero]
    · exact h
  rw [chunkWords, h₀]
  rfl

def setMode (g : Glass) (indexed : Bool) : Glass := { g with indexedMode := indexed }

end Glass

namespace Hub75

lemma store_glass (h : Hub75) (offset : ℕ) (words : List Word) :
    (h.store offset words).glass = h.glass.draw offset words := rfl

lemma writePixels_ok (h : Hub75) (offset : ℕ) (indexed : Bool) (src : Slice)
    {words : ℕ → List Word} (hw : ∀ n, words n = (List.range n).map (pixelWord indexed src.bytes)) :
    ∃ h', h.writePixels offset (pixelBytes indexed) src words = .ok h' ∧
      h'.glass = h.glass.draw offset (h.glass.chunkWords indexed offset src.bytes) := by
  have hlimit : h.glass.imgLen = h.limit := rfl
  have hmax : h.limit ≤ FB_HALF_WORDS := min_le_right _ _
  have hsrc : src.bytes.length / pixelBytes indexed * pixelBytes indexed ≤ src.bytes.length :=
    Nat.div_mul_le_self _ _
  simp only [writePixels]
  split
  · rename_i hc
    refine ⟨h, rfl, ?_⟩
    rw [Glass.chunkWords_nil _ (.inl hc), Glass.draw_nil]
  · rename_i hc
    split
    · rename_i hn
      refine ⟨h, rfl, ?_⟩
      rw [Glass.chunkWords_nil _ (.inr hn), Glass.draw_nil]
    · have hr : min (src.bytes.length / pixelBytes indexed) (h.limit - offset) ≤
          h.limit - offset := min_le_right _ _
      have h₁ : offset ≤ offset + min (src.bytes.length / pixelBytes indexed) (h.limit - offset) ∧
          offset + min (src.bytes.length / pixelBytes indexed) (h.limit - offset) ≤
            FB_HALF_WORDS := ⟨Nat.le_add_right _ _, by omega⟩
      have h₂ : min (src.bytes.length / pixelBytes indexed) (h.limit - offset) *
          pixelBytes indexed ≤ src.bytes.length :=
        (Nat.mul_le_mul_right _ (min_le_left _ _)).trans hsrc
      simp only [checkSlice, if_pos h₁, Nat.zero_le, h₂, and_self, if_true, bind, Except.bind, pure,
        Except.pure]
      refine ⟨_, rfl, ?_⟩
      rw [store_glass, hw]
      rfl

lemma writeChunk_ok (h : Hub75) (offset : ℕ) (indexed : Bool) (src : Slice) :
    ∃ h', (if indexed then h.writeImgIndexed offset src else h.writeImgRgb888 offset src) = .ok h' ∧
      h'.glass = h.glass.draw offset (h.glass.chunkWords indexed offset src.bytes) := by
  cases indexed
  · exact h.writePixels_ok offset false src (rgbWords_eq src)
  · exact h.writePixels_ok offset true src (indexedWords_eq src)

end Hub75

/-- `u16::from_le_bytes` at `i`. -/
def u16 (data : List Byte) (i : ℕ) : ℕ :=
  (data.getD i 0).toNat + 256 * (data.getD (i + 1) 0).toNat

def headerOf (data : List Byte) (wide : Bool) : PixelHeader :=
  if wide then ⟨u16 data 2, u16 data 4, u16 data 6, u16 data 8, u16 data 10, HEADER_SIZE_WIDE⟩
  else ⟨u16 data 2, (data.getD 4 0).toNat, (data.getD 5 0).toNat, u16 data 6, u16 data 8,
    HEADER_SIZE⟩

def headerLen (wide : Bool) : ℕ := if wide then HEADER_SIZE_WIDE else HEADER_SIZE

lemma headerOf_hdrLen (data : List Byte) (wide : Bool) :
    (headerOf data wide).hdrLen = headerLen wide := by
  cases wide <;> rfl

def strideOf (indexed wide : Bool) : ℕ :=
  if indexed then PIXELS_PER_CHUNK_INDEXED
  else if wide then PIXELS_PER_CHUNK_WIDE
  else PIXELS_PER_CHUNK

namespace Slice

lemma get_ok (s : Slice) {i : ℕ} (h : i < s.bytes.length) : s.get i = .ok (s.bytes.getD i 0) := by
  simp only [get, checkIndex, if_pos h, bind, Except.bind, pure, Except.pure]

lemma from_ok (s : Slice) {k : ℕ} (h : k ≤ s.bytes.length) :
    s.from k = .ok ⟨s.addr + k, s.bytes.drop k⟩ := by
  have hc : k ≤ s.bytes.length ∧ s.bytes.length ≤ s.bytes.length := ⟨h, le_rfl⟩
  simp only [Slice.from, checkSlice, if_pos hc, bind, Except.bind, pure, Except.pure]

end Slice

namespace BitmapReceiver

lemma parseHeader_ok (data : Slice) {wide : Bool} (h : headerLen wide ≤ data.bytes.length) :
    parseHeader data wide = .ok (headerOf data.bytes wide) := by
  have hb (i : ℕ) (hi : i < headerLen wide) : data.get i = .ok (data.bytes.getD i 0) :=
    data.get_ok (by omega)
  have hu (i : ℕ) (hi : i + 1 < headerLen wide) : u16At data i = .ok (u16 data.bytes i) := by
    simp only [u16At, hb i (by omega), hb (i + 1) hi, bind, Except.bind]
    rfl
  cases wide
  · simp only [headerLen, HEADER_SIZE, Bool.false_eq_true, if_false] at hb hu
    simp [parseHeader, hb, hu, bind, Except.bind, pure, Except.pure, headerOf]
  · simp only [headerLen, HEADER_SIZE_WIDE, if_true] at hb hu
    simp [parseHeader, hu, bind, Except.bind, pure, Except.pure, headerOf]

lemma drawChunk_ok (h : Hub75) (p : PixelHeader) (ppc : ℕ) (indexed : Bool) (data : Slice)
    (hd : p.hdrLen ≤ data.bytes.length) :
    ∃ h', drawChunk h p ppc indexed data = .ok h' ∧ h'.autoSwap = h.autoSwap ∧
      (h.dmaEnable = false → h'.glass = h.glass.draw (p.chunkIndex * ppc)
        (h.glass.chunkWords indexed (p.chunkIndex * ppc) (data.bytes.drop p.hdrLen))) := by
  unfold drawChunk
  split
  · rename_i hon
    refine ⟨h, rfl, rfl, fun hoff => ?_⟩
    rw [hoff] at hon
    cases hon
  · simp only [data.from_ok hd, bind, Except.bind]
    obtain ⟨h', hw, hg⟩ := h.writeChunk_ok (p.chunkIndex * ppc) indexed
      ⟨data.addr + p.hdrLen, data.bytes.drop p.hdrLen⟩
    exact ⟨h', hw, congrArg Glass.autoSwap hg, fun _ => hg⟩

lemma mergeDmaArrival_total (r : BitmapReceiver) (h : Hub75) (t : ℤ) :
    (r.mergeDmaArrival h t).totalChunks = r.totalChunks ∧
      (r.mergeDmaArrival h t).currentFrameId = r.currentFrameId ∧
      ((r.mergeDmaArrival h t).PaletteFits ↔ r.PaletteFits) := by
  unfold mergeDmaArrival
  split
  · exact ⟨rfl, rfl, Iff.rfl⟩
  · split <;> exact ⟨rfl, rfl, Iff.rfl⟩

lemma mergeDmaArrival_off (r : BitmapReceiver) (h : Hub75) (t : ℤ) (hd : h.dmaEnable = false) :
    r.mergeDmaArrival h t = r := by
  simp [mergeDmaArrival, Hub75.dmaArrival, hd]

end BitmapReceiver

namespace Progress

def hear (p : Progress) (t : ℤ) : Progress := { p with heard := t }

/-- Chunk `i` counted in at `t`. -/
def count (p : Progress) (i : ℕ) (t : ℤ) : Progress :=
  { p with
    mask := p.mask.add i
    received := (p.received + 1) % 65536
    sawPacket := true
    heard := t }

def latch (p : Progress) (indexed wide : Bool) : Progress :=
  { p with indexed := indexed, wide := wide, mode := some indexed }

def identify (p : Progress) (frameId total : ℕ) : Progress :=
  { p with frameId := frameId, total := total }

end Progress

namespace BitmapReceiver

/-- The frame as it stands after a chunk, presented when that chunk was the last. -/
def complete (r : BitmapReceiver) (h : Hub75) (t : ℤ) (presented : Bool) :
    Except Panic Outcome := do
  if r.totalChunks % 65536 ≤ r.received then
    let o ← r.present h t
    return { o with presented := o.presented || presented }
  return ⟨presented, r, h⟩

variable {r : BitmapReceiver} {p : PixelHeader} {data : Slice} (h : Hub75) (ppc : ℕ)
  (indexed : Bool) (t : ℤ) (presented : Bool)

lemma storeChunk_duplicate (data : Slice) (hi : p.chunkIndex < MAX_CHUNKS)
    (hm : r.chunkMask.has p.chunkIndex = true) :
    ∃ r', r.storeChunk h p ppc indexed data t presented = .ok ⟨presented, r', h⟩ ∧
      r'.progress = r.progress.hear t ∧ (r'.PaletteFits ↔ r.PaletteFits) := by
  simp only [storeChunk, r.chunkMask.test_eq hi, hm, bind, Except.bind, pure, Except.pure, if_true]
  exact ⟨_, rfl, rfl, Iff.rfl⟩

lemma storeChunk_new (hi : p.chunkIndex < MAX_CHUNKS) (hd : p.hdrLen ≤ data.bytes.length)
    (hm : r.chunkMask.has p.chunkIndex = false) :
    ∃ (r' : BitmapReceiver) (h' : Hub75),
      r.storeChunk h p ppc indexed data t presented = r'.complete h' t presented ∧
      r'.totalChunks = r.totalChunks ∧ (r'.PaletteFits ↔ r.PaletteFits) ∧
      h'.autoSwap = h.autoSwap ∧
      (h.dmaEnable = false → r'.progress = r.progress.count p.chunkIndex t ∧
        h'.glass = h.glass.draw (p.chunkIndex * ppc)
          (h.glass.chunkWords indexed (p.chunkIndex * ppc) (data.bytes.drop p.hdrLen))) := by
  obtain ⟨h', hw, ha, hg⟩ := drawChunk_ok h p ppc indexed data hd
  simp only [storeChunk, r.chunkMask.test_eq hi, r.chunkMask.insert_eq hi, hm, hw, bind, Except.bind,
    pure, Except.pure, Bool.false_eq_true, if_false]
  refine ⟨_, h', rfl, ?_, ?_, ha, fun hoff => ⟨?_, hg hoff⟩⟩
  · split
    · exact (mergeDmaArrival_total _ h' t).1
    · rfl
  · split
    · exact (mergeDmaArrival_total _ h' t).2.2
    · rfl
  · have hoff' : h'.dmaEnable = false := (congrArg Glass.dmaEnable (hg hoff)).trans hoff
    simp only [mergeDmaArrival_off _ h' t hoff', ite_self]
    rfl

end BitmapReceiver

/-- The header checks `process_packet` makes on every pixel packet. -/
structure PixelHeader.Valid (p : PixelHeader) (ppc imgLen : ℕ) : Prop where
  total_le : p.totalChunks ≤ MAX_CHUNKS
  total_ne : p.totalChunks ≠ 0
  index_lt : p.chunkIndex < p.totalChunks
  size : p.width ≠ 0 ∧ p.height ≠ 0 → p.width * p.height = imgLen
  imgLen_ne : imgLen ≠ 0
  covers : p.totalChunks ≤ (imgLen + ppc - 1) / ppc

def PixelHeader.Continues (p : PixelHeader) (q : Progress) : Prop :=
  p.frameId = q.frameId ∧ p.totalChunks = q.total

instance (p : PixelHeader) (q : Progress) : Decidable (p.Continues q) := by
  unfold PixelHeader.Continues
  infer_instance

/-- The check it makes on the first packet of a frame only. -/
def PixelHeader.FitsImage (p : PixelHeader) (g : Glass) : Prop :=
  g.width ≠ 0 → p.width = g.width ∧ p.width * p.height = g.length

structure Accepts (q : Progress) (g : Glass) (indexed wide : Bool) (data : List Byte) : Prop where
  long : headerLen wide ≤ data.length
  valid : (headerOf data wide).Valid (strideOf indexed wide) g.imgLen
  image : ¬ (headerOf data wide).Continues q → (headerOf data wide).FitsImage g

def Glass.latch (g : Glass) (p : Progress) (indexed : Bool) : Glass :=
  if p.mode ≠ some indexed then g.setMode indexed else g

section Latch

variable (g : Glass) (p : Progress) (indexed : Bool)

@[simp] lemma Glass.latch_imgLen : (g.latch p indexed).imgLen = g.imgLen := by
  unfold Glass.latch
  split <;> rfl

@[simp] lemma Glass.latch_width : (g.latch p indexed).width = g.width := by
  unfold Glass.latch
  split <;> rfl

@[simp] lemma Glass.latch_length : (g.latch p indexed).length = g.length := by
  unfold Glass.latch
  split <;> rfl

@[simp] lemma Glass.latch_regs : (g.latch p indexed).regs = g.regs := by
  unfold Glass.latch
  split <;> rfl

@[simp] lemma Glass.latch_dmaEnable : (g.latch p indexed).dmaEnable = g.dmaEnable := by
  unfold Glass.latch
  split <;> rfl

end Latch

namespace BitmapReceiver

variable {r : BitmapReceiver} {h : Hub75} {indexed wide : Bool} {data : Slice} {t : ℤ}

section Counters

variable (r : BitmapReceiver) (p : PixelHeader) (data : Slice)

@[simp] lemma countBadHeader_progress : r.countBadHeader.progress = r.progress := rfl
@[simp] lemma countBadSize_progress : r.countBadSize.progress = r.progress := rfl
@[simp] lemma countValid_progress : r.countValid.progress = r.progress := rfl
@[simp] lemma noteHeader_progress : (r.noteHeader p).progress = r.progress := rfl
@[simp] lemma countPacket_progress : (r.countPacket data).progress = r.progress := rfl
@[simp] lemma countBadHeader_fits : r.countBadHeader.PaletteFits ↔ r.PaletteFits := Iff.rfl
@[simp] lemma countBadSize_fits : r.countBadSize.PaletteFits ↔ r.PaletteFits := Iff.rfl
@[simp] lemma countValid_fits : r.countValid.PaletteFits ↔ r.PaletteFits := Iff.rfl
@[simp] lemma noteHeader_fits : (r.noteHeader p).PaletteFits ↔ r.PaletteFits := Iff.rfl
@[simp] lemma countPacket_fits : (r.countPacket data).PaletteFits ↔ r.PaletteFits := Iff.rfl
@[simp] lemma countBadHeader_account : r.countBadHeader.account = r.account := rfl
@[simp] lemma countBadSize_account : r.countBadSize.account = r.account := rfl
@[simp] lemma countValid_account : r.countValid.account = r.account := rfl
@[simp] lemma noteHeader_account : (r.noteHeader p).account = r.account := rfl
@[simp] lemma countPacket_account : (r.countPacket data).account = r.account := rfl

end Counters

lemma applyMode_glass (r : BitmapReceiver) (h : Hub75) (indexed : Bool) :
    (r.applyMode h indexed).2.glass = h.glass.latch r.progress indexed := by
  have hm : r.progress.mode = r.modeIndexed := rfl
  unfold applyMode Glass.latch
  rw [hm]
  split <;> rfl

lemma applyMode_progress (r : BitmapReceiver) (h : Hub75) (indexed : Bool) :
    (r.applyMode h indexed).1.progress = { r.progress with mode := some indexed } ∧
      ((r.applyMode h indexed).1.PaletteFits ↔ r.PaletteFits) := by
  unfold applyMode
  split
  · exact ⟨rfl, Iff.rfl⟩
  · rename_i hm
    have hm : r.modeIndexed = some indexed := by simpa using hm
    refine ⟨?_, Iff.rfl⟩
    rw [← hm]
    rfl

lemma applyMode_account (r : BitmapReceiver) (h : Hub75) (indexed : Bool) :
    (r.applyMode h indexed).1.account = r.account := by
  unfold applyMode
  split <;> rfl

/-- A pixel packet is refused with nothing changed but the latch, or its chunk is stored into the
frame in progress, or that frame is flushed first. -/
inductive PacketCase (r : BitmapReceiver) (h : Hub75) (indexed wide : Bool) (data : Slice) (t : ℤ)
    (r₀ : BitmapReceiver) (h₀ : Hub75) : Prop
  | refused (hn : ¬ Accepts r.progress h.glass indexed wide data.bytes)
      (he : r.pixelPacket h indexed wide data t = .ok ⟨false, r₀, h₀⟩)
  | stored (ha : Accepts r.progress h.glass indexed wide data.bytes)
      (hc : (headerOf data.bytes wide).Continues r.progress)
      (he : r.pixelPacket h indexed wide data t = r₀.storeChunk h₀ (headerOf data.bytes wide)
        (strideOf indexed wide) indexed data t false)
  | flushed (ha : Accepts r.progress h.glass indexed wide data.bytes)
      (hc : ¬ (headerOf data.bytes wide).Continues r.progress)
      (he : r.pixelPacket h indexed wide data t = (r₀.present h₀ t).bind fun o =>
        (o.rx.beginFrame (headerOf data.bytes wide)).storeChunk o.hub (headerOf data.bytes wide)
          (strideOf indexed wide) indexed data t o.presented)

/-- `PacketCase`, whatever is called in the place of `present`. -/
inductive PacketPath (r : BitmapReceiver) (h : Hub75) (indexed wide : Bool) (data : Slice) (t : ℤ)
    (r₀ : BitmapReceiver) (h₀ : Hub75) : Prop
  | refused (hn : ¬ Accepts r.progress h.glass indexed wide data.bytes)
      (he : ∀ judge, r.pixelPacketWith judge h indexed wide data t = .ok ⟨false, r₀, h₀⟩)
  | stored (ha : Accepts r.progress h.glass indexed wide data.bytes)
      (hc : (headerOf data.bytes wide).Continues r.progress)
      (he : ∀ judge, r.pixelPacketWith judge h indexed wide data t =
        r₀.storeChunkWith judge h₀ (headerOf data.bytes wide) (strideOf indexed wide) indexed data t
          false)
  | flushed (ha : Accepts r.progress h.glass indexed wide data.bytes)
      (hc : ¬ (headerOf data.bytes wide).Continues r.progress)
      (he : ∀ judge, r.pixelPacketWith judge h indexed wide data t = (judge (r₀, h₀, t)).bind fun o =>
        (o.rx.beginFrame (headerOf data.bytes wide)).storeChunkWith judge o.hub
          (headerOf data.bytes wide) (strideOf indexed wide) indexed data t o.presented)

theorem pixelPacket_paths (r : BitmapReceiver) (h : Hub75) (indexed wide : Bool) (data : Slice)
    (t : ℤ) (hlen : HEADER_SIZE ≤ data.bytes.length) :
    ∃ (r₀ : BitmapReceiver) (h₀ : Hub75), r₀.progress = r.progress.latch indexed wide ∧
      r₀.account = r.account ∧ h₀.glass = h.glass.latch r.progress indexed ∧
      PacketPath r h indexed wide data t r₀ h₀ := by
  have hf := applyMode_account { r with indexed := indexed, wide := wide } h indexed
  obtain ⟨hm, -⟩ := applyMode_progress { r with indexed := indexed, wide := wide } h indexed
  have hg := applyMode_glass { r with indexed := indexed, wide := wide } h indexed
  rcases hpair : applyMode { r with indexed := indexed, wide := wide } h indexed with ⟨r₁, h₁⟩
  rw [hpair] at hm hf hg
  have hm : r₁.progress = r.progress.latch indexed wide := hm
  have hf : r₁.account = r.account := hf
  have hg : h₁.glass = h.glass.latch r.progress indexed := hg
  have himg : h₁.imgLen = h.glass.imgLen :=
    (congrArg Glass.imgLen hg).trans (Glass.latch_imgLen _ _ _)
  have hwidth : h₁.ctrlWidth = h.glass.width :=
    (congrArg Glass.width hg).trans (Glass.latch_width _ _ _)
  have hlength : h₁.length = h.glass.length :=
    (congrArg Glass.length hg).trans (Glass.latch_length _ _ _)
  have hppc : (r₁.noteHeader (headerOf data.bytes wide)).ppc = strideOf indexed wide :=
    congrArg Progress.ppc hm
  have hid : r₁.currentFrameId = r.progress.frameId := congrArg Progress.frameId hm
  have htotal : r₁.totalChunks = r.progress.total := congrArg Progress.total hm
  have refuse (r₀ : BitmapReceiver) (h₀ : r₀.progress = r₁.progress)
      (h₀' : r₀.account = r₁.account)
      (hn : ¬ Accepts r.progress h.glass indexed wide data.bytes)
      (he : ∀ judge, r.pixelPacketWith judge h indexed wide data t = .ok ⟨false, r₀, h₁⟩) :
      ∃ (r₀ : BitmapReceiver) (h₀ : Hub75), r₀.progress = r.progress.latch indexed wide ∧
        r₀.account = r.account ∧ h₀.glass = h.glass.latch r.progress indexed ∧
        PacketPath r h indexed wide data t r₀ h₀ :=
    ⟨r₀, h₁, h₀.trans hm, h₀'.trans hf, hg, .refused hn he⟩
  generalize hp : headerOf data.bytes wide = p at *
  by_cases hshort : wide = true ∧ data.bytes.length < HEADER_SIZE_WIDE
  · refine refuse r₁.countBadHeader (by simp) (by simp) (fun ha => ?_) ?_
    · have := ha.long
      simp only [headerLen, hshort.1, if_true] at this
      omega
    · intro judge
      simp only [pixelPacketWith, hpair, if_pos hshort]
      rfl
  have hlen' : headerLen wide ≤ data.bytes.length := by
    cases wide
    · exact hlen
    · simpa [headerLen] using hshort
  have hparse := parseHeader_ok data hlen'
  rw [hp] at hparse
  by_cases hmax : MAX_CHUNKS < p.totalChunks
  · refine refuse r₁.countBadHeader (by simp) (by simp) (fun ha => ?_) ?_
    · have := ha.valid.total_le
      rw [hp] at this
      omega
    · intro judge
      simp only [pixelPacketWith, hpair, if_neg hshort, hparse, if_pos hmax, bind, Except.bind]
      rfl
  by_cases hrange : p.totalChunks = 0 ∨ p.totalChunks ≤ p.chunkIndex
  · refine refuse (r₁.noteHeader p).countBadHeader (by simp) (by simp) (fun ha => ?_) ?_
    · have h₂ := ha.valid.total_ne
      have h₃ := ha.valid.index_lt
      rw [hp] at h₂ h₃
      omega
    · intro judge
      simp only [pixelPacketWith, hpair, if_neg hshort, hparse, if_neg hmax, if_pos hrange, bind,
        Except.bind]
      rfl
  by_cases hsize : p.width ≠ 0 ∧ p.height ≠ 0 ∧ p.width * p.height ≠ h.glass.imgLen
  · refine refuse (r₁.noteHeader p).countBadSize (by simp) (by simp) (fun ha => ?_) ?_
    · have h₂ := ha.valid.size
      rw [hp] at h₂
      exact hsize.2.2 (h₂ ⟨hsize.1, hsize.2.1⟩)
    · intro judge
      simp only [pixelPacketWith, hpair, if_neg hshort, hparse, if_neg hmax, if_neg hrange, himg,
        if_pos hsize, bind, Except.bind]
      rfl
  by_cases hcover : h.glass.imgLen = 0 ∨
      (h.glass.imgLen + strideOf indexed wide - 1) / strideOf indexed wide < p.totalChunks
  · refine refuse (r₁.noteHeader p).countBadHeader (by simp) (by simp) (fun ha => ?_) ?_
    · have h₂ := ha.valid.imgLen_ne
      have h₃ := ha.valid.covers
      rw [hp] at h₃
      omega
    · intro judge
      simp only [pixelPacketWith, hpair, if_neg hshort, hparse, if_neg hmax, if_neg hrange, himg, hppc,
        if_neg hsize, if_pos hcover, bind, Except.bind]
      rfl
  have hvalid : p.Valid (strideOf indexed wide) h.glass.imgLen := by
    refine ⟨by omega, by omega, by omega, fun hwh => ?_, by omega, by omega⟩
    by_contra hne
    exact hsize ⟨hwh.1, hwh.2, hne⟩
  by_cases hc : p.Continues r.progress
  · refine ⟨(r₁.noteHeader p).countValid, h₁, by simpa using hm, by simpa using hf, hg, .stored ⟨hlen', ?_, ?_⟩ ?_ ?_⟩
    · rw [hp]
      exact hvalid
    · rw [hp]
      intro hn
      exact absurd hc hn
    · rw [hp]
      exact hc
    · have hsame : ¬ (p.frameId ≠ (r₁.noteHeader p).countValid.currentFrameId ∨
          p.totalChunks ≠ (r₁.noteHeader p).countValid.totalChunks) := by
        change ¬ (p.frameId ≠ r₁.currentFrameId ∨ p.totalChunks ≠ r₁.totalChunks)
        rw [hid, htotal]
        exact not_or.mpr ⟨not_not.mpr hc.1, not_not.mpr hc.2⟩
      rw [hp]
      intro judge
      simp only [pixelPacketWith, hpair, if_neg hshort, hparse, if_neg hmax, if_neg hrange, himg, hppc,
        if_neg hsize, if_neg hcover, if_neg hsame, bind, Except.bind]
  have hnew : p.frameId ≠ (r₁.noteHeader p).countValid.currentFrameId ∨
      p.totalChunks ≠ (r₁.noteHeader p).countValid.totalChunks := by
    change p.frameId ≠ r₁.currentFrameId ∨ p.totalChunks ≠ r₁.totalChunks
    rw [hid, htotal]
    exact not_and_or.mp hc
  by_cases hi : h.glass.width ≠ 0 ∧ (p.width ≠ h.glass.width ∨ p.width * p.height ≠ h.glass.length)
  · refine refuse (r₁.noteHeader p).countValid.countBadHeader (by simp) (by simp) ?_ ?_
    · intro ha
      have himage := ha.image
      rw [hp] at himage
      obtain ⟨hw, hl⟩ := himage hc hi.1
      exact hi.2.elim (fun hne => hne hw) fun hne => hne hl
    · intro judge
      simp only [pixelPacketWith, hpair, if_neg hshort, hparse, if_neg hmax, if_neg hrange, himg, hppc,
        if_neg hsize, if_neg hcover, if_pos hnew, Hub75.getImgParam, hwidth, hlength, if_pos hi,
        bind, Except.bind]
      rfl
  · refine ⟨(r₁.noteHeader p).countValid, h₁, by simpa using hm, by simpa using hf, hg, .flushed ⟨hlen', ?_, ?_⟩ ?_ ?_⟩
    · rw [hp]
      exact hvalid
    · rw [hp]
      intro _ hw
      by_contra hne
      exact hi ⟨hw, not_and_or.mp hne⟩
    · rw [hp]
      exact hc
    · rw [hp]
      intro judge
      simp only [pixelPacketWith, hpair, if_neg hshort, hparse, if_neg hmax, if_neg hrange, himg, hppc,
        if_neg hsize, if_neg hcover, if_pos hnew, Hub75.getImgParam, hwidth, hlength, if_neg hi,
        bind, Except.bind]

theorem pixelPacket_cases (r : BitmapReceiver) (h : Hub75) (indexed wide : Bool) (data : Slice)
    (t : ℤ) (hlen : HEADER_SIZE ≤ data.bytes.length) :
    ∃ (r₀ : BitmapReceiver) (h₀ : Hub75), r₀.progress = r.progress.latch indexed wide ∧
      (r₀.PaletteFits ↔ r.PaletteFits) ∧ h₀.glass = h.glass.latch r.progress indexed ∧
      PacketCase r h indexed wide data t r₀ h₀ := by
  obtain ⟨r₀, h₀, hp, hf, hg, hpath⟩ := r.pixelPacket_paths h indexed wide data t hlen
  refine ⟨r₀, h₀, hp, fits_of_account hf, hg, ?_⟩
  cases hpath with
  | refused hn he => exact .refused hn (he presentAt)
  | stored ha hc he => exact .stored ha hc (he presentAt)
  | flushed ha hc he => exact .flushed ha hc (he presentAt)

/-- Which pixel packet the first two bytes announce: indexed or not, wide or not. -/
def pixelMagic (data : List Byte) : Option (Bool × Bool) :=
  if data.getD 0 0 = letterB ∧ data.getD 1 0 = letterM then some (false, false)
  else if data.getD 0 0 = letterB ∧ data.getD 1 0 = letterI then some (true, false)
  else if data.getD 0 0 = letterB ∧ data.getD 1 0 = letterW then some (false, true)
  else none

lemma stashPalette_ok (r : BitmapReceiver) (h : Hub75) (start : ℕ) (body : List Byte) (t : ℤ)
    (hs : start ≤ PALETTE_LEN) :
    ∃ r' h', r.stashPalette h start body t = .ok (r', h') ∧ r'.progress = r.progress ∧
      r'.PaletteFits ∧ h'.glass = h.glass := by
  have hn : 0 ≤ min (body.length / 3) (PALETTE_LEN - start) ∧
      min (body.length / 3) (PALETTE_LEN - start) ≤ PALETTE_LEN := by omega
  have hfits : start + min (body.length / 3) (PALETTE_LEN - start) ≤ PALETTE_LEN := by omega
  simp only [stashPalette, checkSlice, if_pos hn, bind, Except.bind]
  split
  · exact applyPendingPalette_ok { r with
      pendingPalette := _
      pendingPaletteStart := start
      pendingPaletteLen := min (body.length / 3) (PALETTE_LEN - start)
      pendingPaletteValid := true } h hfits
  · exact ⟨_, _, rfl, rfl, hfits, rfl⟩

lemma applyPendingPalette_verdicts (r : BitmapReceiver) (h : Hub75) :
    Ensures (fun s => s.1.verdicts = r.verdicts) (r.applyPendingPalette h) := by
  unfold applyPendingPalette
  split
  · exact .ok rfl
  · refine Ensures.bind (P := fun _ => True) (fun _ _ => trivial) fun _ _ => ?_
    refine Ensures.bind (P := fun _ => True) (fun _ _ => trivial) fun _ _ => ?_
    exact .ok rfl

lemma stashPalette_verdicts {r : BitmapReceiver} (h : Hub75) (start : ℕ) (body : List Byte) (t : ℤ) :
    Ensures (fun s => s.1.verdicts = r.verdicts) (r.stashPalette h start body t) := by
  unfold stashPalette
  refine Ensures.bind (P := fun _ => True) (fun _ _ => trivial) fun _ _ => ?_
  dsimp only
  split
  · exact (applyPendingPalette_verdicts _ h).mono fun s hs => hs
  · exact .ok rfl

/-- Every datagram but a pixel packet the CPU draws leaves the frame in progress alone. -/
theorem processPacket_paths (r : BitmapReceiver) (h : Hub75) (data : Slice) (t : ℤ)
    (hf : r.PaletteFits) :
    (∃ indexed wide, HEADER_SIZE ≤ data.bytes.length ∧
      pixelMagic data.bytes = some (indexed, wide) ∧ r.hold = false ∧ r.cpuPixels = true ∧
      ∀ judge, r.processPacketWith judge h data t =
        (r.countPacket data).pixelPacketWith judge h indexed wide data t) ∨
    (HEADER_SIZE ≤ data.bytes.length → r.hold = false → r.cpuPixels = true →
      pixelMagic data.bytes = none) ∧
    ∃ (r' : BitmapReceiver) (h' : Hub75),
      (∀ judge, r.processPacketWith judge h data t = .ok ⟨false, r', h'⟩) ∧ r'.PaletteFits ∧
      h'.glass = h.glass ∧ (r'.progress = r.progress ∨
        r.cpuPixels = false ∧ r'.progress = r.progress.hear t) ∧ r'.verdicts = r.verdicts ∧
      (pixelMagic data.bytes ≠ none → r'.account = r.account) := by
  by_cases hhold : r.hold = true
  · refine .inr ⟨fun _ hh => ?_, r.countPacket data, h, ?_, hf, rfl, .inl rfl, rfl,
      fun _ => rfl⟩
    · rw [hhold] at hh
      cases hh
    · have hh : (r.countPacket data).hold = true := hhold
      intro judge
      simp only [processPacketWith, if_pos hh]
      rfl
  have hh : ¬ (r.countPacket data).hold = true := hhold
  by_cases hlen : data.bytes.length < HEADER_SIZE
  · refine .inr ⟨fun hl => absurd hl (by omega), (r.countPacket data).countBadHeader, h, ?_, hf, rfl,
      .inl rfl, rfl, fun _ => rfl⟩
    intro judge
    simp only [processPacketWith, if_neg hh, if_pos hlen]
    rfl
  have hl : HEADER_SIZE ≤ data.bytes.length := by omega
  have hb (i : ℕ) (hi : i < HEADER_SIZE) : data.get i = .ok (data.bytes.getD i 0) :=
    data.get_ok (by omega)
  have h₀ := hb 0 (by decide)
  have h₁ := hb 1 (by decide)
  have h₄ := hb 4 (by decide)
  generalize hx : data.bytes.getD 0 0 = b₀ at *
  generalize hy : data.bytes.getD 1 0 = b₁ at *
  by_cases hskip : ¬ (r.countPacket data).cpuPixels = true ∧ b₀ = letterB ∧
      (b₁ = letterM ∨ b₁ = letterI ∨ b₁ = letterW)
  · refine .inr ⟨fun _ _ hc => absurd hc hskip.1, (r.countPacket data).countSkipped t, h, ?_, hf, rfl,
      .inr ⟨?_, rfl⟩, rfl, fun _ => rfl⟩
    · intro judge
      simp only [processPacketWith, if_neg hh, if_neg hlen, h₀, h₁, if_pos hskip, bind, Except.bind]
      rfl
    · exact Bool.eq_false_iff.mpr hskip.1
  have hpixel (indexed wide : Bool) (hm : pixelMagic data.bytes = some (indexed, wide))
      (hcpu : r.cpuPixels = true)
      (he : ∀ judge, r.processPacketWith judge h data t =
        (r.countPacket data).pixelPacketWith judge h indexed wide data t) :
      ∃ indexed wide, HEADER_SIZE ≤ data.bytes.length ∧
        pixelMagic data.bytes = some (indexed, wide) ∧ r.hold = false ∧ r.cpuPixels = true ∧
        ∀ judge, r.processPacketWith judge h data t =
          (r.countPacket data).pixelPacketWith judge h indexed wide data t :=
    ⟨indexed, wide, hl, hm, Bool.eq_false_iff.mpr hhold, hcpu, he⟩
  have hcpu (hb : b₀ = letterB) (hm : b₁ = letterM ∨ b₁ = letterI ∨ b₁ = letterW) :
      r.cpuPixels = true := by
    by_contra hn
    exact hskip ⟨hn, hb, hm⟩
  by_cases hM : b₀ = letterB ∧ b₁ = letterM
  · refine .inl (hpixel false false ?_ (hcpu hM.1 (.inl hM.2)) ?_)
    · rw [pixelMagic, hx, hy, if_pos hM]
    · intro judge
      simp only [processPacketWith, if_neg hh, if_neg hlen, h₀, h₁, if_neg hskip, if_pos hM, bind,
        Except.bind]
  by_cases hI : b₀ = letterB ∧ b₁ = letterI
  · refine .inl (hpixel true false ?_ (hcpu hI.1 (.inr (.inl hI.2))) ?_)
    · rw [pixelMagic, hx, hy, if_neg hM, if_pos hI]
    · intro judge
      simp only [processPacketWith, if_neg hh, if_neg hlen, h₀, h₁, if_neg hskip, if_neg hM, if_pos hI,
        bind, Except.bind]
  by_cases hW : b₀ = letterB ∧ b₁ = letterW
  · refine .inl (hpixel false true ?_ (hcpu hW.1 (.inr (.inr hW.2))) ?_)
    · rw [pixelMagic, hx, hy, if_neg hM, if_neg hI, if_pos hW]
    · intro judge
      simp only [processPacketWith, if_neg hh, if_neg hlen, h₀, h₁, if_neg hskip, if_neg hM, if_neg hI,
        if_pos hW, bind, Except.bind]
  have hnone : pixelMagic data.bytes = none := by
    rw [pixelMagic, hx, hy, if_neg hM, if_neg hI, if_neg hW]
  by_cases hP : b₀ = letterB ∧ b₁ = letterP
  · obtain ⟨r', h', hs, hr, hf', hg⟩ := (r.countPacket data).stashPalette_ok h
      (data.bytes.getD 4 0).toNat (data.bytes.drop HEADER_SIZE) t
      (by have := (data.bytes.getD 4 0).isLt; simp only [PALETTE_LEN]; omega)
    refine .inr ⟨fun _ _ _ => hnone, r'.countPalette, h', ?_, hf', hg, .inl hr,
      stashPalette_verdicts h _ _ t _ hs, fun hm => absurd hnone hm⟩
    intro judge
    simp only [processPacketWith, if_neg hh, if_neg hlen, h₀, h₁, h₄, data.from_ok hl, if_neg hskip,
        if_neg hM, if_neg hI, if_neg hW, if_pos hP, hs, bind, Except.bind]
    rfl
  · refine .inr ⟨fun _ _ _ => hnone, (r.countPacket data).countBadMagic, h, ?_, hf, rfl, .inl rfl,
      rfl, fun _ => rfl⟩
    intro judge
    simp only [processPacketWith, if_neg hh, if_neg hlen, h₀, h₁, if_neg hskip, if_neg hM, if_neg hI,
        if_neg hW, if_neg hP, bind, Except.bind]
    rfl

theorem processPacket_cases (r : BitmapReceiver) (h : Hub75) (data : Slice) (t : ℤ)
    (hf : r.PaletteFits) :
    (∃ indexed wide, ∃ r₀ : BitmapReceiver, HEADER_SIZE ≤ data.bytes.length ∧
      pixelMagic data.bytes = some (indexed, wide) ∧ r.hold = false ∧ r.cpuPixels = true ∧
      r₀.progress = r.progress ∧ r₀.PaletteFits ∧
      r.processPacket h data t = r₀.pixelPacket h indexed wide data t) ∨
    (HEADER_SIZE ≤ data.bytes.length → r.hold = false → r.cpuPixels = true →
      pixelMagic data.bytes = none) ∧
    ∃ (r' : BitmapReceiver) (h' : Hub75), r.processPacket h data t = .ok ⟨false, r', h'⟩ ∧
      r'.PaletteFits ∧ h'.glass = h.glass ∧ (r'.progress = r.progress ∨
        r.cpuPixels = false ∧ r'.progress = r.progress.hear t) := by
  rcases r.processPacket_paths h data t hf with
    ⟨indexed, wide, hl, hm, hhold, hcpu, he⟩ | ⟨hn, r', h', he, hf', hg, hp, -⟩
  · exact .inl ⟨indexed, wide, r.countPacket data, hl, hm, hhold, hcpu, rfl, hf, he presentAt⟩
  · exact .inr ⟨hn, r', h', he presentAt, hf', hg, hp⟩

end BitmapReceiver

end Ledwall.Receiver
