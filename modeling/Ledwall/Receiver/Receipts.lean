import Ledwall.Receiver.Calls

/-! What a datagram or a tick does while the CPU draws: the cases, whatever is called in the place of
`present`. -/

namespace Ledwall.Receiver

open Ledwall.Library.Outcomes Ledwall.Wire

/-- A pixel packet: its format and its bytes. -/
structure PixelPacket where
  indexed : Bool
  wide : Bool
  bytes : List Byte
  deriving DecidableEq

namespace PixelPacket

def header (d : PixelPacket) : PixelHeader := headerOf d.bytes d.wide

def stride (d : PixelPacket) : ℕ := strideOf d.indexed d.wide

def payload (d : PixelPacket) : List Byte := d.bytes.drop (headerLen d.wide)

/-- The pixels its payload has bytes for. -/
def pixels (d : PixelPacket) : ℕ := d.payload.length / pixelBytes d.indexed

def start (d : PixelPacket) : ℕ := d.header.chunkIndex * d.stride

end PixelPacket

section Decidability

instance (p : PixelHeader) (ppc imgLen : ℕ) : Decidable (p.Valid ppc imgLen) :=
  decidable_of_iff (p.totalChunks ≤ MAX_CHUNKS ∧ p.totalChunks ≠ 0 ∧ p.chunkIndex < p.totalChunks ∧
      (p.width ≠ 0 ∧ p.height ≠ 0 → p.width * p.height = imgLen) ∧ imgLen ≠ 0 ∧
      p.totalChunks ≤ (imgLen + ppc - 1) / ppc)
    ⟨fun ⟨h₁, h₂, h₃, h₄, h₅, h₆⟩ => ⟨h₁, h₂, h₃, h₄, h₅, h₆⟩,
      fun h => ⟨h.total_le, h.total_ne, h.index_lt, h.size, h.imgLen_ne, h.covers⟩⟩

instance (p : PixelHeader) (g : Glass) : Decidable (p.FitsImage g) := by
  unfold PixelHeader.FitsImage
  infer_instance

instance (q : Progress) (g : Glass) (indexed wide : Bool) (data : List Byte) :
    Decidable (Accepts q g indexed wide data) :=
  decidable_of_iff (headerLen wide ≤ data.length ∧
      (headerOf data wide).Valid (strideOf indexed wide) g.imgLen ∧
      (¬ (headerOf data wide).Continues q → (headerOf data wide).FitsImage g))
    ⟨fun ⟨h₁, h₂, h₃⟩ => ⟨h₁, h₂, h₃⟩, fun h => ⟨h.long, h.valid, h.image⟩⟩

end Decidability

namespace BitmapReceiver

/-- The pixel packet in the datagram, if the receiver takes pixel packets and accepts this one. -/
def accepted (r : BitmapReceiver) (h : Hub75) (data : List Byte) : Option PixelPacket :=
  match pixelMagic data with
  | some (indexed, wide) =>
    if r.hold = false ∧ r.cpuPixels = true ∧ HEADER_SIZE ≤ data.length ∧
        Accepts r.progress h.glass indexed wide data then
      some ⟨indexed, wide, data⟩
    else none
  | none => none

variable {r r' : BitmapReceiver} {h h' : Hub75} {data : Slice} {d : PixelPacket}

lemma accepted_iff {data : List Byte} : r.accepted h data = some d ↔
    pixelMagic data = some (d.indexed, d.wide) ∧ d.bytes = data ∧ r.hold = false ∧
      r.cpuPixels = true ∧ HEADER_SIZE ≤ data.length ∧
      Accepts r.progress h.glass d.indexed d.wide d.bytes := by
  obtain ⟨indexed, wide, bytes⟩ := d
  unfold accepted
  split
  · rename_i i w hm
    rw [hm]
    split
    · rename_i hc
      constructor
      · intro he
        cases he
        exact ⟨rfl, rfl, hc⟩
      · rintro ⟨he, rfl, -⟩
        cases he
        rfl
    · rename_i hc
      constructor
      · intro he
        cases he
      · rintro ⟨he, rfl, hrest⟩
        cases he
        exact absurd hrest hc
  · rename_i hm
    rw [hm]
    constructor
    · intro he
      cases he
    · rintro ⟨he, -⟩
      cases he

/-- The frame in progress, the picture and the verdicts are as they were. -/
structure Undisturbed (r : BitmapReceiver) (h : Hub75) (r' : BitmapReceiver) (h' : Hub75) : Prop where
  palette : r'.PaletteFits
  frameId : r'.progress.frameId = r.progress.frameId
  total : r'.progress.total = r.progress.total
  received : r'.progress.received = r.progress.received
  mask : r'.progress.mask = r.progress.mask
  verdicts : r'.verdicts = r.verdicts
  glass : ∃ b, h'.glass = { h.glass with indexedMode := b }

lemma Undisturbed.of_latch {indexed wide : Bool} (hf : r.PaletteFits)
    (hp : r'.progress = r.progress.latch indexed wide) (ha : r'.account = r.account)
    (hg : h'.glass = h.glass.latch r.progress indexed) : Undisturbed r h r' h' := by
  refine ⟨(fits_of_account ha).mpr hf, ?_, ?_, ?_, ?_, congrArg Account.verdicts ha, ?_⟩
  · rw [hp]
    rfl
  · rw [hp]
    rfl
  · rw [hp]
    rfl
  · rw [hp]
    rfl
  · rw [hg, Glass.latch]
    split
    · exact ⟨indexed, rfl⟩
    · exact ⟨h.glass.indexedMode, rfl⟩

/-- A datagram that brings no pixel packet disturbs nothing; a pixel packet that is not accepted does
not touch the waiting palette either. -/
theorem processPacket_ignored (hf : r.PaletteFits) (t : ℤ) (hn : r.accepted h data.bytes = none) :
    ∃ (r' : BitmapReceiver) (h' : Hub75),
      (∀ judge, r.processPacketWith judge h data t = .ok ⟨false, r', h'⟩) ∧
      Undisturbed r h r' h' ∧ (pixelMagic data.bytes ≠ none → r'.account = r.account) := by
  rcases r.processPacket_paths h data t hf with
    ⟨indexed, wide, hlen, hm, hhold, hcpu, he⟩ | ⟨-, r', h', he, hf', hg, hp, hv, ha⟩
  · obtain ⟨r₀, h₀, hp, ha, hg, hpath⟩ :=
      (r.countPacket data).pixelPacket_paths h indexed wide data t hlen
    cases hpath with
    | refused _ he' =>
      exact ⟨r₀, h₀, fun judge => (he judge).trans (he' judge), .of_latch hf hp ha hg, fun _ => ha⟩
    | stored hacc | flushed hacc =>
      have hs : r.accepted h data.bytes = some ⟨indexed, wide, data.bytes⟩ :=
        accepted_iff.mpr ⟨hm, rfl, hhold, hcpu, hlen, hacc⟩
      rw [hs] at hn
      cases hn
  · refine ⟨r', h', he, ?_, ha⟩
    have hglass : ∃ b, h'.glass = { h.glass with indexedMode := b } := ⟨h.glass.indexedMode, hg⟩
    rcases hp with hp | ⟨-, hp⟩
    · exact ⟨hf', by rw [hp], by rw [hp], by rw [hp], by rw [hp], hv, hglass⟩
    · exact ⟨hf', by rw [hp, Progress.hear], by rw [hp, Progress.hear], by rw [hp, Progress.hear],
        by rw [hp, Progress.hear], hv, hglass⟩

/-- An accepted packet is stored into the frame in progress, or that frame is judged first. -/
theorem processPacket_accepted (hf : r.PaletteFits) (t : ℤ)
    (ha : r.accepted h data.bytes = some d) :
    ∃ (r₀ : BitmapReceiver) (h₀ : Hub75), r₀.progress = r.progress.latch d.indexed d.wide ∧
      r₀.account = r.account ∧ h₀.glass = h.glass.latch r.progress d.indexed ∧
      ∀ judge, r.processPacketWith judge h data t =
        if d.header.Continues r.progress then
          r₀.storeChunkWith judge h₀ d.header d.stride d.indexed data t false
        else (judge (r₀, h₀, t)).bind fun o =>
          (o.rx.beginFrame d.header).storeChunkWith judge o.hub d.header d.stride d.indexed data t
            o.presented := by
  obtain ⟨hm, hbytes, hhold, hcpu, hlen, hacc⟩ := accepted_iff.mp ha
  obtain ⟨indexed, wide, bytes⟩ := d
  obtain rfl : bytes = data.bytes := hbytes
  rcases r.processPacket_paths h data t hf with
    ⟨i, w, -, hm', -, -, he⟩ | ⟨hnone, -⟩
  · rw [hm] at hm'
    cases hm'
    obtain ⟨r₀, h₀, hp, ha, hg, hpath⟩ :=
      (r.countPacket data).pixelPacket_paths h indexed wide data t hlen
    refine ⟨r₀, h₀, hp, ha, hg, ?_⟩
    intro judge
    rw [he]
    cases hpath with
    | refused hn _ => exact absurd hacc hn
    | stored _ hc he' => exact (he' judge).trans (if_pos hc).symm
    | flushed _ hc he' => exact (he' judge).trans (if_neg hc).symm
  · rw [hnone hlen hhold hcpu] at hm
    cases hm

variable {p : PixelHeader} {ppc : ℕ} {indexed presented : Bool} {t : ℤ}

lemma storeChunkWith_duplicate (hi : p.chunkIndex < MAX_CHUNKS)
    (hm : r.chunkMask.has p.chunkIndex = true) :
    ∃ r', (∀ judge, r.storeChunkWith judge h p ppc indexed data t presented =
        .ok ⟨presented, r', h⟩) ∧
      r'.progress = r.progress.hear t ∧ r'.account = r.account := by
  simp only [storeChunkWith, r.chunkMask.test_eq hi, hm]
  exact ⟨_, fun _ => rfl, rfl, rfl⟩

lemma storeChunkWith_new (ppc : ℕ) (indexed : Bool) (t : ℤ) (presented : Bool)
    (hoff : h.dmaEnable = false) (hi : p.chunkIndex < MAX_CHUNKS)
    (hd : p.hdrLen ≤ data.bytes.length) (hm : r.chunkMask.has p.chunkIndex = false) :
    ∃ (r' : BitmapReceiver) (h' : Hub75),
      (∀ judge, r.storeChunkWith judge h p ppc indexed data t presented =
        r'.completeWith judge h' t presented) ∧
      r'.progress = r.progress.count p.chunkIndex t ∧ r'.account = r.account ∧
      h'.glass = h.glass.draw (p.chunkIndex * ppc)
        (h.glass.chunkWords indexed (p.chunkIndex * ppc) (data.bytes.drop p.hdrLen)) := by
  obtain ⟨h', hw, -, hg⟩ := drawChunk_ok h p ppc indexed data hd
  have hoff' : h'.dmaEnable = false := (congrArg Glass.dmaEnable (hg hoff)).trans hoff
  simp only [storeChunkWith, r.chunkMask.test_eq hi, r.chunkMask.insert_eq hi, hm, hw]
  refine ⟨r.countChunk (r.chunkMask.add p.chunkIndex) t, h', fun judge => ?_, rfl, rfl, hg hoff⟩
  have hmerge := mergeDmaArrival_off (r.countChunk (r.chunkMask.add p.chunkIndex) t) h' t hoff'
  simp only [bind, Except.bind, Bool.false_eq_true, if_false, hmerge, ite_self]

/-- A tick puts a waiting palette in, and may then judge the frame in progress. -/
theorem tick_off (hf : r.PaletteFits) (t : ℤ) (hoff : h.dmaEnable = false) :
    ∃ (r' : BitmapReceiver) (h' : Hub75), Undisturbed r h r' h' ∧
      ((∀ judge, r.tickWith judge h t = .ok ⟨false, r', h'⟩) ∨ r.progress.total ≠ 0 ∧
        ∃ presented : Bool → Bool, ∀ judge, r.tickWith judge h t =
          (judge (r', h', t)).bind fun o => .ok ⟨presented o.presented, o.rx, o.hub⟩) := by
  obtain ⟨r₁, h₁, he₁, hr₁, hf₁, hg₁⟩ := tickPalette_ok hf h t
  have hv₁ : r₁.verdicts = r.verdicts := by
    have hv : Ensures (fun s => s.1.verdicts = r.verdicts) (r.tickPalette h t) := by
      unfold tickPalette
      split
      · exact applyPendingPalette_verdicts r h
      · exact .ok rfl
    exact hv _ he₁
  have hoff₁ : h₁.dmaEnable = false := (congrArg Glass.dmaEnable hg₁).trans hoff
  have hu (s : BitmapReceiver) (hs : s.progress = r₁.progress) (hp : s.PaletteFits)
      (hv : s.verdicts = r₁.verdicts) : Undisturbed r h s h₁ := by
    have hs := hs.trans hr₁
    exact ⟨hp, by rw [hs], by rw [hs], by rw [hs], by rw [hs], hv.trans hv₁,
      h.glass.indexedMode, hg₁⟩
  have hbegin (judge : Judge) : r.tickWith judge h t =
      if r₁.hwFilterOn then .ok ⟨false, r₁, h₁⟩
      else if r₁.totalChunks = 0 then .ok ⟨false, r₁, h₁⟩
      else r₁.tickFrameWith judge h₁ t false := by
    have hdone : r₁.presentDoneFrameWith judge h₁ t = .ok ⟨false, r₁, h₁⟩ := by
      simp only [presentDoneFrameWith, Hub75.dmaDoneFrame, hoff₁, Bool.false_eq_true, if_false]
      rfl
    have hadopt : r₁.adoptDmaFrameWith judge h₁ t = .ok ⟨false, r₁, h₁⟩ := by
      simp only [adoptDmaFrameWith, Hub75.dmaFrameIdentity, hoff₁, Bool.false_eq_true, if_false]
      rfl
    simp only [tickWith, he₁, hdone, hadopt, bind, Except.bind]
    rfl
  by_cases hon : r₁.hwFilterOn = true
  · refine ⟨r₁, h₁, hu r₁ rfl hf₁ rfl, .inl fun judge => ?_⟩
    rw [hbegin, if_pos hon]
  by_cases hz : r₁.totalChunks = 0
  · refine ⟨r₁, h₁, hu r₁ rfl hf₁ rfl, .inl fun judge => ?_⟩
    rw [hbegin, if_neg hon, if_pos hz]
  have hne : r.progress.total ≠ 0 := by
    rw [← hr₁]
    exact hz
  simp only [hbegin, if_neg hon, if_neg hz, tickFrameWith, mergeDmaArrival_off r₁ h₁ t hoff₁]
  by_cases hdone : r₁.totalChunks % 65536 ≤ r₁.received
  · refine ⟨r₁, h₁, hu r₁ rfl hf₁ rfl, .inr ⟨hne, fun b => b || false, fun judge => ?_⟩⟩
    rw [if_pos hdone]
    rfl
  simp only [if_neg hdone]
  by_cases hnone : r₁.received = 0
  · refine ⟨r₁, h₁, hu r₁ rfl hf₁ rfl, .inl fun judge => ?_⟩
    rw [if_pos hnone]
    rfl
  simp only [if_neg hnone]
  by_cases hstale : t - r₁.lastPacketMs < STALE_MS
  · refine ⟨r₁, h₁, hu r₁ rfl hf₁ rfl, .inl fun judge => ?_⟩
    rw [if_pos hstale]
    rfl
  · refine ⟨r₁.countStale, h₁, hu r₁.countStale rfl hf₁ rfl,
      .inr ⟨hne, fun b => false || b, fun judge => ?_⟩⟩
    rw [if_neg hstale]
    rfl

lemma presentDoneNow_off (hoff : h.dmaEnable = false) (t : ℤ) (judge : Judge) :
    r.presentDoneNowWith judge h t = .ok ⟨false, r, h⟩ := by
  simp only [presentDoneNowWith, presentDoneFrameWith, Hub75.dmaDoneFrame, hoff,
    Bool.false_eq_true, if_false]
  split <;> rfl

end BitmapReceiver

end Ledwall.Receiver
