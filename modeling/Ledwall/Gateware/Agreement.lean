import Ledwall.Gateware.PayloadWrites
import Ledwall.Gateware.PixelAddresses
import Ledwall.Receiver.Calls

/-! The CPU and the pixel DMA given the same payload. -/

namespace Ledwall.Gateware

open Ledwall.Receiver Ledwall.Receiver.BitmapReceiver Ledwall.Wire

/-- The words a call wrote to the back half, each with its place in the image. -/
def cpuDraws (h h' : Receiver.Hub75) : Set (ℤ × Word) :=
  {x | ∃ y ∈ h'.drawn.drop h.drawn.length, x = ((y.1 : ℤ), y.2)}

/-- The words the DMA writes, each with its distance from the base of the half it writes to. -/
def dmaDraws (w : Watched) (is : List Inputs) : Set (ℤ × Word) := {x | x ∈ w.draws is}

/-- The CPU takes the payload for a chunk of its image. -/
def CpuAccepts (r : BitmapReceiver) (h : Receiver.Hub75) (data : List Byte) : Prop :=
  r.hold = false ∧ r.cpuPixels = true ∧ HEADER_SIZE ≤ data.length ∧
    ∃ indexed wide, pixelMagic data = some (indexed, wide) ∧
      Accepts r.progress h.glass indexed wide data

section Cpu

variable {r : BitmapReceiver} {h : Receiver.Hub75} {data : Slice} {t : ℤ} {indexed wide : Bool}

/-- The words of an accepted chunk, each with its place. -/
def chunkCells (h : Receiver.Hub75) (indexed wide : Bool) (data : List Byte) : List (ℕ × Word) :=
  let offset := (headerOf data wide).chunkIndex * strideOf indexed wide
  (h.glass.chunkWords indexed offset (data.drop (headerOf data wide).hdrLen)).mapIdx
    fun i w => (offset + i, w)

lemma complete_drawn (hp : r.PaletteFits) (hn : r.progress.Countable) (presented : Bool) :
    ∃ o, r.complete h t presented = .ok o ∧ o.hub.drawn = h.drawn := by
  rw [BitmapReceiver.complete]
  split
  · obtain ⟨r', h', he, -, -, -, ⟨-, hd, -⟩, -⟩ := r.present_ok h t hp hn
    rw [he]
    exact ⟨_, rfl, hd⟩
  · exact ⟨_, rfl, rfl⟩

lemma pixelPacket_drawn (hr : r.Kept) (hz : r.totalChunks = 0) (hoff : h.dmaEnable = false)
    (hlen : HEADER_SIZE ≤ data.bytes.length)
    (ha : Accepts r.progress h.glass indexed wide data.bytes) :
    ∃ o, r.pixelPacket h indexed wide data t = .ok o ∧
      o.hub.drawn = h.drawn ++ chunkCells h indexed wide data.bytes := by
  obtain ⟨r₀, h₀, hp, hf, hg, hcase⟩ := r.pixelPacket_cases h indexed wide data t hlen
  have hmask : r.progress.mask = ChunkMask.empty := (hr.idle hz).2
  have hz₀ : r₀.totalChunks = 0 := (congrArg Progress.total hp).trans hz
  cases hcase with
  | refused hn he => exact absurd ha hn
  | stored _ hc he => exact absurd (hc.2.trans hz) ha.valid.total_ne
  | flushed _ hc he =>
    have hpresent : r₀.present h₀ t = .ok ⟨false, r₀, h₀⟩ := by
      rw [BitmapReceiver.present, if_pos hz₀]
      rfl
    have hhdr : (headerOf data.bytes wide).hdrLen ≤ data.bytes.length := by
      rw [headerOf_hdrLen]
      exact ha.long
    have hnone : (r₀.beginFrame (headerOf data.bytes wide)).chunkMask.has
        (headerOf data.bytes wide).chunkIndex = false := by
      have hm : (r₀.beginFrame (headerOf data.bytes wide)).chunkMask = ChunkMask.empty :=
        (congrArg Progress.mask hp).trans hmask
      rw [hm, ChunkMask.has_empty]
    have hoff₀ : h₀.dmaEnable = false := by
      refine (congrArg Glass.dmaEnable hg).trans ?_
      rw [Glass.latch]
      split <;> exact hoff
    obtain ⟨r', h', he', ht', hf', -, hdraw⟩ := storeChunk_new h₀ (strideOf indexed wide) indexed t
      false (ha.valid.index_lt.trans_le ha.valid.total_le) hhdr hnone
    obtain ⟨hprogress, hglass⟩ := hdraw hoff₀
    have hcount : r'.progress.Countable := by
      left
      rw [hprogress]
      exact ha.valid.total_le
    obtain ⟨o, ho, hdrawn⟩ := complete_drawn (h := h') (t := t) (hf'.mpr (hf.mpr hr.palette)) hcount
      false
    refine ⟨o, ?_, hdrawn.trans ?_⟩
    · rw [he, hpresent]
      exact he'.trans ho
    · have himg : h₀.glass.imgLen = h.glass.imgLen := by rw [hg, Glass.latch_imgLen]
      have hd₀ : h₀.drawn = h.drawn := by
        refine (congrArg Glass.drawn hg).trans ?_
        rw [Glass.latch]
        split <;> rfl
      refine (congrArg Glass.drawn hglass).trans ?_
      simp only [Glass.draw, chunkCells, Glass.chunkWords, himg]
      rw [← hd₀]
      rfl

lemma pixelPacket_refused (hlen : HEADER_SIZE ≤ data.bytes.length)
    (ha : ¬ Accepts r.progress h.glass indexed wide data.bytes) :
    ∃ o, r.pixelPacket h indexed wide data t = .ok o ∧ o.hub.drawn = h.drawn := by
  obtain ⟨r₀, h₀, -, -, hg, hcase⟩ := r.pixelPacket_cases h indexed wide data t hlen
  cases hcase with
  | refused hn he =>
    refine ⟨_, he, (congrArg Glass.drawn hg).trans ?_⟩
    rw [Glass.latch]
    split <;> rfl
  | stored hn hc he => exact absurd hn ha
  | flushed hn hc he => exact absurd hn ha

/-- With no frame in progress and the DMA off, a datagram is drawn or not as its header says. -/
theorem processPacket_drawn (hr : r.Kept) (hz : r.totalChunks = 0) (hoff : h.dmaEnable = false)
    (data : Slice) (t : ℤ) :
    ∃ o, r.processPacket h data t = .ok o ∧
      ((∃ indexed wide, pixelMagic data.bytes = some (indexed, wide) ∧
          Accepts r.progress h.glass indexed wide data.bytes ∧
          CpuAccepts r h data.bytes ∧
          o.hub.drawn = h.drawn ++ chunkCells h indexed wide data.bytes) ∨
        ¬ CpuAccepts r h data.bytes ∧ o.hub.drawn = h.drawn) := by
  rcases r.processPacket_cases h data t hr.palette with
    ⟨indexed, wide, r₀, hlen, hm, hhold, hcpu, hp, hf, he⟩ | ⟨hn, r', h', he, -, hg, -⟩
  · have hz₀ : r₀.totalChunks = 0 := (congrArg Progress.total hp).trans hz
    have hr₀ : r₀.Kept := hr.of_progress hf hp rfl rfl rfl
    by_cases ha : Accepts r₀.progress h.glass indexed wide data.bytes
    · obtain ⟨o, ho, hd⟩ := pixelPacket_drawn (t := t) hr₀ hz₀ hoff hlen ha
      rw [hp] at ha
      exact ⟨o, he.trans ho, .inl ⟨indexed, wide, hm, ha,
        ⟨hhold, hcpu, hlen, indexed, wide, hm, ha⟩, hd⟩⟩
    · obtain ⟨o, ho, hd⟩ := pixelPacket_refused (t := t) hlen ha
      rw [hp] at ha
      refine ⟨o, he.trans ho, .inr ⟨?_, hd⟩⟩
      rintro ⟨-, -, -, indexed', wide', hm', ha'⟩
      obtain ⟨rfl, rfl⟩ := Prod.mk.inj (Option.some.inj (hm.symm.trans hm'))
      exact ha ha'
  · refine ⟨_, he, .inr ⟨?_, congrArg Glass.drawn hg⟩⟩
    rintro ⟨hhold, hcpu, hlen, indexed, wide, hm, -⟩
    rw [hn hlen hhold hcpu] at hm
    cases hm

end Cpu

section Formats

variable {p : List Byte} {indexed wide : Bool}

lemma ofBytes_of_pixelMagic (hm : pixelMagic p = some (indexed, wide)) :
    p.getD 0 0 = 0x42 ∧ p.getD 1 0 ∈ Header.magics ∧ (Header.ofBytes p).indexed = indexed ∧
      (Header.ofBytes p).wide = wide := by
  have hletter {m : Byte} (h : p.getD 0 0 = letterB ∧ p.getD 1 0 = m) (hmem : m ∈ Header.magics) :
      p.getD 0 0 = 0x42 ∧ p.getD 1 0 ∈ Header.magics ∧
        (Header.ofBytes p).indexed = (m == 0x49) ∧ (Header.ofBytes p).wide = (m == 0x57) := by
    obtain ⟨h₀, rfl⟩ := h
    exact ⟨h₀, hmem, rfl, rfl⟩
  rw [pixelMagic] at hm
  split at hm
  · rename_i h
    cases hm
    exact hletter h (by decide)
  · split at hm
    · rename_i h
      cases hm
      exact hletter h (by decide)
    · split at hm
      · rename_i h
        cases hm
        exact hletter h (by decide)
      · cases hm

lemma toNat_append (x y : Byte) : (x ++ y).toNat = y.toNat + 256 * x.toNat := by
  rw [BitVec.toNat_append, Nat.shiftLeft_eq, Nat.mul_comm, Nat.add_comm]
  exact (Nat.two_pow_add_eq_or_of_lt y.isLt x.toNat).symm

lemma hdrLen_eq (hw : (Header.ofBytes p).wide = wide) :
    (headerOf p wide).hdrLen = (Header.ofBytes p).length := by
  rw [headerOf_hdrLen, headerLen, Header.length, hw]
  rfl

lemma chunkIndex_eq (hw : (Header.ofBytes p).wide = wide) :
    (headerOf p wide).chunkIndex = (Header.ofBytes p).chunkIndex.toNat := by
  have hwide : (p.getD 1 0 == 0x57) = wide := hw
  simp only [Header.ofBytes, hwide, headerOf]
  cases wide with
  | true => exact (toNat_append _ _).symm
  | false =>
    simp only [Bool.false_eq_true, if_false, BitVec.toNat_setWidth]
    exact (Nat.mod_eq_of_lt ((p.getD 4 0).isLt.trans (by decide))).symm

lemma stride_eq (hi : (Header.ofBytes p).indexed = indexed) (hw : (Header.ofBytes p).wide = wide) :
    strideOf indexed wide = (Header.ofBytes p).stride := by
  rw [strideOf, Header.stride, hi, hw]
  rfl

lemma pixelWord_eq (hi : (Header.ofBytes p).indexed = indexed) (body : List Byte) (k : ℕ) :
    pixelWord indexed body k = (Header.ofBytes p).wordAt body k := by
  rw [pixelWord, Header.wordAt, hi]
  cases indexed with
  | true => rfl
  | false =>
    simp only [Bool.false_eq_true, if_false, Receiver.Hub75.rgbTriple, Receiver.Hub75.rgbWord]
    ext i hi
    simp
    grind

lemma stride_le (h : Header) : h.stride ≤ 1461 := by
  rw [Header.stride]
  split
  · decide
  · split <;> decide

end Formats

section Draws

variable {h : Receiver.Hub75} {p : List Byte} {indexed wide : Bool} {base limit : BitVec 24}
  {x : ℤ × Word}

lemma mem_chunkCells {y : ℕ × Word} : y ∈ chunkCells h indexed wide p ↔
    ∃ k < min ((p.drop (headerOf p wide).hdrLen).length / pixelBytes indexed)
        (h.glass.imgLen - (headerOf p wide).chunkIndex * strideOf indexed wide),
      y = ((headerOf p wide).chunkIndex * strideOf indexed wide + k,
        pixelWord indexed (p.drop (headerOf p wide).hdrLen) k) := by
  rw [chunkCells, Glass.chunkWords, List.mem_mapIdx]
  constructor
  · rintro ⟨k, hk, rfl⟩
    rw [List.length_map, List.length_range] at hk
    exact ⟨k, hk, by rw [List.getElem_map, List.getElem_range]⟩
  · rintro ⟨k, hk, rfl⟩
    refine ⟨k, ?_, ?_⟩
    · rw [List.length_map, List.length_range]
      exact hk
    · rw [List.getElem_map, List.getElem_range]

lemma mem_filterMap_cell {n : ℕ} : x ∈ (List.range n).filterMap (cell p base limit) ↔
    ∃ k < n, cell p base limit k = some x := by
  simp only [List.mem_filterMap, List.mem_range]

lemma cell_of_chunk (hb : base.toNat ≤ 655360) (hi : (Header.ofBytes p).chunkIndex.toNat < 512)
    {k : ℕ} (hk : k < 65536) :
    cell p base limit k =
      if (Header.ofBytes p).chunkIndex.toNat * (Header.ofBytes p).stride + k < limit.toNat then
        some ((((Header.ofBytes p).chunkIndex.toNat * (Header.ofBytes p).stride + k : ℕ) : ℤ),
          (Header.ofBytes p).wordAt (p.drop (Header.ofBytes p).length) k)
      else none := by
  have hle : (Header.ofBytes p).chunkIndex.toNat * (Header.ofBytes p).stride ≤ 511 * 1461 :=
    Nat.mul_le_mul (Nat.le_of_lt_succ hi) (stride_le _)
  have hadr : pixelAddress p base k = base.toNat +
      ((Header.ofBytes p).chunkIndex.toNat * (Header.ofBytes p).stride + k) :=
    Nat.mod_eq_of_lt (by omega)
  rw [cell, hadr]
  simp only [Nat.add_lt_add_iff_left]
  split
  · rw [Nat.cast_add base.toNat, add_sub_cancel_left]
  · rfl

lemma mem_draws_iff_of_accepts (hm : pixelMagic p = some (indexed, wide)) {q : Progress}
    (ha : Accepts q h.glass indexed wide p) (hp : p.length < 65536)
    (hb : base.toNat ≤ 655360) (hl : limit.toNat = h.imgLen) :
    (∃ y ∈ chunkCells h indexed wide p, x = ((y.1 : ℤ), y.2)) ↔
      x ∈ (List.range (pixelCount p)).filterMap (cell p base limit) := by
  obtain ⟨h₀, h₁, hi, hw⟩ := ofBytes_of_pixelMagic hm
  have hlen := hdrLen_eq hw
  have hindex := chunkIndex_eq hw
  have hlong : (Header.ofBytes p).length ≤ p.length := by
    rw [← hlen, headerOf_hdrLen]
    exact ha.long
  have hcount : pixelCount p =
      (p.drop (headerOf p wide).hdrLen).length / pixelBytes indexed := by
    rw [pixelCount, if_pos ⟨h₀, h₁, hlong⟩, hlen, List.length_drop, Header.bytesPerPixel, hi]
    rfl
  have hlt : (Header.ofBytes p).chunkIndex.toNat < 512 := by
    rw [← hindex]
    exact ha.valid.index_lt.trans_le ha.valid.total_le
  have hmax {k : ℕ} (hk : k < pixelCount p) : k < 65536 := by
    have hle : pixelCount p ≤ p.length := by
      rw [hcount, List.length_drop]
      exact (Nat.div_le_self _ _).trans (Nat.sub_le _ _)
    omega
  have himg : h.glass.imgLen = limit.toNat := hl.symm
  rw [mem_filterMap_cell]
  constructor
  · rintro ⟨y, hy, rfl⟩
    obtain ⟨k, hk, rfl⟩ := mem_chunkCells.mp hy
    rw [← hcount, himg, hindex, stride_eq hi hw] at hk
    have hk₁ : k < pixelCount p := hk.trans_le (min_le_left _ _)
    have hk₂ := hk.trans_le (min_le_right _ _)
    refine ⟨k, hk₁, ?_⟩
    rw [cell_of_chunk hb hlt (hmax hk₁), if_pos (by omega), hindex, stride_eq hi hw, hlen,
      pixelWord_eq hi]
  · rintro ⟨k, hk, hx⟩
    rw [cell_of_chunk hb hlt (hmax hk)] at hx
    split at hx
    · rename_i hr
      refine ⟨_, mem_chunkCells.mpr ⟨k, ?_, rfl⟩, ?_⟩
      · rw [← hcount, himg, hindex, stride_eq hi hw]
        omega
      · rw [hindex, stride_eq hi hw, hlen, pixelWord_eq hi]
        exact (Option.some.inj hx).symm
    · cases hx

end Draws

namespace Watched

lemma Tracks.after {w : Watched} (h : w.Tracks) (is : List Inputs) : (w.after is).Tracks := by
  induction is generalizing w with
  | nil => exact h
  | cons i is ih => exact ih (h.next i)

lemma Tracks.base_le {w : Watched} (h : w.Tracks) : w.trace.base.toNat ≤ 655360 := by
  rcases h.base with hb | hb
  · rw [hb]
    decide
  · rw [hb]
    decide

/-- Every whole pixel of the payload is out of range of the half its header commits to. -/
def OutOfRange (w : Watched) (is : List Inputs) (limit : BitVec 24) (p : List Byte) : Prop :=
  ∀ k < pixelCount p, (w.after is).trace.base.toNat + limit.toNat ≤
    pixelAddress p (w.after is).trace.base k

lemma dmaDraws_empty_iff {w : Watched} {is : List Inputs} {limit : BitVec 24} {p : List Byte}
    (hd : w.Draws is limit p) : dmaDraws w is = ∅ ↔ w.OutOfRange is limit p := by
  rw [Draws] at hd
  rw [Set.eq_empty_iff_forall_notMem]
  simp only [dmaDraws, Set.mem_ofPred_eq, hd, mem_filterMap_cell]
  constructor
  · intro h k hk
    by_contra hn
    exact h _ ⟨k, hk, if_pos (not_le.mp hn)⟩
  · rintro h x ⟨k, hk, hx⟩
    rw [cell, if_neg (not_lt.mpr (h k hk))] at hx
    cases hx

lemma takes_feed (limit : BitVec 24) (p : List Byte) {w : Watched} (hg : w.path.dma.gap = 0)
    (hs : w.path.dma.stall = 0) : Takes limit w (beats p) (feed limit p) := by
  induction p generalizing w with
  | nil => exact .done w
  | cons d ds ih =>
    set i : Inputs := ⟨some ⟨d, ds.isEmpty⟩, true, true, limit, 0, true, false, false, none⟩
    have hready : w.path.dma.sinkReady i = true := by
      rw [Hub75UdpDma.sinkReady, Hub75UdpDma.gapOk, hg]
      split
      · exact Bool.or_true _
      · rfl
    have hk : w.path.dma.taken i = some ⟨d, ds.isEmpty⟩ := if_pos hready
    refine .beat ⟨rfl, rfl, rfl, hs.trans_ne (by decide)⟩ hk (ih ?_ ?_)
    · change w.path.dma.nextGap i = 0
      rw [Hub75UdpDma.nextGap, Hub75UdpDma.gapOk, hg]
      split
      · rfl
      · rfl
    · change w.path.dma.nextStall i = 0
      rw [Hub75UdpDma.nextStall]
      refine if_pos ?_
      by_cases hf : w.path.dma.fsm = .pix
      · right
        rw [Hub75UdpDma.progress, hf, hk]
        rfl
      · exact .inl hf

end Watched

open Watched

/-- Whatever the card has done before: with no frame in progress and the DMA off, the CPU draws what
the DMA draws of the payload, exactly when it accepts it or the DMA finds none of it in range. -/
theorem cpuDraws_eq_dmaDraws_iff {r : BitmapReceiver} (hr : Reachable r) (hz : r.totalChunks = 0)
    {h : Receiver.Hub75} (hoff : h.dmaEnable = false) {data : Slice} (hp : data.bytes.length < 65536) (t : ℤ)
    (js : List Inputs) (hs : (after {} js).path.dma.fsm = .idle) {limit : BitVec 24}
    (hl : limit.toNat = h.imgLen) {is : List Inputs}
    (ht : Takes limit (after {} js) (beats data.bytes) is) :
    ∃ o, r.processPacket h data t = .ok o ∧
      (cpuDraws h o.hub = dmaDraws (after {} js) is ↔
        CpuAccepts r h data.bytes ∨ (after {} js).OutOfRange is limit data.bytes) := by
  have hdraws := ht.draws_payload hs
  obtain ⟨o, ho, hcase⟩ := processPacket_drawn hr.kept hz hoff data t
  refine ⟨o, ho, ?_⟩
  rcases hcase with ⟨indexed, wide, hm, ha, hacc, hd⟩ | ⟨hn, hd⟩
  · refine ⟨fun _ => .inl hacc, fun _ => ?_⟩
    have hbase := ((tracks_start.after js).after is).base_le
    ext x
    simp only [cpuDraws, dmaDraws, hd, List.drop_left, Set.mem_ofPred_eq]
    rw [show (after {} js).draws is = _ from hdraws]
    exact mem_draws_iff_of_accepts hm ha hp hbase hl
  · have hempty : cpuDraws h o.hub = ∅ := by
      simp only [cpuDraws, hd, List.drop_length, List.not_mem_nil, false_and, exists_false,
        Set.ofPred_false]
    rw [hempty, or_iff_right hn, eq_comm, dmaDraws_empty_iff hdraws]

/-- A card whose image is one pixel. -/
def onePixel : Receiver.Hub75 := (Receiver.Hub75.new (fun _ => 0) Registers.reset).setImgParam 1 1

/-- Chunk 0 of a frame of `total`, with one pixel. -/
def lonePixel (total : Byte) : Slice := ⟨0, [0x42, 0x4D, 1, 0, 0, total, 0, 0, 0, 0, 1, 2, 3]⟩

theorem cpuDraws_eq_dmaDraws_iff_lonePixel :
    ∃ o, BitmapReceiver.processPacket {} onePixel (lonePixel 1) 0 = .ok o ∧
      (cpuDraws onePixel o.hub = dmaDraws (after {} []) (feed 1 (lonePixel 1).bytes) ↔
        CpuAccepts {} onePixel (lonePixel 1).bytes ∨
          (after {} []).OutOfRange (feed 1 (lonePixel 1).bytes) 1 (lonePixel 1).bytes) :=
  cpuDraws_eq_dmaDraws_iff ⟨[], .nil _⟩ rfl rfl (by decide) 0 [] rfl rfl (takes_feed 1 _ rfl rfl)

/-- A frame of no chunks is refused by the CPU and drawn by the DMA. -/
theorem lonePixel_draws_differ :
    Takes 1 {} (beats (lonePixel 0).bytes) (feed 1 (lonePixel 0).bytes) ∧
      ∃ o, BitmapReceiver.processPacket {} onePixel (lonePixel 0) 0 = .ok o ∧
        cpuDraws onePixel o.hub ≠ dmaDraws {} (feed 1 (lonePixel 0).bytes) := by
  refine ⟨takes_feed 1 _ rfl rfl, ?_⟩
  obtain ⟨o, ho, hcase⟩ := processPacket_drawn (h := onePixel) kept_new rfl rfl (lonePixel 0) 0
  refine ⟨o, ho, fun he => ?_⟩
  have hdma : ((0 : ℤ), (0x030201 : Word)) ∈ cpuDraws onePixel o.hub := by
    rw [he]
    change ((0 : ℤ), (0x030201 : Word)) ∈ Watched.draws {} (feed 1 (lonePixel 0).bytes)
    decide +kernel
  rcases hcase with ⟨indexed, wide, hm, ha, -⟩ | ⟨-, hd⟩
  · cases hm
    exact ha.valid.total_ne rfl
  · simp only [cpuDraws, hd, List.drop_length, List.not_mem_nil, false_and, exists_false,
      Set.ofPred_false] at hdma
    exact hdma

end Ledwall.Gateware
