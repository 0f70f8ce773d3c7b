import Ledwall.Library.Chunking
import Ledwall.Library.Outcomes
import Ledwall.Receiver.ArrivalMask

/-! What `present` does to the picture, with the statistics and the palette set aside. -/

namespace Ledwall.Receiver

open Ledwall.Library.Chunking Ledwall.Library.Outcomes

/-- The part of the receiver that decides what is drawn and shown. -/
structure Progress where
  frameId : ℕ
  total : ℕ
  received : ℕ
  mask : ChunkMask
  indexed : Bool
  wide : Bool
  mode : Option Bool
  hold : Bool
  cpuPixels : Bool
  hwFilter : Bool
  sawPacket : Bool
  doneSeq : ℕ
  heard : ℤ
  repairs : ℕ

namespace BitmapReceiver

def progress (r : BitmapReceiver) : Progress where
  frameId := r.currentFrameId
  total := r.totalChunks
  received := r.received
  mask := r.chunkMask
  indexed := r.indexed
  wide := r.wide
  mode := r.modeIndexed
  hold := r.hold
  cpuPixels := r.cpuPixels
  hwFilter := r.hwFilterOn
  sawPacket := r.cpuSawPacket
  doneSeq := r.lastDoneSeq
  heard := r.lastPacketMs
  repairs := r.stats.chunksRepaired

/-- The pending palette fits the palette RAM. -/
def PaletteFits (r : BitmapReceiver) : Prop :=
  r.pendingPaletteStart + r.pendingPaletteLen ≤ PALETTE_LEN

end BitmapReceiver

/-- The verdicts counted so far: completed, partial, dropped. -/
abbrev Verdicts : Type := ℕ × ℕ × ℕ

/-- The verdicts, and the palette that waits. -/
structure Account where
  verdicts : Verdicts
  valid : Bool
  start : ℕ
  len : ℕ
  words : ℕ → Word

namespace BitmapReceiver

def verdicts (r : BitmapReceiver) : Verdicts :=
  (r.stats.framesCompleted, r.stats.framesPartial, r.stats.framesDropped)

def account (r : BitmapReceiver) : Account where
  verdicts := r.verdicts
  valid := r.pendingPaletteValid
  start := r.pendingPaletteStart
  len := r.pendingPaletteLen
  words := r.pendingPalette

lemma fits_of_account {r s : BitmapReceiver} (h : s.account = r.account) :
    s.PaletteFits ↔ r.PaletteFits := by
  have hstart : s.pendingPaletteStart = r.pendingPaletteStart := congrArg Account.start h
  have hlen : s.pendingPaletteLen = r.pendingPaletteLen := congrArg Account.len h
  rw [PaletteFits, PaletteFits, hstart, hlen]

end BitmapReceiver

/-- The part of the framebuffer driver the picture is made of. -/
structure Glass where
  back : ℕ → Word
  front : ℕ → Word
  length : ℕ
  width : ℕ
  autoSwap : Bool
  indexedMode : Bool
  dmaEnable : Bool
  regs : Registers
  drawn : List (ℕ × Word)
  flips : List Flip

def Hub75.glass (h : Hub75) : Glass where
  back := h.hub75Data
  front := h.displayBuffer
  length := h.length
  width := h.ctrlWidth
  autoSwap := h.autoSwap
  indexedMode := h.ctrlIndexed
  dmaEnable := h.dmaEnable
  regs := h.regs
  drawn := h.drawn
  flips := h.flips

namespace Progress

def reset (p : Progress) : Progress :=
  { p with mask := ChunkMask.empty, total := 0, received := 0, sawPacket := false }

def ppc (p : Progress) : ℕ :=
  if p.indexed then PIXELS_PER_CHUNK_INDEXED
  else if p.wide then PIXELS_PER_CHUNK_WIDE
  else PIXELS_PER_CHUNK

def missing (p : Progress) : ℕ := p.total - p.received

def shows (p : Progress) : Bool := decide (p.total ≠ 0 ∧ p.missing ≤ MAX_REPAIR_CHUNKS)

def withRepairs (p : Progress) (n : ℕ) : Progress := { p with repairs := n }

/-- After `present`, which brought the repair counter to `n`. -/
def presented (p : Progress) (n : ℕ) : Progress :=
  if p.total = 0 then p else p.reset.withRepairs n

/-- The arrival mask can be asked about every chunk `present` asks about. -/
def Countable (p : Progress) : Prop :=
  p.total ≤ MAX_CHUNKS ∨ p.missing = 0 ∧ p.total < 65536

lemma ppc_pos (p : Progress) : 0 < p.ppc := by
  unfold ppc
  split
  · decide
  · split <;> decide

end Progress

namespace Glass

def imgLen (g : Glass) : ℕ := min g.length FB_HALF_WORDS

/-- The back half with every chunk below `n` that is not in the mask taken over from the front. -/
def repaired (g : Glass) (p : Progress) (n i : ℕ) : Word :=
  if i < g.imgLen ∧ i / p.ppc < n ∧ p.mask.has (i / p.ppc) = false then g.front i else g.back i

def picture (g : Glass) (p : Progress) : ℕ → Word :=
  if p.missing = 0 then g.back else g.repaired p p.total

def presented (g : Glass) (p : Progress) : Glass :=
  if p.shows then
    { g with
      back := g.front
      front := g.picture p
      flips := g.flips ++ [⟨g.front, g.picture p, g.indexedMode⟩] }
  else g

lemma repaired_zero (g : Glass) (p : Progress) : g.repaired p 0 = g.back := by
  funext i
  simp [repaired]

lemma repaired_succ_of_has (g : Glass) (p : Progress) {n : ℕ} (h : p.mask.has n = true) :
    g.repaired p (n + 1) = g.repaired p n := by
  funext i
  have hi : i / p.ppc < n + 1 ∧ p.mask.has (i / p.ppc) = false ↔
      i / p.ppc < n ∧ p.mask.has (i / p.ppc) = false := by
    refine and_congr_left fun hm => ?_
    have hne : i / p.ppc ≠ n := by
      rintro rfl
      rw [h] at hm
      cases hm
    omega
  simp only [repaired, hi]

lemma repaired_succ (g : Glass) (p : Progress) {n : ℕ} (h : p.mask.has n = false) :
    g.repaired p (n + 1) = fun i =>
      if n * p.ppc ≤ i ∧ i < min (n * p.ppc + min p.ppc (g.imgLen - n * p.ppc)) g.imgLen then
        g.front i
      else g.repaired p n i := by
  funext i
  have hi : n * p.ppc ≤ i ∧ i < min (n * p.ppc + min p.ppc (g.imgLen - n * p.ppc)) g.imgLen ↔
      i < g.imgLen ∧ i / p.ppc = n := by
    rw [← inPiece_iff p.ppc_pos, InPiece]
    omega
  simp only [hi, repaired]
  grind

lemma repaired_succ_of_le (g : Glass) (p : Progress) {n : ℕ} (h : p.mask.has n = false)
    (hl : g.imgLen ≤ n * p.ppc) : g.repaired p (n + 1) = g.repaired p n := by
  rw [repaired_succ g p h]
  funext i
  rw [if_neg]
  omega

def withBack (g : Glass) (back : ℕ → Word) : Glass := { g with back := back }

@[simp] lemma withBack_front (g : Glass) (b : ℕ → Word) : (g.withBack b).front = g.front := rfl
@[simp] lemma withBack_imgLen (g : Glass) (b : ℕ → Word) : (g.withBack b).imgLen = g.imgLen := rfl

lemma withBack_back (g : Glass) : g.withBack g.back = g := rfl

@[simp] lemma withBack_withBack (g : Glass) (b c : ℕ → Word) :
    (g.withBack b).withBack c = g.withBack c := rfl

end Glass

namespace Hub75

lemma stash_ok (h : Hub75) {offset : ℕ} (data : List Word) (ho : offset ≤ 256) :
    ∃ n h', h.stash offset data = .ok (n, h') ∧ offset + n ≤ 256 ∧ h'.glass = h.glass := by
  have hn : offset + (data.take (256 - min offset 256)).length ≤ 256 := by
    rw [List.length_take]
    omega
  simp only [stash, checkSlice, Nat.zero_le, hn, and_self, if_pos, bind, Except.bind, pure,
    Except.pure]
  refine ⟨_, _, rfl, hn, ?_⟩
  split <;> rfl

lemma setPaletteBank_ok (h : Hub75) (bank offset : ℕ) (data : List Word) :
    ∃ h', h.setPaletteBank bank offset data = .ok h' ∧ h'.glass = h.glass := by
  simp only [setPaletteBank]
  split
  · exact ⟨h, rfl, rfl⟩
  · rename_i hb
    have hc : bank * 256 + offset +
        (data.take (256 * h.paletteBanks - (bank * 256 + offset))).length ≤
          256 * h.paletteBanks := by
      rw [List.length_take]
      omega
    simp only [checkSlice, Nat.le_add_right, hc, and_self, if_pos, bind, Except.bind, pure,
      Except.pure]
    exact ⟨_, rfl, rfl⟩

lemma writeBank_ok (h : Hub75) (bank : ℕ) {offset count : ℕ} (ho : offset + count ≤ 256) :
    ∃ h', h.writeBank bank offset count = .ok h' ∧ h'.glass = h.glass := by
  have hs : offset ≤ min (offset + count) 256 ∧ min (offset + count) 256 ≤ 256 := by omega
  simp only [writeBank, checkSlice, hs, and_self, if_pos, bind, Except.bind]
  exact setPaletteBank_ok h bank offset _

lemma backPaletteBank_glass (h : Hub75) : h.backPaletteBank.2.glass = h.glass := by
  unfold backPaletteBank
  split <;> rfl

lemma setPalette_ok (h : Hub75) {offset : ℕ} (data : List Word) (ho : offset ≤ 256) :
    ∃ h', h.setPalette offset data = .ok h' ∧ h'.glass = h.glass := by
  obtain ⟨n, h₁, hs, hn, hg⟩ := h.stash_ok data ho
  simp only [setPalette, hs, bind, Except.bind]
  split
  · exact ⟨h₁, rfl, hg⟩
  · obtain ⟨h₂, hw, hg₂⟩ := h₁.backPaletteBank.2.writeBank_ok h₁.backPaletteBank.1 hn
    simp only [hw]
    refine ⟨_, rfl, ?_⟩
    rw [← hg, ← h₁.backPaletteBank_glass, ← hg₂]
    rfl

lemma repairFromFront_ok (h : Hub75) (offset len : ℕ) :
    ∃ h', h.repairFromFront offset len = .ok h' ∧
      h'.glass = h.glass.withBack fun i =>
        if offset ≤ i ∧ i < min (offset + len) h.glass.imgLen then h.glass.front i
        else h.glass.back i := by
  unfold repairFromFront
  split
  · rename_i hc
    refine ⟨h, rfl, ?_⟩
    rw [← h.glass.withBack_back]
    congr 1
    funext i
    rw [if_neg]
    · rfl
    · have : h.glass.imgLen = h.limit := rfl
      simp only [Glass.withBack_imgLen]
      omega
  · rename_i hc
    have hs : offset ≤ min (offset + len) h.limit ∧
        min (offset + len) h.limit ≤ FB_HALF_WORDS := by
      simp only [limit] at hc ⊢
      omega
    simp only [checkSlice, if_pos hs, bind, Except.bind, pure, Except.pure]
    exact ⟨_, rfl, rfl⟩

end Hub75

namespace BitmapReceiver

lemma applyPendingPalette_ok (r : BitmapReceiver) (h : Hub75) (hp : r.PaletteFits) :
    ∃ r' h', r.applyPendingPalette h = .ok (r', h') ∧ r'.progress = r.progress ∧
      r'.PaletteFits ∧ h'.glass = h.glass := by
  unfold applyPendingPalette
  split
  · exact ⟨r, h, rfl, rfl, hp, rfl⟩
  · have hn : 0 ≤ r.pendingPaletteLen ∧ r.pendingPaletteLen ≤ PALETTE_LEN :=
      ⟨Nat.zero_le _, le_trans (Nat.le_add_left _ _) hp⟩
    have ho : r.pendingPaletteStart ≤ 256 := le_trans (Nat.le_add_right _ _) hp
    obtain ⟨h', hs, hg⟩ := h.setPalette_ok ((List.range r.pendingPaletteLen).map r.pendingPalette) ho
    simp only [checkSlice, if_pos hn, hs, bind, Except.bind, pure, Except.pure]
    exact ⟨_, _, rfl, rfl, hp, hg⟩

lemma countMissing_turn (m : ChunkMask) (n : ℕ) {i : ℕ} (hi : i < MAX_CHUNKS) (b : ℕ → ℕ) :
    ∃ b', (do
      if ← m.test i then return b
      let k := i * 16 / n
      if k < 16 then
        return fun j => if j = k then min (b k + 1) (2 ^ 32 - 1) else b j
      return b : Except Panic (ℕ → ℕ)) = .ok b' ∧ True := by
  simp only [m.test_eq hi, bind, Except.bind, pure, Except.pure]
  split
  · exact ⟨_, rfl, trivial⟩
  · split <;> exact ⟨_, rfl, trivial⟩

lemma countMissing_ok (m : ChunkMask) {n : ℕ} (hn : n ≤ MAX_CHUNKS) (b : ℕ → ℕ) :
    ∃ b', countMissing m n b = .ok b' := by
  obtain ⟨b', hb, -⟩ := foldlM_range_ok (I := fun _ _ => True) trivial
    fun i hi b _ => countMissing_turn m n (hi.trans_le hn) b
  exact ⟨b', hb⟩

lemma countMissing_error (m : ChunkMask) {n : ℕ} (hn : MAX_CHUNKS < n) (b : ℕ → ℕ) :
    countMissing m n b = .error .indexOutOfBounds := by
  apply foldlM_range_error (I := fun _ _ => True) trivial hn
  · intro i hi b _
    exact countMissing_turn m n hi b
  · intro b _
    simp only [m.test_oob le_rfl, bind, Except.bind]

lemma repairMissing_ok (r : BitmapReceiver) (h : Hub75) (hp : r.PaletteFits)
    {n : ℕ} (hn : n ≤ MAX_CHUNKS) :
    ∃ r' h', r.repairMissing h n = .ok (r', h') ∧ (∃ c, r'.progress = r.progress.withRepairs c) ∧
      r'.PaletteFits ∧
      h'.glass = h.glass.withBack (h.glass.repaired r.progress n) := by
  have hloop := foldlM_range_ok (n := n) (b := (r, h))
    (f := fun (s : BitmapReceiver × Hub75) idx => do
      if ← r.chunkMask.test idx then return s
      let offset := idx * r.ppc
      if h.imgLen ≤ offset then return s
      let len := min r.ppc (h.imgLen - offset)
      let h ← s.2.repairFromFront offset len
      return ({ s.1 with stats.chunksRepaired := inc32 s.1.stats.chunksRepaired }, h))
    (I := fun k s => (∃ c, s.1.progress = r.progress.withRepairs c) ∧ s.1.PaletteFits ∧
      s.2.glass = h.glass.withBack (h.glass.repaired r.progress k))
    ⟨⟨r.progress.repairs, rfl⟩, hp, by rw [Glass.repaired_zero, Glass.withBack_back]⟩ ?_
  · obtain ⟨⟨r', h'⟩, hr, hi⟩ := hloop
    exact ⟨r', h', hr, hi⟩
  · rintro k hk ⟨s, t⟩ ⟨hs, hf, hg⟩
    simp only [r.chunkMask.test_eq (by omega : k < MAX_CHUNKS), bind, Except.bind, pure,
      Except.pure]
    split
    · rename_i hm
      refine ⟨_, rfl, hs, hf, ?_⟩
      rw [Glass.repaired_succ_of_has _ r.progress hm]
      exact hg
    · rename_i hm
      have hm : r.progress.mask.has k = false := Bool.eq_false_iff.mpr hm
      split
      · rename_i hl
        refine ⟨_, rfl, hs, hf, ?_⟩
        rw [Glass.repaired_succ_of_le h.glass r.progress hm hl]
        exact hg
      · rename_i hl
        obtain ⟨t', ht, hg'⟩ := t.repairFromFront_ok (k * r.ppc) (min r.ppc (h.imgLen - k * r.ppc))
        simp only [ht]
        have hs' (n : ℕ) : ∃ c, BitmapReceiver.progress { s with stats.chunksRepaired := n } =
            r.progress.withRepairs c := by
          obtain ⟨c, hc⟩ := hs
          exact ⟨n, congrArg (fun p : Progress => p.withRepairs n) hc⟩
        refine ⟨_, rfl, hs' _, hf, ?_⟩
        simp only [hg', hg, Glass.withBack_withBack, Glass.withBack_front, Glass.withBack_imgLen]
        rw [Glass.repaired_succ _ r.progress hm]
        rfl

lemma flip_glass (r : BitmapReceiver) (h : Hub75) (ha : h.autoSwap = false) :
    (r.flip h).2.glass =
      { h.glass with
        back := h.glass.front
        front := h.glass.back
        flips := h.glass.flips ++ [⟨h.glass.front, h.glass.back, h.glass.indexedMode⟩] } := by
  simp only [flip, ha]
  rfl

lemma syncBuffersFromHw_regs (h : Hub75) :
    h.syncBuffersFromHw.regs = h.regs ∧ h.syncBuffersFromHw.dmaEnable = h.dmaEnable ∧
      h.syncBuffersFromHw.drawn = h.drawn ∧ h.syncBuffersFromHw.getImgParam = h.getImgParam := by
  simp only [Hub75.syncBuffersFromHw]
  split <;> split <;> exact ⟨rfl, rfl, rfl, rfl⟩

lemma flip_regs (r : BitmapReceiver) (h : Hub75) :
    (r.flip h).2.regs = h.regs ∧ (r.flip h).2.dmaEnable = h.dmaEnable ∧
      (r.flip h).2.drawn = h.drawn ∧ (r.flip h).2.getImgParam = h.getImgParam := by
  simp only [flip]
  split
  · have hsync := syncBuffersFromHw_regs h.fbBaseNow.2
    split <;> split <;> first | exact ⟨rfl, rfl, rfl, rfl⟩ | exact hsync
  · exact ⟨rfl, rfl, rfl, rfl⟩

lemma flip_progress (r : BitmapReceiver) (h : Hub75) :
    (r.flip h).1.progress = r.progress ∧ ((r.flip h).1.PaletteFits ↔ r.PaletteFits) := by
  simp only [flip]
  split
  · split <;> split <;> exact ⟨rfl, Iff.rfl⟩
  · exact ⟨rfl, Iff.rfl⟩

lemma updateTiming_progress (r : BitmapReceiver) (t : ℤ) :
    (r.updateTiming t).progress = r.progress ∧ ((r.updateTiming t).PaletteFits ↔ r.PaletteFits) := by
  simp only [updateTiming]
  split <;> exact ⟨rfl, Iff.rfl⟩

lemma resetFrame_progress (r : BitmapReceiver) : r.resetFrame.progress = r.progress.reset := rfl

lemma localiseDamage_ok (r : BitmapReceiver) (n missing : ℕ) (hn : n ≤ MAX_CHUNKS ∨ missing = 0) :
    ∃ r', r.localiseDamage n missing = .ok r' ∧ r'.progress = r.progress ∧
      (r'.PaletteFits ↔ r.PaletteFits) := by
  simp only [localiseDamage]
  split
  · obtain ⟨b, hb⟩ := countMissing_ok r.chunkMask (n := n) (by omega) r.stats.missBuckets
    simp only [hb, bind, Except.bind]
    exact ⟨_, rfl, rfl, Iff.rfl⟩
  · exact ⟨_, rfl, rfl, Iff.rfl⟩

lemma repairOrComplete_ok (r : BitmapReceiver) (h : Hub75) (hp : r.PaletteFits)
    (hn : r.progress.Countable) :
    ∃ r' h', r.repairOrComplete h r.progress.total r.progress.missing = .ok (r', h') ∧
      (∃ c, r'.progress = r.progress.withRepairs c ∧
        (r.progress.missing = 0 → c = r.progress.repairs)) ∧
      r'.PaletteFits ∧ (∃ b, h'.glass = h.glass.withBack b) ∧
      (h.autoSwap = false → h'.glass = h.glass.withBack (h.glass.picture r.progress)) := by
  simp only [repairOrComplete]
  split
  · rename_i hc
    have hmax : r.progress.total ≤ MAX_CHUNKS := hn.resolve_right fun h₀ => by omega
    obtain ⟨r', h', he, ⟨c, hr⟩, hf, hg⟩ := r.repairMissing_ok h hp hmax
    simp only [he, bind, Except.bind, pure, Except.pure]
    refine ⟨_, _, rfl, ⟨c, hr, fun h₀ => by omega⟩, hf, ⟨_, hg⟩, fun _ => hg.trans ?_⟩
    rw [Glass.picture, if_neg (by omega)]
  · rename_i hc
    refine ⟨_, _, rfl, ⟨r.progress.repairs, rfl, fun _ => rfl⟩, hp, ⟨h.glass.back, rfl⟩,
      fun ha => ?_⟩
    rw [Glass.picture, if_pos]
    · rfl
    · by_contra hne
      exact hc ⟨by omega, by simp [ha]⟩

/-- A frame of more chunks than the mask holds cannot be whole, and judging it panics. -/
theorem present_error (r : BitmapReceiver) (h : Hub75) (t : ℤ) (hn : ¬ r.progress.Countable)
    (hl : r.progress.total < 65536) : r.present h t = .error .indexOutOfBounds := by
  have htotal : r.progress.total = r.totalChunks := rfl
  have hmissing : r.progress.missing = r.totalChunks - r.received := rfl
  simp only [Progress.Countable, not_or, not_and, htotal, hmissing] at hn hl
  have h₀ : r.totalChunks ≠ 0 := by
    intro h₀
    rw [h₀] at hn
    exact hn.1 (Nat.zero_le _)
  have hc : 0 < r.totalChunks - r.received ∧ 0 < r.totalChunks := by omega
  simp only [present, if_neg h₀, Nat.mod_eq_of_lt hl, localiseDamage, if_pos hc,
    countMissing_error _ (not_le.mp hn.1), bind, Except.bind]

theorem present_ok (r : BitmapReceiver) (h : Hub75) (t : ℤ) (hp : r.PaletteFits)
    (hn : r.progress.Countable) :
    ∃ r' h', r.present h t = .ok ⟨r.progress.shows, r', h'⟩ ∧
      (∃ c, r'.progress = r.progress.presented c ∧
        (r.progress.missing = 0 → c = r.progress.repairs)) ∧
      r'.PaletteFits ∧ h'.regs = h.regs ∧
      (h'.dmaEnable = h.dmaEnable ∧ h'.drawn = h.drawn ∧ h'.getImgParam = h.getImgParam) ∧
      (h.autoSwap = false → h'.glass = h.glass.presented r.progress) := by
  have hmod : r.totalChunks % 65536 = r.progress.total := by
    apply Nat.mod_eq_of_lt
    have hmax : MAX_CHUNKS < 65536 := by decide
    exact hn.elim (fun h₀ => h₀.trans_lt hmax) And.right
  by_cases h₀ : r.totalChunks = 0
  · have h₁ : r.progress.total = 0 := h₀
    have hs : r.progress.shows = false := by simp [Progress.shows, h₁]
    refine ⟨r, h, ?_, ⟨r.progress.repairs, ?_, fun _ => rfl⟩, hp, rfl, ⟨rfl, rfl, rfl⟩, fun _ => ?_⟩
    · rw [present, if_pos h₀, hs]
      rfl
    · rw [Progress.presented, if_pos h₁]
    · rw [Glass.presented, hs]
      rfl
  have h₁ : r.progress.total ≠ 0 := h₀
  have hreset (c : ℕ) : r.progress.presented c = r.progress.reset.withRepairs c := by
    rw [Progress.presented, if_neg h₁]
  obtain ⟨r₁, he₁, hr₁, hf₁⟩ := r.localiseDamage_ok r.progress.total r.progress.missing
    (hn.imp_right And.left)
  have hmissing : r.progress.total - r.received = r.progress.missing := rfl
  by_cases hd : MAX_REPAIR_CHUNKS < r.progress.missing
  · have hs : r.progress.shows = false := by
      simp only [Progress.shows, decide_eq_false_iff_not]
      omega
    simp only [present, if_neg h₀, hmod, he₁, hmissing, if_pos hd, bind, Except.bind, pure,
      Except.pure, hs]
    refine ⟨_, _, rfl, ⟨r.progress.repairs, ?_, fun _ => rfl⟩, hf₁.mpr hp, rfl, ⟨rfl, rfl, rfl⟩, fun _ => ?_⟩
    · rw [hreset, ← hr₁]
      rfl
    · rw [Glass.presented, hs]
      rfl
  · have hs : r.progress.shows = true := by
      simp only [Progress.shows, decide_eq_true_eq]
      omega
    obtain ⟨r₂, h₂, he₂, ⟨c, hr₂, hc⟩, hf₂, ⟨b, hb⟩, hg₂⟩ :=
      r₁.repairOrComplete_ok h (hf₁.mpr hp) (hr₁ ▸ hn)
    rw [hr₁] at he₂ hg₂ hr₂ hc
    obtain ⟨r₃, h₃, he₃, hr₃, hf₃, hg₃⟩ := r₂.applyPendingPalette_ok h₂ hf₂
    obtain ⟨hr₄, hf₄⟩ := r₃.flip_progress h₃
    obtain ⟨hr₅, hf₅⟩ := (r₃.flip h₃).1.updateTiming_progress t
    simp only [present, if_neg h₀, hmod, he₁, hmissing, if_neg hd, he₂, he₃, bind, Except.bind,
      pure, Except.pure, hs]
    have hcard : h₃.glass = h.glass.withBack b := hg₃.trans hb
    obtain ⟨hregs, hdma, hdrawn, himg⟩ := r₃.flip_regs h₃
    refine ⟨_, _, rfl, ⟨c, ?_, hc⟩, hf₅.mpr (hf₄.mpr hf₃), hregs.trans (congrArg Glass.regs hcard),
      ⟨hdma.trans (congrArg Glass.dmaEnable hcard), hdrawn.trans (congrArg Glass.drawn hcard),
        himg.trans (congrArg (fun g : Glass => (g.width, g.length)) hcard)⟩,
      fun ha => ?_⟩
    · rw [hreset, resetFrame_progress, hr₅, hr₄, hr₃, hr₂]
      rfl
    · have ha₃ : h₃.autoSwap = false := (congrArg Glass.autoSwap hcard).trans ha
      rw [r₃.flip_glass h₃ ha₃, hg₃, hg₂ ha, Glass.presented, if_pos hs]
      rfl

end BitmapReceiver

end Ledwall.Receiver
