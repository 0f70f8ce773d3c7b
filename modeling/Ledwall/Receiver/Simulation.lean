import Ledwall.Receiver.Assembly
import Ledwall.Receiver.Calls

/-! The receiver keeps step with the assembler. -/

namespace Ledwall.Receiver

open BitmapReceiver Ledwall.Library.Chunking Ledwall.Wire

/-- The CPU draws and swaps, for an image of `width` by `height`. -/
structure Configured (width height : ℕ) (q : Progress) (g : Glass) : Prop where
  hold : q.hold = false
  cpuPixels : q.cpuPixels = true
  dma : g.dmaEnable = false
  swap : g.autoSwap = false
  gwidth : g.width = width
  length : g.length = width * height

/-- A frame of the configured image that the sender can put on the wire. -/
structure Suits (width height : ℕ) (f : Frame) : Prop where
  sendable : f.Sendable
  width : f.width = width
  height : f.height = height

def Idle (q : Progress) : Prop := q.total = 0 ∧ q.received = 0 ∧ q.mask = ChunkMask.empty

/-- The chunks `acc` of `f` are in the mask and in the back half. -/
structure Holding (f : Frame) (acc : Finset ℕ) (q : Progress) (g : Glass) : Prop where
  frameId : q.frameId = f.id
  total : q.total = f.total
  received : q.received = acc.card
  mask : ∀ i, q.mask.has i = decide (i ∈ acc)
  lt_total : ∀ i ∈ acc, i < f.total
  drawn : ∀ p < f.pixels, p / f.format.pixelsPerChunk ∈ acc → g.back p = pixelOf f p

structure Latched (m : Format) (q : Progress) : Prop where
  indexed : q.indexed = m.isIndexed
  wide : q.wide = m.isWide
  mode : q.mode = some m.isIndexed

/-- The mode cache tells the truth about the control register. -/
def ModeAgrees (q : Progress) (g : Glass) : Prop := ∀ b, q.mode = some b → g.indexedMode = b

structure Assembling (width height : ℕ) (a : Assembly) (q : Progress) (g : Glass) : Prop where
  suits : Suits width height a.frame
  takes : Takes a.frame
  holding : Holding a.frame a.accepted q g
  nonempty : 0 < a.accepted.card
  incomplete : a.accepted.card < a.frame.total
  heard : q.heard = a.heard

/-- The relation between the assembler and the receiver with its driver. -/
structure Tracks (width height : ℕ) (A : Assembler) (q : Progress) (g : Glass) : Prop where
  configured : Configured width height q g
  latch : ∀ m, A.latch = some m → Latched m q ∧ ∃ f, Suits width height f ∧ f.format = m
  latched : A.current ≠ none → A.latch ≠ none
  idle : A.current = none → Idle q
  busy : ∀ a, A.current = some a → Assembling width height a q g

section Frames

variable {width height : ℕ} {f f' : Frame} {i : ℕ} {acc : Finset ℕ} {q : Progress} {g : Glass}

lemma Suits.pixels (h : Suits width height f) : f.pixels = width * height := by
  rw [Frame.pixels, h.width, h.height]

lemma Suits.format_eq (h : Suits width height f) (h' : Suits width height f')
    (hi : f.format.isIndexed = f'.format.isIndexed) : f.format = f'.format := by
  have hp : f.pixels = f'.pixels := h.pixels.trans h'.pixels.symm
  have hl := h.sendable.body_length
  have hl' := h'.sendable.body_length
  simp only [Frame.format] at hi hl hl' ⊢
  cases hf : f.picture with
  | indexed body =>
    cases hf' : f'.picture with
    | indexed body' => rfl
    | rgb body' =>
      simp only [hf, hf', Picture.format] at hi
      split at hi <;> cases hi
  | rgb body =>
    cases hf' : f'.picture with
    | indexed body' =>
      simp only [hf, hf', Picture.format] at hi
      split at hi <;> cases hi
    | rgb body' =>
      have hb (body : List Byte) : (Picture.rgb body).format.bytesPerPixel = 3 := by
        simp only [Picture.format]
        split <;> rfl
      rw [hf, hb] at hl
      rw [hf', hb] at hl'
      simp only [Picture.body] at hl hl'
      simp only [Picture.format, hl, hl', hp]

lemma Suits.imgLen (h : Suits width height f) (ht : Takes f) (hc : Configured width height q g) :
    g.imgLen = f.pixels := by
  rw [Glass.imgLen, hc.length, ← h.pixels]
  exact min_eq_left ht.2

lemma Suits.pixels_pos (h : Suits width height f) (hi : i < f.total) : 0 < f.pixels := by
  rw [Frame.total_eq_count h.sendable.body_length] at hi
  exact (count_pos_iff f.format.pixelsPerChunk_pos).mp (Nat.zero_lt_of_lt hi)

lemma Suits.accepts_of_image (h : Suits width height f) (hi : i < f.total) (ht : Takes f)
    (hw : g.width = width) (hl : g.length = width * height) :
    Accepts q g f.format.isIndexed f.format.isWide (f.datagram i) := by
  have hheader := headerOf_datagram h.sendable hi
  have himg : g.imgLen = f.pixels := by
    rw [Glass.imgLen, hl, ← h.pixels]
    exact min_eq_left ht.2
  refine ⟨?_, ?_, fun _ => ?_⟩
  · rw [headerLen_format, datagram_length]
    exact Nat.le_add_right _ _
  · rw [hheader, himg, strideOf_format]
    refine ⟨ht.1, Nat.ne_zero_of_lt hi, hi, fun _ => rfl, (h.pixels_pos hi).ne', ?_⟩
    exact (Frame.total_eq_count h.sendable.body_length).le
  · rw [hheader]
    intro _
    exact ⟨h.width.trans hw.symm, h.pixels.trans hl.symm⟩

lemma Suits.accepts_iff (h : Suits width height f) (hi : i < f.total)
    (hc : Configured width height q g) :
    Accepts q g f.format.isIndexed f.format.isWide (f.datagram i) ↔ Takes f := by
  have hne : f.width ≠ 0 ∧ f.height ≠ 0 := Nat.mul_ne_zero_iff.mp (h.pixels_pos hi).ne'
  constructor
  · intro ha
    have hv := ha.valid
    rw [headerOf_datagram h.sendable hi] at hv
    refine ⟨hv.total_le, ?_⟩
    have hsize : f.pixels = g.imgLen := hv.size hne
    rw [hsize]
    exact min_le_right _ _
  · intro ht
    exact h.accepts_of_image hi ht hc.gwidth hc.length

end Frames

section Transfer

variable {width height : ℕ} {f : Frame} {acc : Finset ℕ} {q q' : Progress} {g g' : Glass}

lemma Latched.latch (q : Progress) (m : Format) : Latched m (q.latch m.isIndexed m.isWide) :=
  ⟨rfl, rfl, rfl⟩

lemma Latched.ppc {m : Format} (h : Latched m q) : q.ppc = m.pixelsPerChunk := by
  rw [← strideOf_format, ← h.indexed, ← h.wide]
  rfl

@[simp] lemma latch_back (g : Glass) (q : Progress) (b : Bool) : (g.latch q b).back = g.back := by
  simp only [Glass.latch]
  split <;> rfl

lemma Configured.latch (h : Configured width height q g) (m : Format) :
    Configured width height (q.latch m.isIndexed m.isWide) (g.latch q m.isIndexed) := by
  refine ⟨h.hold, h.cpuPixels, ?_, ?_, ?_, ?_⟩
  · simp only [Glass.latch]
    split <;> exact h.dma
  · simp only [Glass.latch]
    split <;> exact h.swap
  · rw [Glass.latch_width]
    exact h.gwidth
  · rw [Glass.latch_length]
    exact h.length

lemma Holding.latch (h : Holding f acc q g) (m : Format) :
    Holding f acc (q.latch m.isIndexed m.isWide) (g.latch q m.isIndexed) := by
  refine ⟨h.frameId, h.total, h.received, h.mask, h.lt_total, ?_⟩
  rw [latch_back]
  exact h.drawn

lemma ModeAgrees.latch (h : ModeAgrees q g) (m : Format) :
    ModeAgrees (q.latch m.isIndexed m.isWide) (g.latch q m.isIndexed) := by
  intro b hb
  cases hb
  simp only [Glass.latch]
  split
  · rfl
  · rename_i hm
    exact h _ (not_not.mp hm)

lemma Tracks.relatch {A : Assembler} (h : Tracks width height A q g) (hf : Suits width height f) :
    Tracks width height { A with latch := some f.format }
      (q.latch f.format.isIndexed f.format.isWide) (g.latch q f.format.isIndexed) := by
  refine ⟨h.configured.latch _, ?_, fun _ => Option.some_ne_none _, h.idle, ?_⟩
  · intro m hm
    cases hm
    exact ⟨Latched.latch q _, f, hf, rfl⟩
  · intro a ha
    have hb := h.busy a ha
    exact ⟨hb.suits, hb.takes, hb.holding.latch _, hb.nonempty, hb.incomplete, hb.heard⟩

lemma Holding.identify (h : Idle q) (f : Frame) (g : Glass) :
    Holding f ∅ (q.identify f.id f.total) g := by
  refine ⟨rfl, rfl, h.2.1, ?_, ?_, ?_⟩
  · intro i
    exact (congrArg (ChunkMask.has · i) h.2.2).trans (ChunkMask.has_empty i)
  · intro i hi
    exact absurd hi (Finset.notMem_empty i)
  · intro p _ hp
    exact absurd hp (Finset.notMem_empty _)

lemma Holding.join (h : Holding f acc q g) (hs : f.Sendable) (ht : f.total ≤ MAX_CHUNKS)
    (hg : g.imgLen = f.pixels) {i : ℕ} (hi : i < f.total) (hn : i ∉ acc) (t : ℤ) :
    Holding f (insert i acc) (q.count i t) (g.draw (i * f.format.pixelsPerChunk)
      (g.chunkWords f.format.isIndexed (i * f.format.pixelsPerChunk)
        ((f.datagram i).drop f.format.headerSize))) := by
  have hlt : ∀ j ∈ insert i acc, j < f.total := by
    intro j hj
    rcases Finset.mem_insert.mp hj with rfl | hj
    · exact hi
    · exact h.lt_total j hj
  refine ⟨h.frameId, h.total, ?_, ?_, hlt, ?_⟩
  · have hcard := Finset.card_le_card (s := insert i acc) (t := Finset.range f.total)
      fun j hj => Finset.mem_range.mpr (hlt j hj)
    rw [Finset.card_range] at hcard
    have hr : (q.count i t).received = (acc.card + 1) % 65536 := by
      rw [← h.received]
      rfl
    rw [hr, ← Finset.card_insert_of_notMem hn]
    apply Nat.mod_eq_of_lt
    simp only [MAX_CHUNKS] at ht
    omega
  · intro j
    have hm : (q.count i t).mask = q.mask.add i := rfl
    rw [hm, ChunkMask.has_add _ (hi.trans_le ht), h.mask]
    simp only [Finset.mem_insert, Bool.decide_or]
  · intro p hp hj
    rw [draw_datagram hs hg]
    split
    · rfl
    · rename_i hc
      apply h.drawn p hp
      exact (Finset.mem_insert.mp hj).resolve_left fun he => hc ⟨hp, he⟩

end Transfer

/-- What one flip shows of a frame, the latch standing at `m`. -/
structure FlipOf (width height : ℕ) (m : Format) (agrees : Prop) (fl : Flip) (a : Assembly) :
    Prop where
  suits : Suits width height a.frame
  pixels : a.frame.format = m → ShowsPixels fl a
  mode : agrees → fl.indexedMode = m.isIndexed

/-- What is on the glass after some flips. -/
def lastShown (front : ℕ → Word) (fs : List Flip) : ℕ → Word := fs.foldl (fun _ fl => fl.after) front

section Flush

variable {width height : ℕ} {a : Assembly} {r : BitmapReceiver} {h : Hub75} {m : Format}

lemma Assembling.shows_eq (hb : Assembling width height a r.progress h.glass) :
    r.progress.shows = decide (a.missing ≤ MAX_REPAIR_CHUNKS) := by
  have hz : r.progress.total ≠ 0 := by
    rw [hb.holding.total]
    exact Nat.ne_zero_of_lt hb.incomplete
  have hm : r.progress.missing = a.missing := by
    rw [Progress.missing, hb.holding.total, hb.holding.received]
    rfl
  simp only [Progress.shows, hm, ne_eq, hz, not_false_eq_true, true_and]

lemma Assembling.picture (hb : Assembling width height a r.progress h.glass)
    (hc : Configured width height r.progress h.glass) (hl : Latched a.frame.format r.progress)
    {p : ℕ} (hp : p < a.frame.pixels) :
    h.glass.picture r.progress p =
      if p / a.frame.format.pixelsPerChunk ∈ a.accepted then pixelOf a.frame p
      else h.glass.front p := by
  have hmissing : r.progress.missing ≠ 0 := by
    have hlt := hb.incomplete
    rw [Progress.missing, hb.holding.total, hb.holding.received]
    omega
  have hchunk : p / a.frame.format.pixelsPerChunk < a.frame.total := by
    rw [Frame.total_eq_count hb.suits.sendable.body_length]
    exact div_lt_count a.frame.format.pixelsPerChunk_pos hp
  have himg := hb.suits.imgLen hb.takes hc
  simp only [Glass.picture, if_neg hmissing, Glass.repaired, hl.ppc, himg, hp, true_and,
    hb.holding.total, hchunk, hb.holding.mask, decide_eq_false_iff_not]
  by_cases hm : p / a.frame.format.pixelsPerChunk ∈ a.accepted
  · rw [if_neg (not_not.mpr hm), if_pos hm]
    exact hb.holding.drawn p hp hm
  · rw [if_pos hm, if_neg hm]

lemma present_flush (hf : r.PaletteFits) (hc : Configured width height r.progress h.glass)
    (hl : Latched m r.progress) (hb : Assembling width height a r.progress h.glass) (t : ℤ) :
    ∃ r' h', r.present h t = .ok ⟨!a.flush.isEmpty, r', h'⟩ ∧ r'.PaletteFits ∧
      Configured width height r'.progress h'.glass ∧ Latched m r'.progress ∧ Idle r'.progress ∧
      (ModeAgrees r.progress h.glass → ModeAgrees r'.progress h'.glass) ∧
      ∃ fs, h'.glass.flips = h.glass.flips ++ fs ∧ h'.glass.front = lastShown h.glass.front fs ∧
        List.Forall₂ (FlipOf width height m (ModeAgrees r.progress h.glass)) fs a.flush := by
  have hcount : r.progress.Countable := by
    left
    rw [hb.holding.total]
    exact hb.takes.1
  obtain ⟨r', h', he, ⟨c, hr, -⟩, hf', -, -, hg⟩ := r.present_ok h t hf hcount
  have hz : r.progress.total ≠ 0 := by
    rw [hb.holding.total]
    exact Nat.ne_zero_of_lt hb.incomplete
  rw [Progress.presented, if_neg hz] at hr
  have hg := hg hc.swap
  rw [Glass.presented, hb.shows_eq] at hg
  rw [hb.shows_eq] at he
  by_cases hm : a.missing ≤ MAX_REPAIR_CHUNKS
  · have hflush : a.flush = [a] := if_pos hm
    rw [if_pos (decide_eq_true hm)] at hg
    refine ⟨r', h', ?_, hf', ?_, ?_, ?_, ?_, ?_⟩
    · rw [he, hflush, decide_eq_true hm]
      rfl
    · rw [hr, hg]
      exact ⟨hc.hold, hc.cpuPixels, hc.dma, hc.swap, hc.gwidth, hc.length⟩
    · rw [hr]
      exact ⟨hl.indexed, hl.wide, hl.mode⟩
    · rw [hr]
      exact ⟨rfl, rfl, rfl⟩
    · rw [hr, hg]
      exact id
    · refine ⟨[⟨h.glass.front, h.glass.picture r.progress, h.glass.indexedMode⟩], ?_, ?_, ?_⟩
      · rw [hg]
      · rw [hg]
        rfl
      · rw [hflush]
        refine .cons ⟨hb.suits, ?_, ?_⟩ .nil
        · intro hfm
          subst hfm
          constructor
          · intro p hp hin
            exact (hb.picture hc hl hp).trans (if_pos hin)
          · intro p hp hin
            exact (hb.picture hc hl hp).trans (if_neg hin)
        · intro hagree
          exact hagree _ hl.mode
  · have hflush : a.flush = [] := if_neg hm
    rw [decide_eq_false hm] at hg he
    simp only [Bool.false_eq_true, if_false] at hg
    refine ⟨r', h', ?_, hf', ?_, ?_, ?_, ?_, [], ?_, ?_, ?_⟩
    · rw [he, hflush]
      rfl
    · rw [hr, hg]
      exact ⟨hc.hold, hc.cpuPixels, hc.dma, hc.swap, hc.gwidth, hc.length⟩
    · rw [hr]
      exact ⟨hl.indexed, hl.wide, hl.mode⟩
    · rw [hr]
      exact ⟨rfl, rfl, rfl⟩
    · rw [hr, hg]
      exact id
    · rw [hg, List.append_nil]
    · rw [hg]
      rfl
    · rw [hflush]
      exact .nil

end Flush

/-- What a call leaves behind, matched with what the assembler did: the frames `shown` are what the
new flips show. -/
structure Follows (width height : ℕ) (q : Progress) (g : Glass) (A : Assembler)
    (shown : List Assembly) (o : Outcome) : Prop where
  palette : o.rx.PaletteFits
  tracks : Tracks width height A o.rx.progress o.hub.glass
  presented : o.presented = !shown.isEmpty
  agrees : ModeAgrees q g → ModeAgrees o.rx.progress o.hub.glass
  flips : ∃ fs, o.hub.glass.flips = g.flips ++ fs ∧
    o.hub.glass.front = lastShown g.front fs ∧ List.Forall₂
    (fun fl a => ∃ m, A.latch = some m ∧ FlipOf width height m (ModeAgrees q g) fl a) fs shown

section Store

variable {width height : ℕ} {f : Frame} {i : ℕ} {acc : Finset ℕ} {r : BitmapReceiver} {h : Hub75}
  {data : Slice} {t : ℤ} {presented : Bool}

lemma Holding.whole {q : Progress} {g : Glass} (hh : Holding f acc q g) (hs : f.Sendable)
    (hcard : acc.card = f.total) {p : ℕ} (hp : p < f.pixels) :
    p / f.format.pixelsPerChunk ∈ acc ∧ g.back p = pixelOf f p := by
  have hacc : acc = Finset.range f.total := by
    apply Finset.eq_of_subset_of_card_le
    · intro j hj
      exact Finset.mem_range.mpr (hh.lt_total j hj)
    · rw [Finset.card_range, hcard]
  have hin : p / f.format.pixelsPerChunk ∈ acc := by
    rw [hacc, Finset.mem_range, Frame.total_eq_count hs.body_length]
    exact div_lt_count f.format.pixelsPerChunk_pos hp
  exact ⟨hin, hh.drawn p hp hin⟩

lemma complete_incomplete (hh : Holding f acc r.progress h.glass) (ht : Takes f)
    (hlt : acc.card < f.total) : r.complete h t presented = .ok ⟨presented, r, h⟩ := by
  have hc : ¬ r.totalChunks % 65536 ≤ r.received := by
    have h₁ : r.totalChunks = f.total := hh.total
    have h₂ : r.received = acc.card := hh.received
    have h₃ := ht.1
    simp only [MAX_CHUNKS] at h₃
    rw [h₁, h₂, Nat.mod_eq_of_lt (by omega)]
    omega
  rw [complete, if_neg hc]
  rfl

lemma complete_whole (presented : Bool) (hf : r.PaletteFits) (hc : Configured width height r.progress h.glass)
    (hl : Latched f.format r.progress) (hs : Suits width height f) (ht : Takes f)
    (hh : Holding f acc r.progress h.glass) (hpos : 0 < f.total) (hcard : acc.card = f.total) :
    ∃ r' h', r.complete h t presented = .ok ⟨true, r', h'⟩ ∧ r'.PaletteFits ∧
      Configured width height r'.progress h'.glass ∧ Latched f.format r'.progress ∧
      Idle r'.progress ∧ (ModeAgrees r.progress h.glass → ModeAgrees r'.progress h'.glass) ∧
      r'.progress.repairs = r.progress.repairs ∧
      ∃ fl, h'.glass.flips = h.glass.flips ++ [fl] ∧
        h'.glass.front = fl.after ∧
        FlipOf width height f.format (ModeAgrees r.progress h.glass) fl ⟨f, acc, t⟩ := by
  have h₁ : r.progress.total = f.total := hh.total
  have h₂ : r.progress.missing = 0 := by
    rw [Progress.missing, h₁, hh.received, hcard, Nat.sub_self]
  obtain ⟨r', h', he, ⟨c, hr, hrep⟩, hf', -, -, hg⟩ := r.present_ok h t hf (.inl (h₁.trans_le ht.1))
  have hz : r.progress.total ≠ 0 := by omega
  have hshows : r.progress.shows = true := by
    simp only [Progress.shows, h₂, ne_eq, hz, not_false_eq_true, true_and, Nat.zero_le, decide_true]
  have hpic : h.glass.picture r.progress = h.glass.back := if_pos h₂
  have hg := hg hc.swap
  rw [Progress.presented, if_neg hz] at hr
  rw [Glass.presented, if_pos hshows, hpic] at hg
  have hdone : r.totalChunks % 65536 ≤ r.received := by
    have h₃ : r.totalChunks = f.total := hh.total
    have h₄ : r.received = acc.card := hh.received
    rw [h₃, h₄, hcard]
    exact Nat.mod_le _ _
  refine ⟨r', h', ?_, hf', ?_, ?_, ?_, ?_, ?_, ⟨h.glass.front, h.glass.back, h.glass.indexedMode⟩,
    ?_, ?_, hs, fun _ => ⟨?_, ?_⟩, fun hagree => hagree _ hl.mode⟩
  · rw [complete, if_pos hdone, he, hshows]
    rfl
  · rw [hr, hg]
    exact ⟨hc.hold, hc.cpuPixels, hc.dma, hc.swap, hc.gwidth, hc.length⟩
  · rw [hr]
    exact ⟨hl.indexed, hl.wide, hl.mode⟩
  · rw [hr]
    exact ⟨rfl, rfl, rfl⟩
  · rw [hr, hg]
    exact id
  · rw [hr]
    exact hrep h₂
  · rw [hg]
  · rw [hg]
  · intro p hp _
    exact (hh.whole hs.sendable hcard hp).2
  · intro p hp hn
    exact absurd (hh.whole hs.sendable hcard hp).1 hn

lemma storeChunk_join (presented : Bool) (t : ℤ) (hf : r.PaletteFits) (hc : Configured width height r.progress h.glass)
    (hl : Latched f.format r.progress) (hs : Suits width height f) (ht : Takes f)
    (hi : i < f.total) (hh : Holding f acc r.progress h.glass) (hlt : acc.card < f.total)
    (hd : data.bytes = f.datagram i) :
    ∃ r' h', r.storeChunk h (headerOf data.bytes f.format.isWide)
        (strideOf f.format.isIndexed f.format.isWide) f.format.isIndexed data t presented =
        .ok ⟨presented || !(Assembler.join f i t acc).2.isEmpty, r', h'⟩ ∧ r'.PaletteFits ∧
      Tracks width height ⟨(Assembler.join f i t acc).1, some f.format⟩ r'.progress h'.glass ∧
      (ModeAgrees r.progress h.glass → ModeAgrees r'.progress h'.glass) ∧
      r'.progress.repairs = r.progress.repairs ∧
      ∃ fs, h'.glass.flips = h.glass.flips ++ fs ∧
        h'.glass.front = lastShown h.glass.front fs ∧
        List.Forall₂ (FlipOf width height f.format (ModeAgrees r.progress h.glass)) fs
          (Assembler.join f i t acc).2 := by
  have hmax : i < MAX_CHUNKS := hi.trans_le ht.1
  have hlong : headerLen f.format.isWide ≤ data.bytes.length := by
    rw [hd, headerLen_format, datagram_length]
    exact Nat.le_add_right _ _
  have hlatch : ∀ m, some f.format = some m → Latched m r.progress ∧
      ∃ f, Suits width height f ∧ f.format = m := by
    intro m hm
    cases hm
    exact ⟨hl, f, hs, rfl⟩
  rw [hd, headerOf_datagram hs.sendable hi]
  by_cases hin : i ∈ acc
  · have hm : r.chunkMask.has i = true := (hh.mask i).trans (decide_eq_true hin)
    obtain ⟨r', he, hr, hf'⟩ := storeChunk_duplicate h (strideOf f.format.isIndexed f.format.isWide)
      f.format.isIndexed t presented data
      (p := ⟨f.id, i, f.total, f.width, f.height, headerLen f.format.isWide⟩) hmax hm
    simp only [Assembler.join, if_pos hin]
    refine ⟨r', h, he.trans (by simp), hf'.mpr hf, ?_, ?_, ?_, [], ?_, ?_, .nil⟩
    · rw [hr]
      refine ⟨⟨hc.hold, hc.cpuPixels, hc.dma, hc.swap, hc.gwidth, hc.length⟩, ?_,
        fun _ => Option.some_ne_none _, fun hn => absurd hn (Option.some_ne_none _), ?_⟩
      · intro m hm
        obtain ⟨⟨h₁, h₂, h₃⟩, hw⟩ := hlatch m hm
        exact ⟨⟨h₁, h₂, h₃⟩, hw⟩
      · intro a ha
        cases ha
        exact ⟨hs, ht, ⟨hh.frameId, hh.total, hh.received, hh.mask, hh.lt_total, hh.drawn⟩,
          Finset.card_pos.mpr ⟨i, hin⟩, hlt, rfl⟩
    · rw [hr]
      exact id
    · rw [hr]
      rfl
    · rw [List.append_nil]
    · rfl
  · have hm : r.chunkMask.has i = false := (hh.mask i).trans (decide_eq_false hin)
    obtain ⟨r₁, h₁, he, -, hf₁, -, hv⟩ := storeChunk_new h
      (strideOf f.format.isIndexed f.format.isWide) f.format.isIndexed t presented
      (p := ⟨f.id, i, f.total, f.width, f.height, headerLen f.format.isWide⟩)
      hmax hlong hm
    obtain ⟨hr₁, hg₁⟩ := hv hc.dma
    simp only [strideOf_format, headerLen_format, hd] at hg₁
    have hh₁ := hh.join hs.sendable ht.1 (hs.imgLen ht hc) hi hin t
    rw [← hr₁, ← hg₁] at hh₁
    have hc₁ : Configured width height r₁.progress h₁.glass := by
      rw [hr₁, hg₁]
      exact ⟨hc.hold, hc.cpuPixels, hc.dma, hc.swap, hc.gwidth, hc.length⟩
    have hl₁ : Latched f.format r₁.progress := by
      rw [hr₁]
      exact ⟨hl.indexed, hl.wide, hl.mode⟩
    have hagree : ModeAgrees r₁.progress h₁.glass ↔ ModeAgrees r.progress h.glass := by
      rw [hr₁, hg₁]
      exact Iff.rfl
    have hflips : h₁.glass.flips = h.glass.flips := by
      rw [hg₁]
      rfl
    have hrepairs : r₁.progress.repairs = r.progress.repairs := by
      rw [hr₁]
      rfl
    have hlatch₁ : ∀ q : Progress, Latched f.format q → ∀ m, some f.format = some m →
        Latched m q ∧ ∃ f, Suits width height f ∧ f.format = m := by
      intro q hq m hm
      cases hm
      exact ⟨hq, f, hs, rfl⟩
    rw [he]
    by_cases hcard : (insert i acc).card = f.total
    · simp only [Assembler.join, if_neg hin, if_pos hcard]
      obtain ⟨r', h', he', hf', hc', hl', hi', ha', hrep, fl, hfl, hfront, hof⟩ := complete_whole
        presented (t := t) (hf₁.mpr hf) hc₁ hl₁ hs ht hh₁ (Nat.zero_lt_of_lt hi) hcard
      refine ⟨r', h', he'.trans (by simp), hf', ⟨hc', hlatch₁ _ hl', fun hn => absurd rfl hn,
        fun _ => hi', fun a ha => by cases ha⟩, fun hg => ha' (hagree.mpr hg), hrep.trans hrepairs,
        [fl], hfl.trans (by rw [hflips]), hfront, ?_⟩
      rw [hagree] at hof
      exact .cons hof .nil
    · have hlt₁ : (insert i acc).card < f.total := by
        rw [Finset.card_insert_of_notMem hin] at hcard ⊢
        omega
      simp only [Assembler.join, if_neg hin, if_neg hcard]
      refine ⟨r₁, h₁, (complete_incomplete hh₁ ht hlt₁).trans (by simp), hf₁.mpr hf, ⟨hc₁,
        hlatch₁ _ hl₁, fun _ => Option.some_ne_none _, fun hn => absurd hn (Option.some_ne_none _),
        ?_⟩, hagree.mpr, hrepairs, [], ?_, ?_, .nil⟩
      · intro a ha
        cases ha
        refine ⟨hs, ht, hh₁, Finset.card_pos.mpr ⟨i, Finset.mem_insert_self i acc⟩, hlt₁, ?_⟩
        rw [hr₁]
        rfl
      · rw [hflips, List.append_nil]
      · rw [hg₁]
        rfl

end Store

/-- No other frame of the same `frame_id` is in flight when a chunk of `f` arrives. -/
def Assembler.Admits (A : Assembler) (f : Frame) : Prop :=
  ∀ a, A.current = some a → a.frame.id = f.id → a.frame = f

section Steps

variable {width height : ℕ} {A : Assembler} {f : Frame} {i : ℕ} {r : BitmapReceiver} {h : Hub75}
  {data : Slice} {t : ℤ}

lemma Tracks.continues_iff (ht : Tracks width height A r.progress h.glass)
    (hs : Suits width height f) (hi : i < f.total) (hadm : A.Admits f) :
    (headerOf (f.datagram i) f.format.isWide).Continues r.progress ↔
      ∃ a, A.current = some a ∧ a.frame = f := by
  rw [headerOf_datagram hs.sendable hi]
  cases hcur : A.current with
  | none =>
    constructor
    · rintro ⟨-, htotal⟩
      have hz := (ht.idle hcur).1
      exact absurd (htotal.trans hz) (Nat.ne_zero_of_lt hi)
    · rintro ⟨a, ha, -⟩
      cases ha
  | some a =>
    have hb := ht.busy a hcur
    constructor
    · rintro ⟨hid, -⟩
      exact ⟨a, rfl, hadm a hcur (hb.holding.frameId.symm.trans hid.symm)⟩
    · rintro ⟨b, hb', rfl⟩
      cases hb'
      exact ⟨hb.holding.frameId.symm, hb.holding.total.symm⟩

lemma FlipOf.latched {m : Format} {agrees agrees' : Prop} {fs : List Flip} {shown : List Assembly}
    (h : List.Forall₂ (FlipOf width height m agrees) fs shown) (hag : agrees' → agrees)
    (hA : A.latch = some m) : List.Forall₂
      (fun fl a => ∃ m, A.latch = some m ∧ FlipOf width height m agrees' fl a) fs shown :=
  h.imp fun _ _ ho => ⟨m, hA, ho.suits, ho.pixels, fun h' => ho.mode (hag h')⟩

lemma present_idle (hq : Idle r.progress) (t : ℤ) : r.present h t = .ok ⟨false, r, h⟩ := by
  have hz : r.totalChunks = 0 := hq.1
  rw [present, if_pos hz]
  rfl

lemma present_outgoing (hf : r.PaletteFits) (ht : Tracks width height A r.progress h.glass)
    {m : Format} (hA : A.latch = some m) (hne : ¬ ∃ a, A.current = some a ∧ a.frame = f) (t : ℤ) :
    A.kept f = ∅ ∧
    ∃ r' h', r.present h t = .ok ⟨!(A.outgoing f).isEmpty, r', h'⟩ ∧ r'.PaletteFits ∧
      Configured width height r'.progress h'.glass ∧ Latched m r'.progress ∧ Idle r'.progress ∧
      (ModeAgrees r.progress h.glass → ModeAgrees r'.progress h'.glass) ∧
      (A.current = none → r'.progress.repairs = r.progress.repairs) ∧
      ∃ fs, h'.glass.flips = h.glass.flips ++ fs ∧ h'.glass.front = lastShown h.glass.front fs ∧
        List.Forall₂ (FlipOf width height m (ModeAgrees r.progress h.glass)) fs (A.outgoing f) := by
  cases hcur : A.current with
  | none =>
    simp only [Assembler.kept, Assembler.outgoing, hcur]
    exact ⟨trivial, r, h, present_idle (ht.idle hcur) t, hf, ht.configured, (ht.latch m hA).1,
      ht.idle hcur, id, fun _ => rfl, [], (List.append_nil _).symm, rfl, .nil⟩
  | some a =>
    have hfr : a.frame ≠ f := fun he => hne ⟨a, hcur, he⟩
    simp only [Assembler.kept, Assembler.outgoing, hcur, if_neg hfr]
    obtain ⟨r', h', he, hf', hc, hl, hi, hag, hfs⟩ :=
      present_flush hf ht.configured (ht.latch m hA).1 (ht.busy a hcur) t
    exact ⟨trivial, r', h', he, hf', hc, hl, hi, hag, fun hn => absurd hn (Option.some_ne_none a), hfs⟩

/-- A chunk handed in is one step of the assembler. -/
theorem processPacket_chunk (data : Slice) (t : ℤ) (hf : r.PaletteFits) (ht : Tracks width height A r.progress h.glass)
    (hs : Suits width height f) (hi : i < f.total) (hadm : A.Admits f)
    (hd : data.bytes = f.datagram i) (filter : Bool) (addr : ℕ) :
    ∃ o, r.processPacket h data t = .ok o ∧
      Follows width height r.progress h.glass (A.step filter (.chunk f i addr t)).1
        (A.step filter (.chunk f i addr t)).2 o ∧
      ((∀ a, A.current = some a → a.frame = f) →
        o.rx.progress.repairs = r.progress.repairs) := by
  have hlen : HEADER_SIZE ≤ data.bytes.length := by
    rw [hd, datagram_length]
    exact (headerSize_ge _).trans (Nat.le_add_right _ _)
  have hmagic := pixelMagic_datagram f i
  rw [← hd] at hmagic
  rcases r.processPacket_cases h data t hf with
    ⟨indexed, wide, r₀, -, hm, -, -, hr₀, hf₀, he⟩ | ⟨hno, -⟩
  rotate_left
  · rw [hno hlen ht.configured.hold ht.configured.cpuPixels] at hmagic
    cases hmagic
  rw [hmagic] at hm
  cases hm
  obtain ⟨r₁, h₁, hr₁, hf₁, hg₁, hcase⟩ :=
    r₀.pixelPacket_cases h f.format.isIndexed f.format.isWide data t hlen
  rw [hr₀] at hr₁ hg₁
  have hfits : r₁.PaletteFits := hf₁.mpr hf₀
  have ht₁ : Tracks width height { A with latch := some f.format } r₁.progress h₁.glass := by
    rw [hr₁, hg₁]
    exact ht.relatch hs
  have hag₁ (hag : ModeAgrees r.progress h.glass) : ModeAgrees r₁.progress h₁.glass := by
    rw [hr₁, hg₁]
    exact hag.latch f.format
  have hflips₁ : h₁.glass.flips = h.glass.flips ∧ h₁.glass.front = h.glass.front := by
    rw [hg₁, Glass.latch]
    split <;> exact ⟨rfl, rfl⟩
  have hrep₁ : r₁.progress.repairs = r.progress.repairs := by
    rw [hr₁]
    rfl
  have hacc := hs.accepts_iff hi ht.configured
  have hcont := ht.continues_iff hs hi hadm
  rw [he]
  cases hcase with
  | refused hn he' =>
    rw [hr₀, hd, hacc] at hn
    simp only [Assembler.step, if_neg hn]
    refine ⟨_, he', ⟨hfits, ht₁, rfl, hag₁, [], ?_, ?_, .nil⟩, fun _ => hrep₁⟩
    · rw [hflips₁.1, List.append_nil]
    · exact hflips₁.2
  | stored ha hc he' =>
    rw [hr₀, hd, hacc] at ha
    rw [hr₀, hd, hcont] at hc
    obtain ⟨a, hcur, rfl⟩ := hc
    have hb := ht₁.busy a hcur
    obtain ⟨r', h', hst, hf', ht', hag, hrep, fs, hfs, hfront, hall⟩ := storeChunk_join
      false t hfits ht₁.configured (ht₁.latch _ rfl).1 hs ha hi hb.holding
      hb.incomplete hd
    simp only [Assembler.step, if_pos ha, Assembler.kept, Assembler.outgoing, hcur, if_true,
      List.nil_append]
    refine ⟨_, he'.trans hst, ⟨hf', ht', by simp, fun h₀ => hag (hag₁ h₀), fs, ?_, ?_, ?_⟩,
      fun _ => hrep.trans hrep₁⟩
    · rw [hfs, hflips₁.1]
    · rw [hfront, hflips₁.2]
    · exact FlipOf.latched hall hag₁ rfl
  | flushed ha hc he' =>
    rw [hr₀, hd, hacc] at ha
    rw [hr₀, hd, hcont] at hc
    obtain ⟨hkept, r₂, h₂, hpres, hf₂, hc₂, hl₂, hidle, hag₂, hrep₂, fs, hfs, hfront, hall⟩ :=
      present_outgoing hfits ht₁ rfl hc t
    have hh₂ : Holding f ∅ (r₂.beginFrame (headerOf data.bytes f.format.isWide)).progress
        h₂.glass := by
      rw [hd, headerOf_datagram hs.sendable hi]
      exact Holding.identify hidle f h₂.glass
    obtain ⟨r', h', hst, hf', ht', hag, hrep, fs', hfs', hfront', hall'⟩ := storeChunk_join
      (r := r₂.beginFrame (headerOf data.bytes f.format.isWide)) (h := h₂)
      (!(A.outgoing f).isEmpty) t hf₂
      ⟨hc₂.hold, hc₂.cpuPixels, hc₂.dma, hc₂.swap, hc₂.gwidth, hc₂.length⟩
      ⟨hl₂.indexed, hl₂.wide, hl₂.mode⟩ hs ha hi hh₂ (Nat.zero_lt_of_lt hi) hd
    have hkept : A.kept f = ∅ := hkept
    simp only [Assembler.step, if_pos ha, hkept]
    have he' : r₀.pixelPacket h f.format.isIndexed f.format.isWide data t = _ :=
      he'.trans ((congrArg (fun x => Except.bind x _) hpres).trans hst)
    refine ⟨_, he', ⟨hf', ht', ?_, fun h₀ => hag (hag₂ (hag₁ h₀)), fs ++ fs', ?_, ?_, ?_⟩, ?_⟩
    · have happend (xs ys : List Assembly) : (!xs.isEmpty || !ys.isEmpty) = !(xs ++ ys).isEmpty := by
        cases xs <;> rfl
      exact happend _ _
    · rw [hfs', hfs, hflips₁.1, List.append_assoc]
    · rw [hfront', hfront, hflips₁.2]
      exact List.foldl_append.symm
    · apply List.rel_append
      · exact FlipOf.latched hall hag₁ rfl
      · exact FlipOf.latched hall' (fun h₀ => hag₂ (hag₁ h₀)) rfl
    · intro hsame
      have hnone : A.current = none := by
        cases hcur : A.current with
        | none => rfl
        | some a => exact absurd ⟨a, hcur, hsame a hcur⟩ hc
      exact hrep.trans ((hrep₂ hnone).trans hrep₁)

/-- A tick is one step of the assembler. -/
theorem tick_step (hf : r.PaletteFits) (ht : Tracks width height A r.progress h.glass) :
    ∃ o, r.tick h t = .ok o ∧
      Follows width height r.progress h.glass (A.step r.hwFilterOn (.tick t)).1
        (A.step r.hwFilterOn (.tick t)).2 o := by
  obtain ⟨r₁, h₁, he₁, hr₁, hf₁, hg₁⟩ := tickPalette_ok hf h t
  have hoff : h₁.dmaEnable = false := (congrArg Glass.dmaEnable hg₁).trans ht.configured.dma
  have hdone : r₁.presentDoneFrame h₁ t = .ok ⟨false, r₁, h₁⟩ := by
    simp only [presentDoneFrame, Hub75.dmaDoneFrame, hoff, Bool.false_eq_true, if_false]
    rfl
  have hadopt : r₁.adoptDmaFrame h₁ t = .ok ⟨false, r₁, h₁⟩ := by
    simp only [adoptDmaFrame, Hub75.dmaFrameIdentity, hoff, Bool.false_eq_true, if_false]
    rfl
  rw [← hr₁, ← hg₁] at ht ⊢
  have hfilter : r.hwFilterOn = r₁.hwFilterOn := (congrArg Progress.hwFilter hr₁).symm
  rw [hfilter]
  have quiet : Follows width height r₁.progress h₁.glass A [] ⟨false, r₁, h₁⟩ :=
    ⟨hf₁, ht, rfl, id, [], (List.append_nil _).symm, rfl, .nil⟩
  by_cases hon : r₁.hwFilterOn = true
  · refine ⟨⟨false, r₁, h₁⟩, ?_, ?_⟩
    · simp only [tick, he₁, hdone, bind, Except.bind, if_pos hon]
      rfl
    · cases hcur : A.current with
      | none =>
        simp only [Assembler.step, hcur]
        exact quiet
      | some a =>
        simp only [Assembler.step, hcur, hon, true_or, if_true]
        exact quiet
  cases hcur : A.current with
  | none =>
    have hz : r₁.totalChunks = 0 := (ht.idle hcur).1
    refine ⟨⟨false, r₁, h₁⟩, ?_, ?_⟩
    · simp only [tick, he₁, hdone, hadopt, bind, Except.bind, if_neg hon, if_pos hz]
      rfl
    · simp only [Assembler.step, hcur]
      exact quiet
  | some a =>
    have hb := ht.busy a hcur
    have htotal : r₁.totalChunks = a.frame.total := hb.holding.total
    have hreceived : r₁.received = a.accepted.card := hb.holding.received
    have hheard : r₁.lastPacketMs = a.heard := hb.heard
    have hmax := hb.takes.1
    simp only [MAX_CHUNKS] at hmax
    have hz : ¬ r₁.totalChunks = 0 := by
      have := hb.incomplete
      omega
    have hlt : ¬ r₁.totalChunks % 65536 ≤ r₁.received := by
      have := hb.incomplete
      rw [htotal, hreceived, Nat.mod_eq_of_lt (by omega)]
      omega
    have hsome : ¬ r₁.received = 0 := by
      have := hb.nonempty
      omega
    have hbegin : r.tick h t = r₁.tickFrame h₁ t false := by
      simp only [tick, he₁, hdone, hadopt, bind, Except.bind, if_neg hon, if_neg hz]
      rfl
    have hoff' := mergeDmaArrival_off r₁ h₁ t hoff
    by_cases hstale : t - a.heard < STALE_MS
    · refine ⟨⟨false, r₁, h₁⟩, ?_, ?_⟩
      · have hs : t - r₁.lastPacketMs < STALE_MS := by rwa [hheard]
        rw [hbegin]
        simp only [tickFrame, hoff', if_neg hlt, if_neg hsome, if_pos hs]
        rfl
      · simp only [Assembler.step, hcur, hstale, or_true, if_true]
        exact quiet
    · have hs : ¬ t - r₁.lastPacketMs < STALE_MS := by rwa [hheard]
      obtain ⟨m, hm⟩ := Option.ne_none_iff_exists'.mp (ht.latched (by simp [hcur]))
      obtain ⟨r', h', hpres, hf', hc', hl', hi', hag', fs, hfs, hfront, hall⟩ :=
        present_flush (r := r₁.countStale) (h := h₁) hf₁ ht.configured (ht.latch m hm).1 hb t
      refine ⟨⟨!a.flush.isEmpty, r', h'⟩, ?_, ?_⟩
      · rw [hbegin]
        simp only [tickFrame, hoff', if_neg hlt, if_neg hsome, if_neg hs, hpres, bind, Except.bind]
        rfl
      · have hstep : A.step r₁.hwFilterOn (.tick t) = ({ A with current := none }, a.flush) := by
          simp only [Assembler.step, hcur, hon, hstale, Bool.false_eq_true, or_self, if_false]
        rw [hstep]
        refine ⟨hf', ⟨hc', ?_, fun hn => absurd rfl hn, fun _ => hi', fun a ha => by cases ha⟩, rfl,
          hag', fs, hfs, hfront, FlipOf.latched hall id hm⟩
        intro m' hm'
        have he : m' = m := Option.some.inj (hm'.symm.trans hm)
        rw [he]
        exact ⟨hl', (ht.latch m hm).2⟩

/-- Anything but a pixel datagram leaves the assembler where it is. -/
theorem processPacket_other (hf : r.PaletteFits) (ht : Tracks width height A r.progress h.glass)
    (hn : HEADER_SIZE ≤ data.bytes.length → pixelMagic data.bytes = none) :
    ∃ o, r.processPacket h data t = .ok o ∧ Follows width height r.progress h.glass A [] o := by
  rcases r.processPacket_cases h data t hf with ⟨indexed, wide, r₀, hlen, hm, -⟩ | ⟨-, r', h', he, hf', hg, hr⟩
  · rw [hn hlen] at hm
    cases hm
  · have hr : r'.progress = r.progress := by
      rcases hr with hr | ⟨hcpu, -⟩
      · exact hr
      · have hon : r.cpuPixels = true := ht.configured.cpuPixels
        rw [hon] at hcpu
        cases hcpu
    refine ⟨_, he, hf', ?_, rfl, ?_, [], ?_, ?_, .nil⟩
    · rw [hr, hg]
      exact ht
    · rw [hr, hg]
      exact id
    · rw [hg, List.append_nil]
    · rw [hg]
      rfl

end Steps

/-- No frame is in progress on a card that draws and swaps with the CPU. -/
structure Ready (width height : ℕ) (r : BitmapReceiver) (h : Hub75) : Prop where
  reachable : Reachable r
  total : r.totalChunks = 0
  hold : r.hold = false
  cpuPixels : r.cpuPixels = true
  dma : h.dmaEnable = false
  swap : h.autoSwap = false
  image : h.getImgParam = (width, width * height)

lemma Ready.tracks {width height : ℕ} {r : BitmapReceiver} {h : Hub75}
    (hr : Ready width height r h) : Tracks width height ⟨none, none⟩ r.progress h.glass := by
  obtain ⟨hreceived, hmask⟩ := hr.reachable.kept.idle hr.total
  obtain ⟨hw, hl⟩ := Prod.mk.inj hr.image
  refine ⟨⟨hr.hold, hr.cpuPixels, hr.dma, hr.swap, hw, hl⟩, ?_, ?_, ?_, ?_⟩
  · intro m hm
    cases hm
  · intro hn
    exact absurd rfl hn
  · intro _
    exact ⟨hr.total, hreceived, hmask⟩
  · intro a ha
    cases ha

/-- The driver of a card set up for an image of `width` by `height`. -/
def blank (width height : BitVec 16) : Hub75 :=
  (Hub75.new (fun _ => 0) Registers.reset).setImgParam width
    (BitVec.ofNat 32 (width.toNat * height.toNat))

lemma ready_blank (width height : BitVec 16) :
    Ready width.toNat height.toNat {} (blank width height) where
  reachable := ⟨[], .nil _⟩
  total := rfl
  hold := rfl
  cpuPixels := rfl
  dma := rfl
  swap := rfl
  image := by
    have hlt := Nat.mul_lt_mul'' width.isLt height.isLt
    have he : (blank width height).getImgParam =
        (width.toNat, (BitVec.ofNat 32 (width.toNat * height.toNat)).toNat) := rfl
    rw [he, BitVec.toNat_ofNat, Nat.mod_eq_of_lt hlt]

end Ledwall.Receiver
