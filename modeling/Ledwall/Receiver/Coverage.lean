import Ledwall.Receiver.Receipts
import Ledwall.Receiver.Tallies

/-! Whether a frame that is counted as completed covers the image. -/

namespace Ledwall.Receiver

open BitmapReceiver Ledwall.Library.Callees Ledwall.Library.Chunking Ledwall.Library.Outcomes
  Ledwall.Library.Runs Ledwall.Wire

/-- The packet's payload has pixel `i`, as the word `w`. -/
def PixelPacket.Writes (d : PixelPacket) (i : ℕ) (w : Word) : Prop :=
  d.start ≤ i ∧ i < d.start + d.pixels ∧ w = pixelWord d.indexed d.payload (i - d.start)

/-- `drawn` covers the image in chunks of one format. -/
structure Coverage (q : Progress) (g : Glass) (drawn : List PixelPacket) (indexed wide : Bool) :
    Prop where
  format : ∀ d ∈ drawn, d.indexed = indexed ∧ d.wide = wide
  frame : ∀ d ∈ drawn, d.header.frameId = q.frameId
  total : q.total = count (strideOf indexed wide) g.imgLen
  pixels : ∀ i < g.imgLen, q.mask.has (i / strideOf indexed wide) = true →
    ∃ d ∈ drawn, d.Writes i (g.back i)

section Drawing

variable {q : Progress} {g : Glass} {drawn : List PixelPacket} {d : PixelPacket}
  {indexed wide : Bool}

lemma strideOf_pos (indexed wide : Bool) : 0 < strideOf indexed wide := by
  cases indexed <;> cases wide <;> decide

lemma draw_writes (g : Glass) (d : PixelPacket) {i : ℕ} (hi : i < g.imgLen) :
    (d.start ≤ i ∧ i < d.start + d.pixels ∧
        d.Writes i ((g.draw d.start (g.chunkWords d.indexed d.start d.payload)).back i)) ∨
      ¬ (d.start ≤ i ∧ i < d.start + d.pixels) ∧
        (g.draw d.start (g.chunkWords d.indexed d.start d.payload)).back i = g.back i := by
  have hwords : g.chunkWords d.indexed d.start d.payload =
      (List.range (min d.pixels (g.imgLen - d.start))).map (pixelWord d.indexed d.payload) := rfl
  have hlen : (g.chunkWords d.indexed d.start d.payload).length =
      min d.pixels (g.imgLen - d.start) := by
    rw [hwords, List.length_map, List.length_range]
  by_cases hin : d.start ≤ i ∧ i < d.start + d.pixels
  · refine .inl ⟨hin.1, hin.2, hin.1, hin.2, ?_⟩
    have hlt : i - d.start < min d.pixels (g.imgLen - d.start) := by omega
    simp only [Glass.draw, hlen]
    rw [if_pos (by omega), hwords, List.getD_eq_getElem?_getD, List.getElem?_map,
      List.getElem?_range hlt]
    rfl
  · refine .inr ⟨hin, ?_⟩
    simp only [Glass.draw, hlen]
    rw [if_neg (by omega)]

/-- A packet of the frame whose payload fills its chunk. -/
structure Fills (g : Glass) (d : PixelPacket) : Prop where
  total : d.header.totalChunks = count d.stride g.imgLen
  filled : min d.stride (g.imgLen - d.start) ≤ d.pixels

lemma Coverage.draw (hc : Coverage q g drawn d.indexed d.wide) (hid : d.header.frameId = q.frameId)
    (hf : Fills g d) (hm : d.header.chunkIndex < MAX_CHUNKS) (t : ℤ) :
    Coverage (q.count d.header.chunkIndex t)
      (g.draw d.start (g.chunkWords d.indexed d.start d.payload)) (drawn ++ [d]) d.indexed
      d.wide := by
  refine ⟨?_, ?_, hc.total, ?_⟩
  · intro e he
    rcases List.mem_append.mp he with he | he
    · exact hc.format e he
    · rw [List.mem_singleton.mp he]
      exact ⟨rfl, rfl⟩
  · intro e he
    rcases List.mem_append.mp he with he | he
    · exact hc.frame e he
    · rw [List.mem_singleton.mp he]
      exact hid
  · intro i hi hhas
    have hi : i < g.imgLen := hi
    rcases draw_writes g d hi with ⟨-, -, hw⟩ | ⟨hout, hsame⟩
    · exact ⟨d, List.mem_append_right _ List.mem_cons_self, hw⟩
    · have hpiece := inPiece_iff (n := g.imgLen) (i := d.header.chunkIndex) (p := i)
        (strideOf_pos d.indexed d.wide)
      have hfill := hf.filled
      have hne : i / strideOf d.indexed d.wide ≠ d.header.chunkIndex := by
        intro he
        obtain ⟨h₁, h₂⟩ := hpiece.mpr ⟨hi, he⟩
        apply hout
        change d.start ≤ i at h₁
        change i < d.start + min d.stride (g.imgLen - d.start) at h₂
        omega
      have hmask : (q.count d.header.chunkIndex t).mask = q.mask.add d.header.chunkIndex := rfl
      rw [hmask, ChunkMask.has_add _ hm, decide_eq_false hne, Bool.false_or] at hhas
      obtain ⟨e, he, hw⟩ := hc.pixels i hi hhas
      refine ⟨e, List.mem_append_left _ he, ?_⟩
      rw [hsame]
      exact hw

end Drawing

section Judging

variable {r : BitmapReceiver} {h : Hub75} {t : ℤ} {drawn : List PixelPacket}

/-- If `present` swaps with no chunk missing, every pixel of the image it puts up is in a payload
drawn for that frame. -/
def Covers (drawn : List PixelPacket) (s : BitmapReceiver × Hub75 × ℤ) : Prop :=
  s.1.totalChunks ≠ 0 → s.1.totalChunks % 65536 - s.1.received = 0 →
    ∀ o, presentAt s = .ok o → o.hub.activeBuf ≠ s.2.1.activeBuf →
      ∀ i < s.2.1.imgLen, ∃ d ∈ drawn, d.header.frameId = s.1.currentFrameId ∧
        d.Writes i (o.hub.displayBuffer i)

/-- What `present` leaves of the receiver and its driver while the CPU draws. -/
structure Rested (h : Hub75) (o : Outcome) : Prop where
  tallied : Tallied o.rx
  idle : o.rx.progress.total = 0
  dma : o.hub.dmaEnable = false
  image : o.hub.getImgParam = h.getImgParam

lemma present_rested (hr : Tallied r) (hoff : h.dmaEnable = false) (t : ℤ) :
    Ensures (Rested h) (r.present h t) := by
  intro o ho
  have hj := present_judged hr h t o ho
  obtain ⟨r', h', he, -, -, -, ⟨-, -, himg⟩, -⟩ := r.present_ok h t hr.palette (.inl hr.total_le)
  cases he.symm.trans ho
  exact ⟨hj.tallied, hj.idle, hj.dma.trans hoff, himg⟩

lemma setPalette_active (h : Hub75) (offset : ℕ) (words : List Word) :
    Ensures (fun h' : Hub75 => h'.activeBuf = h.activeBuf) (h.setPalette offset words) := by
  unfold Hub75.setPalette
  refine Ensures.bind (P := fun s : ℕ × Hub75 => s.2.activeBuf = h.activeBuf) ?_ ?_
  · unfold Hub75.stash
    refine Ensures.bind (P := fun _ => True) (fun _ _ => trivial) fun _ _ => ?_
    apply Ensures.ok
    dsimp only
    split <;> rfl
  · rintro ⟨n, h₁⟩ hh
    dsimp only at hh ⊢
    split
    · exact .ok hh
    · have hb : h₁.backPaletteBank.2.activeBuf = h₁.activeBuf := by
        unfold Hub75.backPaletteBank
        split <;> rfl
      refine Ensures.bind (P := fun h₂ : Hub75 => h₂.activeBuf = h.activeBuf) ?_ fun h₂ hh₂ => .ok hh₂
      unfold Hub75.writeBank
      refine Ensures.bind (P := fun _ => True) (fun _ _ => trivial) fun _ _ => ?_
      unfold Hub75.setPaletteBank
      dsimp only
      split
      · exact .ok (hb.trans hh)
      · refine Ensures.bind (P := fun _ => True) (fun _ _ => trivial) fun _ _ => ?_
        exact .ok (hb.trans hh)

lemma applyPendingPalette_active (r : BitmapReceiver) (h : Hub75) :
    Ensures (fun s => s.2.activeBuf = h.activeBuf) (r.applyPendingPalette h) := by
  unfold applyPendingPalette
  split
  · exact .ok rfl
  · refine Ensures.bind (P := fun _ => True) (fun _ _ => trivial) fun _ _ => ?_
    exact (setPalette_active h _ _).bind fun h' hh => .ok hh

lemma flip_swaps (r : BitmapReceiver) (h : Hub75) :
    (r.flip h).2.displayBuffer = h.hub75Data ∨ (r.flip h).2.activeBuf = h.activeBuf := by
  simp only [BitmapReceiver.flip]
  split
  · split
    · split
      · exact .inl rfl
      · simp only [Hub75.syncBuffersFromHw]
        split <;> split <;> first | exact .inl rfl | exact .inr rfl
    · split
      · exact .inl rfl
      · simp only [Hub75.syncBuffersFromHw]
        split <;> split <;> first | exact .inl rfl | exact .inr rfl
  · exact .inl rfl

lemma present_whole (hf : r.PaletteFits) (hz : r.totalChunks ≠ 0)
    (hm : r.totalChunks % 65536 - r.received = 0) (t : ℤ) :
    Ensures (fun o => o.hub.activeBuf ≠ h.activeBuf → o.hub.displayBuffer = h.hub75Data)
      (r.present h t) := by
  unfold present
  rw [if_neg hz]
  dsimp only
  rw [hm]
  have hdamage : r.localiseDamage (r.totalChunks % 65536) 0 =
      .ok { r with stats.lastMissing := 0 } := rfl
  rw [hdamage]
  refine Ensures.bind (P := fun r₁ : BitmapReceiver => r₁.PaletteFits) (.ok hf) fun r₁ hf₁ => ?_
  rw [if_neg (Nat.not_lt_zero _)]
  refine Ensures.bind (P := fun s : BitmapReceiver × Hub75 => s.1.PaletteFits ∧ s.2 = h) ?_ ?_
  · unfold repairOrComplete
    rw [if_neg (fun hc => absurd hc.1 (Nat.lt_irrefl 0))]
    exact .ok ⟨hf₁, rfl⟩
  · rintro ⟨r₂, h₂⟩ ⟨hf₂, rfl⟩
    dsimp only at hf₂ ⊢
    obtain ⟨r₃, h₃, he, -, -, hg⟩ := r₂.applyPendingPalette_ok h₂ hf₂
    have hactive := applyPendingPalette_active r₂ h₂ _ he
    rw [he]
    refine Ensures.bind (P := fun s => s = (r₃, h₃)) (.ok rfl) ?_
    rintro _ rfl
    apply Ensures.ok
    intro hne
    have hback : h₃.hub75Data = h₂.hub75Data := congrArg Glass.back hg
    rw [← hback]
    exact (flip_swaps r₃ h₃).resolve_right fun he => hne (he.trans hactive)

lemma judge_unfinished (hr : Tallied r) (hoff : h.dmaEnable = false) (t : ℤ)
    (hlt : r.progress.total ≠ 0 → r.progress.received < r.progress.total) :
    Within presentAt (Covers drawn) (Rested h) fun judge => judge (r, h, t) := by
  refine .call ?_ (present_rested hr hoff t)
  intro hz hm
  have hlt : r.received < r.totalChunks := hlt hz
  have htotal : r.totalChunks ≤ MAX_CHUNKS := hr.total_le
  have hmax : MAX_CHUNKS = 512 := rfl
  dsimp only at hm
  omega

lemma judge_covered {indexed wide : Bool} (hr : Tallied r) (hoff : h.dmaEnable = false) (t : ℤ)
    (hc : Coverage r.progress h.glass drawn indexed wide) :
    Within presentAt (Covers drawn) (Rested h) fun judge => judge (r, h, t) := by
  refine .call ?_ (present_rested hr hoff t)
  intro hz hm o ho hne i hi
  have hfront := present_whole hr.palette hz hm t o ho hne
  have htotal : r.totalChunks ≤ MAX_CHUNKS := hr.total_le
  have hmax : MAX_CHUNKS = 512 := rfl
  have hchunk : i / strideOf indexed wide < r.totalChunks := by
    have hcount : r.totalChunks = count (strideOf indexed wide) h.glass.imgLen := hc.total
    rw [hcount]
    exact div_lt_count (strideOf_pos indexed wide) hi
  have hlack : Nat.count (fun i => r.chunkMask.has i = false) r.totalChunks = 0 :=
    hr.exact.symm.trans hm
  have hhas : r.chunkMask.has (i / strideOf indexed wide) = true := by
    rw [← Bool.not_eq_false]
    exact (Nat.count_iff_forall_not.mp hlack) _ hchunk
  obtain ⟨d, hd, hw⟩ := hc.pixels i hi hhas
  refine ⟨d, hd, hc.frame d hd, ?_⟩
  rw [hfront]
  exact hw

end Judging

/-- The receiver and its driver; `drawn` is history: the packets drawn for the frame in progress. -/
structure Canvas where
  rx : BitmapReceiver
  hub : Hub75
  drawn : List PixelPacket

namespace Canvas

variable {c c' : Canvas} {p : Poll}

/-- The packet the call draws: accepted, and no duplicate. -/
def draws (c : Canvas) (p : Poll) : Option PixelPacket :=
  match p.call with
  | .processPacket data => (c.rx.accepted (p.sees c.hub) data.bytes).filter fun d =>
      decide ¬ (d.header.Continues c.rx.progress ∧
        c.rx.chunkMask.has d.header.chunkIndex = true)
  | _ => none

/-- The packets drawn for the frame in progress once the call's own is. -/
def drawnAfter (c : Canvas) (p : Poll) : List PixelPacket :=
  match c.draws p with
  | some d => if d.header.Continues c.rx.progress then c.drawn ++ [d] else [d]
  | none => c.drawn

def Step (c : Canvas) (p : Poll) (c' : Canvas) : Prop :=
  ∃ o, p.run c.rx c.hub = .ok o ∧ c' = ⟨o.rx, o.hub, c.drawnAfter p⟩

/-- A packet that is drawn fills its chunk, its frame covers the image, and it has the format of the
packets drawn for the frame before it. -/
def Whole (c : Canvas) (p : Poll) : Prop :=
  ∀ d, c.draws p = some d → Fills c.hub.glass d ∧
    (d.header.Continues c.rx.progress → ∀ e ∈ c.drawn, e.indexed = d.indexed ∧ e.wide = d.wide)

/-- What every call keeps. -/
structure Covered (c : Canvas) : Prop where
  tallied : Tallied c.rx
  dma : c.hub.dmaEnable = false
  busy : c.rx.progress.total ≠ 0 → c.rx.progress.received < c.rx.progress.total ∧ c.drawn ≠ [] ∧
    ∃ indexed wide, Coverage c.rx.progress c.hub.glass c.drawn indexed wide

abbrev Keeps (drawn : List PixelPacket) (f : Judge → Except Panic Outcome) : Prop :=
  Within presentAt (Covers drawn) (fun o => Covered ⟨o.rx, o.hub, drawn⟩) f

lemma Covered.of_rested {h : Hub75} {o : Outcome} (hr : Rested h o) (drawn : List PixelPacket) :
    Covered ⟨o.rx, o.hub, drawn⟩ :=
  ⟨hr.tallied, hr.dma, fun hz => absurd hr.idle hz⟩

lemma storeChunk_keeps {r : BitmapReceiver} {h : Hub75} {d : PixelPacket} {drawn : List PixelPacket}
    {data : Slice} (hbytes : d.bytes = data.bytes) (hr : Tallied r) (hoff : h.dmaEnable = false)
    (hlong : headerLen d.wide ≤ data.bytes.length)
    (hi : d.header.chunkIndex < r.progress.total) (hid : d.header.frameId = r.progress.frameId)
    (hm : r.chunkMask.has d.header.chunkIndex = false)
    (hc : Coverage r.progress h.glass drawn d.indexed d.wide) (hf : Fills h.glass d) (t : ℤ)
    (presented : Bool) :
    Keeps (drawn ++ [d]) fun judge =>
      r.storeChunkWith judge h d.header d.stride d.indexed data t presented := by
  have hmax : d.header.chunkIndex < MAX_CHUNKS := hi.trans_le hr.total_le
  have hhdr : d.header.hdrLen = headerLen d.wide := headerOf_hdrLen _ _
  obtain ⟨r', h', he, hp, ha, hg⟩ := storeChunkWith_new d.stride d.indexed t presented hoff hmax
    (hhdr.trans_le hlong) hm
  have hcount := countChunk_tallied hr t hi hm
  have hr' : Tallied r' := by
    refine hcount.of_progress ((fits_of_account ha).mpr hr.palette) ?_ ?_ ?_ <;> rw [hp] <;> rfl
  have hg' : h'.glass = h.glass.draw d.start (h.glass.chunkWords d.indexed d.start d.payload) := by
    rw [hg, hhdr, ← hbytes]
    rfl
  have hc' : Coverage r'.progress h'.glass (drawn ++ [d]) d.indexed d.wide := by
    rw [hp, hg']
    exact hc.draw hid hf hmax t
  have hoff' : h'.dmaEnable = false := (congrArg Glass.dmaEnable hg').trans hoff
  refine Within.of_eq ?_ he
  unfold completeWith
  refine .ite (fun _ => ?_) fun hlt => .ok ⟨hr', hoff', fun _ => ⟨?_, ?_, d.indexed, d.wide, hc'⟩⟩
  · refine (judge_covered hr' hoff' t hc').bind fun o ho => ?_
    exact .ok (.of_rested ho _)
  · have htotal : r'.totalChunks ≤ MAX_CHUNKS := hr'.total_le
    have hword : MAX_CHUNKS = 512 := rfl
    change r'.received < r'.totalChunks
    omega
  · exact List.append_ne_nil_of_right_ne_nil _ (List.cons_ne_nil _ _)

lemma Covered.of_undisturbed {r' : BitmapReceiver} {h' : Hub75} (hc : Covered c) (h : Hub75)
    (hg : h.glass.back = c.hub.glass.back) (himg : h.glass.imgLen = c.hub.glass.imgLen)
    (hoff : h.dmaEnable = c.hub.dmaEnable) (hu : Undisturbed c.rx h r' h') :
    Covered ⟨r', h', c.drawn⟩ := by
  obtain ⟨b, hglass⟩ := hu.glass
  refine ⟨hc.tallied.of_progress hu.palette hu.total hu.mask hu.received, ?_, ?_⟩
  · exact ((congrArg Glass.dmaEnable hglass).trans hoff).trans hc.dma
  · intro hz
    have hback : h'.glass.back = c.hub.glass.back := (congrArg Glass.back hglass).trans hg
    have hlen : h'.glass.imgLen = c.hub.glass.imgLen := (congrArg Glass.imgLen hglass).trans himg
    dsimp only at hz ⊢
    rw [hu.total] at hz ⊢
    rw [hu.received]
    obtain ⟨hlt, hne, indexed, wide, hcov⟩ := hc.busy hz
    refine ⟨hlt, hne, indexed, wide, hcov.format, ?_, ?_, ?_⟩
    · rw [hu.frameId]
      exact hcov.frame
    · rw [hu.total, hlen]
      exact hcov.total
    · rw [hu.mask, hback, hlen]
      exact hcov.pixels

lemma drawnAfter_of_none (hn : c.draws p = none) : c.drawnAfter p = c.drawn := by
  rw [drawnAfter, hn]

lemma processPacket_keeps {data : Slice} (hcall : p.call = .processPacket data) (hc : Covered c)
    (hw : c.Whole p) : Keeps (c.drawnAfter p) fun judge =>
      c.rx.processPacketWith judge (p.sees c.hub) data p.timeMs := by
  cases ha : c.rx.accepted (p.sees c.hub) data.bytes with
  | none =>
    have hn : c.draws p = none := by
      simp only [draws, hcall, ha, Option.filter_none]
    obtain ⟨r', h', he, hu, -⟩ := processPacket_ignored hc.tallied.palette p.timeMs ha
    rw [drawnAfter_of_none hn]
    refine Within.of_eq ?_ he
    exact .ok (hc.of_undisturbed (p.sees c.hub) rfl rfl rfl hu)
  | some d =>
    obtain ⟨-, hbytes, -, -, -, hacc⟩ := accepted_iff.mp ha
    obtain ⟨r₀, h₀, hp, hacct, hg, he⟩ := processPacket_accepted hc.tallied.palette p.timeMs ha
    have hu : Undisturbed c.rx (p.sees c.hub) r₀ h₀ := .of_latch hc.tallied.palette hp hacct hg
    have hc₀ := hc.of_undisturbed (p.sees c.hub) rfl rfl rfl hu
    have hlong : headerLen d.wide ≤ data.bytes.length := by
      rw [← hbytes]
      exact hacc.long
    refine Within.of_eq ?_ he
    refine .ite (fun hcont => ?_) fun hcont => ?_
    · have hid : d.header.frameId = r₀.progress.frameId := hcont.1.trans hu.frameId.symm
      have htotal : d.header.totalChunks = r₀.progress.total := hcont.2.trans hu.total.symm
      have hi : d.header.chunkIndex < r₀.progress.total := htotal ▸ hacc.valid.index_lt
      have hmask : r₀.chunkMask = c.rx.chunkMask := hu.mask
      cases hm : c.rx.chunkMask.has d.header.chunkIndex with
      | true =>
        have hn : c.draws p = none := by
          simp only [draws, hcall, ha, Option.filter_some, hcont, hm, and_self, not_true_eq_false,
            decide_false, Bool.false_eq_true, if_false]
        rw [← hmask] at hm
        obtain ⟨r', he', hp', ha'⟩ := storeChunkWith_duplicate (hi.trans_le hc₀.tallied.total_le) hm
        rw [drawnAfter_of_none hn]
        refine Within.of_eq ?_ he'
        apply Within.ok
        have hu' : Undisturbed r₀ h₀ r' h₀ := by
          refine ⟨(fits_of_account ha').mpr hc₀.tallied.palette, ?_, ?_, ?_, ?_,
            congrArg Account.verdicts ha', h₀.glass.indexedMode, rfl⟩ <;> rw [hp'] <;> rfl
        exact hc₀.of_undisturbed h₀ rfl rfl rfl hu'
      | false =>
        have hs : c.draws p = some d := by
          simp only [draws, hcall, ha, Option.filter_some, hm, Bool.false_eq_true, and_false,
            not_false_eq_true, decide_true, if_true]
        have hafter : c.drawnAfter p = c.drawn ++ [d] := by
          simp only [drawnAfter, hs, if_pos hcont]
        obtain ⟨hfills, hformat⟩ := hw d hs
        have hz : r₀.progress.total ≠ 0 := Nat.ne_zero_of_lt hi
        obtain ⟨-, hne, indexed, wide, hcov⟩ := hc₀.busy hz
        obtain ⟨e, hmem⟩ := List.exists_mem_of_ne_nil _ hne
        obtain ⟨h₁, h₂⟩ := hformat hcont e hmem
        obtain ⟨h₃, h₄⟩ := hcov.format e hmem
        obtain rfl : indexed = d.indexed := h₃.symm.trans h₁
        obtain rfl : wide = d.wide := h₄.symm.trans h₂
        have himg : h₀.glass.imgLen = c.hub.glass.imgLen := by
          rw [hg, Glass.latch_imgLen]
          rfl
        have hfills : Fills h₀.glass d := by
          refine ⟨?_, ?_⟩
          · rw [himg]
            exact hfills.total
          · rw [himg]
            exact hfills.filled
        rw [← hmask] at hm
        rw [hafter]
        exact storeChunk_keeps hbytes hc₀.tallied hc₀.dma hlong hi hid hm hcov hfills _ _
    · have hs : c.draws p = some d := by
        simp only [draws, hcall, ha, Option.filter_some, hcont, false_and, not_false_eq_true,
          decide_true, if_true]
      have hafter : c.drawnAfter p = [] ++ [d] := by
        simp only [drawnAfter, hs, if_neg hcont, List.nil_append]
      obtain ⟨hfills, -⟩ := hw d hs
      rw [hafter]
      refine Within.bind (judge_unfinished hc₀.tallied hc₀.dma _ fun hz => (hc₀.busy hz).1)
        fun o ho => ?_
      obtain ⟨hnone, hreceived⟩ := ho.tallied.idle ho.idle
      have himg : o.hub.glass.imgLen = c.hub.glass.imgLen := by
        have hlen : o.hub.length = h₀.length := congrArg Prod.snd ho.image
        have hlen₀ : h₀.length = c.hub.length := by
          have := congrArg Glass.length hg
          rwa [Glass.latch_length] at this
        change min o.hub.length _ = min c.hub.length _
        rw [hlen, hlen₀]
      have ht : Tallied (o.rx.beginFrame d.header) := by
        refine ⟨ho.tallied.palette, hacc.valid.total_le, ?_, ho.tallied.received⟩
        intro i hi
        exact absurd hi (Bool.eq_false_iff.mp (hnone i))
      apply storeChunk_keeps hbytes ht ho.dma hlong hacc.valid.index_lt rfl (hnone _)
      · refine ⟨by simp, by simp, ?_, fun i _ hi => absurd hi (Bool.eq_false_iff.mp (hnone _))⟩
        rw [himg]
        exact hfills.total
      · refine ⟨?_, ?_⟩
        · rw [himg]
          exact hfills.total
        · rw [himg]
          exact hfills.filled

lemma tick_keeps (hc : Covered c) (hn : c.draws p = none) : Keeps (c.drawnAfter p) fun judge =>
    c.rx.tickWith judge (p.sees c.hub) p.timeMs := by
  rw [drawnAfter_of_none hn]
  obtain ⟨r', h', hu, he | ⟨-, presented, he⟩⟩ := tick_off (h := p.sees c.hub) hc.tallied.palette
    p.timeMs hc.dma
  · refine Within.of_eq ?_ he
    exact .ok (hc.of_undisturbed (p.sees c.hub) rfl rfl rfl hu)
  · refine Within.of_eq ?_ he
    have hc' := hc.of_undisturbed (p.sees c.hub) rfl rfl rfl hu
    refine (judge_unfinished hc'.tallied hc'.dma _ fun hz => (hc'.busy hz).1).bind fun o ho => ?_
    exact .ok (.of_rested ho _)

lemma judging_keeps (hc : Covered c) (hw : c.Whole p) :
    Keeps (c.drawnAfter p) (p.judging c.rx c.hub) := by
  have hreset (r : BitmapReceiver) (hf : r.PaletteFits) (hz : r.progress.total = 0)
      (hm : r.progress.mask = ChunkMask.empty) (hv : r.progress.received = 0) :
      Covered ⟨r, p.sees c.hub, c.drawnAfter p⟩ := by
    refine ⟨⟨hf, hz.trans_le (Nat.zero_le _), ?_, ?_⟩, hc.dma, fun h => absurd hz h⟩
    · rw [hm]
      exact ChunkMask.below_empty _
    · rw [hm, hv]
      exact ChunkMask.count_empty.symm
  rcases p with ⟨call, regs, t⟩
  have hsame (hn : c.drawnAfter ⟨call, regs, t⟩ = c.drawn) (r : BitmapReceiver)
      (hu : Undisturbed c.rx ((⟨call, regs, t⟩ : Poll).sees c.hub) r
        ((⟨call, regs, t⟩ : Poll).sees c.hub)) :
      Covered ⟨r, (⟨call, regs, t⟩ : Poll).sees c.hub, c.drawnAfter ⟨call, regs, t⟩⟩ := by
    rw [hn]
    exact hc.of_undisturbed ((⟨call, regs, t⟩ : Poll).sees c.hub) rfl rfl rfl hu
  have hf := hc.tallied.palette
  have hglass : ∃ b, ((⟨call, regs, t⟩ : Poll).sees c.hub).glass =
      { ((⟨call, regs, t⟩ : Poll).sees c.hub).glass with indexedMode := b } := ⟨_, rfl⟩
  cases call with
  | processPacket data => exact processPacket_keeps rfl hc hw
  | tick => exact tick_keeps hc rfl
  | presentDoneNow =>
    have hoff : ((⟨.presentDoneNow, regs, t⟩ : Poll).sees c.hub).dmaEnable = false := hc.dma
    refine Within.of_eq ?_ fun judge => presentDoneNow_off hoff t judge
    exact .ok (hsame rfl _ ⟨hf, rfl, rfl, rfl, rfl, rfl, hglass⟩)
  | setHold on => exact .ok (hsame rfl _ ⟨hf, rfl, rfl, rfl, rfl, rfl, hglass⟩)
  | setCpuPixels on =>
    apply Within.ok
    cases on
    · exact hreset _ hf rfl rfl rfl
    · exact hsame rfl _ ⟨hf, rfl, rfl, rfl, rfl, rfl, hglass⟩
  | setHwFilter on => exact .ok (hsame rfl _ ⟨hf, rfl, rfl, rfl, rfl, rfl, hglass⟩)
  | forgetFrame => exact .ok (hreset _ hf rfl rfl rfl)
  | invalidateModeCache => exact .ok (hsame rfl _ ⟨hf, rfl, rfl, rfl, rfl, rfl, hglass⟩)

/-- From power-up, with the DMA off: if every packet drawn fills its chunk of a frame that covers the
image, in one format a frame, a frame that completes is complete. -/
theorem completes_covered (h : Hub75) (hoff : h.dmaEnable = false) {ps : List Poll}
    (hw : Always Step Whole ⟨{}, h, []⟩ ps) :
    Always Step (fun c p => CallsOnly presentAt (Covers (c.drawnAfter p)) (p.judging c.rx c.hub))
      ⟨{}, h, []⟩ ps := by
  apply Always.of_safe (I := Covered) _ _ _ hw
  · rintro c p c' hc hw ⟨o, ho, rfl⟩
    have hends := (judging_keeps hc hw).ends
    rw [Poll.judging_present] at hends
    exact hends o ho
  · intro c p hc hw
    exact (judging_keeps hc hw).calls
  · exact ⟨tallied_new, hoff, fun hz => absurd rfl hz⟩

/-- A card with an image of `width` by `length / width`, before its first packet. -/
def dark (width : BitVec 16) (length : BitVec 32) : Canvas :=
  ⟨{}, (Hub75.new (fun _ => 0) Registers.reset).setImgParam width length, []⟩

/-- One white pixel sent as the only chunk of an image of `width` by `height`. -/
def whitePixel (width height : Byte) : Poll :=
  ⟨.processPacket ⟨0, [letterB, letterM, 1, 0, 0, 1, width, 0, height, 0, 255, 255, 255]⟩,
    Registers.reset, 0⟩

theorem completes_covered_pixel :
    Always Step (fun c p => CallsOnly presentAt (Covers (c.drawnAfter p)) (p.judging c.rx c.hub))
      (dark 1 1) [whitePixel 1 1] := by
  apply completes_covered _ rfl
  refine ⟨?_, fun _ _ => trivial⟩
  intro d hd
  have hdraws : (dark 1 1).draws (whitePixel 1 1) = some ⟨false, false,
      [letterB, letterM, 1, 0, 0, 1, 1, 0, 1, 0, 255, 255, 255]⟩ := by decide +kernel
  cases hdraws.symm.trans hd
  refine ⟨⟨by decide +kernel, by decide +kernel⟩, fun _ e he => ?_⟩
  cases he

/-- `Covers` for one pixel, as a check. -/
def reaches (drawn : List PixelPacket) (i : ℕ) (s : BitmapReceiver × Hub75 × ℤ) : Bool :=
  decide (s.1.totalChunks = 0) || decide (s.1.totalChunks % 65536 - s.1.received ≠ 0) ||
    !passes (fun o => decide (o.hub.activeBuf ≠ s.2.1.activeBuf)) (presentAt s) ||
    decide (s.2.1.imgLen ≤ i) || drawn.any fun d => decide (d.start ≤ i ∧ i < d.start + d.pixels)

lemma reaches_of_covers {drawn : List PixelPacket} {s : BitmapReceiver × Hub75 × ℤ}
    (hc : Covers drawn s) (i : ℕ) : reaches drawn i s = true := by
  by_contra hn
  simp only [reaches, Bool.or_eq_true, not_or, decide_eq_true_eq, Bool.not_eq_true',
    Bool.not_eq_false, not_not, not_le, List.any_eq_true, not_exists, not_and] at hn
  obtain ⟨⟨⟨⟨hz, hm⟩, hpass⟩, hi⟩, hnone⟩ := hn
  obtain ⟨o, ho, hne⟩ := exists_of_passes hpass
  obtain ⟨d, hd, -, h₁, h₂, -⟩ := hc hz hm o ho (of_decide_eq_true hne) i hi
  exact hnone d hd h₁ h₂

/-- On an image of 800 pixels, that one completes a frame. -/
theorem pixel_completes : ¬ Always Step
    (fun c p => CallsOnly presentAt (Covers (c.drawnAfter p)) (p.judging c.rx c.hub))
    (dark 40 800) [whitePixel 40 20] := by
  rintro ⟨hcalls, -⟩
  have hsame := hcalls (fun s =>
      if reaches ((dark 40 800).drawnAfter (whitePixel 40 20)) 1 s then presentAt s
      else .error .indexOutOfBounds)
    fun s hs => if_pos (reaches_of_covers hs 1)
  have hpass := congrArg (passes fun _ => true) hsame
  revert hpass
  decide +kernel

end Canvas

end Ledwall.Receiver
