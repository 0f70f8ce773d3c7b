import Ledwall.Gateware.Framing

/-! Which frames the hardware swap shows: the counter, the bitmap and the chunks written. -/

namespace Ledwall.Gateware

open Ledwall.Library.Runs Ledwall.Wire

namespace Watched

/-- Chunk `k` of the frame on was written to its end. -/
def Written (w : Watched) (k : ℕ) : Prop := (w.path.dma.status.frameId, k) ∈ w.trace.written

instance (w : Watched) (k : ℕ) : Decidable (w.Written k) :=
  inferInstanceAs (Decidable (_ ∈ w.trace.written))

/-- Every chunk the frame's header promised was written to its end. -/
def Whole (w : Watched) : Prop := ∀ k < w.path.dma.status.totalChunks.toNat, w.Written k

/-- The low nine bits of every chunk written name a chunk of the frame that was written itself. -/
def Plain (w : Watched) : Prop :=
  ∀ x ∈ w.trace.written, x.2 % 512 < w.path.dma.status.totalChunks.toNat ∧ w.Written (x.2 % 512)

/-- The bits of the bitmap the chunks written have set. -/
def slots (w : Watched) : Finset ℕ := w.trace.written.image fun x => x.2 % 512

/-- The invariant that ties the counter and the bitmap to the chunks written. -/
structure Counts (w : Watched) : Prop where
  reads : Reads w.path.dma w.trace
  frame : w.path.dma.fsm = .pix → w.path.dma.header.frameId = w.path.dma.status.frameId
  written : ∀ x ∈ w.trace.written, x.1 = w.path.dma.status.frameId
  arrival : ∀ k < 512, w.path.dma.arrival.getLsbD k = decide (k ∈ w.slots)
  received : w.path.dma.received.toNat = w.slots.card

variable {w : Watched} {i : Inputs}

lemma slots_lt {k : ℕ} (hk : k ∈ w.slots) : k < 512 := by
  obtain ⟨x, -, rfl⟩ := Finset.mem_image.mp hk
  exact Nat.mod_lt _ (by decide)

lemma slots_card_le (w : Watched) : w.slots.card ≤ 512 := by
  have hsub : w.slots ⊆ Finset.range 512 := fun k hk => Finset.mem_range.mpr (slots_lt hk)
  exact (Finset.card_le_card hsub).trans_eq (Finset.card_range 512)

lemma Counts.whole_iff (h : w.Counts)
    (hr : w.path.dma.received = w.path.dma.status.totalChunks) : w.Whole ↔ w.Plain := by
  have hcard : w.slots.card = w.path.dma.status.totalChunks.toNat := by
    rw [← h.received, hr]
  have hle := w.slots_card_le
  rw [hcard] at hle
  have mem_slots {k : ℕ} (hk : w.Written k) (hlt : k < 512) : k ∈ w.slots :=
    Finset.mem_image.mpr ⟨_, hk, Nat.mod_eq_of_lt hlt⟩
  constructor
  · intro hw x hx
    have hrange : Finset.range w.path.dma.status.totalChunks.toNat = w.slots := by
      apply Finset.eq_of_subset_of_card_le
      · intro k hk
        have hk := Finset.mem_range.mp hk
        exact mem_slots (hw k hk) (hk.trans_le hle)
      · rw [Finset.card_range, hcard]
    have hin : x.2 % 512 ∈ w.slots := Finset.mem_image_of_mem _ hx
    rw [← hrange, Finset.mem_range] at hin
    exact ⟨hin, hw _ hin⟩
  · intro hp k hk
    have hrange : w.slots = Finset.range w.path.dma.status.totalChunks.toNat := by
      apply Finset.eq_of_subset_of_card_le
      · intro j hj
        obtain ⟨x, hx, rfl⟩ := Finset.mem_image.mp hj
        exact Finset.mem_range.mpr (hp x hx).1
      · rw [Finset.card_range, hcard]
    have hin : k ∈ w.slots := by
      rw [hrange]
      exact Finset.mem_range.mpr hk
    obtain ⟨x, hx, rfl⟩ := Finset.mem_image.mp hin
    exact (hp x hx).2

lemma counts_start : Counts {} := by
  refine ⟨.of_idle (.inl rfl) _, ?_, ?_, ?_, rfl⟩
  · intro h
    cases h
  · intro x hx
    exact absurd hx (Finset.notMem_empty x)
  · intro k _
    exact BitVec.getLsbD_zero

lemma next_written (w : Watched) (i : Inputs) :
    (w.next i).trace.written =
      if w.path.dma.frameChange i then ∅
      else if w.path.dma.setArrival i then
        insert (w.trace.header.frameId, w.trace.header.chunkIndex.toNat) w.trace.written
      else w.trace.written := by
  change (if w.path.dma.frameChange i then ∅ else _) = _
  congr 1
  rw [Hub75UdpDma.setArrival]
  cases hk : w.path.dma.taken i with
  | none => simp only [Option.any_none, Bool.and_false, Bool.false_eq_true, if_false]
  | some b =>
    cases hs : w.path.dma.fsm <;> simp only [Trace.take, hs]
    · split <;> rfl
    · rfl
    · rfl
    · rfl

lemma next_status (w : Watched) (i : Inputs) : (w.next i).path.dma.status =
    if w.path.dma.frameChange i then ⟨w.path.dma.header.frameId, w.path.dma.header.totalChunks,
      w.path.dma.header.indexed⟩ else w.path.dma.status := (act_status _ _ _).1

lemma of_upTo {b : Beat} {f g : Fsm} (h : b.upTo f = g) (hg : g ≠ .idle) : f = g := by
  rw [Beat.upTo] at h
  split at h
  · exact absurd h.symm hg
  · exact h

lemma header_of_pix {s : Hub75UdpDma} {d : BitVec 20} (hs : (s.next d i).fsm = .pix) :
    (s.next d i).header = s.header ∧ (s.fsm = .pix ∨ s.commits i = true) := by
  have absurd_upTo {b : Beat} {f : Fsm} (h : (s.next d i).fsm = b.upTo f) (hf : f ≠ .pix) : False :=
    hf (of_upTo (h.symm.trans hs) (by decide))
  cases edge s d i with
  | quiet hne _ hf _ => exact absurd (hf.symm.trans hs) hne
  | ignored _ _ _ _ hf _ => cases hf.symm.trans hs
  | start _ _ _ _ _ hf _ => cases hf.symm.trans hs
  | refused _ _ _ _ _ hf => exact (absurd_upTo hf (by decide)).elim
  | magic _ _ _ _ _ hf _ => exact (absurd_upTo hf (by decide)).elim
  | rejected _ _ _ _ _ hf => exact (absurd_upTo hf (by decide)).elim
  | field _ _ _ _ _ hf _ => exact (absurd_upTo hf (by decide)).elim
  | commit b hhdr hk hl _ hp =>
    refine ⟨congrArg Parse.header hp, .inr ?_⟩
    rw [taken_of_ne (hhdr.trans_ne (by decide))] at hk
    simp only [Hub75UdpDma.commits, hhdr, hk, hl, Option.isSome_some, BEq.rfl, Bool.and_self]
  | blocked hpix _ _ hp => exact ⟨congrArg Parse.header hp, .inl hpix⟩
  | colour _ hpix _ _ _ hp => exact ⟨congrArg Parse.header hp, .inl hpix⟩
  | pixel _ hpix _ _ _ hp => exact ⟨congrArg Parse.header hp, .inl hpix⟩
  | skipped _ _ _ hf => exact (absurd_upTo hf (by decide)).elim

lemma Counts.frame_next (h : w.Counts) (i : Inputs) (hs : (w.next i).path.dma.fsm = .pix) :
    (w.next i).path.dma.header.frameId = (w.next i).path.dma.status.frameId := by
  obtain ⟨hheader, hpix | hc⟩ := header_of_pix hs
  · have hn := not_frameChange (not_commits_of_ne (hpix.trans_ne (by decide)) i)
    rw [next_status, hn]
    exact (congrArg Header.frameId hheader).trans (h.frame hpix)
  · rw [next_status]
    refine (congrArg Header.frameId hheader).trans ?_
    cases hn : w.path.dma.frameChange i with
    | true => rfl
    | false =>
      rw [Hub75UdpDma.frameChange, hc, Bool.true_and, bne_eq_false_iff_eq] at hn
      exact hn

lemma getLsbD_set (x : BitVec 512) (n : ℕ) {k : ℕ} (hk : k < 512) :
    (x ||| 1#512 <<< n).getLsbD k = (x.getLsbD k || decide (n = k)) := by
  rw [BitVec.getLsbD_or, ← BitVec.twoPow_eq, BitVec.getLsbD_twoPow]
  congr 1
  by_cases he : n = k
  · rw [decide_eq_true he, decide_eq_true (he.trans_lt hk), Bool.and_self]
  · rw [decide_eq_false he, Bool.and_false]

lemma Counts.next (h : w.Counts) (i : Inputs) : (w.next i).Counts := by
  have hwritten := next_written w i
  have harrival : (w.next i).path.dma.arrival = w.path.dma.nextArrival i := rfl
  have hreceived : (w.next i).path.dma.received = w.path.dma.nextReceived i := rfl
  have hstatus := next_status w i
  cases hc : w.path.dma.frameChange i with
  | true =>
    rw [hc, if_pos rfl] at hwritten
    rw [Hub75UdpDma.nextArrival, hc, if_pos rfl] at harrival
    rw [Hub75UdpDma.nextReceived, hc, if_pos rfl] at hreceived
    have hslots : (w.next i).slots = ∅ := by
      rw [slots, hwritten, Finset.image_empty]
    refine ⟨h.reads.next i, h.frame_next i, ?_, ?_, ?_⟩
    · intro x hx
      rw [hwritten] at hx
      exact absurd hx (Finset.notMem_empty x)
    · intro k _
      rw [harrival, hslots]
      exact BitVec.getLsbD_zero
    · rw [hreceived, hslots]
      rfl
  | false =>
    rw [hc, if_neg Bool.false_ne_true] at hwritten hstatus
    rw [Hub75UdpDma.nextArrival, hc, if_neg Bool.false_ne_true] at harrival
    rw [Hub75UdpDma.nextReceived, hc, if_neg Bool.false_ne_true] at hreceived
    cases hset : w.path.dma.setArrival i with
    | false =>
      rw [hset, if_neg Bool.false_ne_true] at hwritten harrival
      rw [hset, Bool.false_and, if_neg Bool.false_ne_true] at hreceived
      have hslots : (w.next i).slots = w.slots := by rw [slots, hwritten, slots]
      refine ⟨h.reads.next i, h.frame_next i, ?_, ?_, ?_⟩
      · rw [hwritten, hstatus]
        exact h.written
      · rw [harrival, hslots]
        exact h.arrival
      · rw [hreceived, hslots]
        exact h.received
    | true =>
      have hpix : w.path.dma.fsm = .pix := by
        simp only [Hub75UdpDma.setArrival, Bool.and_eq_true, beq_iff_eq] at hset
        exact hset.1
      have hheader : w.path.dma.header = w.trace.header := (h.reads.inPixels hpix).header
      have hmod : w.path.dma.header.chunkIndex.toNat % 512 < 512 := Nat.mod_lt _ (by decide)
      rw [hset, if_pos rfl] at hwritten harrival
      rw [hset, Bool.true_and] at hreceived
      have hslots : (w.next i).slots =
          insert (w.path.dma.header.chunkIndex.toNat % 512) w.slots := by
        rw [slots, hwritten, Finset.image_insert, hheader]
        rfl
      refine ⟨h.reads.next i, h.frame_next i, ?_, ?_, ?_⟩
      · intro x hx
        rw [hwritten, Finset.mem_insert] at hx
        rw [hstatus]
        rcases hx with rfl | hx
        · rw [← hheader]
          exact h.frame hpix
        · exact h.written x hx
      · intro k hk
        rw [harrival, getLsbD_set _ _ hk, h.arrival k hk, hslots, Bool.eq_iff_iff]
        simp only [Bool.or_eq_true, decide_eq_true_eq, Finset.mem_insert]
        rw [or_comm, eq_comm]
      · rw [hreceived, hslots, Hub75UdpDma.alreadySeen, h.arrival _ hmod]
        by_cases hin : w.path.dma.header.chunkIndex.toNat % 512 ∈ w.slots
        · rw [decide_eq_true hin, Finset.insert_eq_of_mem hin]
          exact h.received
        · have hle := slots_card_le (w.next i)
          rw [hslots, Finset.card_insert_of_notMem hin] at hle
          rw [decide_eq_false hin, Finset.card_insert_of_notMem hin]
          change (w.path.dma.received + 1).toNat = _
          rw [BitVec.toNat_add, h.received]
          change (w.slots.card + 1) % 65536 = _
          omega

/-- Over every run from reset: a frame change shows the outgoing frame only if it is whole, exactly
when the count does not match or the chunks written are the frame's own. -/
theorem swap_whole_iff (is : List Inputs) :
    Always Step (fun w i => i.swapWholeOnly = true → w.path.dma.frameChange i = true →
      ((w.path.dma.swapReq i = true → w.Whole) ↔
        (w.path.dma.received = w.path.dma.status.totalChunks → w.Plain))) {} is := by
  refine Always.of_safe (I := Counts) (C := fun _ _ => True) ?_ ?_ counts_start
    (Always.of_forall fun _ _ => trivial)
  · rintro w i _ h - rfl
    exact h.next i
  · intro w i h _ honly hchange
    have hswap : w.path.dma.swapReq i = true ↔
        w.path.dma.received = w.path.dma.status.totalChunks := by
      simp only [Hub75UdpDma.swapReq, hchange, honly, Hub75UdpDma.outgoingWhole, Bool.not_true,
        Bool.or_false, Bool.true_and, beq_iff_eq]
    rw [hswap]
    exact forall_congr' fun hr => h.whole_iff hr

/-- Chunks 0 and 5 of a frame of two, one pixel each, then a chunk of the next frame. -/
def strayChunk : List Inputs :=
  feed 1 [0x42, 0x4D, 1, 0, 0, 2, 0, 0, 0, 0, 1, 2, 3] ++
    feed 1 [0x42, 0x4D, 1, 0, 5, 2, 0, 0, 0, 0, 1, 2, 3] ++
    feed 1 [0x42, 0x4D, 2, 0, 0, 2, 0, 0, 0, 0, 1, 2, 3]

theorem strayChunk_swaps :
    ¬ Always Step (fun w i => i.swapWholeOnly = true → w.path.dma.swapReq i = true → w.Whole) {}
      strayChunk := by
  intro h
  have hsplit : strayChunk = strayChunk.take 35 ++
      ⟨some ⟨0, false⟩, true, true, 1, 0, true, false, false, none⟩ :: strayChunk.drop 36 := rfl
  rw [hsplit] at h
  have hwhole := h.at_prefix (run_after {} (strayChunk.take 35)) rfl (by decide +kernel)
  exact absurd (hwhole 1 (by decide +kernel)) (by decide +kernel)

end Watched

end Ledwall.Gateware
