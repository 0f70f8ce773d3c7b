import Ledwall.Gateware.DmaReads

/-! What the CPU reads of the DMA's registers describes one frame, while no frame change comes in
between. -/

namespace Ledwall.Gateware

open Ledwall.Wire

namespace Watched

variable {w : Watched} {is js : List Inputs}

lemma after_append (w : Watched) (is js : List Inputs) :
    w.after (is ++ js) = (w.after is).after js := List.foldl_append

lemma after_snoc (w : Watched) (is : List Inputs) (i : Inputs) :
    w.after (is ++ [i]) = (w.after is).next i := w.after_append is [i]

lemma changes_append (w : Watched) (is js : List Inputs) :
    w.changes (is ++ js) = w.changes is + (w.after is).changes js := by
  induction is generalizing w with
  | nil => exact (Nat.zero_add _).symm
  | cons i is ih =>
    rw [List.cons_append, changes, changes, ih, ← Nat.add_assoc]
    rfl

lemma counts_after (is : List Inputs) : (after {} is).Counts := by
  induction is using List.reverseRecOn with
  | nil => exact counts_start
  | append_singleton is i ih =>
    rw [after_snoc]
    exact ih.next i

lemma next_done (w : Watched) (i : Inputs) : (w.next i).path.dma.done =
    if w.path.dma.frameChange i then ⟨w.path.dma.arrival, w.path.dma.status, w.path.dma.done.seq + 1⟩
    else w.path.dma.done := (act_status _ _ _).2

lemma latched (is : List Inputs) : ∃ p, p <+: is ∧
    (after {} is).path.dma.done.arrival = (after {} p).path.dma.arrival ∧
    (after {} is).path.dma.done.status = (after {} p).path.dma.status := by
  induction is using List.reverseRecOn with
  | nil => exact ⟨[], List.nil_prefix, rfl, rfl⟩
  | append_singleton is i ih =>
    rw [after_snoc, next_done]
    split
    · exact ⟨is, List.prefix_append is [i], rfl, rfl⟩
    · obtain ⟨p, hp, harrival, hstatus⟩ := ih
      exact ⟨p, hp.trans (List.prefix_append is [i]), harrival, hstatus⟩

lemma next_seq (w : Watched) (i : Inputs) : (w.next i).path.dma.done.seq =
    w.path.dma.done.seq + BitVec.ofNat 16 (if w.path.dma.frameChange i then 1 else 0) := by
  rw [next_done]
  split
  · rfl
  · exact (BitVec.add_zero _).symm

lemma after_seq (w : Watched) (is : List Inputs) : (w.after is).path.dma.done.seq =
    w.path.dma.done.seq + BitVec.ofNat 16 (w.changes is) := by
  induction is generalizing w with
  | nil => exact (BitVec.add_zero _).symm
  | cons i is ih =>
    rw [changes, BitVec.ofNat_add, ← BitVec.add_assoc, ← next_seq, ← ih]
    rfl

lemma quiet (h : w.changes is = 0) : (w.after is).path.dma.status = w.path.dma.status ∧
    (w.after is).path.dma.done = w.path.dma.done ∧
    w.trace.written ⊆ (w.after is).trace.written := by
  induction is generalizing w with
  | nil => exact ⟨rfl, rfl, subset_rfl⟩
  | cons i is ih =>
    rw [changes, Nat.add_eq_zero_iff] at h
    have hn : w.path.dma.frameChange i = false := by
      by_contra hc
      rw [if_pos (by simpa using hc)] at h
      exact absurd h.1 (by decide)
    obtain ⟨hstatus, hdone, hwritten⟩ := ih h.2
    have hstatus₁ := next_status w i
    have hdone₁ := next_done w i
    have hwritten₁ := next_written w i
    rw [hn, if_neg Bool.false_ne_true] at hstatus₁ hdone₁ hwritten₁
    refine ⟨hstatus.trans hstatus₁, hdone.trans hdone₁, Finset.Subset.trans ?_ hwritten⟩
    rw [hwritten₁]
    split
    · exact Finset.subset_insert _ _
    · exact subset_rfl

lemma Counts.written_of_bit (h : w.Counts) (hmask : ∀ x ∈ w.trace.written, x.2 < 512) {k : ℕ}
    (hk : k < 512) (hbit : w.path.dma.arrival.getLsbD k = true) : w.Written k := by
  rw [h.arrival k hk, decide_eq_true_eq] at hbit
  obtain ⟨x, hx, rfl⟩ := Finset.mem_image.mp hbit
  rw [Nat.mod_eq_of_lt (hmask x hx), Written, ← h.written x hx]
  exact hx

end Watched

/-- No chunk written along the run is beyond the bitmap. -/
def InMask (seen : List Inputs) : Prop :=
  ∀ p, p <+: seen → ∀ x ∈ (Watched.after {} p).trace.written, x.2 < 512

namespace Bus

variable {b : Bus} {k m n : ℕ}

lemma changes_split (hm : m ≤ k) (hn : k ≤ n) :
    b.changesBetween m n = b.changesBetween m k + b.changesBetween k n := by
  have hsplit : n - m = (k - m) + (n - k) := by omega
  rw [changesBetween, hsplit, List.take_add, List.flatten_append, Watched.changes_append,
    ← Watched.after_append, ← seen_skip b hm, List.drop_drop, Nat.add_sub_cancel' hm]
  rfl

lemma after_skip (h : m ≤ n) : Watched.after {} (b.skip n).seen =
    (Watched.after {} (b.skip m).seen).after ((b.gaps.drop m).take (n - m)).flatten := by
  rw [seen_skip b h, Watched.after_append]

lemma quiet (h : m ≤ n) (hq : b.changesBetween m n = 0) :
    (b.skip n).pixdma.status = (b.skip m).pixdma.status ∧
    (b.skip n).pixdma.done = (b.skip m).pixdma.done ∧
    (Watched.after {} (b.skip m).seen).trace.written ⊆
      (Watched.after {} (b.skip n).seen).trace.written := by
  rw [pixdma, after_skip h]
  exact Watched.quiet hq

lemma seq_skip (h : m ≤ n) : (b.skip n).pixdma.done.seq =
    (b.skip m).pixdma.done.seq + BitVec.ofNat 16 (b.changesBetween m n) := by
  rw [pixdma, after_skip h]
  exact Watched.after_seq _ _

lemma prefix_skip (h : m ≤ n) : (b.skip m).seen <+: (b.skip n).seen := by
  rw [seen_skip b h]
  exact List.prefix_append _ _

lemma describes_arrival (hmask : InMask (b.skip n).seen) (hn : m + 32 ≤ n)
    (hq : b.changesBetween m n = 0) :
    Describes (b.skip n).seen (wordsAt Hub75UdpDma.arrival b m)
      fun s => s.frameId = (b.skip m).pixdma.status.frameId := by
  obtain ⟨hstatus, -, -⟩ := quiet (by omega) hq
  refine ⟨_, List.prefix_rfl, congrArg FrameStatus.frameId hstatus, ?_⟩
  intro k hk hbit
  have hfrom : m ≤ m + (2 * (k / 32) + 2) := Nat.le_add_right _ _
  have hto : m + (2 * (k / 32) + 2) ≤ n := by omega
  rw [wordsAt, chunkBit_words (fun j => (b.skip (m + (2 * j + 2))).pixdma.arrival) hk] at hbit
  generalize m + (2 * (k / 32) + 2) = l at hfrom hto hbit
  rw [changes_split hfrom hto, Nat.add_eq_zero_iff] at hq
  obtain ⟨hstatus', -, hwritten⟩ := quiet hto hq.2
  have hon := hwritten ((Watched.counts_after (b.skip l).seen).written_of_bit
    (hmask _ (prefix_skip hto)) hk hbit)
  rwa [show (Watched.after {} (b.skip l).seen).path.dma.status.frameId = _ from
    (congrArg FrameStatus.frameId hstatus').symm] at hon

lemma describes_done (hmask : InMask (b.skip n).seen) (hn : m + 36 ≤ n)
    (hq : b.changesBetween m n = 0) :
    Describes (b.skip n).seen (wordsAt (fun s => s.done.arrival) b m) fun s =>
      s = ⟨(b.skip (m + 33)).pixdma.done.status.frameId,
        (b.skip (m + 34)).pixdma.done.status.totalChunks,
        (b.skip (m + 35)).pixdma.done.status.indexed⟩ := by
  have hdone {l : ℕ} (hfrom : m ≤ l) (hto : l ≤ n) :
      (b.skip l).pixdma.done = (b.skip m).pixdma.done := by
    have hl := hq
    rw [changes_split hfrom hto, Nat.add_eq_zero_iff] at hl
    exact (quiet hfrom hl.1).2.1
  obtain ⟨p, hp, harrival, hstatus⟩ := Watched.latched (b.skip m).seen
  have hpn := hp.trans (prefix_skip (b := b) (show m ≤ n by omega))
  refine ⟨p, hpn, ?_, ?_⟩
  · rw [hdone (l := m + 33) (by omega) (by omega), hdone (l := m + 34) (by omega) (by omega),
      hdone (l := m + 35) (by omega) (by omega)]
    exact hstatus.symm
  · intro k hk hbit
    rw [wordsAt, chunkBit_words (fun j => (b.skip (m + (2 * j + 2))).pixdma.done.arrival) hk,
      hdone (by omega) (by omega)] at hbit
    rw [show (b.skip m).pixdma.done.arrival = _ from harrival] at hbit
    exact (Watched.counts_after p).written_of_bit (hmask p hpn) hk hbit

lemma describes_identity (hq : b.changesBetween 2 4 = 0) :
    Describes (b.skip 4).seen [] fun s => s = ⟨(b.skip 2).pixdma.status.frameId,
      (b.skip 3).pixdma.status.totalChunks, (b.skip 4).pixdma.status.indexed⟩ := by
  have hsplit := hq
  rw [changes_split (m := 2) (k := 3) (n := 4) (by decide) (by decide), Nat.add_eq_zero_iff]
    at hsplit
  refine ⟨_, List.prefix_rfl, ?_, ?_⟩
  · rw [← (quiet (by decide) hq).1, ← (quiet (by decide) hsplit.2).1]
    rfl
  · intro k _ hbit
    simp [chunkBit] at hbit

end Bus

/-- From any state of any run, with the accesses of the CPU spread out over it at will: what the three
reads return describes one frame, as long as no frame change comes between their first and their last
access to it (for the finished frame: none, or a number of them that shows in `done_seq`). -/
theorem reads_describe (b : Bus) (hmask : InMask (b.skip 38).seen) :
    (b.changesBetween 2 34 = 0 → ∀ words fid, (dmaArrival b).1 = some (words, fid) →
      Describes (b.skip 34).seen words fun s => s.frameId = fid) ∧
    (b.changesBetween 2 38 = 0 ∨ ¬ 65536 ∣ b.changesBetween 2 38 →
      ∀ words s seq, (dmaDoneFrame b).1 = some (words, s, seq) →
      Describes (b.skip 38).seen words fun t => t = s) ∧
    (b.changesBetween 2 4 = 0 → ∀ s, (dmaFrameIdentity b).1 = some s →
      Describes (b.skip 4).seen [] fun t => t = s) := by
  refine ⟨?_, ?_, ?_⟩
  · intro hq words fid h
    obtain ⟨sel, hrun⟩ := dmaArrival_run b
    rw [hrun] at h
    split at h
    · obtain ⟨rfl, rfl⟩ := Prod.mk.inj (Option.some.inj h)
      exact Bus.describes_arrival (fun p hp => hmask p (hp.trans (Bus.prefix_skip (by decide))))
        (by decide) hq
    · cases h
  · intro hq words s seq h
    obtain ⟨sel, hrun⟩ := dmaDoneFrame_run b
    rw [hrun] at h
    split at h
    · dsimp only at h
      rw [bracketed] at h
      split at h
      · cases h
      · rename_i hseq
        have hzero : b.changesBetween 2 38 = 0 := by
          apply hq.resolve_right
          intro hn
          apply hn
          have hadd := Bus.seq_skip (b := b) (show 2 ≤ 38 by decide)
          rw [not_not.mp hseq] at hadd
          have hofNat : BitVec.ofNat 16 (b.changesBetween 2 38) = 0 := BitVec.self_eq_add_right.mp hadd
          have hnat := congrArg BitVec.toNat hofNat
          rw [BitVec.toNat_ofNat] at hnat
          exact Nat.dvd_of_mod_eq_zero hnat
        obtain ⟨rfl, hrest⟩ := Prod.mk.inj (Option.some.inj h)
        obtain ⟨rfl, -⟩ := Prod.mk.inj hrest
        exact Bus.describes_done hmask (by decide) hzero
    · cases h
  · intro hq s h
    rw [dmaFrameIdentity_run] at h
    split at h
    · obtain rfl := Option.some.inj h
      exact Bus.describes_identity hq
    · cases h

/-- Chunk 0 of frame 1 has come when the CPU starts to read; chunk 1 of frame 2 comes after its read of
`frame_id`. -/
def tornRead : Bus where
  seen := feed 1 [0x42, 0x4D, 1, 0, 0, 2, 0, 0, 0, 0, 1, 2, 3]
  gaps := [[], [], feed 1 [0x42, 0x4D, 2, 0, 1, 2, 0, 0, 0, 0, 1, 2, 3]]

theorem tornRead_mixes : ∃ words fid, (dmaArrival tornRead).1 = some (words, fid) ∧
    ¬ Describes (tornRead.skip 34).seen words fun s => s.frameId = fid := by
  refine ⟨2 :: List.replicate 15 0, 1, by decide +kernel, ?_⟩
  rintro ⟨p, hp, hframe, hbits⟩
  have hall : ∀ p ∈ (tornRead.skip 34).seen.inits,
      (Watched.after {} p).path.dma.status.frameId = 1 → ¬ (Watched.after {} p).Written 1 := by
    decide +kernel
  exact hall p ((List.mem_inits _ _).mpr hp) hframe (hbits 1 (by decide) (by decide))

/-- The same, with the CPU done before the second frame comes. -/
def wholeRead : Bus := { tornRead with gaps := [] }

theorem reads_describe_wholeRead : ∃ words, (dmaArrival wholeRead).1 = some (words, 1) ∧
    chunkBit words 0 = true ∧ Describes (wholeRead.skip 34).seen words fun s => s.frameId = 1 := by
  have hall : ∀ p ∈ (wholeRead.skip 38).seen.inits,
      ∀ x ∈ (Watched.after {} p).trace.written, x.2 < 512 := by
    decide +kernel
  have hwords : (dmaArrival wholeRead).1 = some (1 :: List.replicate 15 0, 1) := by decide +kernel
  exact ⟨_, hwords, by decide, (reads_describe wholeRead
    fun p hp => hall p ((List.mem_inits _ _).mpr hp)).1 rfl _ _ hwords⟩

end Ledwall.Gateware
