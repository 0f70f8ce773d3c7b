import Ledwall.Library.Fairness

/-! The splitter in front of the two branches of the receive path. -/

namespace Ledwall.Gateware

open Library.Fairness

structure SmolEthStreamSplitter where
  source1AlreadyRead : Bool := false
  source2AlreadyRead : Bool := false
  deriving DecidableEq, Repr

/-- Whether a beat is on offer, and which consumers are ready. -/
structure SplitTick where
  valid : Bool
  ready1 : Bool
  ready2 : Bool
  deriving DecidableEq, Repr

namespace SmolEthStreamSplitter

variable (s : SmolEthStreamSplitter) (c : SplitTick)

def source1Valid : Bool := c.valid && !s.source1AlreadyRead

def source2Valid : Bool := c.valid && !s.source2AlreadyRead

def sinkReady : Bool :=
  (c.ready1 || s.source1AlreadyRead) && (c.ready2 || s.source2AlreadyRead)

def next : SmolEthStreamSplitter :=
  if c.valid && s.sinkReady c then {}
  else if c.valid then ⟨s.source1AlreadyRead || c.ready1, s.source2AlreadyRead || c.ready2⟩
  else s

end SmolEthStreamSplitter

/-- The splitter, the number of beats it has taken, and what it has handed to its consumers. -/
structure Split (α : Type) where
  splitter : SmolEthStreamSplitter := {}
  taken : ℕ := 0
  handed1 : List α := []
  handed2 : List α := []

namespace Split

variable {α : Type} (beats : ℕ → α)

def takes (w : Split α) (c : SplitTick) : Bool := c.valid && w.splitter.sinkReady c

/-- The beat on offer is the next one that has not been taken. -/
def next (w : Split α) (c : SplitTick) : Split α where
  splitter := w.splitter.next c
  taken := if w.takes c then w.taken + 1 else w.taken
  handed1 := w.handed1 ++ if w.splitter.source1Valid c && c.ready1 then [beats w.taken] else []
  handed2 := w.handed2 ++ if w.splitter.source2Valid c && c.ready2 then [beats w.taken] else []

/-- The beats that have been taken, and of the one on offer what its consumer has read. -/
def Ordered (w : Split α) : Prop :=
  w.handed1 = (List.range (w.taken + w.splitter.source1AlreadyRead.toNat)).map beats ∧
    w.handed2 = (List.range (w.taken + w.splitter.source2AlreadyRead.toNat)).map beats

variable {beats}

lemma Ordered.next {w : Split α} (h : w.Ordered beats) (c : SplitTick) :
    (w.next beats c).Ordered beats := by
  obtain ⟨⟨a1, a2⟩, n, h1, h2⟩ := w
  obtain ⟨valid, r1, r2⟩ := c
  have h1 : h1 = (List.range (n + a1.toNat)).map beats := h.1
  have h2 : h2 = (List.range (n + a2.toNat)).map beats := h.2
  cases valid <;> cases a1 <;> cases a2 <;> cases r1 <;> cases r2 <;>
    simp [Ordered, Split.next, takes, h1, h2, SmolEthStreamSplitter.next, SmolEthStreamSplitter.sinkReady,
      SmolEthStreamSplitter.source1Valid, SmolEthStreamSplitter.source2Valid, List.range_succ]

variable (beats) (ticks : ℕ → SplitTick)

def stateAt (t : ℕ) : Split α := along (next beats) {} ticks t

/-- Every beat goes once and in order to each of the two, and as long as either of them comes to be
ready while it is on offer, to both. -/
structure HandsOnce : Prop where
  once (t : ℕ) : ∃ j ≤ 1, ∃ k ≤ 1,
    (stateAt beats ticks t).handed1 = (List.range ((stateAt beats ticks t).taken + j)).map beats ∧
    (stateAt beats ticks t).handed2 = (List.range ((stateAt beats ticks t).taken + k)).map beats
  every (n : ℕ) : (∀ t, (stateAt beats ticks t).taken < n →
      (∃ u ≥ t, (ticks u).valid = true ∧ (ticks u).ready1 = true) ∧
        ∃ u ≥ t, (ticks u).valid = true ∧ (ticks u).ready2 = true) →
    ∃ t₀, ∀ t ≥ t₀, (List.range n).map beats <+: (stateAt beats ticks t).handed1 ∧
      (List.range n).map beats <+: (stateAt beats ticks t).handed2

variable {beats} {ticks}

lemma ordered (t : ℕ) : (stateAt beats ticks t).Ordered beats := by
  induction t with
  | zero => exact ⟨rfl, rfl⟩
  | succ t ih => exact ih.next (ticks t)

lemma taken_succ (t : ℕ) : (stateAt beats ticks (t + 1)).taken =
    if (stateAt beats ticks t).takes (ticks t) then (stateAt beats ticks t).taken + 1
    else (stateAt beats ticks t).taken := rfl

lemma taken_mono {t u : ℕ} (h : t ≤ u) :
    (stateAt beats ticks t).taken ≤ (stateAt beats ticks u).taken := by
  induction u, h using Nat.le_induction with
  | base => exact Nat.le_refl _
  | succ u _ ih =>
    rw [taken_succ]
    split <;> omega

lemma splitter_succ {t : ℕ} (h : (stateAt beats ticks t).takes (ticks t) = false) :
    (stateAt beats ticks (t + 1)).splitter =
      ⟨(stateAt beats ticks t).splitter.source1AlreadyRead || (ticks t).valid && (ticks t).ready1,
        (stateAt beats ticks t).splitter.source2AlreadyRead ||
          (ticks t).valid && (ticks t).ready2⟩ := by
  change (stateAt beats ticks t).splitter.next (ticks t) = _
  rw [takes] at h
  rw [SmolEthStreamSplitter.next, h]
  cases (ticks t).valid <;> simp

lemma takes_eventually {t n : ℕ} (hn : (stateAt beats ticks t).taken = n)
    (h1 : ∃ u ≥ t, (ticks u).valid = true ∧ (ticks u).ready1 = true)
    (h2 : ∀ t, (stateAt beats ticks t).taken = n →
      ∃ u ≥ t, (ticks u).valid = true ∧ (ticks u).ready2 = true) :
    ∃ u, n < (stateAt beats ticks u).taken := by
  by_contra hnever
  push Not at hnever
  have hstuck : ∀ u ≥ t, (stateAt beats ticks u).taken = n := by
    intro u hu
    exact Nat.le_antisymm (hnever u) (hn ▸ taken_mono hu)
  have hrefused : ∀ u ≥ t, (stateAt beats ticks u).takes (ticks u) = false := by
    intro u hu
    apply Bool.eq_false_iff.mpr
    intro htakes
    have hsucc := hnever (u + 1)
    rw [taken_succ, if_pos htakes, hstuck u hu] at hsucc
    omega
  obtain ⟨u, hu, hvalid, hready⟩ := h1
  have hread : ∀ v ≥ u + 1, (stateAt beats ticks v).splitter.source1AlreadyRead = true := by
    intro v hv
    induction v, hv using Nat.le_induction with
    | base => rw [splitter_succ (hrefused u hu), hvalid, hready, Bool.and_true, Bool.or_true]
    | succ v hv ih => rw [splitter_succ (hrefused v (by omega)), ih, Bool.true_or]
  obtain ⟨v, hv, hvalid', hready'⟩ := h2 (u + 1) (hstuck _ (by omega))
  have htakes := hrefused v (by omega)
  rw [takes, SmolEthStreamSplitter.sinkReady, hvalid', hready', hread v hv] at htakes
  simp at htakes

lemma taken_eventually {n : ℕ} (h : ∀ t, (stateAt beats ticks t).taken < n →
      (∃ u ≥ t, (ticks u).valid = true ∧ (ticks u).ready1 = true) ∧
        ∃ u ≥ t, (ticks u).valid = true ∧ (ticks u).ready2 = true) :
    ∃ t₀, ∀ t ≥ t₀, n ≤ (stateAt beats ticks t).taken := by
  induction n with
  | zero => exact ⟨0, fun _ _ => Nat.zero_le _⟩
  | succ n ih =>
    obtain ⟨t, ht⟩ := ih fun t ht => h t (by omega)
    rcases Nat.lt_or_ge n (stateAt beats ticks t).taken with hlt | hle
    · exact ⟨t, fun u hu => hlt.trans_le (taken_mono hu)⟩
    · have hn : (stateAt beats ticks t).taken = n := Nat.le_antisymm hle (ht t (Nat.le_refl t))
      obtain ⟨u, hu⟩ := takes_eventually hn (h t (by omega)).1 fun v hv => (h v (by omega)).2
      exact ⟨u, fun v hv => hu.trans_le (taken_mono hv)⟩

lemma map_range_mono {m n : ℕ} (h : n ≤ m) :
    (List.range n).map beats <+: (List.range m).map beats := by
  obtain ⟨d, rfl⟩ := Nat.exists_eq_add_of_le h
  rw [List.range_add, List.map_append]
  exact List.prefix_append _ _

theorem handsOnce (beats : ℕ → α) (ticks : ℕ → SplitTick) : HandsOnce beats ticks where
  once t := ⟨_, Bool.toNat_le _, _, Bool.toNat_le _, ordered t⟩
  every n h := by
    obtain ⟨t₀, ht₀⟩ := taken_eventually h
    refine ⟨t₀, ?_⟩
    intro t ht
    obtain ⟨h1, h2⟩ := @ordered α beats ticks t
    have hle := ht₀ t ht
    rw [h1, h2]
    exact ⟨map_range_mono (by omega), map_range_mono (by omega)⟩

end Split

end Ledwall.Gateware
