import Mathlib.Tactic

/-! Unending runs of a machine under a schedule, and what a fair schedule brings about. -/

namespace Ledwall.Library.Fairness

variable {σ ι : Type*}

/-- The state at time `n`. -/
def along (step : σ → ι → σ) (s : σ) (schedule : ℕ → ι) : ℕ → σ
  | 0 => s
  | n + 1 => step (along step s schedule n) (schedule n)

/-- Labels of this kind come again and again. -/
def Infinitely (p : ι → Prop) (schedule : ℕ → ι) : Prop := ∀ n, ∃ m, n ≤ m ∧ p (schedule m)

/-- Every step of the run meets `C`. -/
def Throughout (step : σ → ι → σ) (C : σ → ι → Prop) (s : σ) (schedule : ℕ → ι) : Prop :=
  ∀ n, C (along step s schedule n) (schedule n)

/-- From time `n` on, the run comes to a state in `Q`. -/
def Eventually (step : σ → ι → σ) (s : σ) (schedule : ℕ → ι) (Q : σ → Prop) (n : ℕ) : Prop :=
  ∃ m, n ≤ m ∧ Q (along step s schedule m)

variable {step : σ → ι → σ} {s : σ} {schedule : ℕ → ι} {C : σ → ι → Prop} {I Q Q' : σ → Prop}
  {n : ℕ}

lemma Throughout.invariant (hc : Throughout step C s schedule)
    (hkeep : ∀ s i, I s → C s i → I (step s i)) (hs : I s) (n : ℕ) :
    I (along step s schedule n) := by
  induction n with
  | zero => exact hs
  | succ n ih => exact hkeep _ _ ih (hc n)

lemma Eventually.here (h : Q (along step s schedule n)) : Eventually step s schedule Q n :=
  ⟨n, Nat.le_refl n, h⟩

lemma Eventually.trans (h : Eventually step s schedule Q n)
    (h' : ∀ m, Q (along step s schedule m) → Eventually step s schedule Q' m) :
    Eventually step s schedule Q' n := by
  obtain ⟨m, hm, hq⟩ := h
  obtain ⟨k, hk, hq'⟩ := h' m hq
  exact ⟨k, hm.trans hk, hq'⟩

section Variants

variable {P : ℕ → σ → Prop} {helpful : ι → Prop}

lemma persists (hc : Throughout step C s schedule)
    (hstep : ∀ k s i, P k s → C s i → Q (step s i) ∨ ∃ k', k' ≤ k ∧ P k' (step s i))
    {k : ℕ} (hp : P k (along step s schedule n)) (d : ℕ) :
    Eventually step s schedule Q n ∨ ∃ k', k' ≤ k ∧ P k' (along step s schedule (n + d)) := by
  induction d with
  | zero => exact .inr ⟨k, Nat.le_refl k, hp⟩
  | succ d ih =>
    rcases ih with hq | ⟨k', hk', hp'⟩
    · exact .inl hq
    · rcases hstep k' _ _ hp' (hc (n + d)) with hq | ⟨k'', hk'', hp''⟩
      · exact .inl ⟨n + d + 1, by omega, hq⟩
      · exact .inr ⟨k'', hk''.trans hk', hp''⟩

/-- The variant rule: what every step keeps without raising its variant, and a helpful step lowers,
comes to its end when helpful steps come again and again. By strong induction on the variant. -/
theorem eventually_of_variant (hfair : Infinitely helpful schedule)
    (hc : Throughout step C s schedule)
    (hstep : ∀ k s i, P k s → C s i →
      Q (step s i) ∨ ∃ k', k' ≤ k ∧ (helpful i → k' < k) ∧ P k' (step s i))
    {k : ℕ} (hp : P k (along step s schedule n)) : Eventually step s schedule Q n := by
  induction k using Nat.strong_induction_on generalizing n with
  | _ k ih =>
    obtain ⟨m, hm, hhelp⟩ := hfair n
    obtain ⟨d, rfl⟩ := Nat.exists_eq_add_of_le hm
    have hkeep : ∀ k s i, P k s → C s i → Q (step s i) ∨ ∃ k', k' ≤ k ∧ P k' (step s i) := by
      intro k s i hp hc
      rcases hstep k s i hp hc with hq | ⟨k', hk', -, hp'⟩
      · exact .inl hq
      · exact .inr ⟨k', hk', hp'⟩
    rcases persists hc hkeep hp d with hq | ⟨k', hk', hp'⟩
    · exact hq
    · rcases hstep k' _ _ hp' (hc (n + d)) with hq | ⟨k'', -, hlower, hp''⟩
      · exact ⟨n + d + 1, by omega, hq⟩
      · have hk'' : k'' < k := Nat.lt_of_lt_of_le (hlower hhelp) hk'
        obtain ⟨m, hm, hq⟩ := ih k'' hk'' (n := n + d + 1) hp''
        exact ⟨m, by omega, hq⟩

end Variants

lemma stays (hkeep : ∀ s i, Q s → Q (step s i)) {m : ℕ} (hnm : n ≤ m)
    (h : Q (along step s schedule n)) : Q (along step s schedule m) := by
  induction m, hnm using Nat.le_induction with
  | base => exact h
  | succ m _ ih => exact hkeep _ _ ih

end Ledwall.Library.Fairness
