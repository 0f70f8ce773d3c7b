import Mathlib.Tactic

/-! Computations in `Except`: postconditions of those that return, and counted loops. -/

namespace Ledwall.Library.Outcomes

universe u

section Postconditions

variable {ε α β : Type*} {P : α → Prop} {Q : β → Prop}

/-- If `x` returns, what it returns satisfies `P`. -/
def Ensures (P : α → Prop) (x : Except ε α) : Prop := ∀ a, x = .ok a → P a

lemma Ensures.ok {a : α} (h : P a) : Ensures P (.ok a : Except ε α) := by
  intro b hb
  cases hb
  exact h

lemma Ensures.error (P : α → Prop) (e : ε) : Ensures P (.error e) := by
  intro b hb
  cases hb

lemma Ensures.bind {x : Except ε α} {f : α → Except ε β} (hx : Ensures P x)
    (hf : ∀ a, P a → Ensures Q (f a)) : Ensures Q (x.bind f) := by
  cases x with
  | error e => exact .error Q e
  | ok a => exact hf a (hx a rfl)

lemma Ensures.mono {R : α → Prop} {x : Except ε α} (hx : Ensures P x) (h : ∀ a, P a → R a) :
    Ensures R x := by
  intro a ha
  apply h
  exact hx a ha

lemma Ensures.foldlM {f : β → α → Except ε β} {xs : List α} {b : β} (hb : Q b)
    (hs : ∀ b, Q b → ∀ a ∈ xs, Ensures Q (f b a)) : Ensures Q (xs.foldlM f b) := by
  induction xs generalizing b with
  | nil => exact .ok hb
  | cons a as ih =>
    rw [List.foldlM_cons]
    refine (hs b hb a List.mem_cons_self).bind fun c hc => ?_
    refine ih hc ?_
    intro d hd x hx
    exact hs d hd x (List.mem_cons_of_mem a hx)

theorem bind_eq_ok {α β : Type u} {x : Except ε α} {f : α → Except ε β} {b : β} :
    x >>= f = .ok b ↔ ∃ a, x = .ok a ∧ f a = .ok b := by
  cases x with
  | error e => exact ⟨nofun, nofun⟩
  | ok a =>
    constructor
    · intro h
      exact ⟨a, rfl, h⟩
    · rintro ⟨a', ha, hf⟩
      cases ha
      exact hf

/-- `x` returns, and what it returns passes the test. -/
def passes (p : α → Bool) : Except ε α → Bool
  | .ok a => p a
  | .error _ => false

lemma exists_of_passes {p : α → Bool} {x : Except ε α} (h : passes p x = true) :
    ∃ a, x = .ok a ∧ p a = true := by
  cases x with
  | error e => cases h
  | ok a => exact ⟨a, rfl, h⟩

end Postconditions

section Loops

variable {ε β : Type*} {f : β → ℕ → Except ε β} {I : ℕ → β → Prop} {n : ℕ} {b : β}

lemma foldlM_range_ok (h₀ : I 0 b)
    (hs : ∀ i < n, ∀ b, I i b → ∃ b', f b i = .ok b' ∧ I (i + 1) b') :
    ∃ b', (List.range n).foldlM f b = .ok b' ∧ I n b' := by
  induction n with
  | zero => exact ⟨b, rfl, h₀⟩
  | succ n ih =>
    obtain ⟨c, hc, hi⟩ := ih fun i hi => hs i (by omega)
    obtain ⟨d, hd, hj⟩ := hs n (by omega) c hi
    refine ⟨d, ?_, hj⟩
    rw [List.range_succ, List.foldlM_append, hc]
    simp only [bind, Except.bind, List.foldlM_cons, List.foldlM_nil, hd]
    rfl

lemma foldlM_range_error {e : ε} {k : ℕ} (h₀ : I 0 b) (hk : k < n)
    (hs : ∀ i < k, ∀ b, I i b → ∃ b', f b i = .ok b' ∧ I (i + 1) b')
    (he : ∀ b, I k b → f b k = .error e) : (List.range n).foldlM f b = .error e := by
  obtain ⟨c, hc, hi⟩ := foldlM_range_ok h₀ hs
  obtain ⟨m, rfl⟩ := Nat.exists_eq_add_of_lt hk
  rw [List.range_eq_range', Nat.add_assoc, ← List.range'_append_1, List.foldlM_append,
    ← List.range_eq_range', hc, Nat.zero_add, List.range'_succ]
  simp only [bind, Except.bind, List.foldlM_cons, he c hi]

end Loops

section Sweeps

variable {ε α ω : Type*} {f : α → List ω × Option ε} {as : List α} {x : ω}

/-- A loop that puts out as it goes, and stops at the first turn that fails. -/
def sweep (f : α → List ω × Option ε) : List α → List ω × Option ε
  | [] => ([], none)
  | a :: as =>
    match f a with
    | (out, some e) => (out, some e)
    | (out, none) => (out ++ (sweep f as).1, (sweep f as).2)

/-- What is put out comes from a turn that no failure came before. -/
theorem mem_sweep : x ∈ (sweep f as).1 ↔
    ∃ pre a post, as = pre ++ a :: post ∧ (∀ b ∈ pre, (f b).2 = none) ∧ x ∈ (f a).1 := by
  induction as with
  | nil => simp [sweep]
  | cons a as ih =>
    have hhead : (∃ pre b post, a :: as = pre ++ b :: post ∧ (∀ b ∈ pre, (f b).2 = none) ∧ x ∈ (f b).1) ↔
        x ∈ (f a).1 ∨ (f a).2 = none ∧
          ∃ pre b post, as = pre ++ b :: post ∧ (∀ b ∈ pre, (f b).2 = none) ∧ x ∈ (f b).1 := by
      constructor
      · rintro ⟨_ | ⟨c, pre⟩, b, post, heq, hpre, hx⟩
        · obtain ⟨rfl, -⟩ := List.cons.inj heq
          exact .inl hx
        · obtain ⟨rfl, rfl⟩ := List.cons.inj heq
          refine .inr ⟨hpre a List.mem_cons_self, pre, b, post, rfl, ?_, hx⟩
          exact fun d hd => hpre d (List.mem_cons_of_mem a hd)
      · rintro (hx | ⟨hnone, pre, b, post, rfl, hpre, hx⟩)
        · exact ⟨[], a, as, rfl, nofun, hx⟩
        · exact ⟨a :: pre, b, post, rfl, List.forall_mem_cons.mpr ⟨hnone, hpre⟩, hx⟩
    rw [hhead, sweep]
    rcases hf : f a with ⟨out, _ | e⟩
    · simp [ih]
    · simp

end Sweeps

end Ledwall.Library.Outcomes
