import Mathlib.Tactic

/-! Computations over a state that survives their errors: what every outcome keeps, and what a
success establishes. -/

namespace Ledwall.Library.Effects

variable {ε σ α β : Type}

def final : EStateM.Result ε σ α → σ
  | .ok _ s => s
  | .error _ s => s

/-- However `x` ends, it ends in a state related to the one it began in. -/
def Moves (R : σ → σ → Prop) (x : EStateM ε σ α) : Prop := ∀ s, R s (final (x s))

variable {R : σ → σ → Prop} {x : EStateM ε σ α} {f : α → EStateM ε σ β}

theorem Moves.pure (hr : ∀ s, R s s) (a : α) : Moves R (Pure.pure a : EStateM ε σ α) := hr

theorem Moves.throw (hr : ∀ s, R s s) (e : ε) : Moves R (throw e : EStateM ε σ α) := hr

theorem Moves.get (hr : ∀ s, R s s) : Moves R (get : EStateM ε σ σ) := hr

theorem Moves.bind (ht : ∀ s₁ s₂ s₃, R s₁ s₂ → R s₂ s₃ → R s₁ s₃) (hx : Moves R x)
    (hf : ∀ a, Moves R (f a)) : Moves R (x >>= f) := by
  intro s
  have hxs := hx s
  simp only [Bind.bind, EStateM.bind]
  cases hs : x s with
  | error e s' =>
    rw [hs] at hxs
    exact hxs
  | ok a s' =>
    rw [hs] at hxs
    exact ht _ _ _ hxs (hf a s')

theorem Moves.forM (hr : ∀ s, R s s) (ht : ∀ s₁ s₂ s₃, R s₁ s₂ → R s₂ s₃ → R s₁ s₃)
    {g : α → EStateM ε σ PUnit} (as : List α) (hg : ∀ a ∈ as, Moves R (g a)) :
    Moves R (as.forM g) := by
  induction as with
  | nil => exact Moves.pure hr _
  | cons a as ih =>
    refine Moves.bind ht (f := fun _ => as.forM g) ?_ ?_
    · exact hg a List.mem_cons_self
    · intro _
      apply ih
      intro b hb
      exact hg b (List.mem_cons_of_mem a hb)

/-- A success of a sequence passes through a success of its first part. -/
theorem bind_ok {s s' : σ} {b : β} (h : (x >>= f) s = .ok b s') :
    ∃ a t, x s = .ok a t ∧ f a t = .ok b s' := by
  simp only [Bind.bind, EStateM.bind] at h
  cases hx : x s with
  | error e t =>
    rw [hx] at h
    cases h
  | ok a t =>
    rw [hx] at h
    exact ⟨a, t, rfl, h⟩

theorem bind_of_ok {s t : σ} {a : α} (h : x s = .ok a t) : (x >>= f) s = f a t := by
  simp only [Bind.bind, EStateM.bind, h]

theorem get_bind (f : σ → EStateM ε σ β) (s : σ) : (MonadState.get >>= f) s = f s s := rfl

/-- A loop that ends well keeps an invariant its turns keep. -/
theorem forM_ok {g : α → EStateM ε σ PUnit} {I : ℕ → σ → Prop} {as : List α} {s s' : σ}
    (h : as.forM g s = .ok ⟨⟩ s') (h₀ : I 0 s)
    (hg : ∀ i (hi : i < as.length) s s', I i s → g as[i] s = .ok ⟨⟩ s' → I (i + 1) s') :
    I as.length s' := by
  induction as generalizing s I with
  | nil =>
    cases h
    exact h₀
  | cons a as ih =>
    obtain ⟨⟨⟩, t, ht, hrest⟩ := bind_ok h
    refine ih (I := fun i => I (i + 1)) hrest ?_ ?_
    · exact hg 0 (Nat.succ_pos _) s t h₀ ht
    · intro i hi u u' hI hu
      refine hg (i + 1) ?_ u u' hI ?_
      · rw [List.length_cons]
        omega
      · exact hu

/-- A loop each of whose turns succeeds from its invariant succeeds. -/
theorem forM_succeeds {g : α → EStateM ε σ PUnit} {I : ℕ → σ → Prop} {as : List α} {s : σ}
    (h₀ : I 0 s)
    (hg : ∀ i (hi : i < as.length) s, I i s → ∃ s', g as[i] s = .ok ⟨⟩ s' ∧ I (i + 1) s') :
    ∃ s', as.forM g s = .ok ⟨⟩ s' ∧ I as.length s' := by
  induction as generalizing s I with
  | nil => exact ⟨s, rfl, h₀⟩
  | cons a as ih =>
    obtain ⟨t, ht, hI⟩ := hg 0 (Nat.succ_pos _) s h₀
    have hnext : ∀ i (hi : i < as.length) u, I (i + 1) u →
        ∃ u', g as[i] u = .ok ⟨⟩ u' ∧ I (i + 1 + 1) u' := by
      intro i hi u hu
      exact hg (i + 1) (by rw [List.length_cons]; omega) u hu
    obtain ⟨s', hs', hI'⟩ := ih (I := fun i => I (i + 1)) hI hnext
    refine ⟨s', ?_, hI'⟩
    exact (bind_of_ok ht).trans hs'

end Ledwall.Library.Effects
