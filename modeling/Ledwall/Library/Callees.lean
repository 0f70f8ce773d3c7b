import Ledwall.Library.Outcomes

/-! Where a computation calls one of the functions it is made of. -/

namespace Ledwall.Library.Callees

open Ledwall.Library.Outcomes

variable {ε ι α β γ : Type*} {callee : ι → Except ε β} {P : ι → Prop} {R : α → Prop} {S : γ → Prop}

/-- `f`, given something to call in the place of `callee`, calls it only where `P` holds: whatever
answers as `callee` does there leads to the same. -/
def CallsOnly (callee : ι → Except ε β) (P : ι → Prop) (f : (ι → Except ε β) → Except ε α) : Prop :=
  ∀ g, (∀ i, P i → g i = callee i) → f g = f callee

/-- Besides, what `f` returns with `callee` itself satisfies `R`. -/
structure Within (callee : ι → Except ε β) (P : ι → Prop) (R : α → Prop)
    (f : (ι → Except ε β) → Except ε α) : Prop where
  calls : CallsOnly callee P f
  ends : Ensures R (f callee)

lemma Within.const {x : Except ε α} (hx : Ensures R x) : Within callee P R fun _ => x := by
  refine ⟨?_, hx⟩
  intro g _
  rfl

lemma Within.ok {a : α} (h : R a) : Within callee P R fun _ => .ok a := .const (.ok h)

lemma Within.call {R : β → Prop} {i : ι} (h : P i) (hr : Ensures R (callee i)) :
    Within callee P R fun g => g i := by
  refine ⟨?_, hr⟩
  intro g hg
  exact hg i h

lemma Within.bind {f : (ι → Except ε β) → Except ε α} {k : α → (ι → Except ε β) → Except ε γ}
    (hf : Within callee P R f) (hk : ∀ a, R a → Within callee P S (k a)) :
    Within callee P S fun g => (f g).bind fun a => k a g := by
  refine ⟨?_, hf.ends.bind fun a ha => (hk a ha).ends⟩
  intro g hg
  dsimp only
  rw [hf.calls g hg]
  cases hx : f callee with
  | error e => rfl
  | ok a => exact (hk a (hf.ends a hx)).calls g hg

lemma Within.ite {c : Prop} [Decidable c] {f f' : (ι → Except ε β) → Except ε α}
    (hf : c → Within callee P R f) (hf' : ¬ c → Within callee P R f') :
    Within callee P R fun g => if c then f g else f' g := by
  by_cases hc : c
  · simp only [if_pos hc]
    exact hf hc
  · simp only [if_neg hc]
    exact hf' hc

lemma Within.of_eq {f f' : (ι → Except ε β) → Except ε α} (hf : Within callee P R f)
    (h : ∀ g, f' g = f g) : Within callee P R f' := by
  rwa [show f' = f from funext h]

end Ledwall.Library.Callees
