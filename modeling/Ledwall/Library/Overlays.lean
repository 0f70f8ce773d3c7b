import Mathlib.Tactic

/-! Partial assignments laid over a total one: what survives of the earlier of two, and what a
sequence of them leaves. -/

namespace Ledwall.Library.Overlays

variable {ι : Type*} {V : ι → Type*}

/-- Some of the cells, with a value for each. -/
abbrev Writes (V : ι → Type*) := (i : ι) → Option (V i)

def overlay (w : Writes V) (s : (i : ι) → V i) : (i : ι) → V i := fun i => (w i).getD (s i)

variable {w w₁ w₂ : Writes V} {s : (i : ι) → V i} {i : ι}

@[simp] theorem overlay_some {v : V i} (h : w i = some v) : overlay w s i = v := by
  simp [overlay, h]

@[simp] theorem overlay_none (h : w i = none) : overlay w s i = s i := by simp [overlay, h]

theorem overlay_overlay : overlay w₂ (overlay w₁ s) = overlay (fun i => (w₂ i).or (w₁ i)) s := by
  funext i
  cases h : w₂ i <;> simp [overlay, h]

/-- The later assignment hides the earlier one unless a cell it leaves out was moved. -/
theorem overlay_hides_iff :
    overlay w₂ (overlay w₁ s) = overlay w₂ s ↔ ∀ i, w₂ i = none → ∀ v, w₁ i = some v → v = s i := by
  constructor
  · intro h i h₂ v h₁
    have hi := congrFun h i
    rwa [overlay_none h₂, overlay_none h₂, overlay_some h₁] at hi
  · intro h
    funext i
    cases h₂ : w₂ i with
    | some v => rw [overlay_some h₂, overlay_some h₂]
    | none =>
      rw [overlay_none h₂, overlay_none h₂]
      cases h₁ : w₁ i with
      | some v =>
        rw [overlay_some h₁]
        exact h i h₂ v h₁
      | none => exact overlay_none h₁

/-- After a sequence of assignments each cell holds what the last of them that has it says. -/
theorem overlays_apply (ws : List (Writes V)) (s : (i : ι) → V i) (i : ι) :
    ws.foldl (fun s w => overlay w s) s i = (ws.reverse.findSome? fun w => w i).getD (s i) := by
  induction ws generalizing s with
  | nil => rfl
  | cons w ws ih =>
    rw [List.foldl_cons, ih, List.reverse_cons, List.findSome?_append]
    cases hl : ws.reverse.findSome? fun w => w i with
    | some v => rfl
    | none => cases h : w i <;> simp [overlay, h]

/-- A list written out cell by cell, from `base` on. -/
theorem updates_apply {α β : Type*} (f : ℕ → β) (v : α → β) (xs : List α) (base a : ℕ) :
    (xs.zipIdx base).foldl (fun f p => Function.update f p.2 (v p.1)) f a =
      if base ≤ a then ((xs[a - base]?).map v).getD (f a) else f a := by
  induction xs generalizing base f with
  | nil => simp
  | cons x xs ih =>
    rw [List.zipIdx_cons, List.foldl_cons, ih]
    rcases Nat.lt_trichotomy a base with h | rfl | h
    · rw [if_neg (by omega), if_neg (by omega), Function.update_of_ne (by omega)]
    · rw [if_neg (by omega), if_pos le_rfl, Function.update_self, Nat.sub_self]
      rfl
    · obtain ⟨k, rfl⟩ := Nat.exists_eq_add_of_lt h
      rw [if_pos (by omega), if_pos (by omega), Function.update_of_ne (by omega),
        show base + k + 1 - base = k + 1 by omega, List.getElem?_cons_succ,
        show base + k + 1 - (base + 1) = k by omega]

end Ledwall.Library.Overlays
