import Mathlib.Data.List.Forall2
import Mathlib.Tactic

/-! Traversals of a list by a computation that may fail. -/

namespace Ledwall.Library.Traversals

universe u

variable {ε α : Type*} {β : Type u} {f : α → Except ε β} {xs : List α} {ys : List β}

lemma mapM_cons_returns {x : α} {zs : List β} :
    (x :: xs).mapM f = .ok zs ↔ ∃ y ys, f x = .ok y ∧ xs.mapM f = .ok ys ∧ zs = y :: ys := by
  rw [List.mapM_cons]
  constructor
  · intro h
    rcases hx : f x with e | y
    · rw [hx] at h
      cases h
    · rcases hxs : xs.mapM f with e | ys
      · rw [hx, hxs] at h
        cases h
      · rw [hx, hxs] at h
        cases h
        exact ⟨y, ys, rfl, rfl, rfl⟩
  · rintro ⟨y, ys, hx, hxs, rfl⟩
    rw [hx, hxs]
    rfl

/-- A traversal that returns has returned at each element. -/
theorem mapM_returns_iff : xs.mapM f = .ok ys ↔ List.Forall₂ (fun x y => f x = .ok y) xs ys := by
  induction xs generalizing ys with
  | nil =>
    rw [List.forall₂_nil_left_iff, eq_comm]
    simp [pure, Except.pure]
  | cons x xs ih =>
    rw [mapM_cons_returns, List.forall₂_cons_left_iff]
    simp only [ih]

theorem exists_mapM_iff : (∃ ys, xs.mapM f = .ok ys) ↔ ∀ x ∈ xs, ∃ y, f x = .ok y := by
  simp only [mapM_returns_iff]
  constructor
  · rintro ⟨ys, h⟩ x hx
    induction h with
    | nil => cases hx
    | @cons a b as bs hab _ ih =>
      rcases List.mem_cons.mp hx with rfl | hmem
      · exact ⟨b, hab⟩
      · exact ih hmem
  · intro h
    induction xs with
    | nil => exact ⟨[], .nil⟩
    | cons x xs ih =>
      obtain ⟨y, hy⟩ := h x List.mem_cons_self
      obtain ⟨ys, hys⟩ := ih fun z hz => h z (List.mem_cons_of_mem x hz)
      exact ⟨y :: ys, .cons hy hys⟩

/-- Where each element that returns gives what `g` says, the whole traversal does. -/
theorem eq_map_of_mapM {g : α → β} (h : ∀ x ∈ xs, ∀ y, f x = .ok y → y = g x)
    (hys : xs.mapM f = .ok ys) : ys = xs.map g := by
  rw [mapM_returns_iff] at hys
  induction hys with
  | nil => rfl
  | @cons a b as bs hab _ ih =>
    rw [List.map_cons, ← h a List.mem_cons_self b hab,
      ih fun z hz => h z (List.mem_cons_of_mem a hz)]

end Ledwall.Library.Traversals
