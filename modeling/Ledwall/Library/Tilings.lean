import Mathlib.Algebra.BigOperators.Group.List.Basic
import Mathlib.Data.Finset.Card
import Mathlib.Data.Int.Interval
import Mathlib.Order.Interval.Finset.Basic
import Mathlib.Data.Finset.Prod
import Mathlib.Tactic

/-! Pieces of a finite set, counted: disjoint pieces cover it exactly when their sizes add up. -/

namespace Ledwall.Library.Tilings

section Pieces

variable {α : Type*}

def area (pieces : List (Finset α)) : ℕ := (pieces.map Finset.card).sum

@[simp] lemma area_cons {p : Finset α} {pieces : List (Finset α)} :
    area (p :: pieces) = p.card + area pieces := by
  simp [area]

variable [DecidableEq α]

/-- What the pieces hold together. -/
def union (pieces : List (Finset α)) : Finset α := pieces.foldr (· ∪ ·) ∅

variable {pieces : List (Finset α)} {p s : Finset α} {a : α}

@[simp] lemma union_cons : union (p :: pieces) = p ∪ union pieces := rfl

lemma mem_union : a ∈ union pieces ↔ ∃ p ∈ pieces, a ∈ p := by
  induction pieces with
  | nil => simp [union]
  | cons p pieces ih => simp [ih]

lemma union_subset (h : ∀ p ∈ pieces, p ⊆ s) : union pieces ⊆ s := by
  intro a ha
  obtain ⟨p, hp, hap⟩ := mem_union.mp ha
  exact h p hp hap

lemma disjoint_union (h : ∀ q ∈ pieces, Disjoint p q) : Disjoint p (union pieces) := by
  rw [Finset.disjoint_left]
  intro a hap ha
  obtain ⟨q, hq, haq⟩ := mem_union.mp ha
  exact Finset.disjoint_left.mp (h q hq) hap haq

lemma card_union (h : pieces.Pairwise Disjoint) : (union pieces).card = area pieces := by
  induction pieces with
  | nil => rfl
  | cons p pieces ih =>
    obtain ⟨hp, hrest⟩ := List.pairwise_cons.mp h
    rw [union_cons, Finset.card_union_of_disjoint (disjoint_union hp), ih hrest, area_cons]

/-- The counting argument. -/
theorem covers_iff (hd : pieces.Pairwise Disjoint) (hs : ∀ p ∈ pieces, p ⊆ s) :
    (∀ a ∈ s, ∃ p ∈ pieces, a ∈ p) ↔ s.card ≤ area pieces := by
  have hsub : union pieces ⊆ s := union_subset hs
  rw [← card_union hd]
  constructor
  · intro h
    apply Finset.card_le_card
    intro a ha
    exact mem_union.mpr (h a ha)
  · intro h a ha
    rw [← Finset.eq_of_subset_of_card_le hsub h] at ha
    exact mem_union.mp ha

end Pieces

section Rectangles

/-- The unit squares from the corner on. -/
noncomputable def cells (x y width height : ℤ) : Finset (ℤ × ℤ) :=
  Finset.Ico x (x + width) ×ˢ Finset.Ico y (y + height)

variable {x y w h x' y' w' h' : ℤ}

lemma mem_cells {p : ℤ × ℤ} :
    p ∈ cells x y w h ↔ x ≤ p.1 ∧ p.1 < x + w ∧ y ≤ p.2 ∧ p.2 < y + h := by
  rw [cells, Finset.mem_product, Finset.mem_Ico, Finset.mem_Ico]
  tauto

lemma card_cells (hw : 0 ≤ w) (hh : 0 ≤ h) : ((cells x y w h).card : ℤ) = w * h := by
  rw [cells, Finset.card_product, Int.card_Ico, Int.card_Ico, Nat.cast_mul,
    Int.toNat_of_nonneg (by omega), Int.toNat_of_nonneg (by omega)]
  ring

lemma cells_subset_iff (hw : 0 < w) (hh : 0 < h) : cells x y w h ⊆ cells x' y' w' h' ↔
    x' ≤ x ∧ y' ≤ y ∧ x + w ≤ x' + w' ∧ y + h ≤ y' + h' := by
  constructor
  · intro hsub
    have hfirst := mem_cells.mp (hsub (mem_cells.mpr
      (show x ≤ (x, y).1 ∧ (x, y).1 < x + w ∧ y ≤ (x, y).2 ∧ (x, y).2 < y + h by
        refine ⟨?_, ?_, ?_, ?_⟩ <;> dsimp only <;> omega)))
    have hlast := mem_cells.mp (hsub (mem_cells.mpr
      (show x ≤ (x + w - 1, y + h - 1).1 ∧ (x + w - 1, y + h - 1).1 < x + w ∧
          y ≤ (x + w - 1, y + h - 1).2 ∧ (x + w - 1, y + h - 1).2 < y + h by
        refine ⟨?_, ?_, ?_, ?_⟩ <;> dsimp only <;> omega)))
    dsimp only at hfirst hlast
    omega
  · rintro hedges p hp
    rw [mem_cells] at hp ⊢
    omega

lemma not_disjoint_cells_iff (hw : 0 < w) (hh : 0 < h) (hw' : 0 < w') (hh' : 0 < h') :
    ¬ Disjoint (cells x y w h) (cells x' y' w' h') ↔
      x < x' + w' ∧ x' < x + w ∧ y < y' + h' ∧ y' < y + h := by
  rw [Finset.not_disjoint_iff]
  constructor
  · rintro ⟨p, hp, hp'⟩
    rw [mem_cells] at hp hp'
    omega
  · intro h
    refine ⟨(max x x', max y y'), ?_, ?_⟩ <;> rw [mem_cells] <;> dsimp only <;> omega

end Rectangles

end Ledwall.Library.Tilings
