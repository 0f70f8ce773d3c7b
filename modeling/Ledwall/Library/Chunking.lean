import Mathlib.Tactic

/-! Cutting a sequence of `n` items into pieces of `k`, the last one short. -/

namespace Ledwall.Library.Chunking

variable {α : Type*}

/-- How many pieces of `k` cover `n` items. -/
def count (k n : ℕ) : ℕ := (n + k - 1) / k

/-- Piece `i` of `xs`. -/
def piece (k i : ℕ) (xs : List α) : List α := (xs.drop (i * k)).take k

lemma lt_count_iff {k n i : ℕ} (hk : 0 < k) : i < count k n ↔ i * k < n := by
  rw [count, Nat.lt_iff_add_one_le, Nat.le_div_iff_mul_le hk, Nat.add_one_mul]
  omega

lemma count_pos_iff {k n : ℕ} (hk : 0 < k) : 0 < count k n ↔ 0 < n := by
  rw [lt_count_iff hk, Nat.zero_mul]

lemma count_le_iff {k n m : ℕ} (hk : 0 < k) : count k n ≤ m ↔ n ≤ m * k := by
  have h := lt_count_iff (n := n) (i := m) hk
  omega

lemma count_mul {k c n : ℕ} (hk : 0 < k) (hc : 0 < c) : count (k * c) (n * c) = count k n := by
  have h (i : ℕ) : i < count (k * c) (n * c) ↔ i < count k n := by
    rw [lt_count_iff (Nat.mul_pos hk hc), lt_count_iff hk, ← Nat.mul_assoc]
    exact Nat.mul_lt_mul_right hc
  have h₁ := h (count (k * c) (n * c))
  have h₂ := h (count k n)
  omega

lemma div_lt_count {k n p : ℕ} (hk : 0 < k) (hp : p < n) : p / k < count k n := by
  rw [lt_count_iff hk]
  exact (Nat.div_mul_le_self p k).trans_lt hp

lemma piece_length (k i : ℕ) (xs : List α) :
    (piece k i xs).length = min k (xs.length - i * k) := by
  simp [piece]

lemma piece_getElem? (k i j : ℕ) (xs : List α) :
    (piece k i xs)[j]? = if j < k then xs[i * k + j]? else none := by
  simp [piece, List.getElem?_take, List.getElem?_drop]

lemma piece_getD {k j : ℕ} (h : j < k) (i : ℕ) (xs : List α) (d : α) :
    (piece k i xs).getD j d = xs.getD (i * k + j) d := by
  rw [List.getD_eq_getElem?_getD, piece_getElem?, if_pos h, ← List.getD_eq_getElem?_getD]

lemma min_mul_sub (k n c i : ℕ) : min (k * c) (n * c - i * (k * c)) = min k (n - i * k) * c := by
  rw [← Nat.mul_assoc, ← Nat.sub_mul, Nat.mul_min_mul_right]

/-- The positions of piece `i`, clipped to `n`. -/
def InPiece (k n i p : ℕ) : Prop := i * k ≤ p ∧ p < i * k + min k (n - i * k)

instance (k n i p : ℕ) : Decidable (InPiece k n i p) := by
  unfold InPiece
  infer_instance

lemma inPiece_iff {k n i p : ℕ} (hk : 0 < k) : InPiece k n i p ↔ p < n ∧ p / k = i := by
  rw [InPiece, Nat.div_eq_iff hk]
  omega

end Ledwall.Library.Chunking
