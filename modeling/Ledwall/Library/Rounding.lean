import Mathlib.Algebra.Order.Floor.Ring
import Mathlib.Algebra.Ring.Int.Parity
import Mathlib.Data.Rat.Floor
import Mathlib.Tactic

/-! Rounding to the nearest integer, ties to the even one, in any ordered field with a floor. -/

namespace Ledwall.Library.Rounding

variable {K : Type*} [Field K] [LinearOrder K] [IsStrictOrderedRing K] [FloorRing K]

def roundEven (q : K) : ℤ :=
  if Int.fract q < 1 / 2 then ⌊q⌋
  else if 1 / 2 < Int.fract q then ⌊q⌋ + 1
  else if Even ⌊q⌋ then ⌊q⌋
  else ⌊q⌋ + 1

variable {q r : K} {n : ℤ}

/-- What the operation is for: `n` is reached halfway below it, on the half itself when `n` is
even. -/
theorem le_roundEven_iff : n ≤ roundEven q ↔ (n : K) - 1 / 2 < q ∨ (n : K) - 1 / 2 = q ∧ Even n := by
  have hq : (⌊q⌋ : K) + Int.fract q = q := Int.floor_add_fract q
  have h0 : 0 ≤ Int.fract q := Int.fract_nonneg q
  have h1 : Int.fract q < 1 := Int.fract_lt_one q
  -- an integer is at most the floor when it is less than the next one
  have below : ∀ m : ℤ, (n : K) < m + 1 → n ≤ m := by
    intro m hm
    exact Int.lt_add_one_iff.mp (by exact_mod_cast hm)
  unfold roundEven
  split_ifs with hlow hhigh heven
  · constructor
    · intro h
      have hn : (n : K) ≤ ⌊q⌋ := by exact_mod_cast h
      left
      linarith
    · rintro (h | ⟨h, -⟩) <;> exact below ⌊q⌋ (by linarith)
  · constructor
    · intro h
      have hn : (n : K) ≤ ⌊q⌋ + 1 := by exact_mod_cast h
      left
      linarith
    · rintro (h | ⟨h, -⟩) <;> exact below (⌊q⌋ + 1) (by push_cast; linarith)
  · have half : Int.fract q = 1 / 2 := le_antisymm (not_lt.mp hhigh) (not_lt.mp hlow)
    constructor
    · intro h
      have hn : (n : K) ≤ ⌊q⌋ := by exact_mod_cast h
      left
      linarith
    · rintro (h | ⟨h, hn⟩)
      · exact below ⌊q⌋ (by linarith)
      · have hnext : n = ⌊q⌋ + 1 := by
          have : (n : K) = ⌊q⌋ + 1 := by linarith
          exact_mod_cast this
        rw [hnext, Int.even_add_one] at hn
        exact absurd heven hn
  · have half : Int.fract q = 1 / 2 := le_antisymm (not_lt.mp hhigh) (not_lt.mp hlow)
    constructor
    · intro h
      have hn : (n : K) ≤ ⌊q⌋ + 1 := by exact_mod_cast h
      rcases hn.lt_or_eq with hlt | heq
      · left
        linarith
      · right
        have hnext : n = ⌊q⌋ + 1 := by exact_mod_cast heq
        refine ⟨by linarith, ?_⟩
        rw [hnext, Int.even_add_one]
        exact heven
    · rintro (h | ⟨h, -⟩) <;> exact below (⌊q⌋ + 1) (by push_cast; linarith)

theorem roundEven_mono : Monotone (roundEven : K → ℤ) := by
  intro q r hqr
  rw [le_roundEven_iff]
  rcases le_roundEven_iff.mp (le_refl (roundEven q)) with h | ⟨h, heven⟩
  · exact .inl (h.trans_le hqr)
  · rcases hqr.lt_or_eq with hlt | heq
    · exact .inl (h.trans_lt hlt)
    · exact .inr ⟨h.trans heq, heven⟩

@[simp] lemma roundEven_intCast (n : ℤ) : roundEven (n : K) = n := by
  simp [roundEven]

lemma le_roundEven (h : (n : K) ≤ q) : n ≤ roundEven q := by
  simpa using roundEven_mono h

lemma roundEven_le (h : q ≤ n) : roundEven q ≤ n := by
  simpa using roundEven_mono h

lemma roundEven_le_iff :
    roundEven q ≤ n ↔ q < (n : K) + 1 / 2 ∨ q = (n : K) + 1 / 2 ∧ Even n := by
  rw [← not_lt, ← Int.add_one_le_iff, le_roundEven_iff, Int.even_add_one]
  push_cast
  have hadd : (n : K) + 1 - 1 / 2 = n + 1 / 2 := by ring
  rw [hadd]
  constructor
  · intro h
    obtain ⟨hle, htie⟩ := not_or.mp h
    rcases (not_lt.mp hle).lt_or_eq with hlt | heq
    · exact .inl hlt
    · exact .inr ⟨heq, not_not.mp fun hodd => htie ⟨heq.symm, hodd⟩⟩
  · rintro (h | ⟨h, heven⟩) (hgt | ⟨heq, hodd⟩)
    · exact absurd hgt (not_lt.mpr h.le)
    · exact absurd heq.symm (ne_of_lt h)
    · exact absurd h.symm (ne_of_lt hgt)
    · exact hodd heven

end Ledwall.Library.Rounding
