import Mathlib.Data.Int.Log
import Ledwall.Library.Rounding

/-! Binary floating point: the numbers of a format, and rounding to the nearest of them. -/

namespace Ledwall.Library.Floats

open Ledwall.Library.Rounding

/-- So many significant bits, none below `2 ^ emin`, and no number of `2 ^ emax` or more. -/
structure Format where
  precision : ℕ
  emin : ℤ
  emax : ℤ
  precision_pos : 0 < precision

def binary64 : Format := ⟨53, -1074, 1024, by decide⟩

namespace Format

variable (F : Format)

/-- What the bits can say, were there no largest number. -/
def Grid (q : ℚ) : Prop := ∃ m e : ℤ, |m| ≤ 2 ^ F.precision ∧ F.emin ≤ e ∧ q = m * 2 ^ e

/-- The weight of the last bit of the numbers next to this one. -/
def unit (q : ℚ) : ℚ := 2 ^ max (Int.log 2 |q| + 1 - F.precision) F.emin

def nearest (q : ℚ) : ℚ := roundEven (q / F.unit q) * F.unit q

variable {F} {q r : ℚ}

lemma unit_pos : 0 < F.unit q := zpow_pos (by norm_num) _

@[simp] lemma unit_neg : F.unit (-q) = F.unit q := by rw [unit, unit, abs_neg]

lemma Grid.neg (h : F.Grid q) : F.Grid (-q) := by
  obtain ⟨m, e, hm, he, rfl⟩ := h
  exact ⟨-m, e, by rwa [abs_neg], he, by push_cast; ring⟩

lemma Grid.scale (h : F.Grid q) (k : ℕ) : F.Grid (q * 2 ^ k) := by
  obtain ⟨m, e, hm, he, rfl⟩ := h
  refine ⟨m, e + k, hm, he.trans (by omega), ?_⟩
  rw [zpow_add₀ (by norm_num), zpow_natCast, mul_assoc]

lemma roundEven_neg (q : ℚ) : roundEven (-q) = -roundEven q := by
  refine le_antisymm ?_ ?_
  · rw [roundEven_le_iff]
    rcases le_roundEven_iff.mp (le_refl (roundEven q)) with h | ⟨h, heven⟩
    · left
      push_cast
      linarith
    · refine .inr ⟨?_, heven.neg⟩
      push_cast
      linarith
  · rw [le_roundEven_iff]
    rcases roundEven_le_iff.mp (le_refl (roundEven q)) with h | ⟨h, heven⟩
    · left
      push_cast
      linarith
    · refine .inr ⟨?_, heven.neg⟩
      push_cast
      linarith

lemma nearest_neg (q : ℚ) : F.nearest (-q) = -F.nearest q := by
  rw [nearest, nearest, unit_neg, neg_div, roundEven_neg]
  push_cast
  ring

lemma le_nearest_of_multiple {k : ℤ} (h : (k : ℚ) * F.unit q ≤ q) : (k : ℚ) * F.unit q ≤ F.nearest q := by
  have hk : k ≤ roundEven (q / F.unit q) := le_roundEven ((le_div_iff₀ unit_pos).mpr h)
  exact mul_le_mul_of_nonneg_right (by exact_mod_cast hk) unit_pos.le

lemma multiple_of_le {e : ℤ} (m : ℤ) (h : max (Int.log 2 |q| + 1 - F.precision) F.emin ≤ e) :
    ∃ k : ℤ, (m : ℚ) * 2 ^ e = k * F.unit q := by
  obtain ⟨d, rfl⟩ := Int.le.dest h
  refine ⟨m * 2 ^ d, ?_⟩
  rw [zpow_add₀ (by norm_num), zpow_natCast, unit]
  push_cast
  ring

/-- Rounding does not pass a number of the grid. -/
theorem Grid.le_nearest (h : F.Grid r) (hle : r ≤ q) : r ≤ F.nearest q := by
  obtain ⟨m, e, hm, he, rfl⟩ := h
  by_cases hunit : max (Int.log 2 |q| + 1 - F.precision) F.emin ≤ e
  · obtain ⟨k, hk⟩ := multiple_of_le m hunit
    rw [hk] at hle ⊢
    exact le_nearest_of_multiple hle
  · -- a finer number is no larger than the power of two below `|q|`, which is a multiple
    rw [max_le_iff, not_and_or, not_le, not_le] at hunit
    have hlog : e + F.precision ≤ Int.log 2 |q| := by omega
    have hbound : |(m : ℚ) * 2 ^ e| ≤ 2 ^ Int.log 2 |q| := by
      have hm' : |(m : ℚ)| ≤ 2 ^ F.precision := by exact_mod_cast hm
      rw [abs_mul, abs_of_pos (zpow_pos (by norm_num : (0 : ℚ) < 2) e)]
      calc |(m : ℚ)| * 2 ^ e ≤ 2 ^ F.precision * 2 ^ e :=
            mul_le_mul_of_nonneg_right hm' (zpow_pos (by norm_num) e).le
        _ = 2 ^ (e + F.precision) := by
            rw [zpow_add₀ (by norm_num), zpow_natCast, mul_comm]
        _ ≤ 2 ^ Int.log 2 |q| := zpow_le_zpow_right₀ (by norm_num) hlog
    have hpower (k : ℤ) : ∃ c : ℤ, (k : ℚ) * 2 ^ Int.log 2 |q| = c * F.unit q := by
      have hpos := F.precision_pos
      exact multiple_of_le k (max_le (by omega) (by omega))
    rcases lt_trichotomy q 0 with hneg | rfl | hpos
    · have hlow : (2 : ℚ) ^ Int.log 2 |q| ≤ |q| := Int.zpow_log_le_self (by norm_num) (abs_pos.mpr hneg.ne)
      rw [abs_of_neg (hle.trans_lt hneg)] at hbound
      have habs := abs_of_neg hneg
      obtain ⟨c, hc⟩ := hpower (-1)
      have heq : (m : ℚ) * 2 ^ e = c * F.unit q := by
        rw [← hc]
        push_cast
        linarith
      rw [heq] at hle ⊢
      exact le_nearest_of_multiple hle
    · rw [nearest, zero_div, show roundEven (0 : ℚ) = 0 from roundEven_intCast 0]
      simpa using hle
    · have hlow : (2 : ℚ) ^ Int.log 2 |q| ≤ |q| := Int.zpow_log_le_self (by norm_num) (abs_pos.mpr hpos.ne')
      rw [abs_of_pos hpos] at hlow hbound hpower
      obtain ⟨c, hc⟩ := hpower 1
      rw [Int.cast_one, one_mul] at hc
      have hnear : (c : ℚ) * F.unit q ≤ F.nearest q := le_nearest_of_multiple (hc ▸ hlow)
      exact ((le_abs_self _).trans hbound).trans (hc ▸ hnear)

theorem Grid.nearest_le (h : F.Grid r) (hle : q ≤ r) : F.nearest q ≤ r := by
  have hneg := h.neg.le_nearest (neg_le_neg hle)
  rw [nearest_neg] at hneg
  exact neg_le_neg_iff.mp hneg

lemma Grid.nearest_eq (h : F.Grid q) : F.nearest q = q :=
  le_antisymm (h.nearest_le le_rfl) (h.le_nearest le_rfl)

lemma Grid.abs_nearest_le (h : F.Grid r) (hle : |q| ≤ |r|) : |F.nearest q| ≤ |r| := by
  have habs : F.Grid |r| := by
    rcases abs_choice r with heq | heq
    · rwa [heq]
    · rw [heq]
      exact h.neg
  exact abs_le.mpr ⟨habs.neg.le_nearest (abs_le.mp hle).1, habs.nearest_le (abs_le.mp hle).2⟩

lemma grid_nearest (q : ℚ) : F.Grid (F.nearest q) := by
  have hlt : |q| ≤ ((2 ^ F.precision : ℤ) : ℚ) * F.unit q := by
    have hlog : |q| < (2 : ℚ) ^ (Int.log 2 |q| + 1) := Int.lt_zpow_succ_log_self (by norm_num) |q|
    have hexp : (2 : ℚ) ^ (Int.log 2 |q| + 1) ≤
        2 ^ (F.precision + max (Int.log 2 |q| + 1 - F.precision) F.emin : ℤ) := by
      refine zpow_le_zpow_right₀ (by norm_num) ?_
      have := le_max_left (Int.log 2 |q| + 1 - F.precision) F.emin
      omega
    rw [zpow_add₀ (by norm_num) (F.precision : ℤ), zpow_natCast] at hexp
    push_cast
    exact hlog.le.trans hexp
  obtain ⟨hlow, hhigh⟩ := abs_le.mp hlt
  refine ⟨roundEven (q / F.unit q), _, abs_le.mpr ⟨?_, ?_⟩, le_max_right _ _, rfl⟩
  · refine le_roundEven ?_
    rw [le_div_iff₀ unit_pos]
    push_cast at hlow ⊢
    linarith
  · exact roundEven_le ((div_le_iff₀ unit_pos).mpr hhigh)

end Format

/-- What a number can be; the sign of a zero is left out. -/
inductive Number (F : Format)
  | finite (q : ℚ) (grid : F.Grid q) (lt : |q| < 2 ^ F.emax)
  | inf (negative : Bool)
  | nan

namespace Number

variable {F : Format}

/-- The nearest number, or an infinity. -/
def ofRat (F : Format) (q : ℚ) : Number F :=
  if h : |F.nearest q| < 2 ^ F.emax then .finite (F.nearest q) (Format.grid_nearest q) h
  else .inf (q < 0)

/-- Times an integer. -/
def times (v : Number F) (n : ℤ) : Number F :=
  match v with
  | .finite q .. => ofRat F (q * n)
  | .inf negative => if n = 0 then .nan else .inf (negative ^^ n < 0)
  | .nan => .nan

/-- Over a positive integer. -/
def div (v : Number F) (n : ℕ) : Number F :=
  match v with
  | .finite q .. => ofRat F (q / n)
  | .inf negative => .inf negative
  | .nan => .nan

/-- Less than; `nan` is less than nothing, and nothing than it. -/
def lt : Number F → Number F → Bool
  | .finite q .., .finite r .. => q < r
  | .finite .., .inf negative => !negative
  | .inf negative, .finite .. => negative
  | .inf a, .inf b => a && !b
  | _, _ => false

def sub : Number F → Number F → Number F
  | .finite q .., .finite r .. => ofRat F (q - r)
  | .finite .., .inf negative => .inf (!negative)
  | .inf negative, .finite .. => .inf negative
  | .inf a, .inf b => if a = b then .nan else .inf a
  | _, _ => .nan

/-- Over a number that is not zero. -/
def quot : Number F → Number F → Number F
  | .finite q .., .finite r .. => ofRat F (q / r)
  | .finite .., .inf _ => ofRat F 0
  | .inf negative, .finite r .. => .inf (negative ^^ r < 0)
  | _, _ => .nan

/-- The integer towards zero; an infinity has none. -/
def trunc : Number F → Option ℤ
  | .finite q .. => some (if 0 ≤ q then ⌊q⌋ else ⌈q⌉)
  | _ => none

def value : Number F → Option ℚ
  | .finite q .. => some q
  | _ => none

/-- The nearest integer; an infinity has none. -/
def round : Number F → Option ℤ
  | .finite q .. => some (roundEven q)
  | _ => none

lemma value_eq_some {v : Number F} {q : ℚ} (h : v.value = some q) :
    F.Grid q ∧ |q| < 2 ^ F.emax := by
  cases v with
  | finite r grid lt =>
    obtain rfl := Option.some.inj h
    exact ⟨grid, lt⟩
  | inf => cases h
  | nan => cases h

lemma round_ofRat {q : ℚ} : (ofRat F q).round =
    if |F.nearest q| < 2 ^ F.emax then some (roundEven (F.nearest q)) else none := by
  rw [ofRat]
  split <;> rfl

lemma round_times {v : Number F} {n k : ℤ} (h : (v.times n).round = some k) :
    ∃ q, v.value = some q ∧ |F.nearest (q * n)| < 2 ^ F.emax ∧ roundEven (F.nearest (q * n)) = k := by
  cases v with
  | finite q grid lt =>
    rw [times, round_ofRat] at h
    split at h
    · exact ⟨q, rfl, ‹_›, Option.some.inj h⟩
    · cases h
  | inf =>
    rw [times] at h
    split at h <;> cases h
  | nan => cases h

lemma times_round {v : Number F} {q : ℚ} {n : ℤ} (hv : v.value = some q)
    (h : |F.nearest (q * n)| < 2 ^ F.emax) : (v.times n).round = some (roundEven (F.nearest (q * n))) := by
  cases v with
  | finite r grid lt =>
    obtain rfl := Option.some.inj hv
    rw [times, round_ofRat, if_pos h]
  | inf => cases hv
  | nan => cases hv

end Number

end Ledwall.Library.Floats
