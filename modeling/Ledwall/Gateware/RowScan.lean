import Ledwall.Library.Fairness
import Ledwall.Gateware.Icn1065Output

/-! The row scanner over a whole run: where its slots lie, and the row pulse of each of them. -/

namespace Ledwall.Gateware.Spwm

open Ledwall.Library.Fairness (along)

/-- The tick on which a slot begins, counted from the reset; a pass of the rows is followed by one tick
on which the scanner is started again. -/
def slotStart (rows slotLen q : ℕ) : ℕ := q * slotLen + q / rows + 1

/-- The last tick of a pass. -/
def passEnd (rows slotLen m : ℕ) : ℕ := slotStart rows slotLen (m * rows + (rows - 1)) + (slotLen - 1)

namespace RowScanner

variable (rows slotLen : ℕ) (pulses : ℕ → RowPulses)

/-- One tick of a scanner that is started whenever it is not busy. -/
def freeRun (s : RowScanner) (p : RowPulses) : RowScanner := s.next rows slotLen p (!s.busy)

/-- The scanner on a tick, counted from the reset. -/
def onTick (k : ℕ) : RowScanner := along (freeRun rows slotLen) {} pulses k

/-- The counter of passes during a pass. -/
def passCount : ℕ → BitVec 7
  | 0 => 0
  | m + 1 =>
    if passCount m ≥ (pulses (passEnd rows slotLen m)).passesM1 then 0 else passCount m + 1

/-- The scanner in a slot, so many ticks behind its start. -/
def within (q i : ℕ) : RowScanner := ⟨true, q % rows, slotLen - i, passCount rows slotLen pulses (q / rows)⟩

/-- The scanner on the tick behind the last slot of a pass. -/
def between (q : ℕ) : RowScanner := ⟨false, q % rows, 0, passCount rows slotLen pulses (q / rows + 1)⟩

variable {rows slotLen pulses} {q i : ℕ}

lemma onTick_succ (k : ℕ) :
    onTick rows slotLen pulses (k + 1) = freeRun rows slotLen (onTick rows slotLen pulses k) (pulses k) :=
  rfl

lemma oe_iff {s : RowScanner} {p : RowPulses} :
    s.oe slotLen p = true ↔ s.inSlot = true ∧ (slotLen : ℤ) - s.width p < s.left := by
  rw [oe, Bool.and_eq_true, decide_eq_true_iff]

lemma slotStart_succ (rows slotLen q : ℕ) : slotStart rows slotLen (q + 1) =
    slotStart rows slotLen q + slotLen + if rows ∣ q + 1 then 1 else 0 := by
  rw [slotStart, slotStart, Nat.succ_div]
  split <;> ring

lemma freeRun_within (p : RowPulses) (hi : i + 1 < slotLen) :
    freeRun rows slotLen (within rows slotLen pulses q i) p = within rows slotLen pulses q (i + 1) := by
  have hleft : slotLen - i ≠ 1 := by omega
  simp only [freeRun, next, within, if_true, hleft, if_false, Nat.sub_sub]

lemma mod_succ_of_dvd (h : rows ∣ q + 1) : q % rows + 1 = rows ∧ (q + 1) % rows = 0 := by
  have hmod : (q + 1) % rows = 0 := Nat.mod_eq_zero_of_dvd h
  have hq := Nat.div_add_mod q rows
  have hsucc := Nat.div_add_mod (q + 1) rows
  rw [Nat.succ_div, if_pos h, hmod, Nat.mul_succ] at hsucc
  exact ⟨by omega, hmod⟩

lemma mod_succ_of_not_dvd (h : ¬ rows ∣ q + 1) : (q + 1) % rows = q % rows + 1 := by
  have hq := Nat.div_add_mod q rows
  have hsucc := Nat.div_add_mod (q + 1) rows
  rw [Nat.succ_div, if_neg h, Nat.add_zero] at hsucc
  omega

lemma eq_passEnd (h : rows ∣ q + 1) :
    slotStart rows slotLen q + (slotLen - 1) = passEnd rows slotLen (q / rows) := by
  have hq := Nat.div_add_mod q rows
  have hlast := (mod_succ_of_dvd h).1
  have : q / rows * rows + (rows - 1) = q := by
    rw [Nat.mul_comm]
    omega
  rw [passEnd, this]

lemma freeRun_next (hrows : 0 < rows) (hlen : 0 < slotLen) (h : ¬ rows ∣ q + 1) (p : RowPulses) :
    freeRun rows slotLen (within rows slotLen pulses q (slotLen - 1)) p =
      within rows slotLen pulses (q + 1) 0 := by
  have hleft : slotLen - (slotLen - 1) = 1 := by omega
  have hmod := mod_succ_of_not_dvd h
  have hne : q % rows ≠ rows - 1 := by
    have := Nat.mod_lt (q + 1) hrows
    omega
  have hdiv : (q + 1) / rows = q / rows := by rw [Nat.succ_div, if_neg h, Nat.add_zero]
  simp [freeRun, next, within, hleft, hne, hmod, hdiv]

lemma freeRun_between (hlen : 0 < slotLen) (h : rows ∣ q + 1) :
    freeRun rows slotLen (within rows slotLen pulses q (slotLen - 1))
      (pulses (slotStart rows slotLen q + (slotLen - 1))) = between rows slotLen pulses q := by
  have hleft : slotLen - (slotLen - 1) = 1 := by omega
  have hlast : q % rows = rows - 1 := by
    have := (mod_succ_of_dvd h).1
    omega
  rw [eq_passEnd h, between, passCount]
  simp [freeRun, next, within, hleft, hlast]

lemma freeRun_of_between (h : rows ∣ q + 1) (p : RowPulses) :
    freeRun rows slotLen (between rows slotLen pulses q) p = within rows slotLen pulses (q + 1) 0 := by
  have hdiv : (q + 1) / rows = q / rows + 1 := by rw [Nat.succ_div, if_pos h]
  simp [freeRun, next, busy, between, within, (mod_succ_of_dvd h).2, hdiv]

/-- The rows are scanned one behind the other, each for its slot. By induction on the slot, and in it on
the tick. -/
theorem onTick_slot (hrows : 0 < rows) (hlen : 0 < slotLen) (q : ℕ) : ∀ i < slotLen,
    onTick rows slotLen pulses (slotStart rows slotLen q + i) = within rows slotLen pulses q i := by
  induction q with
  | zero =>
    intro i
    induction i with
    | zero =>
      intro _
      simp [slotStart, onTick, along, freeRun, next, busy, within, passCount]
    | succ i ih =>
      intro hi
      rw [← Nat.add_assoc, onTick_succ, ih (Nat.lt_of_succ_lt hi), freeRun_within _ hi]
  | succ q ihq =>
    have hlast := ihq (slotLen - 1) (Nat.sub_lt hlen Nat.one_pos)
    have hfirst : onTick rows slotLen pulses (slotStart rows slotLen (q + 1)) =
        within rows slotLen pulses (q + 1) 0 := by
      have hend : slotStart rows slotLen q + slotLen = slotStart rows slotLen q + (slotLen - 1) + 1 := by
        omega
      by_cases h : rows ∣ q + 1
      · rw [slotStart_succ, if_pos h, hend, onTick_succ, onTick_succ, hlast, freeRun_between hlen h,
          freeRun_of_between h]
      · rw [slotStart_succ, if_neg h, hend, Nat.add_zero, onTick_succ, hlast, freeRun_next hrows hlen h]
    intro i
    induction i with
    | zero => exact fun _ => hfirst
    | succ i ih =>
      intro hi
      rw [← Nat.add_assoc, onTick_succ, ih (Nat.lt_of_succ_lt hi), freeRun_within _ hi]

/-- Between two passes the scanner is idle for one tick, in the last row. -/
theorem onTick_between (hrows : 0 < rows) (hlen : 0 < slotLen) (h : rows ∣ q + 1) :
    onTick rows slotLen pulses (slotStart rows slotLen q + slotLen) = between rows slotLen pulses q := by
  have hend : slotStart rows slotLen q + slotLen = slotStart rows slotLen q + (slotLen - 1) + 1 := by
    omega
  rw [hend, onTick_succ, onTick_slot hrows hlen q _ (Nat.sub_lt hlen Nat.one_pos), freeRun_between hlen h]

end RowScanner

end Ledwall.Gateware.Spwm
