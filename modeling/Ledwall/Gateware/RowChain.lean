import Ledwall.Gateware.RowScan
import Ledwall.Gateware.ShiftClock

/-! The serial row chain of a board: the sequencer of its pins, and the shift register behind them. -/

namespace Ledwall.Gateware.Spwm

open Ledwall.Library.Edges
open Ledwall.Library.Fairness (along)

/-- `row_ser`, when it is enabled. -/
structure RowSer where
  aSrc : BitVec 2
  bSrc : BitVec 2
  cSrc : BitVec 2
  inv : BitVec 3
  lckW : BitVec 4
  bkW : BitVec 5
  lckDly : BitVec 3

namespace RowSer

variable (r : RowSer)

def lckEnd : ℕ := r.lckDly.toNat + r.lckW.toNat

def span : ℕ := if r.lckEnd > r.bkW.toNat then r.lckEnd else r.bkW.toNat

lemma lckEnd_le_span : r.lckEnd ≤ r.span := by
  unfold span
  split <;> omega

end RowSer

/-- The sequencer of a row change, whose registers move on ticks alone. -/
structure RowChain where
  prevRow : ℕ := 0
  serCnt : ℕ := 0
  serRun : Bool := false
  serDin : Bool := false

namespace RowChain

variable (r : RowSer) (c : RowChain)

/-- One tick, with the row that is scanned. -/
def next (scanRow : ℕ) : RowChain :=
  if scanRow ≠ c.prevRow then ⟨scanRow, 0, true, scanRow = 0⟩
  else if c.serRun then
    if r.span ≤ c.serCnt then { c with prevRow := scanRow, serRun := false }
    else { c with prevRow := scanRow, serCnt := c.serCnt + 1 }
  else { c with prevRow := scanRow }

def din : Bool := c.serRun && c.serDin

def lck : Bool := c.serRun && (r.lckDly.toNat ≤ c.serCnt && c.serCnt < r.lckEnd)

def bk : Bool := c.serRun && c.serCnt < r.bkW.toNat

/-- What a pin carries. -/
def pick (src : BitVec 2) : Bool :=
  if src = 0 then c.din else if src = 1 then c.lck r else if src = 2 then c.bk r else false

/-- `ser_row`: the pins A to E. -/
def serRow : List Bool :=
  [c.pick r r.aSrc ^^ r.inv.getLsbD 0, c.pick r r.bSrc ^^ r.inv.getLsbD 1,
    c.pick r r.cSrc ^^ r.inv.getLsbD 2, false, false]

end RowChain

/-- A row driver's chain, which takes DIN in on a rising edge of LCK. -/
def shiftIn (din : Bool) (chain : ℕ → Bool) : ℕ → Bool
  | 0 => din
  | i + 1 => chain i

/-- The chain's contents under the signals, from what it held at first. -/
def chainAt (lck din : ℕ → Bool) (chain : ℕ → Bool) : ℕ → ℕ → Bool
  | 0 => chain
  | k + 1 =>
    if lck k = false ∧ lck (k + 1) = true then shiftIn (din (k + 1)) (chainAt lck din chain k)
    else chainAt lck din chain k

section Board

variable {z : Shape} {n : ℕ} [NeZero n] (r : RowSer)

/-- What the board meets on a tick: the live settings, and what the stage samples. -/
abbrev TickInputs (z : Shape) (n : ℕ) := Settings × StageInputs z n

/-- One tick of the stage and of the row sequencer. -/
def boardStep (s : Stage z n × RowChain) (i : TickInputs z n) : Stage z n × RowChain :=
  (s.1.next i.1 i.2, s.2.next r (s.1.outs 0).scan.row)

variable (schedule : ℕ → TickInputs z n)

def boardAt (k : ℕ) : Stage z n × RowChain := along (boardStep r) ({}, {}) schedule k

def pulsesAt (k : ℕ) : RowPulses := (schedule k).1.output.toRowPulses

def scanRowAt (k : ℕ) : ℕ := ((boardAt r schedule k).1.outs 0).scan.row

def oeAt (k : ℕ) : Bool := ((boardAt r schedule k).1.outs 0).oe (schedule k).1.output

def lckAt (k : ℕ) : Bool := (boardAt r schedule k).2.lck r

def dinAt (k : ℕ) : Bool := (boardAt r schedule k).2.din

end Board

/-- How many passes there have been since the last wide one: the next is wide when they have reached the
setting plus one. -/
def sinceWide (passes : ℕ → ℕ) : ℕ → ℕ
  | 0 => 0
  | m + 1 => if passes m + 1 ≤ sinceWide passes m + 1 then 0 else sinceWide passes m + 1

section Meaning

variable {z : Shape} {n : ℕ} [NeZero n] (r : RowSer) (schedule : ℕ → TickInputs z n)

/-- When a slot begins. -/
abbrev Shape.slotAt (z : Shape) (q : ℕ) : ℕ := slotStart z.rowsPerFrame z.slotLen q

/-- The number of passes set, at the end of each pass. -/
def passesAt (m : ℕ) : ℕ := (pulsesAt schedule (passEnd z.rowsPerFrame z.slotLen m)).passesM1.toNat

/-- Slots of row 0 in the passes whose count has reached the setting plus one. -/
def WideSlot (q : ℕ) : Prop :=
  q % z.rowsPerFrame = 0 ∧ sinceWide (passesAt schedule) (q / z.rowsPerFrame) = 0

instance (q : ℕ) : Decidable (WideSlot schedule q) := inferInstanceAs (Decidable (_ ∧ _))

/-- The width that is set for a slot on a tick, the wide one or the narrow one. -/
def widthAt (q k : ℕ) : ℕ :=
  if WideSlot schedule q then (pulsesAt schedule k).pulseWFirst.toNat
  else (pulsesAt schedule k).pulseW.toNat

/-- One OE pulse in each slot, at its head, of the width that is set when the slot begins. -/
structure OnePulse : Prop where
  row : ∀ q i, i < z.slotLen → scanRowAt r schedule (z.slotAt q + i) = q % z.rowsPerFrame
  pulse : ∀ q i, i < z.slotLen →
    (oeAt r schedule (z.slotAt q + i) = true ↔ i < widthAt schedule q (z.slotAt q))
  some : ∀ q, 0 < widthAt schedule q (z.slotAt q)
  /-- Outside of the slots there is none. -/
  pause : ∀ k, (∀ q i, i < z.slotLen → k ≠ z.slotAt q + i) → oeAt r schedule k = false

/-- One LCK pulse for each row that the scanner comes to, from `up` to `down`, with DIN stable around it. -/
structure LatchPulses (up down : ℕ → ℕ) : Prop where
  slot : ∀ q, 1 ≤ q → z.slotAt q + 1 < up q ∧ up q < down q ∧ down q ≤ z.slotAt (q + 1)
  lck : ∀ q k, z.slotAt q < k → k ≤ z.slotAt (q + 1) →
    (lckAt r schedule k = true ↔ 1 ≤ q ∧ up q ≤ k ∧ k < down q)
  din : ∀ q k, 1 ≤ q → up q ≤ k + 1 → k ≤ down q →
    (dinAt r schedule k = true ↔ q % z.rowsPerFrame = 0)
  /-- DIN is high for row 0 alone. -/
  only : ∀ q k, z.slotAt q < k → k ≤ z.slotAt (q + 1) → dinAt r schedule k = true →
    q % z.rowsPerFrame = 0

/-- From the second pass on the chain holds a single 1, at the row that is scanned. -/
structure RowWalk (chain : ℕ → Bool) (up down : ℕ → ℕ) : Prop extends LatchPulses r schedule up down where
  single : ∀ q k i, z.rowsPerFrame ≤ q → up q ≤ k → k < up (q + 1) → i < z.rowsPerFrame →
    (chainAt (lckAt r schedule) (dinAt r schedule) chain k i = true ↔ i = q % z.rowsPerFrame)

/-- The row drive never loses its place. -/
structure RowDrive (chain : ℕ → Bool) : Prop where
  onePulse : OnePulse r schedule
  rowWalk : ∃ up down, RowWalk r schedule chain up down

/-- No width that is set within a slot moves the end of its pulse, and none is zero when a slot begins. -/
def HeldWidths : Prop :=
  ∀ q, 0 < widthAt schedule q (z.slotAt q) ∧ ∀ i < z.slotLen,
    (i < widthAt schedule q (z.slotAt q + i) ↔ i < widthAt schedule q (z.slotAt q))

/-- A latch pulse that is there, comes behind its data, and ends ahead of the slot. -/
def LatchesWithin (slotLen : ℕ) : Prop := 0 < r.lckW.toNat ∧ 0 < r.lckDly.toNat ∧ r.lckEnd < slotLen

end Meaning

section Widths

variable {z : Shape} {n : ℕ} {schedule : ℕ → TickInputs z n} {q i k : ℕ}

lemma passCount_toNat (m : ℕ) :
    (RowScanner.passCount z.rowsPerFrame z.slotLen (pulsesAt schedule) m).toNat =
      sinceWide (passesAt schedule) m := by
  induction m with
  | zero => rfl
  | succ m ih =>
    have hpasses := (pulsesAt schedule (passEnd z.rowsPerFrame z.slotLen m)).passesM1.isLt
    rw [RowScanner.passCount, sinceWide, ← ih, passesAt]
    by_cases h : RowScanner.passCount z.rowsPerFrame z.slotLen (pulsesAt schedule) m ≥
        (pulsesAt schedule (passEnd z.rowsPerFrame z.slotLen m)).passesM1
    · rw [if_pos h, if_pos (Nat.succ_le_succ (BitVec.le_def.mp h))]
      rfl
    · have hlt := BitVec.not_le.mp h
      rw [BitVec.lt_def] at hlt
      rw [if_neg h, if_neg (by omega), BitVec.toNat_add]
      exact Nat.mod_eq_of_lt (by change _ + 1 < 128; omega)

lemma width_within : (RowScanner.within z.rowsPerFrame z.slotLen (pulsesAt schedule) q i).width
    (pulsesAt schedule k) = widthAt schedule q k := by
  have hcount : RowScanner.passCount z.rowsPerFrame z.slotLen (pulsesAt schedule) (q / z.rowsPerFrame) = 0 ↔
      sinceWide (passesAt schedule) (q / z.rowsPerFrame) = 0 := by
    rw [← passCount_toNat, BitVec.toNat_eq]
    rfl
  have hwide : (RowScanner.within z.rowsPerFrame z.slotLen (pulsesAt schedule) q i).wide = true ↔
      WideSlot schedule q := by
    rw [WideSlot, ← hcount]
    simp [RowScanner.wide, RowScanner.within]
  unfold RowScanner.width widthAt
  by_cases h : WideSlot schedule q
  · rw [if_pos (hwide.mpr h), if_pos h]
  · rw [if_neg (mt hwide.mp h), if_neg h]

end Widths

section Scanning

variable {z : Shape} {n : ℕ} [NeZero n] {r : RowSer} {schedule : ℕ → TickInputs z n} {q i k : ℕ}

lemma next_scan {z : Shape} (s : Icn1065Output z) (c : OutputConfig) (pre : SpwmPrefix) (start : Bool)
    (pixIn : z.Channels → BitVec z.greyBits) : (s.next c pre start pixIn).scan =
      s.scan.freeRun z.rowsPerFrame z.slotLen c.toRowPulses := by
  unfold Icn1065Output.next
  cases s.fsm with
  | idle => dsimp only; split <;> rfl
  | hold => dsimp only; split <;> rfl
  | prefixReq => rfl
  | prefixWait => dsimp only; split <;> rfl
  | phase =>
    dsimp only
    split
    · rfl
    · split <;> rfl
  | pixels =>
    dsimp only
    split
    · unfold Icn1065Output.advance
      split
      · split
        · split <;> rfl
        · rfl
      · rfl
    · rfl
  | drain => dsimp only; split <;> rfl

lemma scan_boardAt (k : ℕ) : ((boardAt r schedule k).1.outs 0).scan =
    RowScanner.onTick z.rowsPerFrame z.slotLen (pulsesAt schedule) k := by
  induction k with
  | zero => rfl
  | succ k ih =>
    rw [RowScanner.onTick_succ, ← ih]
    exact next_scan _ _ _ _ _

lemma oe_slot (hrows : 0 < z.rowsPerFrame) (hi : i < z.slotLen) :
    oeAt r schedule (z.slotAt q + i) = true ↔ i < widthAt schedule q (z.slotAt q + i) := by
  rw [oeAt, Icn1065Output.oe, scan_boardAt,
    RowScanner.onTick_slot hrows (Nat.zero_lt_of_lt hi) q i hi]
  change RowScanner.oe z.slotLen _ (pulsesAt schedule (z.slotAt q + i)) = true ↔ _
  rw [RowScanner.oe_iff, width_within]
  simp only [RowScanner.within, true_and]
  omega

lemma slotAt_succ (z : Shape) (q : ℕ) : z.slotAt (q + 1) =
    z.slotAt q + z.slotLen + if z.rowsPerFrame ∣ q + 1 then 1 else 0 :=
  RowScanner.slotStart_succ _ _ _

lemma exists_slot (hlen : 0 < z.slotLen) (hk : 1 ≤ k) : ∃ q, z.slotAt q ≤ k ∧ k < z.slotAt (q + 1) := by
  induction k, hk using Nat.le_induction with
  | base =>
    have hzero : z.slotAt 0 = 1 := by simp [slotStart]
    refine ⟨0, hzero.le, ?_⟩
    rw [slotAt_succ, hzero]
    omega
  | succ k hk ih =>
    obtain ⟨q, hle, hlt⟩ := ih
    rcases Nat.lt_or_ge (k + 1) (z.slotAt (q + 1)) with h | h
    · exact ⟨q, Nat.le_succ_of_le hle, h⟩
    · refine ⟨q + 1, h, ?_⟩
      rw [slotAt_succ]
      omega

lemma slot_or_between (hk : z.slotAt q ≤ k) (hk' : k < z.slotAt (q + 1)) :
    (∃ i < z.slotLen, k = z.slotAt q + i) ∨
      (z.rowsPerFrame ∣ q + 1 ∧ k = z.slotAt q + z.slotLen) := by
  rw [slotAt_succ] at hk'
  rcases Nat.lt_or_ge k (z.slotAt q + z.slotLen) with h | h
  · exact .inl ⟨k - z.slotAt q, by omega, by omega⟩
  · split at hk'
    next hdvd => exact .inr ⟨hdvd, by omega⟩
    next => exact absurd h (not_le.mpr hk')

lemma scanRow_eq (hrows : 0 < z.rowsPerFrame) (hlen : 0 < z.slotLen) (hk : z.slotAt q ≤ k)
    (hk' : k < z.slotAt (q + 1)) : scanRowAt r schedule k = q % z.rowsPerFrame := by
  rw [scanRowAt, scan_boardAt]
  rcases slot_or_between hk hk' with ⟨i, hi, rfl⟩ | ⟨hdvd, rfl⟩
  · rw [RowScanner.onTick_slot hrows hlen q i hi]
    rfl
  · rw [RowScanner.onTick_between hrows hlen hdvd]
    rfl

lemma oe_pause (hrows : 0 < z.rowsPerFrame) (hlen : 0 < z.slotLen)
    (hk : ∀ q i, i < z.slotLen → k ≠ z.slotAt q + i) : oeAt r schedule k = false := by
  have hidle : ((boardAt r schedule k).1.outs 0).scan.inSlot = false := by
    rw [scan_boardAt]
    rcases Nat.eq_zero_or_pos k with rfl | hpos
    · rfl
    · obtain ⟨q, hle, hlt⟩ := exists_slot hlen hpos
      rcases slot_or_between hle hlt with ⟨i, hi, heq⟩ | ⟨hdvd, rfl⟩
      · exact absurd heq (hk q i hi)
      · rw [RowScanner.onTick_between hrows hlen hdvd]
        rfl
  rw [oeAt, Icn1065Output.oe, RowScanner.oe, hidle, Bool.false_and]

lemma onePulse_iff (hrows : 0 < z.rowsPerFrame) (hlen : 0 < z.slotLen) :
    OnePulse r schedule ↔ HeldWidths schedule := by
  constructor
  · intro h q
    refine ⟨h.some q, fun i hi => ?_⟩
    rw [← oe_slot hrows hi, h.pulse q i hi]
  · intro h
    refine ⟨?_, ?_, fun q => (h q).1, fun k hk => oe_pause hrows hlen hk⟩
    · intro q i hi
      refine scanRow_eq hrows hlen (Nat.le_add_right _ i) ?_
      rw [slotAt_succ]
      omega
    · intro q i hi
      rw [oe_slot hrows hi, (h q).2 i hi]

end Scanning

namespace RowChain

variable {r : RowSer} {c : RowChain} {row j : ℕ}

/-- The sequencer so many ticks behind a change to a row. -/
structure Behind (r : RowSer) (row j : ℕ) (c : RowChain) : Prop where
  prevRow : c.prevRow = row
  run : c.serRun = true ↔ j ≤ r.span
  cnt : j ≤ r.span → c.serCnt = j
  din : c.serDin = true ↔ row = 0

lemma behind_of_change (h : c.prevRow ≠ row) : Behind r row 0 (c.next r row) := by
  rw [next, if_pos (Ne.symm h)]
  exact ⟨rfl, by simp, fun _ => rfl, by simp⟩

lemma Behind.next (h : Behind r row j c) : Behind r row (j + 1) (c.next r row) := by
  have hsame : ¬ row ≠ c.prevRow := fun hne => hne h.prevRow.symm
  rw [RowChain.next, if_neg hsame]
  by_cases hrun : j ≤ r.span
  · rw [if_pos (h.run.mpr hrun), h.cnt hrun]
    by_cases hend : r.span ≤ j
    · rw [if_pos hend]
      exact ⟨rfl, by simp; omega, fun hlt => absurd hlt (by omega), h.din⟩
    · rw [if_neg hend]
      exact ⟨rfl, by simp [h.run.mpr hrun]; omega, fun _ => rfl, h.din⟩
  · rw [if_neg (mt h.run.mp hrun)]
    exact ⟨rfl, by simp [mt h.run.mp hrun]; omega, fun hlt => absurd hlt (by omega), h.din⟩

lemma Behind.lck_iff (h : Behind r row j c) :
    c.lck r = true ↔ r.lckDly.toNat ≤ j ∧ j < r.lckEnd := by
  have hspan := r.lckEnd_le_span
  simp only [lck, Bool.and_eq_true, h.run, decide_eq_true_eq]
  constructor
  · rintro ⟨hrun, hcnt⟩
    rwa [h.cnt hrun] at hcnt
  · rintro ⟨hle, hlt⟩
    have hrun : j ≤ r.span := by omega
    rw [h.cnt hrun]
    exact ⟨hrun, hle, hlt⟩

lemma Behind.din_iff (h : Behind r row j c) : c.din = true ↔ j ≤ r.span ∧ row = 0 := by
  rw [RowChain.din, Bool.and_eq_true, h.run, h.din]

end RowChain

section Walking

variable {z : Shape} {n : ℕ} [NeZero n] {r : RowSer} {schedule : ℕ → TickInputs z n} {q j k : ℕ}

lemma chain_succ (k : ℕ) : (boardAt r schedule (k + 1)).2 =
    (boardAt r schedule k).2.next r (scanRowAt r schedule k) := rfl

lemma prevRow_succ (k : ℕ) : (boardAt r schedule (k + 1)).2.prevRow = scanRowAt r schedule k := by
  rw [chain_succ, RowChain.next]
  split
  · rfl
  · split
    · split <;> rfl
    · rfl

lemma slotAt_lt (hlen : 0 < z.slotLen) (q : ℕ) : z.slotAt q < z.slotAt (q + 1) := by
  rw [slotAt_succ]
  omega

lemma behind_slot (hrows : 2 ≤ z.rowsPerFrame) (hlen : 0 < z.slotLen) (hq : 1 ≤ q) (j : ℕ) :
    z.slotAt q + 1 + j ≤ z.slotAt (q + 1) →
      RowChain.Behind r (q % z.rowsPerFrame) j (boardAt r schedule (z.slotAt q + 1 + j)).2 := by
  have hpos : 0 < z.rowsPerFrame := by omega
  induction j with
  | zero =>
    intro _
    obtain ⟨p, rfl⟩ := Nat.exists_eq_add_of_le' hq
    have hlt := slotAt_lt hlen p
    obtain ⟨k, hk⟩ : ∃ k, z.slotAt (p + 1) = k + 1 := ⟨z.slotAt (p + 1) - 1, by omega⟩
    rw [Nat.add_zero, chain_succ, scanRow_eq hpos hlen le_rfl (slotAt_lt hlen _)]
    apply RowChain.behind_of_change
    rw [hk, prevRow_succ, scanRow_eq hpos hlen (by omega) (by omega : k < z.slotAt (p + 1))]
    -- the row before is another
    by_cases hdvd : z.rowsPerFrame ∣ p + 1
    · obtain ⟨hlast, hzero⟩ := RowScanner.mod_succ_of_dvd hdvd
      omega
    · have := RowScanner.mod_succ_of_not_dvd hdvd
      omega
  | succ j ih =>
    intro hle
    rw [← Nat.add_assoc, chain_succ, scanRow_eq (q := q) hpos hlen (by omega) (by omega)]
    exact (ih (by omega)).next

lemma quiet_first (hrows : 0 < z.rowsPerFrame) (hlen : 0 < z.slotLen) (k : ℕ) :
    k ≤ z.slotAt 1 → (boardAt r schedule k).2 = {} := by
  induction k with
  | zero => exact fun _ => rfl
  | succ k ih =>
    intro hk
    have hrow : scanRowAt r schedule k = 0 := by
      rcases Nat.eq_zero_or_pos k with rfl | hpos
      · rfl
      · have hzero : z.slotAt 0 = 1 := by simp [slotStart]
        rw [scanRow_eq hrows hlen (q := 0) (by omega) hk, Nat.zero_mod]
    rw [chain_succ, ih (Nat.le_of_succ_le hk), hrow]
    rfl

variable {chain : ℕ → Bool} {up down : ℕ → ℕ}

lemma LatchPulses.rises (h : LatchPulses r schedule up down) (hq : 1 ≤ q) (hk : k + 1 = up q) :
    lckAt r schedule k = false ∧ lckAt r schedule (k + 1) = true := by
  obtain ⟨hup, hdown, hend⟩ := h.slot q hq
  constructor
  · rw [← Bool.not_eq_true, h.lck q k (by omega) (by omega)]
    omega
  · rw [h.lck q (k + 1) (by omega) (by omega)]
    omega

lemma LatchPulses.not_rises (h : LatchPulses r schedule up down) (hq : 1 ≤ q) (hk : up q ≤ k)
    (hk' : k + 1 < up (q + 1)) : ¬ (lckAt r schedule k = false ∧ lckAt r schedule (k + 1) = true) := by
  obtain ⟨hup, hdown, hend⟩ := h.slot q hq
  obtain ⟨hup', hdown', hend'⟩ := h.slot (q + 1) (Nat.le_add_left 1 q)
  rintro ⟨hlow, hhigh⟩
  rcases Nat.lt_or_ge (z.slotAt (q + 1)) (k + 1) with hlt | hle
  · rw [h.lck (q + 1) (k + 1) hlt (by omega)] at hhigh
    omega
  · rw [h.lck q (k + 1) (by omega) hle] at hhigh
    have : lckAt r schedule k = true := (h.lck q k (by omega) (by omega)).mpr (by omega)
    rw [hlow] at this
    cases this

lemma LatchPulses.taken (h : LatchPulses r schedule up down) (q : ℕ) : ∀ k, up (q + 1) ≤ k →
    k < up (q + 2) → ∀ i ≤ q, (chainAt (lckAt r schedule) (dinAt r schedule) chain k i = true ↔
      (q + 1 - i) % z.rowsPerFrame = 0) := by
  have hslot := h.slot (q + 1) (Nat.le_add_left 1 q)
  obtain ⟨l, hl⟩ : ∃ l, l + 1 = up (q + 1) := ⟨up (q + 1) - 1, by omega⟩
  have hdin := h.din (q + 1) (up (q + 1)) (Nat.le_add_left 1 q) (Nat.le_succ _) hslot.2.1.le
  have hfirst : ∀ i ≤ q, (chainAt (lckAt r schedule) (dinAt r schedule) chain (up (q + 1)) i = true ↔
      (q + 1 - i) % z.rowsPerFrame = 0) := by
    intro i hi
    rw [← hl, chainAt, if_pos (h.rises (Nat.le_add_left 1 q) hl), hl]
    cases i with
    | zero => exact hdin
    | succ i =>
      obtain ⟨q, rfl⟩ := Nat.exists_eq_add_of_le' (Nat.le_trans (Nat.le_add_left 1 i) hi)
      have hslot' := h.slot (q + 1) (Nat.le_add_left 1 q)
      have := h.taken q l (by omega) ((Nat.lt_succ_self l).trans_eq hl) i (Nat.le_of_succ_le_succ hi)
      rw [shiftIn, this, Nat.add_sub_add_right]
  intro k hk
  induction k, hk using Nat.le_induction with
  | base => exact fun _ => hfirst
  | succ k hk ih =>
    intro hlt i hi
    rw [chainAt, if_neg (h.not_rises (Nat.le_add_left 1 q) hk hlt)]
    exact ih (Nat.lt_of_succ_lt hlt) i hi

lemma LatchPulses.rowWalk (h : LatchPulses r schedule up down) :
    RowWalk r schedule chain up down where
  toLatchPulses := h
  single := by
    intro q k i hq hk hk' hi
    obtain ⟨q, rfl⟩ := Nat.exists_eq_add_of_le' (Nat.le_trans (Nat.one_le_iff_ne_zero.mpr (by omega)) hq)
    rw [h.taken q k hk hk' i (by omega), ← Nat.dvd_iff_mod_eq_zero,
      ← Nat.modEq_iff_dvd' (by omega), Nat.ModEq, Nat.mod_eq_of_lt hi]

lemma lck_slot (hrows : 2 ≤ z.rowsPerFrame) (hlen : 0 < z.slotLen) (hq : 1 ≤ q)
    (hj : z.slotAt q + 1 + j ≤ z.slotAt (q + 1)) :
    lckAt r schedule (z.slotAt q + 1 + j) = true ↔ r.lckDly.toNat ≤ j ∧ j < r.lckEnd :=
  (behind_slot hrows hlen hq j hj).lck_iff

lemma din_slot (hrows : 2 ≤ z.rowsPerFrame) (hlen : 0 < z.slotLen) (hq : 1 ≤ q)
    (hj : z.slotAt q + 1 + j ≤ z.slotAt (q + 1)) :
    dinAt r schedule (z.slotAt q + 1 + j) = true ↔ j ≤ r.span ∧ q % z.rowsPerFrame = 0 :=
  (behind_slot hrows hlen hq j hj).din_iff

lemma slotAt_add_le (z : Shape) (q : ℕ) : z.slotAt q + z.slotLen ≤ z.slotAt (q + 1) := by
  rw [slotAt_succ]
  omega

lemma latchPulses (hrows : 2 ≤ z.rowsPerFrame) (h : LatchesWithin r z.slotLen) :
    LatchPulses r schedule (fun q => z.slotAt q + 1 + r.lckDly.toNat)
      (fun q => z.slotAt q + 1 + r.lckEnd) := by
  obtain ⟨hw, hdly, hend⟩ := h
  have hlen : 0 < z.slotLen := Nat.zero_lt_of_lt hend
  have hpos : 0 < z.rowsPerFrame := by omega
  have hlck : r.lckEnd = r.lckDly.toNat + r.lckW.toNat := rfl
  have hspan := r.lckEnd_le_span
  constructor
  · intro q _
    have := slotAt_add_le z q
    omega
  · intro q k hk hk'
    rcases Nat.eq_zero_or_pos q with rfl | hq
    · have hlow : lckAt r schedule k = false := by
        rw [lckAt, quiet_first hpos hlen k hk']
        rfl
      simp [hlow]
    · obtain ⟨j, rfl⟩ : ∃ j, k = z.slotAt q + 1 + j := ⟨k - (z.slotAt q + 1), by omega⟩
      rw [lck_slot hrows hlen hq hk']
      omega
  · intro q k hq hup hdown
    have hle := slotAt_add_le z q
    obtain ⟨j, rfl⟩ : ∃ j, k = z.slotAt q + 1 + j := ⟨k - (z.slotAt q + 1), by omega⟩
    rw [din_slot hrows hlen hq (by omega)]
    exact and_iff_right (by omega)
  · intro q k hk hk' hdin
    rcases Nat.eq_zero_or_pos q with rfl | hq
    · exact Nat.zero_mod _
    · obtain ⟨j, rfl⟩ : ∃ j, k = z.slotAt q + 1 + j := ⟨k - (z.slotAt q + 1), by omega⟩
      exact ((din_slot hrows hlen hq hk').mp hdin).2

lemma LatchPulses.latchesWithin {up down : ℕ → ℕ} (h : LatchPulses r schedule up down)
    (hrows : 2 ≤ z.rowsPerFrame) (hlen : 0 < z.slotLen) (hspan : r.span ≤ z.slotLen) :
    LatchesWithin r z.slotLen := by
  have hlck : r.lckEnd = r.lckDly.toNat + r.lckW.toNat := rfl
  have hle := r.lckEnd_le_span
  obtain ⟨hup, hdown, hend⟩ := h.slot z.rowsPerFrame (by omega)
  have hnext : z.slotAt (z.rowsPerFrame + 1) = z.slotAt z.rowsPerFrame + z.slotLen := by
    have hdvd : ¬ z.rowsPerFrame ∣ z.rowsPerFrame + 1 := by
      rw [Nat.dvd_add_right (dvd_refl _), Nat.dvd_one]
      omega
    rw [slotAt_succ, if_neg hdvd, Nat.add_zero]
  have hiff : ∀ j, z.slotAt z.rowsPerFrame + 1 + j ≤ z.slotAt (z.rowsPerFrame + 1) →
      (r.lckDly.toNat ≤ j ∧ j < r.lckEnd ↔ up z.rowsPerFrame ≤ z.slotAt z.rowsPerFrame + 1 + j ∧
        z.slotAt z.rowsPerFrame + 1 + j < down z.rowsPerFrame) := by
    intro j hj
    have hslot : lckAt r schedule (z.slotAt z.rowsPerFrame + 1 + j) = true ↔ _ :=
      lck_slot hrows hlen (by omega) hj
    rw [← hslot, h.lck z.rowsPerFrame _ (by omega) hj]
    omega
  obtain ⟨j, hj⟩ : ∃ j, up z.rowsPerFrame = z.slotAt z.rowsPerFrame + 1 + j :=
    ⟨up z.rowsPerFrame - (z.slotAt z.rowsPerFrame + 1), by omega⟩
  -- LCK is high on the first tick of the pulse, low on the one before and on the one behind
  have hhigh := (hiff j (by omega)).mpr (by omega)
  have hfirst := hiff r.lckDly.toNat
  have hlast := hiff (r.lckEnd - 1)
  refine ⟨by omega, by omega, by omega⟩

/-- The row drive keeps its place in a run exactly when the widths of each slot's pulse hold while it
lasts, and LCK comes behind its data and ends within the slot. -/
theorem row_drive_iff (r : RowSer) (schedule : ℕ → TickInputs z n) (chain : ℕ → Bool)
    (hrows : 2 ≤ z.rowsPerFrame) (hspan : r.span ≤ z.slotLen)
    (hwidths : ∀ k, (pulsesAt schedule k).pulseW.toNat < z.slotLen ∧
      (pulsesAt schedule k).pulseWFirst.toNat < z.slotLen) :
    RowDrive r schedule chain ↔ HeldWidths schedule ∧ LatchesWithin r z.slotLen := by
  have hlen : 0 < z.slotLen := Nat.zero_lt_of_lt (hwidths 0).1
  constructor
  · rintro ⟨hpulse, up, down, hwalk⟩
    exact ⟨(onePulse_iff (by omega) hlen).mp hpulse,
      hwalk.toLatchPulses.latchesWithin hrows hlen hspan⟩
  · rintro ⟨hheld, hlatch⟩
    exact ⟨(onePulse_iff (by omega) hlen).mpr hheld, _, _, (latchPulses hrows hlatch).rowWalk⟩

end Walking

section Examples

open ShiftStage (small plain)

/-- The reset value of `row_ser`. -/
def rowSer : RowSer := ⟨1, 2, 0, 0, 2, 4, 1⟩

/-- A run on the settings of the build, but for the narrow width. -/
def narrowed (w : ℕ → BitVec 5) (k : ℕ) : TickInputs small 1 :=
  ({ plain with output := { plain.output with pulseW := w k } }, ⟨false, fun _ _ => 0⟩)

theorem row_drive_reset : RowDrive rowSer (narrowed fun _ => 2) (fun _ => true) := by
  have hnarrow : (2 : BitVec 5).toNat < small.slotLen := by decide
  apply (row_drive_iff rowSer (narrowed fun _ => 2) _ (by decide) (by decide)
    (fun _ => ⟨hnarrow, hnarrow⟩)).mpr
  refine ⟨?_, by decide, by decide, by decide⟩
  intro q
  have hwidth : ∀ k, widthAt (narrowed fun _ => 2) q k = 2 := by
    intro k
    rw [widthAt]
    split <;> rfl
  rw [hwidth]
  refine ⟨Nat.two_pos, fun i _ => ?_⟩
  rw [hwidth]

/-- A width raised within a slot, behind the end of its pulse, makes a second pulse there. -/
theorem widened_slot_pulses_twice :
    oeAt rowSer (narrowed fun k => if k < 133 then 2 else 6) 130 = true ∧
    oeAt rowSer (narrowed fun k => if k < 133 then 2 else 6) 132 = false ∧
    oeAt rowSer (narrowed fun k => if k < 133 then 2 else 6) 133 = true ∧
    ¬ RowDrive rowSer (narrowed fun k => if k < 133 then 2 else 6) (fun _ => true) := by
  have hrows : 0 < small.rowsPerFrame := by decide
  have hoe : ∀ i < small.slotLen, oeAt rowSer (narrowed fun k => if k < 133 then 2 else 6) (129 + i) = true ↔
      i < widthAt (narrowed fun k => if k < 133 then 2 else 6) 1 (129 + i) := by
    intro i hi
    exact oe_slot (q := 1) hrows hi
  have hfirst := (hoe 1 (by decide)).mpr (by decide)
  have hlow := mt (hoe 3 (by decide)).mp (by decide)
  have hsecond := (hoe 4 (by decide)).mpr (by decide)
  refine ⟨hfirst, by simpa using hlow, hsecond, ?_⟩
  intro h
  exact absurd ((h.onePulse.pulse 1 4 (by decide)).mp hsecond) (by decide)

end Examples

end Ledwall.Gateware.Spwm
