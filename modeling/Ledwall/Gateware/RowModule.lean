import Mathlib.Data.List.ReduceOption
import Mathlib.Data.Nat.Size
import Ledwall.Library.Runs
import Ledwall.Gateware.RamToBufferReader

/-! The shift-out of a row buffer: the row counter, the buffer's read port and the pins of one output,
one clock cycle at a time. -/

namespace Ledwall.Gateware

open Ledwall.Library.Runs

namespace PanelSize

variable (z : PanelSize)

/-- The words of one output's row: both halves, every column, every chain position. -/
def bufferDepth : ℕ := z.columns * 2 * 2 ^ z.chainLength2

def bufferAddrBits : ℕ := (z.bufferDepth - 1).size

end PanelSize

structure RowModule where
  counter : ℕ := 0
  bufferCounter : ℕ := 0
  shifting : Bool := false
  clk : Bool := false
  deriving DecidableEq, Repr

namespace RowModule

variable (z : PanelSize) (r : RowModule) (start : Bool)

def counterMax : ℕ := z.bufferDepth + 3

def bufferSelect : ℕ := r.bufferCounter % 2

def next : RowModule where
  clk := if r.bufferCounter < 2 then false else r.bufferCounter % 2 = 1
  bufferCounter := r.counter
  counter :=
    if r.counter = 0 ∧ start then 1
    else if r.counter = counterMax z - 1 then 0
    else if 0 < r.counter then r.counter + 1
    else r.counter
  shifting :=
    if r.counter = 0 ∧ start then true
    else if r.counter = counterMax z - 1 then false
    else r.shifting

end RowModule

/-- The three pins of one half, with the pixel they carry a bit of. -/
structure Pins where
  pixel : Pixel := {}
  r : Bool := false
  g : Bool := false
  b : Bool := false
  deriving DecidableEq, Repr

inductive Channel
  | red
  | green
  | blue
  deriving DecidableEq, Repr

/-- The channel of a framebuffer word 0x00RRBBGG. -/
def Channel.src (c : Channel) (w : BitVec 24) : BitVec 8 :=
  match c with
  | .red => w.extractLsb' 16 8
  | .green => w.extractLsb' 0 8
  | .blue => w.extractLsb' 8 8

/-- `RGB_ORDERS`: the channels on the first, second and third pin group. -/
def rgbOrders (order : BitVec 3) : Option (Channel × Channel × Channel) :=
  match order with
  | 0 => some (.red, .green, .blue)
  | 1 => some (.red, .blue, .green)
  | 2 => some (.green, .red, .blue)
  | 3 => some (.green, .blue, .red)
  | 4 => some (.blue, .red, .green)
  | 5 => some (.blue, .green, .red)
  | _ => none

def pinsOf (order : BitVec 3) (outputBit : ℕ) (p : Pixel) : Pins :=
  match rgbOrders order with
  | some (x, y, w) => ⟨p, (x.src p.colour).getLsbD outputBit, (y.src p.colour).getLsbD outputBit,
      (w.src p.colour).getLsbD outputBit⟩
  | none => ⟨p, false, false, false⟩

/-- The row counter with one output: its buffer's read register, the two pins in the making and the
two that are out. -/
structure ShiftOut where
  rowModule : RowModule := {}
  datR : Pixel := {}
  outputsBuffer : Pins × Pins := ({}, {})
  outputs : Pins × Pins := ({}, {})
  deriving DecidableEq, Repr

namespace ShiftOut

variable (z : PanelSize) (buffer : ℕ → Pixel) (order : BitVec 3) (outputBit : ℕ) (s : ShiftOut)
  (start : Bool)

def next : ShiftOut where
  rowModule := s.rowModule.next z start
  datR := buffer (s.rowModule.counter % 2 ^ z.bufferAddrBits)
  outputsBuffer :=
    if s.rowModule.bufferSelect = 0 then (pinsOf order outputBit s.datR, s.outputsBuffer.2)
    else (s.outputsBuffer.1, pinsOf order outputBit s.datR)
  outputs := if s.rowModule.bufferSelect = 0 then s.outputsBuffer else s.outputs

/-- What the panel takes in at the end of a cycle: the pins, when the clock rises. -/
def sampled : Option (Pins × Pins) :=
  if !s.rowModule.clk && (s.rowModule.next z start).clk then
    some (s.next z buffer order outputBit start).outputs
  else none

/-- What the panel takes in from a start on, until the counter is back. -/
def shifted : List (Pins × Pins) :=
  (trail (next z buffer order outputBit) (sampled z buffer order outputBit) s
    (true :: List.replicate (z.bufferDepth + 2) false)).reduceOption

/-- Ready for a row. -/
structure Idle (s : ShiftOut) : Prop where
  counter : s.rowModule.counter = 0
  bufferCounter : s.rowModule.bufferCounter = 0
  clk : s.rowModule.clk = false

variable {z buffer order outputBit s}

/-- What the panel takes in at clock `t`: the two halves' words at `2 t` and `2 t + 1`. -/
def pair (buffer : ℕ → Pixel) (order : BitVec 3) (outputBit t : ℕ) : Pins × Pins :=
  (pinsOf order outputBit (buffer (2 * t)), pinsOf order outputBit (buffer (2 * t + 1)))

/-- The pins of buffer word `m`, as its address is cut. -/
def word (z : PanelSize) (buffer : ℕ → Pixel) (order : BitVec 3) (outputBit m : ℕ) : Pins :=
  pinsOf order outputBit (buffer (m % 2 ^ z.bufferAddrBits))

/-- `j` cycles after a start. -/
structure At (z : PanelSize) (buffer : ℕ → Pixel) (order : BitVec 3) (outputBit j : ℕ) (s : ShiftOut) :
    Prop where
  counter : s.rowModule.counter = if j ≤ z.bufferDepth + 2 then j else 0
  bufferCounter : s.rowModule.bufferCounter = j - 1
  clk : s.rowModule.clk = decide (5 ≤ j ∧ j % 2 = 1)
  datR : s.datR = buffer ((j - 1) % 2 ^ z.bufferAddrBits)
  first_even : j % 2 = 0 → 2 ≤ j → s.outputsBuffer.1 = word z buffer order outputBit (j - 2)
  second_even : j % 2 = 0 → 4 ≤ j → s.outputsBuffer.2 = word z buffer order outputBit (j - 3)
  first_odd : j % 2 = 1 → 3 ≤ j → s.outputsBuffer.1 = word z buffer order outputBit (j - 3)
  second_odd : j % 2 = 1 → 3 ≤ j → s.outputsBuffer.2 = word z buffer order outputBit (j - 2)
  outputs : j % 2 = 0 → 4 ≤ j →
    s.outputs = (word z buffer order outputBit (j - 4), word z buffer order outputBit (j - 3))

lemma Idle.at_one (h : s.Idle) : At z buffer order outputBit 1 (s.next z buffer order outputBit true) where
  counter := by
    change (if s.rowModule.counter = 0 ∧ _ then 1 else _ : ℕ) = _
    rw [if_pos ⟨h.counter, rfl⟩, if_pos (by omega)]
  bufferCounter := h.counter
  clk := by
    change (if s.rowModule.bufferCounter < 2 then false else _ : Bool) = _
    rw [h.bufferCounter]
    rfl
  datR := by
    change buffer (s.rowModule.counter % _) = _
    rw [h.counter]
  first_even hj := absurd hj (by decide)
  second_even hj := absurd hj (by decide)
  first_odd _ hj := absurd hj (by decide)
  second_odd _ hj := absurd hj (by decide)
  outputs hj := absurd hj (by decide)

variable {j : ℕ}

lemma At.bufferSelect (h : At z buffer order outputBit j s) (hj : 1 ≤ j) :
    (s.rowModule.bufferSelect = 0) = (j % 2 = 1) := by
  rw [RowModule.bufferSelect, h.bufferCounter]
  apply propext
  omega

lemma At.next (h : At z buffer order outputBit j s) (hj : 1 ≤ j) (hlast : j ≤ z.bufferDepth + 2) :
    At z buffer order outputBit (j + 1) (s.next z buffer order outputBit false) where
  counter := by
    change (if s.rowModule.counter = 0 ∧ false = true then 1
      else if s.rowModule.counter = RowModule.counterMax z - 1 then 0
      else if 0 < s.rowModule.counter then s.rowModule.counter + 1 else s.rowModule.counter : ℕ) = _
    rw [h.counter, if_pos hlast, if_neg fun hc => Bool.false_ne_true hc.2,
      show RowModule.counterMax z - 1 = z.bufferDepth + 2 from rfl]
    by_cases hend : j = z.bufferDepth + 2
    · rw [if_pos hend, if_neg (by omega)]
    · rw [if_neg hend, if_pos (by omega), if_pos (by omega)]
  bufferCounter := by
    change s.rowModule.counter = _
    rw [h.counter, if_pos hlast]
    rfl
  clk := by
    change (if s.rowModule.bufferCounter < 2 then false
      else decide (s.rowModule.bufferCounter % 2 = 1) : Bool) = _
    rw [h.bufferCounter]
    by_cases hsmall : j - 1 < 2
    · rw [if_pos hsmall]
      exact (decide_eq_false (by omega)).symm
    · rw [if_neg hsmall]
      exact decide_eq_decide.mpr (by omega)
  datR := by
    change buffer (s.rowModule.counter % _) = _
    rw [h.counter, if_pos hlast]
    rfl
  first_even he _ := by
    change (if s.rowModule.bufferSelect = 0 then (pinsOf order outputBit s.datR, _) else _ : Pins × Pins).1 = _
    rw [if_pos (h.bufferSelect hj ▸ (by omega)), h.datR]
    rfl
  second_even he hj' := by
    change (if s.rowModule.bufferSelect = 0 then (_, s.outputsBuffer.2) else _ : Pins × Pins).2 = _
    rw [if_pos (h.bufferSelect hj ▸ (by omega))]
    exact h.second_odd (by omega) (by omega)
  first_odd ho hj' := by
    change (if s.rowModule.bufferSelect = 0 then _ else (s.outputsBuffer.1, _) : Pins × Pins).1 = _
    rw [if_neg (h.bufferSelect hj ▸ (by omega))]
    exact h.first_even (by omega) (by omega)
  second_odd ho hj' := by
    change (if s.rowModule.bufferSelect = 0 then _ else (_, pinsOf order outputBit s.datR) : Pins × Pins).2 = _
    rw [if_neg (h.bufferSelect hj ▸ (by omega)), h.datR]
    rfl
  outputs he hj' := by
    change (if s.rowModule.bufferSelect = 0 then s.outputsBuffer else _) = _
    rw [if_pos (h.bufferSelect hj ▸ (by omega))]
    exact Prod.ext (h.first_odd (by omega) (by omega)) (h.second_odd (by omega) (by omega))

lemma At.sampled (h : At z buffer order outputBit j s) (hj : 1 ≤ j) (hlast : j ≤ z.bufferDepth + 2) :
    s.sampled z buffer order outputBit false = if j % 2 = 0 ∧ 4 ≤ j then
      some (word z buffer order outputBit (j - 4), word z buffer order outputBit (j - 3)) else none := by
  have hclk := (h.next hj hlast).clk
  change (s.rowModule.next z false).clk = _ at hclk
  rw [ShiftOut.sampled, h.clk, hclk]
  by_cases he : j % 2 = 0 ∧ 4 ≤ j
  · have hrise : (!decide (5 ≤ j ∧ j % 2 = 1) && decide (5 ≤ j + 1 ∧ (j + 1) % 2 = 1)) = true := by
      rw [decide_eq_false (by omega), decide_eq_true (by omega)]
      rfl
    rw [if_pos he, if_pos hrise]
    change some (if s.rowModule.bufferSelect = 0 then _ else s.outputs) = _
    rw [if_neg (h.bufferSelect hj ▸ (by omega)), h.outputs he.1 he.2]
  · rw [if_neg he, if_neg]
    rw [Bool.and_eq_true, decide_eq_true_iff]
    omega

lemma word_eq {m : ℕ} (h : m < z.bufferDepth) :
    word z buffer order outputBit m = pinsOf order outputBit (buffer m) := by
  have hbits : z.bufferDepth - 1 < 2 ^ z.bufferAddrBits := Nat.lt_size_self _
  rw [word, Nat.mod_eq_of_lt (by omega)]

lemma At.trail (h : At z buffer order outputBit j s) (hj : 1 ≤ j) (m : ℕ)
    (hm : j + m = z.bufferDepth + 3) (heven : z.bufferDepth % 2 = 0) :
    (trail (ShiftOut.next z buffer order outputBit) (ShiftOut.sampled z buffer order outputBit) s
      (List.replicate m false)).reduceOption =
      (List.range' ((j - 3) / 2) (z.bufferDepth / 2 - (j - 3) / 2)).map
        (pair buffer order outputBit) := by
  induction m generalizing j s with
  | zero =>
    rw [show z.bufferDepth / 2 - (j - 3) / 2 = 0 by omega]
    rfl
  | succ m ih =>
    have hlast : j ≤ z.bufferDepth + 2 := by omega
    have ih := ih (h.next hj hlast) (by omega) (by omega)
    rw [List.replicate_succ, Library.Runs.trail, h.sampled hj hlast]
    by_cases he : j % 2 = 0 ∧ 4 ≤ j
    · obtain ⟨t, rfl⟩ : ∃ t, j = 2 * t + 4 := ⟨(j - 4) / 2, by omega⟩
      rw [if_pos he, List.reduceOption_cons_of_some, ih,
        show (2 * t + 4 + 1 - 3) / 2 = t + 1 by omega, show (2 * t + 4 - 3) / 2 = t by omega,
        show z.bufferDepth / 2 - t = z.bufferDepth / 2 - (t + 1) + 1 by omega, List.range'_succ,
        List.map_cons, pair, word_eq (by omega), word_eq (by omega)]
      rfl
    · rw [if_neg he, List.reduceOption_cons_of_none, ih]
      rcases Nat.lt_or_ge j 3 with hlt | hge
      · rw [show (j + 1 - 3) / 2 = (j - 3) / 2 by omega]
      · rw [show (j + 1 - 3) / 2 = (j - 3) / 2 by omega]

/-- A row is shifted out pair by pair. -/
theorem Idle.shifted (h : s.Idle) : s.shifted z buffer order outputBit =
    (List.range (z.columns * 2 ^ z.chainLength2)).map (pair buffer order outputBit) := by
  have hdepth : z.bufferDepth = 2 * (z.columns * 2 ^ z.chainLength2) := by
    rw [PanelSize.bufferDepth]
    ring
  have hfirst : s.sampled z buffer order outputBit true = none := by
    have hclk : (s.rowModule.next z true).clk = false :=
      (h.at_one : At z buffer order outputBit 1 _).clk.trans (decide_eq_false (by omega))
    rw [ShiftOut.sampled, hclk, Bool.and_false, if_neg Bool.false_ne_true]
  rw [ShiftOut.shifted, Library.Runs.trail, hfirst, List.reduceOption_cons_of_none,
    h.at_one.trail le_rfl _ (by omega) (by omega), List.range_eq_range', hdepth]
  congr 2
  omega

end ShiftOut

end Ledwall.Gateware
