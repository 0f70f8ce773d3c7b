import Ledwall.Library.Edges
import Ledwall.Library.Fairness
import Ledwall.Gateware.Icn1065Output

/-! The shift clock of the S-PWM stage, and the stage that it enables. -/

namespace Ledwall.Gateware.Spwm

open Ledwall.Library.Edges
open Ledwall.Library.Fairness (along)

/-- `div_n` -/
def divN (clkDiv : BitVec 8) : ℕ := if clkDiv.toNat < 2 then 2 else clkDiv.toNat

/-- What the CPU has configured. -/
structure Settings where
  train : PrefixConfig
  output : OutputConfig

/-- The outputs of a board and the prefix they share. -/
structure Stage (z : Shape) (n : ℕ) where
  train : SpwmPrefix := {}
  outs : Fin n → Icn1065Output z := fun _ => {}

/-- What the stage samples on a tick. -/
structure StageInputs (z : Shape) (n : ℕ) where
  enabled : Bool
  pixIn : Fin n → z.Channels → BitVec z.greyBits

/-- The pins of the connectors, the shared ones from the first of them. -/
structure Pins (z : Shape) (n : ℕ) where
  lat : Bool
  oe : Bool
  rgb : Fin n → z.Channels → Bool

namespace Stage

variable {z : Shape} {n : ℕ} [NeZero n] (v : Settings) (s : Stage z n)

def next (i : StageInputs z n) : Stage z n where
  train := s.train.next v.train z.columns (s.outs 0).prefixReq
  outs k := (s.outs k).next v.output s.train i.enabled (i.pixIn k)

def pins : Pins z n where
  lat := (s.outs 0).lat v.output s.train
  oe := (s.outs 0).oe v.output
  rgb k := (s.outs k).rgb s.train

end Stage

/-- The stage behind its clock enable, with the counter of the divider. -/
structure ShiftStage (z : Shape) (n : ℕ) where
  divcnt : BitVec 8 := 0
  stage : Stage z n := {}

namespace ShiftStage

variable {z : Shape} {n : ℕ} [NeZero n] (v : Settings)

/-- A cycle's inputs: what the divider's register holds, and what the stage would sample. -/
abbrev Inputs (z : Shape) (n : ℕ) := BitVec 8 × StageInputs z n

variable (s : ShiftStage z n) (clkDiv : BitVec 8)

def tick : Bool := s.divcnt = 0

/-- `pins_common.clk` -/
def clk : Bool := divN clkDiv / 2 ≤ s.divcnt.toNat

/-- The counter is at its end. -/
def wraps : Bool := divN clkDiv - 1 ≤ s.divcnt.toNat

/-- One system cycle. -/
def step (s : ShiftStage z n) (i : Inputs z n) : ShiftStage z n where
  divcnt := if s.wraps i.1 then 0 else s.divcnt + 1
  stage := if s.tick then s.stage.next v i.2 else s.stage

/-- Some pin of the stage is another after a tick. -/
def Changes (i : StageInputs z n) : Prop := (s.stage.next v i).pins v ≠ s.stage.pins v

section Waveforms

variable (schedule : ℕ → Inputs z n)

/-- The stage in a cycle, counted from the reset. -/
def cycle (k : ℕ) : ShiftStage z n := along (step v) {} schedule k

def clkPin (k : ℕ) : Bool := (cycle v schedule k).clk (schedule k).1

def pinsAt (k : ℕ) : Pins z n := (cycle v schedule k).stage.pins v

/-- Two ticks with none between them. -/
structure Consecutive (a b : ℕ) : Prop where
  lt : a < b
  first : (cycle v schedule a).tick = true
  last : (cycle v schedule b).tick = true
  between : ∀ k, a < k → k < b → (cycle v schedule k).tick = false

/-- Between two consecutive ticks CLK rises once, and when it does no pin has changed with it. -/
structure OneEdge : Prop where
  once : ∀ a b, Consecutive v schedule a b → ∃! k, a ≤ k ∧ k < b ∧ Rises (clkPin v schedule) k
  stable : ∀ k, Rises (clkPin v schedule) k → pinsAt v schedule (k + 1) = pinsAt v schedule k

/-- What the divider's register is to hold in the next cycle: while CLK is high within a bit, no divider
whose half is still to come, and behind a tick that changes a pin, at least four. -/
structure Calm (k : ℕ) : Prop where
  held : (cycle v schedule k).clk (schedule k).1 = true →
    (cycle v schedule k).wraps (schedule k).1 = false →
      divN (schedule (k + 1)).1 / 2 ≤ (cycle v schedule k).divcnt.toNat + 1
  slow : (cycle v schedule k).tick = true → (cycle v schedule k).Changes v (schedule k).2 →
    4 ≤ divN (schedule (k + 1)).1

end Waveforms

end ShiftStage

section Dividing

variable (d : BitVec 8)

lemma two_le_divN : 2 ≤ divN d := by
  unfold divN
  split <;> omega

lemma divN_lt : divN d < 256 := by
  have := d.isLt
  unfold divN
  split <;> omega

end Dividing

namespace ShiftStage

section Cycles

variable {z : Shape} {n : ℕ} {s : ShiftStage z n} {d : BitVec 8}

lemma tick_iff : s.tick = true ↔ s.divcnt.toNat = 0 := by
  rw [tick, decide_eq_true_iff, BitVec.toNat_eq]
  rfl

lemma clk_iff : s.clk d = true ↔ divN d / 2 ≤ s.divcnt.toNat := decide_eq_true_iff

lemma wraps_iff : s.wraps d = true ↔ divN d - 1 ≤ s.divcnt.toNat := decide_eq_true_iff

lemma clk_of_tick (h : s.tick = true) : s.clk d = false := by
  have hd := two_le_divN d
  rw [tick_iff] at h
  rw [← Bool.not_eq_true, clk_iff, h]
  omega

lemma clk_of_wraps (h : s.wraps d = true) : s.clk d = true := by
  have hd := two_le_divN d
  rw [wraps_iff] at h
  rw [clk_iff]
  omega

lemma not_wraps_of_tick (h : s.tick = true) : s.wraps d = false := by
  have hd := two_le_divN d
  rw [tick_iff] at h
  rw [← Bool.not_eq_true, wraps_iff, h]
  omega

variable [NeZero n] {v : Settings} {i : Inputs z n}

lemma divcnt_step_of_wraps (h : s.wraps i.1 = true) : (step v s i).divcnt.toNat = 0 := by
  simp [step, h]

lemma divcnt_step (h : s.wraps i.1 = false) :
    (step v s i).divcnt.toNat = s.divcnt.toNat + 1 := by
  have hd := divN_lt i.1
  have hlt : ¬ divN i.1 - 1 ≤ s.divcnt.toNat := by
    rw [← wraps_iff, h]
    simp
  have hstep : (step v s i).divcnt = s.divcnt + 1 := by simp [step, h]
  rw [hstep, BitVec.toNat_add]
  exact Nat.mod_eq_of_lt (by change s.divcnt.toNat + 1 < 256; omega)

lemma tick_step : (step v s i).tick = s.wraps i.1 := by
  cases h : s.wraps i.1 with
  | true => exact tick_iff.mpr (divcnt_step_of_wraps h)
  | false =>
    rw [← Bool.not_eq_true, tick_iff, divcnt_step h]
    omega

lemma pins_step (h : s.tick = false) : (step v s i).stage.pins v = s.stage.pins v := by
  simp [step, h]

end Cycles

section Runs

variable {z : Shape} {n : ℕ} [NeZero n] {v : Settings} {schedule : ℕ → Inputs z n} {a b k : ℕ}

lemma cycle_succ (k : ℕ) :
    cycle v schedule (k + 1) = step v (cycle v schedule k) (schedule k) := rfl

lemma tick_zero : (cycle v schedule 0).tick = true := rfl

lemma tick_succ (k : ℕ) :
    (cycle v schedule (k + 1)).tick = (cycle v schedule k).wraps (schedule k).1 := tick_step

lemma divcnt_succ (h : (cycle v schedule k).wraps (schedule k).1 = false) :
    (cycle v schedule (k + 1)).divcnt.toNat = (cycle v schedule k).divcnt.toNat + 1 := divcnt_step h

lemma exists_tick (v : Settings) (schedule : ℕ → Inputs z n) (k : ℕ) :
    ∃ m, k < m ∧ (cycle v schedule m).tick = true := by
  induction hr : 256 - (cycle v schedule k).divcnt.toNat using Nat.strong_induction_on
    generalizing k with
  | _ r ih =>
    cases hw : (cycle v schedule k).wraps (schedule k).1 with
    | true => exact ⟨k + 1, Nat.lt_succ_self k, (tick_succ k).trans hw⟩
    | false =>
      have hlt := (cycle v schedule k).divcnt.isLt
      have hnext := divcnt_succ hw
      obtain ⟨m, hm, htick⟩ := ih _ (by omega) (k + 1) rfl
      exact ⟨m, Nat.lt_of_succ_lt hm, htick⟩

lemma exists_consecutive (v : Settings) (schedule : ℕ → Inputs z n) (k : ℕ) :
    ∃ a b, Consecutive v schedule a b ∧ a ≤ k ∧ k < b := by
  classical
  have hnext := exists_tick v schedule k
  let a := Nat.findGreatest (fun m => (cycle v schedule m).tick = true) k
  have hfirst : (cycle v schedule a).tick = true :=
    Nat.findGreatest_spec (P := fun m => (cycle v schedule m).tick = true) (Nat.zero_le k) tick_zero
  have hak : a ≤ k := Nat.findGreatest_le k
  obtain ⟨hlt, hlast⟩ := Nat.find_spec hnext
  refine ⟨a, Nat.find hnext, ⟨hak.trans_lt hlt, hfirst, hlast, ?_⟩, hak, hlt⟩
  intro m ham hmb
  rw [← Bool.not_eq_true]
  intro htick
  rcases le_or_gt m k with hmk | hkm
  · exact Nat.findGreatest_is_greatest ham hmk htick
  · exact Nat.find_min hnext hmb ⟨hkm, htick⟩

lemma Consecutive.wraps (h : Consecutive v schedule a b) :
    (cycle v schedule (b - 1)).wraps (schedule (b - 1)).1 = true := by
  have hlt := h.lt
  rw [← tick_succ, Nat.sub_add_cancel (by omega)]
  exact h.last

lemma Consecutive.not_wraps (h : Consecutive v schedule a b) (hak : a ≤ k) (hkb : k + 1 < b) :
    (cycle v schedule k).wraps (schedule k).1 = false := by
  rw [← tick_succ]
  exact h.between (k + 1) (Nat.lt_succ_of_le hak) hkb

lemma Consecutive.once_iff (h : Consecutive v schedule a b) :
    (∃! k, a ≤ k ∧ k < b ∧ Rises (clkPin v schedule) k) ↔
      ∀ k, a ≤ k → k + 1 < b → ¬ Falls (clkPin v schedule) k := by
  have hlt := h.lt
  have hhigh : clkPin v schedule (b - 1) = true := clk_of_wraps h.wraps
  have hend : ∀ k, (a ≤ k ∧ k < b ∧ Rises (clkPin v schedule) k) ↔
      (a ≤ k ∧ k < b - 1 ∧ Rises (clkPin v schedule) k) := by
    intro k
    constructor
    · rintro ⟨hak, hkb, hk⟩
      have hne : k ≠ b - 1 := by
        rintro rfl
        rw [hk.1] at hhigh
        cases hhigh
      exact ⟨hak, by omega, hk⟩
    · rintro ⟨hak, hkb, hk⟩
      exact ⟨hak, by omega, hk⟩
  simp only [hend]
  rw [one_rise_iff (Nat.le_sub_one_of_lt hlt) (clk_of_tick h.first) hhigh]
  simp only [Nat.lt_sub_iff_add_lt]

lemma once_iff : (∀ a b, Consecutive v schedule a b → ∃! k, a ≤ k ∧ k < b ∧ Rises (clkPin v schedule) k) ↔
    ∀ k, (cycle v schedule k).wraps (schedule k).1 = false → ¬ Falls (clkPin v schedule) k := by
  constructor
  · intro honce k hk hfalls
    obtain ⟨a, b, hab, hak, hkb⟩ := exists_consecutive v schedule k
    have hne : k + 1 ≠ b := by
      rintro rfl
      have := hab.last
      rw [tick_succ, hk] at this
      cases this
    exact hab.once_iff.mp (honce a b hab) k hak (by omega) hfalls
  · intro hfalls a b hab
    apply hab.once_iff.mpr
    intro k hak hkb
    exact hfalls k (hab.not_wraps hak hkb)

lemma falls_iff (hw : (cycle v schedule k).wraps (schedule k).1 = false) :
    Falls (clkPin v schedule) k ↔ (cycle v schedule k).clk (schedule k).1 = true ∧
      ¬ divN (schedule (k + 1)).1 / 2 ≤ (cycle v schedule k).divcnt.toNat + 1 := by
  rw [Falls, clkPin, clkPin, ← Bool.not_eq_true, clk_iff (d := (schedule (k + 1)).1), divcnt_succ hw]

lemma stable_iff : (∀ k, Rises (clkPin v schedule) k → pinsAt v schedule (k + 1) = pinsAt v schedule k) ↔
    ∀ k, (cycle v schedule k).tick = true → (cycle v schedule k).Changes v (schedule k).2 →
      4 ≤ divN (schedule (k + 1)).1 := by
  have hrise : ∀ k, (cycle v schedule k).tick = true →
      (Rises (clkPin v schedule) k ↔ divN (schedule (k + 1)).1 < 4) := by
    intro k htick
    have hcnt := divcnt_succ (not_wraps_of_tick (d := (schedule k).1) htick)
    rw [tick_iff.mp htick] at hcnt
    rw [Rises, clkPin, clk_of_tick htick, clkPin, clk_iff, hcnt]
    simp only [true_and]
    omega
  have hpins : ∀ k, (cycle v schedule k).tick = true →
      ((cycle v schedule k).Changes v (schedule k).2 ↔
        pinsAt v schedule (k + 1) ≠ pinsAt v schedule k) := by
    intro k htick
    have hstage : (cycle v schedule (k + 1)).stage =
        (cycle v schedule k).stage.next v (schedule k).2 := by
      rw [cycle_succ, step, htick, if_pos rfl]
    rw [Changes, pinsAt, hstage, pinsAt]
  constructor
  · intro hstable k htick hchanges
    by_contra hslow
    exact (hpins k htick).mp hchanges (hstable k ((hrise k htick).mpr (not_le.mp hslow)))
  · intro hslow k hk
    cases htick : (cycle v schedule k).tick with
    | false => exact pins_step htick
    | true =>
      by_contra hne
      have hle := hslow k htick ((hpins k htick).mpr hne)
      exact absurd ((hrise k htick).mp hk) (not_lt.mpr hle)

/-- In a run of the stage each bit gets one edge of CLK, with the pins stable ahead of it, exactly when
the divider's register is calm throughout. -/
theorem one_edge_iff (v : Settings) (schedule : ℕ → Inputs z n) :
    OneEdge v schedule ↔ ∀ k, Calm v schedule k := by
  constructor
  · rintro ⟨honce, hstable⟩ k
    refine ⟨?_, stable_iff.mp hstable k⟩
    intro hclk hw
    by_contra hhalf
    exact once_iff.mp honce k hw ((falls_iff hw).mpr ⟨hclk, hhalf⟩)
  · intro hcalm
    refine ⟨once_iff.mpr ?_, stable_iff.mpr fun k => (hcalm k).slow⟩
    intro k hw hfalls
    obtain ⟨hclk, hhalf⟩ := (falls_iff hw).mp hfalls
    exact hhalf ((hcalm k).held hclk hw)

end Runs

section Examples

/-- A small panel on one connector. -/
def small : Shape := ⟨16, 2, 128, 1, 13⟩

/-- A table of no words, and the widths of the row pulse that a build starts with. -/
def plain : Settings where
  train := ⟨1, 1, 0, false, fun _ _ => 0⟩
  output := ⟨⟨2, 2, 0⟩, false, false, 0, 0, 0⟩

/-- The divider's register with the stage switched off. -/
def dividers (d : ℕ → BitVec 8) (k : ℕ) : Inputs small 1 := (d k, ⟨false, fun _ _ => 0⟩)

theorem one_edge_eight : OneEdge plain (dividers fun _ => 8) := by
  apply (one_edge_iff plain _).mpr
  intro k
  have hslow : 4 ≤ divN 8 := by decide
  refine ⟨?_, fun _ _ => hslow⟩
  intro hclk _
  exact (clk_iff.mp hclk).trans (Nat.le_succ _)

/-- A divider raised while CLK is high makes it fall within the bit and rise again, and at a divider of
two it rises with the pins. -/
theorem live_divider_splits_edge :
    ¬ OneEdge plain (dividers fun k => if k < 3 then 4 else 10) ∧
      ¬ OneEdge plain (dividers fun _ => 2) := by
  constructor
  · intro h
    have hfalls : Falls (clkPin plain (dividers fun k => if k < 3 then 4 else 10)) 2 := ⟨rfl, rfl⟩
    exact once_iff.mp h.once 2 rfl hfalls
  · intro h
    have hrises : Rises (clkPin plain (dividers fun _ => 2)) 0 := ⟨rfl, rfl⟩
    have hoe := congrArg Pins.oe (h.stable 0 hrises)
    exact absurd hoe (by decide)

end Examples

end ShiftStage

end Ledwall.Gateware.Spwm
