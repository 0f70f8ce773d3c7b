import Mathlib.Data.Nat.Size
import Ledwall.Gateware.RamToBufferReader

/-! One row's fetch, from its start to `done`, under any pace of the read port: how far it is at each
cycle, and what it leaves in the row buffers. -/

namespace Ledwall.Gateware

/-- What holds still while a row is fetched. -/
structure RowSettings where
  row : ℕ
  usePalette : Bool
  imageWidth : BitVec 16
  panelConfig : ℕ → PanelConfig
  fbBase : BitVec 20
  ram : BitVec 32 → BitVec 32
  palette : BitVec 9 → BitVec 32

/-- The read port in one cycle: it would take a command, and the oldest word is there. -/
structure PortCycle where
  ready : Bool
  valid : Bool
  deriving DecidableEq, Repr

/-- A row's fetch: the reader, the buffers being filled (one for each output), and the addresses the
port has accepted, each with the panel whose configuration it was formed from. -/
structure RowFetch where
  reader : RamToBufferReader := {}
  buffers : ℕ → ℕ → Pixel := fun _ _ => {}
  configFor : ℕ := 0
  adrFor : ℕ := 0
  asked : List (ℕ × FbAddress) := []

def RowSettings.inputs (v : RowSettings) (start : Bool) (p : PortCycle) : ScanInputs where
  start := start
  row := v.row
  usePalette := v.usePalette
  imageWidth := v.imageWidth
  panelConfig := v.panelConfig
  sinkReady := p.ready
  sourceValid := p.valid
  ram := v.ram
  palette := v.palette

namespace RowFetch

variable (z : PanelSize) (gamma : BitVec 8 → BitVec 8) (v : RowSettings) (f : RowFetch) (start : Bool)
  (p : PortCycle)

/-- The reader's port has 16 reservations. -/
def port : PortCycle := { p with ready := p.ready && f.reader.reads.length < 16 }

def next : RowFetch where
  reader := f.reader.next z gamma v.fbBase (v.inputs start (f.port p))
  buffers := fun k a =>
    if (f.reader.ports k).we ∧ (f.reader.ports k).adr = a then (f.reader.ports k).datW
    else f.buffers k a
  configFor :=
    if f.reader.ramAdr.en (f.port p).ready then f.reader.ramAdr.counterSelect z else f.configFor
  adrFor := if f.reader.ramAdr.en (f.port p).ready then f.configFor else f.adrFor
  asked := f.asked ++
    if f.reader.accepts (v.inputs start (f.port p)) then [(f.adrFor, f.reader.ramAdr.adr)] else []

/-- A start and the cycles after it. -/
def fetch : List PortCycle → RowFetch
  | [] => f
  | p :: ps => ps.foldl (fun f p => f.next z gamma v false p) (f.next z gamma v true p)

end RowFetch

namespace PanelSize

variable (z : PanelSize)

/-- The words of a row over all outputs, as the address generator counts them. -/
def total : ℕ := z.columns * 2 * 2 ^ z.chainLength2 * z.nOutputs

def panelOf (m : ℕ) : ℕ := m / 2 ^ (z.columnsBits + 1)

def outputOf (m : ℕ) : ℕ := m / 2 ^ (z.columnsBits + 1 + z.chainLength2)

def addressOf (m : ℕ) : ℕ :=
  m / 2 ^ z.columnsBits % 2 + 2 * (m % 2 ^ z.columnsBits) +
    2 ^ (z.columnsBits + 1) * (m / 2 ^ (z.columnsBits + 1) % 2 ^ z.chainLength2)

/-- A build with a panel. -/
structure Built (z : PanelSize) : Prop where
  columns : 0 < z.columns
  nOutputs : 0 < z.nOutputs

variable {z}

lemma le_two_pow_size (n : ℕ) : n ≤ 2 ^ (n - 1).size := by
  have h := Nat.lt_size_self (n - 1)
  omega

lemma Built.two_le (hz : z.Built) : 2 ≤ z.total := by
  have hcolumns := hz.columns
  have houtputs := hz.nOutputs
  rw [total]
  calc 2 = 1 * 2 * 1 * 1 := rfl
    _ ≤ z.columns * 2 * 2 ^ z.chainLength2 * z.nOutputs :=
      Nat.mul_le_mul (Nat.mul_le_mul (Nat.mul_le_mul hcolumns le_rfl) Nat.one_le_two_pow) houtputs

lemma total_le : z.total ≤ 2 ^ (z.columnsBits + 1 + z.chainLength2) * z.nOutputs := by
  rw [total, Nat.pow_add, Nat.pow_succ]
  apply Nat.mul_le_mul_right
  apply Nat.mul_le_mul_right
  exact Nat.mul_le_mul_right 2 (le_two_pow_size z.columns)

lemma total_le_counter : z.total ≤ 2 ^ z.counterBits := by
  rw [counterBits, Nat.pow_add]
  exact total_le.trans (Nat.mul_le_mul_left _ (le_two_pow_size z.nOutputs))

lemma outputOf_lt {m : ℕ} (h : m < z.total) : z.outputOf m < z.nOutputs :=
  Nat.div_lt_of_lt_mul (h.trans_le total_le)

lemma addressOf_decode (m : ℕ) : z.addressOf m % 2 = m / 2 ^ z.columnsBits % 2 ∧
    z.addressOf m / 2 % 2 ^ z.columnsBits = m % 2 ^ z.columnsBits ∧
    z.addressOf m / 2 ^ (z.columnsBits + 1) = m / 2 ^ (z.columnsBits + 1) % 2 ^ z.chainLength2 := by
  have hpos : 0 < 2 ^ z.columnsBits := Nat.two_pow_pos _
  have hcol := Nat.mod_lt m hpos
  have hhalf := Nat.mod_lt (m / 2 ^ z.columnsBits) (show 0 < 2 by decide)
  rw [addressOf, Nat.pow_succ]
  generalize m / (2 ^ z.columnsBits * 2) % 2 ^ z.chainLength2 = c
  generalize m / 2 ^ z.columnsBits % 2 = h at *
  generalize m % 2 ^ z.columnsBits = k at *
  generalize 2 ^ z.columnsBits = d at *
  have hsum : h + 2 * k + d * 2 * c = h + 2 * (k + d * c) := by ring
  have hdiv : (h + 2 * (k + d * c)) / 2 = k + d * c := by omega
  refine ⟨by omega, ?_, ?_⟩
  · rw [hsum, hdiv, Nat.add_mul_mod_self_left, Nat.mod_eq_of_lt hcol]
  · rw [Nat.mul_comm d 2, ← Nat.div_div_eq_div_mul, ← Nat.mul_comm d 2, hsum, hdiv,
      Nat.add_mul_div_left _ _ hpos, Nat.div_eq_of_lt hcol, Nat.zero_add]

lemma slot_inj {m n : ℕ} (ho : z.outputOf m = z.outputOf n) (ha : z.addressOf m = z.addressOf n) :
    m = n := by
  obtain ⟨hm₁, hm₂, hm₃⟩ := addressOf_decode (z := z) m
  obtain ⟨hn₁, hn₂, hn₃⟩ := addressOf_decode (z := z) n
  rw [ha] at hm₁ hm₂ hm₃
  have hpanel : m / 2 ^ (z.columnsBits + 1) = n / 2 ^ (z.columnsBits + 1) := by
    rw [outputOf, outputOf, Nat.pow_add _ (z.columnsBits + 1), ← Nat.div_div_eq_div_mul,
      ← Nat.div_div_eq_div_mul] at ho
    rw [← Nat.div_add_mod (m / 2 ^ (z.columnsBits + 1)) (2 ^ z.chainLength2), ho, ← hm₃, hn₃,
      Nat.div_add_mod]
  have hhalf : m / 2 ^ z.columnsBits = n / 2 ^ z.columnsBits := by
    rw [Nat.pow_succ, ← Nat.div_div_eq_div_mul, ← Nat.div_div_eq_div_mul] at hpanel
    omega
  rw [← Nat.div_add_mod m (2 ^ z.columnsBits), hhalf, ← hm₂, hn₂, Nat.div_add_mod]

end PanelSize

namespace RowSettings

variable (z : PanelSize) (gamma : BitVec 8 → BitVec 8) (v : RowSettings)

/-- The address formed from counter value `m`. -/
def address (m : ℕ) : FbAddress :=
  ⟨v.fbBase, RamAddressGenerator.offset z
    { counterPrevious := m, curPanelConfig := v.panelConfig (z.panelOf m) }
    (v.inputs false ⟨false, false⟩)⟩

def entry (w : BitVec 32) : BitVec 32 :=
  v.palette (BitVec.ofBool (paletteBank v.fbBase) ++ (v.ram w).setWidth 8)

/-- The colour the word at `w` is shown in. -/
def colourAt (w : BitVec 32) : BitVec 24 :=
  RamToBufferReader.corrected gamma
    (if v.usePalette then (v.entry w).setWidth 24 else (v.ram w).setWidth 24)

def raw (m : ℕ) : Pixel :=
  ⟨⟨v.address z m, paletteBank v.fbBase⟩, (v.ram (v.address z m).word).setWidth 24⟩

def pixel (m : ℕ) : Pixel :=
  ⟨⟨v.address z m, paletteBank v.fbBase⟩, v.colourAt gamma (v.address z m).word⟩

end RowSettings

namespace RowFetch

variable {z : PanelSize} {gamma : BitVec 8 → BitVec 8} {v : RowSettings} {f : RowFetch} {i : ℕ}
  {p : PortCycle}

/-- The generator `i` enabled cycles after a start: two behind in the address register, one behind in
the configuration's. -/
structure Generating (z : PanelSize) (v : RowSettings) (i : ℕ) (f : RowFetch) : Prop where
  pos : 1 ≤ i
  le : i ≤ z.total + 2
  counter : f.reader.ramAdr.counter = if i < z.total then i else 0
  started : f.reader.ramAdr.started = decide (i ≤ z.total + 1)
  configLookupValid : f.reader.ramAdr.configLookupValid = decide (i ≤ z.total)
  counterPrevious : i ≤ z.total → f.reader.ramAdr.counterPrevious = i - 1
  curPanelConfig : i ≤ z.total →
    f.reader.ramAdr.curPanelConfig = v.panelConfig (z.panelOf (i - 1)) ∧
      f.configFor = z.panelOf (i - 1)
  valid : f.reader.ramAdr.valid = decide (2 ≤ i ∧ i ≤ z.total + 1)
  adr : 2 ≤ i → i ≤ z.total + 1 →
    f.reader.ramAdr.adr = v.address z (i - 2) ∧ f.adrFor = z.panelOf (i - 2)

/-- The next count of enabled cycles. -/
def advance (z : PanelSize) (i : ℕ) (ready : Bool) : ℕ :=
  if i ≤ z.total + 1 ∧ (i < 2 ∨ z.total ≤ i ∨ ready) then i + 1 else i

lemma Generating.en_eq (h : Generating z v i f) (ready : Bool) :
    f.reader.ramAdr.en ready = decide (i < 2 ∨ z.total ≤ i ∨ ready = true) := by
  rw [RamAddressGenerator.en, h.counter, Bool.eq_iff_iff, Bool.or_eq_true, decide_eq_true_iff,
    decide_eq_true_iff]
  split
  · constructor
    · rintro (hi | hr)
      · exact Or.inl hi
      · exact Or.inr (Or.inr hr)
    · rintro (hi | hi | hr)
      · exact Or.inl hi
      · omega
      · exact Or.inr hr
  · exact iff_of_true (Or.inl (by decide)) (Or.inr (Or.inl (by omega)))

lemma next_ramAdr (f : RowFetch) (start : Bool) (p : PortCycle) :
    (f.next z gamma v start p).reader.ramAdr =
      f.reader.ramAdr.next z (f.port p).ready v.fbBase (v.inputs start (f.port p)) := by
  change f.reader.ramAdr.next z ((f.port p).ready && !false) v.fbBase _ = _
  rw [Bool.not_false, Bool.and_true]

lemma counterMax_eq (hz : z.Built) : z.counterMax + 1 = z.total := by
  have h := hz.two_le
  rw [PanelSize.counterMax]
  change z.total - 1 + 1 = z.total
  omega

lemma Generating.hold (h : Generating z v i f) (hen : f.reader.ramAdr.en (f.port p).ready = false) :
    Generating z v i (f.next z gamma v false p) := by
  have hi := hen
  rw [h.en_eq, decide_eq_false_iff_not] at hi
  have hcounter : f.reader.ramAdr.counter ≠ 0 := by
    rw [h.counter, if_pos (by omega)]
    omega
  have hnext : (f.next z gamma v false p).reader.ramAdr = f.reader.ramAdr := by
    rw [next_ramAdr, RamAddressGenerator.next, RamAddressGenerator.nextCounter,
      RamAddressGenerator.nextStarted, hen, if_neg hcounter, if_neg fun hc => Bool.false_ne_true hc.2]
    rfl
  have hfor : (f.next z gamma v false p).configFor = f.configFor ∧
      (f.next z gamma v false p).adrFor = f.adrFor := by
    rw [next, hen]
    exact ⟨rfl, rfl⟩
  refine ⟨h.pos, h.le, ?_, ?_, ?_, ?_, ?_, ?_, ?_⟩ <;> rw [hnext]
  · exact h.counter
  · exact h.started
  · exact h.configLookupValid
  · exact h.counterPrevious
  · exact hfor.1.symm ▸ h.curPanelConfig
  · exact h.valid
  · exact hfor.2.symm ▸ h.adr

lemma Generating.go (h : Generating z v i f) (hz : z.Built)
    (hen : f.reader.ramAdr.en (f.port p).ready = true) (hi : i ≤ z.total + 1) :
    Generating z v (i + 1) (f.next z gamma v false p) := by
  have htotal := hz.two_le
  have hmax := counterMax_eq hz
  have hpos := h.pos
  have hnext : (f.next z gamma v false p).reader.ramAdr = _ := next_ramAdr f false p
  have hfor : (f.next z gamma v false p).configFor = f.reader.ramAdr.counterSelect z ∧
      (f.next z gamma v false p).adrFor = f.configFor := by
    rw [next, hen]
    exact ⟨rfl, rfl⟩
  refine ⟨by omega, by omega, ?_, ?_, ?_, ?_, ?_, ?_, ?_⟩ <;>
    rw [hnext, RamAddressGenerator.next] <;> dsimp only
  · rw [RamAddressGenerator.nextCounter, h.counter, hen]
    by_cases hlt : i < z.total
    · rw [if_pos hlt, if_neg (by omega)]
      by_cases hend : i + 1 < z.total
      · have hfit : i + 1 < 2 ^ z.counterBits := hend.trans_le PanelSize.total_le_counter
        rw [if_neg (by omega), if_pos rfl, if_pos hend, Nat.mod_eq_of_lt hfit]
      · rw [if_pos ⟨by omega, rfl⟩, if_neg hend]
    · rw [if_neg hlt, if_pos rfl]
      exact (if_neg (show ¬ i + 1 < z.total by omega)).symm
  · rw [RamAddressGenerator.nextStarted, h.valid, h.configLookupValid, h.started, hen]
    by_cases hend : i = z.total + 1
    · have hcut : (true && decide (2 ≤ i ∧ i ≤ z.total + 1) && !decide (i ≤ z.total)) = true := by
        rw [decide_eq_true (by omega), decide_eq_false (by omega)]
        rfl
      rw [if_pos hcut]
      exact (decide_eq_false (by omega)).symm
    · have hcut : (true && decide (2 ≤ i ∧ i ≤ z.total + 1) && !decide (i ≤ z.total)) ≠ true := by
        rw [decide_eq_true (show i ≤ z.total by omega), Bool.not_true, Bool.and_false]
        exact Bool.false_ne_true
      rw [if_neg hcut]
      change decide (i ≤ z.total + 1) = _
      rw [decide_eq_true hi, decide_eq_true (by omega)]
  · rw [if_pos hen, RamAddressGenerator.running, h.counter]
    change decide ((if i < z.total then i else 0) ≠ 0) = _
    apply decide_eq_decide.mpr
    split <;> omega
  · intro hle
    rw [if_pos hen, h.counter, if_pos (by omega)]
    rfl
  · intro hle
    rw [if_pos hen, RamAddressGenerator.counterSelect, h.counter, if_pos (by omega), hfor.1,
      RamAddressGenerator.counterSelect, h.counter, if_pos (by omega)]
    exact ⟨rfl, rfl⟩
  · rw [if_pos hen, h.configLookupValid]
    exact decide_eq_decide.mpr (by omega)
  · intro htwo hle
    have hconfig := h.curPanelConfig (by omega)
    rw [if_pos hen, hfor.2, hconfig.2]
    refine ⟨?_, rfl⟩
    rw [RowSettings.address, show i + 1 - 2 = i - 1 by omega, ← hconfig.1,
      ← h.counterPrevious (by omega)]
    rfl

lemma Generating.rest (h : Generating z v (z.total + 2) f) :
    Generating z v (z.total + 2) (f.next z gamma v false p) := by
  have hen := h.en_eq (f.port p).ready
  rw [decide_eq_true (show z.total + 2 < 2 ∨ z.total ≤ z.total + 2 ∨ _ by omega)] at hen
  have hcounter := h.counter
  rw [if_neg (by omega)] at hcounter
  have hvalid := h.valid
  rw [decide_eq_false (by omega)] at hvalid
  have hconfig := h.configLookupValid
  rw [decide_eq_false (by omega)] at hconfig
  have hnext : (f.next z gamma v false p).reader.ramAdr = _ := next_ramAdr f false p
  refine ⟨h.pos, h.le, ?_, ?_, ?_, by omega, by omega, ?_, by omega⟩ <;>
    rw [hnext, RamAddressGenerator.next] <;> dsimp only
  · rw [RamAddressGenerator.nextCounter, if_pos hcounter]
    exact (if_neg (show ¬ z.total + 2 < z.total by omega)).symm
  · rw [RamAddressGenerator.nextStarted, hvalid, Bool.and_false, Bool.false_and]
    exact h.started
  · rw [if_pos hen, RamAddressGenerator.running, hcounter]
    exact (decide_eq_false (by omega)).symm
  · rw [if_pos hen, hconfig]
    exact (decide_eq_false (by omega)).symm

lemma Generating.next (h : Generating z v i f) (hz : z.Built) :
    Generating z v (advance z i (f.port p).ready) (f.next z gamma v false p) := by
  have hen := h.en_eq (f.port p).ready
  rw [advance]
  by_cases hlast : i ≤ z.total + 1
  · by_cases hgo : i < 2 ∨ z.total ≤ i ∨ (f.port p).ready = true
    · rw [if_pos ⟨hlast, hgo⟩]
      exact h.go hz (hen.trans (decide_eq_true hgo)) hlast
    · rw [if_neg fun hc => hgo hc.2]
      exact h.hold (hen.trans (decide_eq_false hgo))
  · have hle := h.le
    obtain rfl : i = z.total + 2 := by omega
    rw [if_neg fun hc => hlast hc.1]
    exact h.rest

end RowFetch

end Ledwall.Gateware
