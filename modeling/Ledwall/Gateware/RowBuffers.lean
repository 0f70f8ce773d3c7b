import Ledwall.Gateware.RowReturns

/-! What a fetch leaves in the row buffers, and on their write ports for the next one. -/

namespace Ledwall.Gateware

namespace PanelSize

variable (z : PanelSize)

def panels : ℕ := 2 ^ z.chainLength2 * z.nOutputs

/-- Where the generator and the writer keep column `k` of half `h` of panel `s`. -/
def index (s h k : ℕ) : ℕ := (2 * s + h) * 2 ^ z.columnsBits + k

/-- The place of the last panel's last column. -/
def last : ℕ := z.index (z.panels - 1) 1 (z.columns - 1)

/-- The counters, cut at powers of two, name the last panel's words in its own output. -/
def Aligned (z : PanelSize) : Prop := z.columns = 2 ^ z.columnsBits ∨ z.panels = 1

variable {z}

lemma columns_le : z.columns ≤ 2 ^ z.columnsBits := le_two_pow_size z.columns

lemma total_eq : z.total = 2 * z.panels * z.columns := by
  rw [total, panels]
  ring

lemma Built.panels_pos (hz : z.Built) : 0 < z.panels :=
  Nat.mul_pos (Nat.two_pow_pos _) hz.nOutputs

lemma last_eq (hz : z.Built) :
    z.last + 1 = (2 * z.panels - 1) * 2 ^ z.columnsBits + z.columns := by
  have hpanels := hz.panels_pos
  have hcolumns := hz.columns
  rw [last, index, show 2 * (z.panels - 1) + 1 = 2 * z.panels - 1 by omega]
  omega

/-- The words that come stop short of the last place, unless columns are a power of two. -/
lemma total_le_last (hz : z.Built) (h : z.columns ≠ 2 ^ z.columnsBits) : z.total ≤ z.last := by
  have hpanels := hz.panels_pos
  have hlt : z.columns < 2 ^ z.columnsBits := lt_of_le_of_ne columns_le h
  have hlast := last_eq hz
  have hmul : (2 * z.panels - 1) * z.columns + 1 ≤ (2 * z.panels - 1) * 2 ^ z.columnsBits :=
    Nat.mul_lt_mul_of_pos_left hlt (by omega)
  have hsplit : z.total = (2 * z.panels - 1) * z.columns + z.columns := by
    rw [total_eq, ← Nat.succ_mul]
    congr 1
    omega
  omega

lemma total_eq_last (hz : z.Built) (h : z.columns = 2 ^ z.columnsBits) : z.total = z.last + 1 := by
  have hpanels := hz.panels_pos
  rw [last_eq hz, ← h, total_eq, ← Nat.succ_mul]
  congr 1
  omega

lemma panels_width : 2 * z.panels * 2 ^ z.columnsBits =
    2 ^ (z.columnsBits + 1 + z.chainLength2) * z.nOutputs := by
  rw [panels, Nat.pow_add, Nat.pow_succ]
  ring

lemma Aligned.outputOf_last (ha : z.Aligned) (hz : z.Built) : z.outputOf z.last + 1 = z.nOutputs := by
  have hlast := last_eq hz
  have hpanels := hz.panels_pos
  have hcolumns := hz.columns
  have hle : z.columns ≤ 2 ^ z.columnsBits := columns_le
  have hwidth := panels_width (z := z)
  have hpos : 0 < 2 ^ (z.columnsBits + 1 + z.chainLength2) := Nat.two_pow_pos _
  have houtputs := hz.nOutputs
  rcases ha with hpow | hone
  · have htotal : z.last + 1 = 2 ^ (z.columnsBits + 1 + z.chainLength2) * z.nOutputs := by
      rw [← total_eq_last hz hpow, ← hwidth, total_eq, ← hpow]
    rw [outputOf, show z.last = 2 ^ (z.columnsBits + 1 + z.chainLength2) * (z.nOutputs - 1) +
        (2 ^ (z.columnsBits + 1 + z.chainLength2) - 1) by
      rw [Nat.mul_sub_one]
      have hmul := Nat.le_mul_of_pos_right (2 ^ (z.columnsBits + 1 + z.chainLength2)) houtputs
      omega, Nat.mul_add_div hpos, Nat.div_eq_of_lt (by omega)]
    omega
  · have hn : z.nOutputs = 1 := Nat.eq_one_of_mul_eq_one_left hone
    rw [hn, hone] at hwidth
    rw [hone] at hlast
    rw [outputOf, hn, Nat.div_eq_of_lt (by omega)]

lemma Aligned.outputOf_end (ha : z.Aligned) {m : ℕ} (hm : m < z.total) (hend : z.total ≤ m + 2) :
    z.outputOf m + 1 = z.nOutputs := by
  have hlt := outputOf_lt hm
  rcases ha with hpow | hone
  · have hwidth : z.total = z.nOutputs * 2 ^ (z.columnsBits + 1 + z.chainLength2) := by
      rw [Nat.mul_comm, ← panels_width, total_eq, ← hpow]
    have htwo : 2 ≤ 2 ^ (z.columnsBits + 1 + z.chainLength2) := by
      calc 2 = 2 ^ 1 := rfl
        _ ≤ _ := Nat.pow_le_pow_right (by decide) (by omega)
    have hsplit : (z.nOutputs - 1) * 2 ^ (z.columnsBits + 1 + z.chainLength2) ≤ m := by
      rw [Nat.sub_one_mul]
      omega
    have hge : z.nOutputs - 1 ≤ z.outputOf m := (Nat.le_div_iff_mul_le (by omega)).mpr hsplit
    omega
  · have hn : z.nOutputs = 1 := Nat.eq_one_of_mul_eq_one_left hone
    omega

end PanelSize

namespace RowFetch

open RamToBufferReader PanelSize

variable {z : PanelSize} {gamma : BitVec 8 → BitVec 8} {v : RowSettings} {f : RowFetch}
  {initial : ℕ → ℕ → Pixel} {i R W : ℕ} {taken : List ℕ} {p : PortCycle}

/-- The row buffers when `W` words have been handed to the write ports: each is in its place or on its
way there. A port left on by the last row is the last output's, and off the last place. -/
structure Filling (z : PanelSize) (gamma : BitVec 8 → BitVec 8) (v : RowSettings)
    (initial : ℕ → ℕ → Pixel) (W : ℕ) (taken : List ℕ) (f : RowFetch) : Prop where
  we : z.Aligned → ∀ k, (f.reader.ports k).we = true →
    (W = 0 ∧ k + 1 = z.nOutputs ∧ (f.reader.ports k).adr ≠ z.addressOf z.last) ∨
      (0 < W ∧ k = z.outputOf (W - 1) ∧ (f.reader.ports k).adr = z.addressOf (W - 1) ∧
        (f.reader.ports k).datW = v.pixel z gamma (taken.getD (W - 1) 0))
  filled : z.Aligned → ∀ m < W,
    f.buffers (z.outputOf m) (z.addressOf m) = v.pixel z gamma (taken.getD m 0) ∨
      (m + 1 = W ∧ (f.reader.ports (z.outputOf m)).we = true)
  spared : z.Aligned → W ≤ z.last →
    f.buffers (z.nOutputs - 1) (z.addressOf z.last) = initial (z.nOutputs - 1) (z.addressOf z.last)

lemma next_buffers (f : RowFetch) (start : Bool) (p : PortCycle) (k a : ℕ) :
    (f.next z gamma v start p).buffers k a =
      if (f.reader.ports k).we ∧ (f.reader.ports k).adr = a then (f.reader.ports k).datW
      else f.buffers k a := rfl

lemma Filling.written (h : Filling z gamma v initial W taken f) (ha : z.Aligned) (start : Bool) {m : ℕ}
    (hm : m < W) : (f.next z gamma v start p).buffers (z.outputOf m) (z.addressOf m) =
      v.pixel z gamma (taken.getD m 0) := by
  rw [next_buffers]
  by_cases hon : (f.reader.ports (z.outputOf m)).we = true ∧
      (f.reader.ports (z.outputOf m)).adr = z.addressOf m
  · rw [if_pos hon]
    rcases h.we ha _ hon.1 with ⟨hzero, -⟩ | ⟨-, hout, hadr, hdat⟩
    · omega
    · obtain rfl : m = W - 1 := slot_inj hout (hon.2.symm.trans hadr)
      exact hdat
  · rw [if_neg hon]
    rcases h.filled ha m hm with hin | ⟨hlast, hwe⟩
    · exact hin
    · rcases h.we ha _ hwe with ⟨hzero, -⟩ | ⟨-, -, hadr, -⟩
      · omega
      · obtain rfl : m = W - 1 := by omega
        exact absurd ⟨hwe, hadr⟩ hon

lemma Filling.spared_next (h : Filling z gamma v initial W taken f) (hz : z.Built) (ha : z.Aligned)
    (start : Bool) (hW : W ≤ z.last) :
    (f.next z gamma v start p).buffers (z.nOutputs - 1) (z.addressOf z.last) =
      initial (z.nOutputs - 1) (z.addressOf z.last) := by
  have hlast := ha.outputOf_last hz
  rw [next_buffers, if_neg, h.spared ha hW]
  rintro ⟨hwe, hadr⟩
  rcases h.we ha _ hwe with ⟨-, -, hoff⟩ | ⟨hpos, hout, hadr', -⟩
  · exact hoff hadr
  · have heq : W - 1 = z.last := slot_inj (by omega) (hadr'.symm.trans hadr)
    omega

lemma portAt_of_lt {k : ℕ} (h : k < z.nOutputs) : portAt z k = k := by
  rw [portAt, if_pos ⟨Int.natCast_nonneg k, Int.ofNat_lt.mpr h⟩]
  rfl

lemma portAt_pred {k : ℕ} (h : k ≤ z.nOutputs) :
    portAt z ((k : ℤ) - 1) = if k = 0 then z.nOutputs - 1 else k - 1 := by
  rw [portAt]
  split <;> split <;> omega

lemma next_ports (f : RowFetch) (start : Bool) (p : PortCycle) :
    (f.next z gamma v start p).reader.ports = f.reader.nextPort z := rfl

lemma outputOf_pred (hW : 0 < W) :
    z.outputOf (W - 1) ≤ z.outputOf W ∧ z.outputOf W ≤ z.outputOf (W - 1) + 1 := by
  have hpos : 0 < 2 ^ (z.columnsBits + 1 + z.chainLength2) := Nat.two_pow_pos _
  constructor
  · exact Nat.div_le_div_right (Nat.sub_le W 1)
  · rw [outputOf, outputOf, ← Nat.add_div_right _ hpos]
    apply Nat.div_le_div_right
    omega

lemma Filling.next_of_valid (h : Filling z gamma v initial W taken f) (hz : z.Built)
    (hp : Piped z gamma v R W taken f) (hv : f.reader.gammaDataValid = true) (start : Bool)
    {later : List ℕ} (hlater : ∀ m ≤ W, later.getD m 0 = taken.getD m 0) (hW : W < z.total) :
    Filling z gamma v initial (W + 1) later (f.next z gamma v start p) := by
  have hcounter : f.reader.bufferCounter = W := by
    rw [hp.bufferCounter, Nat.mod_eq_of_lt (hW.trans_le total_le_counter)]
  have hselect : f.reader.bufferSelect z = z.outputOf W := by
    rw [RamToBufferReader.bufferSelect, hcounter, outputOf]
  have haddress : f.reader.bufferAddress z = z.addressOf W := by
    rw [RamToBufferReader.bufferAddress, hcounter, addressOf]
  have hlt : z.outputOf W < z.nOutputs := outputOf_lt hW
  have hport (k : ℕ) : (f.next z gamma v start p).reader.ports k =
      { adr := z.addressOf W, datW := v.pixel z gamma (taken.getD W 0)
        we := if k = z.outputOf W then true
          else if k = portAt z (z.outputOf W - 1) then false else (f.reader.ports k).we } := by
    rw [next_ports, RamToBufferReader.nextPort, hv, if_pos rfl, hselect, haddress, hp.gammaData hv,
      portAt_of_lt hlt]
  have hon : ((f.next z gamma v start p).reader.ports (z.outputOf W)).we = true := by
    rw [hport]
    exact if_pos rfl
  refine ⟨fun ha k hwe => ?_, fun ha m hm => ?_, fun ha hle => h.spared_next hz ha start (by omega)⟩
  · have hk : k = z.outputOf W := by
      by_contra hk
      have hwe : (if k = z.outputOf W then true
          else if k = portAt z (z.outputOf W - 1) then false else (f.reader.ports k).we) = true := by
        rw [hport] at hwe
        exact hwe
      rw [if_neg hk] at hwe
      by_cases hprev : k = portAt z (z.outputOf W - 1)
      · rw [if_pos hprev] at hwe
        exact Bool.false_ne_true hwe
      · rw [if_neg hprev] at hwe
        rw [portAt_pred hlt.le] at hprev
        rcases h.we ha k hwe with ⟨rfl, hlast, -⟩ | ⟨hpos, hout, -⟩
        · rw [outputOf, Nat.zero_div, if_pos rfl] at hprev
          omega
        · have hnear := outputOf_pred (z := z) hpos
          split at hprev <;> omega
    subst hk
    refine Or.inr ⟨Nat.succ_pos W, rfl, ?_, ?_⟩
    · rw [hport, Nat.add_sub_cancel]
    · rw [hport, Nat.add_sub_cancel, hlater W le_rfl]
  · rcases Nat.lt_succ_iff_lt_or_eq.mp hm with hlt | rfl
    · rw [hlater m hlt.le]
      exact Or.inl (h.written ha start hlt)
    · exact Or.inr ⟨rfl, hon⟩

lemma Filling.next_of_not_valid (h : Filling z gamma v initial W taken f) (hz : z.Built)
    (hv : f.reader.gammaDataValid = false) (start : Bool) {later : List ℕ}
    (hlater : ∀ m < W, later.getD m 0 = taken.getD m 0) :
    Filling z gamma v initial W later (f.next z gamma v start p) := by
  have hport (k : ℕ) : (f.next z gamma v start p).reader.ports k =
      { f.reader.ports k with we := ((f.next z gamma v start p).reader.ports k).we } := by
    rw [next_ports, RamToBufferReader.nextPort, hv, if_neg Bool.false_ne_true]
    split <;> rfl
  have hoff (k : ℕ) (hwe : ((f.next z gamma v start p).reader.ports k).we = true) :
      (f.reader.ports k).we = true := by
    rw [next_ports, RamToBufferReader.nextPort, hv, if_neg Bool.false_ne_true] at hwe
    split at hwe
    · exact (Bool.and_eq_true_iff.mp hwe).2
    · exact hwe
  refine ⟨fun ha k hwe => ?_, fun ha m hm => Or.inl ?_, fun ha hle => h.spared_next hz ha start hle⟩
  · rw [hport]
    rcases h.we ha k (hoff k hwe) with ⟨hzero, hlast, hadr⟩ | ⟨hpos, hout, hadr, hdat⟩
    · exact Or.inl ⟨hzero, hlast, hadr⟩
    · refine Or.inr ⟨hpos, hout, hadr, hdat.trans ?_⟩
      rw [hlater _ (by omega)]
  · rw [hlater m hm]
    exact h.written ha start hm

lemma Filling.settled (h : Filling z gamma v initial W taken f) (hz : z.Built) (ha : z.Aligned)
    (hp : Piped z gamma v R W taken f) (hf : f.finishing = true) (hW : W ≤ z.total)
    (henough : z.total ≤ W + 2) (start : Bool) {k : ℕ}
    (hwe : ((f.next z gamma v start p).reader.ports k).we = true) :
    k + 1 = z.nOutputs ∧ ((f.next z gamma v start p).reader.ports k).adr ≠ z.addressOf z.last := by
  rw [finishing, Bool.and_assoc, Bool.and_eq_true, Bool.not_eq_true'] at hf
  have hlast := ha.outputOf_last hz
  rw [next_ports, RamToBufferReader.nextPort, hf.1, if_neg Bool.false_ne_true, if_pos hf.2] at hwe ⊢
  obtain ⟨hother, hon⟩ := Bool.and_eq_true_iff.mp hwe
  have hother := of_decide_eq_true hother
  change k + 1 = z.nOutputs ∧ (f.reader.ports k).adr ≠ _
  rcases h.we ha k hon with ⟨-, hk, hadr⟩ | ⟨hpos, hout, hadr, -⟩
  · exact ⟨hk, hadr⟩
  have hsmall : W ≠ z.last + 1 := by
    rintro hfull
    have hpow : z.columns = 2 ^ z.columnsBits := by
      by_contra hne
      have hle := total_le_last hz hne
      omega
    have htotal := total_eq_last hz hpow
    apply hother
    rw [hout, hfull, Nat.add_sub_cancel, RamToBufferReader.bufferSelect, hp.bufferCounter]
    rcases (total_le_counter (z := z)).lt_or_eq with hlt | heq
    · rw [Nat.mod_eq_of_lt (by omega), hfull, ← htotal, total_eq, hpow, panels_width,
        Nat.mul_div_cancel_left _ (Nat.two_pow_pos _), portAt_pred le_rfl, if_neg (by omega)]
      omega
    · rw [hfull, ← htotal, heq, Nat.mod_self, Nat.zero_div, portAt_pred (Nat.zero_le _), if_pos rfl]
      omega
  have hk : k + 1 = z.nOutputs := by
    rcases hW.lt_or_eq with hlt | rfl
    · have hcounter : f.reader.bufferSelect z = z.outputOf W := by
        rw [RamToBufferReader.bufferSelect, hp.bufferCounter,
          Nat.mod_eq_of_lt (hlt.trans_le total_le_counter), outputOf]
      have hnear := outputOf_pred (z := z) hpos
      have hend := ha.outputOf_end hlt henough
      rw [hcounter, portAt_pred (by omega)] at hother
      split at hother <;> omega
    · rcases ha with hpow | hone
      · exact absurd (total_eq_last hz hpow) hsmall
      · have hn : z.nOutputs = 1 := Nat.eq_one_of_mul_eq_one_left hone
        have hlt : z.outputOf (z.total - 1) < z.nOutputs := outputOf_lt (by omega)
        omega
  refine ⟨hk, fun heq => ?_⟩
  have hsame : W - 1 = z.last := slot_inj (by omega) (hadr.symm.trans heq)
  omega

end RowFetch

end Ledwall.Gateware
