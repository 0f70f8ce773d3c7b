import Mathlib.Data.List.GetD
import Ledwall.Gateware.RowFetch

/-! The words of a row on their way through the reader: which addresses the port has taken, which
words are back, and when the reader is done. -/

namespace Ledwall.Gateware

namespace RowFetch

variable {z : PanelSize} {gamma : BitVec 8 → BitVec 8} {v : RowSettings} {f : RowFetch}
  {i R W : ℕ} {taken : List ℕ} {p : PortCycle}

lemma accepts_eq (f : RowFetch) (start : Bool) (p : PortCycle) :
    f.reader.accepts (v.inputs start (f.port p)) =
      (f.reader.ramAdr.valid && (f.port p).ready) := by
  change (f.reader.ramAdr.valid && !false && (f.port p).ready) = _
  rw [Bool.not_false, Bool.and_true]

lemma Generating.accepts (h : Generating z v i f) :
    f.reader.accepts (v.inputs false (f.port p)) =
      decide ((2 ≤ i ∧ i ≤ z.total + 1) ∧ (f.port p).ready = true) := by
  rw [accepts_eq, h.valid, Bool.eq_iff_iff, Bool.and_eq_true, decide_eq_true_iff, decide_eq_true_iff]

/-- The counter values whose addresses the port has taken, after a cycle. -/
def takes (i : ℕ) (taken : List ℕ) (f : RowFetch) (v : RowSettings) (p : PortCycle) : List ℕ :=
  taken ++ if f.reader.accepts (v.inputs false (f.port p)) then [i - 2] else []

/-- The port's side of a fetch: it has taken the addresses of `taken`, and `R` of the words are back. -/
structure Reading (z : PanelSize) (v : RowSettings) (i R : ℕ) (taken : List ℕ) (f : RowFetch) :
    Prop where
  sublist : taken.Sublist (List.range (i - 2))
  returned_le : R ≤ taken.length
  few : taken.length - R ≤ 16
  enough : i - 2 ≤ taken.length + (i - z.total)
  reads : f.reader.reads = (taken.drop R).map (v.address z)
  rsvLevel : f.reader.rsvLevel = BitVec.ofNat 5 (taken.length - R)
  sourceReady : R < taken.length → f.reader.sourceReady = true
  asked : f.asked = taken.map fun m => (z.panelOf m, v.address z m)

lemma Reading.sourceValid (h : Reading z v i R taken f) (start : Bool) (p : PortCycle) :
    f.reader.sourceValid (v.inputs start p) = decide (p.valid = true ∧ R < taken.length) := by
  change (p.valid && !f.reader.reads.isEmpty) = _
  rw [h.reads, List.isEmpty_map, Bool.eq_iff_iff, Bool.and_eq_true, Bool.not_eq_true',
    decide_eq_true_iff, ← Bool.not_eq_true, List.isEmpty_iff, List.drop_eq_nil_iff, Nat.not_le]

lemma Reading.returns (h : Reading z v i R taken f) (start : Bool) (p : PortCycle) :
    f.reader.returns (v.inputs start p) = decide (p.valid = true ∧ R < taken.length) := by
  rw [RamToBufferReader.returns, h.sourceValid, Bool.and_eq_left_iff_imp, decide_eq_true_iff]
  exact fun hv => h.sourceReady hv.2

lemma Reading.head (h : Reading z v i R taken f) (hlt : R < taken.length) :
    f.reader.head = v.address z (taken.getD R 0) := by
  rw [RamToBufferReader.head, h.reads, List.drop_eq_getElem_cons hlt, List.map_cons,
    List.headD_cons, List.getD_eq_getElem taken 0 hlt]

lemma Reading.rsvLevel_eq_zero (h : Reading z v i R taken f) :
    (f.reader.rsvLevel == 0) = decide (R = taken.length) := by
  have hfew := h.few
  have hle := h.returned_le
  rw [h.rsvLevel, Bool.eq_iff_iff, beq_iff_eq, decide_eq_true_iff, ← BitVec.toNat_inj,
    BitVec.toNat_ofNat, Nat.mod_eq_of_lt (by omega)]
  change taken.length - R = 0 ↔ _
  omega

lemma Reading.ramDone (h : Reading z v i R taken f) (hg : Generating z v i f) (start : Bool)
    (p : PortCycle) : f.reader.ramDone (v.inputs start p) =
      decide (i = z.total + 2 ∧ R = taken.length) := by
  have hi := hg.le
  rw [RamToBufferReader.ramDone, hg.started, h.rsvLevel_eq_zero, h.sourceValid, Bool.eq_iff_iff,
    Bool.and_eq_true, Bool.and_eq_true, Bool.not_eq_true', Bool.not_eq_true', decide_eq_false_iff_not,
    decide_eq_true_iff, decide_eq_false_iff_not, decide_eq_true_iff]
  constructor
  · rintro ⟨⟨hend, hall⟩, -⟩
    exact ⟨by omega, hall⟩
  · rintro ⟨hend, hall⟩
    exact ⟨⟨by omega, hall⟩, fun hv => absurd hv.2 (by omega)⟩

lemma getD_append_of_lt (xs ys : List ℕ) {n : ℕ} (h : n < xs.length) :
    (xs ++ ys).getD n 0 = xs.getD n 0 :=
  List.getD_append xs ys 0 n h

lemma advance_le (hz : i ≤ z.total + 2) (ready : Bool) :
    i ≤ advance z i ready ∧ advance z i ready ≤ z.total + 2 := by
  rw [advance]
  split <;> omega

/-- The words back after a cycle. -/
def backs (R : ℕ) (f : RowFetch) (v : RowSettings) (p : PortCycle) : ℕ :=
  R + (f.reader.returns (v.inputs false (f.port p))).toNat

lemma Reading.backs_le (h : Reading z v i R taken f) : backs R f v p ≤ taken.length := by
  have hret := h.returns false (f.port p)
  rw [backs]
  cases hr : f.reader.returns (v.inputs false (f.port p)) with
  | false => exact h.returned_le
  | true =>
    rw [hr, eq_comm, decide_eq_true_iff] at hret
    exact hret.2

lemma Reading.left (h : Reading z v i R taken f) :
    (if f.reader.returns (v.inputs false (f.port p)) then f.reader.reads.tail else f.reader.reads) =
      (taken.drop (backs R f v p)).map (v.address z) := by
  rw [h.reads, backs]
  cases f.reader.returns (v.inputs false (f.port p)) with
  | false => rfl
  | true => rw [if_pos rfl, ← List.map_tail, List.tail_drop, Bool.toNat_true]

lemma next_reads (f : RowFetch) (p : PortCycle) : (f.next z gamma v false p).reader.reads =
    (if f.reader.returns (v.inputs false (f.port p)) then f.reader.reads.tail else f.reader.reads) ++
      if f.reader.accepts (v.inputs false (f.port p)) then [f.reader.ramAdr.adr] else [] := rfl

lemma next_asked (f : RowFetch) (p : PortCycle) : (f.next z gamma v false p).asked = f.asked ++
    if f.reader.accepts (v.inputs false (f.port p)) then [(f.adrFor, f.reader.ramAdr.adr)] else [] :=
  rfl

lemma next_rsvLevel (f : RowFetch) (p : PortCycle) : (f.next z gamma v false p).reader.rsvLevel =
    f.reader.nextRsvLevel (v.inputs false (f.port p)) := rfl

lemma next_sourceReady (f : RowFetch) (p : PortCycle) :
    (f.next z gamma v false p).reader.sourceReady =
      f.reader.nextSourceReady (v.inputs false (f.port p)) := rfl

lemma Reading.next_of_refused (h : Reading z v i R taken f) (hg : Generating z v i f)
    (ha : f.reader.accepts (v.inputs false (f.port p)) = false) :
    Reading z v (advance z i (f.port p).ready) (backs R f v p) taken (f.next z gamma v false p) := by
  have hback := h.backs_le (p := p)
  have hfew := h.few
  have hi := (advance_le hg.le (f.port p).ready).1
  have hmono : R ≤ backs R f v p := Nat.le_add_right _ _
  refine ⟨h.sublist.trans (List.range_sublist.mpr (by omega)), hback, by omega, ?_, ?_, ?_, ?_, ?_⟩
  · have hacc := hg.accepts (p := p)
    have henough := h.enough
    rw [ha, eq_comm, decide_eq_false_iff_not] at hacc
    rw [advance]
    split
    · rename_i hgo
      rcases hgo.2 with hlt | hend | hready
      · omega
      · omega
      · have htwo : i < 2 := by
          by_contra htwo
          exact hacc ⟨⟨by omega, hgo.1⟩, hready⟩
        omega
    · exact henough
  · rw [next_reads, ha, h.left, if_neg Bool.false_ne_true, List.append_nil]
  · rw [next_rsvLevel, RamToBufferReader.nextRsvLevel, ha, if_neg Bool.false_ne_true, h.rsvLevel]
    rw [backs] at hback ⊢
    cases hr : f.reader.returns (v.inputs false (f.port p)) with
    | false => rfl
    | true =>
      rw [hr, Bool.toNat_true] at hback
      rw [if_pos rfl, Bool.toNat_true, show taken.length - R = taken.length - (R + 1) + 1 by omega,
        BitVec.ofNat_add]
      exact BitVec.add_sub_cancel _ _
  · intro hlt
    rw [next_sourceReady, RamToBufferReader.nextSourceReady, h.rsvLevel_eq_zero,
      decide_eq_false (by omega), Bool.and_false, Bool.not_false, Bool.or_true]
  · rw [next_asked, ha, h.asked, if_neg Bool.false_ne_true, List.append_nil]

lemma Reading.next_of_taken (h : Reading z v i R taken f) (hg : Generating z v i f)
    (ha : f.reader.accepts (v.inputs false (f.port p)) = true) :
    Reading z v (i + 1) (backs R f v p) (taken ++ [i - 2]) (f.next z gamma v false p) := by
  have hback := h.backs_le (p := p)
  have hmono : R ≤ backs R f v p := Nat.le_add_right _ _
  have hacc := hg.accepts (p := p)
  rw [ha, eq_comm, decide_eq_true_iff] at hacc
  obtain ⟨⟨htwo, hlast⟩, hready⟩ := hacc
  obtain ⟨hadr, hfor⟩ := hg.adr htwo hlast
  have hroom : taken.length - R < 16 := by
    have hr : (p.ready && decide (f.reader.reads.length < 16)) = true := hready
    rw [Bool.and_eq_true, decide_eq_true_iff, h.reads, List.length_map, List.length_drop] at hr
    exact hr.2
  have hlen : (taken ++ [i - 2]).length = taken.length + 1 := List.length_append
  refine ⟨?_, ?_, ?_, ?_, ?_, ?_, ?_, ?_⟩
  · rw [show i + 1 - 2 = i - 2 + 1 by omega, List.range_succ]
    exact h.sublist.append (List.Sublist.refl _)
  · exact hback.trans (hlen ▸ Nat.le_succ _)
  · omega
  · have henough := h.enough
    omega
  · rw [next_reads, ha, h.left, if_pos rfl, hadr, List.drop_append_of_le_length hback,
      List.map_append, List.map_singleton]
  · rw [next_rsvLevel, RamToBufferReader.nextRsvLevel, ha, if_pos rfl, h.rsvLevel, hlen, backs]
    cases f.reader.returns (v.inputs false (f.port p)) with
    | false =>
      rw [if_neg Bool.false_ne_true, Bool.toNat_false,
        show taken.length + 1 - (R + 0) = taken.length - R + 1 by
          have hle := h.returned_le
          omega, BitVec.ofNat_add]
      rfl
    | true => rw [if_pos rfl, Bool.toNat_true, Nat.add_sub_add_right]
  · intro _
    rw [next_sourceReady, RamToBufferReader.nextSourceReady, hg.started, decide_eq_true hlast,
      Bool.not_true, Bool.false_and, Bool.not_false, Bool.or_true]
  · rw [next_asked, ha, if_pos rfl, h.asked, hadr, hfor, List.map_append, List.map_singleton]

lemma Reading.next (h : Reading z v i R taken f) (hg : Generating z v i f) :
    Reading z v (advance z i (f.port p).ready) (backs R f v p) (takes i taken f v p)
      (f.next z gamma v false p) := by
  rw [takes]
  cases ha : f.reader.accepts (v.inputs false (f.port p)) with
  | false =>
    rw [if_neg Bool.false_ne_true, List.append_nil]
    exact h.next_of_refused hg ha
  | true =>
    have hacc := hg.accepts (p := p)
    rw [ha, eq_comm, decide_eq_true_iff] at hacc
    rw [if_pos rfl, show advance z i (f.port p).ready = i + 1 from
      if_pos ⟨hacc.1.2, Or.inr (Or.inr hacc.2)⟩]
    exact h.next_of_taken hg ha

/-- The words between the port and the row buffers: `W` of them have been handed to the write
ports. -/
structure Piped (z : PanelSize) (gamma : BitVec 8 → BitVec 8) (v : RowSettings) (R W : ℕ)
    (taken : List ℕ) (f : RowFetch) : Prop where
  written : W + f.reader.gammaDataValid.toNat + f.reader.paletteDataValid.toNat = R
  paletteData : f.reader.paletteDataValid = true →
    f.reader.paletteData = v.raw z (taken.getD (R - 1) 0) ∧
      f.reader.paletteRead = v.entry (v.address z (taken.getD (R - 1) 0)).word
  gammaData : f.reader.gammaDataValid = true →
    f.reader.gammaData = v.pixel z gamma (taken.getD W 0)
  bufferCounter : f.reader.bufferCounter = W % 2 ^ z.counterBits

/-- The cycle in which the reader finds its last word gone and says `done`. -/
def finishing (f : RowFetch) : Bool :=
  !f.reader.gammaDataValid && f.reader.gammaDataDone && !f.reader.bufferDone

/-- The words handed over after a cycle. -/
def writes (W : ℕ) (f : RowFetch) : ℕ := W + f.reader.gammaDataValid.toNat

lemma Reading.sourceValid_eq (h : Reading z v i R taken f) :
    f.reader.sourceValid (v.inputs false (f.port p)) =
      f.reader.returns (v.inputs false (f.port p)) := by
  rw [h.sourceValid, h.returns]

lemma takes_getD (h : R < taken.length) : (takes i taken f v p).getD R 0 = taken.getD R 0 :=
  getD_append_of_lt taken _ h

lemma Piped.next (h : Piped z gamma v R W taken f) (hr : Reading z v i R taken f)
    (hf : f.finishing = false) :
    Piped z gamma v (backs R f v p) (writes W f) (takes i taken f v p)
      (f.next z gamma v false p) := by
  have hwritten := h.written
  have hreturn : (f.next z gamma v false p).reader.paletteDataValid =
      f.reader.returns (v.inputs false (f.port p)) := hr.sourceValid_eq
  have hgamma : (f.next z gamma v false p).reader.gammaDataValid = f.reader.paletteDataValid := rfl
  refine ⟨?_, ?_, ?_, ?_⟩
  · rw [hreturn, hgamma, writes, backs]
    omega
  · intro hv
    rw [hreturn] at hv
    have hlt := hr.returns false (f.port p)
    rw [hv, eq_comm, decide_eq_true_iff] at hlt
    rw [backs, hv, Bool.toNat_true, Nat.add_sub_cancel, takes_getD hlt.2, RowSettings.raw,
      ← hr.head hlt.2]
    exact ⟨rfl, rfl⟩
  · intro hv
    rw [hgamma] at hv
    rw [hv, Bool.toNat_true] at hwritten
    obtain ⟨hdata, hread⟩ := h.paletteData hv
    have hlt : R - 1 < taken.length := by
      have hback := hr.returned_le
      omega
    rw [show writes W f = R - 1 by
      rw [writes]
      omega, takes_getD hlt]
    change { f.reader.paletteData with
      colour := RamToBufferReader.corrected gamma (f.reader.lookedUp (v.inputs false (f.port p))) } = _
    rw [RamToBufferReader.lookedUp, hdata, hread]
    rfl
  · change (if f.reader.gammaDataValid then (f.reader.bufferCounter + 1) % 2 ^ z.counterBits
      else if f.reader.gammaDataDone && !f.reader.bufferDone then 0 else f.reader.bufferCounter) = _
    rw [finishing] at hf
    rw [writes, h.bufferCounter]
    cases hv : f.reader.gammaDataValid with
    | true => rw [if_pos rfl, Bool.toNat_true, Nat.mod_add_mod]
    | false =>
      rw [hv, Bool.not_false, Bool.true_and] at hf
      rw [if_neg Bool.false_ne_true, hf, if_neg Bool.false_ne_true, Bool.toNat_false, Nat.add_zero]

/-- Nothing is left to ask for, and nothing is on its way from the port. -/
def Drained (z : PanelSize) (i R : ℕ) (taken : List ℕ) (f : RowFetch) : Prop :=
  i = z.total + 2 ∧ R = taken.length ∧ f.reader.paletteDataValid = false

/-- The `done` flags on their way down the stages: those of the last row first, then none, then this
row's. -/
structure Flagged (z : PanelSize) (i R : ℕ) (taken : List ℕ) (f : RowFetch) : Prop where
  first : i = 1 → f.reader.gammaDataDone = true
  paletteDataDone : f.reader.paletteDataDone = true → i ≤ 1 ∨ Drained z i R taken f
  gammaDataDone : f.reader.gammaDataDone = true → (i ≤ 2 ∧ f.reader.bufferDone = true) ∨
    (Drained z i R taken f ∧ f.reader.paletteDataDone = true ∧ f.reader.gammaDataValid = false)
  bufferDone : f.reader.bufferDone = true → i ≤ 3

lemma Reading.quiet (hr : Reading z v i R taken f) (hg : Generating z v i f)
    (hd : i = z.total + 2 ∧ R = taken.length) (p : PortCycle) :
    f.reader.returns (v.inputs false (f.port p)) = false ∧ backs R f v p = R ∧
      takes i taken f v p = taken ∧ advance z i (f.port p).ready = i := by
  obtain ⟨rfl, rfl⟩ := hd
  have hret : f.reader.returns (v.inputs false (f.port p)) = false := by
    rw [hr.returns]
    exact decide_eq_false fun hv => absurd hv.2 (lt_irrefl _)
  have hacc : f.reader.accepts (v.inputs false (f.port p)) = false := by
    rw [hg.accepts]
    exact decide_eq_false fun ha => absurd ha.1.2 (by omega)
  refine ⟨hret, ?_, ?_, if_neg fun hc => absurd hc.1 (by omega)⟩
  · rw [backs, hret]
    rfl
  · rw [takes, hacc, if_neg Bool.false_ne_true, List.append_nil]

lemma Drained.next (hd : i = z.total + 2 ∧ R = taken.length) (hg : Generating z v i f)
    (hr : Reading z v i R taken f) :
    Drained z (advance z i (f.port p).ready) (backs R f v p) (takes i taken f v p)
      (f.next z gamma v false p) := by
  obtain ⟨hret, hbacks, htakes, hadvance⟩ := hr.quiet hg hd p
  rw [hbacks, htakes, hadvance]
  exact ⟨hd.1, hd.2, hr.sourceValid_eq.trans hret⟩

lemma Flagged.next (h : Flagged z i R taken f) (hz : z.Built) (hg : Generating z v i f)
    (hr : Reading z v i R taken f) (hf : f.finishing = false) :
    Flagged z (advance z i (f.port p).ready) (backs R f v p) (takes i taken f v p)
      (f.next z gamma v false p) := by
  have htotal := hz.two_le
  have hpos := hg.pos
  have hpalette : (f.next z gamma v false p).reader.paletteDataDone =
      decide (i = z.total + 2 ∧ R = taken.length) := hr.ramDone hg false (f.port p)
  have hgamma : (f.next z gamma v false p).reader.gammaDataDone = f.reader.paletteDataDone := rfl
  have hbuffer : (f.next z gamma v false p).reader.bufferDone = f.reader.gammaDataDone := rfl
  have hstep : advance z i (f.port p).ready ≤ i + 1 ∧
      (i = 1 → advance z i (f.port p).ready = 2) := by
    rw [advance]
    constructor
    · split <;> omega
    · rintro rfl
      exact if_pos ⟨by omega, Or.inl (by omega)⟩
  refine ⟨?_, ?_, ?_, ?_⟩
  · intro hone
    have hle := (advance_le hg.le (f.port p).ready).1
    have htwo := hstep.2 (by omega)
    omega
  · rw [hpalette, decide_eq_true_iff]
    exact fun hd => Or.inr (Drained.next hd hg hr)
  · rw [hgamma]
    intro hv
    rcases h.paletteDataDone hv with hone | hd
    · have hi : i = 1 := by omega
      exact Or.inl ⟨(hstep.2 hi).le, hbuffer.trans (h.first hi)⟩
    · refine Or.inr ⟨Drained.next ⟨hd.1, hd.2.1⟩ hg hr, ?_, hd.2.2⟩
      rw [hpalette]
      exact decide_eq_true ⟨hd.1, hd.2.1⟩
  · rw [hbuffer]
    intro hv
    rcases h.gammaDataDone hv with ⟨hi, -⟩ | ⟨hd, -, hvalid⟩
    · omega
    · rw [finishing, hvalid, hv, Bool.not_false, Bool.true_and, Bool.true_and, Bool.not_eq_false'] at hf
      have hi := h.bufferDone hf
      have hend := hd.1
      omega

end RowFetch

end Ledwall.Gateware
