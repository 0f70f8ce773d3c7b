import Ledwall.Library.Runs
import Ledwall.Gateware.RowBuffers

/-! A row's fetch from start to `done`: the invariant of the whole fetch, that it ends, and that it
leaves the reader ready for the next row. -/

namespace Ledwall.Gateware

open Library.Runs

/-- The reader between two rows. -/
structure RamToBufferReader.Idle (z : PanelSize) (r : RamToBufferReader) : Prop where
  counter : r.ramAdr.counter = 0
  started : r.ramAdr.started = false
  configLookupValid : r.ramAdr.configLookupValid = false
  valid : r.ramAdr.valid = false
  reads : r.reads = []
  rsvLevel : r.rsvLevel = 0
  paletteDataValid : r.paletteDataValid = false
  gammaDataValid : r.gammaDataValid = false
  paletteDataDone : r.paletteDataDone = true
  gammaDataDone : r.gammaDataDone = true
  bufferDone : r.bufferDone = true
  bufferCounter : r.bufferCounter = 0
  we : z.Aligned → ∀ k, (r.ports k).we = true →
    k + 1 = z.nOutputs ∧ (r.ports k).adr ≠ z.addressOf z.last

namespace RowFetch

variable {z : PanelSize} {gamma : BitVec 8 → BitVec 8} {v : RowSettings} {f : RowFetch}
  {initial : ℕ → ℕ → Pixel} {i R W : ℕ} {taken : List ℕ} {p : PortCycle}

/-- A fetch under way. -/
structure Underway (z : PanelSize) (gamma : BitVec 8 → BitVec 8) (v : RowSettings) (i R W : ℕ)
    (taken : List ℕ) (f : RowFetch) : Prop where
  piped : Piped z gamma v R W taken f
  flagged : Flagged z i R taken f
  done : f.reader.done = false

/-- A fetch that is done. -/
structure Finished (z : PanelSize) (gamma : BitVec 8 → BitVec 8) (v : RowSettings) (i R W : ℕ)
    (taken : List ℕ) (f : RowFetch) : Prop where
  all_asked : i = z.total + 2
  all_back : R = taken.length
  all_written : W = taken.length
  paletteDataValid : f.reader.paletteDataValid = false
  gammaDataValid : f.reader.gammaDataValid = false
  paletteDataDone : f.reader.paletteDataDone = true
  gammaDataDone : f.reader.gammaDataDone = true
  bufferDone : f.reader.bufferDone = true
  bufferCounter : f.reader.bufferCounter = 0
  done : f.reader.done = true
  we : z.Aligned → ∀ k, (f.reader.ports k).we = true →
    k + 1 = z.nOutputs ∧ (f.reader.ports k).adr ≠ z.addressOf z.last
  filled : z.Aligned → ∀ m < W,
    f.buffers (z.outputOf m) (z.addressOf m) = v.pixel z gamma (taken.getD m 0)

/-- A row's fetch after its start: `i` enabled cycles of the generator, the counter values `taken` by
the port, `R` words back and `W` handed over. -/
structure Row (z : PanelSize) (gamma : BitVec 8 → BitVec 8) (v : RowSettings)
    (initial : ℕ → ℕ → Pixel) (i R W : ℕ) (taken : List ℕ) (f : RowFetch) : Prop where
  generating : Generating z v i f
  reading : Reading z v i R taken f
  filling : Filling z gamma v initial W taken f
  phase : Underway z gamma v i R W taken f ∨ Finished z gamma v i R W taken f

lemma Reading.length_le (h : Reading z v i R taken f) (hg : Generating z v i f) :
    taken.length ≤ z.total := by
  have hlen := h.sublist.length_le
  have hi := hg.le
  rw [List.length_range] at hlen
  omega

lemma Filling.next (h : Filling z gamma v initial W taken f) (hz : z.Built) (start : Bool)
    (hp : Piped z gamma v R W taken f) (hr : Reading z v i R taken f) (hg : Generating z v i f) :
    Filling z gamma v initial (writes W f) (takes i taken f v p) (f.next z gamma v start p) := by
  have hwritten := hp.written
  have hback := hr.returned_le
  have hlen := hr.length_le hg
  have hlater {m : ℕ} (hm : m < R) : (takes i taken f v p).getD m 0 = taken.getD m 0 :=
    takes_getD (by omega)
  rw [writes]
  cases hv : f.reader.gammaDataValid with
  | false => exact h.next_of_not_valid hz hv start fun m hm => hlater (by omega)
  | true =>
    rw [hv, Bool.toNat_true] at hwritten
    exact h.next_of_valid hz hp hv start (fun m hm => hlater (by omega)) (by omega)

lemma Underway.finish (h : Underway z gamma v i R W taken f) (hz : z.Built)
    (hg : Generating z v i f) (hr : Reading z v i R taken f)
    (hb : Filling z gamma v initial W taken f) (hf : f.finishing = true) :
    Finished z gamma v (advance z i (f.port p).ready) (backs R f v p) (writes W f)
      (takes i taken f v p) (f.next z gamma v false p) := by
  obtain ⟨hparts, hoff⟩ := Bool.and_eq_true_iff.mp hf
  obtain ⟨hvalid, hdone⟩ := Bool.and_eq_true_iff.mp hparts
  rw [Bool.not_eq_true'] at hvalid hoff
  have hwritten := h.piped.written
  have hlen := hr.length_le hg
  have henough := hr.enough
  rcases h.flagged.gammaDataDone hdone with ⟨-, hon⟩ | ⟨hd, hpalette, -⟩
  · rw [hoff] at hon
    exact absurd hon Bool.false_ne_true
  obtain ⟨hend, hall, hempty⟩ := hd
  obtain ⟨-, hbacks, htakes, hadvance⟩ := hr.quiet hg ⟨hend, hall⟩ p
  rw [hvalid, hempty, Bool.toNat_false] at hwritten
  have hW : W = taken.length := by omega
  have hwrites : writes W f = W := by rw [writes, hvalid, Bool.toNat_false, Nat.add_zero]
  have hnext : Drained z _ _ _ (f.next z gamma v false p) := Drained.next ⟨hend, hall⟩ hg hr
  rw [hbacks, htakes, hadvance, hwrites]
  refine ⟨hend, hall, hW, hnext.2.2, hempty, ?_, hpalette, hdone, ?_, ?_, ?_, ?_⟩
  · change f.reader.ramDone (v.inputs false (f.port p)) = true
    rw [hr.ramDone hg]
    exact decide_eq_true ⟨hend, hall⟩
  · change (if f.reader.gammaDataValid then _ else
      if f.reader.gammaDataDone && !f.reader.bufferDone then 0 else f.reader.bufferCounter : ℕ) = 0
    rw [hvalid, hdone, hoff]
    rfl
  · change (if !f.reader.gammaDataValid && f.reader.gammaDataDone && !f.reader.bufferDone then true
      else _ : Bool) = true
    rw [hvalid, hdone, hoff]
    rfl
  · intro ha k hwe
    exact hb.settled hz ha h.piped hf (by omega) (by omega) false hwe
  · exact fun ha m hm => hb.written ha false hm

lemma Finished.next (h : Finished z gamma v i R W taken f) (hg : Generating z v i f)
    (hr : Reading z v i R taken f) (hb : Filling z gamma v initial W taken f) :
    Finished z gamma v (advance z i (f.port p).ready) (backs R f v p) (writes W f)
      (takes i taken f v p) (f.next z gamma v false p) := by
  have hd : i = z.total + 2 ∧ R = taken.length := ⟨h.all_asked, h.all_back⟩
  obtain ⟨-, hbacks, htakes, hadvance⟩ := hr.quiet hg hd p
  have hwrites : writes W f = W := by
    rw [writes, h.gammaDataValid, Bool.toNat_false, Nat.add_zero]
  have hnext : Drained z _ _ _ (f.next z gamma v false p) := Drained.next hd hg hr
  have hports : (f.next z gamma v false p).reader.ports = f.reader.ports := by
    funext k
    rw [next_ports, RamToBufferReader.nextPort, h.gammaDataValid, h.gammaDataDone, h.bufferDone]
    rfl
  rw [hbacks, htakes, hadvance, hwrites]
  refine ⟨h.all_asked, h.all_back, h.all_written, hnext.2.2, h.paletteDataValid, ?_,
    h.paletteDataDone, h.gammaDataDone, ?_, ?_, ?_, ?_⟩
  · change f.reader.ramDone (v.inputs false (f.port p)) = true
    rw [hr.ramDone hg]
    exact decide_eq_true hd
  · change (if f.reader.gammaDataValid then _ else
      if f.reader.gammaDataDone && !f.reader.bufferDone then 0 else f.reader.bufferCounter : ℕ) = 0
    rw [h.gammaDataValid, h.gammaDataDone, h.bufferDone]
    exact h.bufferCounter
  · change (if !f.reader.gammaDataValid && f.reader.gammaDataDone && !f.reader.bufferDone then true
      else !false && f.reader.done : Bool) = true
    rw [h.gammaDataValid, h.gammaDataDone, h.bufferDone, h.done]
    rfl
  · rw [hports]
    exact h.we
  · exact fun ha m hm => hb.written ha false hm

lemma Row.next (h : Row z gamma v initial i R W taken f) (hz : z.Built) :
    Row z gamma v initial (advance z i (f.port p).ready) (backs R f v p) (writes W f)
      (takes i taken f v p) (f.next z gamma v false p) := by
  have hg := h.generating
  have hr := h.reading
  refine ⟨hg.next hz, hr.next hg, ?_, ?_⟩
  · rcases h.phase with hu | hd
    · exact h.filling.next hz false hu.piped hr hg
    · rw [writes, hd.gammaDataValid]
      refine h.filling.next_of_not_valid hz hd.gammaDataValid false fun m hm => ?_
      have hall := hd.all_written
      exact takes_getD (by omega)
  · rcases h.phase with hu | hd
    · cases hf : f.finishing with
      | true => exact Or.inr (hu.finish hz hg hr h.filling hf)
      | false =>
        refine Or.inl ⟨hu.piped.next hr hf, hu.flagged.next hz hg hr hf, ?_⟩
        change (if f.finishing then true else !false && f.reader.done : Bool) = false
        rw [hf, hu.done]
        rfl
    · exact Or.inr (hd.next hg hr h.filling)

lemma Row.of_idle (h : f.reader.Idle z) (hz : z.Built) (hasked : f.asked = []) :
    Row z gamma v f.buffers 1 0 0 [] (f.next z gamma v true p) := by
  have htotal := hz.two_le
  have hen : f.reader.ramAdr.en (f.port p).ready = true := by
    rw [RamAddressGenerator.en, h.counter]
    rfl
  have hacc : f.reader.accepts (v.inputs true (f.port p)) = false := by
    rw [accepts_eq, h.valid]
    rfl
  have hsource : f.reader.sourceValid (v.inputs true (f.port p)) = false := by
    change ((f.port p).valid && !f.reader.reads.isEmpty) = false
    rw [h.reads, List.isEmpty_nil, Bool.not_true, Bool.and_false]
  have hret : f.reader.returns (v.inputs true (f.port p)) = false := by
    rw [RamToBufferReader.returns, hsource, Bool.false_and]
  have hnext : (f.next z gamma v true p).reader.ramAdr = _ := next_ramAdr f true p
  refine ⟨⟨le_rfl, by omega, ?_, ?_, ?_, fun _ => ?_, fun _ => ?_, ?_, fun hc => absurd hc (by omega)⟩,
    ⟨List.nil_sublist _, Nat.le_refl 0, Nat.zero_le _, Nat.zero_le _, ?_, ?_,
      fun hc => absurd hc (lt_irrefl 0), ?_⟩,
    ⟨fun ha k hwe => Or.inl ?_, fun _ m hm => absurd hm (Nat.not_lt_zero m), fun ha _ => ?_⟩, Or.inl
    ⟨⟨?_, fun hc => ?_, fun hc => ?_, ?_⟩,
      ⟨fun _ => h.paletteDataDone, fun _ => Or.inl le_rfl,
        fun _ => Or.inl ⟨by decide, h.gammaDataDone⟩, fun _ => by decide⟩, ?_⟩⟩
  · rw [hnext, RamAddressGenerator.next, RamAddressGenerator.nextCounter, h.counter, if_pos rfl]
    exact (if_pos (show 1 < z.total by omega)).symm
  · rw [hnext, RamAddressGenerator.next, RamAddressGenerator.nextStarted, h.valid, Bool.and_false,
      Bool.false_and, decide_eq_true (by omega)]
    rfl
  · rw [hnext, RamAddressGenerator.next, hen, decide_eq_true (by omega)]
    rfl
  · rw [hnext, RamAddressGenerator.next, hen]
    exact h.counter
  · have hselect : f.reader.ramAdr.counterSelect z = z.panelOf (1 - 1) := by
      rw [RamAddressGenerator.counterSelect, h.counter, PanelSize.panelOf]
    rw [hnext, RamAddressGenerator.next, hen, RowFetch.next, hen, ← hselect]
    exact ⟨rfl, rfl⟩
  · rw [hnext, RamAddressGenerator.next, hen]
    exact h.configLookupValid.trans (decide_eq_false (by omega)).symm
  · change (if f.reader.returns (v.inputs true (f.port p)) then f.reader.reads.tail else f.reader.reads) ++
      (if f.reader.accepts (v.inputs true (f.port p)) then [f.reader.ramAdr.adr] else []) = []
    rw [hret, hacc, h.reads]
    rfl
  · change f.reader.nextRsvLevel (v.inputs true (f.port p)) = _
    rw [RamToBufferReader.nextRsvLevel, hret, hacc, h.rsvLevel]
    rfl
  · change f.asked ++ (if f.reader.accepts (v.inputs true (f.port p)) then _ else []) = []
    rw [hacc, hasked]
    rfl
  · have hport : (f.next z gamma v true p).reader.ports k = f.reader.ports k := by
      rw [next_ports, RamToBufferReader.nextPort, h.gammaDataValid, h.gammaDataDone, h.bufferDone]
      rfl
    rw [hport] at hwe ⊢
    exact ⟨rfl, h.we ha k hwe⟩
  · rw [next_buffers, if_neg]
    rintro ⟨hwe, hadr⟩
    exact (h.we ha _ hwe).2 hadr
  · change 0 + f.reader.paletteDataValid.toNat +
      (f.reader.sourceValid (v.inputs true (f.port p))).toNat = 0
    rw [h.paletteDataValid, hsource]
    rfl
  · exact absurd (hc.symm.trans hsource) Bool.true_eq_false_eq_False.elim
  · exact absurd (hc.symm.trans h.paletteDataValid) Bool.true_eq_false_eq_False.elim
  · change (if f.reader.gammaDataValid then _ else
      if f.reader.gammaDataDone && !f.reader.bufferDone then 0 else f.reader.bufferCounter : ℕ) = _
    rw [h.gammaDataValid, h.gammaDataDone, h.bufferDone, Nat.zero_mod]
    exact h.bufferCounter
  · change (if !f.reader.gammaDataValid && f.reader.gammaDataDone && !f.reader.bufferDone then true
      else !true && f.reader.done : Bool) = false
    rw [h.gammaDataValid, h.gammaDataDone, h.bufferDone]
    rfl

lemma Finished.idle (h : Finished z gamma v i R W taken f) (hg : Generating z v i f)
    (hr : Reading z v i R taken f) : f.reader.Idle z := by
  obtain rfl := h.all_asked
  obtain rfl := h.all_back
  refine ⟨?_, ?_, ?_, ?_, ?_, ?_, h.paletteDataValid, h.gammaDataValid, h.paletteDataDone,
    h.gammaDataDone, h.bufferDone, h.bufferCounter, h.we⟩
  · rw [hg.counter, if_neg (by omega)]
  · rw [hg.started, decide_eq_false (by omega)]
  · rw [hg.configLookupValid, decide_eq_false (by omega)]
  · rw [hg.valid, decide_eq_false (by omega)]
  · rw [hr.reads, List.drop_length, List.map_nil]
  · rw [hr.rsvLevel, Nat.sub_self]
    rfl

/-- `e` cycles after reset. -/
structure Settling (e : ℕ) (r : RamToBufferReader) : Prop where
  counter : r.ramAdr.counter = 0
  started : r.ramAdr.started = false
  configLookupValid : r.ramAdr.configLookupValid = false
  valid : r.ramAdr.valid = false
  reads : r.reads = []
  rsvLevel : r.rsvLevel = 0
  paletteDataValid : r.paletteDataValid = false
  gammaDataValid : r.gammaDataValid = false
  paletteDataDone : r.paletteDataDone = decide (1 ≤ e)
  gammaDataDone : r.gammaDataDone = decide (2 ≤ e)
  bufferDone : r.bufferDone = decide (3 ≤ e)
  bufferCounter : r.bufferCounter = 0
  we : ∀ k, (r.ports k).we = false

lemma Settling.next {e : ℕ} (h : Settling e f.reader) :
    Settling (e + 1) (f.next z gamma v false p).reader := by
  have hen : f.reader.ramAdr.en (f.port p).ready = true := by
    rw [RamAddressGenerator.en, h.counter]
    rfl
  have hacc : f.reader.accepts (v.inputs false (f.port p)) = false := by
    rw [accepts_eq, h.valid]
    rfl
  have hsource : f.reader.sourceValid (v.inputs false (f.port p)) = false := by
    change ((f.port p).valid && !f.reader.reads.isEmpty) = false
    rw [h.reads, List.isEmpty_nil, Bool.not_true, Bool.and_false]
  have hret : f.reader.returns (v.inputs false (f.port p)) = false := by
    rw [RamToBufferReader.returns, hsource, Bool.false_and]
  have hnext : (f.next z gamma v false p).reader.ramAdr = _ := next_ramAdr f false p
  refine ⟨?_, ?_, ?_, ?_, ?_, ?_, hsource, h.paletteDataValid, ?_, ?_, ?_, ?_, fun k => ?_⟩
  · rw [hnext, RamAddressGenerator.next, RamAddressGenerator.nextCounter, h.counter]
    rfl
  · rw [hnext, RamAddressGenerator.next, RamAddressGenerator.nextStarted, h.valid, Bool.and_false,
      Bool.false_and]
    exact h.started
  · rw [hnext, RamAddressGenerator.next, hen, RamAddressGenerator.running, h.counter]
    rfl
  · rw [hnext, RamAddressGenerator.next, hen]
    exact h.configLookupValid
  · rw [next_reads, hret, hacc, h.reads]
    rfl
  · rw [next_rsvLevel, RamToBufferReader.nextRsvLevel, hret, hacc]
    exact h.rsvLevel
  · change f.reader.ramDone (v.inputs false (f.port p)) = _
    rw [RamToBufferReader.ramDone, h.started, h.rsvLevel, hsource, decide_eq_true (Nat.le_add_left 1 e)]
    rfl
  · change f.reader.paletteDataDone = _
    rw [h.paletteDataDone]
    exact decide_eq_decide.mpr (by omega)
  · change f.reader.gammaDataDone = _
    rw [h.gammaDataDone]
    exact decide_eq_decide.mpr (by omega)
  · change (if f.reader.gammaDataValid then _ else
      if f.reader.gammaDataDone && !f.reader.bufferDone then 0 else f.reader.bufferCounter : ℕ) = 0
    rw [h.gammaDataValid, if_neg Bool.false_ne_true]
    split
    · rfl
    · exact h.bufferCounter
  · rw [next_ports, RamToBufferReader.nextPort, h.gammaDataValid, if_neg Bool.false_ne_true]
    split
    · change (_ && (f.reader.ports k).we) = false
      rw [h.we, Bool.and_false]
    · exact h.we k

/-- Three cycles after reset the reader is between rows. -/
theorem idle_of_reset (ps : List PortCycle) (hps : 3 ≤ ps.length) :
    (ps.foldl (fun (f : RowFetch) p => f.next z gamma v false p) {}).reader.Idle z := by
  have hrun : ∀ (f : RowFetch) (e : ℕ), Settling e f.reader → ∀ ps : List PortCycle,
      Settling (e + ps.length) (ps.foldl (fun f p => f.next z gamma v false p) f).reader := by
    intro f e h ps
    induction ps generalizing f e with
    | nil => exact h
    | cons p ps ih =>
      rw [List.length_cons, Nat.add_comm ps.length, ← Nat.add_assoc]
      exact ih _ _ h.next
  have h := hrun {} 0 ⟨rfl, rfl, rfl, rfl, rfl, rfl, rfl, rfl, rfl, rfl, rfl, rfl, fun _ => rfl⟩ ps
  refine ⟨h.counter, h.started, h.configLookupValid, h.valid, h.reads, h.rsvLevel, h.paletteDataValid,
    h.gammaDataValid, ?_, ?_, ?_, h.bufferCounter,
    fun _ k hwe => absurd ((h.we k).symm.trans hwe) Bool.false_ne_true⟩
  · rw [h.paletteDataDone, decide_eq_true (by omega)]
  · rw [h.gammaDataDone, decide_eq_true (by omega)]
  · rw [h.bufferDone, decide_eq_true (by omega)]

/-- Where the generator goes on whatever the port says, the port takes the address. -/
def Kept (f : RowFetch) (p : PortCycle) : Prop :=
  f.reader.ramAdr.counter = 0 → f.reader.ramAdr.valid = true → (f.port p).ready = true

instance (f : RowFetch) (p : PortCycle) : Decidable (f.Kept p) :=
  inferInstanceAs (Decidable (_ → _))

lemma Row.lost_next (h : Row z gamma v initial i R W taken f) :
    (takes i taken f v p).length + 2 < advance z i (f.port p).ready ↔
      taken.length + 2 < i ∨ ¬ f.Kept p := by
  have hg := h.generating
  have hlen := h.reading.sublist.length_le
  have hacc := hg.accepts (p := p)
  have hpos := hg.pos
  have hi := hg.le
  have hkept : f.Kept p ↔ (z.total ≤ i → (2 ≤ i ∧ i ≤ z.total + 1) → (f.port p).ready = true) := by
    rw [Kept, hg.counter, hg.valid, decide_eq_true_iff]
    apply imp_congr_left
    split <;> omega
  rw [List.length_range] at hlen
  rw [hkept, takes, hacc, advance]
  cases (f.port p).ready with
  | true =>
    have hk : z.total ≤ i → 2 ≤ i ∧ i ≤ z.total + 1 → true = true := fun _ _ => rfl
    rw [not_iff_false_intro hk, or_false]
    by_cases hin : 2 ≤ i ∧ i ≤ z.total + 1
    · rw [decide_eq_true ⟨hin, rfl⟩, if_pos rfl, if_pos ⟨hin.2, Or.inr (Or.inr rfl)⟩,
        List.length_append, List.length_singleton]
      omega
    · rw [decide_eq_false fun hc => hin hc.1, if_neg Bool.false_ne_true, List.append_nil]
      split <;> omega
  | false =>
    rw [decide_eq_false fun hc => Bool.false_ne_true hc.2, if_neg Bool.false_ne_true, List.append_nil]
    have hk : (z.total ≤ i → 2 ≤ i ∧ i ≤ z.total + 1 → false = true) ↔
        ¬ (z.total ≤ i ∧ 2 ≤ i ∧ i ≤ z.total + 1) :=
      ⟨fun hc hin => Bool.false_ne_true (hc hin.1 hin.2), fun hc hend hin => absurd ⟨hend, hin⟩ hc⟩
    rw [hk, not_not]
    split
    · rename_i hgo
      have hgo' : i < 2 ∨ z.total ≤ i := by
        rcases hgo.2 with hlt | hend | hready
        · exact Or.inl hlt
        · exact Or.inr hend
        · exact absurd hready Bool.false_ne_true
      omega
    · rename_i hstay
      have hstay' : ¬ (i ≤ z.total + 1 ∧ (i < 2 ∨ z.total ≤ i)) := by
        rintro ⟨hle, hlt | hend⟩
        · exact hstay ⟨hle, Or.inl hlt⟩
        · exact hstay ⟨hle, Or.inr (Or.inl hend)⟩
      omega

lemma Row.run (h : Row z gamma v initial i R W taken f) (hz : z.Built) (ps : List PortCycle) :
    ∃ i' R' W' taken', Row z gamma v initial i' R' W' taken'
        (ps.foldl (fun f p => f.next z gamma v false p) f) ∧
      (taken'.length + 2 < i' ↔ taken.length + 2 < i ∨
        ¬ Always (fun f p t => t = f.next z gamma v false p) Kept f ps) := by
  induction ps generalizing i R W taken f with
  | nil => exact ⟨i, R, W, taken, h, by rw [Always, not_true, or_false]⟩
  | cons p ps ih =>
    obtain ⟨i', R', W', taken', hrow, hlost⟩ := ih (h.next hz (p := p))
    refine ⟨i', R', W', taken', hrow, hlost.trans ?_⟩
    rw [h.lost_next, always_next_cons, not_and_or, or_assoc]

lemma Row.done_stays (h : Row z gamma v initial i R W taken f) (hz : z.Built)
    (hd : f.reader.done = true) (ps : List PortCycle) :
    (ps.foldl (fun f p => f.next z gamma v false p) f).reader.done = true := by
  induction ps generalizing i R W taken f with
  | nil => exact hd
  | cons p ps ih =>
    apply ih (h.next hz (p := p))
    rcases h.phase with hu | hf
    · rw [hu.done] at hd
      exact absurd hd Bool.false_ne_true
    · exact (hf.next h.generating h.reading h.filling).done

/-- A cycle in which the port takes and gives. -/
def Open (p : PortCycle) : Prop := p.ready = true ∧ p.valid = true

instance (p : PortCycle) : Decidable (Open p) := inferInstanceAs (Decidable (_ ∧ _))

/-- A bound on the open cycles to `done`. -/
def work (z : PanelSize) (i R : ℕ) (taken : List ℕ) (f : RowFetch) : ℕ :=
  2 * (z.total + 2 - i) + (taken.length - R) +
    if i = z.total + 2 ∧ R = taken.length then
      3 - (f.reader.paletteDataDone.toNat + f.reader.gammaDataDone.toNat)
    else 3

lemma work_le (z : PanelSize) (i R : ℕ) (taken : List ℕ) (f : RowFetch) :
    work z i R taken f ≤ 2 * (z.total + 2 - i) + (taken.length - R) + 3 := by
  rw [work]
  apply Nat.add_le_add_left
  split
  · exact Nat.sub_le _ _
  · exact le_rfl

lemma Underway.work_end (h : Underway z gamma v i R W taken f) (hz : z.Built)
    (hg : Generating z v i f) (hr : Reading z v i R taken f) (hf : f.finishing = false)
    (hd : i = z.total + 2 ∧ R = taken.length) :
    work z (advance z i (f.port p).ready) (backs R f v p) (takes i taken f v p)
      (f.next z gamma v false p) + 1 ≤ work z i R taken f := by
  have htotal := hz.two_le
  have hnext : Drained z _ _ _ (f.next z gamma v false p) := Drained.next hd hg hr
  have hpalette : (f.next z gamma v false p).reader.paletteDataDone = true :=
    (hr.ramDone hg false (f.port p)).trans (decide_eq_true hd)
  have hgamma : (f.next z gamma v false p).reader.gammaDataDone = f.reader.paletteDataDone := rfl
  have hoff : f.reader.gammaDataDone = false := by
    by_contra hon
    rw [Bool.not_eq_false] at hon
    rcases h.flagged.gammaDataDone hon with ⟨hi, -⟩ | ⟨-, -, hvalid⟩
    · omega
    · rw [finishing, hvalid, hon, Bool.not_false, Bool.true_and, Bool.true_and,
        Bool.not_eq_false'] at hf
      have hi := h.flagged.bufferDone hf
      omega
  rw [work, work, if_pos hd, if_pos ⟨hnext.1, hnext.2.1⟩, hpalette, hgamma, hoff, hnext.1, hnext.2.1,
    hd.1, hd.2]
  cases f.reader.paletteDataDone with
  | false => rw [Bool.toNat_false, Bool.toNat_true]; omega
  | true => rw [Bool.toNat_false, Bool.toNat_true]; omega

lemma Row.work_next (h : Row z gamma v initial i R W taken f) (hz : z.Built) :
    (f.next z gamma v false p).reader.done = true ∨
      work z (advance z i (f.port p).ready) (backs R f v p) (takes i taken f v p)
        (f.next z gamma v false p) + (if Open p then 1 else 0) ≤ work z i R taken f := by
  have hg := h.generating
  have hr := h.reading
  rcases h.phase with hu | hd
  · cases hf : f.finishing with
    | true => exact Or.inl (hu.finish hz hg hr h.filling hf).done
    | false =>
      refine Or.inr ?_
      by_cases hd : i = z.total + 2 ∧ R = taken.length
      · have hend := hu.work_end hz hg hr hf hd (p := p)
        split <;> omega
      · have hle := work_le z (advance z i (f.port p).ready) (backs R f v p) (takes i taken f v p)
          (f.next z gamma v false p)
        have hi := hg.le
        have hback := hr.returned_le
        have hacc := hg.accepts (p := p)
        have hret := hr.returns false (f.port p)
        have hopen : Open p → (f.port p).ready = false → R < taken.length := by
          rintro ⟨hready, -⟩ hfull
          have hcap : (p.ready && decide (f.reader.reads.length < 16)) = false := hfull
          rw [hready, Bool.true_and, decide_eq_false_iff_not, hr.reads, List.length_map,
            List.length_drop] at hcap
          omega
        have hmore : Open p → R < taken.length → backs R f v p = R + 1 := by
          rintro ⟨-, hvalid⟩ hlt
          rw [backs, hret, decide_eq_true ⟨hvalid, hlt⟩, Bool.toNat_true]
        have hmono : R ≤ backs R f v p := Nat.le_add_right _ _
        rw [show work z i R taken f = 2 * (z.total + 2 - i) + (taken.length - R) + 3 by
          rw [work, if_neg hd]]
        cases hready : (f.port p).ready with
        | true =>
          have hlen : (takes i taken f v p).length ≤ taken.length + 1 := by
            rw [takes, List.length_append]
            apply Nat.add_le_add_left
            split
            · exact le_rfl
            · exact Nat.zero_le 1
          rw [hready] at hle hacc
          by_cases hlast : i ≤ z.total + 1
          · rw [show advance z i true = i + 1 from if_pos ⟨hlast, Or.inr (Or.inr rfl)⟩] at hle ⊢
            split <;> omega
          · rw [show advance z i true = i from if_neg fun hc => hlast hc.1] at hle ⊢
            have hnone : takes i taken f v p = taken := by
              rw [takes, hacc, decide_eq_false fun hc => hlast hc.1.2, if_neg Bool.false_ne_true,
                List.append_nil]
            rw [hnone] at hle ⊢
            split
            · rename_i hp
              have hone := hmore hp (by omega)
              omega
            · omega
        | false =>
          have hnone : takes i taken f v p = taken := by
            rw [takes, hacc, decide_eq_false fun hc => Bool.false_ne_true (hready.symm.trans hc.2),
              if_neg Bool.false_ne_true, List.append_nil]
          have hadv := (advance_le hi false).1
          rw [hready, hnone] at hle
          rw [hnone]
          split
          · rename_i hp
            have hone := hmore hp (hopen hp hready)
            have hlt := hopen hp hready
            omega
          · omega
  · exact Or.inl (hd.next hg hr h.filling).done

lemma Row.done_of_work (h : Row z gamma v initial i R W taken f) (hz : z.Built) (ps : List PortCycle)
    (hwork : work z i R taken f < (ps.filter fun p => Open p).length) :
    (ps.foldl (fun f p => f.next z gamma v false p) f).reader.done = true := by
  induction ps generalizing i R W taken f with
  | nil => exact absurd hwork (Nat.not_lt_zero _)
  | cons p ps ih =>
    have hnext := h.next hz (p := p)
    rcases h.work_next hz (p := p) with hd | hle
    · exact hnext.done_stays hz hd ps
    · apply ih hnext
      rw [List.filter_cons] at hwork
      by_cases hp : Open p
      · rw [if_pos (decide_eq_true hp), List.length_cons] at hwork
        rw [if_pos hp] at hle
        omega
      · rw [if_neg (fun hc => hp (of_decide_eq_true hc))] at hwork
        rw [if_neg hp] at hle
        omega

/-- What a fetch that is done has asked for and left behind. -/
structure Fetched (z : PanelSize) (gamma : BitVec 8 → BitVec 8) (v : RowSettings) (f g : RowFetch)
    (taken : List ℕ) : Prop where
  sublist : taken.Sublist (List.range z.total)
  asked : g.asked = taken.map fun m => (z.panelOf m, v.address z m)
  filled : z.Aligned → ∀ m < taken.length,
    g.buffers (z.outputOf m) (z.addressOf m) = v.pixel z gamma (taken.getD m 0)
  spared : z.Aligned → taken.length ≤ z.last →
    g.buffers (z.nOutputs - 1) (z.addressOf z.last) = f.buffers (z.nOutputs - 1) (z.addressOf z.last)
  idle : g.reader.Idle z

/-- The cycles after the start lose no address. -/
def AllKept (z : PanelSize) (gamma : BitVec 8 → BitVec 8) (v : RowSettings) (f : RowFetch) :
    List PortCycle → Prop
  | [] => True
  | p :: ps => Always (fun f p t => t = f.next z gamma v false p) Kept (f.next z gamma v true p) ps

instance (f : RowFetch) (ps : List PortCycle) : Decidable (AllKept z gamma v f ps) :=
  match ps with
  | [] => .isTrue trivial
  | _ :: _ => decidableAlways _ _

theorem fetched (hz : z.Built) (hidle : f.reader.Idle z) (hasked : f.asked = [])
    {ps : List PortCycle} (hps : ps ≠ []) (hdone : (f.fetch z gamma v ps).reader.done = true) :
    ∃ taken, Fetched z gamma v f (f.fetch z gamma v ps) taken ∧
      (taken = List.range z.total ↔ AllKept z gamma v f ps) := by
  cases ps with
  | nil => exact absurd rfl hps
  | cons p ps =>
    have hstart : Row z gamma v _ _ _ _ _ (f.next z gamma v true p) := Row.of_idle hidle hz hasked
    obtain ⟨i, R, W, taken, hrow, hlost⟩ := hstart.run hz ps
    change Row z gamma v f.buffers i R W taken (f.fetch z gamma v (p :: ps)) at hrow
    rcases hrow.phase with hu | hf
    · rw [hu.done] at hdone
      exact absurd hdone Bool.false_ne_true
    obtain rfl := hf.all_asked
    obtain rfl := hf.all_written
    have hsub : taken.Sublist (List.range z.total) := hrow.reading.sublist
    refine ⟨taken, ⟨hsub, hrow.reading.asked, hf.filled, hrow.filling.spared,
      hf.idle hrow.generating hrow.reading⟩, ?_⟩
    change _ ↔ Always _ _ _ _
    constructor
    · rintro rfl
      by_contra hnot
      have hlt := hlost.mpr (Or.inr hnot)
      rw [List.length_range] at hlt
      omega
    · intro hall
      have hlen := hsub.length_le
      rw [List.length_range] at hlen
      have hge : ¬ taken.length + 2 < z.total + 2 := fun hlt => by
        rcases hlost.mp hlt with hc | hc
        · change 0 + 2 < 1 at hc
          omega
        · exact hc hall
      apply hsub.eq_of_length
      rw [List.length_range]
      omega

theorem fetch_done (hz : z.Built) (hidle : f.reader.Idle z) (hasked : f.asked = []) (p : PortCycle)
    (ps : List PortCycle) (hopen : 2 * z.total + 6 ≤ (ps.filter fun p => Open p).length) :
    (f.fetch z gamma v (p :: ps)).reader.done = true := by
  have hstart : Row z gamma v _ _ _ _ _ (f.next z gamma v true p) := Row.of_idle hidle hz hasked
  apply hstart.done_of_work hz ps
  have hle := work_le z 1 0 [] (f.next z gamma v true p)
  rw [List.length_nil] at hle
  omega

end RowFetch

end Ledwall.Gateware
