import Ledwall.Gateware.RowRun

/-! When the reader is done, whatever it reads: its pace hangs on the starts and on the read port
only. -/

namespace Ledwall.Gateware

/-- Two readers at the same point of their work. What they read may differ. -/
structure RamToBufferReader.Alike (r s : RamToBufferReader) : Prop where
  counter : r.ramAdr.counter = s.ramAdr.counter
  started : r.ramAdr.started = s.ramAdr.started
  configLookupValid : r.ramAdr.configLookupValid = s.ramAdr.configLookupValid
  valid : r.ramAdr.valid = s.ramAdr.valid
  reads : r.reads.length = s.reads.length
  sourceReady : r.sourceReady = s.sourceReady
  rsvLevel : r.rsvLevel = s.rsvLevel
  paletteDataValid : r.paletteDataValid = s.paletteDataValid
  paletteDataDone : r.paletteDataDone = s.paletteDataDone
  gammaDataValid : r.gammaDataValid = s.gammaDataValid
  gammaDataDone : r.gammaDataDone = s.gammaDataDone
  bufferDone : r.bufferDone = s.bufferDone
  done : r.done = s.done

lemma isEmpty_eq_of_length {α β : Type*} {xs : List α} {ys : List β} (h : xs.length = ys.length) :
    xs.isEmpty = ys.isEmpty := by
  cases xs <;> cases ys <;> simp_all

namespace RowFetch

variable {z : PanelSize} {gamma gamma' : BitVec 8 → BitVec 8} {v v' : RowSettings} {f g : RowFetch}

lemma Alike.next (h : f.reader.Alike g.reader) (start : Bool) (p : PortCycle) :
    (f.next z gamma v start p).reader.Alike (g.next z gamma' v' start p).reader := by
  have hport : f.port p = g.port p := by rw [port, port, h.reads]
  have hsource : f.reader.sourceValid (v.inputs start (f.port p)) =
      g.reader.sourceValid (v'.inputs start (g.port p)) := by
    change ((f.port p).valid && !f.reader.reads.isEmpty) = ((g.port p).valid && !g.reader.reads.isEmpty)
    rw [hport, isEmpty_eq_of_length h.reads]
  have hreturns : f.reader.returns (v.inputs start (f.port p)) =
      g.reader.returns (v'.inputs start (g.port p)) := by
    rw [RamToBufferReader.returns, RamToBufferReader.returns, hsource, h.sourceReady]
  have haccepts : f.reader.accepts (v.inputs start (f.port p)) =
      g.reader.accepts (v'.inputs start (g.port p)) := by
    change (f.reader.ramAdr.valid && !false && (f.port p).ready) =
      (g.reader.ramAdr.valid && !false && (g.port p).ready)
    rw [h.valid, hport]
  have hen (b : Bool) : f.reader.ramAdr.en b = g.reader.ramAdr.en b := by
    rw [RamAddressGenerator.en, RamAddressGenerator.en, h.counter]
  have hf : (f.next z gamma v start p).reader.ramAdr = _ := next_ramAdr f start p
  have hg : (g.next z gamma' v' start p).reader.ramAdr = _ := next_ramAdr g start p
  rw [← hport] at hg
  refine ⟨?_, ?_, ?_, ?_, ?_, ?_, ?_, hsource, ?_, h.paletteDataValid, h.paletteDataDone,
    h.gammaDataDone, ?_⟩
  · rw [hf, hg]
    change RamAddressGenerator.nextCounter _ _ _ _ = RamAddressGenerator.nextCounter _ _ _ _
    rw [RamAddressGenerator.nextCounter, RamAddressGenerator.nextCounter, hen, h.counter]
    rfl
  · rw [hf, hg]
    change RamAddressGenerator.nextStarted _ _ _ = RamAddressGenerator.nextStarted _ _ _
    rw [RamAddressGenerator.nextStarted, RamAddressGenerator.nextStarted, hen, h.valid,
      h.configLookupValid, h.started]
    rfl
  · rw [hf, hg]
    simp only [RamAddressGenerator.next, RamAddressGenerator.running, hen, h.counter,
      h.configLookupValid]
    rfl
  · rw [hf, hg]
    simp only [RamAddressGenerator.next, hen, h.configLookupValid, h.valid]
  · change ((if f.reader.returns _ then f.reader.reads.tail else f.reader.reads) ++
      if f.reader.accepts _ then _ else _).length = ((if g.reader.returns _ then g.reader.reads.tail
        else g.reader.reads) ++ if g.reader.accepts _ then _ else _).length
    rw [hreturns, haccepts, List.length_append, List.length_append]
    congr 1
    · split <;> simp [h.reads]
    · split <;> rfl
  · change f.reader.nextSourceReady _ = g.reader.nextSourceReady _
    rw [RamToBufferReader.nextSourceReady, RamToBufferReader.nextSourceReady, hsource, h.started,
      h.rsvLevel]
  · change f.reader.nextRsvLevel _ = g.reader.nextRsvLevel _
    rw [RamToBufferReader.nextRsvLevel, RamToBufferReader.nextRsvLevel, hreturns, haccepts, h.rsvLevel]
  · change f.reader.ramDone _ = g.reader.ramDone _
    rw [RamToBufferReader.ramDone, RamToBufferReader.ramDone, hsource, h.started, h.rsvLevel]
  · change (if !f.reader.gammaDataValid && f.reader.gammaDataDone && !f.reader.bufferDone then true
        else !start && f.reader.done : Bool) =
      (if !g.reader.gammaDataValid && g.reader.gammaDataDone && !g.reader.bufferDone then true
        else !start && g.reader.done : Bool)
    rw [h.gammaDataValid, h.gammaDataDone, h.bufferDone, h.done]

/-- Settings to compare with. -/
def plain : RowSettings where
  row := 0
  usePalette := false
  imageWidth := 0
  panelConfig _ := {}
  fbBase := 0
  ram := id
  palette _ := 0

/-- At the same point as a reader that is on its way from reset. -/
def Waking (e : ℕ) (f : RowFetch) : Prop :=
  ∃ g : RowFetch, f.reader.Alike g.reader ∧ Settling e g.reader ∧ g.reader.done = decide (3 ≤ e)

/-- At the same point as a reader that has fetched a row. -/
def Rested (z : PanelSize) (f : RowFetch) : Prop :=
  ∃ (g : RowFetch) (before : ℕ → ℕ → Pixel) (i R W : ℕ) (taken : List ℕ), f.reader.Alike g.reader ∧
    Row z id plain before i R W taken g ∧ Finished z id plain i R W taken g

/-- Nothing has been asked of it, or everything is there. -/
def Resting (z : PanelSize) (f : RowFetch) : Prop := f.Rested z ∨ ∃ e ≥ 3, f.Waking e

/-- At the same point as a reader that is fetching a row. -/
def Fetching (z : PanelSize) (f : RowFetch) : Prop :=
  ∃ (g : RowFetch) (before : ℕ → ℕ → Pixel) (i R W : ℕ) (taken : List ℕ), f.reader.Alike g.reader ∧
    Row z id plain before i R W taken g ∧ Underway z id plain i R W taken g

lemma Waking.next {e : ℕ} (h : f.Waking e) (p : PortCycle) :
    (f.next z gamma v false p).Waking (e + 1) := by
  obtain ⟨g, halike, hsettling, hdone⟩ := h
  refine ⟨g.next z id plain false p, Alike.next halike false p, hsettling.next, ?_⟩
  change (if !g.reader.gammaDataValid && g.reader.gammaDataDone && !g.reader.bufferDone then true
    else !false && g.reader.done : Bool) = _
  rw [hsettling.gammaDataValid, hsettling.gammaDataDone, hsettling.bufferDone, hdone]
  rcases Nat.lt_or_ge e 2 with hlt | hge
  · rw [decide_eq_false (show ¬ 2 ≤ e by omega), decide_eq_false (show ¬ 3 ≤ e by omega),
      decide_eq_false (show ¬ 3 ≤ e + 1 by omega)]
    rfl
  · rw [decide_eq_true hge, decide_eq_true (show 3 ≤ e + 1 by omega)]
    cases decide (3 ≤ e) <;> rfl

lemma waking_reset (f : RowFetch) (h : f.reader = {}) : f.Waking 0 :=
  ⟨{}, by rw [h]; exact ⟨rfl, rfl, rfl, rfl, rfl, rfl, rfl, rfl, rfl, rfl, rfl, rfl, rfl⟩,
    ⟨rfl, rfl, rfl, rfl, rfl, rfl, rfl, rfl, rfl, rfl, rfl, rfl, fun _ => rfl⟩, rfl⟩

lemma Waking.done {e : ℕ} (h : f.Waking e) : f.reader.done = decide (3 ≤ e) := by
  obtain ⟨g, halike, -, hdone⟩ := h
  exact halike.done.trans hdone

lemma Resting.done (h : f.Resting z) : f.reader.done = true := by
  rcases h with ⟨g, before, i, R, W, taken, halike, -, hfinished⟩ | ⟨e, he, hwaking⟩
  · exact halike.done.trans hfinished.done
  · rw [hwaking.done, decide_eq_true he]

lemma Fetching.done (h : f.Fetching z) : f.reader.done = false := by
  obtain ⟨g, before, i, R, W, taken, halike, -, hunderway⟩ := h
  exact halike.done.trans hunderway.done

lemma Resting.gammaDataValid (h : f.Resting z) : f.reader.gammaDataValid = false := by
  rcases h with ⟨g, before, i, R, W, taken, halike, -, hfinished⟩ | ⟨e, he, g, halike, hsettling, -⟩
  · exact halike.gammaDataValid.trans hfinished.gammaDataValid
  · exact halike.gammaDataValid.trans hsettling.gammaDataValid

lemma Resting.next (h : f.Resting z) (hz : z.Built) (p : PortCycle) :
    (f.next z gamma v false p).Resting z := by
  rcases h with ⟨g, before, i, R, W, taken, halike, hrow, hfinished⟩ | ⟨e, he, hwaking⟩
  · exact .inl ⟨_, before, _, _, _, _, Alike.next halike false p, hrow.next hz,
      hfinished.next hrow.generating hrow.reading hrow.filling⟩
  · exact .inr ⟨e + 1, by omega, hwaking.next p⟩

lemma Settling.idle {e : ℕ} (h : Settling e f.reader) (he : 3 ≤ e) : f.reader.Idle z := by
  refine ⟨h.counter, h.started, h.configLookupValid, h.valid, h.reads, h.rsvLevel, h.paletteDataValid,
    h.gammaDataValid, ?_, ?_, ?_, h.bufferCounter,
    fun _ k hwe => absurd ((h.we k).symm.trans hwe) Bool.false_ne_true⟩
  · rw [h.paletteDataDone, decide_eq_true (by omega)]
  · rw [h.gammaDataDone, decide_eq_true (by omega)]
  · rw [h.bufferDone, decide_eq_true he]

lemma Resting.start (h : f.Resting z) (hz : z.Built) (p : PortCycle) :
    (f.next z gamma v true p).Fetching z := by
  have hidle : ∃ g : RowFetch, f.reader.Alike g.reader ∧ g.reader.Idle z ∧ g.asked = [] := by
    rcases h with ⟨g, before, i, R, W, taken, halike, hrow, hfinished⟩ | ⟨e, he, g, halike, hsettling, -⟩
    · exact ⟨{ g with asked := [] }, halike, hfinished.idle hrow.generating hrow.reading, rfl⟩
    · exact ⟨{ g with asked := [] }, halike, hsettling.idle he, rfl⟩
  obtain ⟨g, halike, hg, hasked⟩ := hidle
  have hrow : Row z id plain g.buffers 1 0 0 [] (g.next z id plain true p) := Row.of_idle hg hz hasked
  have halike' := @Alike.next z gamma id v plain f g halike true p
  rcases hrow.phase with hunderway | hfinished
  · exact ⟨_, _, _, _, _, _, halike', hrow, hunderway⟩
  · have htotal := hz.two_le
    have hall := hfinished.all_asked
    omega

lemma Fetching.next (h : f.Fetching z) (hz : z.Built) (p : PortCycle) :
    (f.next z gamma v false p).Fetching z ∨
      f.reader.gammaDataValid = false ∧ (f.next z gamma v false p).Rested z := by
  obtain ⟨g, before, i, R, W, taken, halike, hrow, hunderway⟩ := h
  have halike' := @Alike.next z gamma id v plain f g halike false p
  have hnext := hrow.next hz (p := p)
  cases hf : g.finishing with
  | true =>
    have hvalid : g.reader.gammaDataValid = false := by
      rw [finishing, Bool.and_eq_true, Bool.and_eq_true, Bool.not_eq_true'] at hf
      exact hf.1.1
    exact .inr ⟨halike.gammaDataValid.trans hvalid, _, _, _, _, _, _, halike', hnext,
      hunderway.finish hz hrow.generating hrow.reading hrow.filling hf⟩
  | false =>
    rcases hnext.phase with hu | hfinished
    · exact .inl ⟨_, _, _, _, _, _, halike', hnext, hu⟩
    · have hdone : (g.next z id plain false p).reader.done = false := by
        change (if g.finishing then true else !false && g.reader.done : Bool) = false
        rw [hf, hunderway.done]
        rfl
      exact absurd (hdone.symm.trans hfinished.done) Bool.false_ne_true

end RowFetch

end Ledwall.Gateware
