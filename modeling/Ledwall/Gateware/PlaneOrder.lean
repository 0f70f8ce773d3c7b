import Ledwall.Gateware.BitPlanes

/-! Plane by plane and row by row: how the controllers, the reader and the shift-out stand to each
other in each cycle. -/

namespace Ledwall.Gateware

namespace Hub75

variable {z : Hub75Config} {w : Hub75} {c : HubCycle}

lemma next_shownBank (h : w.swaps = false) : (w.next z c).shownBank = w.shownBank := by
  change (if (w.shiftingBuffer ^^ w.swaps) = !w.shiftingBuffer then _
    else w.rowBuffers (w.shiftingBuffer ^^ w.swaps)) = _
  rw [h, Bool.xor_false, if_neg (Bool.self_ne_not _)]
  rfl

lemma next_filling (h : w.swaps = false) :
    (w.next z c).filling.buffers = (w.filled z c).buffers := by
  change (if (!(w.shiftingBuffer ^^ w.swaps)) = !w.shiftingBuffer then _ else _ : ℕ → ℕ → Pixel) = _
  rw [h, Bool.xor_false, if_pos rfl]

lemma next_shownBank_swaps (h : w.swaps = true) :
    (w.next z c).shownBank = (w.filled z c).buffers := by
  change (if (w.shiftingBuffer ^^ w.swaps) = !w.shiftingBuffer then _ else _ : ℕ → ℕ → Pixel) = _
  rw [h, Bool.xor_true, if_pos rfl]

lemma rowStart_wait (h : w.common.fsm = .wait) : w.rowStart = false := by
  rw [rowStart, FrameController.startShifting, h, Bool.and_false]

lemma memStart_wait (h : w.common.fsm = .wait) : w.memStart = false := by
  rw [memStart, rowStart_wait h, Bool.false_and]

lemma next_common_busy (h : w.common.fsm = .wait) (hfsm : w.fsm ≠ .idle) :
    (w.next z c).common.fsm = .wait := by
  have hdone : w.shiftingDone = false := by
    rw [shiftingDone, beq_eq_false_iff_ne.mpr hfsm, Bool.false_and]
  change (w.common.next z w.shiftingDone c.enable).fsm = .wait
  rw [FrameController.next, h, hdone]
  simp only [Bool.and_false, Bool.false_and, Bool.false_eq_true, if_false]
  exact h

end Hub75

namespace Wall

variable {z : Hub75Config} {w : Wall} {c : HubCycle} {j : ℕ}

/-- Everything that was shown is a plane of the words of its row. -/
def Worded (z : Hub75Config) (w : Wall) : Prop :=
  ∀ k s, w.shows[k]? = some s → ∃ words, Fetches z w.fetches ((k + 7) / 8) words ∧
    ∀ o, s.data o = z.planeOf words (7 - (k + 7) % 8) o

/-- A plane is in the panels, and the shift-out rests. -/
structure Standing (z : Hub75Config) (words : ℕ → ℕ → Pixel) (w : Wall) : Prop where
  lanes (o : ℕ) : (w.hub.lane o).Idle
  shifting : w.hub.rowModule.shifting = false
  registers (o : ℕ) : w.registers o = z.planeOf words w.bit o
  words : Fetches z w.fetches w.pass words

/-- `j` cycles after the start of a plane's shift-out. -/
structure Shifting (z : Hub75Config) (j : ℕ) (w : Wall) : Prop where
  frame : w.hub.common.fsm = .wait
  fsm : w.hub.fsm = if j = 1 then .waitTillStart else .shiftOut
  pos : 1 ≤ j
  le : j ≤ z.size.bufferDepth + 3
  going : w.hub.rowModule.shifting = decide (j ≤ z.size.bufferDepth + 2)
  lanes (o : ℕ) : ShiftOut.At z.size (w.hub.shownBank o) z.rgbOrder w.bit j (w.hub.lane o)
  registers (o : ℕ) : ∃ old, old.length + (j - 3) / 2 = z.clocks ∧ w.registers o =
    old ++ (List.range ((j - 3) / 2)).map (ShiftOut.pair (w.hub.shownBank o) z.rgbOrder w.bit)
  words : Fetches z w.fetches w.pass w.hub.shownBank
  prefetch : Prefetch z w.pass w.bit w.hub.filling w.fetching w.fetches

/-- A row's last plane waits for the next row. -/
structure Holding (z : Hub75Config) (w : Wall) : Prop where
  frame : w.hub.common.fsm = .wait
  fsm : w.hub.fsm = .shiftOut
  bit : w.bit = 0
  standing : Standing z w.hub.shownBank w
  prefetch : Prefetch z w.pass w.bit w.hub.filling w.fetching w.fetches

/-- A plane waits to be latched, or is being latched. -/
structure Ready (z : Hub75Config) (w : Wall) : Prop where
  frame : w.hub.common.fsm = .wait ∨
    w.hub.common.fsm = .latch ∧ w.hub.common.brightnessCounter = 0
  fsm : w.hub.fsm = .idle
  standing : ∃ words, Standing z words w
  prepared : (w.bit ≠ 0 ∧ Fetches z w.fetches w.pass w.hub.shownBank ∧
      Prefetch z w.pass w.bit w.hub.filling w.fetching w.fetches) ∨
    (w.bit = 0 ∧ Fetches z w.fetches (w.pass + 1) w.hub.shownBank ∧
      Turned z w.pass w.hub.filling w.fetching w.fetches)

inductive Phase (z : Hub75Config) (w : Wall) : Prop
  | reset (memory : Bool → ℕ → ℕ → Pixel) (h : w = z.reset memory)
  | shifting (j : ℕ) (h : w.Shifting z j)
  | holding (h : w.Holding z)
  | ready (h : w.Ready z)

lemma not_latches (h : w.hub.common.fsm ≠ .latch) : w.latches = false :=
  Bool.eq_false_iff.mpr fun hl => h (latches_iff.mp hl).1

lemma wait_not_latches (h : w.hub.common.fsm = .wait) : w.latches = false :=
  not_latches (by rw [h]; decide)

lemma next_bit_steady (h : w.latches = false) : (w.next z c).bit = w.bit :=
  (FrameController.next_steady (z := z)
    (fun hc => Bool.false_ne_true (h.symm.trans (latches_iff.mpr hc))) _ c.enable).1

lemma next_pass_steady (h : w.latches = false) : (w.next z c).pass = w.pass := by
  rw [pass, next_index_steady h, pass]

lemma next_fetches : (w.next z c).fetches = w.fetches ++
    (Prefetch.ends w.fetching (w.hub.filled z c)).toList.map fun r => (r, (w.hub.filled z c).buffers) :=
  rfl

lemma next_fetching (h : w.hub.memStart = false) : (w.next z c).fetching =
    if (Prefetch.ends w.fetching (w.hub.filled z c)).isSome then none else w.fetching := by
  change (if w.hub.memStart then _ else _ : Option ℕ) = _
  rw [h, if_neg Bool.false_ne_true]
  rfl

lemma filled_eq (h : w.hub.memStart = false) : w.hub.filled z c =
    w.hub.filling.next z.size z.gamma { c.settings with row := w.hub.nextRow z } false c.port := by
  rw [Hub75.filled, h]

lemma next_shownBank (h : w.hub.swaps = false) : (w.next z c).hub.shownBank = w.hub.shownBank :=
  Hub75.next_shownBank h

lemma next_shownBank_swaps (h : w.hub.swaps = true) :
    (w.next z c).hub.shownBank = (w.hub.filled z c).buffers :=
  Hub75.next_shownBank_swaps h

lemma next_registers (h : w.hub.rowStart = false) (o : ℕ) : (w.next z c).registers o =
    ((w.hub.lane o).sampled z.size (w.hub.shownBank o) z.rgbOrder w.bit false).elim (w.registers o)
      fun p => (w.registers o).tail ++ [p] := by
  change (w.hub.sampled z o).elim _ _ = _
  rw [Hub75.sampled, h]
  rfl

lemma next_prefetch (hz : z.size.Built) (hl : w.latches = false) (hm : w.hub.memStart = false)
    (hs : w.hub.swaps = false)
    (h : Prefetch z w.pass w.bit w.hub.filling w.fetching w.fetches) :
    Prefetch z (w.next z c).pass (w.next z c).bit (w.next z c).hub.filling (w.next z c).fetching
      (w.next z c).fetches := by
  have hnext := h.next hz (filled_eq (c := c) hm)
  rw [next_pass_steady hl, next_bit_steady hl, next_fetches, next_fetching hm]
  exact hnext.congr rfl (Hub75.next_filling hs)

lemma Standing.next {words : ℕ → ℕ → Pixel} (h : w.Standing z words) (hl : w.latches = false)
    (hr : w.hub.rowStart = false) : (w.next z c).Standing z words where
  lanes o := by
    change (w.hub.nextLane z o).Idle
    rw [Hub75.nextLane, hr]
    exact (h.lanes o).next
  shifting := by
    change (w.hub.rowModule.next z.size w.hub.rowStart).shifting = false
    rw [hr]
    exact (ShiftOut.rowModule_idle (h.lanes 0)).2.2.2.trans h.shifting
  registers o := by
    rw [next_registers hr, (h.lanes o).sampled, next_bit_steady hl]
    exact h.registers o
  words := by
    rw [next_pass_steady hl, next_fetches]
    exact h.words.append _

lemma begins (hfsm : w.hub.fsm = .idle) (hstart : w.hub.common.startShifting = true)
    (hlanes : ∀ o, (w.hub.lane o).Idle) (hlength : ∀ o, (w.registers o).length = z.clocks)
    (hframe : (w.next z c).hub.common.fsm = .wait)
    (hwords : Fetches z (w.next z c).fetches (w.next z c).pass w.hub.shownBank)
    (hprefetch : Prefetch z (w.next z c).pass (w.next z c).bit (w.hub.filled z c)
      (w.next z c).fetching (w.next z c).fetches) : (w.next z c).Shifting z 1 := by
  have hrow : w.hub.rowStart = true := by rw [Hub75.rowStart, hfsm, hstart]; rfl
  have hswaps : w.hub.swaps = false := by rw [Hub75.swaps, hfsm]; rfl
  have hbank : (w.next z c).hub.shownBank = w.hub.shownBank := next_shownBank hswaps
  have hone : ∀ o, ShiftOut.At z.size ((w.next z c).hub.shownBank o) z.rgbOrder (w.next z c).bit 1
      ((w.next z c).hub.lane o) := by
    intro o
    change ShiftOut.At _ _ _ _ 1 (w.hub.nextLane z o)
    rw [Hub75.nextLane, hrow]
    exact (hlanes o).start (congrFun hbank o)
  have hcounter : w.hub.rowModule.counter = 0 := (hlanes 0).counter
  refine ⟨hframe, ?_, Nat.le_refl 1, by omega, ?_, hone, ?_, hbank ▸ hwords,
    hprefetch.congr rfl (Hub75.next_filling hswaps)⟩
  · change w.hub.nextFsm = _
    rw [Hub75.nextFsm, hfsm, if_pos rfl]
    exact if_pos hstart
  · change (w.hub.rowModule.next z.size w.hub.rowStart).shifting = _
    rw [hrow, decide_eq_true (by omega)]
    exact if_pos ⟨hcounter, rfl⟩
  · intro o
    refine ⟨w.registers o, hlength o, ?_⟩
    change (w.hub.sampled z o).elim _ _ = _
    rw [Hub75.sampled, hrow, (hlanes o).sampled_start]
    exact (List.append_nil _).symm

lemma Shifting.next (h : w.Shifting z j) (hz : z.size.Built) (hj : j ≤ z.size.bufferDepth + 2) :
    (w.next z c).Shifting z (j + 1) := by
  have hrow := Hub75.rowStart_wait h.frame
  have hm := Hub75.memStart_wait h.frame
  have hl := wait_not_latches h.frame
  have heven := ShiftOut.bufferDepth_even z.size
  have hgoing : w.hub.rowModule.shifting = true := by rw [h.going, decide_eq_true hj]
  have hswaps : w.hub.swaps = false := by
    rw [Hub75.swaps, hgoing, Bool.not_true, Bool.and_false, Bool.false_and]
  have hbank : (w.next z c).hub.shownBank = w.hub.shownBank := next_shownBank hswaps
  have hbit : (w.next z c).bit = w.bit := next_bit_steady hl
  have hfsm : w.hub.fsm ≠ .idle := by
    rw [h.fsm]
    split <;> decide
  refine ⟨Hub75.next_common_busy h.frame hfsm, ?_, by omega, by omega, ?_, ?_, ?_, ?_,
    next_prefetch hz hl hm hswaps h.prefetch⟩
  · change w.hub.nextFsm = _
    have hstate := h.fsm
    have hpos := h.pos
    rw [Hub75.nextFsm, if_neg (show ¬ j + 1 = 1 by omega)]
    by_cases hone : j = 1
    · rw [if_pos hone] at hstate
      rw [hstate]
      exact if_pos hgoing
    · rw [if_neg hone] at hstate
      rw [hstate, hswaps, hgoing]
      simp
  · change (w.hub.rowModule.next z.size w.hub.rowStart).shifting = _
    rw [hrow]
    exact (h.lanes 0).shifting hj hgoing
  · intro o
    rw [hbank, hbit]
    change ShiftOut.At _ _ _ _ _ (w.hub.nextLane z o)
    rw [Hub75.nextLane, hrow]
    exact (h.lanes o).next h.pos hj
  · intro o
    obtain ⟨old, hlength, hregister⟩ := h.registers o
    rw [next_registers hrow, (h.lanes o).sampled h.pos hj, hbank, hbit]
    have hclocks : z.size.bufferDepth = 2 * z.clocks := heven
    by_cases hpair : j % 2 = 0 ∧ 4 ≤ j
    · obtain ⟨t, rfl⟩ : ∃ t, j = 2 * t + 4 := ⟨(j - 4) / 2, by omega⟩
      rw [show (2 * t + 4 - 3) / 2 = t by omega] at hlength hregister
      rw [if_pos hpair, show (2 * t + 4 + 1 - 3) / 2 = t + 1 by omega]
      cases old with
      | nil =>
        simp only [List.length_nil] at hlength
        omega
      | cons p old =>
        refine ⟨old, ?_, ?_⟩
        · rw [List.length_cons] at hlength
          omega
        · have hword (m : ℕ) (hm : m < z.size.bufferDepth) :=
            @ShiftOut.word_eq z.size (w.hub.shownBank o) z.rgbOrder w.bit m hm
          rw [Option.elim_some, hregister, List.cons_append, List.tail_cons, List.range_succ,
            List.map_append, List.map_singleton, List.append_assoc, ShiftOut.pair,
            show 2 * t + 4 - 4 = 2 * t by omega, show 2 * t + 4 - 3 = 2 * t + 1 by omega,
            hword _ (by omega), hword _ (by omega)]
    · rw [if_neg hpair, Option.elim_none, show (j + 1 - 3) / 2 = (j - 3) / 2 by omega]
      exact ⟨old, hlength, hregister⟩
  · rw [hbank, next_pass_steady hl, next_fetches]
    exact h.words.append _

lemma Shifting.standing (h : w.Shifting z j) (hz : z.size.Built)
    (hj : j = z.size.bufferDepth + 3) : (w.next z c).Standing z w.hub.shownBank := by
  have hrow := Hub75.rowStart_wait h.frame
  have hl := wait_not_latches h.frame
  have heven := ShiftOut.bufferDepth_even z.size
  have hgoing : w.hub.rowModule.shifting = false := by
    rw [h.going, decide_eq_false (by omega)]
  refine ⟨?_, ?_, ?_, ?_⟩
  · intro o
    change (w.hub.nextLane z o).Idle
    rw [Hub75.nextLane, hrow]
    exact ((h.lanes o).idle hz hj).1
  · change (w.hub.rowModule.next z.size w.hub.rowStart).shifting = false
    rw [hrow]
    exact ((h.lanes 0).idle hz hj).2.2.trans hgoing
  · intro o
    obtain ⟨old, hlength, hregister⟩ := h.registers o
    have hclocks : z.size.bufferDepth = 2 * z.clocks := heven
    have hfull : (j - 3) / 2 = z.clocks := by omega
    have hnil : old = [] := List.length_eq_zero_iff.mp (by omega)
    rw [next_registers hrow, ((h.lanes o).idle hz hj).2.1, next_bit_steady hl]
    rw [hnil, hfull, List.nil_append] at hregister
    exact hregister
  · rw [next_pass_steady hl, next_fetches]
    exact h.words.append _

lemma leaves (hz : z.size.Built) (hframe : w.hub.common.fsm = .wait) (hfsm : w.hub.fsm = .shiftOut)
    (hgoing : w.hub.rowModule.shifting = false)
    (hstanding : (w.next z c).Standing z w.hub.shownBank)
    (hprefetch : Prefetch z w.pass w.bit w.hub.filling w.fetching w.fetches) :
    (w.next z c).Holding z ∨ (w.next z c).Ready z := by
  have hm := Hub75.memStart_wait hframe
  have hl := wait_not_latches hframe
  have hbit : (w.next z c).bit = w.bit := next_bit_steady hl
  have hpass : (w.next z c).pass = w.pass := next_pass_steady hl
  have hnext : (w.next z c).hub.common.fsm = .wait :=
    Hub75.next_common_busy hframe (by rw [hfsm]; decide)
  have hstate : (w.next z c).hub.fsm = w.hub.nextFsm := rfl
  rw [Hub75.nextFsm, hfsm] at hstate
  by_cases hzero : w.bit = 0
  · cases hdone : w.hub.reader.done with
    | false =>
      have hswaps : w.hub.swaps = false := by
        rw [Hub75.swaps, Hub75.readerDone, hdone, Bool.and_false, Bool.and_false]
      have hwait : (w.hub.swaps || w.hub.common.brightnessBit != 0 && !w.hub.rowModule.shifting) =
          false := by
        rw [hswaps, show w.hub.common.brightnessBit = 0 from hzero]
        rfl
      refine .inl ⟨hnext, ?_, hbit.trans hzero, ?_, next_prefetch hz hl hm hswaps hprefetch⟩
      · simpa only [hwait, Bool.false_eq_true, if_false] using hstate
      · rw [next_shownBank hswaps]
        exact hstanding
    | true =>
      have hswaps : w.hub.swaps = true := by
        rw [Hub75.swaps, Hub75.readerDone, hfsm, hgoing, hm, hdone,
          show w.hub.common.brightnessBit = 0 from hzero]
        rfl
      rw [hzero] at hprefetch
      obtain ⟨hturned, hwords⟩ := hprefetch.turned hz hdone (filled_eq (c := c) hm)
      refine .inr ⟨.inl hnext, ?_, ⟨_, hstanding⟩, .inr ⟨hbit.trans hzero, ?_, ?_⟩⟩
      · simpa only [hswaps, Bool.true_or, if_true] using hstate
      · rw [hpass, next_shownBank_swaps hswaps, next_fetches]
        exact hwords
      · rw [hpass, next_fetches, next_fetching hm]
        exact ⟨hturned.resting, hturned.fetching, hturned.fetches⟩
  · have hswaps : w.hub.swaps = false := by
      have hne : (w.hub.common.brightnessBit == 0) = false := beq_eq_false_iff_ne.mpr hzero
      rw [Hub75.swaps, hne, Bool.and_false, Bool.false_and, Bool.false_and]
    have hleave : (w.hub.swaps || w.hub.common.brightnessBit != 0 && !w.hub.rowModule.shifting) =
        true := by
      have hne : (w.hub.common.brightnessBit != 0) = true := bne_iff_ne.mpr hzero
      rw [hgoing, hne]
      exact Bool.or_true _
    refine .inr ⟨.inl hnext, ?_, ⟨_, hstanding⟩, .inl ⟨hbit.symm ▸ hzero, ?_,
      next_prefetch hz hl hm hswaps hprefetch⟩⟩
    · simpa only [hleave, if_true] using hstate
    · rw [next_shownBank hswaps]
      exact hstanding.words

lemma Holding.next (h : w.Holding z) (hz : z.size.Built) :
    (w.next z c).Holding z ∨ (w.next z c).Ready z :=
  leaves hz h.frame h.fsm h.standing.shifting
    (h.standing.next (wait_not_latches h.frame) (Hub75.rowStart_wait h.frame)) h.prefetch

lemma Ready.next (h : w.Ready z) (hz : z.size.Built) (hl : w.latches = false) :
    (w.next z c).Ready z := by
  have hstart : w.hub.common.startShifting = false := by
    rw [FrameController.startShifting]
    rcases h.frame with hwait | ⟨hlatch, -⟩
    · rw [hwait]
    · rw [hlatch]
      have hopen := mt latches_iff.mpr (Bool.eq_false_iff.mp hl)
      exact beq_eq_false_iff_ne.mpr fun hc => hopen ⟨hlatch, hc⟩
  have hrow : w.hub.rowStart = false := by rw [Hub75.rowStart, hstart, Bool.and_false]
  have hm : w.hub.memStart = false := by rw [Hub75.memStart, hrow, Bool.false_and]
  have hswaps : w.hub.swaps = false := by rw [Hub75.swaps, h.fsm]; rfl
  obtain ⟨words, hstanding⟩ := h.standing
  refine ⟨?_, ?_, ⟨words, hstanding.next hl hrow⟩, ?_⟩
  · change (w.hub.common.next z w.hub.shiftingDone c.enable).fsm = .wait ∨
      (w.hub.common.next z w.hub.shiftingDone c.enable).fsm = .latch ∧
        (w.hub.common.next z w.hub.shiftingDone c.enable).brightnessCounter = 0
    rw [FrameController.next]
    rcases h.frame with hwait | ⟨hlatch, hdark⟩
    · rw [hwait]
      by_cases hgo : (w.hub.common.brightnessCounter == 0 && w.hub.shiftingDone && c.enable) = true
      · have hdark : w.hub.common.brightnessCounter = 0 := by
          rw [Bool.and_assoc, Bool.and_eq_true, beq_iff_eq] at hgo
          exact hgo.1
        simp only [if_pos hgo]
        exact .inr ⟨trivial, by simp [FrameController.count, hdark]⟩
      · simp only [if_neg hgo]
        exact .inl hwait
    · have hopen := mt latches_iff.mpr (Bool.eq_false_iff.mp hl)
      rw [hlatch]
      simp only [if_neg fun hc => hopen ⟨hlatch, hc⟩]
      exact .inr ⟨hlatch, by simp [FrameController.count, hdark]⟩
  · change w.hub.nextFsm = .idle
    rw [Hub75.nextFsm, h.fsm]
    exact if_neg (by rw [hstart]; exact Bool.false_ne_true)
  · rw [next_bit_steady hl, next_pass_steady hl, next_shownBank hswaps]
    rcases h.prepared with ⟨hbit, hwords, hprefetch⟩ | ⟨hbit, hwords, hturned⟩
    · have hnext := next_prefetch (c := c) hz hl hm hswaps hprefetch
      rw [next_bit_steady hl, next_pass_steady hl] at hnext
      refine .inl ⟨hbit, ?_, hnext⟩
      rw [next_fetches]
      exact hwords.append _
    · have hnext := hturned.next hz (filled_eq (c := c) hm)
      refine .inr ⟨hbit, ?_, ?_⟩
      · rw [next_fetches]
        exact hwords.append _
      · rw [next_fetches, next_fetching hm]
        exact ⟨hnext.resting, hnext.fetching, hnext.fetches⟩

lemma Lighting.nextRow (h : w.Lighting z) (hscan : 0 < z.scan) :
    w.hub.nextRow z = (w.pass + 1) % z.scan := by
  rw [Hub75.nextRow, h.row]
  exact next_row hscan

lemma Ready.latch (h : w.Ready z) (hz : z.size.Built) (hscan : 0 < z.scan) (hlight : w.Lighting z)
    (hl : w.latches = true) : (w.next z c).Shifting z 1 := by
  obtain ⟨hlatch, hcounter⟩ := latches_iff.mp hl
  obtain ⟨words, hstanding⟩ := h.standing
  have hdark : w.hub.common.brightnessCounter = 0 := by
    rcases h.frame with hwait | hclosing
    · rw [hwait] at hlatch
      cases hlatch
    · exact hclosing.2
  have hstart : w.hub.common.startShifting = true := by
    rw [FrameController.startShifting, hlatch]
    exact beq_iff_eq.mpr hcounter
  have hrow : w.hub.rowStart = true := by rw [Hub75.rowStart, h.fsm, hstart]; rfl
  have hmem : w.hub.memStart = (w.bit == 7) := by rw [Hub75.memStart, hrow, Bool.true_and]; rfl
  have hlit := hlight.next_latches (c := c) hscan hl hdark
  have hbit := hlight.bit
  have hbit' := hlit.bit
  rw [next_index_latches hl] at hbit'
  have hpass' : (w.next z c).pass = (w.index + 1) / 8 := by rw [pass, next_index_latches hl]
  have hlength : ∀ o, (w.registers o).length = z.clocks := by
    intro o
    rw [hstanding.registers, Hub75Config.planeOf, List.length_map, List.length_range]
  have hframe : (w.next z c).hub.common.fsm = .wait := by
    change (w.hub.common.next z w.hub.shiftingDone c.enable).fsm = .wait
    rw [FrameController.next, hlatch]
    simp only [if_pos hcounter]
    split <;> rfl
  refine begins h.fsm hstart hstanding.lanes hlength hframe ?_ ?_
  · rw [next_fetches]
    rcases h.prepared with ⟨hne, hwords, -⟩ | ⟨hzero, hwords, -⟩
    · rw [hpass', show (w.index + 1) / 8 = w.pass by rw [pass]; omega]
      exact hwords.append _
    · rw [hpass', show (w.index + 1) / 8 = w.pass + 1 by rw [pass]; omega]
      exact hwords.append _
  · rcases h.prepared with ⟨hne, -, hprefetch⟩ | ⟨hzero, -, hturned⟩
    · rw [hpass', show (w.index + 1) / 8 = w.pass by rw [pass]; omega]
      by_cases hseven : w.bit = 7
      · have hm : w.hub.memStart = true := by rw [hmem, hseven]; rfl
        have hfilled : w.hub.filled z c = w.hub.filling.next z.size z.gamma
            { c.settings with row := w.hub.nextRow z } true c.port := by
          rw [Hub75.filled, hm]
        rw [hseven] at hprefetch
        obtain ⟨hnone, hnext⟩ := hprefetch.start hz hfilled
        have hasked : (w.next z c).fetching = some ((w.pass + 1) % z.scan) := by
          change (if w.hub.memStart then some (w.hub.nextRow z) else _) = _
          rw [hm, if_pos rfl, hlight.nextRow hscan]
        rw [hasked, next_fetches, hnone, show (w.next z c).bit = 6 by omega, Prefetch.ends,
          Option.filter_none, Option.toList_none, List.map_nil, List.append_nil]
        exact hnext
      · have hm : w.hub.memStart = false := by rw [hmem]; exact beq_eq_false_iff_ne.mpr hseven
        have hnext := hprefetch.next hz (filled_eq (c := c) hm)
        rw [next_fetches, next_fetching hm]
        rw [show w.bit = (w.next z c).bit + 1 by omega] at hnext
        exact hnext.lower (by omega)
    · have hm : w.hub.memStart = false := by rw [hmem, hzero]; rfl
      have hnext := hturned.next hz (filled_eq (c := c) hm)
      rw [hpass', show (w.index + 1) / 8 = w.pass + 1 by rw [pass]; omega,
        show (w.next z c).bit = 7 by omega, next_fetches, next_fetching hm]
      exact hnext.unasked

lemma reset_index (z : Hub75Config) (memory : Bool → ℕ → ℕ → Pixel) : (z.reset memory).index = 7 :=
  rfl

lemma reset_next (memory : Bool → ℕ → ℕ → Pixel) :
    ((z.reset memory).next z c).Shifting z 1 := by
  have hidle (o : ℕ) : ((z.reset memory).hub.lane o).Idle := ⟨rfl, rfl, rfl⟩
  have hlength (o : ℕ) : ((z.reset memory).registers o).length = z.clocks := List.length_replicate
  have hwaking := RowFetch.waking_reset (z.reset memory).hub.filling rfl
  have hpass : ((z.reset memory).next z c).pass = 0 := by
    rw [next_pass_steady rfl, pass, reset_index]
  refine begins rfl rfl hidle hlength rfl ?_ ?_
  · rw [hpass]
    exact fun htwo => absurd htwo (by decide)
  · exact .waking hpass rfl (hwaking.next c.port)

lemma Phase.next (h : w.Phase z) (hz : z.size.Built) (hscan : 0 < z.scan) (hlight : w.Lighting z) :
    (w.next z c).Phase z := by
  cases h with
  | reset memory h =>
    subst h
    exact .shifting 1 (reset_next memory)
  | shifting j h =>
    rcases Nat.lt_or_ge j (z.size.bufferDepth + 3) with hlt | hge
    · exact .shifting (j + 1) (h.next hz (by omega))
    · have hj : j = z.size.bufferDepth + 3 := Nat.le_antisymm h.le hge
      have hfsm := h.fsm
      rw [if_neg (by omega)] at hfsm
      have hgoing : w.hub.rowModule.shifting = false := by
        rw [h.going, decide_eq_false (by omega)]
      rcases leaves hz h.frame hfsm hgoing (h.standing hz hj) h.prefetch with hhold | hready
      · exact .holding hhold
      · exact .ready hready
  | holding h =>
    rcases h.next hz with hhold | hready
    · exact .holding hhold
    · exact .ready hready
  | ready h =>
    cases hl : w.latches with
    | false => exact .ready (h.next hz hl)
    | true => exact .shifting 1 (h.latch hz hscan hlight hl)

/-- The latch closes on a plane that has been dark since its predecessor. -/
lemma Phase.latching (h : w.Phase z) (hl : w.latches = true) : w.Ready z := by
  obtain ⟨hlatch, -⟩ := latches_iff.mp hl
  cases h with
  | reset memory h =>
    subst h
    cases hlatch
  | shifting j h => exact absurd (h.frame.symm.trans hlatch) (by decide)
  | holding h => exact absurd (h.frame.symm.trans hlatch) (by decide)
  | ready h => exact h

lemma Ready.dark (h : w.Ready z) (hl : w.latches = true) :
    w.hub.common.brightnessCounter = 0 := by
  obtain ⟨hlatch, -⟩ := latches_iff.mp hl
  rcases h.frame with hwait | hclosing
  · exact absurd (hwait.symm.trans hlatch) (by decide)
  · exact hclosing.2

lemma Worded.next_steady (h : w.Worded z) (hl : w.latches = false) : (w.next z c).Worded z := by
  intro k s hs
  have hdata : ∃ s₀, w.shows[k]? = some s₀ ∧ s.data = s₀.data := by
    rw [shows, next_past_steady hl, next_now_steady hl] at hs
    rw [shows]
    split at hs
    · exact ⟨s, hs, rfl⟩
    · rcases Nat.lt_or_ge k w.past.length with hlt | hge
      · rw [List.getElem?_append_left hlt] at hs ⊢
        exact ⟨s, hs, rfl⟩
      · rw [List.getElem?_append_right hge] at hs ⊢
        rw [Option.toList_map, List.getElem?_map] at hs
        obtain ⟨s₀, hs₀, rfl⟩ := Option.map_eq_some_iff.mp hs
        exact ⟨s₀, hs₀, rfl⟩
  obtain ⟨s₀, hs₀, hsame⟩ := hdata
  obtain ⟨words, hwords, hplane⟩ := h k s₀ hs₀
  refine ⟨words, ?_, fun o => hsame ▸ hplane o⟩
  rw [next_fetches]
  exact hwords.append _

lemma Worded.next_latches (h : w.Worded z) (hl : w.latches = true) (hlight : w.Lighting z)
    (hready : w.Ready z) : (w.next z c).Worded z := by
  intro k s hs
  rw [next_shows_latches hl] at hs
  rw [next_fetches]
  rcases Nat.lt_or_ge k w.shows.length with hlt | hge
  · rw [List.getElem?_append_left hlt] at hs
    obtain ⟨words, hwords, hplane⟩ := h k s hs
    exact ⟨words, hwords.append _, hplane⟩
  · rw [List.getElem?_append_right hge] at hs
    obtain ⟨hlt, rfl⟩ := List.getElem?_eq_some_iff.mp hs
    obtain rfl : k = w.shows.length := by
      rw [List.length_singleton] at hlt
      omega
    obtain ⟨words, hstanding⟩ := hready.standing
    refine ⟨words, hstanding.words.append _, ?_⟩
    intro o
    have hbit := hlight.bit
    rw [index] at hbit
    simp only [Nat.sub_self, List.getElem_cons_zero]
    rw [hstanding.registers o, hbit]

/-- The joint invariant. -/
structure Inv (z : Hub75Config) (w : Wall) : Prop where
  lighting : w.Lighting z
  worded : w.Worded z
  phase : w.Phase z

lemma Inv.next (h : w.Inv z) (hz : z.size.Built) (hscan : 0 < z.scan) : (w.next z c).Inv z := by
  cases hl : w.latches with
  | false => exact ⟨h.lighting.next_steady hl, h.worded.next_steady hl, h.phase.next hz hscan h.lighting⟩
  | true =>
    have hready := h.phase.latching hl
    exact ⟨h.lighting.next_latches hscan hl (hready.dark hl),
      h.worded.next_latches hl h.lighting hready, h.phase.next hz hscan h.lighting⟩

lemma inv_reset (z : Hub75Config) (memory : Bool → ℕ → ℕ → Pixel) : (z.reset memory).Inv z where
  lighting := by
    refine ⟨rfl, ?_, ?_, fun _ => ⟨rfl, rfl⟩, fun hs => ?_, fun hs => ?_⟩
    · rw [pass, reset_index]
      exact (Nat.zero_mod _).symm
    · rw [reset_index]
      exact (Nat.zero_mod _).symm
    · cases hs
    · cases hs
  worded k s hs := by cases hs
  phase := .reset memory rfl

lemma Inv.steady (h : w.Inv z) (hscan : 0 < z.scan) {r : ℕ} (hr : w.fetching = some r) :
    w.hub.nextRow z = r := by
  have hprefetch : Prefetch z w.pass w.bit w.hub.filling w.fetching w.fetches := by
    cases h.phase with
    | reset memory h =>
      subst h
      cases hr
    | shifting j h => exact h.prefetch
    | holding h => exact h.prefetch
    | ready h =>
      rcases h.prepared with ⟨-, -, hprefetch⟩ | ⟨-, -, hturned⟩
      · exact hprefetch
      · rw [hturned.fetching] at hr
        cases hr
  rw [hr] at hprefetch
  cases hprefetch
  exact h.lighting.nextRow hscan

lemma Inv.refreshes (h : w.Inv z) (hscan : 0 < z.scan) : w.Refreshes z 7 2 where
  lines {k s} hs := by
    rcases Nat.lt_or_ge k w.past.length with hlt | hge
    · rw [shows, List.getElem?_append_left hlt] at hs
      exact ⟨_, Nat.le_refl _, h.lighting.past hs⟩
    · have hcount := w.shows_eq
      rw [shows, List.getElem?_append_right hge] at hs
      cases hnow : w.now with
      | none =>
        rw [hnow] at hs
        cases hs
      | some s₀ =>
        rw [hnow] at hs hcount
        obtain ⟨hlt, hat⟩ := List.getElem?_eq_some_iff.mp hs
        obtain rfl : k = w.past.length := by
          have hone : k - w.past.length < 1 := hlt
          omega
        simp only [Nat.sub_self, Option.toList_some, List.getElem_cons_zero] at hat
        obtain ⟨hlen, hrows⟩ := h.lighting.lit hnow
        rw [← hcount, show w.past.length + (some s₀).toList.length + 7 - 1 = w.past.length + 7 from rfl]
          at hlen hrows
        subst hat
        exact ⟨_, by omega, hrows⟩
  whole hs := by rw [h.lighting.past hs, List.length_replicate]
  words {k s} hs hlate := by
    obtain ⟨words, hwords, hplane⟩ := h.worded k s hs
    exact ⟨words, hwords hlate, fun o _ => hplane o⟩
  steady hr := h.steady hscan hr

end Wall

end Ledwall.Gateware
