import Ledwall.Gateware.FrameController

/-! What the HUB75 controller shows: the joint invariant of the frame controller, the row controller,
the prefetching reader and the shift-out. -/

namespace Ledwall.Gateware

namespace ShiftOut

variable {z : PanelSize} {buffer buffer' : ℕ → Pixel} {order : BitVec 3} {outputBit outputBit' j : ℕ}
  {s : ShiftOut}

lemma two_le_bufferDepth (hz : z.Built) : 2 ≤ z.bufferDepth := by
  have hcolumns := hz.columns
  have hchain : 0 < 2 ^ z.chainLength2 := Nat.two_pow_pos _
  rw [PanelSize.bufferDepth, Nat.mul_right_comm]
  have hmul := Nat.mul_pos hcolumns hchain
  omega

lemma bufferDepth_even (z : PanelSize) : z.bufferDepth = 2 * (z.columns * 2 ^ z.chainLength2) := by
  rw [PanelSize.bufferDepth]
  ring

lemma Idle.start (h : s.Idle) (hbuffer : buffer' = buffer) :
    At z buffer' order outputBit' 1 (s.next z buffer order outputBit true) := by
  subst hbuffer
  have hone : At z buffer' order outputBit 1 (s.next z buffer' order outputBit true) := h.at_one
  exact ⟨hone.counter, hone.bufferCounter, hone.clk, hone.datR, fun hj => absurd hj (by decide),
    fun hj => absurd hj (by decide), fun _ hj => absurd hj (by decide),
    fun _ hj => absurd hj (by decide), fun hj => absurd hj (by decide)⟩

lemma Idle.sampled_start (h : s.Idle) : s.sampled z buffer order outputBit true = none := by
  have hclk : (s.rowModule.next z true).clk = false := by
    change (if s.rowModule.bufferCounter < 2 then false else _ : Bool) = false
    rw [h.bufferCounter]
    rfl
  rw [ShiftOut.sampled, hclk, Bool.and_false, if_neg Bool.false_ne_true]

lemma rowModule_idle (h : s.Idle) : (s.rowModule.next z false).counter = 0 ∧
    (s.rowModule.next z false).bufferCounter = 0 ∧ (s.rowModule.next z false).clk = false ∧
    (s.rowModule.next z false).shifting = s.rowModule.shifting := by
  simp [RowModule.next, RowModule.counterMax, h.counter, h.bufferCounter]

lemma Idle.next (h : s.Idle) : (s.next z buffer order outputBit false).Idle :=
  ⟨(rowModule_idle h).1, (rowModule_idle h).2.1, (rowModule_idle h).2.2.1⟩

lemma Idle.sampled (h : s.Idle) : s.sampled z buffer order outputBit false = none := by
  rw [ShiftOut.sampled, (rowModule_idle h).2.2.1, Bool.and_false, if_neg Bool.false_ne_true]

lemma At.idle (h : At z buffer order outputBit j s) (hz : z.Built) (hj : j = z.bufferDepth + 3) :
    (s.next z buffer order outputBit false).Idle ∧ s.sampled z buffer order outputBit false = none ∧
      (s.rowModule.next z false).shifting = s.rowModule.shifting := by
  have htwo := two_le_bufferDepth hz
  have heven := bufferDepth_even z
  have hcounter : s.rowModule.counter = 0 := by rw [h.counter, if_neg (by omega)]
  have hbuffer : s.rowModule.bufferCounter = z.bufferDepth + 2 := by rw [h.bufferCounter, hj]; rfl
  have hclk : (s.rowModule.next z false).clk = false := by
    change (if s.rowModule.bufferCounter < 2 then false
      else decide (s.rowModule.bufferCounter % 2 = 1) : Bool) = false
    rw [hbuffer, if_neg (by omega)]
    exact decide_eq_false (by omega)
  refine ⟨⟨?_, hcounter, hclk⟩, ?_, ?_⟩
  · change (s.rowModule.next z false).counter = 0
    simp [RowModule.next, RowModule.counterMax, hcounter]
  · rw [ShiftOut.sampled, hclk, Bool.and_false, if_neg Bool.false_ne_true]
  · simp [RowModule.next, RowModule.counterMax, hcounter]

lemma At.shifting (h : At z buffer order outputBit j s) (hlast : j ≤ z.bufferDepth + 2)
    (hs : s.rowModule.shifting = true) :
    (s.rowModule.next z false).shifting = decide (j + 1 ≤ z.bufferDepth + 2) := by
  change (if s.rowModule.counter = 0 ∧ false = true then true
    else if s.rowModule.counter = RowModule.counterMax z - 1 then false
    else s.rowModule.shifting : Bool) = _
  rw [h.counter, if_pos hlast, if_neg fun hc => Bool.false_ne_true hc.2, hs,
    show RowModule.counterMax z - 1 = z.bufferDepth + 2 from rfl]
  by_cases hend : j = z.bufferDepth + 2
  · rw [if_pos hend]
    exact (decide_eq_false (by omega)).symm
  · rw [if_neg hend]
    exact (decide_eq_true (by omega)).symm

end ShiftOut

namespace RowFetch

variable {z : PanelSize} {gamma : BitVec 8 → BitVec 8} {v : RowSettings} {f : RowFetch}

/-- What is on the write ports is in the buffers. -/
def Settled (f : RowFetch) : Prop :=
  ∀ k, (f.reader.ports k).we = true → f.buffers k (f.reader.ports k).adr = (f.reader.ports k).datW

lemma quiet_port (h : f.reader.gammaDataValid = false) (start : Bool) (p : PortCycle) (k : ℕ) :
    ((f.next z gamma v start p).reader.ports k).adr = (f.reader.ports k).adr ∧
      ((f.next z gamma v start p).reader.ports k).datW = (f.reader.ports k).datW ∧
      (((f.next z gamma v start p).reader.ports k).we = true → (f.reader.ports k).we = true) := by
  rw [next_ports, RamToBufferReader.nextPort, h, if_neg Bool.false_ne_true]
  split
  · exact ⟨rfl, rfl, fun hwe => (Bool.and_eq_true_iff.mp hwe).2⟩
  · exact ⟨rfl, rfl, id⟩

lemma settled_next (h : f.reader.gammaDataValid = false) (start : Bool) (p : PortCycle) :
    (f.next z gamma v start p).Settled := by
  intro k hwe
  obtain ⟨hadr, hdat, hon⟩ := @quiet_port z gamma v f h start p k
  rw [hadr, hdat, next_buffers, if_pos ⟨hon hwe, rfl⟩]

lemma Settled.buffers (h : f.Settled) (start : Bool) (p : PortCycle) :
    (f.next z gamma v start p).buffers = f.buffers := by
  funext k a
  rw [next_buffers]
  split
  · next hwe => rw [← h k hwe.1, hwe.2]
  · rfl

end RowFetch

/-- The words of row pass `pass` are those of its fetch. The first two passes have none. -/
def Fetches (z : Hub75Config) (fetches : List (ℕ × (ℕ → ℕ → Pixel))) (pass : ℕ)
    (words : ℕ → ℕ → Pixel) : Prop :=
  2 ≤ pass → fetches[pass - 2]? = some (pass % z.scan, words)

lemma Fetches.append {z : Hub75Config} {fetches : List (ℕ × (ℕ → ℕ → Pixel))} {pass : ℕ}
    {words : ℕ → ℕ → Pixel} (h : Fetches z fetches pass words)
    (more : List (ℕ × (ℕ → ℕ → Pixel))) : Fetches z (fetches ++ more) pass words := by
  intro hpass
  have hat := h hpass
  obtain ⟨hlt, -⟩ := List.getElem?_eq_some_iff.mp hat
  rw [List.getElem?_append_left hlt, hat]

/-- How far the fetch for the next row is, when plane `bit` of row pass `pass` is to be latched. -/
inductive Prefetch (z : Hub75Config) (pass bit : ℕ) (f : RowFetch) :
    Option ℕ → List (ℕ × (ℕ → ℕ → Pixel)) → Prop
  | waking {e : ℕ} : pass = 0 → bit = 0 → f.Waking e → Prefetch z pass bit f none []
  | unasked {fetches} : bit = 7 → f.Resting z.size → fetches.length + 1 = pass →
      Prefetch z pass bit f none fetches
  | fetching {fetches} : bit < 7 → f.Fetching z.size → fetches.length + 1 = pass →
      Prefetch z pass bit f (some ((pass + 1) % z.scan)) fetches
  | fetched {fetches} : bit < 7 → f.Resting z.size → f.Settled → fetches.length = pass →
      Fetches z fetches (pass + 1) f.buffers → Prefetch z pass bit f none fetches

/-- The next row is there, and the buffers are swapped. -/
structure Turned (z : Hub75Config) (pass : ℕ) (f : RowFetch) (fetching : Option ℕ)
    (fetches : List (ℕ × (ℕ → ℕ → Pixel))) : Prop where
  resting : f.Resting z.size
  fetching : fetching = none
  fetches : fetches.length = pass

namespace Prefetch

variable {z : Hub75Config} {pass bit : ℕ} {f f' : RowFetch} {v : RowSettings} {p : PortCycle}
  {fetching : Option ℕ} {fetches : List (ℕ × (ℕ → ℕ → Pixel))}

lemma congr (h : Prefetch z pass bit f fetching fetches) (hr : f'.reader = f.reader)
    (hb : f'.buffers = f.buffers) : Prefetch z pass bit f' fetching fetches := by
  obtain ⟨reader, buffers, _, _, _⟩ := f
  obtain ⟨reader', buffers', _, _, _⟩ := f'
  obtain rfl : reader' = reader := hr
  obtain rfl : buffers' = buffers := hb
  cases h with
  | waking hpass hbit hw => exact .waking hpass hbit hw
  | unasked hbit hr hl => exact .unasked hbit hr hl
  | fetching hbit hf hl => exact .fetching hbit hf hl
  | fetched hbit hr hs hl hw => exact .fetched hbit hr hs hl hw

/-- The row whose fetch ends with the cycle. -/
def ends (fetching : Option ℕ) (f : RowFetch) : Option ℕ := fetching.filter fun _ => f.reader.done

lemma next (h : Prefetch z pass bit f fetching fetches) (hz : z.size.Built)
    (hf : f' = f.next z.size z.gamma v false p) :
    Prefetch z pass bit f' (if (ends fetching f').isSome then none else fetching)
      (fetches ++ (ends fetching f').toList.map fun r => (r, f'.buffers)) := by
  subst hf
  cases h with
  | waking hpass hbit hw => exact .waking hpass hbit (hw.next p)
  | unasked hbit hr hl =>
    rw [ends, Option.filter_none, Option.toList_none, List.map_nil, List.append_nil]
    exact .unasked hbit (hr.next hz p) hl
  | fetching hbit hf hl =>
    rcases @RowFetch.Fetching.next z.size z.gamma v f hf hz p with hgo | ⟨hvalid, hend⟩
    · rw [ends, Option.filter_some, hgo.done, if_neg Bool.false_ne_true, Option.toList_none,
        List.map_nil, List.append_nil]
      exact .fetching hbit hgo hl
    · have hresting : RowFetch.Resting z.size _ := .inl hend
      rw [ends, Option.filter_some, hresting.done, if_pos rfl]
      refine .fetched hbit hresting (RowFetch.settled_next hvalid false p) ?_ ?_
      · simpa using hl
      · intro hpass
        rw [List.getElem?_append_right (by omega), show pass + 1 - 2 - fetches.length = 0 by omega]
        rfl
  | fetched hbit hr hs hl hw =>
    rw [ends, Option.filter_none, Option.toList_none, List.map_nil, List.append_nil]
    refine .fetched hbit (hr.next hz p) (RowFetch.settled_next hr.gammaDataValid false p) hl ?_
    rw [hs.buffers false p]
    exact hw

lemma start (h : Prefetch z pass 7 f fetching fetches) (hz : z.size.Built)
    (hf : f' = f.next z.size z.gamma v true p) :
    fetching = none ∧ Prefetch z pass 6 f' (some ((pass + 1) % z.scan)) fetches := by
  subst hf
  cases h with
  | unasked hbit hr hl => exact ⟨rfl, .fetching (by decide) (hr.start hz p) hl⟩
  | waking hpass hbit => exact absurd hbit (by decide)
  | fetching hbit => exact absurd hbit (by decide)
  | fetched hbit => exact absurd hbit (by decide)

lemma lower (h : Prefetch z pass (bit + 1) f fetching fetches) (hbit : bit + 1 < 7) :
    Prefetch z pass bit f fetching fetches := by
  cases h with
  | waking hpass hzero => omega
  | unasked hseven => omega
  | fetching _ hf hl => exact .fetching (by omega) hf hl
  | fetched _ hr hs hl hw => exact .fetched (by omega) hr hs hl hw

lemma turned (h : Prefetch z pass 0 f fetching fetches) (hz : z.size.Built)
    (hdone : f.reader.done = true) (hf : f' = f.next z.size z.gamma v false p) :
    Turned z pass f' (if (ends fetching f').isSome then none else fetching)
      (fetches ++ (ends fetching f').toList.map fun r => (r, f'.buffers)) ∧
      Fetches z (fetches ++ (ends fetching f').toList.map fun r => (r, f'.buffers)) (pass + 1)
        f'.buffers := by
  subst hf
  cases h with
  | @waking e hpass _ hw =>
    rw [hw.done, decide_eq_true_iff] at hdone
    have hr : f.Resting z.size := .inr ⟨e, hdone, hw⟩
    exact ⟨⟨hr.next hz p, rfl, hpass.symm⟩, fun htwo => by omega⟩
  | unasked hseven => exact absurd hseven (by decide)
  | fetching _ hf => exact absurd (hf.done.symm.trans hdone) Bool.false_ne_true
  | fetched _ hr hs hl hw =>
    rw [ends, Option.filter_none, Option.toList_none, List.map_nil, List.append_nil, hs.buffers]
    exact ⟨⟨hr.next hz p, rfl, hl⟩, hw⟩

end Prefetch

namespace Turned

variable {z : Hub75Config} {pass : ℕ} {f f' : RowFetch} {v : RowSettings} {p : PortCycle}
  {fetching : Option ℕ} {fetches : List (ℕ × (ℕ → ℕ → Pixel))}

lemma next (h : Turned z pass f fetching fetches) (hz : z.size.Built)
    (hf : f' = f.next z.size z.gamma v false p) :
    Turned z pass f' (if (Prefetch.ends fetching f').isSome then none else fetching)
      (fetches ++ (Prefetch.ends fetching f').toList.map fun r => (r, f'.buffers)) := by
  subst hf
  obtain ⟨hr, rfl, hl⟩ := h
  rw [Prefetch.ends, Option.filter_none, Option.toList_none, List.map_nil, List.append_nil]
  exact ⟨hr.next hz p, rfl, hl⟩

lemma unasked (h : Turned z pass f fetching fetches) : Prefetch z (pass + 1) 7 f fetching fetches := by
  obtain ⟨hr, rfl, hl⟩ := h
  exact .unasked rfl hr (by omega)

end Turned

namespace FrameController

variable {z : Hub75Config} {c : FrameController}

lemma next_steady (h : ¬ (c.fsm = .latch ∧ c.counter = 0)) (shiftingDone enable : Bool) :
    (c.next z shiftingDone enable).brightnessBit = c.brightnessBit ∧
      (c.next z shiftingDone enable).rowActive = c.rowActive ∧
      (c.next z shiftingDone enable).rowShifting = c.rowShifting ∧
      (c.next z shiftingDone enable).brightnessCounter = c.count.brightnessCounter := by
  rw [FrameController.next]
  cases hfsm : c.fsm with
  | rst => exact ⟨rfl, rfl, rfl, rfl⟩
  | wait =>
    dsimp only
    split <;> exact ⟨rfl, rfl, rfl, rfl⟩
  | latch =>
    dsimp only
    rw [if_neg fun hc => h ⟨hfsm, hc⟩]
    exact ⟨rfl, rfl, rfl, rfl⟩

end FrameController

namespace Wall

variable {z : Hub75Config} {w : Wall} {c : HubCycle}

/-- The number of the plane to be latched next, as if the row before the first had begun with its
plane 7. -/
def index (w : Wall) : ℕ := w.shows.length + 7

def pass (w : Wall) : ℕ := w.index / 8

def bit (w : Wall) : ℕ := w.hub.common.brightnessBit

/-- The frame controller's registers, and for how long and where the planes are lit. -/
structure Lighting (z : Hub75Config) (w : Wall) : Prop where
  bit : w.bit = 7 - w.index % 8
  row : w.hub.common.rowShifting = w.pass % z.scan
  active : w.hub.common.rowActive = (w.index - 1) / 8 % z.scan
  dark : w.now = none → w.past = [] ∧ w.hub.common.brightnessCounter = 0
  lit {s : Shown} : w.now = some s →
    s.rows.length + w.hub.common.brightnessCounter =
        2 ^ (7 - (w.index - 1) % 8) * z.brightnessPsc ∧
      s.rows = List.replicate s.rows.length ((w.index - 1) / 8 % z.scan)
  past {k : ℕ} {s : Shown} : w.past[k]? = some s →
    s.rows = List.replicate (2 ^ (7 - (k + 7) % 8) * z.brightnessPsc) ((k + 7) / 8 % z.scan)

lemma latches_iff : w.latches = true ↔ w.hub.common.fsm = .latch ∧ w.hub.common.counter = 0 := by
  rw [latches, FrameController.lat, Bool.and_eq_true, beq_iff_eq, beq_iff_eq]

lemma next_past_steady (h : w.latches = false) : (w.next z c).past = w.past := by
  change (if w.latches then _ else w.past) = w.past
  rw [h, if_neg Bool.false_ne_true]

lemma next_now_steady (h : w.latches = false) : (w.next z c).now =
    if w.hub.common.oe then w.now
    else w.now.map fun s => { s with rows := s.rows ++ [w.hub.common.rowActive] } := by
  change w.nextNow = _
  rw [nextNow, h, if_neg Bool.false_ne_true]

lemma next_index_steady (h : w.latches = false) : (w.next z c).index = w.index := by
  rw [index, index, shows, shows, next_past_steady h, next_now_steady h]
  split
  · rfl
  · cases w.now <;> simp

lemma Lighting.next_steady (h : w.Lighting z) (hl : w.latches = false) :
    (w.next z c).Lighting z := by
  have hsame := FrameController.next_steady
    (fun hc => Bool.false_ne_true (hl.symm.trans (latches_iff.mpr hc))) w.hub.shiftingDone c.enable (z := z)
  have hcommon : (w.next z c).hub.common = w.hub.common.next z w.hub.shiftingDone c.enable := rfl
  have hindex : (w.next z c).index = w.index := next_index_steady hl
  have hpass : (w.next z c).pass = w.pass := by rw [pass, hindex, pass]
  refine ⟨?_, ?_, ?_, ?_, ?_, ?_⟩
  · rw [Wall.bit, hcommon, hsame.1, hindex]
    exact h.bit
  · rw [hcommon, hsame.2.2.1, hpass]
    exact h.row
  · rw [hcommon, hsame.2.1, hindex]
    exact h.active
  · intro hnone
    have hnow : w.now = none := by
      rw [next_now_steady hl] at hnone
      split at hnone
      · exact hnone
      · exact Option.map_eq_none_iff.mp hnone
    obtain ⟨hpast, hdark⟩ := h.dark hnow
    rw [next_past_steady hl, hcommon, hsame.2.2.2, FrameController.count, hdark]
    simp [hpast]
  · intro s hs
    rw [next_now_steady hl] at hs
    rw [hindex, hcommon, hsame.2.2.2, FrameController.count]
    cases hoe : w.hub.common.oe with
    | true =>
      rw [hoe, if_pos rfl] at hs
      have hheld : ¬ (w.hub.common.brightnessCounter ≠ 0 ∧ w.hub.common.counter = 0) := by
        simp only [FrameController.oe, Bool.or_eq_true, beq_iff_eq, bne_iff_ne] at hoe
        omega
      simp only [if_neg hheld]
      exact h.lit hs
    | false =>
      rw [hoe, if_neg Bool.false_ne_true] at hs
      obtain ⟨s₀, hs₀, rfl⟩ := Option.map_eq_some_iff.mp hs
      obtain ⟨hlen, hrows⟩ := h.lit hs₀
      have hlit : w.hub.common.brightnessCounter ≠ 0 ∧ w.hub.common.counter = 0 := by
        simpa [FrameController.oe] using hoe
      simp only [if_pos hlit, List.length_append, List.length_singleton]
      refine ⟨by omega, ?_⟩
      rw [hrows, List.length_replicate, List.replicate_succ', h.active]
  · intro k s hs
    rw [next_past_steady hl] at hs
    exact h.past hs

lemma next_shows_latches (h : w.latches = true) :
    (w.next z c).shows = w.shows ++ [{ data := w.registers }] := by
  change (if w.latches then w.past ++ w.now.toList else w.past) ++ w.nextNow.toList = _
  rw [nextNow, h, if_pos rfl, if_pos rfl]
  rfl

lemma next_index_latches (h : w.latches = true) : (w.next z c).index = w.index + 1 := by
  rw [index, index, next_shows_latches h, List.length_append]
  exact Nat.add_right_comm _ _ _

lemma next_row {n : ℕ} (hscan : 0 < z.scan) :
    (if z.scan - 1 ≤ n % z.scan then 0 else n % z.scan + 1) = (n + 1) % z.scan := by
  have hlt := Nat.mod_lt n hscan
  have hkey : (n + 1) % z.scan = (n % z.scan + 1) % z.scan := (Nat.mod_add_mod n z.scan 1).symm
  rcases Nat.lt_or_ge (n % z.scan) (z.scan - 1) with hmid | hend
  · rw [hkey, if_neg (Nat.not_le.mpr hmid),
      Nat.mod_eq_of_lt (show n % z.scan + 1 < z.scan by omega)]
  · rw [hkey, if_pos hend, show n % z.scan + 1 = z.scan by omega, Nat.mod_self]

lemma shows_eq (w : Wall) : w.past.length + w.now.toList.length + 7 = w.index := by
  rw [index, shows, List.length_append]

lemma Lighting.next_latches (h : w.Lighting z) (hscan : 0 < z.scan) (hl : w.latches = true)
    (hdark : w.hub.common.brightnessCounter = 0) : (w.next z c).Lighting z := by
  obtain ⟨hfsm, hcounter⟩ := latches_iff.mp hl
  have hcommon : (w.next z c).hub.common = w.hub.common.next z w.hub.shiftingDone c.enable := rfl
  have hindex : (w.next z c).index = w.index + 1 := next_index_latches hl
  have hbit := h.bit
  have hlast : ((w.index + 1) - 1) / 8 = w.pass := rfl
  rw [FrameController.next, hfsm] at hcommon
  simp only [if_pos hcounter] at hcommon
  have hbrightness : (w.next z c).hub.common.brightnessCounter = 2 ^ w.bit * z.brightnessPsc := by
    rw [hcommon]
    split <;> rfl
  have hnow : (w.next z c).now = some { data := w.registers } := by
    change w.nextNow = _
    rw [nextNow, hl, if_pos rfl]
  have hpast : (w.next z c).past = w.past ++ w.now.toList := by
    change (if w.latches then _ else _) = _
    rw [hl, if_pos rfl]
  have hcount := w.shows_eq
  refine ⟨?_, ?_, ?_, ?_, ?_, ?_⟩
  · rw [Wall.bit, hcommon, hindex]
    change (if w.bit ≠ 0 then _ else _ : FrameController).brightnessBit = _
    by_cases hzero : w.bit = 0
    · rw [if_neg (not_not_intro hzero)]
      change 7 = _
      omega
    · rw [if_pos hzero]
      change w.bit - 1 = _
      omega
  · rw [pass, hcommon, hindex]
    change (if w.bit ≠ 0 then _ else _ : FrameController).rowShifting = _
    by_cases hzero : w.bit = 0
    · rw [if_neg (not_not_intro hzero)]
      change (if z.scan - 1 ≤ w.hub.common.rowShifting then 0 else w.hub.common.rowShifting + 1) = _
      rw [h.row, next_row hscan, show (w.index + 1) / 8 = w.index / 8 + 1 by omega]
      rfl
    · rw [if_pos hzero]
      change w.hub.common.rowShifting = _
      rw [h.row, show (w.index + 1) / 8 = w.index / 8 by omega]
      rfl
  · rw [hcommon, hindex, hlast]
    change (if w.bit ≠ 0 then _ else _ : FrameController).rowActive = _
    by_cases hzero : w.bit = 0
    · rw [if_neg (not_not_intro hzero)]
      change w.hub.common.rowActive = _
      rw [h.active, pass, show (w.index - 1) / 8 = w.index / 8 by omega]
    · rw [if_pos hzero]
      exact h.row
  · intro hnone
    rw [hnow] at hnone
    cases hnone
  · intro s hs
    rw [hnow, Option.some_inj] at hs
    rw [← hs, hbrightness, hindex, hbit]
    exact ⟨Nat.zero_add _, rfl⟩
  · intro k s hs
    rw [hpast] at hs
    rcases Nat.lt_or_ge k w.past.length with hlt | hge
    · rw [List.getElem?_append_left hlt] at hs
      exact h.past hs
    · rw [List.getElem?_append_right hge] at hs
      cases hnow' : w.now with
      | none =>
        rw [hnow'] at hs
        cases hs
      | some s₀ =>
        rw [hnow'] at hs hcount
        obtain ⟨hlt, rfl⟩ := List.getElem?_eq_some_iff.mp hs
        have hk : k = w.past.length := by
          have hone : k - w.past.length < 1 := hlt
          omega
        obtain ⟨hlen, hrows⟩ := h.lit hnow'
        have hat : w.index - 1 = k + 7 := by
          rw [← hcount, hk]
          rfl
        rw [hdark, Nat.add_zero, hat] at hlen
        subst hk
        simp only [Nat.sub_self, Option.toList_some, List.getElem_cons_zero]
        rw [hrows, hlen, hat]

end Wall

end Ledwall.Gateware
