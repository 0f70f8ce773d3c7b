import Ledwall.Gateware.PlaneOrder
import Ledwall.Library.Fairness

/-! The HUB75 controller goes on: whatever the memory's latency, every plane of every row gets its
turn. -/

namespace Ledwall.Gateware

open Library.Fairness

namespace RowFetch

variable {z : PanelSize} {gamma : BitVec 8 → BitVec 8} {v : RowSettings} {f : RowFetch}

/-- At most `k` open cycles from being done. -/
inductive Owes (z : PanelSize) (k : ℕ) (f : RowFetch) : Prop
  | done (h : f.reader.done = true)
  | waking (e : ℕ) (h : f.Waking e) (hk : 4 ≤ k + e)
  | fetching (g : RowFetch) (before : ℕ → ℕ → Pixel) (i R W : ℕ) (taken : List ℕ)
      (halike : f.reader.Alike g.reader) (hrow : Row z id plain before i R W taken g)
      (hk : work z i R taken g < k)

lemma Owes.next {k : ℕ} (h : f.Owes z k) (hz : z.Built) (p : PortCycle) :
    f.reader.done = true ∨
      ∃ k' ≤ k, (Open p → k' < k) ∧ (f.next z gamma v false p).Owes z k' := by
  cases h with
  | done h => exact .inl h
  | waking e h hk =>
    rcases Nat.lt_or_ge e 3 with hlt | hge
    · exact .inr ⟨k - 1, by omega, fun _ => by omega, .waking (e + 1) (h.next p) (by omega)⟩
    · exact .inl (by rw [h.done, decide_eq_true hge])
  | fetching g before i R W taken halike hrow hk =>
    have halike' := @Alike.next z gamma id v plain f g halike false p
    rcases hrow.work_next hz (p := p) with hdone | hwork
    · exact .inr ⟨0, Nat.zero_le k, fun _ => by omega, .done (halike'.done.trans hdone)⟩
    · by_cases hopen : Open p
      · rw [if_pos hopen] at hwork
        exact .inr ⟨k - 1, Nat.sub_le _ _, fun _ => by omega,
          .fetching _ _ _ _ _ _ halike' (hrow.next hz) (by omega)⟩
      · rw [if_neg hopen] at hwork
        exact .inr ⟨k, Nat.le_refl k, fun h => absurd h hopen,
          .fetching _ _ _ _ _ _ halike' (hrow.next hz) (by omega)⟩

end RowFetch

lemma Prefetch.owes {z : Hub75Config} {pass bit : ℕ} {f : RowFetch} {fetching : Option ℕ}
    {fetches : List (ℕ × (ℕ → ℕ → Pixel))} (h : Prefetch z pass bit f fetching fetches) :
    ∃ k, f.Owes z.size k := by
  cases h with
  | @waking e _ _ hw => exact ⟨4, .waking e hw (by omega)⟩
  | unasked _ hr => exact ⟨0, .done hr.done⟩
  | fetching _ hf =>
    obtain ⟨g, before, i, R, W, taken, halike, hrow, -⟩ := hf
    exact ⟨_, .fetching g before i R W taken halike hrow (Nat.lt_succ_self _)⟩
  | fetched _ hr => exact ⟨0, .done hr.done⟩

namespace Wall

variable {z : Hub75Config} {w : Wall} {c : HubCycle}

/-- At most `k` enabled cycles from the cycle that closes the latch. -/
def Nears (z : Hub75Config) (k : ℕ) (w : Wall) : Prop :=
  w.Ready z ∧ w.latches = false ∧
    match w.hub.common.fsm with
    | .latch => w.hub.common.counter ≤ k
    | _ => w.hub.common.counter + w.hub.common.brightnessCounter + 8 ≤ k

lemma Nears.next {k : ℕ} (h : w.Nears z k) (hz : z.size.Built) :
    (w.next z c).latches = true ∨
      ∃ k' ≤ k, (c.enable = true → k' < k) ∧ (w.next z c).Nears z k' := by
  obtain ⟨hready, hl, hk⟩ := h
  cases hl' : (w.next z c).latches with
  | true => exact .inl rfl
  | false =>
    have hready' := hready.next (c := c) hz hl
    have hcommon : (w.next z c).hub.common = w.hub.common.next z w.hub.shiftingDone c.enable := rfl
    rw [FrameController.next] at hcommon
    refine .inr ?_
    rcases hready.frame with hwait | ⟨hlatch, hdark⟩
    · have hdone : w.hub.shiftingDone = true := by
        rw [Hub75.shiftingDone, hready.fsm, FrameController.startShifting, hwait]
        rfl
      rw [hwait] at hk hcommon
      rw [hdone] at hcommon
      by_cases hgo : (w.hub.common.brightnessCounter == 0 && true && c.enable) = true
      · simp only [if_pos hgo] at hcommon
        refine ⟨7, by dsimp only at hk; omega, fun _ => by dsimp only at hk; omega, hready', hl', ?_⟩
        rw [hcommon]
      · simp only [if_neg hgo] at hcommon
        rw [Bool.and_true, Bool.and_eq_true, beq_iff_eq] at hgo
        dsimp only at hk
        have hcount : (w.next z c).hub.common.counter = w.hub.common.counter - 1 ∧
            (w.next z c).hub.common.brightnessCounter =
              if w.hub.common.brightnessCounter ≠ 0 ∧ w.hub.common.counter = 0
              then w.hub.common.brightnessCounter - 1 else w.hub.common.brightnessCounter := by
          rw [hcommon]
          exact ⟨rfl, rfl⟩
        refine ⟨(w.next z c).hub.common.counter + (w.next z c).hub.common.brightnessCounter + 8, ?_, ?_,
          hready', hl', ?_⟩
        · rw [hcount.1, hcount.2]
          split <;> omega
        · intro henable
          have hlit : w.hub.common.brightnessCounter ≠ 0 := fun hc => hgo ⟨hc, henable⟩
          rw [hcount.1, hcount.2]
          split <;> omega
        · rw [show (w.next z c).hub.common.fsm = .wait by rw [hcommon]; exact hwait]
    · have hopen : w.hub.common.counter ≠ 0 := by
        intro hc
        exact Bool.false_ne_true (hl.symm.trans (latches_iff.mpr ⟨hlatch, hc⟩))
      rw [hlatch] at hk hcommon
      simp only [if_neg hopen] at hcommon
      dsimp only at hk
      refine ⟨w.hub.common.counter - 1, by omega, fun _ => by omega, hready', hl', ?_⟩
      rw [hcommon, show w.hub.common.count.fsm = .latch from hlatch]
      exact Nat.le_refl _

variable (z) in
/-- The wall at a time of an unending run from reset. -/
def stateAt (memory : Bool → ℕ → ℕ → Pixel) (cycles : ℕ → HubCycle) (t : ℕ) : Wall :=
  along (Wall.next z) (z.reset memory) cycles t

variable {memory : Bool → ℕ → ℕ → Pixel} {cycles : ℕ → HubCycle} {t : ℕ}

lemma stateAt_inv (hz : z.size.Built) (hscan : 0 < z.scan) (t : ℕ) :
    (stateAt z memory cycles t).Inv z := by
  induction t with
  | zero => exact inv_reset z memory
  | succ t ih => exact ih.next hz hscan

lemma eventually_out (hz : z.size.Built) {j : ℕ} (h : (stateAt z memory cycles t).Shifting z j) :
    ∃ u ≥ t, (stateAt z memory cycles u).Holding z ∨ (stateAt z memory cycles u).Ready z := by
  generalize hn : z.size.bufferDepth + 3 - j = n
  induction n generalizing t j with
  | zero =>
    have hj : j = z.size.bufferDepth + 3 := Nat.le_antisymm h.le (by omega)
    have hfsm := h.fsm
    rw [if_neg (by omega)] at hfsm
    have hgoing : (stateAt z memory cycles t).hub.rowModule.shifting = false := by
      rw [h.going, decide_eq_false (by omega)]
    exact ⟨t + 1, Nat.le_succ t, leaves hz h.frame hfsm hgoing (h.standing hz hj) h.prefetch⟩
  | succ n ih =>
    have hnext : (stateAt z memory cycles (t + 1)).Shifting z (j + 1) := h.next hz (by omega)
    obtain ⟨u, hu, hout⟩ := ih hnext (by omega)
    exact ⟨u, by omega, hout⟩

lemma eventually_ready (hz : z.size.Built)
    (hopen : Infinitely (fun c : HubCycle => RowFetch.Open c.port) cycles)
    (h : (stateAt z memory cycles t).Holding z) :
    ∃ u ≥ t, (stateAt z memory cycles u).Ready z := by
  obtain ⟨k, hk⟩ := h.prefetch.owes
  refine eventually_of_variant
    (P := fun k (w : Wall) => w.Holding z ∧ w.hub.filling.Owes z.size k)
    (Q := fun w : Wall => w.Ready z) (C := fun _ _ => True) hopen (fun _ => trivial) ?_ ⟨h, hk⟩
  intro k w c ⟨hholding, howes⟩ _
  rcases hholding.next (c := c) hz with hnext | hready
  · have hm := Hub75.memStart_wait hholding.frame
    rcases @RowFetch.Owes.next z.size z.gamma { c.settings with row := w.hub.nextRow z } _ _ howes hz
      c.port with hdone | ⟨k', hk', hlower, howes'⟩
    · have hswaps : w.hub.swaps = true := by
        rw [Hub75.swaps, Hub75.readerDone, hholding.fsm, hholding.standing.shifting, hm,
          show w.hub.reader.done = true from hdone,
          show w.hub.common.brightnessBit = 0 from hholding.bit]
        rfl
      have hfsm : (w.next z c).hub.fsm = .idle := by
        change w.hub.nextFsm = .idle
        rw [Hub75.nextFsm, hholding.fsm]
        simp [hswaps]
      rw [hnext.fsm] at hfsm
      cases hfsm
    · rw [← filled_eq hm] at howes'
      refine .inr ⟨k', hk', hlower, hnext, ?_⟩
      cases howes' with
      | done h => exact .done h
      | waking e h hk => exact .waking e h hk
      | fetching g before i R W taken halike hrow hk =>
        exact .fetching g before i R W taken halike hrow hk
  · exact .inl hready

lemma eventually_latches (hz : z.size.Built)
    (henable : Infinitely (fun c : HubCycle => c.enable = true) cycles)
    (h : (stateAt z memory cycles t).Ready z) :
    ∃ u ≥ t, (stateAt z memory cycles u).latches = true := by
  cases hl : (stateAt z memory cycles t).latches with
  | true => exact ⟨t, Nat.le_refl t, hl⟩
  | false =>
    have hk : (stateAt z memory cycles t).Nears z ((stateAt z memory cycles t).hub.common.counter +
        (stateAt z memory cycles t).hub.common.brightnessCounter + 8) := by
      refine ⟨h, hl, ?_⟩
      split
      · omega
      · exact Nat.le_refl _
    refine eventually_of_variant (P := Nears z) (Q := fun w : Wall => w.latches = true)
      (C := fun _ _ => True) henable (fun _ => trivial) ?_ hk
    intro k w c hnears _
    exact hnears.next hz

lemma latches_again (hz : z.size.Built) (hscan : 0 < z.scan)
    (henable : Infinitely (fun c : HubCycle => c.enable = true) cycles)
    (hopen : Infinitely (fun c : HubCycle => RowFetch.Open c.port) cycles) (t : ℕ) :
    ∃ u ≥ t, (stateAt z memory cycles u).latches = true := by
  have hready : ∃ u ≥ t, (stateAt z memory cycles u).Ready z := by
    have hout : ∃ u ≥ t, (stateAt z memory cycles u).Holding z ∨
        (stateAt z memory cycles u).Ready z := by
      cases (@stateAt_inv z memory cycles hz hscan t).phase with
      | reset memory' hreset =>
        have hnext : (stateAt z memory cycles (t + 1)).Shifting z 1 := by
          change ((stateAt z memory cycles t).next z (cycles t)).Shifting z 1
          rw [hreset]
          exact reset_next memory'
        obtain ⟨u, hu, hout⟩ := eventually_out hz hnext
        exact ⟨u, by omega, hout⟩
      | shifting j h => exact eventually_out hz h
      | holding h => exact ⟨t, Nat.le_refl t, .inl h⟩
      | ready h => exact ⟨t, Nat.le_refl t, .inr h⟩
    obtain ⟨u, hu, hholding | hready⟩ := hout
    · obtain ⟨v, hv, hready⟩ := eventually_ready hz hopen hholding
      exact ⟨v, by omega, hready⟩
    · exact ⟨u, hu, hready⟩
  obtain ⟨u, hu, hready⟩ := hready
  obtain ⟨v, hv, hlatches⟩ := eventually_latches hz henable hready
  exact ⟨v, by omega, hlatches⟩

lemma shows_mono {u : ℕ} (h : t ≤ u) :
    (stateAt z memory cycles t).shows.length ≤ (stateAt z memory cycles u).shows.length := by
  induction u, h using Nat.le_induction with
  | base => exact Nat.le_refl _
  | succ u _ ih =>
    have hindex : (stateAt z memory cycles u).index ≤ (stateAt z memory cycles (u + 1)).index := by
      cases hl : (stateAt z memory cycles u).latches with
      | true => exact (Nat.le_succ _).trans (next_index_latches hl).ge
      | false => exact (next_index_steady hl).ge
    rw [index, index] at hindex
    omega

lemma eventually_shows (hz : z.size.Built) (hscan : 0 < z.scan)
    (henable : Infinitely (fun c : HubCycle => c.enable = true) cycles)
    (hopen : Infinitely (fun c : HubCycle => RowFetch.Open c.port) cycles) (n : ℕ) :
    ∃ t, n ≤ (stateAt z memory cycles t).shows.length := by
  induction n with
  | zero => exact ⟨0, Nat.zero_le _⟩
  | succ n ih =>
    obtain ⟨t, ht⟩ := ih
    obtain ⟨u, hu, hl⟩ := @latches_again z memory cycles hz hscan henable hopen t
    have hindex : (stateAt z memory cycles (u + 1)).index = (stateAt z memory cycles u).index + 1 :=
      next_index_latches hl
    have hmono := @shows_mono z memory cycles t u hu
    rw [index, index] at hindex
    exact ⟨u + 1, by omega⟩

lemma eventually_past (hz : z.size.Built) (hscan : 0 < z.scan)
    (henable : Infinitely (fun c : HubCycle => c.enable = true) cycles)
    (hopen : Infinitely (fun c : HubCycle => RowFetch.Open c.port) cycles) (n : ℕ) :
    ∃ t, n ≤ (stateAt z memory cycles t).past.length := by
  obtain ⟨t, ht⟩ := @eventually_shows z memory cycles hz hscan henable hopen (n + 1)
  have hcount := (stateAt z memory cycles t).shows_eq
  have hone : (stateAt z memory cycles t).now.toList.length ≤ 1 := by
    cases (stateAt z memory cycles t).now <;> simp
  rw [index] at hcount
  exact ⟨t, by omega⟩

end Wall

/-- Whatever the read port's pace and the settings, from reset on the planes 7 down to 0 of the rows
follow each other, each for its time on its row's lines. All that is missing is the first seven planes
of row 0; and from the row after the next on, what is latched is the words fetched for the row. With
an output that is enabled and a port that is open again and again, it goes on for ever. -/
theorem Hub75Config.refreshes_in_turn (z : Hub75Config) (hz : z.size.Built) (hscan : 0 < z.scan)
    (memory : Bool → ℕ → ℕ → Pixel) (cycles : ℕ → HubCycle) :
    (∀ t, (Wall.stateAt z memory cycles t).Refreshes z 7 2) ∧
      (Infinitely (fun c : HubCycle => c.enable = true) cycles →
        Infinitely (fun c : HubCycle => RowFetch.Open c.port) cycles →
          ∀ n, ∃ t, n ≤ (Wall.stateAt z memory cycles t).past.length) := by
  constructor
  · intro t
    exact (Wall.stateAt_inv hz hscan t).refreshes hscan
  · intro henable hopen n
    exact Wall.eventually_past hz hscan henable hopen n

/-- One connector with a panel of 64 columns and 32 row addresses. -/
def onePanel : Hub75Config := ⟨⟨64, 32, 0, 1⟩, 32, 16, id, 0⟩

/-- An output that is on, and a memory that takes and gives in every cycle. -/
def steady (_ : ℕ) : HubCycle := ⟨true, RowFetch.plain, ⟨true, true⟩⟩

theorem refreshes_in_turn_onePanel :
    (∀ t, (Wall.stateAt onePanel (fun _ _ _ => {}) steady t).Refreshes onePanel 7 2) ∧
      (Infinitely (fun c : HubCycle => c.enable = true) steady →
        Infinitely (fun c : HubCycle => RowFetch.Open c.port) steady →
          ∀ n, ∃ t, n ≤ (Wall.stateAt onePanel (fun _ _ _ => {}) steady t).past.length) :=
  onePanel.refreshes_in_turn ⟨by decide, by decide⟩ (by decide) _ _

/-- The first plane after reset is row 0's plane 0, where a refresh is to begin with its plane 7. -/
theorem first_refresh_short :
    ¬ (Wall.stateAt onePanel (fun _ _ _ => {}) steady 340).Refreshes onePanel 0 0 := by
  intro h
  have hpast : ((Wall.stateAt onePanel (fun _ _ _ => {}) steady 340).past.map
      fun s => s.rows.length)[0]? = some 16 := by decide +kernel
  rw [List.getElem?_map] at hpast
  obtain ⟨s, hs, hlength⟩ := Option.map_eq_some_iff.mp hpast
  have hwhole := h.whole hs
  rw [hlength] at hwhole
  exact absurd hwhole (by decide)

end Ledwall.Gateware
