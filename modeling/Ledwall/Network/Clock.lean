import Ledwall.Library.Runs

/-! The millisecond clock: seconds counted from the timer's event, and the countdown read between
them. -/

namespace Ledwall.Network

open Ledwall.Library.Runs

/-- The SoC's timer as the firmware uses it, with one clock cycle of it. -/
structure Timer (T : Type) where
  start : ℕ → T
  tick : T → T
  evPending : T → Bool
  clear : T → T
  updateValue : T → T
  value : T → ℕ

/-- A free-running countdown: at 0 it reloads and sets its event. A start sets load and reload. -/
structure Countdown {T : Type} (timer : Timer T) where
  count : T → ℕ
  reload : T → ℕ
  count_start : ∀ n, count (timer.start n) = n
  reload_start : ∀ n, reload (timer.start n) = n
  count_tick : ∀ t, count (timer.tick t) = if count t = 0 then reload t else count t - 1
  reload_tick : ∀ t, reload (timer.tick t) = reload t
  pending_tick : ∀ t, timer.evPending (timer.tick t) = (timer.evPending t || count t == 0)
  value_tick : ∀ t, timer.value (timer.tick t) = timer.value t
  count_clear : ∀ t, count (timer.clear t) = count t
  reload_clear : ∀ t, reload (timer.clear t) = reload t
  pending_clear : ∀ t, timer.evPending (timer.clear t) = false
  count_update : ∀ t, count (timer.updateValue t) = count t
  reload_update : ∀ t, reload (timer.updateValue t) = reload t
  pending_update : ∀ t, timer.evPending (timer.updateValue t) = timer.evPending t
  value_update : ∀ t, timer.value (timer.updateValue t) = count t

/-- The register access `update_time_from_timer` makes next. -/
inductive Phase
  | idle
  | recheck
  | clear
  | latch
  | read
  deriving DecidableEq

/-- `times` is every value of `TIME_MS`, the newest first. `cycles` counts the clock from the setup
on and `since` from the start of the last call; the code reads neither. -/
structure Clock (T : Type) where
  timer : T
  phase : Phase
  seconds : ℕ
  times : List ℕ
  cycles : ℕ
  since : ℕ
  deriving DecidableEq

inductive Event
  | cycle
  | access

namespace Clock

variable {T : Type} (timer : Timer T) (hz : ℕ)

/-- The timer as `main` leaves it. -/
def setup : Clock T := ⟨timer.clear (timer.start (hz - 1)), .idle, 0, [0], 0, 0⟩

/-- `TIMER_SECONDS * 1000 + elapsed_in_period` -/
def reading (s : Clock T) : ℕ :=
  s.seconds * 1000 + (hz - 1 - timer.value s.timer) / (hz / 1000)

def check (s : Clock T) : Clock T :=
  { s with phase := if timer.evPending s.timer then .clear else .latch }

/-- One access of `update_time_from_timer`. -/
def access (s : Clock T) : Clock T :=
  match s.phase with
  | .idle => { s with since := 0 }.check timer
  | .recheck => s.check timer
  | .clear => { s with timer := timer.clear s.timer, seconds := s.seconds + 1, phase := .recheck }
  | .latch => { s with timer := timer.updateValue s.timer, phase := .read }
  | .read => { s with times := s.reading timer hz :: s.times, phase := .idle }

def step (s : Clock T) : Event → Clock T
  | .cycle => { s with timer := timer.tick s.timer, cycles := s.cycles + 1, since := s.since + 1 }
  | .access => s.access timer hz

/-- A call starts at most one period after the call before, which is over by then. -/
def Paced (s : Clock T) : Event → Prop
  | .cycle => s.since < hz
  | .access => True

/-- No wrap falls between a check of the event and the access behind it. -/
def Undisturbed (s : Clock T) : Event → Prop
  | .cycle => s.phase = .clear ∨ s.phase = .latch → (s.cycles + 1) % hz ≠ 0
  | .access => True

instance (s : Clock T) (e : Event) : Decidable (Paced hz s e) := by
  cases e <;> unfold Paced <;> infer_instance

instance (s : Clock T) (e : Event) : Decidable (Undisturbed hz s e) := by
  cases e <;> unfold Undisturbed <;> infer_instance

end Clock

/-- The clock that a count of cycles stands for. -/
def msAt (hz cycles : ℕ) : ℕ := cycles / hz * 1000 + cycles % hz / (hz / 1000)

section Periods

variable {hz c : ℕ}

lemma succ_of_wrap (h : (c + 1) % hz = 0) (hpos : 0 < hz) :
    c % hz = hz - 1 ∧ (c + 1) / hz = c / hz + 1 := by
  have hdvd := Nat.dvd_of_mod_eq_zero h
  have hdiv := Nat.succ_div_of_dvd hdvd
  have hsplit := Nat.div_add_mod c hz
  have hsplit' := Nat.div_add_mod (c + 1) hz
  rw [hdiv, h, Nat.mul_add, Nat.mul_one] at hsplit'
  omega

lemma succ_of_not_wrap (h : (c + 1) % hz ≠ 0) :
    (c + 1) % hz = c % hz + 1 ∧ (c + 1) / hz = c / hz := by
  have hdvd : ¬ hz ∣ c + 1 := fun hd => h (Nat.mod_eq_zero_of_dvd hd)
  have hdiv := Nat.succ_div_of_not_dvd hdvd
  have hsplit := Nat.div_add_mod c hz
  have hsplit' := Nat.div_add_mod (c + 1) hz
  rw [hdiv] at hsplit'
  exact ⟨by omega, hdiv⟩

lemma msAt_le_succ (hhz : 1000000 ≤ hz) (c : ℕ) : msAt hz c ≤ msAt hz (c + 1) := by
  by_cases h : (c + 1) % hz = 0
  · obtain ⟨hlast, hnext⟩ := succ_of_wrap h (by omega)
    have hfull : (hz - 1) / (hz / 1000) ≤ 1000 := by
      apply Nat.le_of_lt_succ
      apply (Nat.div_lt_iff_lt_mul (by omega)).mpr
      omega
    rw [msAt, msAt, hlast, hnext, h, Nat.zero_div]
    omega
  · obtain ⟨hnext, hsame⟩ := succ_of_not_wrap h
    rw [msAt, msAt, hnext, hsame]
    exact Nat.add_le_add_left (Nat.div_le_div_right (Nat.le_succ _)) _

end Periods

namespace Clock

variable {T : Type} {timer : Timer T} {hz : ℕ} {s : Clock T} (law : Countdown timer)

structure Inv (hz : ℕ) (s : Clock T) : Prop where
  reload : law.reload s.timer = hz - 1
  count : law.count s.timer = hz - 1 - s.cycles % hz
  counted : s.seconds + (timer.evPending s.timer).toNat = s.cycles / hz
  clearing : s.phase = .clear → timer.evPending s.timer = true
  latching : s.phase = .latch → timer.evPending s.timer = false
  /-- An event that is not being cleared came after the call's start. -/
  recent : s.phase ≠ .clear → timer.evPending s.timer = true → s.cycles % hz < s.since
  shown : ∀ m ∈ s.times, m ≤ msAt hz s.cycles
  read : s.phase = .read →
    (∀ m ∈ s.times, m ≤ s.reading timer hz) ∧ s.reading timer hz ≤ msAt hz s.cycles
  sorted : s.times.Pairwise (· ≥ ·)

variable {law}

lemma inv_setup : Inv law hz (setup timer hz) where
  reload := (law.reload_clear _).trans (law.reload_start _)
  count := by
    rw [setup, law.count_clear, law.count_start, Nat.zero_mod, Nat.sub_zero]
  counted := by
    rw [setup, law.pending_clear]
    simp
  clearing h := by cases h
  latching h := by cases h
  recent _ h := by
    rw [setup, law.pending_clear] at h
    cases h
  shown m hm := by
    rw [List.mem_singleton.mp hm]
    exact Nat.zero_le _
  read h := by cases h
  sorted := List.pairwise_singleton _ _

lemma Inv.cycle (h : Inv law hz s) (hhz : 1000000 ≤ hz) (hpaced : Paced hz s .cycle)
    (hquiet : Undisturbed hz s .cycle) : Inv law hz (step timer hz s .cycle) := by
  have hms := msAt_le_succ hhz s.cycles
  have hshown : ∀ m ∈ s.times, m ≤ msAt hz (s.cycles + 1) := fun m hm => (h.shown m hm).trans hms
  have hread : s.phase = .read → (∀ m ∈ s.times, m ≤ (step timer hz s .cycle).reading timer hz) ∧
      (step timer hz s .cycle).reading timer hz ≤ msAt hz (s.cycles + 1) := by
    intro hp
    have hvalue : (step timer hz s .cycle).reading timer hz = s.reading timer hz := by
      rw [step, reading, reading, law.value_tick]
    rw [hvalue]
    exact ⟨(h.read hp).1, (h.read hp).2.trans hms⟩
  have hmod : s.cycles % hz < hz := Nat.mod_lt _ (by omega)
  by_cases hwrap : (s.cycles + 1) % hz = 0
  · obtain ⟨hlast, hnext⟩ := succ_of_wrap hwrap (by omega)
    have hzero : law.count s.timer = 0 := by
      rw [h.count, hlast, Nat.sub_self]
    have hphase : ¬ (s.phase = .clear ∨ s.phase = .latch) := fun hp => hquiet hp hwrap
    -- the event before this one came with the wrap a whole period ago
    have hidle : timer.evPending s.timer = false := by
      cases hp : timer.evPending s.timer with
      | false => rfl
      | true =>
        have hrecent := h.recent (fun hc => hphase (Or.inl hc)) hp
        have hsince : s.since < hz := hpaced
        omega
    have hpending : timer.evPending (timer.tick s.timer) = true := by
      rw [law.pending_tick, hzero]
      simp
    have hcounted := h.counted
    rw [hidle] at hcounted
    refine ⟨(law.reload_tick _).trans h.reload, ?_, ?_, ?_, ?_, ?_, hshown, hread, h.sorted⟩
    · change law.count (timer.tick s.timer) = hz - 1 - (s.cycles + 1) % hz
      rw [law.count_tick, if_pos hzero, h.reload, hwrap, Nat.sub_zero]
    · change s.seconds + (timer.evPending (timer.tick s.timer)).toNat = (s.cycles + 1) / hz
      rw [hpending, hnext, ← hcounted]
      rfl
    · exact fun hp => absurd (Or.inl hp) hphase
    · exact fun hp => absurd (Or.inr hp) hphase
    · intro _ _
      change (s.cycles + 1) % hz < s.since + 1
      omega
  · obtain ⟨hnext, hsame⟩ := succ_of_not_wrap hwrap
    have hmod' : (s.cycles + 1) % hz < hz := Nat.mod_lt _ (by omega)
    have hcount : law.count s.timer ≠ 0 := by
      rw [h.count]
      omega
    have hpending : timer.evPending (timer.tick s.timer) = timer.evPending s.timer := by
      rw [law.pending_tick]
      simp [hcount]
    refine ⟨(law.reload_tick _).trans h.reload, ?_, ?_, ?_, ?_, ?_, hshown, hread, h.sorted⟩
    · change law.count (timer.tick s.timer) = hz - 1 - (s.cycles + 1) % hz
      rw [law.count_tick, if_neg hcount, h.count, hnext]
      omega
    · change s.seconds + (timer.evPending (timer.tick s.timer)).toNat = (s.cycles + 1) / hz
      rw [hpending, hsame]
      exact h.counted
    · exact fun hp => hpending.trans (h.clearing hp)
    · exact fun hp => hpending.trans (h.latching hp)
    · intro hp hpend
      have hrecent := h.recent hp (hpending.symm.trans hpend)
      change (s.cycles + 1) % hz < s.since + 1
      omega

lemma Inv.check (h : Inv law hz s) (n : ℕ) : Inv law hz ({ s with since := n }.check timer) := by
  have hphase : ({ s with since := n }.check timer).phase =
      if timer.evPending s.timer then .clear else .latch := rfl
  refine ⟨h.reload, h.count, h.counted, ?_, ?_, ?_, h.shown, ?_, h.sorted⟩
  · intro hp
    rw [hphase] at hp
    cases hpend : timer.evPending s.timer with
    | true => exact hpend
    | false => simp [hpend] at hp
  · intro hp
    rw [hphase] at hp
    cases hpend : timer.evPending s.timer with
    | true => simp [hpend] at hp
    | false => exact hpend
  · intro hp hpend
    exact absurd (hphase.trans (if_pos hpend)) hp
  · intro hp
    rw [hphase] at hp
    split at hp <;> cases hp

lemma Inv.access (h : Inv law hz s) (hpos : 0 < hz) : Inv law hz (s.access timer hz) := by
  rw [Clock.access]
  cases hphase : s.phase with
  | idle => exact h.check 0
  | recheck => exact h.check s.since
  | clear =>
    have hcounted := h.counted
    rw [h.clearing hphase] at hcounted
    have hcleared : timer.evPending (timer.clear s.timer) = false := law.pending_clear _
    refine ⟨(law.reload_clear _).trans h.reload, (law.count_clear _).trans h.count, ?_, ?_, ?_, ?_,
      h.shown, ?_, h.sorted⟩
    · simpa [hcleared] using hcounted
    · exact fun hp => by cases hp
    · exact fun hp => by cases hp
    · exact fun _ hp => by simp [hcleared] at hp
    · exact fun hp => by cases hp
  | latch =>
    have hquiet := h.latching hphase
    have hcounted := h.counted
    rw [hquiet, Bool.toNat_false, Nat.add_zero] at hcounted
    have hmod : s.cycles % hz < hz := Nat.mod_lt _ hpos
    have hreading : reading timer hz { s with timer := timer.updateValue s.timer, phase := .read } =
        msAt hz s.cycles := by
      have helapsed : hz - 1 - (hz - 1 - s.cycles % hz) = s.cycles % hz := by omega
      rw [reading, law.value_update, h.count, helapsed, hcounted, msAt]
    refine ⟨(law.reload_update _).trans h.reload, (law.count_update _).trans h.count, ?_, ?_, ?_, ?_,
      h.shown, ?_, h.sorted⟩
    · exact (congrArg (s.seconds + ·.toNat) (law.pending_update _)).trans h.counted
    · exact fun hp => by cases hp
    · exact fun hp => by cases hp
    · exact fun _ hp => by simp [law.pending_update, hquiet] at hp
    · intro _
      rw [hreading]
      exact ⟨h.shown, le_refl _⟩
  | read =>
    obtain ⟨hold, hnew⟩ := h.read hphase
    refine ⟨h.reload, h.count, h.counted, ?_, ?_, ?_, ?_, ?_, List.pairwise_cons.mpr ⟨hold, h.sorted⟩⟩
    · exact fun hp => by cases hp
    · exact fun hp => by cases hp
    · exact fun _ => h.recent (by rw [hphase]; exact fun hp => by cases hp)
    · intro m hm
      rcases List.mem_cons.mp hm with rfl | hm
      · exact hnew
      · exact h.shown m hm
    · exact fun hp => by cases hp

/-- Along every run whose calls are at most a period apart and that no wrap falls into between a
check and the access behind it, the clock never goes back and each second is counted once: the ones
counted and the one still pending are the periods gone by. -/
theorem clock_steady (timer : Timer T) (law : Countdown timer) (hz : ℕ) (hhz : 1000000 ≤ hz)
    (es : List Event)
    (hpaced : Always (fun s e t => t = step timer hz s e) (Paced hz) (setup timer hz) es)
    (hquiet : Always (fun s e t => t = step timer hz s e) (Undisturbed hz) (setup timer hz) es) :
    let s := es.foldl (step timer hz) (setup timer hz)
    s.times.Pairwise (· ≥ ·) ∧ s.seconds + (timer.evPending s.timer).toNat = s.cycles / hz := by
  have hinv : Inv law hz (es.foldl (step timer hz) (setup timer hz)) := by
    apply Run.invariant _ (run_foldl (step timer hz) (setup timer hz) es) inv_setup
      (hpaced.and hquiet)
    rintro s e t hs ⟨hpace, hstill⟩ rfl
    cases e with
    | cycle => exact hs.cycle hhz hpace hstill
    | access => exact hs.access (by omega)
  exact ⟨hinv.sorted, hinv.counted⟩

/-- A countdown, with its latched value last. -/
structure Registers where
  count : ℕ
  reload : ℕ
  pending : Bool
  latched : ℕ
  deriving DecidableEq

def simple : Timer Registers where
  start n := ⟨n, n, false, 0⟩
  tick t :=
    { t with
      count := if t.count = 0 then t.reload else t.count - 1
      pending := t.pending || t.count == 0 }
  evPending := Registers.pending
  clear t := { t with pending := false }
  updateValue t := { t with latched := t.count }
  value := Registers.latched

def simpleCountdown : Countdown simple where
  count := Registers.count
  reload := Registers.reload
  count_start _ := rfl
  reload_start _ := rfl
  count_tick _ := rfl
  reload_tick _ := rfl
  pending_tick _ := rfl
  value_tick _ := rfl
  count_clear _ := rfl
  reload_clear _ := rfl
  pending_clear _ := rfl
  count_update _ := rfl
  reload_update _ := rfl
  pending_update _ := rfl
  value_update _ := rfl

theorem clock_steady_short :
    let s := [Event.cycle, .access, .cycle, .access].foldl (step simple 1000000)
      (setup simple 1000000)
    s.times.Pairwise (· ≥ ·) ∧ s.seconds + (simple.evPending s.timer).toNat = s.cycles / 1000000 :=
  clock_steady simple simpleCountdown 1000000 (le_refl _) [.cycle, .access, .cycle, .access]
    (by decide +kernel) (by decide +kernel)

lemma foldl_cycles (hz : ℕ) {n : ℕ} {s : Clock Registers} (h : n ≤ s.timer.count) :
    (List.replicate n Event.cycle).foldl (step simple hz) s =
      { s with
        timer := { s.timer with count := s.timer.count - n }
        cycles := s.cycles + n
        since := s.since + n } := by
  induction n generalizing s with
  | zero => rfl
  | succ n ih =>
    have hcount : s.timer.count ≠ 0 := by omega
    have htick : step simple hz s .cycle =
        { s with
          timer := { s.timer with count := s.timer.count - 1 }
          cycles := s.cycles + 1
          since := s.since + 1 } := by
      simp [step, simple, hcount]
    rw [List.replicate_succ, List.foldl_cons, htick, ih (by simp only; omega)]
    simp only [Clock.mk.injEq, Registers.mk.injEq, true_and, and_true]
    omega

lemma paced_cycles {n : ℕ} {s : Clock T} {es : List Event} (hs : s.since + n ≤ hz)
    (h : Always (fun s e t => t = step timer hz s e) (Paced hz)
      ((List.replicate n Event.cycle).foldl (step timer hz) s) es) :
    Always (fun s e t => t = step timer hz s e) (Paced hz) s (List.replicate n .cycle ++ es) := by
  induction n generalizing s with
  | zero => exact h
  | succ n ih =>
    refine always_next_cons.mpr ⟨?_, ih ?_ h⟩
    · change s.since < hz
      omega
    · change s.since + 1 + n ≤ hz
      omega

/-- Two calls within a second, a wrap between the last check of the second one and its latch. -/
def lateRun : List Event :=
  List.replicate 999000 Event.cycle ++ ([Event.access, .access, .access] ++
    (List.replicate 999 Event.cycle ++ [Event.access, .cycle, .access, .access]))

/-- Where the first call of the late run leaves the clock. -/
def shown999 : Clock Registers := ⟨⟨999, 999999, false, 999⟩, .idle, 0, [999, 0], 999000, 0⟩

theorem clock_backwards :
    Always (fun s e t => t = step simple 1000000 s e) (Paced 1000000) (setup simple 1000000)
      lateRun ∧
    (lateRun.foldl (step simple 1000000) (setup simple 1000000)).times = [0, 999, 0] ∧
    ¬ (lateRun.foldl (step simple 1000000) (setup simple 1000000)).times.Pairwise (· ≥ ·) := by
  have hfirst := foldl_cycles 1000000 (n := 999000) (s := setup simple 1000000) (by decide +kernel)
  have hcall : [Event.access, .access, .access].foldl (step simple 1000000)
      ((List.replicate 999000 Event.cycle).foldl (step simple 1000000) (setup simple 1000000)) =
        shown999 := by
    rw [hfirst]
    decide +kernel
  have hsecond := foldl_cycles 1000000 (n := 999) (s := shown999) (by decide +kernel)
  constructor
  · apply paced_cycles (by decide +kernel)
    refine always_next_cons.mpr ⟨trivial, always_next_cons.mpr ⟨trivial,
      always_next_cons.mpr ⟨trivial, ?_⟩⟩⟩
    rw [List.foldl_cons, List.foldl_cons, List.foldl_cons, List.foldl_nil] at hcall
    rw [hcall]
    apply paced_cycles (by decide +kernel)
    rw [hsecond]
    decide +kernel
  · rw [lateRun, List.foldl_append, List.foldl_append, List.foldl_append, hcall, hsecond]
    decide +kernel

end Clock

end Ledwall.Network
