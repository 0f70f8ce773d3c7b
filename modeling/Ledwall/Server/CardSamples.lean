import Mathlib.Tactic

/-! Samples of a card's counters, and what the supervisor makes of each from the one before. -/

namespace Ledwall.Server.Sampling

inductive Field
  | isrCount
  | refreshCount
  | bitmapFrames
  | dmaPixels
  | dmaChunks
  | macOverflow
  | macCrcErrors
  deriving DecidableEq

/-- A member of the card's status as Python has it; `other` is what is missing too. -/
inductive StatusValue
  | int (n : ℤ)
  | float (q : ℚ)
  | other

/-- `int(v) if isinstance(v, (int, float)) else None` -/
def StatusValue.toInt : StatusValue → Option ℤ
  | .int n => some n
  | .float q => some (q.num.tdiv q.den)
  | .other => none

inductive CardState
  | unknown
  | online
  | offline
  deriving DecidableEq

/-- Times are in seconds. -/
structure Card where
  state : CardState := .unknown
  lastSeen : Option ℚ := none

/-- The rates are exact where Python has floats of the same sign. -/
structure CardStat where
  at_ : ℚ
  reachable : Bool
  counter : Field → Option ℤ := fun _ => none
  fps : Option ℚ := none
  refreshHz : Option ℚ := none
  rebooted : Bool := false

/-- Both samples have the field and it is lower in the later one. -/
def wentBack (st prev : CardStat) (f : Field) : Bool :=
  match st.counter f, prev.counter f with
  | some new, some old => new < old
  | _, _ => false

/-- What the field gained a second, where both samples have it. -/
def rate (st prev : CardStat) (dtsec : ℚ) (f : Field) : Option ℚ :=
  match st.counter f, prev.counter f with
  | some new, some old => some (((new - old : ℤ) : ℚ) / dtsec)
  | _, _ => none

/-- What a reachable sample is given from the one before. -/
def compare (st prev : CardStat) : CardStat :=
  if prev.reachable then
    let dtsec := st.at_ - prev.at_
    if 0 < dtsec then
      let back := [Field.isrCount, .refreshCount].any (wentBack st prev)
      if back then { st with rebooted := true }
      else { st with fps := rate st prev dtsec .bitmapFrames, refreshHz := rate st prev dtsec .refreshCount }
    else st
  else st

/-- `data` is the status fetched, if the card answered. -/
def sample (card : Card) (data : Option (Field → StatusValue)) (prev : Option CardStat) (now : ℚ) :
    Card × CardStat :=
  match data with
  | none => ({ card with state := .offline }, { at_ := now, reachable := false })
  | some data =>
    let st : CardStat := { at_ := now, reachable := true, counter := fun f => (data f).toInt }
    ({ card with state := .online, lastSeen := some now },
      match prev with
      | none => st
      | some prev => compare st prev)

/-- The card's counters, and what is kept of it. `reached` are the counters at the last reachable
sample and `restarted` whether the card rebooted since; nothing reads these two. -/
structure Watch where
  counters : Field → BitVec 32
  card : Card := {}
  last : Option CardStat := none
  reached : Option (Field → BitVec 32) := none
  restarted : Bool := false

inductive Event
  | grow (gain : Field → ℕ)
  | reboot
  | poll (reachable : Bool) (now : ℚ)

namespace Watch

variable (s : Watch) (reachable : Bool) (now : ℚ)

def status : Field → StatusValue := fun f => .int (s.counters f).toNat

/-- The sample a tick takes. -/
def taken : Card × CardStat :=
  sample s.card (if reachable then some s.status else none) s.last now

/-- `self._last[c.id] = st`, whatever the sample is. -/
def poll : Watch :=
  { s with
    card := (s.taken reachable now).1
    last := some (s.taken reachable now).2
    reached := if reachable then some s.counters else s.reached
    restarted := if reachable then false else s.restarted }

def step : Event → Watch
  | .grow gain => { s with counters := fun f => s.counters f + BitVec.ofNat 32 (gain f) }
  | .reboot => { s with counters := fun _ => 0, restarted := true }
  | .poll reachable now => s.poll reachable now

def after (counters : Field → BitVec 32) (events : List Event) : Watch :=
  events.foldl step { counters }

/-- A counter is lower than it was at the last reachable sample. -/
def Below (f : Field) : Prop := ∃ old, s.reached = some old ∧ s.counters f < old f

/-- The sample says what happened to the card since the last reachable one. -/
structure Faithful : Prop where
  sees : reachable = true → s.restarted = true → (∃ f, s.Below f) →
    (s.taken reachable now).2.rebooted = true
  trusts : s.restarted = false → (s.taken reachable now).2.rebooted = false
  rates : ∀ v, (s.taken reachable now).2.fps = some v ∨ (s.taken reachable now).2.refreshHz = some v →
    0 ≤ v ∧ s.restarted = false

/-- The sample before was reachable, and earlier. -/
def Compared : Prop := ∃ prev, s.last = some prev ∧ prev.reachable = true ∧ prev.at_ < now

/-- What the code goes by tells a reboot from none: next to a reachable sample, a reboot left one of
the two counters below and no reboot left these two and the frames; elsewhere, a reboot left none. -/
structure Legible : Prop where
  reboot : s.Compared now → s.restarted = true → s.Below .isrCount ∨ s.Below .refreshCount
  growth : s.Compared now → s.restarted = false →
    ¬ s.Below .isrCount ∧ ¬ s.Below .refreshCount ∧ ¬ s.Below .bitmapFrames
  outage : ¬ s.Compared now → s.restarted = true → ∀ f, ¬ s.Below f

variable {s reachable now}

/-- The sample the supervisor keeps, if it is a reachable one, is the last reachable one. -/
def Inv (s : Watch) : Prop :=
  ∀ prev, s.last = some prev → prev.reachable = true →
    ∃ old, s.reached = some old ∧ ∀ f, prev.counter f = some ((old f).toNat : ℤ)

/-- A reachable sample by itself. -/
def plain (s : Watch) (now : ℚ) : CardStat where
  at_ := now
  reachable := true
  counter f := some ((s.counters f).toNat : ℤ)

lemma taken_alone (h : ¬ s.Compared now) : (s.taken true now).2 = s.plain now := by
  rw [taken, if_pos rfl]
  cases hlast : s.last with
  | none => rfl
  | some prev =>
    change compare (s.plain now) prev = s.plain now
    rw [compare]
    split
    · next hreach =>
      rw [if_neg]
      intro hlater
      exact h ⟨prev, hlast, hreach, sub_pos.mp hlater⟩
    · rfl

lemma wentBack_plain {prev : CardStat} {old : Field → BitVec 32} {f : Field}
    (hold : prev.counter f = some ((old f).toNat : ℤ)) :
    wentBack (s.plain now) prev f = true ↔ s.counters f < old f := by
  rw [wentBack, plain, hold]
  simp only [decide_eq_true_eq, Nat.cast_lt]
  exact BitVec.lt_def.symm

lemma rate_plain {prev : CardStat} {old : Field → BitVec 32} {f : Field}
    (hold : prev.counter f = some ((old f).toNat : ℤ)) (dtsec : ℚ) :
    rate (s.plain now) prev dtsec f =
      some ((((s.counters f).toNat - (old f).toNat : ℤ) : ℚ) / dtsec) := by
  rw [rate, plain, hold]

lemma below_iff {old : Field → BitVec 32} (h : s.reached = some old) (f : Field) :
    s.Below f ↔ s.counters f < old f := by
  rw [Below, h]
  exact ⟨fun ⟨_, heq, hlt⟩ => (Option.some.inj heq) ▸ hlt, fun hlt => ⟨old, rfl, hlt⟩⟩

lemma taken_compared (hinv : s.Inv) (h : s.Compared now) :
    (s.Below .isrCount ∨ s.Below .refreshCount) ∧
        (s.taken true now).2 = { s.plain now with rebooted := true } ∨
      ¬ (s.Below .isrCount ∨ s.Below .refreshCount) ∧ (s.taken true now).2.rebooted = false ∧
        (∃ v, (s.taken true now).2.fps = some v ∧ (0 ≤ v ↔ ¬ s.Below .bitmapFrames)) ∧
        ∃ v, (s.taken true now).2.refreshHz = some v ∧ 0 ≤ v := by
  obtain ⟨prev, hlast, hreach, hlater⟩ := h
  obtain ⟨old, hreached, hold⟩ := hinv prev hlast hreach
  have htaken : (s.taken true now).2 = compare (s.plain now) prev := by
    rw [taken, if_pos rfl, hlast]
    rfl
  have hdt : 0 < (s.plain now).at_ - prev.at_ := sub_pos.mpr hlater
  have hsign (f : Field) : 0 ≤ (((s.counters f).toNat - (old f).toNat : ℤ) : ℚ) /
      ((s.plain now).at_ - prev.at_) ↔ ¬ s.counters f < old f := by
    rw [le_div_iff₀ hdt, zero_mul, Int.cast_nonneg_iff, sub_nonneg, Nat.cast_le, BitVec.lt_def,
      not_lt]
  have hback : [Field.isrCount, .refreshCount].any (wentBack (s.plain now) prev) = true ↔
      s.Below .isrCount ∨ s.Below .refreshCount := by
    rw [List.any_cons, List.any_cons, List.any_nil, Bool.or_false, Bool.or_eq_true,
      wentBack_plain (hold _), wentBack_plain (hold _), below_iff hreached, below_iff hreached]
  rw [htaken, compare, if_pos hreach]
  dsimp only
  rw [if_pos hdt]
  split
  · next hb => exact .inl ⟨hback.mp hb, rfl⟩
  · next hb =>
    have hnot := fun h => hb (hback.mpr h)
    refine .inr ⟨hnot, rfl, ⟨_, rate_plain (hold _) _, ?_⟩, _, rate_plain (hold _) _, ?_⟩
    · rw [hsign, below_iff hreached]
    · rw [hsign, ← below_iff hreached]
      exact fun h => hnot (.inr h)

lemma faithful_iff (hinv : s.Inv) : s.Faithful reachable now ↔ (reachable = true → s.Legible now) := by
  cases reachable with
  | false =>
    refine iff_of_true ⟨fun h => (Bool.false_ne_true h).elim, fun _ => rfl, ?_⟩
      fun h => (Bool.false_ne_true h).elim
    rintro v (hv | hv) <;> cases hv
  | true =>
    simp only [forall_const]
    by_cases hc : s.Compared now
    · rcases taken_compared hinv hc with ⟨hback, htaken⟩ | ⟨hback, hmark, ⟨v, hfps, hv⟩, w, hhz, hw⟩
      · constructor
        · intro h
          have hrestarted : s.restarted = true := by
            by_contra hnot
            have hmark := h.trusts (Bool.eq_false_iff.mpr hnot)
            rw [htaken] at hmark
            cases hmark
          refine ⟨fun _ _ => hback, fun _ hgrow => ?_, fun hnot => absurd hc hnot⟩
          rw [hrestarted] at hgrow
          cases hgrow
        · intro h
          have hrestarted : s.restarted = true := by
            by_contra hnot
            obtain ⟨hisr, hrefresh, -⟩ := h.growth hc (Bool.eq_false_iff.mpr hnot)
            exact hback.elim hisr hrefresh
          refine ⟨fun _ _ _ => by rw [htaken], fun hgrow => ?_, ?_⟩
          · rw [hrestarted] at hgrow
            cases hgrow
          · rw [htaken]
            rintro v (hv | hv) <;> cases hv
      · constructor
        · intro h
          obtain ⟨hnonneg, hgrow⟩ := h.rates v (.inl hfps)
          refine ⟨fun _ hrestarted => ?_, fun _ _ => ?_, fun hnot => absurd hc hnot⟩
          · rw [hgrow] at hrestarted
            cases hrestarted
          · exact ⟨fun h => hback (.inl h), fun h => hback (.inr h), hv.mp hnonneg⟩
        · intro h
          have hgrow : s.restarted = false := by
            by_contra hnot
            exact hback (h.reboot hc (Bool.not_eq_false _ ▸ hnot))
          refine ⟨fun _ hrestarted => ?_, fun _ => hmark, ?_⟩
          · rw [hgrow] at hrestarted
            cases hrestarted
          · rintro u (hu | hu)
            · rw [hfps] at hu
              obtain rfl := Option.some.inj hu
              exact ⟨hv.mpr (h.growth hc hgrow).2.2, hgrow⟩
            · rw [hhz] at hu
              obtain rfl := Option.some.inj hu
              exact ⟨hw, hgrow⟩
    · have htaken := taken_alone hc
      constructor
      · intro h
        refine ⟨fun hcomp => absurd hcomp hc, fun hcomp => absurd hcomp hc, fun _ hrestarted => ?_⟩
        intro f hf
        have hmark := h.sees rfl hrestarted ⟨f, hf⟩
        rw [htaken] at hmark
        cases hmark
      · intro h
        refine ⟨fun _ hrestarted hbelow => ?_, fun _ => by rw [htaken]; rfl, ?_⟩
        · obtain ⟨f, hf⟩ := hbelow
          exact absurd hf (h.outage hc hrestarted f)
        · rw [htaken]
          rintro v (hv | hv) <;> cases hv

lemma compare_kept (st prev : CardStat) :
    (compare st prev).counter = st.counter ∧ (compare st prev).reachable = st.reachable := by
  rw [compare]
  split
  · dsimp only
    split
    · split <;> exact ⟨rfl, rfl⟩
    · exact ⟨rfl, rfl⟩
  · exact ⟨rfl, rfl⟩

lemma Inv.step (h : s.Inv) (e : Event) : (s.step e).Inv := by
  cases e with
  | grow gain => exact h
  | reboot => exact h
  | poll reachable now =>
    intro prev hlast hreach
    obtain rfl := Option.some.inj hlast
    cases reachable with
    | false => cases hreach
    | true =>
      refine ⟨s.counters, rfl, fun f => ?_⟩
      rw [taken, if_pos rfl]
      cases s.last with
      | none => rfl
      | some prev => exact congrFun (compare_kept _ prev).1 f

lemma inv_after (counters : Field → BitVec 32) (events : List Event) : (after counters events).Inv := by
  induction events using List.reverseRecOn with
  | nil =>
    intro prev hlast
    cases hlast
  | append_singleton events e ih =>
    rw [after, List.foldl_append]
    exact ih.step e

/-- In every run of growth, reboots and samples, each sample says what happened since the last
reachable one just when at each answer the two counters tell a reboot from growth. -/
theorem samples_faithful_iff (counters : Field → BitVec 32) (events : List Event) :
    (∀ past reachable now rest, events = past ++ .poll reachable now :: rest →
        (after counters past).Faithful reachable now) ↔
      ∀ past reachable now rest, events = past ++ .poll reachable now :: rest → reachable = true →
        (after counters past).Legible now :=
  forall₄_congr fun past _ _ _ => imp_congr_right fun _ => faithful_iff (inv_after counters past)

/-- A card at five interrupts reboots, and one poll falls into its boot. -/
def missedReboot : List Event :=
  [.grow fun _ => 5, .poll true 0, .reboot, .poll false 15, .poll true 30]

theorem reboot_missed : ¬ ∀ (counters : Field → BitVec 32) (events : List Event),
    ∀ past reachable now rest, events = past ++ .poll reachable now :: rest →
      (after counters past).Faithful reachable now := by
  intro hclaim
  have h := hclaim (fun _ => 0) missedReboot
    [.grow fun _ => 5, .poll true 0, .reboot, .poll false 15] true 30 [] rfl
  have hmark := h.sees rfl rfl ⟨.isrCount, _, rfl, by decide⟩
  cases hmark

end Watch

end Ledwall.Server.Sampling
