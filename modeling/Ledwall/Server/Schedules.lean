import Mathlib.Tactic
import Mathlib.Data.List.MinMax
import Mathlib.Data.Prod.Lex

/-! Which show a wall plays: the code's choice among its schedules, and the schedules' meaning as
occurrences on the local time line. -/

namespace Ledwall.Server

def DAY_MIN : ℕ := 1440

/-- Local wall-clock time. `ordinal` is the proleptic day number, whose remainder by 7 is the
weekday. -/
structure LocalTime where
  ordinal : ℕ
  hour : Fin 24
  minute : Fin 60
  ordinal_pos : 0 < ordinal

def weekdayOf (ordinal : ℕ) : ℕ := (ordinal + 6) % 7

namespace LocalTime

variable (t : LocalTime)

def weekday : ℕ := weekdayOf t.ordinal

def minuteOfDay : ℕ := t.hour * 60 + t.minute

def instant : ℕ := t.ordinal * DAY_MIN + t.minuteOfDay

theorem minuteOfDay_lt : t.minuteOfDay < DAY_MIN := by
  have := t.hour.isLt
  have := t.minute.isLt
  rw [minuteOfDay, DAY_MIN]
  omega

end LocalTime

/-- A schedule within the bounds the API puts on its times. -/
structure Schedule where
  showId : ℕ
  startMin : ℕ
  endMin : ℕ
  days : String
  priority : ℤ
  enabled : Bool
  start_lt : startMin < DAY_MIN
  end_le : endMin ≤ DAY_MIN
  deriving DecidableEq

/-- `assignments` is the wall's standing shows. -/
structure Wall where
  assignments : List ℕ

def onWeekday (days : String) (weekday : ℕ) : Bool := days.toList.contains weekday.digitChar

namespace Schedule

variable (sc : Schedule) (t : LocalTime)

def covers : Bool :=
  if !sc.enabled then false
  else if !onWeekday sc.days t.weekday then false
  else
    let m := t.minuteOfDay
    if sc.startMin ≤ sc.endMin then sc.startMin ≤ m && m < sc.endMin
    else sc.startMin ≤ m || m < sc.endMin

/-- The tuple the code compares. -/
def rank : ℤ ×ₗ ℕ := toLex (sc.priority, sc.startMin)

end Schedule

def bestOf (best : Option Schedule) (sc : Schedule) (t : LocalTime) : Option Schedule :=
  if sc.covers t then
    match best with
    | none => some sc
    | some b => if b.rank < sc.rank then some sc else some b
  else best

def Wall.standing (wall : Wall) : Option ℕ := wall.assignments.head?

def resolveShowFor (wall : Wall) (schedules : List Schedule) (t : LocalTime) : Option ℕ :=
  match schedules.foldl (fun best sc => bestOf best sc t) none with
  | some best => some best.showId
  | none => wall.standing

theorem foldl_bestOf (schedules : List Schedule) (t : LocalTime) :
    schedules.foldl (fun best sc => bestOf best sc t) none =
      (schedules.filter fun sc => sc.covers t).argmax Schedule.rank := by
  rw [List.argmax]
  generalize (none : Option Schedule) = best
  induction schedules generalizing best with
  | nil => rfl
  | cons sc schedules ih =>
    rw [List.foldl_cons, ih, List.filter_cons, bestOf.eq_def]
    split
    · rw [List.foldl_cons]
      cases best <;> rfl
    · rfl

namespace Schedule

variable (sc : Schedule) (t : LocalTime)

/-- An occurrence starts on each selected weekday of an enabled schedule. -/
def OccursOn (day : ℕ) : Prop := sc.enabled = true ∧ onWeekday sc.days (weekdayOf day) = true

def startOf (day : ℕ) : ℕ := day * DAY_MIN + sc.startMin

/-- The next `endMin` after the start. -/
def stopOf (day : ℕ) : ℕ :=
  if sc.endMin ≤ sc.startMin then (day + 1) * DAY_MIN + sc.endMin else day * DAY_MIN + sc.endMin

def ContainsAt (day : ℕ) : Prop :=
  sc.OccursOn day ∧ sc.startOf day ≤ t.instant ∧ t.instant < sc.stopOf day

/-- Past midnight in a window that began the day before. -/
def Tail : Prop := sc.endMin ≤ sc.startMin ∧ t.minuteOfDay < sc.endMin

instance : Decidable (sc.Tail t) := inferInstanceAs (Decidable (_ ∧ _))

/-- The day on which the occurrence that may contain `t` starts. -/
def day : ℕ := if sc.Tail t then t.ordinal - 1 else t.ordinal

theorem containsAt_day {day : ℕ} (h : sc.ContainsAt t day) : day = sc.day t := by
  obtain ⟨-, hstart, hstop⟩ := h
  have hm := t.minuteOfDay_lt
  have hs := sc.start_lt
  have he := sc.end_le
  have hpos := t.ordinal_pos
  simp only [startOf, stopOf, LocalTime.instant, DAY_MIN] at hstart hstop hm hs he
  by_cases htail : sc.Tail t
  · rw [Schedule.day, if_pos htail]
    rw [if_pos htail.1] at hstop
    obtain ⟨hwrap, hearly⟩ := htail
    omega
  · rw [Schedule.day, if_neg htail]
    rw [Tail, not_and] at htail
    split at hstop
    · next hwrap =>
      have := htail hwrap
      omega
    · omega

/-- Whether some occurrence contains `t`. -/
def Active : Prop := sc.ContainsAt t (sc.day t)

theorem exists_containsAt : (∃ day, sc.ContainsAt t day) ↔ sc.Active t := by
  constructor
  · rintro ⟨day, h⟩
    have hday := sc.containsAt_day t h
    rw [hday] at h
    exact h
  · intro h
    exact ⟨_, h⟩

theorem active_iff : sc.Active t ↔ sc.OccursOn (sc.day t) ∧
    (if sc.endMin ≤ sc.startMin then t.minuteOfDay < sc.endMin ∨ sc.startMin ≤ t.minuteOfDay
     else sc.startMin ≤ t.minuteOfDay ∧ t.minuteOfDay < sc.endMin) := by
  have hm := t.minuteOfDay_lt
  have hs := sc.start_lt
  have he := sc.end_le
  have hpos := t.ordinal_pos
  rw [Active, ContainsAt]
  apply and_congr_right
  intro _
  simp only [startOf, stopOf, LocalTime.instant, DAY_MIN, day, Tail] at *
  by_cases hwrap : sc.endMin ≤ sc.startMin
  · by_cases htail : t.minuteOfDay < sc.endMin
    · simp only [hwrap, htail, and_self, if_true, true_or, iff_true]
      omega
    · simp only [hwrap, htail, and_false, if_false, if_true, false_or]
      omega
  · simp only [hwrap, false_and, if_false]
    omega

/-- When the code's weekday test and its empty window for equal times do no harm. -/
def JudgedRight : Prop :=
  sc.enabled = true → sc.endMin ≤ sc.startMin →
    if sc.startMin = sc.endMin then onWeekday sc.days (weekdayOf (sc.day t)) = false
    else t.minuteOfDay < sc.endMin →
      onWeekday sc.days t.weekday = onWeekday sc.days (weekdayOf (t.ordinal - 1))

theorem covers_iff : sc.covers t = true ↔
    sc.enabled = true ∧ onWeekday sc.days t.weekday = true ∧
      (if sc.startMin ≤ sc.endMin then sc.startMin ≤ t.minuteOfDay ∧ t.minuteOfDay < sc.endMin
       else sc.startMin ≤ t.minuteOfDay ∨ t.minuteOfDay < sc.endMin) := by
  rw [covers]
  cases sc.enabled
  · simp
  · cases onWeekday sc.days t.weekday
    · simp
    · by_cases h : sc.startMin ≤ sc.endMin <;> simp [h]

theorem judgedRight_iff : sc.JudgedRight t ↔ (sc.covers t = true ↔ sc.Active t) := by
  rw [active_iff, covers_iff, JudgedRight, OccursOn]
  cases sc.enabled
  · simp
  rcases Nat.lt_trichotomy sc.startMin sc.endMin with h | h | h
  · have hday : weekdayOf (sc.day t) = t.weekday := by
      rw [day, if_neg fun ht => by have := ht.1; omega]
      rfl
    simp [hday, h.le, Nat.not_le.mpr h]
  · have hnone : ¬ (sc.startMin ≤ t.minuteOfDay ∧ t.minuteOfDay < sc.endMin) := by omega
    have hall : t.minuteOfDay < sc.endMin ∨ sc.startMin ≤ t.minuteOfDay := by omega
    rw [h] at hnone hall
    simp [h, hnone, hall]
  · by_cases htail : t.minuteOfDay < sc.endMin
    · have hday : sc.day t = t.ordinal - 1 := if_pos ⟨h.le, htail⟩
      simp [hday, h.le, Nat.not_le.mpr h, htail, h.ne']
    · have hday : weekdayOf (sc.day t) = t.weekday := by
        rw [day, if_neg fun ht => htail ht.2]
        rfl
      simp [hday, h.le, Nat.not_le.mpr h, htail, h.ne']

/-- `b` started later, but the code ranks `a`, which started yesterday, no lower. -/
def Inverted (a b : Schedule) : Prop :=
  a.covers t = true ∧ b.covers t = true ∧ a.priority = b.priority ∧ a.Tail t ∧ ¬ b.Tail t ∧
    b.startMin ≤ a.startMin

end Schedule

/-- The order among the occurrences that contain `t`: priority, then the later start. -/
def Schedule.standingAt (sc : Schedule) (t : LocalTime) : ℤ ×ₗ ℕ :=
  toLex (sc.priority, sc.startOf (sc.day t))

/-- One of the occurrences that contain `t` that no other precedes. -/
def Chosen (schedules : List Schedule) (t : LocalTime) (sc : Schedule) : Prop :=
  sc ∈ schedules ∧ sc.Active t ∧ ∀ sc' ∈ schedules, sc'.Active t → sc'.standingAt t ≤ sc.standingAt t

/-- What a wall is meant to play, and that only a tie in priority and start leaves it to the order
of the list. -/
structure Follows (wall : Wall) (schedules : List Schedule) (t : LocalTime) : Prop where
  none_active : (∀ sc ∈ schedules, ¬ sc.Active t) →
    resolveShowFor wall schedules t = wall.standing
  some_active : (∃ sc ∈ schedules, sc.Active t) →
    ∃ sc, Chosen schedules t sc ∧ resolveShowFor wall schedules t = some sc.showId
  order : ∀ schedules', schedules'.Perm schedules →
    (∀ a b, Chosen schedules t a → Chosen schedules t b → a = b) →
      resolveShowFor wall schedules' t = resolveShowFor wall schedules t

variable {wall : Wall} {schedules : List Schedule} {t : LocalTime} {a b : Schedule}

theorem Schedule.startOf_tail (ha : a.Tail t) (hb : ¬ b.Tail t) :
    a.startOf (a.day t) < b.startOf (b.day t) := by
  have hpos := t.ordinal_pos
  have hs := a.start_lt
  rw [day, if_pos ha, day, if_neg hb, startOf, startOf]
  obtain ⟨k, hk⟩ : ∃ k, t.ordinal = k + 1 := ⟨t.ordinal - 1, by omega⟩
  rw [hk, Nat.add_sub_cancel, Nat.add_mul]
  omega

theorem Schedule.startOf_le_iff (h : a.Tail t ↔ b.Tail t) :
    a.startOf (a.day t) ≤ b.startOf (b.day t) ↔ a.startMin ≤ b.startMin := by
  have hday : a.day t = b.day t := by simp only [day, h]
  rw [hday, startOf, startOf]
  omega

/-- The code's winner `w` against a right choice `v`: only an inversion sets them apart. -/
theorem winner_chosen {w v : Schedule} (hw : w ∈ schedules) (hact : w.Active t)
    (hcov : w.covers t = true) (hv : Chosen schedules t v) (hvcov : v.covers t = true)
    (hrank : v.rank ≤ w.rank) : Chosen schedules t w ∨ w.Inverted t v := by
  have hstand : w.standingAt t ≤ v.standingAt t := hv.2.2 w hw hact
  rw [Schedule.rank, Schedule.rank, Prod.Lex.toLex_le_toLex] at hrank
  rw [Schedule.standingAt, Schedule.standingAt, Prod.Lex.toLex_le_toLex] at hstand
  dsimp only at hrank hstand
  have hprio : w.priority = v.priority := by omega
  have hmin : v.startMin ≤ w.startMin := by omega
  have hstart : w.startOf (w.day t) ≤ v.startOf (v.day t) := by omega
  have hsame (h : w.Tail t ↔ v.Tail t) : Chosen schedules t w := by
    have hle := (Schedule.startOf_le_iff h).mp hstart
    have hge := (Schedule.startOf_le_iff h.symm).mpr hmin
    refine ⟨hw, hact, fun sc hsc hsca => (hv.2.2 sc hsc hsca).trans ?_⟩
    rw [Schedule.standingAt, Schedule.standingAt, Prod.Lex.toLex_le_toLex]
    exact Or.inr ⟨hprio.symm, hge⟩
  by_cases htw : w.Tail t
  · by_cases htv : v.Tail t
    · exact Or.inl (hsame (iff_of_true htw htv))
    · exact Or.inr ⟨hcov, hvcov, hprio, htw, htv, hmin⟩
  · by_cases htv : v.Tail t
    · have := Schedule.startOf_tail htv htw
      omega
    · exact Or.inl (hsame (iff_of_false htw htv))

theorem resolveShowFor_eq : resolveShowFor wall schedules t =
    (match (schedules.filter fun sc => sc.covers t).argmax Schedule.rank with
    | some best => some best.showId
    | none => wall.standing) := by
  rw [resolveShowFor, foldl_bestOf]

/-- Where each schedule is judged right and no inversion matters, the code's answer is a right
one. -/
theorem resolveShowFor_right (hj : ∀ sc ∈ schedules, sc.JudgedRight t)
    (hi : ∀ a ∈ schedules, ∀ b ∈ schedules, a.Inverted t b → a.showId = b.showId) :
    ((∀ sc ∈ schedules, ¬ sc.Active t) ∧ resolveShowFor wall schedules t = wall.standing) ∨
      ∃ sc, Chosen schedules t sc ∧ resolveShowFor wall schedules t = some sc.showId := by
  have hcov (sc : Schedule) (hsc : sc ∈ schedules) : sc.covers t = true ↔ sc.Active t :=
    (sc.judgedRight_iff t).mp (hj sc hsc)
  let covering := schedules.filter fun sc => sc.covers t
  have hmem (sc : Schedule) : sc ∈ covering ↔ sc ∈ schedules ∧ sc.Active t := by
    rw [List.mem_filter]
    exact and_congr_right fun hsc => hcov sc hsc
  cases hw : covering.argmax Schedule.rank with
  | none =>
    left
    have hnil : covering = [] := List.argmax_eq_none.mp hw
    refine ⟨fun sc hsc hact => ?_, ?_⟩
    · have hin := (hmem sc).mpr ⟨hsc, hact⟩
      rw [hnil] at hin
      cases hin
    · rw [resolveShowFor_eq, hw]
  | some w =>
    right
    have hwin := List.argmax_mem hw
    have hws := (hmem w).mp hwin
    have hresolve : resolveShowFor wall schedules t = some w.showId := by
      rw [resolveShowFor_eq, hw]
    obtain ⟨v, hv⟩ : ∃ v, covering.argmax (fun sc => sc.standingAt t) = some v := by
      rw [← Option.ne_none_iff_exists', Ne, List.argmax_eq_none]
      exact List.ne_nil_of_mem hwin
    have hvs := (hmem v).mp (List.argmax_mem hv)
    have hchosen : Chosen schedules t v := by
      refine ⟨hvs.1, hvs.2, fun sc hsc hact => ?_⟩
      exact List.le_of_mem_argmax ((hmem sc).mpr ⟨hsc, hact⟩) hv
    have hrank : v.rank ≤ w.rank := List.le_of_mem_argmax (List.argmax_mem hv) hw
    rcases winner_chosen hws.1 hws.2 ((hcov w hws.1).mpr hws.2) hchosen ((hcov v hvs.1).mpr hvs.2)
      hrank with h | h
    · exact ⟨w, h, hresolve⟩
    · exact ⟨v, hchosen, by rw [hresolve, hi w hws.1 v hvs.1 h]⟩

theorem follows_of (hj : ∀ sc ∈ schedules, sc.JudgedRight t)
    (hi : ∀ a ∈ schedules, ∀ b ∈ schedules, a.Inverted t b → a.showId = b.showId) :
    Follows wall schedules t where
  none_active hnone := by
    rcases resolveShowFor_right hj hi with h | ⟨sc, hsc, -⟩
    · exact h.2
    · exact absurd hsc.2.1 (hnone sc hsc.1)
  some_active hsome := by
    obtain ⟨sc, hsc, hact⟩ := hsome
    rcases resolveShowFor_right hj hi with h | h
    · exact absurd hact (h.1 sc hsc)
    · exact h
  order schedules' hperm hunique := by
    have hchosen (sc : Schedule) : Chosen schedules' t sc ↔ Chosen schedules t sc := by
      simp only [Chosen, hperm.mem_iff]
    have h' := @resolveShowFor_right wall schedules' t
      (fun sc hsc => hj sc (hperm.mem_iff.mp hsc))
      fun a ha b hb => hi a (hperm.mem_iff.mp ha) b (hperm.mem_iff.mp hb)
    rcases @resolveShowFor_right wall schedules t hj hi with ⟨hnone, h⟩ | ⟨a, ha, h⟩
    · rcases h' with ⟨-, h'⟩ | ⟨b, hb, -⟩
      · rw [h, h']
      · have hb := (hchosen b).mp hb
        exact absurd hb.2.1 (hnone b hb.1)
    · rcases h' with ⟨hnone, -⟩ | ⟨b, hb, h'⟩
      · exact absurd ha.2.1 (hnone a (hperm.mem_iff.mpr ha.1))
      · rw [h, h', hunique a b ha ((hchosen b).mp hb)]

/-- The code follows the meaning on every list drawn from a pool of schedules exactly when it
judges each of them right and no two of different shows are inverted. -/
theorem follows_iff (pool : Schedule → Prop) (t : LocalTime) :
    (∀ wall schedules, (∀ sc ∈ schedules, pool sc) → Follows wall schedules t) ↔
      (∀ sc, pool sc → sc.JudgedRight t) ∧
        ∀ a b, pool a → pool b → a.Inverted t b → a.showId = b.showId := by
  constructor
  · intro h
    have hj (sc : Schedule) (hsc : pool sc) : sc.JudgedRight t := by
      have hone := h ⟨[]⟩ [sc] (by simpa using hsc)
      rw [sc.judgedRight_iff]
      constructor
      · intro hcov
        by_contra hact
        have hnone := hone.none_active (by simpa using hact)
        rw [resolveShowFor_eq] at hnone
        simp [hcov, Wall.standing] at hnone
      · intro hact
        by_contra hcov
        obtain ⟨v, -, hv⟩ := hone.some_active ⟨sc, List.mem_singleton_self sc, hact⟩
        rw [resolveShowFor_eq] at hv
        simp [hcov, Wall.standing] at hv
    refine ⟨hj, fun a b ha hb hinv => ?_⟩
    obtain ⟨hacov, hbcov, hprio, hta, htb, hle⟩ := hinv
    have hbact := ((b.judgedRight_iff t).mp (hj b hb)).mp hbcov
    have hpair := h ⟨[]⟩ [a, b] (by simp [ha, hb])
    obtain ⟨v, hv, hshow⟩ := hpair.some_active ⟨b, by simp, hbact⟩
    have hrank : ¬ a.rank < b.rank := by
      rw [Schedule.rank, Schedule.rank, Prod.Lex.toLex_lt_toLex]
      dsimp only
      omega
    have hresolve : resolveShowFor ⟨[]⟩ [a, b] t = some a.showId := by
      simp [resolveShowFor, bestOf, hacov, hbcov, hrank]
    have hvb : v = b := by
      rcases List.mem_pair.mp hv.1 with rfl | rfl
      · have hstand := hv.2.2 b (by simp) hbact
        have hlt := Schedule.startOf_tail hta htb
        rw [Schedule.standingAt, Schedule.standingAt, Prod.Lex.toLex_le_toLex] at hstand
        dsimp only at hstand
        omega
      · rfl
    rw [hresolve, hvb, Option.some.injEq] at hshow
    exact hshow
  · rintro ⟨hj, hi⟩ wall schedules hpool
    exact follows_of (fun sc hsc => hj sc (hpool sc hsc))
      fun a ha b hb => hi a b (hpool a ha) (hpool b hb)

/-- Fridays from 22:00 to 06:00, at two o'clock on a Saturday morning. -/
def fridayNight : Schedule where
  showId := 9
  startMin := 1320
  endMin := 360
  days := "4"
  priority := 0
  enabled := true
  start_lt := by decide
  end_le := by decide

def saturdayTwo : LocalTime := ⟨739878, 2, 0, by decide⟩

theorem fridayNight_stops : ¬ Follows ⟨[7]⟩ [fridayNight] saturdayTwo := by
  intro h
  have hact : fridayNight.Active saturdayTwo := by
    rw [Schedule.active_iff, Schedule.OccursOn]
    decide +kernel
  obtain ⟨v, hv, hshow⟩ := h.some_active ⟨fridayNight, List.mem_singleton_self _, hact⟩
  rw [List.mem_singleton.mp hv.1] at hshow
  have hstanding : resolveShowFor ⟨[7]⟩ [fridayNight] saturdayTwo = some 7 := by decide +kernel
  rw [hstanding] at hshow
  exact absurd hshow (by decide)

end Ledwall.Server
