import Mathlib.Data.Rat.Floor
import Mathlib.Tactic
import Ledwall.Library.Runs

/-! The clocks of a wall's render loop: the frame index it derives from the time, and how it falls back
when the wall cannot absorb the rate. -/

namespace Ledwall.Server.Pacing

open Ledwall.Library.Runs

def LEAD_S : ℚ := 1 / 2

/-- `int` drops the fraction. -/
def int (q : ℚ) : ℤ := if 0 ≤ q then ⌊q⌋ else ⌈q⌉

/-- The locals of `run`. Beside them when the show started, the earliest moment the next reading of the
clock can show, and whether no frame has been composed since the last resync. -/
structure Pace where
  fps : ℚ
  t0 : ℚ
  n : ℕ := 0
  lastIdx : ℤ := -1
  began : ℚ
  now : ℚ
  resynced : Bool := false
  deriving DecidableEq

/-- The readings of the clock in one iteration, in their order: for the index, for a sleep, for the
slack once the frame is in the queue, and for a resync. The rendering may raise. -/
structure Readings where
  look : ℚ
  wake : ℚ
  slack : ℚ
  resync : ℚ
  raises : Bool := false
  deriving DecidableEq

inductive Turn
  | change (fps now : ℚ)
  | iteration (r : Readings)
  deriving DecidableEq

namespace Pace

variable (s : Pace) (r : Readings)

/-- Another show, or an edited one. -/
def start (fps now : ℚ) : Pace := { fps := fps, t0 := now, began := now, now := now }

def idx : ℤ := int ((r.look - s.t0 + LEAD_S) * s.fps)

/-- The frame of this index has been composed before. -/
def again : Bool := s.idx r ≤ s.lastIdx

def sleep : ℚ := max 0 (s.t0 + (s.lastIdx + 1) / s.fps - LEAD_S - r.wake)

/-- More than a second late. -/
def behind : Bool := -(s.t0 + (s.idx r + 1) / s.fps - r.slack) > 1

def resyncs : Bool := !s.again r && !r.raises && s.behind r

def iterate : Pace :=
  if s.again r then { s with now := r.wake + s.sleep r }
  else
    let t := { s with lastIdx := s.idx r, resynced := false }
    if r.raises then { t with now := r.look + 2 }
    else
      let t := { t with n := s.n + 1 }
      if s.behind r then { t with t0 := r.resync - t.n / t.fps, now := r.resync, resynced := true }
      else { t with now := r.slack }

def next (s : Pace) : Turn → Pace
  | .change fps now => start fps now
  | .iteration r => s.iterate r

/-- The clock does not go back, and a show has a frame rate. -/
def Timed (s : Pace) : Turn → Prop
  | .change fps now => 0 < fps ∧ s.now ≤ now
  | .iteration r => s.now ≤ r.look ∧ r.look ≤ r.wake ∧ r.look ≤ r.slack ∧ r.slack ≤ r.resync

structure KeepsUp (s : Pace) (r : Readings) : Prop where
  sleeps : s.again r = true → s.sleep r ≤ 1 / s.fps
  ahead : s.again r = false → s.idx r / s.fps ≤ r.look - s.began + LEAD_S
  succeeds : s.again r = false → s.resynced = true → s.idx r = s.lastIdx + 1

def KeepsUpAt (s : Pace) : Turn → Prop
  | .change .. => True
  | .iteration r => s.KeepsUp r

/-- A resync finds no more indices skipped than the lead has, and the loop is back from it before the
frame after the next is due. -/
structure InStep (s : Pace) (r : Readings) : Prop where
  skipped : s.resyncs r = true → s.idx r ≤ s.n + 1 + LEAD_S * s.fps
  back : s.resynced = true → r.look < s.t0 + (s.lastIdx + 2) / s.fps - LEAD_S

def InStepAt (s : Pace) : Turn → Prop
  | .change .. => True
  | .iteration r => s.InStep r

instance : Decidable (s.KeepsUp r) :=
  decidable_of_iff ((s.again r = true → s.sleep r ≤ 1 / s.fps) ∧
      (s.again r = false → s.idx r / s.fps ≤ r.look - s.began + LEAD_S) ∧
      (s.again r = false → s.resynced = true → s.idx r = s.lastIdx + 1))
    ⟨fun h => ⟨h.1, h.2.1, h.2.2⟩, fun h => ⟨h.sleeps, h.ahead, h.succeeds⟩⟩

instance : Decidable (s.InStep r) :=
  decidable_of_iff ((s.resyncs r = true → s.idx r ≤ s.n + 1 + LEAD_S * s.fps) ∧
      (s.resynced = true → r.look < s.t0 + (s.lastIdx + 2) / s.fps - LEAD_S))
    ⟨fun h => ⟨h.1, h.2⟩, fun h => ⟨h.skipped, h.back⟩⟩

instance : (i : Turn) → Decidable (s.Timed i)
  | .change .. => inferInstanceAs (Decidable (_ ∧ _))
  | .iteration _ => inferInstanceAs (Decidable (_ ∧ _))

instance : (i : Turn) → Decidable (s.KeepsUpAt i)
  | .change .. => .isTrue trivial
  | .iteration r => inferInstanceAs (Decidable (s.KeepsUp r))

instance : (i : Turn) → Decidable (s.InStepAt i)
  | .change .. => .isTrue trivial
  | .iteration r => inferInstanceAs (Decidable (s.InStep r))

/-- No more frames have been composed than indices have passed, the show's origin has only moved on,
and the last frame is no further ahead of the clock than the lead. -/
structure Inv (s : Pace) : Prop where
  fps : 0 < s.fps
  count : (s.n : ℤ) ≤ s.lastIdx + 1
  began : s.began ≤ s.t0
  origin : s.t0 ≤ s.now
  last : s.lastIdx ≤ (s.now - s.t0 + LEAD_S) * s.fps

variable {s r}

lemma int_le {q : ℚ} (h : 0 ≤ q) : (int q : ℚ) ≤ q := by
  rw [int, if_pos h]
  exact Int.floor_le q

lemma inv_start {fps now : ℚ} (h : 0 < fps) : (start fps now).Inv where
  fps := h
  count := by simp [start]
  began := le_refl now
  origin := le_refl now
  last := by
    have hlead : 0 ≤ (now - now + LEAD_S) * fps := by
      rw [sub_self, zero_add]
      exact mul_nonneg (by norm_num [LEAD_S]) h.le
    show ((-1 : ℤ) : ℚ) ≤ (now - now + LEAD_S) * fps
    push_cast
    linarith

namespace Inv

lemma passed (h : s.Inv) (hlook : s.now ≤ r.look) : 0 ≤ (r.look - s.t0 + LEAD_S) * s.fps := by
  have horigin := h.origin
  have hlead : (0 : ℚ) ≤ LEAD_S := by norm_num [LEAD_S]
  exact mul_nonneg (by linarith) h.fps.le

lemma idx_le (h : s.Inv) (hlook : s.now ≤ r.look) :
    (s.idx r : ℚ) ≤ (r.look - s.t0 + LEAD_S) * s.fps := int_le (h.passed hlook)

lemma last_at (h : s.Inv) {t : ℚ} (ht : s.now ≤ t) :
    (s.lastIdx : ℚ) ≤ (t - s.t0 + LEAD_S) * s.fps :=
  h.last.trans (mul_le_mul_of_nonneg_right (by linarith) h.fps.le)

lemma sleep_le (h : s.Inv) (hwake : s.now ≤ r.wake) : s.sleep r ≤ 1 / s.fps := by
  have hlast := h.last_at hwake
  refine max_le (one_div_pos.mpr h.fps).le ?_
  rw [← div_le_iff₀ h.fps] at hlast
  rw [add_div]
  linarith

lemma ahead (h : s.Inv) (hlook : s.now ≤ r.look) :
    s.idx r / s.fps ≤ r.look - s.began + LEAD_S := by
  have hidx := h.idx_le hlook
  have hbegan := h.began
  rw [← div_le_iff₀ h.fps] at hidx
  linarith

lemma succeeds (h : s.Inv) (hlook : s.now ≤ r.look) (hagain : s.again r = false)
    (hback : r.look < s.t0 + (s.lastIdx + 2) / s.fps - LEAD_S) : s.idx r = s.lastIdx + 1 := by
  have hidx := h.idx_le hlook
  have hdue : (r.look - s.t0 + LEAD_S) * s.fps < s.lastIdx + 2 := by
    rw [← lt_div_iff₀ h.fps]
    linarith
  have hlt : s.idx r < s.lastIdx + 2 := by exact_mod_cast hidx.trans_lt hdue
  have hgt : s.lastIdx < s.idx r := by simpa [again] using hagain
  omega

/-- A resync moves the origin on, since no more frames have been composed than the index counts. -/
lemma origin_lt (h : s.Inv) (hagain : s.again r = false) (hbehind : s.behind r = true)
    (hresync : r.slack ≤ r.resync) : s.t0 < r.resync - (s.n + 1) / s.fps := by
  have hcount := h.count
  have hgt : s.lastIdx < s.idx r := by simpa [again] using hagain
  have hle : ((s.n : ℚ) + 1) / s.fps ≤ (s.idx r + 1) / s.fps :=
    div_le_div_of_nonneg_right (by exact_mod_cast (by omega : (s.n : ℤ) + 1 ≤ s.idx r + 1)) h.fps.le
  have hlate : -(s.t0 + (s.idx r + 1) / s.fps - r.slack) > 1 := by simpa [behind] using hbehind
  linarith

end Inv

lemma inv_iterate (h : s.Inv) (ht : s.Timed (.iteration r)) (hin : s.InStep r) : (s.iterate r).Inv := by
  obtain ⟨hlook, hwake, hslack, hresync⟩ := ht
  have horigin := h.origin
  have hlook' := h.last_at hlook
  rw [iterate]
  split
  · have hpause : 0 ≤ s.sleep r := le_max_left 0 _
    have hnow : s.now ≤ r.wake + s.sleep r := by linarith
    exact ⟨h.fps, h.count, h.began, horigin.trans hnow, h.last_at hnow⟩
  · rename_i hagain
    have hagain' : s.again r = false := by simpa using hagain
    have hidx := h.idx_le hlook
    have hcount := h.count
    have hgt : s.lastIdx < s.idx r := by simpa [again] using hagain
    have hlater {t : ℚ} (ht : r.look ≤ t) : (s.idx r : ℚ) ≤ (t - s.t0 + LEAD_S) * s.fps :=
      hidx.trans (mul_le_mul_of_nonneg_right (by linarith) h.fps.le)
    split
    · exact ⟨h.fps, show (s.n : ℤ) ≤ s.idx r + 1 by omega, h.began,
        show s.t0 ≤ r.look + 2 by linarith, hlater (by linarith)⟩
    · have hcount' : ((s.n + 1 : ℕ) : ℤ) ≤ s.idx r + 1 := by push_cast; omega
      split
      · rename_i hraises hbehind
        have hmoved := h.origin_lt hagain' hbehind hresync
        have hskipped : (s.idx r : ℚ) ≤ s.n + 1 + LEAD_S * s.fps :=
          hin.skipped (by simp [resyncs, hagain', hraises, hbehind])
        have hshare : (0 : ℚ) ≤ (s.n + 1) / s.fps := div_nonneg (by positivity) h.fps.le
        refine ⟨h.fps, hcount', ?_, ?_, ?_⟩
        · show s.began ≤ r.resync - ((s.n + 1 : ℕ) : ℚ) / s.fps
          push_cast
          linarith [h.began]
        · show r.resync - ((s.n + 1 : ℕ) : ℚ) / s.fps ≤ r.resync
          push_cast
          linarith
        · show (s.idx r : ℚ) ≤ (r.resync - (r.resync - ((s.n + 1 : ℕ) : ℚ) / s.fps) + LEAD_S) * s.fps
          have hcancel : ((s.n + 1 : ℕ) : ℚ) / s.fps * s.fps = s.n + 1 := by
            push_cast
            exact div_mul_cancel₀ _ h.fps.ne'
          rw [sub_sub_cancel, add_mul, hcancel]
          exact hskipped
      · exact ⟨h.fps, hcount', h.began, show s.t0 ≤ r.slack by linarith, hlater hslack⟩

lemma inv_next {s : Pace} {i : Turn} (h : s.Inv) (ht : s.Timed i) (hin : s.InStepAt i) :
    (s.next i).Inv := by
  cases i with
  | change fps now => exact inv_start ht.1
  | iteration r => exact inv_iterate h ht hin

lemma keepsUp {s : Pace} {i : Turn} (h : s.Inv) (ht : s.Timed i) (hin : s.InStepAt i) :
    s.KeepsUpAt i := by
  cases i with
  | change => trivial
  | iteration r =>
    obtain ⟨hlook, hwake, -, -⟩ := ht
    exact ⟨fun _ => h.sleep_le (hlook.trans hwake), fun _ => h.ahead hlook,
      fun hagain hresynced => h.succeeds hlook hagain (hin.back hresynced)⟩

/-- Looking again as soon as the resync is over. -/
def atOnce (s : Pace) : Readings := ⟨s.now, s.now, s.now, s.now, false⟩

lemma sleep_resync (hfps : 0 < s.fps) (h : s.resyncs r = true) :
    (s.iterate r).sleep (s.iterate r).atOnce ≤ 1 / s.fps ↔ s.idx r ≤ s.n + 1 + LEAD_S * s.fps := by
  obtain ⟨⟨hagain, hraises⟩, hbehind⟩ : (s.again r = false ∧ r.raises = false) ∧ s.behind r = true := by
    simpa [resyncs] using h
  have hcancel : (s.n + 1 : ℚ) / s.fps * s.fps = s.n + 1 := div_mul_cancel₀ _ hfps.ne'
  have hsleep : (s.iterate r).sleep (s.iterate r).atOnce =
      max 0 ((s.idx r + 1) / s.fps - (s.n + 1) / s.fps - LEAD_S) := by
    simp only [iterate, hagain, hraises, hbehind, sleep, atOnce, Bool.false_eq_true, if_false, if_true]
    push_cast
    ring_nf
  rw [hsleep, max_le_iff, and_iff_right (one_div_pos.mpr hfps).le, ← sub_div, sub_le_iff_le_add,
    div_le_iff₀ hfps, add_mul, one_div_mul_cancel hfps.ne']
  constructor <;> intro hle <;> linarith

/-- The loop keeps up in every run whose resyncs find it in step; one that finds it out of step has it
sleep for longer than a frame. -/
theorem keeps_up_in_step (fps now : ℚ) (turns : List Turn) :
    (0 < fps → Always (fun s i t => t = next s i) Timed (start fps now) turns →
      Always (fun s i t => t = next s i) InStepAt (start fps now) turns →
        Always (fun s i t => t = next s i) KeepsUpAt (start fps now) turns) ∧
    ∀ (s : Pace) (r : Readings), 0 < s.fps → s.resyncs r = true →
      ((s.iterate r).sleep (s.iterate r).atOnce ≤ 1 / s.fps ↔
        s.idx r ≤ s.n + 1 + LEAD_S * s.fps) := by
  refine ⟨fun hfps htimed hin => ?_, fun s r hfps => sleep_resync hfps⟩
  refine Always.of_safe (C := fun s i => s.Timed i ∧ s.InStepAt i) (I := Inv) ?_ ?_ (inv_start hfps)
    (htimed.and hin)
  · rintro s i t h ⟨ht, hi⟩ rfl
    exact inv_next h ht hi
  · rintro s i h ⟨ht, hi⟩
    exact keepsUp h ht hi

/-- A frame of two seconds, a resync, and the next frame. -/
def slowOnce : List Turn :=
  [.iteration ⟨0, 0, 2, 2, false⟩, .iteration ⟨2, 2, 41 / 20, 41 / 20, false⟩]

theorem keeps_up_slowOnce :
    Always (fun s i t => t = next s i) KeepsUpAt (start 20 0) slowOnce :=
  (keeps_up_in_step 20 0 slowOnce).1 (by decide) (by decide +kernel) (by decide +kernel)

/-- Frames of 1.4 seconds, which skip and make no resync, and one of three seconds, which does: the
picture stands still for 27 frames. -/
def slowThrice : List Turn :=
  [.iteration ⟨0, 0, 7 / 5, 7 / 5, false⟩, .iteration ⟨7 / 5, 7 / 5, 22 / 5, 22 / 5, false⟩,
    .iteration ⟨22 / 5, 22 / 5, 22 / 5, 22 / 5, false⟩]

theorem resync_freezes :
    ¬ ∀ fps now : ℚ, 0 < fps → ∀ turns : List Turn,
      Always (fun s i t => t = next s i) Timed (start fps now) turns →
        Always (fun s i t => t = next s i) KeepsUpAt (start fps now) turns := by
  intro h
  have hkeeps := h 20 0 (by decide) slowThrice (by decide +kernel)
  have hfreezes : ¬ Always (fun s i t => t = next s i) KeepsUpAt (start 20 0) slowThrice := by
    decide +kernel
  exact hfreezes hkeeps

end Pace

end Ledwall.Server.Pacing
