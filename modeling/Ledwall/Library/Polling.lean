import Mathlib.Algebra.Order.Floor.Ring
import Mathlib.Data.Rat.Floor
import Mathlib.Tactic

/-! Waiting by polling: one poll after another until one hits or the deadline has passed. -/

namespace Ledwall.Library.Polling

structure Poll (α : Type) where
  answer : α
  takes : ℚ
  takes_nonneg : 0 ≤ takes

/-- How a wait ends: which poll hit, or which would have been next, and when. -/
inductive Waited
  | hit (k : ℕ) (now : ℚ)
  | late (k : ℕ) (now : ℚ)

section Waiting

variable {α : Type} (hits : α → Bool) (pause deadline : ℚ) (polls : ℕ → Poll α)

/-- The loop, whose turns are polls and pauses, for at most so many turns. -/
def waitFor : ℕ → ℕ → ℚ → Waited
  | 0, k, now => .late k now
  | turns + 1, k, now =>
    if now < deadline then
      if hits (polls k).answer then .hit k (now + (polls k).takes)
      else waitFor turns (k + 1) (now + (polls k).takes + pause)
    else .late k now

/-- As many turns as there can be before the deadline. -/
def turns (now : ℚ) : ℕ := ⌈(deadline - now) / pause⌉₊

/-- The whole loop. -/
def wait (k : ℕ) (now : ℚ) : Waited := waitFor hits pause deadline polls (turns pause deadline now) k now

/-- When the `n`-th poll behind the `k`-th is made, if the ones before it do not hit. -/
def instant (k : ℕ) (now : ℚ) : ℕ → ℚ
  | 0 => now
  | n + 1 => instant k now n + (polls (k + n)).takes + pause

/-- The first poll that hits, in time. -/
def FirstHit (k : ℕ) (now : ℚ) (n : ℕ) : Prop :=
  instant pause polls k now n < deadline ∧ hits (polls (k + n)).answer = true ∧
    ∀ m < n, hits (polls (k + m)).answer = false

/-- The deadline passes before the `n`-th poll, and none of those before it hits. -/
def Expires (k : ℕ) (now : ℚ) (n : ℕ) : Prop :=
  deadline ≤ instant pause polls k now n ∧
    ∀ m < n, instant pause polls k now m < deadline ∧ hits (polls (k + m)).answer = false

end Waiting

section Rules

variable {α : Type} {hits : α → Bool} {pause deadline : ℚ} {polls : ℕ → Poll α} {k n : ℕ} {now : ℚ}

lemma instant_shift (k : ℕ) (now : ℚ) (n : ℕ) :
    instant pause polls (k + 1) (now + (polls k).takes + pause) n =
      instant pause polls k now (n + 1) := by
  induction n with
  | zero => rfl
  | succ n ih =>
    rw [instant, ih, instant, Nat.add_right_comm k 1 n]
    rfl

lemma instant_mono (polls : ℕ → Poll α) (k : ℕ) (now : ℚ) (hp : 0 ≤ pause) :
    Monotone (instant pause polls k now) := by
  apply monotone_nat_of_le_succ
  intro n
  have := (polls (k + n)).takes_nonneg
  rw [instant]
  linarith

lemma instant_const (p : Poll α) (k : ℕ) (now : ℚ) (n : ℕ) :
    instant pause (fun _ => p) k now n = now + n * (p.takes + pause) := by
  induction n with
  | zero => simp [instant]
  | succ n ih =>
    rw [instant, ih]
    push_cast
    ring

lemma turns_succ (hp : 0 < pause) (hlt : now < deadline) : 0 < turns pause deadline now :=
  Nat.ceil_pos.mpr (div_pos (sub_pos.mpr hlt) hp)

lemma turns_next (hp : 0 < pause) {t : ℕ} (ht : turns pause deadline now ≤ t + 1) :
    turns pause deadline (now + (polls k).takes + pause) ≤ t := by
  have htakes := (polls k).takes_nonneg
  apply Nat.ceil_le.mpr
  have hle := Nat.ceil_le.mp ht
  push_cast at hle
  rw [div_le_iff₀ hp] at hle ⊢
  linarith

lemma deadline_of_turns (hp : 0 < pause) (ht : turns pause deadline now ≤ 0) : deadline ≤ now := by
  by_contra hlt
  have := turns_succ hp (not_le.mp hlt)
  omega

lemma FirstHit.succ (hmiss : hits (polls k).answer = false)
    (h : FirstHit hits pause deadline polls (k + 1) (now + (polls k).takes + pause) n) :
    FirstHit hits pause deadline polls k now (n + 1) := by
  obtain ⟨hn, hhits, hfirst⟩ := h
  refine ⟨by rwa [← instant_shift], ?_, ?_⟩
  · rwa [Nat.add_right_comm, Nat.add_assoc] at hhits
  · intro m hm
    cases m with
    | zero => exact hmiss
    | succ m =>
      have := hfirst m (Nat.lt_of_succ_lt_succ hm)
      rwa [Nat.add_right_comm, Nat.add_assoc] at this

lemma Expires.succ (hlt : now < deadline) (hmiss : hits (polls k).answer = false)
    (h : Expires hits pause deadline polls (k + 1) (now + (polls k).takes + pause) n) :
    Expires hits pause deadline polls k now (n + 1) := by
  obtain ⟨hn, hbefore⟩ := h
  refine ⟨by rwa [← instant_shift], ?_⟩
  intro m hm
  cases m with
  | zero => exact ⟨hlt, hmiss⟩
  | succ m =>
    obtain ⟨hlt', hmiss'⟩ := hbefore m (Nat.lt_of_succ_lt_succ hm)
    rw [instant_shift] at hlt'
    rw [Nat.add_right_comm, Nat.add_assoc] at hmiss'
    exact ⟨hlt', hmiss'⟩

/-- What the loop ends with: the first poll that hits in time, or none does and the deadline has
passed. -/
theorem waitFor_spec (hp : 0 < pause) (t : ℕ) : ∀ {k : ℕ} {now : ℚ}, turns pause deadline now ≤ t →
    ∃ n,
      (FirstHit hits pause deadline polls k now n ∧ waitFor hits pause deadline polls t k now =
        .hit (k + n) (instant pause polls k now n + (polls (k + n)).takes)) ∨
      (Expires hits pause deadline polls k now n ∧
        waitFor hits pause deadline polls t k now = .late (k + n) (instant pause polls k now n)) := by
  induction t with
  | zero =>
    intro k now ht
    exact ⟨0, .inr ⟨⟨deadline_of_turns hp ht, fun m hm => absurd hm (Nat.not_lt_zero m)⟩, rfl⟩⟩
  | succ t ih =>
    intro k now ht
    rw [waitFor]
    by_cases hlt : now < deadline
    · rw [if_pos hlt]
      by_cases hhit : hits (polls k).answer = true
      · rw [if_pos hhit]
        exact ⟨0, .inl ⟨⟨hlt, hhit, fun m hm => absurd hm (Nat.not_lt_zero m)⟩, rfl⟩⟩
      · have hmiss : hits (polls k).answer = false := by simpa using hhit
        rw [if_neg hhit]
        obtain ⟨n, ⟨hfirst, heq⟩ | ⟨hexp, heq⟩⟩ := ih (turns_next hp ht)
        · refine ⟨n + 1, .inl ⟨hfirst.succ hmiss, ?_⟩⟩
          rw [heq, instant_shift, Nat.add_right_comm, Nat.add_assoc]
        · refine ⟨n + 1, .inr ⟨hexp.succ hlt hmiss, ?_⟩⟩
          rw [heq, instant_shift, Nat.add_right_comm, Nat.add_assoc]
    · rw [if_neg hlt]
      exact ⟨0, .inr ⟨⟨not_lt.mp hlt, fun m hm => absurd hm (Nat.not_lt_zero m)⟩, rfl⟩⟩

theorem wait_spec (hits : α → Bool) {pause : ℚ} (hp : 0 < pause) (deadline : ℚ) (polls : ℕ → Poll α)
    (k : ℕ) (now : ℚ) : ∃ n,
      (FirstHit hits pause deadline polls k now n ∧ wait hits pause deadline polls k now =
        .hit (k + n) (instant pause polls k now n + (polls (k + n)).takes)) ∨
      (Expires hits pause deadline polls k now n ∧
        wait hits pause deadline polls k now = .late (k + n) (instant pause polls k now n)) :=
  waitFor_spec hp _ le_rfl

lemma FirstHit.unique {m : ℕ} (h : FirstHit hits pause deadline polls k now n)
    (h' : FirstHit hits pause deadline polls k now m) : n = m := by
  rcases lt_trichotomy n m with hlt | heq | hgt
  · have := h'.2.2 n hlt
    rw [h.2.1] at this
    cases this
  · exact heq
  · have := h.2.2 m hgt
    rw [h'.2.1] at this
    cases this

lemma Expires.not_firstHit (hp : 0 ≤ pause) {m : ℕ} (h : Expires hits pause deadline polls k now n) :
    ¬ FirstHit hits pause deadline polls k now m := by
  rintro ⟨hlt, hhit, -⟩
  rcases lt_or_ge m n with hmn | hnm
  · have := (h.2 m hmn).2
    rw [hhit] at this
    cases this
  · have hmono := instant_mono polls k now hp hnm
    have := h.1
    linarith

lemma Expires.unique {m : ℕ} (h : Expires hits pause deadline polls k now n)
    (h' : Expires hits pause deadline polls k now m) : n = m := by
  rcases lt_trichotomy n m with hlt | heq | hgt
  · exact absurd (h'.2 n hlt).1 (not_lt.mpr h.1)
  · exact heq
  · exact absurd (h.2 m hgt).1 (not_lt.mpr h'.1)

theorem wait_hit_iff (hp : 0 < pause) {j : ℕ} {t : ℚ} :
    wait hits pause deadline polls k now = .hit j t ↔
      ∃ n, FirstHit hits pause deadline polls k now n ∧ j = k + n ∧
        t = instant pause polls k now n + (polls (k + n)).takes := by
  obtain ⟨n, ⟨hfirst, heq⟩ | ⟨hexp, heq⟩⟩ := wait_spec hits hp deadline polls k now
  · rw [heq]
    constructor
    · intro h
      cases h
      exact ⟨n, hfirst, rfl, rfl⟩
    · rintro ⟨m, hm, rfl, rfl⟩
      rw [hfirst.unique hm]
  · rw [heq]
    constructor
    · intro h
      cases h
    · rintro ⟨m, hm, -⟩
      exact absurd hm (hexp.not_firstHit hp.le)

theorem wait_late_iff (hp : 0 < pause) {j : ℕ} {t : ℚ} :
    wait hits pause deadline polls k now = .late j t ↔
      ∃ n, Expires hits pause deadline polls k now n ∧ j = k + n ∧ t = instant pause polls k now n := by
  obtain ⟨n, ⟨hfirst, heq⟩ | ⟨hexp, heq⟩⟩ := wait_spec hits hp deadline polls k now
  · rw [heq]
    constructor
    · intro h
      cases h
    · rintro ⟨m, hm, -⟩
      exact absurd hfirst (hm.not_firstHit hp.le)
  · rw [heq]
    constructor
    · intro h
      cases h
      exact ⟨n, hexp, rfl, rfl⟩
    · rintro ⟨m, hm, rfl, rfl⟩
      rw [hexp.unique hm]

end Rules

end Ledwall.Library.Polling
