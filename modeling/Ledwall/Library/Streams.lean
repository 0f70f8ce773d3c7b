import Mathlib.Data.List.Basic

/-! Stages of a stream, each of which may wait for the one before it and the one behind it. -/

namespace Ledwall.Library.Streams

variable {σ α β : Type*}

/-- Whether a beat on offer is taken, what is given, and the state after the cycle. -/
structure Stage (σ α β : Type*) where
  takes : σ → Option α → Bool → Bool
  gives : σ → Option α → Option β
  next : σ → Option α → Bool → σ

/-- Whether the beat to come is on offer in a cycle, and whether the consumer is ready. -/
structure Tick where
  offer : Bool
  ready : Bool

structure Line (σ α β : Type*) where
  state : σ
  pending : List α
  outs : List β := []

namespace Line

variable (m : Stage σ α β) (w : Line σ α β) (t : Tick)

def sink : Option α := if t.offer then w.pending.head? else none

def tick : Line σ α β where
  state := m.next w.state (w.sink t) t.ready
  pending := if (w.sink t).isSome && m.takes w.state (w.sink t) t.ready then w.pending.tail
    else w.pending
  outs := w.outs ++ if t.ready then (m.gives w.state (w.sink t)).toList else []

def run (ts : List Tick) : Line σ α β := ts.foldl (tick m) w

lemma run_cons (t : Tick) (ts : List Tick) : w.run m (t :: ts) = (w.tick m t).run m ts := rfl

lemma run_append (ts us : List Tick) : w.run m (ts ++ us) = (w.run m ts).run m us :=
  List.foldl_append

end Line

/-- From `s`, the stage makes `ys` of `xs`: it gives nothing else, and from wherever it has got to it
can still give the rest. -/
def Stage.Makes (m : Stage σ α β) (s : σ) (xs : List α) (ys : List β) : Prop :=
  ∀ ts, (Line.run m ⟨s, xs, []⟩ ts).outs <+: ys ∧
    ∃ more, (Line.run m ⟨s, xs, []⟩ (ts ++ more)).outs = ys

/-- What a stage owes, from a state and what is to come, and a bound on the cycles that it takes when
nothing waits. -/
structure Owing (m : Stage σ α β) (owes : σ → List α → List β) (work : σ → List α → ℕ) : Prop where
  tick (w : Line σ α β) (t : Tick) :
    (w.tick m t).outs ++ owes (w.tick m t).state (w.tick m t).pending =
      w.outs ++ owes w.state w.pending
  done {s xs} : work s xs = 0 → owes s xs = []
  less (w : Line σ α β) : work w.state w.pending ≠ 0 →
    work (w.tick m ⟨true, true⟩).state (w.tick m ⟨true, true⟩).pending < work w.state w.pending

namespace Owing

variable {m : Stage σ α β} {owes : σ → List α → List β} {work : σ → List α → ℕ}

lemma run (h : Owing m owes work) (ts : List Tick) (w : Line σ α β) :
    (w.run m ts).outs ++ owes (w.run m ts).state (w.run m ts).pending =
      w.outs ++ owes w.state w.pending := by
  induction ts generalizing w with
  | nil => rfl
  | cons t ts ih =>
    rw [Line.run_cons, ih]
    exact h.tick w t

lemma drain (h : Owing m owes work) (n : ℕ) (w : Line σ α β) (hn : work w.state w.pending ≤ n) :
    ∃ ts, owes (w.run m ts).state (w.run m ts).pending = [] := by
  induction n generalizing w with
  | zero => exact ⟨[], h.done (Nat.le_zero.mp hn)⟩
  | succ n ih =>
    by_cases hw : work w.state w.pending = 0
    · exact ⟨[], h.done hw⟩
    · have hless := h.less w hw
      obtain ⟨ts, hts⟩ := ih (w.tick m ⟨true, true⟩) (by omega)
      exact ⟨⟨true, true⟩ :: ts, hts⟩

theorem makes (h : Owing m owes work) (s : σ) (xs : List α) : m.Makes s xs (owes s xs) := by
  intro ts
  have hrun := h.run ts ⟨s, xs, []⟩
  refine ⟨⟨_, hrun⟩, ?_⟩
  obtain ⟨more, hmore⟩ := h.drain _ (Line.run m ⟨s, xs, []⟩ ts) (Nat.le_refl _)
  have hall := h.run (ts ++ more) ⟨s, xs, []⟩
  rw [Line.run_append, hmore, List.append_nil, ← Line.run_append] at hall
  exact ⟨more, hall⟩

end Owing

theorem Stage.Makes.unique {m : Stage σ α β} {s : σ} {xs : List α} {ys zs : List β}
    (hy : m.Makes s xs ys) (hz : m.Makes s xs zs) : ys = zs := by
  obtain ⟨more, hmore⟩ := (hy []).2
  obtain ⟨more', hmore'⟩ := (hz []).2
  have h₁ : ys <+: zs := hmore ▸ (hz ([] ++ more)).1
  have h₂ : zs <+: ys := hmore' ▸ (hy ([] ++ more')).1
  exact h₁.eq_of_length_le h₂.length_le

/-- A stage whose output is settled has made it if it makes anything. -/
theorem Owing.makes_iff {m : Stage σ α β} {owes : σ → List α → List β} {work : σ → List α → ℕ}
    (h : Owing m owes work) {s : σ} {xs : List α} {ys : List β} :
    m.Makes s xs ys ↔ ys = owes s xs := by
  constructor
  · intro hy
    exact hy.unique (h.makes s xs)
  · rintro rfl
    exact h.makes s xs

end Ledwall.Library.Streams
