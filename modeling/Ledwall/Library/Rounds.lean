import Mathlib.Data.List.Chain
import Mathlib.Data.List.Perm.Basic
import Mathlib.Tactic

/-! Sequences dealt in rounds: each round is the pool in some order. -/

namespace Ledwall.Library.Rounds

variable {α : Type*} {pool xs ys r : List α} {x : α}

/-- A number of whole rounds. -/
def Dealt (pool xs : List α) : Prop := ∃ rounds : List (List α), (∀ r ∈ rounds, r.Perm pool) ∧ xs = rounds.flatten

/-- Rounds, the last of which may not be over. -/
def Dealing (pool xs : List α) : Prop := ∃ ys, Dealt pool ys ∧ xs <+: ys

lemma Dealt.nil : Dealt pool [] := ⟨[], by simp, rfl⟩

lemma Dealt.append (h : Dealt pool xs) (hr : r.Perm pool) : Dealt pool (xs ++ r) := by
  obtain ⟨rounds, hperm, rfl⟩ := h
  refine ⟨rounds ++ [r], ?_, by simp⟩
  intro s hs
  rcases List.mem_append.mp hs with hs | hs
  · exact hperm s hs
  · exact List.mem_singleton.mp hs ▸ hr

lemma Dealt.dealing (h : Dealt pool (xs ++ ys)) : Dealing pool xs := ⟨_, h, List.prefix_append xs ys⟩

lemma Dealing.first (h : Dealing pool xs) (hlen : pool.length ≤ xs.length) (hpos : 0 < pool.length) :
    (xs.take pool.length).Perm pool := by
  obtain ⟨ys, ⟨rounds, hperm, rfl⟩, hprefix⟩ := h
  cases rounds with
  | nil =>
    have := hprefix.length_le
    simp only [List.flatten_nil, List.length_nil] at this
    omega
  | cons r rest =>
    have hr := hperm r List.mem_cons_self
    have htake : xs.take pool.length = r := by
      rw [List.prefix_iff_eq_take.mp hprefix, List.take_take, Nat.min_eq_left hlen, List.flatten_cons,
        ← hr.length_eq, List.take_left]
    rw [htake]
    exact hr

/-- No element stands next to itself. -/
def Apart (xs : List α) : Prop := xs.IsChain (· ≠ ·)

lemma Apart.nodup (h : xs.Nodup) : Apart xs := List.Pairwise.isChain h

lemma apart_append_iff : Apart (xs ++ ys) ↔
    Apart xs ∧ Apart ys ∧ ∀ x ∈ xs.getLast?, ∀ y ∈ ys.head?, x ≠ y :=
  List.isChain_append

lemma Apart.left (h : Apart (xs ++ ys)) : Apart xs := (apart_append_iff.mp h).1

end Ledwall.Library.Rounds
