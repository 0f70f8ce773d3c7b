import Mathlib.Tactic

/-! A queue kept in a ring of any depth, with a write and a read pointer that wrap at its end. -/

namespace Ledwall.Library.Rings

variable {α : Type*}

def bump (depth p : ℕ) : ℕ := if p = depth - 1 then 0 else p + 1

/-- The slots from the read pointer on hold the queue, oldest first. -/
structure Holds (depth : ℕ) (mem : ℕ → α) (w r : ℕ) (q : List α) : Prop where
  room : q.length ≤ depth
  read_lt : r < depth
  write : w = (r + q.length) % depth
  slots : ∀ k (hk : k < q.length), mem ((r + k) % depth) = q[k]

variable {depth w r p : ℕ} {mem : ℕ → α} {q : List α} {x : α}

theorem bump_eq (h : p < depth) : bump depth p = (p + 1) % depth := by
  rw [bump]
  split
  · next hp =>
    rw [hp, Nat.sub_add_cancel (by omega), Nat.mod_self]
  · rw [Nat.mod_eq_of_lt]
    omega

theorem bump_lt (h : p < depth) : bump depth p < depth := by
  rw [bump_eq h]
  exact Nat.mod_lt _ (Nat.zero_lt_of_lt h)

theorem Holds.empty (h : p < depth) (mem : ℕ → α) : Holds depth mem p p [] := by
  refine ⟨Nat.zero_le _, h, (Nat.mod_eq_of_lt h).symm, ?_⟩
  intro k hk
  cases hk

theorem Holds.write_lt (h : Holds depth mem w r q) : w < depth := by
  rw [h.write]
  exact Nat.mod_lt _ (Nat.zero_lt_of_lt h.read_lt)

theorem Holds.head (h : Holds depth mem w r (x :: q)) : mem r = x := by
  have := h.slots 0 (by simp)
  rwa [Nat.add_zero, Nat.mod_eq_of_lt h.read_lt] at this

theorem Holds.pop (h : Holds depth mem w r (x :: q)) : Holds depth mem w (bump depth r) q := by
  have hroom := h.room
  rw [List.length_cons] at hroom
  refine ⟨by omega, bump_lt h.read_lt, ?_, ?_⟩
  · rw [h.write, bump_eq h.read_lt, List.length_cons, Nat.mod_add_mod, Nat.add_assoc,
      Nat.add_comm 1]
  · intro k hk
    have := h.slots (k + 1) (by rw [List.length_cons]; omega)
    rw [bump_eq h.read_lt, Nat.mod_add_mod, Nat.add_assoc, Nat.add_comm 1, this]
    rfl

theorem Holds.push (h : Holds depth mem w r q) (hroom : q.length < depth) (x : α) :
    Holds depth (Function.update mem w x) (bump depth w) r (q ++ [x]) := by
  have hlen : (q ++ [x]).length = q.length + 1 := by simp
  refine ⟨by omega, h.read_lt, ?_, ?_⟩
  · rw [bump_eq h.write_lt, h.write, Nat.mod_add_mod, hlen, Nat.add_assoc]
  · intro k hk
    rcases Nat.lt_or_ge k q.length with hlt | hge
    · -- two places of the queue are two slots of the ring
      have hne : (r + k) % depth ≠ w := by
        rw [h.write]
        intro heq
        have hmod : r + k ≡ r + q.length [MOD depth] := heq
        have := Nat.ModEq.eq_of_lt_of_lt (Nat.ModEq.add_left_cancel' r hmod) (by omega) hroom
        omega
      rw [Function.update_of_ne hne, h.slots k hlt, List.getElem_append_left hlt]
    · have hk : k = q.length := by omega
      subst hk
      rw [← h.write, Function.update_self, List.getElem_concat_length rfl]

end Ledwall.Library.Rings
