import Mathlib.Tactic

/-! Packets cut out of a stream of beats, one of which ends each packet. -/

namespace Ledwall.Library.Packets

variable {β : Type*}

structure Cut (β : Type*) where
  packets : List (List β)
  rest : List β

variable (last : β → Bool)

def Cut.push (c : Cut β) (b : β) : Cut β :=
  if last b then ⟨c.packets ++ [c.rest ++ [b]], []⟩ else ⟨c.packets, c.rest ++ [b]⟩

def cut (bs : List β) : Cut β := bs.foldl (Cut.push last) ⟨[], []⟩

/-- A whole packet: its end is its one last beat. -/
def IsPacket (p : List β) : Prop :=
  ∃ front e, p = front ++ [e] ∧ (∀ b ∈ front, last b = false) ∧ last e = true

variable {last} {bs : List β} {b : β} {c : Cut β}

lemma Cut.push_last (h : last b = true) : c.push last b = ⟨c.packets ++ [c.rest ++ [b]], []⟩ := by
  rw [Cut.push, if_pos h]

lemma Cut.push_mid (h : last b = false) : c.push last b = ⟨c.packets, c.rest ++ [b]⟩ := by
  rw [Cut.push, if_neg (by simp [h])]

lemma cut_snoc (bs : List β) (b : β) : cut last (bs ++ [b]) = (cut last bs).push last b := by
  simp only [cut, List.foldl_append, List.foldl_cons, List.foldl_nil]

lemma cut_mid (h : ∀ b ∈ bs, last b = false) : cut last bs = ⟨[], bs⟩ := by
  induction bs using List.reverseRecOn with
  | nil => rfl
  | append_singleton bs b ih =>
    rw [cut_snoc, ih fun a ha => h a (List.mem_append_left _ ha), Cut.push_mid (h b (by simp))]

lemma IsPacket.cut {p : List β} (h : IsPacket last p) : cut last p = ⟨[p], []⟩ := by
  obtain ⟨front, e, rfl, hfront, he⟩ := h
  rw [cut_snoc, cut_mid hfront, Cut.push_last he]
  rfl

lemma isPacket_range {n : ℕ} {g : ℕ → β} (hn : 0 < n) (h : ∀ k, last (g k) = decide (k + 1 = n)) :
    IsPacket last ((List.range n).map g) := by
  obtain ⟨n, rfl⟩ := Nat.exists_eq_succ_of_ne_zero hn.ne'
  refine ⟨(List.range n).map g, g n, ?_, ?_, ?_⟩
  · rw [List.range_succ, List.map_append]
    rfl
  · intro b hb
    obtain ⟨k, hk, rfl⟩ := List.mem_map.mp hb
    rw [h, decide_eq_false_iff_not]
    have := List.mem_range.mp hk
    omega
  · rw [h]
    exact decide_eq_true rfl

lemma prefix_snoc {q p : List β} (h : q <+: p) (b : β) : q <+: p ++ [b] ∧ q ≠ p ++ [b] := by
  refine ⟨h.trans (List.prefix_append p [b]), ?_⟩
  rintro rfl
  have hle := h.length_le
  rw [List.length_append, List.length_singleton] at hle
  omega

end Ledwall.Library.Packets
