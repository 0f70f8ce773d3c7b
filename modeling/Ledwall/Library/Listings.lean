import Mathlib.Data.List.AList
import Mathlib.Data.List.Sort
import Mathlib.Tactic

/-! Finite maps that are listed in the order of their keys, and written one key after another. -/

namespace Ledwall.Library.Listings

variable {α β ε : Type*} [DecidableEq α]

section Listing

variable [LE α] [DecidableLE α] (m : AList fun _ : α => β)

def listed : List (α × β) :=
  (m.keys.insertionSort (· ≤ ·)).filterMap fun a => (m.lookup a).map fun b => (a, b)

variable {m} {a : α} {b : β}

lemma mem_listed : (a, b) ∈ listed m ↔ m.lookup a = some b := by
  rw [listed, List.mem_filterMap]
  constructor
  · rintro ⟨a', -, h⟩
    obtain ⟨b', hb, he⟩ := Option.map_eq_some_iff.mp h
    obtain ⟨rfl, rfl⟩ := Prod.mk.inj he
    exact hb
  · intro h
    refine ⟨a, ?_, by rw [h, Option.map_some]⟩
    rw [List.mem_insertionSort, ← AList.mem_keys, ← AList.lookup_isSome, h]
    rfl

lemma listed_nodup (m : AList fun _ : α => β) : (listed m).Nodup := by
  apply List.Nodup.filterMap
  · intro a a' p hp hp'
    obtain ⟨b, -, rfl⟩ := Option.map_eq_some_iff.mp hp
    obtain ⟨b', -, he⟩ := Option.map_eq_some_iff.mp hp'
    exact (Prod.mk.inj he).1.symm
  · exact (List.perm_insertionSort _ _).nodup_iff.mpr m.keys_nodup

end Listing

section Assigning

variable (k : ε → α) (v : ε → β)

/-- A later element takes the place of an earlier one of the same key. -/
def assignAll (m : AList fun _ : α => β) (es : List ε) : AList fun _ : α => β :=
  es.foldl (fun m e => m.insert (k e) (v e)) m

variable {k v} {m : AList fun _ : α => β} {es : List ε} {a : α} {b : β} {e : ε}

lemma lookup_assignAll_of_ne (h : ∀ e ∈ es, k e ≠ a) :
    (assignAll k v m es).lookup a = m.lookup a := by
  induction es generalizing m with
  | nil => rfl
  | cons e es ih =>
    obtain ⟨he, hes⟩ := List.forall_mem_cons.mp h
    change (assignAll k v (m.insert (k e) (v e)) es).lookup a = _
    rw [ih hes, AList.lookup_insert_ne he.symm]

lemma lookup_assignAll (hagree : ∀ e ∈ es, ∀ e' ∈ es, k e = k e' → v e = v e') (he : e ∈ es) :
    (assignAll k v m es).lookup (k e) = some (v e) := by
  induction es generalizing m e with
  | nil => cases he
  | cons e' es ih =>
    change (assignAll k v (m.insert (k e') (v e')) es).lookup (k e) = _
    have htail : ∀ x ∈ es, ∀ y ∈ es, k x = k y → v x = v y := fun x hx y hy =>
      hagree x (List.mem_cons_of_mem e' hx) y (List.mem_cons_of_mem e' hy)
    by_cases hlast : ∃ x ∈ es, k x = k e
    · obtain ⟨x, hx, hxk⟩ := hlast
      rw [← hxk, ih htail hx]
      exact congrArg some (hagree x (List.mem_cons_of_mem e' hx) e he hxk)
    · rw [lookup_assignAll_of_ne fun x hx hxk => hlast ⟨x, hx, hxk⟩]
      rcases List.mem_cons.mp he with rfl | he
      · exact AList.lookup_insert _
      · exact absurd ⟨e, he, rfl⟩ hlast

lemma exists_of_lookup_assignAll (h : (assignAll k v m es).lookup a = some b) :
    m.lookup a = some b ∨ ∃ e ∈ es, k e = a ∧ v e = b := by
  induction es generalizing m with
  | nil => exact .inl h
  | cons e es ih =>
    rcases ih (m := m.insert (k e) (v e)) h with hm | ⟨x, hx, hxk⟩
    · by_cases he : a = k e
      · subst he
        rw [AList.lookup_insert] at hm
        exact .inr ⟨e, List.mem_cons_self, rfl, Option.some.inj hm⟩
      · rw [AList.lookup_insert_ne he] at hm
        exact .inl hm
    · exact .inr ⟨x, List.mem_cons_of_mem e hx, hxk⟩

end Assigning

end Ledwall.Library.Listings
