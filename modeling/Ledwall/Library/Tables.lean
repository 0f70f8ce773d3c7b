import Mathlib.Tactic

/-! Tables with an integer primary key, one more than the largest for a new row, and references from
the rows of one into another that nothing enforces. -/

namespace Ledwall.Library.Tables

class Keyed (α : Type*) where
  key : α → ℤ

export Keyed (key)

/-- No two rows have the same key. -/
structure Table (α : Type*) [Keyed α] where
  rows : List α
  nodup : (rows.map key).Nodup

/-- Every row of `rows` refers to a row of `t`. -/
def Refers {α β : Type*} [Keyed α] (ref : β → ℤ) (rows : List β) (t : Table α) : Prop :=
  ∀ b ∈ rows, ∃ a ∈ t.rows, key a = ref b

variable {α β : Type*} [Keyed α] {ref : β → ℤ} {rows : List β}

namespace Table

variable (t : Table α)

def empty : Table α := ⟨[], List.nodup_nil⟩

def get (k : ℤ) : Option α := t.rows.find? fun a => key a = k

def fresh : ℤ := (t.rows.map key).foldr max 0 + 1

lemma key_lt_fresh {t : Table α} {a : α} (h : a ∈ t.rows) : key a < t.fresh := by
  rw [fresh]
  have hle : ∀ keys : List ℤ, key a ∈ keys → key a ≤ keys.foldr max 0 := by
    intro keys hk
    induction keys with
    | nil => cases hk
    | cons k keys ih =>
      rw [List.foldr_cons]
      rcases List.mem_cons.mp hk with hk | hk
      · exact hk ▸ le_max_left _ _
      · exact (ih hk).trans (le_max_right _ _)
  exact Int.lt_add_one_of_le (hle _ (List.mem_map_of_mem h))

/-- `row` builds the new row from its key. -/
def insert (row : ℤ → α) (hrow : ∀ k, key (row k) = k) : Table α where
  rows := t.rows ++ [row t.fresh]
  nodup := by
    rw [List.map_append, List.nodup_append]
    refine ⟨t.nodup, List.nodup_singleton _, ?_⟩
    intro k hk k' hk'
    obtain ⟨a, ha, rfl⟩ := List.mem_map.mp hk
    rw [List.map_singleton, List.mem_singleton, hrow] at hk'
    rw [hk']
    exact (key_lt_fresh ha).ne

/-- `f` leaves a row's key alone. -/
def update (p : α → Bool) (f : α → α) (hf : ∀ a, key (f a) = key a) : Table α where
  rows := t.rows.map fun a => if p a then f a else a
  nodup := by
    have hkeys : (key ∘ fun a => if p a = true then f a else a) = (key : α → ℤ) := by
      funext a
      rw [Function.comp_apply]
      split
      · exact hf a
      · rfl
    rw [List.map_map, hkeys]
    exact t.nodup

def erase (p : α → Bool) : Table α where
  rows := t.rows.filter fun a => !p a
  nodup := t.nodup.sublist (List.filter_sublist.map key)

variable {t} {k : ℤ} {row : ℤ → α} {hrow : ∀ k, key (row k) = k} {p : α → Bool} {f : α → α}
  {hf : ∀ a, key (f a) = key a} {a : α}

lemma get_some (h : t.get k = some a) : a ∈ t.rows ∧ key a = k :=
  ⟨List.mem_of_find?_eq_some h, by simpa using List.find?_some h⟩

lemma get_none (h : t.get k = none) : ∀ a ∈ t.rows, key a ≠ k := by
  intro a ha
  simpa using List.find?_eq_none.mp h a ha

lemma eq_of_key {b : α} (ha : a ∈ t.rows) (hb : b ∈ t.rows) (h : key a = key b) : a = b :=
  List.inj_on_of_nodup_map t.nodup ha hb h

@[simp] lemma mem_insert : a ∈ (t.insert row hrow).rows ↔ a ∈ t.rows ∨ a = row t.fresh := by
  simp [insert]

@[simp] lemma mem_update : a ∈ (t.update p f hf).rows ↔
    ∃ b ∈ t.rows, (if p b then f b else b) = a := by
  simp [update]

@[simp] lemma mem_erase : a ∈ (t.erase p).rows ↔ a ∈ t.rows ∧ p a = false := by
  simp [erase]

end Table

/-! ### References -/

section References

variable {t : Table α}

lemma Refers.nil : Refers ref [] t := by
  intro b hb
  cases hb

lemma Refers.append_iff {rows' : List β} :
    Refers ref (rows ++ rows') t ↔ Refers ref rows t ∧ Refers ref rows' t := by
  simp only [Refers, List.mem_append, or_imp, forall_and]

lemma Refers.subset {rows' : List β} (h : Refers ref rows t) (hsub : ∀ b ∈ rows', b ∈ rows) :
    Refers ref rows' t := by
  intro b hb
  exact h b (hsub b hb)

lemma Refers.map {g : β → β} (h : Refers ref rows t)
    (hg : ∀ b ∈ rows, ref (g b) = ref b ∨ ∃ a ∈ t.rows, key a = ref (g b)) :
    Refers ref (rows.map g) t := by
  intro c hc
  obtain ⟨b, hb, rfl⟩ := List.mem_map.mp hc
  rcases hg b hb with hsame | hother
  · rw [hsame]
    exact h b hb
  · exact hother

lemma Refers.insert (h : Refers ref rows t) (row : ℤ → α) (hrow : ∀ k, key (row k) = k) :
    Refers ref rows (t.insert row hrow) := by
  intro b hb
  obtain ⟨a, ha, hkey⟩ := h b hb
  exact ⟨a, Table.mem_insert.mpr (.inl ha), hkey⟩

lemma Refers.update (h : Refers ref rows t) (p : α → Bool) (f : α → α)
    (hf : ∀ a, key (f a) = key a) : Refers ref rows (t.update p f hf) := by
  intro b hb
  obtain ⟨a, ha, hkey⟩ := h b hb
  refine ⟨_, Table.mem_update.mpr ⟨a, ha, rfl⟩, ?_⟩
  split
  · rw [hf, hkey]
  · exact hkey

lemma Refers.erase_iff (h : Refers ref rows t) (p : α → Bool) :
    Refers ref rows (t.erase p) ↔ ∀ b ∈ rows, ∀ a ∈ t.rows, key a = ref b → p a = false := by
  constructor
  · intro herase b hb a ha hkey
    obtain ⟨a', ha', hkey'⟩ := herase b hb
    obtain ⟨ha', hp⟩ := Table.mem_erase.mp ha'
    rw [Table.eq_of_key ha ha' (hkey.trans hkey'.symm)]
    exact hp
  · intro hfree b hb
    obtain ⟨a, ha, hkey⟩ := h b hb
    exact ⟨a, Table.mem_erase.mpr ⟨ha, hfree b hb a ha hkey⟩, hkey⟩

lemma Refers.ne_fresh (h : Refers ref rows t) : ∀ b ∈ rows, ref b ≠ t.fresh := by
  intro b hb
  obtain ⟨a, ha, hkey⟩ := h b hb
  rw [← hkey]
  exact (Table.key_lt_fresh ha).ne

end References

end Ledwall.Library.Tables
