import Ledwall.Values.PushRoundTrip
import Ledwall.Values.TableRuns

/-! A push onto a table that holds other pushes' keys: it takes effect where the keys of all of them
fit together. -/

namespace Ledwall.Values

open Ledwall.Wire

namespace ValueTable

variable {t : ValueTable} {key val k : List Byte} {now : ℤ} {slots : List Value}

def keys (t : ValueTable) : List (List Byte) := t.slots.map (·.key)

lemma keys_length (t : ValueTable) : t.keys.length = t.slots.length := List.length_map _

lemma text_of_not_mem (h : k ∉ t.keys) : t.text k = ascii "-" := by
  have hget : t.get k = none := by
    apply List.find?_eq_none.mpr
    intro s hs hk
    exact h (List.mem_map.mpr ⟨s, hs, of_decide_eq_true hk⟩)
  rw [text, hget]

lemma find_storeAt_of_ne (h : k ≠ key) :
    (storeAt key val now slots).find? (·.key = k) = slots.find? (·.key = k) := by
  induction slots with
  | nil => rfl
  | cons s slots ih =>
    rw [storeAt]
    split
    · rename_i hs
      have hk : ¬ s.key = k := fun h' => h (h'.symm.trans hs)
      have hstored : ¬ (s.store val now).key = k := hk
      rw [List.find?_cons_of_neg (by simpa using hstored), List.find?_cons_of_neg (by simpa using hk)]
    · by_cases hk : s.key = k
      · rw [List.find?_cons_of_pos (by simpa using hk), List.find?_cons_of_pos (by simpa using hk)]
      · rw [List.find?_cons_of_neg (by simpa using hk), List.find?_cons_of_neg (by simpa using hk)]
        exact ih

variable (val now) in
lemma find_storeAt_self (h : key ∈ slots.map (·.key)) :
    ∃ s, (storeAt key val now slots).find? (·.key = key) = some s ∧ s.val = val.take VAL_LEN := by
  induction slots with
  | nil => cases h
  | cons s slots ih =>
    rw [storeAt]
    split
    · rename_i hs
      refine ⟨s.store val now, ?_, rfl⟩
      exact List.find?_cons_of_pos (decide_eq_true hs)
    · rename_i hs
      rw [List.find?_cons_of_neg (by simpa using hs)]
      apply ih
      rcases List.mem_cons.mp h with rfl | h
      · exact absurd rfl hs
      · exact h

lemma any_key_iff : t.slots.any (·.key = key) = true ↔ key ∈ t.keys := by
  simp [keys]

lemma set_of_mem (h : key ∈ t.keys) : (t.set key val now).slots = storeAt key val now t.slots := by
  rw [set, if_pos (any_key_iff.mpr h)]

/-- A slot is free, and the key is one that can be stored. -/
def Takes (t : ValueTable) (key : List Byte) : Prop :=
  t.slots.length < MAX_VALUES ∧ key ≠ [] ∧ key.length ≤ KEY_LEN

variable (val now) in
lemma set_of_takes (h : key ∉ t.keys) (htakes : t.Takes key) :
    ∃ s : Value, (t.set key val now).slots = t.slots ++ [s] ∧ s.key = key ∧ s.val = val.take VAL_LEN := by
  have hany : ¬ t.slots.any (·.key = key) = true := mt any_key_iff.mp h
  rw [set, if_neg hany, dif_pos (show _ ∧ _ from htakes)]
  exact ⟨_, rfl, rfl, rfl⟩

lemma set_of_refused (h : key ∉ t.keys) (htakes : ¬ t.Takes key) :
    (t.set key val now).slots = t.slots := by
  have hany : ¬ t.slots.any (·.key = key) = true := mt any_key_iff.mp h
  rw [set, if_neg hany, dif_neg (show ¬ (_ ∧ _) from htakes)]

variable (val now) in
lemma keys_set (h : key ∈ t.keys ∨ t.Takes key) :
    (t.set key val now).keys = if key ∈ t.keys then t.keys else t.keys ++ [key] := by
  split
  · rename_i hk
    rw [keys, set_of_mem hk, storeAt_keys, keys]
  · rename_i hk
    obtain ⟨s, hs, hkey, -⟩ := set_of_takes val now hk (h.resolve_left hk)
    rw [keys, hs, List.map_append, List.map_singleton, hkey, keys]

lemma text_set_of_ne (h : k ≠ key) : (t.set key val now).text k = t.text k := by
  have hget : (t.set key val now).get k = t.get k := by
    by_cases hk : key ∈ t.keys
    · rw [get, set_of_mem hk, find_storeAt_of_ne h, get]
    by_cases htakes : t.Takes key
    · obtain ⟨s, hs, hkey, -⟩ := set_of_takes val now hk htakes
      have hlast : ¬ s.key = k := fun h' => h (h'.symm.trans hkey)
      rw [get, hs, List.find?_append, List.find?_cons_of_neg (by simpa using hlast), List.find?_nil,
        Option.or_none, get]
    · rw [get, set_of_refused hk htakes, get]
  rw [text, hget, text]

lemma text_set_self (h : key ∈ t.keys ∨ t.Takes key) (hne : val ≠ []) (hlen : val.length ≤ VAL_LEN) :
    (t.set key val now).text key = val := by
  have hget : ∃ s, (t.set key val now).get key = some s ∧ s.val = val := by
    by_cases hk : key ∈ t.keys
    · obtain ⟨s, hs, hval⟩ := find_storeAt_self val now hk
      rw [List.take_of_length_le hlen] at hval
      exact ⟨s, by rw [get, set_of_mem hk, hs], hval⟩
    · obtain ⟨s, hs, hkey, hval⟩ := set_of_takes val now hk (h.resolve_left hk)
      rw [List.take_of_length_le hlen] at hval
      have hfirst : t.slots.find? (·.key = key) = none := by
        apply List.find?_eq_none.mpr
        intro u hu hkey'
        exact hk (List.mem_map.mpr ⟨u, hu, of_decide_eq_true hkey'⟩)
      refine ⟨s, ?_, hval⟩
      rw [get, hs, List.find?_append, hfirst, Option.none_or, List.find?_cons_of_pos]
      simpa using hkey
  obtain ⟨s, hs, hval⟩ := hget
  rw [text_of_get hs (hval ▸ hne), hval]

/-- The table's keys are distinct and among `u`. -/
structure Within (u : Finset (List Byte)) (t : ValueTable) : Prop where
  distinct : t.keys.Nodup
  subset : ∀ k ∈ t.keys, k ∈ u

variable {u : Finset (List Byte)}

lemma Within.takes (h : t.Within u) (hcard : u.card ≤ MAX_VALUES) (hu : key ∈ u) (hk : key ∉ t.keys)
    (hne : key ≠ []) (hlen : key.length ≤ KEY_LEN) : t.Takes key := by
  refine ⟨?_, hne, hlen⟩
  have hsub : t.keys.toFinset ⊂ u := by
    refine ⟨fun k hk => h.subset k (List.mem_toFinset.mp hk), fun hsup => ?_⟩
    exact hk (List.mem_toFinset.mp (hsup hu))
  have hlt := Finset.card_lt_card hsub
  rw [List.toFinset_card_of_nodup h.distinct, keys_length] at hlt
  exact hlt.trans_le hcard

variable (val now) in
lemma Within.set (h : t.Within u) (hu : key ∈ u) (hk : key ∈ t.keys ∨ t.Takes key) :
    (t.set key val now).Within u := by
  have hkeys := keys_set val now hk
  split at hkeys
  · exact ⟨hkeys ▸ h.distinct, hkeys ▸ h.subset⟩
  · rename_i hnew
    constructor
    · rw [hkeys, ← List.concat_eq_append]
      exact h.distinct.concat hnew
    · rw [hkeys]
      intro k hk
      rcases List.mem_append.mp hk with hk | hk
      · exact h.subset k hk
      · exact List.mem_singleton.mp hk ▸ hu

lemma mem_keys_set (hk : key ∈ t.keys ∨ t.Takes key) :
    k ∈ (t.set key val now).keys ↔ k ∈ t.keys ∨ k = key := by
  rw [keys_set _ _ hk]
  split
  · rename_i hkey
    constructor
    · exact .inl
    · rintro (h | rfl)
      · exact h
      · exact hkey
  · rw [List.mem_append, List.mem_singleton]

end ValueTable

section Pairs

variable {t : ValueTable} {u : Finset (List Byte)} {ps : List (Str × Str)} {k : List Byte} {now : ℤ}

lemma storeAll_cons (p : Str × Str) :
    storeAll now t (p :: ps) = storeAll now (t.set (utf8 p.1) (utf8 p.2) now) ps := rfl

lemma text_storeAll_of_not_mem (h : k ∉ ps.map fun p => utf8 p.1) :
    (storeAll now t ps).text k = t.text k := by
  induction ps generalizing t with
  | nil => rfl
  | cons p ps ih =>
    obtain ⟨hp, hps⟩ := not_or.mp (mt List.mem_cons.mpr h)
    rw [storeAll_cons, ih hps, ValueTable.text_set_of_ne hp]

/-- Pairs whose keys fit beside those of the table. -/
structure Room (u : Finset (List Byte)) (ps : List (Str × Str)) : Prop where
  card : u.card ≤ MAX_VALUES
  mem : ∀ p ∈ ps, utf8 p.1 ∈ u
  key : ∀ p ∈ ps, utf8 p.1 ≠ [] ∧ (utf8 p.1).length ≤ KEY_LEN
  val : ∀ p ∈ ps, utf8 p.2 ≠ [] ∧ (utf8 p.2).length ≤ VAL_LEN

lemma Room.tail {p : Str × Str} (h : Room u (p :: ps)) : Room u ps where
  card := h.card
  mem q hq := h.mem q (List.mem_cons_of_mem p hq)
  key q hq := h.key q (List.mem_cons_of_mem p hq)
  val q hq := h.val q (List.mem_cons_of_mem p hq)

lemma Room.head {p : Str × Str} (h : Room u (p :: ps)) (ht : t.Within u) :
    utf8 p.1 ∈ t.keys ∨ t.Takes (utf8 p.1) := by
  obtain ⟨hne, hlen⟩ := h.key p List.mem_cons_self
  by_cases hk : utf8 p.1 ∈ t.keys
  · exact .inl hk
  · exact .inr (ht.takes h.card (h.mem p List.mem_cons_self) hk hne hlen)

lemma Room.within_storeAll (h : Room u ps) (ht : t.Within u) : (storeAll now t ps).Within u := by
  induction ps generalizing t with
  | nil => exact ht
  | cons p ps ih => exact ih h.tail (ht.set _ _ (h.mem p List.mem_cons_self) (h.head ht))

lemma Room.mem_keys_storeAll (h : Room u ps) (ht : t.Within u) :
    k ∈ (storeAll now t ps).keys ↔ k ∈ t.keys ∨ k ∈ ps.map fun p => utf8 p.1 := by
  induction ps generalizing t with
  | nil => simp [storeAll]
  | cons p ps ih =>
    have hset := ht.set (utf8 p.2) now (h.mem p List.mem_cons_self) (h.head ht)
    rw [storeAll_cons, ih h.tail hset, ValueTable.mem_keys_set (h.head ht), List.map_cons,
      List.mem_cons, or_assoc]

lemma Room.text_storeAll (h : Room u ps) (ht : t.Within u) (hdistinct : (ps.map fun p => utf8 p.1).Nodup) :
    ∀ p ∈ ps, (storeAll now t ps).text (utf8 p.1) = utf8 p.2 := by
  induction ps generalizing t with
  | nil =>
    intro p hp
    cases hp
  | cons q ps ih =>
    obtain ⟨hq, hps⟩ := List.nodup_cons.mp hdistinct
    obtain ⟨hne, hlen⟩ := h.val q List.mem_cons_self
    intro p hp
    rcases List.mem_cons.mp hp with rfl | hp
    · rw [storeAll_cons, text_storeAll_of_not_mem hq, ValueTable.text_set_self (h.head ht) hne hlen]
    · exact ih h.tail (ht.set _ _ (h.mem q List.mem_cons_self) (h.head ht)) hps p hp

end Pairs

end Ledwall.Values
