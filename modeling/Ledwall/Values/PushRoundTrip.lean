import Mathlib.Data.List.GetD
import Ledwall.Values.RequestDelivery
import Ledwall.Values.Utf8

/-! A push from the host to the card: the table holds the dictionary where nothing in it had to be
escaped, and never a value that is empty or not printable ASCII. -/

namespace Ledwall.Values

open Ledwall.Wire

def Printable (c : Char) : Prop := ' ' ≤ c ∧ c ≤ '~'

instance (c : Char) : Decidable (Printable c) := inferInstanceAs (Decidable (_ ∧ _))

def toByte (c : Char) : Byte := BitVec.ofNat 8 c.toNat

def PrintableByte (b : Byte) : Prop := 0x20 ≤ b ∧ b ≤ 0x7E

instance (b : Byte) : Decidable (PrintableByte b) := inferInstanceAs (Decidable (_ ∧ _))

section Encoding

variable {c d : Char} {s t : Str}

lemma Printable.toNat (h : Printable c) : 32 ≤ c.toNat ∧ c.toNat ≤ 126 := h

lemma encode_printable (h : Printable c) :
    (String.utf8EncodeChar c).map (·.toBitVec) = [toByte c] := by
  have hc : c.val.toNat ≤ 0x7F := h.toNat.2.trans (by decide)
  rw [String.utf8EncodeChar, if_pos hc]
  rfl

lemma toByte_toNat (h : Printable c) : (toByte c).toNat = c.toNat := by
  rw [toByte, BitVec.toNat_ofNat]
  exact Nat.mod_eq_of_lt (h.toNat.2.trans_lt (by decide))

lemma toByte_inj (hc : Printable c) (hd : Printable d) (h : toByte c = toByte d) : c = d := by
  apply Char.ext
  apply UInt32.toNat_inj.mp
  have hnat := congrArg BitVec.toNat h
  rwa [toByte_toNat hc, toByte_toNat hd] at hnat

lemma printableByte_toByte (h : Printable c) : PrintableByte (toByte c) := by
  have hnat := toByte_toNat h
  have hc := h.toNat
  rw [← hnat] at hc
  exact ⟨BitVec.le_def.mpr hc.1, BitVec.le_def.mpr hc.2⟩

lemma utf8_printable (h : ∀ c ∈ s, Printable c) : utf8 s = s.map toByte := by
  induction s with
  | nil => rfl
  | cons c s ih =>
    rw [utf8, List.flatMap_cons, encode_printable (h c List.mem_cons_self), List.map_cons]
    exact congrArg _ (ih fun d hd => h d (List.mem_cons_of_mem c hd))

lemma printable_of_encode
    (h : ∀ b ∈ (String.utf8EncodeChar c).map (·.toBitVec), PrintableByte b) : Printable c := by
  have htail (n : ℕ) : ¬ PrintableByte (UInt8.ofNat (n % 64 + 128)).toBitVec := by
    have hn := Nat.mod_lt n (show 0 < 64 by decide)
    generalize n % 64 = m at hn
    interval_cases m <;> decide
  rw [String.utf8EncodeChar] at h
  split at h
  · rename_i hc
    obtain ⟨hlow, hhigh⟩ := h _ (List.mem_cons_self)
    have hnat : (UInt8.ofNat c.val.toNat).toBitVec.toNat = c.toNat :=
      (BitVec.toNat_ofNat ..).trans (Nat.mod_eq_of_lt (show c.toNat < 2 ^ 8 by
        exact lt_of_le_of_lt hc (by decide)))
    have hlow' := BitVec.le_def.mp hlow
    have hhigh' := BitVec.le_def.mp hhigh
    rw [hnat] at hlow' hhigh'
    exact ⟨hlow', hhigh'⟩
  split at h
  · exact absurd (h _ (by simp)) (htail c.val.toNat)
  split at h
  · exact absurd (h _ (by simp)) (htail c.val.toNat)
  · exact absurd (h _ (by simp)) (htail c.val.toNat)

lemma printable_of_utf8 (h : ∀ b ∈ utf8 s, PrintableByte b) : ∀ c ∈ s, Printable c := by
  intro c hc
  apply printable_of_encode
  intro b hb
  exact h b (List.mem_flatMap.mpr ⟨c, hc, hb⟩)

lemma validUtf8_printable {b : List Byte} (h : ∀ x ∈ b, PrintableByte x) : validUtf8 b = true := by
  induction b with
  | nil => rfl
  | cons x b ih =>
    have hx := (h x List.mem_cons_self).2
    have hlt : x < 0x80 := BitVec.lt_def.mpr (lt_of_le_of_lt (BitVec.le_def.mp hx) (by decide))
    rw [validUtf8_ascii hlt]
    exact ih fun y hy => h y (List.mem_cons_of_mem x hy)

end Encoding

section Json

lemma printable_digitChar (n : ℕ) : Printable (n % 16).digitChar := by
  have hn := Nat.mod_lt n (show 0 < 16 by decide)
  generalize n % 16 = m at hn
  interval_cases m <;> decide

lemma printable_hex4 (n : ℕ) : ∀ c ∈ hex4 n, Printable c := by
  intro c hc
  simp only [hex4, List.mem_cons, List.not_mem_nil, or_false] at hc
  rcases hc with rfl | rfl | rfl | rfl <;> exact printable_digitChar _

lemma printable_cons {c : Char} {s : Str} (hc : Printable c) (hs : ∀ d ∈ s, Printable d) :
    ∀ d ∈ c :: s, Printable d := List.forall_mem_cons.mpr ⟨hc, hs⟩

lemma printable_append {s t : Str} (hs : ∀ c ∈ s, Printable c) (ht : ∀ c ∈ t, Printable c) :
    ∀ c ∈ s ++ t, Printable c := List.forall_mem_append.mpr ⟨hs, ht⟩

lemma printable_escapeChar (c : Char) : ∀ d ∈ escapeChar c, Printable d := by
  have hu (n : ℕ) : ∀ d ∈ '\\' :: 'u' :: hex4 n, Printable d :=
    printable_cons (by decide) (printable_cons (by decide) (printable_hex4 n))
  rw [escapeChar]
  iterate 7
    split
    · decide
  split
  · rename_i hc
    exact List.forall_mem_singleton.mpr hc
  split
  · exact hu _
  · exact printable_append (hu _) (hu _)

lemma printable_jsonString (s : Str) : ∀ c ∈ jsonString s, Printable c := by
  refine printable_append (printable_cons (by decide) fun c hc => ?_) (by decide)
  obtain ⟨d, -, hd⟩ := List.mem_flatMap.mp hc
  exact printable_escapeChar d c hd

lemma printable_jsonPairs (ps : List (Str × Str)) : ∀ c ∈ jsonPairs ps, Printable c := by
  have hpair (p : Str × Str) : ∀ c ∈ jsonPair p, Printable c :=
    printable_append (printable_append (printable_jsonString p.1) (by decide))
      (printable_jsonString p.2)
  fun_induction jsonPairs ps with
  | case1 => intro c hc; cases hc
  | case2 p => exact hpair p
  | case3 p q ps ih => exact printable_append (printable_append (hpair p) (by decide)) ih

lemma printable_jsonDumps (d : Dict) : ∀ c ∈ jsonDumps d, Printable c :=
  printable_append (printable_cons (by decide) (printable_jsonPairs d.items)) (by decide)

lemma printable_body (d : Dict) : ∀ b ∈ d.body, PrintableByte b := by
  intro b hb
  rw [Dict.body, utf8_printable (printable_jsonDumps d)] at hb
  obtain ⟨c, hc, rfl⟩ := List.mem_map.mp hb
  exact printableByte_toByte (printable_jsonDumps d c hc)

lemma body_pos (d : Dict) : 0 < d.body.length := by
  apply List.length_pos_of_ne_nil
  rw [Dict.body, Ne, utf8_eq_nil]
  exact List.cons_ne_nil _ _

end Json

/-- Printable ASCII that `json.dumps` writes as it is. -/
def Plain (s : Str) : Prop := s ≠ [] ∧ ∀ c ∈ s, Printable c ∧ c ≠ '"' ∧ c ≠ '\\'

instance (s : Str) : Decidable (Plain s) := inferInstanceAs (Decidable (_ ∧ _))

section Plain

variable {s : Str} {p : Str × Str}

lemma Plain.escape (h : Plain s) : s.flatMap escapeChar = s := by
  have hc (c : Char) (hp : Printable c ∧ c ≠ '"' ∧ c ≠ '\\') : escapeChar c = [c] := by
    obtain ⟨hc, hquote, hback⟩ := hp
    have hlow : ∀ d : Char, d.toNat < 32 → c ≠ d := by
      rintro d hd rfl
      exact absurd hc.toNat.1 (by omega)
    rw [escapeChar, if_neg hquote, if_neg hback, if_neg (hlow _ (by decide)),
      if_neg (hlow _ (by decide)), if_neg (hlow _ (by decide)), if_neg (hlow _ (by decide)),
      if_neg (hlow _ (by decide))]
    exact if_pos hc
  obtain ⟨-, hs⟩ := h
  induction s with
  | nil => rfl
  | cons c s ih =>
    rw [List.flatMap_cons, hc c (hs c List.mem_cons_self),
      ih fun d hd => hs d (List.mem_cons_of_mem c hd)]
    rfl

lemma Plain.printable (h : Plain s) : ∀ c ∈ s, Printable c := fun c hc => (h.2 c hc).1

lemma Plain.no_quote (h : Plain s) : 0x22 ∉ utf8 s := by
  rw [utf8_printable h.printable]
  intro hq
  obtain ⟨c, hc, hcq⟩ := List.mem_map.mp hq
  have hquote : c = '"' := toByte_inj (h.printable c hc) (by decide) (hcq.trans (by decide))
  exact (h.2 c hc).2.1 hquote

lemma Plain.fromUtf8 (h : Plain s) : fromUtf8 (utf8 s) = utf8 s := by
  apply if_pos
  apply validUtf8_printable
  rw [utf8_printable h.printable]
  intro b hb
  obtain ⟨c, hc, rfl⟩ := List.mem_map.mp hb
  exact printableByte_toByte (h.printable c hc)

lemma Plain.ne_nil (h : Plain s) : utf8 s ≠ [] := fun hs => h.1 (utf8_eq_nil.mp hs)

lemma Plain.inj {t : Str} (hs : Plain s) (ht : Plain t) (h : utf8 s = utf8 t) : s = t := by
  rw [utf8_printable hs.printable, utf8_printable ht.printable] at h
  induction s generalizing t with
  | nil => exact (List.map_eq_nil_iff.mp h.symm).symm
  | cons c s ih =>
    cases t with
    | nil => cases h
    | cons d t =>
      obtain ⟨hcd, hst⟩ := List.cons_eq_cons.mp h
      have hc := toByte_inj (hs.printable c List.mem_cons_self) (ht.printable d List.mem_cons_self) hcd
      rw [hc]
      congr 1
      cases s with
      | nil => exact (List.map_eq_nil_iff.mp hst.symm).symm
      | cons e s =>
        cases t with
        | nil => cases hst
        | cons f t =>
          refine ih ?_ ?_ hst
          · exact ⟨List.cons_ne_nil e s, fun x hx => hs.2 x (List.mem_cons_of_mem c hx)⟩
          · exact ⟨List.cons_ne_nil f t, fun x hx => ht.2 x (List.mem_cons_of_mem d hx)⟩

/-- A pair as it is scanned, ahead of `r`. -/
def pairBytes (p : Str × Str) (r : List Byte) : List Byte :=
  0x22 :: (utf8 p.1 ++ 0x22 :: 0x3A :: 0x20 :: 0x22 :: (utf8 p.2 ++ 0x22 :: r))

lemma utf8_jsonPair (hk : Plain p.1) (hv : Plain p.2) (r : List Byte) :
    utf8 (jsonPair p) ++ r = pairBytes p r := by
  have hquote : utf8 ['"'] = [0x22] := by decide
  have hcolon : utf8 [':', ' '] = [0x3A, 0x20] := by decide
  have hstring {s : Str} (hs : Plain s) : utf8 (jsonString s) = 0x22 :: (utf8 s ++ [0x22]) := by
    rw [jsonString, hs.escape, List.cons_append, utf8_cons, utf8_append, hquote]
    rfl
  rw [jsonPair, utf8_append, utf8_append, hstring hk, hstring hv, hcolon]
  simp only [List.cons_append, List.append_assoc, List.nil_append, pairBytes]

end Plain

section Scanning

variable {s : Scan} {now : ℤ} {k v r : List Byte}

lemma takeWhile_quote (h : 0x22 ∉ k) :
    (k ++ 0x22 :: r).takeWhile (· ≠ 0x22) = k ∧ (k ++ 0x22 :: r).dropWhile (· ≠ 0x22) = 0x22 :: r := by
  have hk : ∀ b ∈ k, decide (b ≠ 0x22) = true := by
    intro b hb
    apply decide_eq_true
    rintro rfl
    exact h hb
  constructor
  · rw [List.takeWhile_append_of_pos hk, List.takeWhile_cons_of_neg (by decide), List.append_nil]
  · rw [List.dropWhile_append_of_pos hk, List.dropWhile_cons_of_neg (by decide)]

lemma step_pair {p : Str × Str} (hk : Plain p.1) (hv : Plain p.2) (hd : s.depth = 1)
    (hs : s.rest = pairBytes p r) :
    s.step now = some (s.store now (utf8 p.1) (utf8 p.2) r) := by
  obtain ⟨hkey, hafter⟩ := takeWhile_quote (r := 0x3A :: 0x20 :: 0x22 :: (utf8 p.2 ++ 0x22 :: r))
    hk.no_quote
  obtain ⟨hval, hrest⟩ := takeWhile_quote (r := r) hv.no_quote
  rw [Scan.step, hs, pairBytes]
  dsimp only
  rw [if_neg (by decide), if_neg (by decide), if_pos ⟨rfl, hd⟩, Scan.scanPair, hafter]
  dsimp only
  rw [List.dropWhile_cons_of_pos (by decide), List.dropWhile_cons_of_pos (by decide),
    List.dropWhile_cons_of_neg (by decide)]
  dsimp only
  rw [if_pos rfl, hrest, hkey, hval, hk.fromUtf8, hv.fromUtf8]

lemma step_skip {b : Byte} (hs : s.rest = b :: r) (hb : b ≠ 0x7B ∧ b ≠ 0x7D ∧ b ≠ 0x22) :
    s.step now = some { s with rest := r } := by
  rw [Scan.step, hs]
  dsimp only
  rw [if_neg hb.1, if_neg hb.2.1, if_neg fun h => hb.2.2 h.1]

/-- The table after a dictionary's pairs have been stored one after the other. -/
def storeAll (now : ℤ) (t : ValueTable) (ps : List (Str × Str)) : ValueTable :=
  ps.foldl (fun t p => t.set (utf8 p.1) (utf8 p.2) now) t

lemma finish_close (hd : s.rest = [0x7D]) : (s.finish now).table = s.table := by
  have hstep : s.step now = some { s with rest := [], depth := s.depth - 1 } := by
    rw [Scan.step, hd]
    rfl
  rw [Scan.finish_step hstep, Scan.finish_stop rfl]

lemma finish_pairs {ps : List (Str × Str)} (hp : ∀ p ∈ ps, Plain p.1 ∧ Plain p.2) (hd : s.depth = 1)
    (hs : s.rest = utf8 (jsonPairs ps) ++ [0x7D]) :
    (s.finish now).table = storeAll now s.table ps := by
  fun_induction jsonPairs ps generalizing s with
  | case1 => exact finish_close hs
  | case2 p =>
    obtain ⟨hk, hv⟩ := hp p List.mem_cons_self
    rw [utf8_jsonPair hk hv] at hs
    rw [Scan.finish_step (step_pair hk hv hd hs), finish_close rfl]
    rfl
  | case3 p q ps ih =>
    obtain ⟨hk, hv⟩ := hp p List.mem_cons_self
    have hsep : utf8 [',', ' '] = [0x2C, 0x20] := by decide
    rw [utf8_append, utf8_append, List.append_assoc, List.append_assoc, hsep,
      utf8_jsonPair hk hv] at hs
    rw [Scan.finish_step (step_pair hk hv hd hs), Scan.finish_step (step_skip rfl (by decide)),
      Scan.finish_step (step_skip rfl (by decide))]
    rw [ih (fun x hx => hp x (List.mem_cons_of_mem p hx))]
    · rfl
    · exact hd
    · rfl

end Scanning

section Table

variable {t : ValueTable} {key val : List Byte} {now : ℤ} {ps : List (Str × Str)}

def ValueTable.entries (t : ValueTable) : List (List Byte × List Byte) :=
  t.slots.map fun s => (s.key, s.val)

lemma ValueTable.entries_length (t : ValueTable) : t.entries.length = t.slots.length :=
  List.length_map _

lemma ValueTable.entries_set (hnew : key ∉ t.entries.map Prod.fst) (hfree : t.entries.length < MAX_VALUES)
    (hne : key ≠ []) (hlen : key.length ≤ KEY_LEN) (hval : val.length ≤ VAL_LEN) :
    (t.set key val now).entries = t.entries ++ [(key, val)] := by
  have hany : ¬ (t.slots.any (·.key = key)) = true := by
    intro h
    obtain ⟨s, hs, hkey⟩ := List.any_eq_true.mp h
    apply hnew
    exact List.mem_map.mpr ⟨_, List.mem_map.mpr ⟨s, hs, rfl⟩, of_decide_eq_true hkey⟩
  rw [ValueTable.entries_length] at hfree
  rw [ValueTable.set, if_neg hany, dif_pos ⟨hfree, hne, hlen⟩, ValueTable.entries]
  dsimp only
  rw [List.map_append, List.map_singleton]
  dsimp only
  rw [List.take_of_length_le hval]
  rfl

lemma entries_storeAll (hp : ∀ p ∈ ps, Plain p.1 ∧ Plain p.2)
    (hlen : ∀ p ∈ ps, (utf8 p.1).length ≤ KEY_LEN ∧ (utf8 p.2).length ≤ VAL_LEN)
    (hnodup : (t.entries.map Prod.fst ++ ps.map fun p => utf8 p.1).Nodup)
    (hfree : t.entries.length + ps.length ≤ MAX_VALUES) :
    (storeAll now t ps).entries = t.entries ++ ps.map fun p => (utf8 p.1, utf8 p.2) := by
  induction ps generalizing t with
  | nil => exact (List.append_nil _).symm
  | cons p ps ih =>
    have hfirst : utf8 p.1 ∉ t.entries.map Prod.fst := by
      intro h
      exact List.disjoint_of_nodup_append hnodup h (List.mem_cons_self ..)
    obtain ⟨hk, hv⟩ := hlen p List.mem_cons_self
    rw [List.length_cons] at hfree
    have hset : (t.set (utf8 p.1) (utf8 p.2) now).entries = t.entries ++ [(utf8 p.1, utf8 p.2)] :=
      ValueTable.entries_set hfirst (by omega) (hp p List.mem_cons_self).1.ne_nil hk hv
    change (storeAll now (t.set (utf8 p.1) (utf8 p.2) now) ps).entries = _
    rw [ih (fun q hq => hp q (List.mem_cons_of_mem p hq)) fun q hq => hlen q (List.mem_cons_of_mem p hq)]
    · rw [hset, List.append_assoc]
      rfl
    · rw [hset, List.map_append, List.append_assoc]
      exact hnodup
    · rw [hset, List.length_append, List.length_singleton]
      omega

lemma ValueTable.text_of_get {v : Value} (h : t.get key = some v) (hne : v.val ≠ []) :
    t.text key = v.val := by
  rw [ValueTable.text, h]
  exact if_neg hne

/-- The card shows the dictionary and nothing else. -/
def RoundTrips (d : Dict) (t : ValueTable) : Prop :=
  (∀ p ∈ d.items, t.text (utf8 p.1) = utf8 p.2) ∧
    ∀ s ∈ t.slots, ∃ p ∈ d.items, s.key = utf8 p.1

lemma roundTrips_of_entries {d : Dict} (hp : ∀ p ∈ d.items, Plain p.1 ∧ Plain p.2)
    (h : t.entries = d.items.map fun p => (utf8 p.1, utf8 p.2)) : RoundTrips d t := by
  have hslot (s : Value) (hs : s ∈ t.slots) : ∃ p ∈ d.items, (utf8 p.1, utf8 p.2) = (s.key, s.val) :=
    List.mem_map.mp (h ▸ List.mem_map.mpr ⟨s, hs, rfl⟩)
  constructor
  · intro p hpd
    obtain ⟨s, hs, hsp⟩ := List.mem_map.mp (h.symm ▸ List.mem_map.mpr ⟨p, hpd, rfl⟩)
    cases hget : t.get (utf8 p.1) with
    | none =>
      have hnone := List.find?_eq_none.mp hget s hs
      exact absurd (decide_eq_true (Prod.mk.inj hsp).1) hnone
    | some v =>
      have hfound := List.find?_some (show t.slots.find? (·.key = utf8 p.1) = some v from hget)
      have hkey : v.key = utf8 p.1 := of_decide_eq_true hfound
      obtain ⟨q, hqd, hq⟩ := hslot v (List.mem_of_find?_eq_some hget)
      obtain ⟨hqk, hqv⟩ := Prod.mk.inj hq
      have hqp : q = p := by
        apply List.inj_on_of_nodup_map d.nodup hqd hpd
        exact (hp q hqd).1.inj (hp p hpd).1 (hqk.trans hkey)
      subst hqp
      rw [ValueTable.text_of_get hget (hqv ▸ (hp q hqd).2.ne_nil), hqv]
  · intro s hs
    obtain ⟨p, hpd, hps⟩ := hslot s hs
    exact ⟨p, hpd, (Prod.mk.inj hps).1.symm⟩

end Table

section Clean

variable {s : Scan} {now : ℤ} {t : ValueTable} {key val b : List Byte}

lemma mem_fromUtf8 {x : Byte} (h : x ∈ fromUtf8 b) : x ∈ b := by
  rw [fromUtf8] at h
  split at h
  · exact h
  · cases h

lemma mem_dropEncodings {x : Byte} {es : List (List Byte)} {n : ℕ} (h : x ∈ dropEncodings es n b) :
    x ∈ b := by
  induction n generalizing b with
  | zero => exact h
  | succ n ih =>
    rw [dropEncodings] at h
    split at h
    · exact List.mem_of_mem_drop (ih h)
    · exact h

lemma mem_trim {x : Byte} (h : x ∈ trim b) : x ∈ b := by
  have hend := mem_dropEncodings (List.mem_reverse.mp h)
  exact mem_dropEncodings (List.mem_reverse.mp hend)

/-- Every value stored is printable ASCII. -/
def ValueTable.Clean (t : ValueTable) : Prop := ∀ s ∈ t.slots, ∀ x ∈ s.val, PrintableByte x

lemma clean_storeAt {slots : List Value} (h : ∀ s ∈ slots, ∀ x ∈ s.val, PrintableByte x)
    (hv : ∀ x ∈ val, PrintableByte x) :
    ∀ s ∈ ValueTable.storeAt key val now slots, ∀ x ∈ s.val, PrintableByte x := by
  induction slots with
  | nil => exact h
  | cons s slots ih =>
    obtain ⟨hs, hslots⟩ := List.forall_mem_cons.mp h
    rw [ValueTable.storeAt]
    split
    · exact List.forall_mem_cons.mpr ⟨fun x hx => hv x (List.mem_of_mem_take hx), hslots⟩
    · exact List.forall_mem_cons.mpr ⟨hs, ih hslots⟩

lemma ValueTable.Clean.set (h : t.Clean) (hv : ∀ x ∈ val, PrintableByte x) :
    (t.set key val now).Clean := by
  rw [ValueTable.set]
  split
  · exact clean_storeAt h hv
  split
  · intro s hs
    rcases List.mem_append.mp hs with hs | hs
    · exact h s hs
    · obtain rfl := List.mem_singleton.mp hs
      exact fun x hx => hv x (List.mem_of_mem_take hx)
  · exact h

structure Scan.Clean (s : Scan) : Prop where
  rest : ∀ x ∈ s.rest, PrintableByte x
  table : s.table.Clean

lemma Scan.Clean.scanPair {u : Scan} (h : s.Clean) {rest : List Byte} (hr : ∀ x ∈ rest, PrintableByte x)
    (hs : s.scanPair now rest = some u) : u.Clean := by
  rw [Scan.scanPair] at hs
  split at hs
  · cases hs
  rename_i afterKey hkey
  have hafter : ∀ x ∈ afterKey, PrintableByte x := fun x hx =>
    hr x ((List.dropWhile_subset _) (hkey ▸ List.mem_cons_of_mem _ hx))
  split at hs
  · cases hs
  rename_i c r hcolon
  have hcr : ∀ x ∈ c :: r, PrintableByte x := fun x hx =>
    hafter x ((List.dropWhile_subset _) (hcolon ▸ hx))
  split at hs
  · split at hs
    · cases hs
    rename_i afterVal hval
    obtain rfl := Option.some.inj hs
    have hr' : ∀ x ∈ r, PrintableByte x := fun x hx => hcr x (List.mem_cons_of_mem c hx)
    constructor
    · exact fun x hx => hr' x ((List.dropWhile_subset _) (hval ▸ List.mem_cons_of_mem _ hx))
    · apply h.table.set
      exact fun x hx => hr' x ((List.takeWhile_subset _) (mem_fromUtf8 hx))
  · obtain rfl := Option.some.inj hs
    constructor
    · intro x hx
      have hx' : x ∈ (c :: r).dropWhile fun b => decide (b ≠ 0x2C ∧ b ≠ 0x7D) := hx
      exact hcr x (List.dropWhile_subset _ hx')
    · apply h.table.set
      exact fun x hx => hcr x ((List.takeWhile_subset _) (mem_fromUtf8 (mem_trim hx)))

lemma Scan.Clean.step {u : Scan} (h : s.Clean) (hs : s.step now = some u) : u.Clean := by
  rw [Scan.step] at hs
  split at hs
  · cases hs
  rename_i c rest hrest
  have hr : ∀ x ∈ rest, PrintableByte x := fun x hx => h.rest x (hrest ▸ List.mem_cons_of_mem c hx)
  split at hs
  · obtain rfl := Option.some.inj hs
    exact ⟨hr, h.table⟩
  split at hs
  · obtain rfl := Option.some.inj hs
    exact ⟨hr, h.table⟩
  split at hs
  · exact h.scanPair hr hs
  · obtain rfl := Option.some.inj hs
    exact ⟨hr, h.table⟩

lemma Scan.Clean.run (h : s.Clean) (now : ℤ) (n : ℕ) : (Scan.run now n s).Clean := by
  induction n generalizing s with
  | zero => exact h
  | succ n ih =>
    rw [Scan.run]
    split
    · rename_i hs
      exact ih (h.step hs)
    · exact h

lemma ValueTable.Clean.text (h : t.Clean) (key : List Byte) :
    t.text key ≠ [] ∧ ∀ x ∈ t.text key, PrintableByte x := by
  have hdash : ascii "-" ≠ [] ∧ ∀ x ∈ ascii "-", PrintableByte x := by decide
  rw [ValueTable.text]
  split
  · rename_i v hget
    split
    · exact hdash
    · rename_i hne
      exact ⟨hne, h v (List.mem_of_find?_eq_some hget)⟩
  · exact hdash

end Clean

/-- What a push of some segments makes of a table. -/
def pushOnto (t : ValueTable) (segments : List (List Byte)) (now : ℤ) : Option ValueTable :=
  (receive {} segments).bind fun req => (handleHttpRequest req t now).map Prod.fst

/-- What a push of some segments leaves of an empty table. -/
def pushed (segments : List (List Byte)) (now : ℤ) : Option ValueTable :=
  (receive {} segments).bind fun req => (handleHttpRequest req {} now).map Prod.fst

section Delivery

variable {d : Dict} {host version : List Byte} {segments : List (List Byte)} {now : ℤ}

lemma pushOnto_eq (t : ValueTable) (hhost : 0x0D ∉ host) (hversion : 0x0D ∉ version)
    (hfits : (request host version d.body).length ≤ MAX_REQUEST)
    (hsegments : segments.flatten = request host version d.body) :
    pushOnto t segments now = some (Scan.finish { rest := d.body, table := t } now).table := by
  have hframed := framed_request hhost hversion (body_pos d) hfits
  have hstart : stateAt (joinLines (headLines host version d.body.length)).length d.body.length 0 =
      .readingHeaders := by
    rw [stateAt, if_neg (by omega), if_neg (by omega)]
  have hreceive : receive {} segments = some ⟨request host version d.body, .complete⟩ := by
    have h : receive ⟨[], stateAt _ _ ([] : List Byte).length⟩ segments = _ :=
      hframed.receive hsegments (by
        rw [List.length_nil]
        omega)
    rwa [List.length_nil, hstart] at h
  obtain ⟨hmethod, hpath, hbody⟩ := route_request hframed .complete
  rw [pushOnto, hreceive, Option.bind_some, handleHttpRequest, if_pos ⟨hmethod, hpath⟩,
    Option.map_some, apiValuesSet, hbody, fromUtf8, if_pos (validUtf8_printable (printable_body d))]

lemma pushed_eq (hhost : 0x0D ∉ host) (hversion : 0x0D ∉ version)
    (hfits : (request host version d.body).length ≤ MAX_REQUEST)
    (hsegments : segments.flatten = request host version d.body) :
    pushed segments now = some (Scan.finish { rest := d.body, table := {} } now).table :=
  pushOnto_eq {} hhost hversion hfits hsegments

lemma finish_body (t : ValueTable) (hp : ∀ p ∈ d.items, Plain p.1 ∧ Plain p.2) :
    (Scan.finish { rest := d.body, table := t } now).table = storeAll now t d.items := by
  have hbody : d.body = 0x7B :: (utf8 (jsonPairs d.items) ++ [0x7D]) := by
    rw [Dict.body, jsonDumps, utf8_append, utf8_cons,
      show utf8 ['\x7b'] = [0x7B] by decide, show utf8 ['\x7d'] = [0x7D] by decide]
    rfl
  have hopen : Scan.step { rest := d.body, table := t } now =
      some { rest := utf8 (jsonPairs d.items) ++ [0x7D], depth := 1, table := t } := by
    rw [hbody]
    rfl
  rw [Scan.finish_step hopen]
  exact finish_pairs hp rfl rfl

lemma nodup_keys (hp : ∀ p ∈ d.items, Plain p.1 ∧ Plain p.2) :
    (d.items.map fun p => utf8 p.1).Nodup := by
  apply List.Nodup.map_on _ (List.Nodup.of_map _ d.nodup)
  intro p hpd q hqd h
  exact List.inj_on_of_nodup_map d.nodup hpd hqd ((hp p hpd).1.inj (hp q hqd).1 h)

end Delivery

/-- Every dictionary within the limits, however its request is cut: the handler sees it whole, the
table holds it if all its strings go through JSON unchanged, and cannot hold it if one of its values
is empty or not printable ASCII. -/
theorem push_round_trips (d : Dict) (host version : List Byte) (segments : List (List Byte)) (now : ℤ)
    (hhost : 0x0D ∉ host) (hversion : 0x0D ∉ version) (hcount : d.items.length ≤ MAX_VALUES)
    (hlen : ∀ p ∈ d.items, (utf8 p.1).length ≤ KEY_LEN ∧ (utf8 p.2).length ≤ VAL_LEN)
    (hfits : (request host version d.body).length ≤ MAX_REQUEST)
    (hsegments : segments.flatten = request host version d.body) :
    ∃ t, pushed segments now = some t ∧
      ((∀ p ∈ d.items, Plain p.1 ∧ Plain p.2) → RoundTrips d t) ∧
      (RoundTrips d t → ∀ p ∈ d.items, p.2 ≠ [] ∧ ∀ c ∈ p.2, Printable c) := by
  refine ⟨_, pushed_eq hhost hversion hfits hsegments, ?_, ?_⟩
  · intro hp
    apply roundTrips_of_entries hp
    rw [finish_body {} hp, entries_storeAll hp hlen]
    · rfl
    · exact nodup_keys hp
    · change 0 + d.items.length ≤ MAX_VALUES
      omega
  · rintro ⟨htext, -⟩ p hpd
    have hstart : Scan.Clean { rest := d.body, table := {} } :=
      ⟨printable_body d, fun s hs => by cases hs⟩
    obtain ⟨hne, hprint⟩ := (hstart.run now _).table.text (utf8 p.1)
    rw [show (Scan.run now _ _).table.text (utf8 p.1) = utf8 p.2 from htext p hpd] at hne hprint
    exact ⟨fun h => hne (utf8_eq_nil.mpr h), printable_of_utf8 hprint⟩

section Series

variable {nums : List ℚ} {n : ℕ}

lemma foldl_min_le (v : ℚ) (vs : List ℚ) : ∀ x ∈ v :: vs, vs.foldl min v ≤ x := by
  induction vs generalizing v with
  | nil =>
    intro x hx
    exact (List.mem_singleton.mp hx).ge
  | cons w vs ih =>
    have hmin := ih (min v w) (min v w) List.mem_cons_self
    intro x hx
    rcases List.mem_cons.mp hx with rfl | hx
    · exact hmin.trans (min_le_left _ _)
    rcases List.mem_cons.mp hx with rfl | hx
    · exact hmin.trans (min_le_right _ _)
    · exact ih (min v w) x (List.mem_cons_of_mem _ hx)

lemma le_foldl_max (v : ℚ) (vs : List ℚ) : ∀ x ∈ v :: vs, x ≤ vs.foldl max v := by
  induction vs generalizing v with
  | nil =>
    intro x hx
    exact (List.mem_singleton.mp hx).le
  | cons w vs ih =>
    have hmax := ih (max v w) (max v w) List.mem_cons_self
    intro x hx
    rcases List.mem_cons.mp hx with rfl | hx
    · exact (le_max_left _ _).trans hmax
    rcases List.mem_cons.mp hx with rfl | hx
    · exact (le_max_right _ _).trans hmax
    · exact ih (max v w) x (List.mem_cons_of_mem _ hx)

lemma level_le {lo hi x : ℚ} (hlo : lo ≤ x) (hhi : x ≤ hi) :
    ⌊(x - lo) / (if hi - lo = 0 then 1 else hi - lo) * HIST_STEPS⌋.toNat ≤ HIST_STEPS := by
  have hunit : (x - lo) / (if hi - lo = 0 then 1 else hi - lo) ≤ 1 := by
    split
    · rename_i hspan
      rw [div_one]
      linarith
    · rename_i hspan
      have hpos : 0 < hi - lo := lt_of_le_of_ne (by linarith) (Ne.symm hspan)
      rw [div_le_one hpos]
      linarith
  have hsteps : (0 : ℚ) ≤ HIST_STEPS := Nat.cast_nonneg _
  have hle := Int.floor_le_floor (mul_le_mul_of_nonneg_right hunit hsteps)
  rw [one_mul, Int.floor_natCast] at hle
  exact Int.toNat_le.mpr hle

lemma encodeSeries_range : ∀ c ∈ encodeSeries nums n, 48 ≤ c.toNat ∧ c.toNat ≤ 111 := by
  intro c hc
  cases nums with
  | nil => cases hc
  | cons v vs =>
    obtain ⟨i, hi, rfl⟩ := List.mem_map.mp hc
    rw [List.mem_range] at hi
    have hidx : i * vs.length / max 1 (n - 1) ≤ vs.length := by
      apply Nat.div_le_of_le_mul
      exact Nat.mul_le_mul_right _ (by omega)
    have hmem : (v :: vs).getD (i * vs.length / max 1 (n - 1)) 0 ∈ v :: vs := by
      rw [List.getD_eq_getElem _ _ (Nat.lt_succ_of_le hidx)]
      exact List.getElem_mem _
    have hlevel := level_le (foldl_min_le v vs _ hmem) (le_foldl_max v vs _ hmem)
    have hnat (m : ℕ) (hm : m ≤ 63) : (Char.ofNat (HIST_BASE + m)).toNat = 48 + m := by
      interval_cases m <;> decide
    rw [hnat _ hlevel]
    exact ⟨Nat.le_add_right 48 _, Nat.add_le_add_left hlevel 48⟩

/-- A trace goes through JSON unchanged unless one of its samples is at level 44. -/
lemma plain_encodeSeries_iff (hn : 0 < n) :
    Plain (encodeSeries nums n) ↔ nums ≠ [] ∧ '\\' ∉ encodeSeries nums n := by
  constructor
  · rintro ⟨hne, h⟩
    refine ⟨?_, fun hback => (h _ hback).2.2 rfl⟩
    rintro rfl
    exact hne rfl
  · rintro ⟨hne, hback⟩
    constructor
    · cases nums with
      | nil => exact absurd rfl hne
      | cons v vs =>
        intro hnil
        have hlen := List.range_eq_nil.mp (List.map_eq_nil_iff.mp hnil)
        omega
    · intro c hc
      obtain ⟨hlow, hhigh⟩ := encodeSeries_range c hc
      refine ⟨⟨?_, ?_⟩, ?_, fun h => hback (h ▸ hc)⟩
      · exact (show 32 ≤ c.toNat by omega)
      · exact (show c.toNat ≤ 126 by omega)
      · rintro rfl
        exact absurd hlow (by decide)

end Series

instance (d : Dict) (t : ValueTable) : Decidable (RoundTrips d t) :=
  inferInstanceAs (Decidable (_ ∧ _))

def weather : Dict := ⟨[("temp".toList, "71".toList), ("cond".toList, "mostly cloudy".toList)], by decide⟩

/-- The request's head and its body as two segments, the first within the head. -/
def cut (r : List Byte) : List (List Byte) := [r.take 100, r.drop 100]

theorem push_round_trips_weather : ∃ t,
    pushed (cut (request (ascii "10.11.6.174") (ascii "3.12") weather.body)) 1 = some t ∧
      ((∀ p ∈ weather.items, Plain p.1 ∧ Plain p.2) → RoundTrips weather t) ∧
      (RoundTrips weather t → ∀ p ∈ weather.items, p.2 ≠ [] ∧ ∀ c ∈ p.2, Printable c) :=
  push_round_trips weather (ascii "10.11.6.174") (ascii "3.12") _ 1 (by decide +kernel)
    (by decide +kernel) (by decide +kernel) (by decide +kernel) (by decide +kernel)
    (by decide +kernel)

/-- A trace of three samples, the middle one 0.7 of the way up. -/
def trace : Dict := ⟨[("hist".toList, encodeSeries [0, 7 / 10, 1] HIST_LEN)], by decide⟩

theorem push_not_round_trips : ¬ ∀ (d : Dict) (host version : List Byte) (segments : List (List Byte))
    (now : ℤ), 0x0D ∉ host → 0x0D ∉ version → d.items.length ≤ MAX_VALUES →
    (∀ p ∈ d.items, (utf8 p.1).length ≤ KEY_LEN ∧ (utf8 p.2).length ≤ VAL_LEN) →
    (request host version d.body).length ≤ MAX_REQUEST →
    segments.flatten = request host version d.body →
    ∃ t, pushed segments now = some t ∧ RoundTrips d t := by
  intro h
  obtain ⟨t, ht, hd⟩ := h trace (ascii "10.11.6.174") (ascii "3.12") _ 1 (by decide +kernel)
    (by decide +kernel) (by decide +kernel) (by decide +kernel) (by decide +kernel)
    (List.flatten_singleton (l := request (ascii "10.11.6.174") (ascii "3.12") trace.body))
  have hfalse : (pushed [request (ascii "10.11.6.174") (ascii "3.12") trace.body] 1).map
      (fun t => decide (RoundTrips trace t)) = some false := by decide +kernel
  rw [ht, Option.map_some] at hfalse
  exact absurd (decide_eq_true hd) (by rw [Option.some.inj hfalse]; decide)

end Ledwall.Values
