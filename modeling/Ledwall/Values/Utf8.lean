import Ledwall.Values.ValuePush
import Ledwall.Values.ValueTable

/-! Well-formed UTF-8 as a sequence of characters, and what trimming leaves of it. -/

namespace Ledwall.Values

open Ledwall.Wire

/-- One character's encoding. -/
def isChar : List Byte → Bool
  | [a] => a < 0x80
  | [a, b] => utf8Two a b
  | [a, b, c] => utf8Three a b c
  | [a, b, c, d] => utf8Four a b c d
  | _ => false

section Leads

variable {a b c d : Byte}

lemma utf8Two_lead (h : utf8Two a b = true) : 0x80 ≤ a ∧ continuation b = true := by
  simp only [utf8Two, continuation, Bool.and_eq_true, decide_eq_true_eq] at h ⊢
  bv_omega

lemma utf8Three_lead (h : utf8Three a b c = true) :
    0xE0 ≤ a ∧ continuation b = true ∧ continuation c = true := by
  simp only [utf8Three, continuation, Bool.and_eq_true, Bool.or_eq_true, decide_eq_true_eq,
    beq_iff_eq] at h ⊢
  bv_omega

lemma utf8Four_lead (h : utf8Four a b c d = true) :
    0xF0 ≤ a ∧ continuation b = true ∧ continuation c = true ∧ continuation d = true := by
  simp only [utf8Four, continuation, Bool.and_eq_true, Bool.or_eq_true, decide_eq_true_eq,
    beq_iff_eq] at h ⊢
  bv_omega

lemma not_utf8Two (h : 0xE0 ≤ a) : utf8Two a b = false := by
  rw [Bool.eq_false_iff]
  intro ht
  simp only [utf8Two, Bool.and_eq_true, decide_eq_true_eq] at ht
  bv_omega

lemma not_utf8Three (h : 0xF0 ≤ a) : utf8Three a b c = false := by
  rw [Bool.eq_false_iff]
  intro ht
  simp only [utf8Three, Bool.and_eq_true, Bool.or_eq_true, decide_eq_true_eq, beq_iff_eq] at ht
  bv_omega

end Leads

lemma validUtf8_char {c : List Byte} (hc : isChar c = true) (t : List Byte) :
    validUtf8 (c ++ t) = validUtf8 t := by
  match c, hc with
  | [a], hc => exact validUtf8_ascii (of_decide_eq_true hc)
  | [a, b], hc =>
    have hc : utf8Two a b = true := hc
    have hlead := (utf8Two_lead hc).1
    have ha : ¬ a < 0x80 := by bv_omega
    simp only [List.cons_append, List.nil_append]
    rw [validUtf8.eq_def]
    simp only [if_neg ha, hc, if_true]
  | [a, b, c], hc =>
    have hc : utf8Three a b c = true := hc
    have hlead := (utf8Three_lead hc).1
    have ha : ¬ a < 0x80 := by bv_omega
    simp only [List.cons_append, List.nil_append]
    rw [validUtf8.eq_def]
    simp only [if_neg ha, not_utf8Two hlead, hc, Bool.false_eq_true, if_false, if_true]
  | [a, b, c, d], hc =>
    have hc : utf8Four a b c d = true := hc
    have hlead := (utf8Four_lead hc).1
    have ha : ¬ a < 0x80 := by bv_omega
    have htwo : utf8Two a b = false := not_utf8Two (by bv_omega)
    simp only [List.cons_append, List.nil_append]
    rw [validUtf8.eq_def]
    simp only [if_neg ha, htwo, not_utf8Three hlead, hc, Bool.false_eq_true, if_false, Bool.true_and]

lemma validUtf8_cons {b : List Byte} (h : validUtf8 b = true) (hb : b ≠ []) :
    ∃ c t, isChar c = true ∧ validUtf8 t = true ∧ b = c ++ t := by
  obtain ⟨a, t, rfl⟩ := List.exists_cons_of_ne_nil hb
  rw [validUtf8.eq_def] at h
  dsimp only at h
  split at h
  · rename_i ha
    exact ⟨[a], t, decide_eq_true ha, h, rfl⟩
  cases t with
  | nil => cases h
  | cons b t =>
    dsimp only at h
    split at h
    · rename_i hc
      exact ⟨[a, b], t, hc, h, rfl⟩
    cases t with
    | nil => cases h
    | cons c t =>
      dsimp only at h
      split at h
      · rename_i hc
        exact ⟨[a, b, c], t, hc, h, rfl⟩
      cases t with
      | nil => cases h
      | cons d t =>
        rw [Bool.and_eq_true] at h
        exact ⟨[a, b, c, d], t, h.1, h.2, rfl⟩

lemma isChar_tail {c : List Byte} (hc : isChar c = true) :
    c ≠ [] ∧ ∀ x ∈ c.tail, continuation x = true := by
  match c, hc with
  | [a], hc => exact ⟨List.cons_ne_nil _ _, fun x hx => absurd hx List.not_mem_nil⟩
  | [a, b], hc =>
    refine ⟨List.cons_ne_nil _ _, fun x hx => ?_⟩
    rw [List.mem_singleton.mp hx]
    exact (utf8Two_lead hc).2
  | [a, b, c], hc =>
    obtain ⟨-, hb, hc⟩ := utf8Three_lead hc
    refine ⟨List.cons_ne_nil _ _, ?_⟩
    simp [hb, hc]
  | [a, b, c, d], hc =>
    obtain ⟨-, hb, hc, hd⟩ := utf8Four_lead hc
    refine ⟨List.cons_ne_nil _ _, ?_⟩
    simp [hb, hc, hd]

lemma validUtf8_cut {b w : List Byte} {x : Byte} (hx : continuation x = false)
    (h : validUtf8 (b ++ x :: w) = true) : validUtf8 b = true := by
  induction hn : b.length using Nat.strong_induction_on generalizing b with
  | _ n ih =>
    subst hn
    cases hb : b with
    | nil => rfl
    | cons a bs =>
      obtain ⟨c, t, hc, ht, he⟩ := validUtf8_cons h (by simp)
      obtain ⟨hne, htail⟩ := isChar_tail hc
      rw [← hb]
      rcases List.append_eq_append_iff.mp he with ⟨u, hcu, hu⟩ | ⟨u, hbu, hu⟩
      · cases u with
        | nil =>
          rw [List.append_nil] at hcu
          rw [← hcu, ← List.append_nil c, validUtf8_char hc]
          rfl
        | cons y u =>
          -- the character would run on into `x`
          cases (List.cons.inj hu).1
          have hmem : x ∈ c.tail := by
            rw [hcu, hb]
            exact List.mem_append_right _ List.mem_cons_self
          rw [htail x hmem] at hx
          cases hx
      · have hpos := List.length_pos_iff.mpr hne
        have hlen : u.length < b.length := by
          rw [hbu, List.length_append]
          omega
        rw [hbu, validUtf8_char hc]
        apply ih u.length hlen _ rfl
        rw [← hu]
        exact ht

lemma validUtf8_fromUtf8 (b : List Byte) : validUtf8 (fromUtf8 b) = true := by
  rw [fromUtf8]
  split
  · assumption
  · rfl

lemma utf8_append (s t : Str) : utf8 (s ++ t) = utf8 s ++ utf8 t := List.flatMap_append

lemma utf8_cons (c : Char) (s : Str) : utf8 (c :: s) = utf8 [c] ++ utf8 s := utf8_append [c] s

lemma utf8_eq_nil {s : Str} : utf8 s = [] ↔ s = [] := by
  cases s with
  | nil => exact iff_of_true rfl rfl
  | cons c s =>
    apply iff_of_false
    · intro h
      rw [utf8_cons, List.append_eq_nil_iff] at h
      rw [utf8, List.flatMap_singleton, List.map_eq_nil_iff] at h
      exact String.utf8EncodeChar_ne_nil h.1
    · exact List.cons_ne_nil c s

lemma isChar_encode (c : Char) : isChar ((String.utf8EncodeChar c).map (·.toBitVec)) = true := by
  have hvalid : c.val.toNat < 0xD800 ∨ 0xDFFF < c.val.toNat ∧ c.val.toNat < 0x110000 := c.valid
  have hbyte : ∀ n, (UInt8.ofNat n).toBitVec = BitVec.ofNat 8 n := fun _ => rfl
  rw [String.utf8EncodeChar]
  generalize c.val.toNat = v at hvalid
  split
  · simp only [List.map_cons, List.map_nil, isChar, decide_eq_true_eq, hbyte, BitVec.lt_def,
      BitVec.toNat_ofNat, BitVec.ofNat_eq_ofNat]
    omega
  · split
    · simp only [List.map_cons, List.map_nil, isChar, utf8Two, continuation, Bool.and_eq_true,
        decide_eq_true_eq, hbyte, BitVec.le_def, BitVec.toNat_ofNat, BitVec.ofNat_eq_ofNat]
      omega
    · split
      · simp only [List.map_cons, List.map_nil, isChar, utf8Three, continuation, Bool.and_eq_true,
          Bool.or_eq_true, beq_iff_eq, decide_eq_true_eq, hbyte, BitVec.le_def, BitVec.toNat_ofNat,
          BitVec.ofNat_eq_ofNat, ← BitVec.toNat_inj]
        omega
      · simp only [List.map_cons, List.map_nil, isChar, utf8Four, continuation, Bool.and_eq_true,
          Bool.or_eq_true, beq_iff_eq, decide_eq_true_eq, hbyte, BitVec.le_def, BitVec.toNat_ofNat,
          BitVec.ofNat_eq_ofNat, ← BitVec.toNat_inj]
        omega

lemma validUtf8_utf8 (s : Str) : validUtf8 (utf8 s) = true := by
  induction s with
  | nil => rfl
  | cons c s ih =>
    rw [utf8, List.flatMap_cons, validUtf8_char (isChar_encode c)]
    exact ih

section Trimming

variable {b : List Byte}

lemma dropEncodings_induct {es : List (List Byte)} {P : List Byte → Prop}
    (hstep : ∀ b, P b → ∀ w ∈ es, w <+: b → P (b.drop w.length)) (n : ℕ) (h : P b) :
    P (dropEncodings es n b) := by
  induction n generalizing b with
  | zero => exact h
  | succ n ih =>
    rw [dropEncodings]
    split
    · rename_i w hw
      have hfound := List.find?_some hw
      have hprefix : w <+: b := of_decide_eq_true hfound
      exact ih (hstep b h w (List.mem_of_find?_eq_some hw) hprefix)
    · exact h

lemma isChar_whitespace : ∀ w ∈ whitespace,
    isChar w = true ∧ ∃ x t, w = x :: t ∧ continuation x = false := by
  simp only [whitespace, List.forall_mem_cons, List.not_mem_nil, false_implies, implies_true,
    and_true]
  refine ⟨?_, ?_, ?_, ?_, ?_, ?_, ?_, ?_, ?_, ?_, ?_, ?_, ?_, ?_, ?_, ?_, ?_, ?_, ?_, ?_, ?_, ?_,
    ?_, ?_, ?_⟩
  all_goals exact ⟨by decide, _, _, rfl, by decide⟩

lemma validUtf8_trimStart (h : validUtf8 b = true) : validUtf8 (trimStart b) = true := by
  apply dropEncodings_induct (P := fun b => validUtf8 b = true) _ _ h
  rintro b hb w hw ⟨t, rfl⟩
  rw [List.drop_left, ← validUtf8_char (isChar_whitespace w hw).1]
  exact hb

lemma validUtf8_trimEnd (h : validUtf8 b = true) : validUtf8 (trimEnd b) = true := by
  apply dropEncodings_induct (P := fun b => validUtf8 b.reverse = true)
  · rintro b hb w hw ⟨t, rfl⟩
    obtain ⟨v, hv, rfl⟩ := List.mem_map.mp hw
    obtain ⟨-, x, u, rfl, hx⟩ := isChar_whitespace v hv
    rw [List.reverse_append, List.reverse_reverse] at hb
    rw [List.drop_left]
    exact validUtf8_cut hx hb
  · rwa [List.reverse_reverse]

lemma validUtf8_trim (h : validUtf8 b = true) : validUtf8 (trim b) = true :=
  validUtf8_trimEnd (validUtf8_trimStart h)

end Trimming

end Ledwall.Values
