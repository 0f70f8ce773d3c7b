import Ledwall.Flash.Transfer
import Ledwall.Values.PushRoundTrip

/-! Bitstreams the server takes in: the payload of an upload and the name it is kept under. -/

namespace Ledwall.Server.Bitstreams

open Ledwall.Wire Ledwall.Values Ledwall.Flash

def PREAMBLE : List Byte := [0xFF, 0xFF, 0xFF, 0xBD, 0xB3]
def SYNC : List Byte := [0xBD, 0xB3]

/-- `bytes.find` -/
def find (pat : List Byte) : List Byte → Option ℕ
  | [] => if pat = [] then some 0 else none
  | b :: t => if pat <+: b :: t then some 0 else (find pat t).map (· + 1)

/-- The answers of status 400. -/
inductive Refusal
  | unsafeName (name : Str)
  | notAnIdentity (name : Str)
  | noPreamble
  deriving DecidableEq, Repr

def payload (raw : List Byte) : Except Refusal (List Byte) :=
  match find PREAMBLE raw with
  | some i => .ok (raw.drop i)
  | none => if (find SYNC (raw.take 8)).isSome then .ok raw else .error .noPreamble

def BOARDS : List Str := ["5a-75e".toList, "e320".toList]

/-- The zeros of the decimal digits, category Nd of Unicode 15. -/
def DECIMAL_ZEROS : List ℕ :=
  [0x30, 0x660, 0x6F0, 0x7C0, 0x966, 0x9E6, 0xA66, 0xAE6, 0xB66, 0xBE6, 0xC66, 0xCE6, 0xD66, 0xDE6,
   0xE50, 0xED0, 0xF20, 0x1040, 0x1090, 0x17E0, 0x1810, 0x1946, 0x19D0, 0x1A80, 0x1A90, 0x1B50,
   0x1BB0, 0x1C40, 0x1C50, 0xA620, 0xA8D0, 0xA900, 0xA9D0, 0xA9F0, 0xAA50, 0xABF0, 0xFF10, 0x104A0,
   0x10D30, 0x11066, 0x110F0, 0x11136, 0x111D0, 0x112F0, 0x11450, 0x114D0, 0x11650, 0x116C0,
   0x11730, 0x118E0, 0x11950, 0x11C50, 0x11D50, 0x11DA0, 0x11F50, 0x16A60, 0x16AC0, 0x16B50,
   0x1D7CE, 0x1D7D8, 0x1D7E2, 0x1D7EC, 0x1D7F6, 0x1E140, 0x1E2F0, 0x1E4F0, 0x1E950, 0x1FBF0]

/-- `\d` -/
def isDecimal (c : Char) : Bool := DECIMAL_ZEROS.any fun z => z ≤ c.toNat && c.toNat < z + 10

/-- `\d+` -/
def isDigits (s : Str) : Bool := !s.isEmpty && s.all isDecimal

/-- `\d+x\d+` -/
def isPanel (s : Str) : Bool :=
  match s.splitOn 'x' with
  | [w, h] => isDigits w && isDigits h
  | _ => false

/-- `[a-z0-9]+` -/
def isQualifier (s : Str) : Bool :=
  !s.isEmpty && s.all fun c => 'a' ≤ c && c ≤ 'z' || '0' ≤ c && c ≤ '9'

/-- `out\d+` -/
def isOutputs : Str → Bool
  | 'o' :: 'u' :: 't' :: n => isDigits n
  | _ => false

/-- `v\d+\.\d+\.\d+\.bit$`, where `$` stands also ahead of a last line feed. -/
def isVersion : Str → Bool
  | 'v' :: s =>
    match s.splitOn '.' with
    | [a, b, c, e] => isDigits a && isDigits b && isDigits c &&
        (e == ['b', 'i', 't'] || e == ['b', 'i', 't', '\n'])
    | _ => false
  | _ => false

/-- What follows the board. No part of it has a hyphen of its own. -/
def isIdentity (s : Str) : Bool :=
  match s.splitOn '-' with
  | panel :: rest =>
    match rest.reverse with
    | version :: outputs :: qualifiers =>
      isPanel panel && qualifiers.all isQualifier && isOutputs outputs && isVersion version
    | _ => false
  | [] => false

/-- `SAFE_NAME.match` -/
def safeName (name : Str) : Bool :=
  BOARDS.any fun b => (b ++ ['-']).isPrefixOf name && isIdentity (name.drop (b.length + 1))

def path (name : Str) : Except Refusal Unit :=
  if '/' ∈ name ∨ ['.', '.'] <:+: name then .error (.unsafeName name)
  else if safeName name then .ok ()
  else .error (.notAnIdentity name)

/-- `os.path.basename` -/
def basename (s : Str) : Str := (s.reverse.takeWhile (· ≠ '/')).reverse

def bitSuffix : Str := ".bit".toList

/-- The name a file is stored under, and what it then holds. -/
def uploadBitstream (filename : Str) (raw : List Byte) : Except Refusal (Str × List Byte) := do
  let name := basename filename
  let name := if bitSuffix <:+ name then name else name ++ bitSuffix
  path name
  let body ← payload raw
  return (name, body)

section Payload

variable {pat raw body : List Byte} {i : ℕ}

lemma find_some (h : find pat raw = some i) : pat <+: raw.drop i := by
  induction raw generalizing i with
  | nil =>
    rw [find] at h
    split at h
    · next hp =>
      rw [hp]
      exact List.nil_prefix
    · cases h
  | cons b t ih =>
    rw [find] at h
    split at h
    · next hp =>
      cases h
      exact hp
    · obtain ⟨j, hj, rfl⟩ := Option.map_eq_some_iff.mp h
      exact ih hj

lemma find_prefix (h : pat <+: raw) : find pat raw = some 0 := by
  cases raw with
  | nil => simp [find, List.prefix_nil.mp h]
  | cons b t => simp [find, h]

lemma payload_cases (h : payload raw = .ok body) :
    body <:+ raw ∧ (PREAMBLE <+: body ∨
      find PREAMBLE body = none ∧ (find SYNC (body.take 8)).isSome = true) := by
  rw [payload] at h
  split at h
  · next i hi =>
    cases h
    exact ⟨List.drop_suffix i raw, .inl (find_some hi)⟩
  · next hi =>
    split at h
    · next hs =>
      cases h
      exact ⟨List.suffix_refl raw, .inr ⟨hi, hs⟩⟩
    · cases h

lemma payload_again (h : payload raw = .ok body) : payload body = .ok body := by
  rcases (payload_cases h).2 with hpre | ⟨hnone, hsync⟩
  · simp [payload, find_prefix hpre]
  · simp [payload, hnone, hsync]

lemma hasSync_of_drop {p t : List Byte} (hi : i < 7) (h : p.drop i = 0xBD :: 0xB3 :: t) :
    BitstreamLoader.hasSync p = true := by
  have hlen := congrArg List.length h
  rw [List.length_drop, List.length_cons, List.length_cons] at hlen
  have hget (k : ℕ) : p.getD (i + k) 0 = (0xBD :: 0xB3 :: t).getD k 0 := by
    rw [← h]
    simp [List.getD_eq_getElem?_getD]
  rw [BitstreamLoader.hasSync, List.any_eq_true]
  refine ⟨i, List.mem_range.mpr hi, ?_⟩
  have h₀ : p.getD i 0 = 0xBD := hget 0
  have h₁ : p.getD (i + 1) 0 = 0xB3 := hget 1
  rw [h₀, h₁]
  simp
  omega

lemma hasSync_block {t : List Byte} (hi : i < 7) (h : body.drop i = 0xBD :: 0xB3 :: t) :
    BitstreamLoader.hasSync (blockOf body 1) = true := by
  apply hasSync_of_drop (t := t.take (BLOCK - i - 2)) hi
  change (body.take BLOCK).drop i = _
  rw [List.drop_take, h]
  have : BLOCK - i = BLOCK - i - 2 + 2 := by
    simp only [BLOCK]
    omega
  rw [this]
  rfl

lemma payload_hasSync (h : payload raw = .ok body) :
    BitstreamLoader.hasSync (blockOf body 1) = true := by
  rcases (payload_cases h).2 with ⟨t, rfl⟩ | ⟨-, hsync⟩
  · exact hasSync_block (i := 3) (by decide) rfl
  · obtain ⟨i, hi⟩ := Option.isSome_iff_exists.mp hsync
    obtain ⟨t, ht⟩ := find_some hi
    have hlen := congrArg List.length ht
    simp only [SYNC, List.length_append, List.length_cons, List.length_nil, List.length_drop,
      List.length_take] at hlen
    apply hasSync_block (i := i) (t := t ++ body.drop 8) (by omega)
    have hsplit : body.drop i = (body.take 8).drop i ++ body.drop 8 := by
      rw [← List.drop_append_of_le_length (by rw [List.length_take]; omega), List.take_append_drop]
    rw [hsplit, ← ht]
    rfl

end Payload

section Names

variable {s : Str} {c x : Char}

/-- A character of an accepted name. -/
def NameChar (c : Char) : Prop :=
  isDecimal c = true ∨ ('a' ≤ c ∧ c ≤ 'z') ∨ c = '-' ∨ c = '.' ∨ c = '\n'

lemma mem_splitOn (h : c ∈ s) : c = x ∨ ∃ l ∈ s.splitOn x, c ∈ l := by
  have hmem (ls : List Str) (h : c ∈ [x].intercalate ls) : c = x ∨ ∃ l ∈ ls, c ∈ l := by
    rw [List.intercalate] at h
    induction ls with
    | nil => cases h
    | cons l ls ih =>
      cases ls with
      | nil =>
        rw [List.intersperse_singleton, List.flatten_singleton] at h
        exact .inr ⟨l, List.mem_cons_self, h⟩
      | cons m ls =>
        rw [List.intersperse_cons_cons, List.flatten_cons, List.flatten_cons] at h
        rcases List.mem_append.mp h with h | h
        · exact .inr ⟨l, List.mem_cons_self, h⟩
        rcases List.mem_append.mp h with h | h
        · exact .inl (List.mem_singleton.mp h)
        · rcases ih h with hx | ⟨l', hl', hc⟩
          · exact .inl hx
          · exact .inr ⟨l', List.mem_cons_of_mem l hl', hc⟩
  apply hmem
  rwa [List.intercalate_splitOn]

lemma isDigits_chars (h : isDigits s = true) : ∀ c ∈ s, NameChar c := by
  intro c hc
  rw [isDigits, Bool.and_eq_true] at h
  exact .inl (List.all_eq_true.mp h.2 c hc)

lemma isPanel_chars (h : isPanel s = true) : ∀ c ∈ s, NameChar c := by
  intro c hc
  rw [isPanel] at h
  split at h
  · next w v hsplit =>
    rw [Bool.and_eq_true] at h
    rcases @mem_splitOn s c 'x' hc with rfl | ⟨l, hl, hc⟩
    · exact .inr (.inl (by decide))
    · rw [hsplit] at hl
      simp only [List.mem_cons, List.not_mem_nil, or_false] at hl
      rcases hl with rfl | rfl
      · exact isDigits_chars h.1 c hc
      · exact isDigits_chars h.2 c hc
  · cases h

lemma isQualifier_chars (h : isQualifier s = true) : ∀ c ∈ s, NameChar c := by
  intro c hc
  rw [isQualifier, Bool.and_eq_true] at h
  have hrange := List.all_eq_true.mp h.2 c hc
  simp only [Bool.or_eq_true, Bool.and_eq_true, decide_eq_true_eq] at hrange
  rcases hrange with hletter | ⟨hlo, hhi⟩
  · exact .inr (.inl hletter)
  · left
    rw [isDecimal, List.any_eq_true]
    refine ⟨0x30, by decide, ?_⟩
    have hlo : 48 ≤ c.toNat := hlo
    have hhi : c.toNat ≤ 57 := hhi
    simp only [Bool.and_eq_true, decide_eq_true_eq]
    omega

lemma isOutputs_chars (h : isOutputs s = true) : ∀ c ∈ s, NameChar c := by
  rw [isOutputs.eq_def] at h
  split at h
  · intro c hc
    simp only [List.mem_cons] at hc
    rcases hc with rfl | rfl | rfl | hc
    · exact .inr (.inl (by decide))
    · exact .inr (.inl (by decide))
    · exact .inr (.inl (by decide))
    · exact isDigits_chars h c hc
  · cases h

lemma isVersion_chars (h : isVersion s = true) : ∀ c ∈ s, NameChar c := by
  rw [isVersion.eq_def] at h
  split at h
  · next s =>
    split at h
    · next n₁ n₂ n₃ e hsplit =>
      simp only [Bool.and_eq_true, Bool.or_eq_true, beq_iff_eq] at h
      obtain ⟨⟨⟨h₁, h₂⟩, h₃⟩, he⟩ := h
      intro c hc
      rcases List.mem_cons.mp hc with rfl | hc
      · exact .inr (.inl (by decide))
      rcases @mem_splitOn s c '.' hc with rfl | ⟨l, hl, hc⟩
      · exact .inr (.inr (.inr (.inl rfl)))
      · rw [hsplit] at hl
        simp only [List.mem_cons, List.not_mem_nil, or_false] at hl
        rcases hl with rfl | rfl | rfl | rfl
        · exact isDigits_chars h₁ c hc
        · exact isDigits_chars h₂ c hc
        · exact isDigits_chars h₃ c hc
        · have hextension : ∀ c ∈ (['b', 'i', 't', '\n'] : Str), NameChar c := by
            simp only [List.mem_cons, List.not_mem_nil, or_false, NameChar]
            rintro c (rfl | rfl | rfl | rfl) <;> decide
          rcases he with rfl | rfl
          · exact hextension c (List.mem_append_left ['\n'] hc)
          · exact hextension c hc
    · cases h
  · cases h

lemma isIdentity_chars (h : isIdentity s = true) : ∀ c ∈ s, NameChar c := by
  rw [isIdentity] at h
  split at h
  · next panel rest hsplit =>
    split at h
    · next version outputs qualifiers hrest =>
      simp only [Bool.and_eq_true] at h
      obtain ⟨⟨⟨hpanel, hqualifiers⟩, houtputs⟩, hversion⟩ := h
      intro c hc
      rcases @mem_splitOn s c '-' hc with rfl | ⟨l, hl, hc⟩
      · exact .inr (.inr (.inl rfl))
      · rw [hsplit] at hl
        rcases List.mem_cons.mp hl with rfl | hl
        · exact isPanel_chars hpanel c hc
        · rw [← List.mem_reverse, hrest] at hl
          simp only [List.mem_cons] at hl
          rcases hl with rfl | rfl | hl
          · exact isVersion_chars hversion c hc
          · exact isOutputs_chars houtputs c hc
          · exact isQualifier_chars (List.all_eq_true.mp hqualifiers l hl) c hc
    · cases h
  · cases h

lemma safeName_chars (h : safeName s = true) : ∀ c ∈ s, NameChar c := by
  rw [safeName, List.any_eq_true] at h
  obtain ⟨b, hb, hname⟩ := h
  rw [Bool.and_eq_true] at hname
  obtain ⟨t, rfl⟩ := List.isPrefixOf_iff_prefix.mp hname.1
  have hrest := hname.2
  rw [List.drop_left' (by simp)] at hrest
  have hboard : ∀ b ∈ BOARDS, ∀ c ∈ b ++ ['-'], NameChar c := by
    simp only [BOARDS, NameChar]
    decide
  intro c hc
  rcases List.mem_append.mp hc with hc | hc
  · exact hboard b hb c hc
  · exact isIdentity_chars hrest c hc

lemma NameChar.unescaped (h : NameChar c) : c ≠ '"' ∧ c ≠ '\\' := by
  constructor <;> rintro rfl <;> revert h <;> simp only [NameChar] <;> decide

end Names

end Ledwall.Server.Bitstreams
