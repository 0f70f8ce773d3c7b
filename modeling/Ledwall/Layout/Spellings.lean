import Ledwall.Layout.LayoutSettings

/-! A layout written with "=" and with ": ", and when the card reads the same of both. -/

namespace Ledwall.Layout

open Ledwall.Wire Ledwall.Values

section Unread

variable {s key value : Str}

lemma parseDigits_isDigit {bound n : ℕ} (h : parseDigits bound s = some n) :
    ∀ c ∈ s, c.isDigit = true := by
  have hfold (r : ℕ) (s : Str) (n : ℕ) (h : s.foldlM (fun result c =>
      if c.isDigit ∧ result * 10 + (c.toNat - '0'.toNat) < bound then
        some (result * 10 + (c.toNat - '0'.toNat))
      else none) r = some n) : ∀ c ∈ s, c.isDigit = true := by
    induction s generalizing r with
    | nil => simp
    | cons c s ih =>
      rw [List.foldlM_cons] at h
      split at h
      · next hc =>
        intro d hd
        rcases List.mem_cons.mp hd with rfl | hd
        · exact hc.1
        · exact ih _ h d hd
      · cases h
  rw [parseDigits] at h
  split at h
  · cases h
  · exact hfold 0 s n h

lemma parseU16_isDigit {n : BitVec 16} (h : parseU16 s = some n) : ∀ c ∈ s, c.isDigit = true := by
  obtain ⟨m, hm, -⟩ := Option.map_eq_some_iff.mp h
  exact parseDigits_isDigit hm

lemma parseU8_isDigit {n : Byte} (h : parseU8 s = some n) : ∀ c ∈ s, c.isDigit = true := by
  obtain ⟨m, hm, -⟩ := Option.map_eq_some_iff.mp h
  exact parseDigits_isDigit hm

lemma parsePair_chars {α : Type} {sep : Char} {parse : Str → Option α} {P : Char → Prop}
    (hparse : ∀ t a, parse t = some a → ∀ c ∈ t, P c) {xy : α × α}
    (h : parsePair sep parse s = some xy) : sep ∈ s ∧ ∀ c ∈ s, P c ∨ c = sep := by
  rw [parsePair] at h
  split at h
  · next hsep =>
    obtain ⟨x, hx, h⟩ := Option.bind_eq_some_iff.mp h
    obtain ⟨y, hy, -⟩ := Option.bind_eq_some_iff.mp h
    refine ⟨hsep, ?_⟩
    intro c hc
    rw [← @List.takeWhile_append_dropWhile _ (· ≠ sep) s] at hc
    rcases List.mem_append.mp hc with hc | hc
    · exact Or.inl (hparse _ _ hx c hc)
    · cases hd : s.dropWhile (· ≠ sep) with
      | nil =>
        rw [hd] at hc
        cases hc
      | cons d rest =>
        have hstop : d = sep := by
          have hhead := List.head?_dropWhile_not (· ≠ sep) s
          rw [hd] at hhead
          simpa using hhead
        rw [hd] at hc hy
        rcases List.mem_cons.mp hc with rfl | hc
        · exact Or.inr hstop
        · exact Or.inl (hparse _ _ hy c hc)
  · cases h

lemma layoutKey_of_colon (hcolon : ':' ∈ key) : layoutKey key = none := by
  by_cases hJ : key.head? = some 'J'
  · cases key with
    | nil => cases hJ
    | cons c rest =>
      obtain rfl := Option.some.inj hJ
      have hrest : ':' ∈ rest := by simpa using hcolon
      have hdigits : parseU8 rest = none := by
        cases hparse : parseU8 rest with
        | none => rfl
        | some n =>
          exact absurd (parseU8_isDigit hparse ':' hrest) (by decide)
      have hknown : ∀ e ∈ KEYS, e.1.head? ≠ some 'J' := by decide
      have hfind : KEYS.find? (fun e => e.1 = 'J' :: rest) = none := by
        apply List.find?_eq_none.mpr
        intro e he heq
        exact hknown e he (by rw [of_decide_eq_true heq]; rfl)
      rw [layoutKey, hfind]
      simp [outputKey, hdigits]
  · exact layoutKey_colon hcolon hJ

lemma layoutKey_hash (hhash : key.head? = some '#') : layoutKey key = none := by
  have hknown : ∀ e ∈ KEYS, e.1.head? ≠ some '#' := by decide
  have hfind : KEYS.find? (fun e => e.1 = key) = none := by
    apply List.find?_eq_none.mpr
    intro e he heq
    rw [← of_decide_eq_true heq] at hhash
    exact hknown e he hhash
  rw [layoutKey, hfind]
  cases key with
  | nil => rfl
  | cons c rest =>
    obtain rfl := Option.some.inj hhash
    rfl

end Unread

section Separated

variable {name value s t : Str} {c : Char}

lemma dropWhile_cons_stop {p : Char → Bool} (hc : p c = false) (s t : Str) :
    (s ++ c :: t).dropWhile p = s.dropWhile p ++ c :: t := by
  induction s with
  | nil => simp [hc]
  | cons d s ih =>
    by_cases hd : p d = true
    · simpa [hd] using ih
    · simp [hd]

lemma trimmed_around (hc : whiteSpace c = false) (s t : Str) :
    trimmed (s ++ c :: t) = s.dropWhile whiteSpace ++ c :: t.rdropWhile whiteSpace := by
  have hend : (c :: t).rdropWhile whiteSpace = c :: t.rdropWhile whiteSpace := by
    have hsplit : c :: t = [c] ++ t := rfl
    rw [hsplit, rdropWhile_append]
    split
    · next h =>
      rw [h]
      exact List.rdropWhile_concat_neg _ [] c (by simp [hc])
    · rfl
  rw [trimmed, dropWhile_cons_stop hc, rdropWhile_append, hend, if_neg (List.cons_ne_nil _ _)]

lemma trimmed_dropWhile (s : Str) : trimmed (s.dropWhile whiteSpace) = trimmed s := by
  rw [trimmed, trimmed, List.dropWhile_idempotent]

lemma trimmed_blank (h : ∀ c ∈ s, whiteSpace c = true) (t : Str) : trimmed (s ++ t) = trimmed t := by
  rw [← trimmed_dropWhile (s ++ t), List.dropWhile_append_of_pos h, trimmed_dropWhile]

lemma trimmed_append_blank (h : ∀ c ∈ t, whiteSpace c = true) (s : Str) :
    trimmed (s ++ t) = trimmed s := by
  have hblank : t.rdropWhile whiteSpace = [] := List.rdropWhile_eq_nil_iff.mpr h
  rw [← trimmed_rdropWhile (s ++ t), rdropWhile_append, if_pos hblank, trimmed_rdropWhile]

lemma layoutKey_commented (h : (name.dropWhile whiteSpace).head? = some '#') :
    layoutKey (trimmed name) = none := by
  obtain ⟨rest, hrest⟩ : ∃ rest, name.dropWhile whiteSpace = '#' :: rest := by
    cases hname : name.dropWhile whiteSpace with
    | nil =>
      rw [hname] at h
      cases h
    | cons c rest =>
      rw [hname] at h
      exact ⟨rest, by rw [Option.some.inj h]⟩
  have htrim := trimmed_around (by decide : whiteSpace '#' = false) [] rest
  rw [List.nil_append] at htrim
  rw [← trimmed_dropWhile, hrest, htrim]
  exact layoutKey_hash rfl

lemma head?_append_cons (s t : Str) (hc : c ≠ '#') :
    (s ++ c :: t).head? = some '#' ↔ s.head? = some '#' := by
  cases s with
  | nil => simp [hc]
  | cons d s => simp

lemma setting_equals (hname : '=' ∉ name) (value : Str) :
    setting (name ++ '=' :: value) = (layoutKey (trimmed name)).map fun key => (key, trimmed value) := by
  have hstart : ∀ c ∈ name.dropWhile whiteSpace, decide (c ≠ '=') = true := by
    intro c hc
    have hmem := (List.dropWhile_sublist _).subset hc
    exact decide_eq_true fun h => hname (h ▸ hmem)
  rw [setting, trimmed_around (by decide)]
  simp only [head?_append_cons _ _ (by decide : '=' ≠ '#'), List.append_eq_nil_iff,
    reduceCtorEq, and_false, false_or]
  split
  · next hhash => rw [layoutKey_commented hhash, Option.map_none]
  · rw [keyValue, if_pos (by simp), Option.bind_some, List.takeWhile_append_of_pos hstart,
      List.dropWhile_append_of_pos hstart]
    simp [trimmed_dropWhile, trimmed_rdropWhile]

lemma setting_colon (hequals : '=' ∉ name) (hcolon : ':' ∉ name) (value : Str) :
    setting (name ++ ':' :: ' ' :: value) =
      if '=' ∈ value ∨ trimmed value = [] then none
      else (layoutKey (trimmed name)).map fun key => (key, trimmed value) := by
  have hequals' : '=' ∉ name.dropWhile whiteSpace :=
    fun h => hequals ((List.dropWhile_sublist _).subset h)
  have hcolon' : ':' ∉ name.dropWhile whiteSpace :=
    fun h => hcolon ((List.dropWhile_sublist _).subset h)
  have hblank : trimmed value = [] ↔ value.rdropWhile whiteSpace = [] := by
    rw [trimmed_eq_nil, List.rdropWhile_eq_nil_iff]
  have hsplit : ' ' :: value = [' '] ++ value := rfl
  have hspace : [' '].rdropWhile whiteSpace = [] := by decide
  rw [setting, trimmed_around (by decide), hsplit, rdropWhile_append, hspace]
  simp only [head?_append_cons _ _ (by decide : ':' ≠ '#'), List.append_eq_nil_iff,
    reduceCtorEq, and_false, false_or]
  split
  · next hhash => rw [layoutKey_commented hhash, Option.map_none, ite_self]
  · by_cases hv : value.rdropWhile whiteSpace = []
    · rw [if_pos hv, if_pos (Or.inr (hblank.mpr hv)), keyValue,
        if_neg (by simpa using hequals'), splitColon_none hcolon', Option.bind_none]
    · have hnext : [' '] ++ value.rdropWhile whiteSpace = ' ' :: value.rdropWhile whiteSpace := rfl
      rw [if_neg hv, hnext, keyValue]
      by_cases heq : '=' ∈ value
      · -- the "=" of the value ends the key, which then has the colon in it
        have heq' : '=' ∈ value.rdropWhile whiteSpace := (mem_rdropWhile (by decide)).mpr heq
        have htake : (name.dropWhile whiteSpace ++ ':' :: ' ' :: value.rdropWhile whiteSpace).takeWhile
            (· ≠ '=') = name.dropWhile whiteSpace ++
              ':' :: ' ' :: (value.rdropWhile whiteSpace).takeWhile (· ≠ '=') := by
          rw [List.takeWhile_append_of_pos]
          · simp
          · exact fun c hc => decide_eq_true fun h => hequals' (h ▸ hc)
        have hkept (rest : Str) :
            ':' ∈ trimmed (name.dropWhile whiteSpace ++ ':' :: ' ' :: rest) := by
          rw [trimmed_around (by decide)]
          simp
        rw [if_pos (by simp [heq']), if_pos (Or.inl heq), Option.bind_some, htake,
          layoutKey_of_colon (hkept _), Option.map_none]
      · have heq' : '=' ∉ value.rdropWhile whiteSpace :=
          fun h => heq ((mem_rdropWhile (by decide)).mp h)
        rw [if_neg (by simp [heq', hequals']), if_neg (by simp [heq, hblank, hv]),
          splitColon_key hcolon', Option.bind_some, trimmed_dropWhile, trimmed_rdropWhile]

lemma setting_plain (hequals : '=' ∉ s) (hcolon : ':' ∉ s) : setting s = none := by
  have hsub : ∀ c ∈ trimmed s, c ∈ s := fun c hc =>
    (List.dropWhile_sublist _).subset ((List.rdropWhile_prefix _ _).subset hc)
  have hnone (t : Str) (ht : ':' ∉ t) : splitColon t = none := by
    induction t with
    | nil => rfl
    | cons c t ih =>
      rw [splitColon, ih fun h => ht (List.mem_cons_of_mem c h), Option.map_none]
      rintro rest rfl -
      exact ht List.mem_cons_self
  simp only [setting]
  split
  · rfl
  · rw [keyValue, if_neg fun h => hequals (hsub _ h), hnone _ fun h => hcolon (hsub _ h),
      Option.bind_none]

end Separated

section PlainText

variable {text l : Str} {c : Char}

lemma mem_of_splitOn {a : Char} (hl : l ∈ text.splitOn a) (hc : c ∈ l) : c ∈ text := by
  induction text generalizing l with
  | nil =>
    rw [List.splitOn_nil, List.mem_singleton] at hl
    rwa [hl] at hc
  | cons d text ih =>
    obtain ⟨first, rest, hsplit⟩ := List.exists_cons_of_ne_nil (List.splitOn_ne_nil a text)
    rw [List.splitOn_cons_eq_if_modifyHead] at hl
    split at hl
    · rcases List.mem_cons.mp hl with rfl | hl
      · cases hc
      · exact List.mem_cons_of_mem d (ih hl hc)
    · rw [hsplit, List.modifyHead_cons] at hl
      rcases List.mem_cons.mp hl with rfl | hl
      · rcases List.mem_cons.mp hc with rfl | hc
        · exact List.mem_cons_self
        · exact List.mem_cons_of_mem d (ih (hsplit ▸ List.mem_cons_self) hc)
      · exact List.mem_cons_of_mem d (ih (hsplit ▸ List.mem_cons_of_mem first hl) hc)

lemma settings_plain (hended : Ended text) (hequals : '=' ∉ text) (hcolon : ':' ∉ text) :
    settings text = [] := by
  rcases hended with rfl | ⟨a, rfl⟩
  · rfl
  · rw [settings, lines_ended, List.filterMap_map]
    apply List.filterMap_eq_nil_iff.mpr
    intro l hl
    have hsub : ∀ c ∈ l, c ∈ a ++ ['\n'] := fun c hc =>
      List.mem_append_left _ (mem_of_splitOn hl hc)
    rw [Function.comp_apply, setting_stripCr]
    exact setting_plain (fun h => hequals (hsub _ h)) fun h => hcolon (hsub _ h)

end PlainText

/-- A key without a separator and a value on one line. -/
structure Pair where
  key : Str
  value : Str
  plain : '=' ∉ key ∧ ':' ∉ key
  oneLine : '\n' ∉ value

def Blank : Type := { s : Str // ∀ c ∈ s, whiteSpace c = true ∧ c ≠ '\n' }

/-- A blank line or a comment. -/
def Filler : Type :=
  { line : Str // '\n' ∉ line ∧ (trimmed line = [] ∨ (trimmed line).head? = some '#') }

/-- What stands in front of a pair and around its parts. -/
structure Gap where
  fillers : List Filler
  left : Blank
  middle : Blank
  inner : Blank
  right : Blank

inductive Spelling
  | equals
  | colon

def Spelling.separator : Spelling → Str
  | equals => ['=']
  | colon => [':', ' ']

def Gap.filling (gap : Gap) : Str := gap.fillers.flatMap fun filler => filler.val ++ ['\n']

def Gap.line (gap : Gap) (spelling : Spelling) (pair : Pair) : Str :=
  gap.left.val ++ pair.key ++ gap.middle.val ++ spelling.separator ++
    (gap.inner.val ++ pair.value ++ gap.right.val)

/-- The pairs as text: the gaps are those in front of each, then the one behind the last. -/
def written (spelling : Spelling) (gaps : ℕ → Gap) : List Pair → Str
  | [] => (gaps 0).filling
  | pair :: pairs =>
    (gaps 0).filling ++ ((gaps 0).line spelling pair ++ ['\n']) ++
      written spelling (fun n => gaps (n + 1)) pairs

namespace Pair

variable (pair : Pair)

/-- What of the key stands on the value's line. -/
def name : Str := pair.key.rtakeWhile fun c => c ≠ '\n'

def setting : Option (LayoutKey × Str) :=
  (layoutKey (trimmed pair.name)).map fun key => (key, trimmed pair.value)

end Pair

/-- A value neither blank nor with a "=" in it. -/
def clean (e : LayoutKey × Str) : Bool := '=' ∉ e.2 ∧ e.2 ≠ []

def Spelling.reads : Spelling → LayoutKey × Str → Bool
  | equals => fun _ => true
  | colon => clean

section Reading

variable (gap : Gap) (spelling : Spelling) (pair : Pair)

lemma Gap.filling_ended : Ended gap.filling := by
  rw [Gap.filling]
  induction gap.fillers with
  | nil => exact Or.inl rfl
  | cons filler fillers ih =>
    rw [List.flatMap_cons]
    exact Ended.append (Or.inr ⟨filler.val, rfl⟩) ih

lemma Filler.setting (filler : Filler) : Layout.setting filler.val = none := if_pos filler.property.2

lemma Gap.settings_filling : settings gap.filling = [] := by
  rw [Gap.filling]
  induction gap.fillers with
  | nil => rfl
  | cons filler fillers ih =>
    have hended : Ended (filler.val ++ ['\n']) := Or.inr ⟨filler.val, rfl⟩
    rw [List.flatMap_cons, settings_append hended, ih, settings_line filler.property.1,
      filler.setting]
    rfl

lemma setting_separated {name value : Str} (hplain : '=' ∉ name ∧ ':' ∉ name) :
    Layout.setting (name ++ spelling.separator ++ value) =
      ((layoutKey (trimmed name)).map fun key => (key, trimmed value)).filter spelling.reads := by
  rw [List.append_assoc]
  cases spelling with
  | equals =>
    rw [Spelling.separator, List.singleton_append, setting_equals hplain.1]
    cases layoutKey (trimmed name) <;> rfl
  | colon =>
    have hsep : Spelling.separator .colon ++ value = ':' :: ' ' :: value := rfl
    have hmem : '=' ∈ trimmed value ↔ '=' ∈ value := by
      rw [trimmed, mem_rdropWhile (by decide)]
      constructor
      · exact fun h => (List.dropWhile_sublist _).subset h
      · intro h
        rw [← @List.takeWhile_append_dropWhile _ whiteSpace value] at h
        rcases List.mem_append.mp h with h | h
        · exact absurd (List.mem_takeWhile_imp h) (by decide)
        · exact h
    rw [hsep, setting_colon hplain.1 hplain.2]
    cases layoutKey (trimmed name) with
    | none => simp
    | some key =>
      simp only [Option.map_some, Option.filter_some, Spelling.reads, clean, hmem]
      by_cases heq : '=' ∈ value
      · simp [heq]
      · by_cases hblank : trimmed value = []
        · simp [hblank]
        · simp [heq, hblank]

lemma Blank.not_mem (blank : Blank) {c : Char} (hc : whiteSpace c = false) : c ∉ blank.val := by
  intro hmem
  rw [(blank.property c hmem).1] at hc
  cases hc

lemma Pair.key_split : ∃ before name, gap.left.val ++ pair.key ++ gap.middle.val = before ++ name ∧
    Ended before ∧ ('=' ∉ before ∧ ':' ∉ before) ∧ ('=' ∉ name ∧ ':' ∉ name) ∧ '\n' ∉ name ∧
    trimmed name = trimmed pair.name := by
  have hblank (blank : Blank) : ∀ c ∈ blank.val, whiteSpace c = true :=
    fun c hc => (blank.property c hc).1
  have hkey : pair.key.rdropWhile (fun c => c ≠ '\n') ++ pair.name = pair.key :=
    List.rdropWhile_append_rtakeWhile
  have hlast := List.rdropWhile_last_not (fun c : Char => decide (c ≠ '\n')) pair.key
  have hname : '\n' ∉ pair.name := fun h => by simpa using List.mem_rtakeWhile_imp h
  have hline (blank : Blank) : '\n' ∉ blank.val := fun h => (blank.property _ h).2 rfl
  have hequals (blank : Blank) : '=' ∉ blank.val := blank.not_mem (by decide)
  have hcolon (blank : Blank) : ':' ∉ blank.val := blank.not_mem (by decide)
  obtain ⟨hplainE, hplainC⟩ := pair.plain
  generalize pair.key.rdropWhile (fun c => c ≠ '\n') = front at hkey hlast
  rw [← hkey] at hplainE hplainC ⊢
  simp only [List.mem_append, not_or] at hplainE hplainC
  rcases List.eq_nil_or_concat' front with rfl | ⟨pre, c, rfl⟩
  · refine ⟨[], gap.left.val ++ pair.name ++ gap.middle.val, rfl, Or.inl rfl, by simp, ?_, ?_, ?_⟩
    · simp [hequals, hcolon, hplainE.2, hplainC.2]
    · simp [hline, hname]
    · rw [trimmed_append_blank (hblank _), trimmed_blank (hblank _)]
  · have hstop : c = '\n' := by simpa using hlast (by simp)
    refine ⟨gap.left.val ++ (pre ++ [c]), pair.name ++ gap.middle.val, by simp,
      Or.inr ⟨gap.left.val ++ pre, by rw [hstop, List.append_assoc]⟩, ?_, ?_, ?_, ?_⟩
    · simpa [hequals, hcolon] using And.intro hplainE.1 hplainC.1
    · simp [hequals, hcolon, hplainE.2, hplainC.2]
    · simp [hline, hname]
    · exact trimmed_append_blank (hblank _) _

lemma Gap.settings_line : settings (gap.line spelling pair ++ ['\n']) =
    pair.setting.toList.filter spelling.reads := by
  obtain ⟨before, name, hsplit, hended, hplain, hname, honeLine, htrim⟩ := pair.key_split gap
  have hvalue : trimmed (gap.inner.val ++ pair.value ++ gap.right.val) = trimmed pair.value := by
    rw [trimmed_append_blank fun c hc => (gap.right.property c hc).1,
      trimmed_blank fun c hc => (gap.inner.property c hc).1]
  have hline : '\n' ∉ name ++ spelling.separator ++
      (gap.inner.val ++ pair.value ++ gap.right.val) := by
    have hblank (blank : Blank) : '\n' ∉ blank.val := fun h => (blank.property _ h).2 rfl
    cases spelling <;> simp [Spelling.separator, honeLine, hblank, pair.oneLine]
  have htext : gap.line spelling pair ++ ['\n'] = before ++ (name ++ spelling.separator ++
      (gap.inner.val ++ pair.value ++ gap.right.val) ++ ['\n']) := by
    rw [Gap.line, hsplit]
    simp only [List.append_assoc]
  rw [htext, settings_append hended, settings_plain hended hplain.1 hplain.2, List.nil_append,
    Layout.settings_line hline, setting_separated spelling hname, htrim, hvalue, Pair.setting]
  cases layoutKey (trimmed pair.name) with
  | none => rfl
  | some key =>
    rw [Option.map_some, Option.filter_some, Option.toList_some, List.filter_cons, List.filter_nil]
    split <;> rfl

/-- A text is read pair by pair, each as its spelling allows. -/
theorem settings_written (gaps : ℕ → Gap) (pairs : List Pair) :
    settings (written spelling gaps pairs) = (pairs.filterMap Pair.setting).filter spelling.reads := by
  induction pairs generalizing gaps with
  | nil => exact (gaps 0).settings_filling
  | cons pair pairs ih =>
    have hline : Ended ((gaps 0).line spelling pair ++ ['\n']) := Or.inr ⟨_, rfl⟩
    rw [written, settings_append ((gaps 0).filling_ended.append hline),
      settings_append (gaps 0).filling_ended, (gaps 0).settings_filling, (gaps 0).settings_line, ih,
      List.nil_append, List.filterMap_cons]
    cases pair.setting with
    | none => rfl
    | some e => rw [Option.toList_some, ← List.filter_append, List.singleton_append]

end Reading

section Guarded

variable {α : Type} {f : Str → Option α}

lemma filterMap_clean (key : LayoutKey) (hf : ∀ v a, f v = some a → clean (key, v) = true)
    (es : List (LayoutKey × Str)) :
    (valuesOf key (es.filter clean)).filterMap f = (valuesOf key es).filterMap f := by
  induction es with
  | nil => rfl
  | cons e es ih =>
    obtain ⟨k, v⟩ := e
    rw [List.filter_cons, valuesOf_cons]
    split
    · rw [valuesOf_cons]
      split
      · rw [List.filterMap_cons, List.filterMap_cons, ih]
      · exact ih
    · next hdirty =>
      split
      · next hk =>
        subst hk
        have hnone : f v = none := by
          cases hv : f v with
          | none => rfl
          | some a => exact absurd (hf v a hv) hdirty
        rw [ih, List.filterMap_cons_none hnone]
      · exact ih

lemma clean_of_digits (key : LayoutKey) {v : Str} (hne : v ≠ [])
    (h : ∀ c ∈ v, c.isDigit = true ∨ c = 'x') : clean (key, v) = true := by
  apply decide_eq_true
  refine ⟨?_, hne⟩
  intro hmem
  rcases h _ hmem with hc | hc
  · exact absurd hc (by decide)
  · exact absurd hc (by decide)

lemma clean_of_parseU16 (key : LayoutKey) {v : Str} {n : BitVec 16} (h : parseU16 v = some n) :
    clean (key, v) = true := by
  refine clean_of_digits key ?_ fun c hc => Or.inl (parseU16_isDigit h c hc)
  rintro rfl
  cases h

lemma clean_of_parseUpTo (key : LayoutKey) {limit : ℕ} {v : Str} {n : Byte}
    (h : parseUpTo limit v = some n) : clean (key, v) = true := by
  obtain ⟨m, hm, -⟩ := Option.map_eq_some_iff.mp h
  exact clean_of_parseU16 key hm

lemma clean_of_parseGrid (key : LayoutKey) {v : Str} {xy : Byte × Byte}
    (h : parseGrid v = some xy) : clean (key, v) = true := by
  obtain ⟨hx, hchars⟩ := parsePair_chars (fun t a ht => parseU8_isDigit ht) h
  exact clean_of_digits key (List.ne_nil_of_mem hx) hchars

end Guarded

/-- A key whose last line alone counts. -/
def given {α : Type} (key : LayoutKey) (read : Str → α) (default : α)
    (es : List (LayoutKey × Str)) : α :=
  ((valuesOf key es).getLast?.map read).getD default

/-- The position a connector's slot is given last. -/
def lastPos (n : Fin MAX_OUTPUTS) (chain : Fin MAX_CHAIN) (es : List (LayoutKey × Str)) :
    Option (Byte × Byte) :=
  ((valuesOf (.output n) es).filterMap fun v => ((words v)[chain.val]?).bind parsePos).getLast?

def readMode (value : Str) : DisplayMode :=
  if eqIgnoreAsciiCase value "program".toList then .program else .stream

def readName (value : Str) : List Byte := (utf8 value).take MAX_PROGRAM_NAME

def readOrder (value : Str) : Byte := BitVec.ofNat 8 (rgbIndex value)

/-- Two readings of a layout agree on the keys that take any text. -/
structure SameReading (es fs : List (LayoutKey × Str)) : Prop where
  mode : given .mode readMode .stream es = given .mode readMode .stream fs
  program : given .program readName [] es = given .program readName [] fs
  drive : given .drive readName [] es = given .drive readName [] fs
  rgbOrder : given .rgbOrder readOrder 0 es = given .rgbOrder readOrder 0 fs
  groupOrigins : given .groupOrigins origins [] es = given .groupOrigins origins [] fs
  positions : ∀ n chain, lastPos n chain es = lastPos n chain fs

/-- What the pairs say, and what they say without the values that are blank or have a "=", agree. -/
def Survives (pairs : List Pair) : Prop :=
  SameReading (pairs.filterMap Pair.setting) ((pairs.filterMap Pair.setting).filter clean)

namespace LayoutConfig

variable (config : LayoutConfig) (es fs : List (LayoutKey × Str))

lemma foldl_grid :
    ((es.foldl set config).gridCols, (es.foldl set config).gridRows) =
      ((valuesOf .grid es).filterMap parseGrid).getLast?.getD (config.gridCols, config.gridRows) := by
  rw [← foldl_lastSome]
  refine @foldl_field config es _ (fun c => (c.gridCols, c.gridRows)) .grid
    (fun a v => (parseGrid v).getD a) ?_ ?_
  · intro c v
    simp only [set]
    cases parseGrid v <;> rfl
  · intro c k v h
    cases k with
    | grid => exact absurd rfl h
    | _ => rfl

lemma foldl_assignments (n : Fin MAX_OUTPUTS) (chain : Fin MAX_CHAIN) :
    (es.foldl set config).assignments n chain =
      (lastPos n chain es).or (config.assignments n chain) := by
  have hlast (a : Option (Byte × Byte)) (vs : List Str) :
      vs.foldl (fun a v => (((words v)[chain.val]?).bind parsePos).or a) a =
        (vs.filterMap fun v => ((words v)[chain.val]?).bind parsePos).getLast?.or a := by
    induction vs using List.reverseRecOn with
    | nil => simp
    | append_singleton vs v ih =>
      rw [List.foldl_append, List.filterMap_append, List.foldl_cons, List.foldl_nil, ih]
      cases hv : ((words v)[chain.val]?).bind parsePos with
      | none => simp [hv]
      | some a' => simp [hv]
  rw [lastPos, ← hlast]
  refine @foldl_field config es _ (fun c => c.assignments n chain) (.output n)
    (fun a v => (((words v)[chain.val]?).bind parsePos).or a) ?_ ?_
  · intro c v
    exact if_pos rfl
  · intro c k v h
    cases k with
    | grid =>
      simp only [set]
      split <;> rfl
    | output m => exact if_neg fun hm => h (by rw [hm])
    | _ => rfl

lemma eq_iff {c d : LayoutConfig} : c = d ↔
    c.panelWidth = d.panelWidth ∧ c.panelHeight = d.panelHeight ∧
    (c.gridCols, c.gridRows) = (d.gridCols, d.gridRows) ∧
    (∀ n chain, c.assignments n chain = d.assignments n chain) ∧ c.mode = d.mode ∧
    c.programBytes = d.programBytes ∧ c.driveBytes = d.driveBytes ∧ c.clkDiv = d.clkDiv ∧
    c.writeThrottle = d.writeThrottle ∧ c.rgbOrder = d.rgbOrder ∧
    c.groupOrigins = d.groupOrigins := by
  obtain ⟨_, _, _, _, _, _, _, _, _, _, _, _, _, _, _⟩ := c
  obtain ⟨_, _, _, _, _, _, _, _, _, _, _, _, _, _, _⟩ := d
  simp only [mk.injEq, Prod.mk.injEq, funext_iff, and_assoc]

lemma foldl_clean_iff :
    es.foldl set start = (es.filter clean).foldl set start ↔ SameReading es (es.filter clean) := by
  have hgrid := foldl_grid start (es.filter clean)
  rw [filterMap_clean .grid fun _ _ h => clean_of_parseGrid .grid h, ← foldl_grid] at hgrid
  have hwidth := foldl_panelWidth start (es.filter clean)
  rw [filterMap_clean .panelWidth fun _ _ h => clean_of_parseU16 .panelWidth h,
    ← foldl_panelWidth] at hwidth
  have hheight := foldl_panelHeight start (es.filter clean)
  rw [filterMap_clean .panelHeight fun _ _ h => clean_of_parseU16 .panelHeight h,
    ← foldl_panelHeight] at hheight
  have hclk := foldl_clkDiv start (es.filter clean)
  rw [filterMap_clean .clkDiv fun _ _ h => clean_of_parseUpTo .clkDiv h, ← foldl_clkDiv] at hclk
  have hthrottle := foldl_writeThrottle start (es.filter clean)
  rw [filterMap_clean .writeThrottle fun _ _ h => clean_of_parseUpTo .writeThrottle h,
    ← foldl_writeThrottle] at hthrottle
  rw [eq_iff]
  simp only [hgrid, hwidth, hheight, hclk, hthrottle, true_and, foldl_mode, foldl_program,
    foldl_drive, foldl_rgbOrder, foldl_groupOrigins, foldl_assignments]
  constructor
  · rintro ⟨hpositions, hmode, hprogram, hdrive, horder, hgroups⟩
    refine ⟨hmode, hprogram, hdrive, horder, hgroups, ?_⟩
    intro n chain
    simpa [start] using hpositions n chain
  · intro h
    refine ⟨?_, h.mode, h.program, h.drive, h.rgbOrder, h.groupOrigins⟩
    intro n chain
    rw [h.positions]

/-- The two spellings of a list of pairs, each with its own blank lines, comments and spaces. -/
theorem parse_spellings_iff (pairs : List Pair) (gaps gaps' : ℕ → Gap) :
    parse (written .equals gaps pairs) = parse (written .colon gaps' pairs) ↔ Survives pairs := by
  have hall : (pairs.filterMap Pair.setting).filter (Spelling.reads .equals) =
      pairs.filterMap Pair.setting := List.filter_true _
  rw [parse, parse, settings_written, settings_written, hall, Option.some_inj]
  exact foldl_clean_iff _

end LayoutConfig

def Gap.none : Gap := ⟨[], ⟨[], by simp⟩, ⟨[], by simp⟩, ⟨[], by simp⟩, ⟨[], by simp⟩⟩

def derived : Pair where
  key := "program".toList
  value := "a=b".toList
  plain := by decide
  oneLine := by decide

/-- The name "a=b" is taken from `program=a=b` and not from `program: a=b`. -/
theorem derived_differs : LayoutConfig.parse (written .equals (fun _ => .none) [derived]) ≠
    LayoutConfig.parse (written .colon (fun _ => .none) [derived]) := by
  intro h
  have hprogram := congrArg (Option.map LayoutConfig.programBytes) h
  revert hprogram
  decide +kernel

end Ledwall.Layout
