import Mathlib.Data.List.TakeWhile
import Ledwall.Values.JsonDocument
import Ledwall.Values.PushRoundTrip

/-! Which members of a JSON object the value scanner stores. -/

namespace Ledwall.Values

open Ledwall.Wire

namespace Scan

variable {depth : ℤ} {b : Byte} {l rest after : List Byte} {key val : Text}

lemma calls_eq (now : ℤ) (n : ℕ) (depth : ℤ) (rest : List Byte) :
    calls now n depth rest = (stores n depth rest).map fun s => ⟨s.key, s.val, now⟩ := by
  induction n generalizing depth rest with
  | zero => rfl
  | succ n ih =>
    cases rest with
    | nil => rfl
    | cons b rest =>
      rw [calls, stores]
      split
      · exact ih _ _
      split
      · exact ih _ _
      split
      · cases readPair rest with
        | none => rfl
        | some p =>
          dsimp only
          rw [ih]
          rfl
      · exact ih _ _

lemma readPair_length (h : readPair rest = some (key, val, after)) : after.length ≤ rest.length := by
  have hstep : ({ rest := 0x22 :: rest, depth := 1, table := {} } : Scan).step 0 =
      some (({ rest := 0x22 :: rest, depth := 1, table := {} } : Scan).store 0 key val after) := by
    rw [step]
    dsimp only
    rw [if_neg (by decide), if_neg (by decide), if_pos ⟨rfl, rfl⟩, scanPair_eq, h]
    rfl
  exact Nat.le_of_lt_succ (step_rest hstep)

lemma stores_fuel {n : ℕ} (h : rest.length ≤ n) :
    stores n depth rest = stores rest.length depth rest := by
  induction n using Nat.strong_induction_on generalizing depth rest with
  | _ n ih =>
    cases rest with
    | nil => cases n <;> rfl
    | cons b rest =>
      rw [List.length_cons] at h
      obtain ⟨m, rfl⟩ := Nat.exists_eq_add_of_le' (Nat.lt_of_lt_of_le (Nat.succ_pos _) h)
      have hrest : rest.length ≤ m := by omega
      have hagain {r : List Byte} (d : ℤ) (hr : r.length ≤ rest.length) :
          stores m d r = stores rest.length d r := by
        rw [ih m (by omega) (hr.trans hrest)]
        rcases Nat.lt_or_ge rest.length (m + 1) with hlt | hge
        · exact (ih rest.length (by omega) hr).symm
        · omega
      rw [List.length_cons, stores, stores]
      split
      · exact hagain _ (Nat.le_refl _)
      split
      · exact hagain _ (Nat.le_refl _)
      split
      · cases hp : readPair rest with
        | none => rfl
        | some p =>
          dsimp only
          rw [hagain _ (readPair_length hp)]
      · exact hagain _ (Nat.le_refl _)

/-- All the stores of the scan from here on. -/
def storesOf (depth : ℤ) (rest : List Byte) : List Stored := stores rest.length depth rest

lemma storesOf_open (rest : List Byte) : storesOf depth (0x7B :: rest) = storesOf (depth + 1) rest :=
  rfl

lemma storesOf_close (rest : List Byte) :
    storesOf depth (0x7D :: rest) = storesOf (depth - 1) rest := rfl

lemma storesOf_skip (hb : b ≠ 0x7B ∧ b ≠ 0x7D ∧ b ≠ 0x22) :
    storesOf depth (b :: rest) = storesOf depth rest := by
  rw [storesOf, List.length_cons, stores, if_neg hb.1, if_neg hb.2.1, if_neg fun h => hb.2.2 h.1]
  rfl

lemma storesOf_blanks (hl : ∀ b ∈ l, isBlank b = true) :
    storesOf depth (l ++ rest) = storesOf depth rest := by
  have hblank : ∀ b : Byte, isBlank b = true → b ≠ 0x7B ∧ b ≠ 0x7D ∧ b ≠ 0x22 := by decide
  induction l with
  | nil => rfl
  | cons b l ih =>
    rw [List.cons_append, storesOf_skip (hblank b (hl b List.mem_cons_self))]
    exact ih fun b' hb' => hl b' (List.mem_cons_of_mem b hb')

lemma storesOf_pair (h : readPair rest = some (key, val, after)) :
    storesOf 1 (0x22 :: rest) = ⟨rest.length, key, val⟩ :: storesOf 1 after := by
  rw [storesOf, List.length_cons, stores, if_neg (by decide), if_neg (by decide), if_pos ⟨rfl, rfl⟩,
    h]
  dsimp only
  rw [stores_fuel (readPair_length h)]
  rfl

end Scan

section Trims

variable {b x : Byte} {g t r : List Byte}

lemma find_blank (hb : isBlank b = true) (r : List Byte) :
    whitespace.find? (fun w => w <+: b :: r) = some [b] ∧
      (whitespace.map List.reverse).find? (fun w => w <+: b :: r) = some [b] := by
  have hcases : ∀ b : Byte, isBlank b = true → b = 0x20 ∨ b = 0x09 ∨ b = 0x0A ∨ b = 0x0D := by decide
  rcases hcases b hb with rfl | rfl | rfl | rfl <;>
    simp [whitespace, List.cons_prefix_cons]

lemma find_visible (hx : 0x20 < x ∧ x < 0x7F) (r : List Byte) :
    whitespace.find? (fun w => w <+: x :: r) = none ∧
      (whitespace.map List.reverse).find? (fun w => w <+: x :: r) = none := by
  have hheads : ∀ w ∈ whitespace ++ whitespace.map List.reverse,
      ∃ y v, w = y :: v ∧ ¬ (0x20 < y ∧ y < 0x7F) := by
    have : ∀ w ∈ whitespace ++ whitespace.map List.reverse,
        w ≠ [] ∧ ¬ (0x20 < w.headD 0 ∧ w.headD 0 < 0x7F) := by decide
    intro w hw
    obtain ⟨hne, hlead⟩ := this w hw
    cases w with
    | nil => exact absurd rfl hne
    | cons y v => exact ⟨y, v, rfl, hlead⟩
  have hnone (es : List (List Byte)) (hes : ∀ w ∈ es, w ∈ whitespace ++ whitespace.map List.reverse) :
      es.find? (fun w => w <+: x :: r) = none := by
    rw [List.find?_eq_none]
    intro w hw
    obtain ⟨y, v, rfl, hy⟩ := hheads w (hes w hw)
    rw [decide_eq_true_eq, List.cons_prefix_cons]
    rintro ⟨rfl, -⟩
    exact hy hx
  exact ⟨hnone _ fun w hw => List.mem_append_left _ hw,
    hnone _ fun w hw => List.mem_append_right _ hw⟩

lemma dropEncodings_visible {es : List (List Byte)} (n : ℕ)
    (h : es.find? (fun w => w <+: x :: r) = none) :
    dropEncodings es n (x :: r) = x :: r := by
  cases n with
  | zero => rfl
  | succ n => rw [dropEncodings, h]

lemma dropEncodings_blanks {es : List (List Byte)}
    (hes : ∀ b, isBlank b = true → ∀ r, es.find? (fun w => w <+: b :: r) = some [b])
    (hg : ∀ b ∈ g, isBlank b = true) (n : ℕ) (hn : g.length ≤ n)
    (hr : ∀ n, dropEncodings es n r = r) : dropEncodings es n (g ++ r) = r := by
  induction g generalizing n with
  | nil => exact hr n
  | cons b g ih =>
    obtain ⟨m, rfl⟩ := Nat.exists_eq_add_of_le' (Nat.lt_of_lt_of_le (Nat.succ_pos _) hn)
    rw [List.cons_append, dropEncodings, hes b (hg b List.mem_cons_self)]
    apply ih (fun b' hb' => hg b' (List.mem_cons_of_mem b hb'))
    rw [List.length_cons] at hn
    omega

lemma trim_blanks {behind : List Byte} (hg : ∀ b ∈ g, isBlank b = true)
    (hbehind : ∀ b ∈ behind, isBlank b = true) (ht : t ≠ []) (hv : ∀ x ∈ t, 0x20 < x ∧ x < 0x7F) :
    trim (g ++ (t ++ behind)) = t := by
  have hstart : trimStart (g ++ (t ++ behind)) = t ++ behind := by
    apply dropEncodings_blanks (fun b hb r => (find_blank hb r).1) hg
    · rw [List.length_append]
      exact Nat.le_add_right _ _
    · intro n
      cases t with
      | nil => exact absurd rfl ht
      | cons x t => exact dropEncodings_visible n (find_visible (hv x List.mem_cons_self) _).1
  rw [trim, hstart, trimEnd, List.reverse_append, dropEncodings_blanks
    (fun b hb r => (find_blank hb r).2), List.reverse_reverse]
  · intro b hb
    exact hbehind b (List.mem_reverse.mp hb)
  · simp
  · intro n
    have hne : t.reverse ≠ [] := by simpa using ht
    cases hr : t.reverse with
    | nil => exact absurd hr hne
    | cons x u =>
      have hx : x ∈ t := by
        rw [← List.mem_reverse, hr]
        exact List.mem_cons_self
      exact dropEncodings_visible n (find_visible (hv x hx) _).2

lemma mem_trim_of_mem {l : List Byte} (hx : ∀ w ∈ whitespace, x ∉ w) (h : x ∈ l) : x ∈ trim l := by
  have hstart : x ∈ trimStart l := by
    apply dropEncodings_induct (P := fun l => x ∈ l) _ _ h
    rintro l hl w hw ⟨u, rfl⟩
    rw [List.drop_left]
    exact (List.mem_append.mp hl).resolve_left (hx w hw)
  rw [trim, trimEnd, List.mem_reverse]
  apply dropEncodings_induct (P := fun l => x ∈ l) _ _ (List.mem_reverse.mpr hstart)
  rintro l hl w hw ⟨u, rfl⟩
  obtain ⟨v, hv, rfl⟩ := List.mem_map.mp hw
  rw [List.drop_left]
  refine (List.mem_append.mp hl).resolve_left ?_
  rw [List.mem_reverse]
  exact hx v hv

end Trims

section Texts

variable {l r : List Byte} {x : Byte}

lemma validUtf8_append (h : validUtf8 l = true) (r : List Byte) : validUtf8 (l ++ r) = validUtf8 r := by
  induction hn : l.length using Nat.strong_induction_on generalizing l with
  | _ n ih =>
    subst hn
    rcases eq_or_ne l [] with rfl | hne
    · rfl
    · obtain ⟨c, t, hc, ht, rfl⟩ := validUtf8_cons h hne
      have hpos := List.length_pos_iff.mpr (isChar_tail hc).1
      rw [List.append_assoc, validUtf8_char hc]
      exact ih t.length (by rw [List.length_append]; omega) ht rfl

lemma validUtf8_ascii_list (h : ∀ b ∈ l, b < 0x80) : validUtf8 l = true := by
  induction l with
  | nil => rfl
  | cons b l ih =>
    rw [validUtf8_ascii (h b List.mem_cons_self)]
    exact ih fun b' hb' => h b' (List.mem_cons_of_mem b hb')

lemma fromUtf8_eq (h : validUtf8 l = true) : fromUtf8 l = l := if_pos h

/-- A comma or a closing brace. -/
abbrev goesOn (b : Byte) : Bool := decide (b ≠ 0x2C ∧ b ≠ 0x7D)

lemma validUtf8_takeWhile (h : validUtf8 l = true) (hx : goesOn x = false) (r : List Byte) :
    validUtf8 ((l ++ x :: r).takeWhile goesOn) = true := by
  rw [List.takeWhile_append]
  split
  · rw [List.takeWhile_cons_of_neg (by rw [hx]; exact Bool.false_ne_true), List.append_nil]
    exact h
  · cases hd : l.dropWhile goesOn with
    | nil =>
      have hsame := List.takeWhile_append_dropWhile (p := goesOn) (l := l)
      rw [hd, List.append_nil] at hsame
      rw [hsame]
      exact h
    | cons y w =>
      have hsame := List.takeWhile_append_dropWhile (p := goesOn) (l := l)
      have hy : goesOn y = false := by
        have := List.head?_dropWhile_not goesOn l
        rw [hd] at this
        simpa using this
      have hcut : ∀ y : Byte, goesOn y = false → continuation y = false := by decide
      rw [hd] at hsame
      rw [← hsame] at h
      exact validUtf8_cut (hcut y hy) h

local instance : LawfulBEq Byte := inferInstance

/-- A byte of a number or a literal. -/
def isBare (b : Byte) : Bool := isDigit b || decide (b ∈ ascii "+-.eEtrufalsn")

lemma isBare_visible : ∀ b : Byte, isBare b = true → (0x20 < b ∧ b < 0x7F) ∧ goesOn b = true ∧
    b ≠ 0x22 ∧ b ≠ 0x3A := by decide

lemma isBare_of_digits (h : IsDigits l) : ∀ b ∈ l, isBare b = true := by
  intro b hb
  rw [isBare, h.2 b hb, Bool.true_or]

lemma NumberToken.render_bare (n : NumberToken) : n.render ≠ [] ∧ ∀ b ∈ n.render, isBare b = true := by
  obtain ⟨minus, whole, fraction, power, hwhole, -, hfraction, hpower⟩ := n
  have hsign (s : Option Bool) : ∀ b ∈ signText s, isBare b = true := by
    rcases s with _ | _ | _ <;> decide
  constructor
  · simp [render, hwhole.1]
  · intro b hb
    rw [render] at hb
    rcases List.mem_append.mp hb with hb | hb
    · rcases List.mem_append.mp hb with hb | hb
      · rcases List.mem_append.mp hb with hb | hb
        · cases minus with
          | false => cases hb
          | true =>
            rw [List.mem_singleton.mp hb]
            decide
        · exact isBare_of_digits hwhole b hb
      · cases fraction with
        | none => cases hb
        | some ds =>
          rcases List.mem_cons.mp hb with rfl | hb
          · decide
          · exact isBare_of_digits (hfraction ds rfl) b hb
    · cases power with
      | none => cases hb
      | some p =>
        obtain ⟨capital, sign, ds⟩ := p
        rcases List.mem_cons.mp hb with rfl | hb
        · cases capital <;> decide
        · rcases List.mem_append.mp hb with hb | hb
          · exact hsign sign b hb
          · exact isBare_of_digits (hpower _ rfl) b hb

lemma BareToken.render_bare (t : BareToken) :
    t.render ≠ [] ∧ ∀ b ∈ t.render, isBare b = true := by
  cases t with
  | number n => exact n.render_bare
  | trueLit => decide
  | falseLit => decide
  | nullLit => decide

end Texts

namespace Scan

variable {X Y v R : List Byte} {key : Quoted} {c : Byte} {r : List Byte}

abbrev parts (b : Byte) : Bool := decide (b = 0x20 ∨ b = 0x3A)

lemma Quoted.no_quote (s : Quoted) : 0x22 ∉ s.1 := fun h => (s.2.2 _ h).2.1 rfl

lemma readPair_string {s : Quoted} (hX : X.dropWhile parts = 0x22 :: (s.1 ++ 0x22 :: R)) :
    readPair (key.1 ++ 0x22 :: X) = some (.of key.1, .of s.1, R) := by
  obtain ⟨hkey, hafter⟩ := takeWhile_quote (r := X) (Quoted.no_quote key)
  obtain ⟨hval, hrest⟩ := takeWhile_quote (r := R) (Quoted.no_quote s)
  rw [readPair, hafter]
  dsimp only
  rw [hX]
  dsimp only
  rw [if_pos rfl, hrest, hkey, hval]

lemma readPair_bare (hX : X.dropWhile parts = c :: r) (hc : c ≠ 0x22) :
    readPair (key.1 ++ 0x22 :: X) =
      some (.of key.1, (Text.of ((c :: r).takeWhile goesOn)).trim, (c :: r).dropWhile goesOn) := by
  obtain ⟨hkey, hafter⟩ := takeWhile_quote (r := X) (Quoted.no_quote key)
  rw [readPair, hafter]
  dsimp only
  rw [hX]
  dsimp only
  rw [if_neg hc, hkey]

end Scan

section Gaps

variable {before after : Blanks} {y : Byte} {Y : List Byte}

/-- What the scanner finds of a key's colon once it has passed spaces and colons. -/
def gap (before after : Blanks) : List Byte := (before.1 ++ 0x3A :: after.1).dropWhile Scan.parts

lemma dropWhile_gap (hy : Scan.parts y = false) :
    (before.1 ++ 0x3A :: (after.1 ++ y :: Y)).dropWhile Scan.parts = gap before after ++ y :: Y := by
  have hY : (y :: Y).dropWhile Scan.parts = y :: Y :=
    List.dropWhile_cons_of_neg (by rw [hy]; exact Bool.false_ne_true)
  have hassoc : before.1 ++ 0x3A :: (after.1 ++ y :: Y) =
      (before.1 ++ 0x3A :: after.1) ++ y :: Y := by simp
  rw [hassoc, List.dropWhile_append, gap]
  split
  · next hempty => rw [hY, List.isEmpty_iff.mp hempty, List.nil_append]
  · rfl

lemma gap_bytes : ∀ b ∈ gap before after, isBlank b = true ∨ b = 0x3A := by
  intro b hb
  have hb := (List.dropWhile_suffix _).subset hb
  rcases List.mem_append.mp hb with hb | hb
  · exact .inl (before.2 b hb)
  · rcases List.mem_cons.mp hb with rfl | hb
    · exact .inr rfl
    · exact .inl (after.2 b hb)

lemma gap_spaces (hb : Spaces before) : gap before after = after.1.dropWhile Scan.parts := by
  rw [gap, List.dropWhile_append_of_pos, List.dropWhile_cons_of_pos (by decide)]
  intro b h
  rw [hb b h]
  decide

lemma gap_colon (hb : ¬ Spaces before) : 0x3A ∈ gap before after := by
  rw [gap, List.dropWhile_append]
  split
  · next hempty =>
    exfalso
    apply hb
    intro b h
    have hall := List.dropWhile_eq_nil_iff.mp (List.isEmpty_iff.mp hempty) b h
    have hspace : ∀ b : Byte, isBlank b = true → Scan.parts b = true → b = 0x20 := by decide
    exact hspace b (before.2 b h) hall
  · exact List.mem_append_right _ List.mem_cons_self

lemma gap_nil_iff : gap before after = [] ↔ Spaces before ∧ Spaces after := by
  have hspace : ∀ b : Byte, isBlank b = true → Scan.parts b = true → b = 0x20 := by decide
  constructor
  · intro h
    have hall := List.dropWhile_eq_nil_iff.mp h
    refine ⟨fun b hb => ?_, fun b hb => ?_⟩
    · exact hspace b (before.2 b hb) (hall b (List.mem_append_left _ hb))
    · exact hspace b (after.2 b hb) (hall b (List.mem_append_right _ (List.mem_cons_of_mem _ hb)))
  · rintro ⟨hb, ha⟩
    rw [gap_spaces hb, List.dropWhile_eq_nil_iff]
    intro b h
    rw [ha b h]
    decide

lemma gap_blank (hb : Spaces before) : ∀ b ∈ gap before after, isBlank b = true := by
  rw [gap_spaces hb]
  intro b h
  exact after.2 b ((List.dropWhile_suffix _).subset h)

end Gaps

section Values

variable {before after behind : Blanks} {key : Quoted} {E : List Byte} {e : Byte}

/-- The text from behind a key's opening quote. -/
def fromKey (key : Quoted) (before after : Blanks) (value : List Byte) (behind : Blanks)
    (E : List Byte) : List Byte :=
  key.1 ++ 0x22 :: (before.1 ++ 0x3A :: (after.1 ++ (value ++ (behind.1 ++ E))))

lemma blank_facts : ∀ b : Byte, isBlank b = true ∨ b = 0x3A →
    b < 0x80 ∧ goesOn b = true ∧ b ≠ 0x22 := by decide

lemma blank_not_colon : ∀ b : Byte, isBlank b = true → b < 0x80 ∧ goesOn b = true ∧ b ≠ 0x3A := by
  decide

lemma takeWhile_goesOn {l : List Byte} (hl : ∀ b ∈ l, goesOn b = true) (he : goesOn e = false)
    (E : List Byte) :
    (l ++ e :: E).takeWhile goesOn = l ∧ (l ++ e :: E).dropWhile goesOn = e :: E := by
  have hne : ¬ goesOn e = true := by
    rw [he]
    exact Bool.false_ne_true
  constructor
  · rw [List.takeWhile_append_of_pos hl, List.takeWhile_cons_of_neg hne, List.append_nil]
  · rw [List.dropWhile_append_of_pos hl, List.dropWhile_cons_of_neg hne]

lemma storesOf_string (s : Quoted) (hgap : gap before after = []) :
    Scan.storesOf 1 (0x22 :: fromKey key before after (0x22 :: (s.1 ++ [0x22])) behind E) =
      ⟨(fromKey key before after (0x22 :: (s.1 ++ [0x22])) behind E).length, .of key.1, .of s.1⟩ ::
        Scan.storesOf 1 E := by
  have hrest : before.1 ++ 0x3A :: (after.1 ++ (0x22 :: (s.1 ++ [0x22]) ++ (behind.1 ++ E))) =
      before.1 ++ 0x3A :: (after.1 ++ 0x22 :: (s.1 ++ 0x22 :: (behind.1 ++ E))) := by simp
  have hread : Scan.readPair (fromKey key before after (0x22 :: (s.1 ++ [0x22])) behind E) =
      some (.of key.1, .of s.1, behind.1 ++ E) := by
    apply Scan.readPair_string
    rw [hrest, dropWhile_gap (by decide), hgap, List.nil_append]
  rw [Scan.storesOf_pair hread, Scan.storesOf_blanks behind.2]

lemma storesOf_misread (s : Quoted) (hgap : gap before after ≠ []) (he : goesOn e = false) :
    ∃ val after', val ≠ .of s.1 ∧
      Scan.storesOf 1 (0x22 :: fromKey key before after (0x22 :: (s.1 ++ [0x22])) behind (e :: E)) =
        ⟨(fromKey key before after (0x22 :: (s.1 ++ [0x22])) behind (e :: E)).length, .of key.1, val⟩ ::
          Scan.storesOf 1 after' := by
  obtain ⟨c, g, hg⟩ := List.exists_cons_of_ne_nil hgap
  have hbytes : ∀ b ∈ gap before after, isBlank b = true ∨ b = 0x3A := gap_bytes
  have hc : c ≠ 0x22 := (blank_facts c (hbytes c (by rw [hg]; exact List.mem_cons_self))).2.2
  have hrest : before.1 ++ 0x3A :: (after.1 ++ (0x22 :: (s.1 ++ [0x22]) ++ (behind.1 ++ e :: E))) =
      before.1 ++ 0x3A :: (after.1 ++ 0x22 :: (s.1 ++ 0x22 :: (behind.1 ++ e :: E))) := by simp
  have hX : (before.1 ++ 0x3A :: (after.1 ++ (0x22 :: (s.1 ++ [0x22]) ++
      (behind.1 ++ e :: E)))).dropWhile Scan.parts =
        c :: (g ++ 0x22 :: (s.1 ++ 0x22 :: (behind.1 ++ e :: E))) := by
    rw [hrest, dropWhile_gap (by decide), hg]
    rfl
  have hall : c :: (g ++ 0x22 :: (s.1 ++ 0x22 :: (behind.1 ++ e :: E))) =
      (gap before after ++ (0x22 :: (s.1 ++ (0x22 :: behind.1)))) ++ e :: E := by
    rw [hg]
    simp
  have hvalid : validUtf8 (gap before after ++ (0x22 :: (s.1 ++ (0x22 :: behind.1)))) = true := by
    rw [validUtf8_append (validUtf8_ascii_list fun b hb => (blank_facts b (hbytes b hb)).1),
      validUtf8_ascii (by decide), validUtf8_append s.2.1, validUtf8_ascii (by decide)]
    exact validUtf8_ascii_list fun b hb => (blank_not_colon b (behind.2 b hb)).1
  refine ⟨_, _, ?_, Scan.storesOf_pair (Scan.readPair_bare hX hc)⟩
  intro heq
  have hval := congrArg Subtype.val heq
  have hs : (Text.of s.1).1 = s.1 := fromUtf8_eq s.2.1
  rw [hs] at hval
  apply Scan.Quoted.no_quote s
  rw [← hval]
  apply mem_trim_of_mem (by decide)
  change 0x22 ∈ fromUtf8 ((c :: (g ++ 0x22 :: (s.1 ++ 0x22 :: (behind.1 ++ e :: E)))).takeWhile goesOn)
  rw [hall, fromUtf8_eq (validUtf8_takeWhile hvalid he E), List.append_assoc,
    List.takeWhile_append_of_pos fun b hb => (blank_facts b (hbytes b hb)).2.1]
  apply List.mem_append_right
  rw [List.cons_append, List.takeWhile_cons_of_pos (by decide)]
  exact List.mem_cons_self

lemma storesOf_bare (t : BareToken) (he : goesOn e = false) :
    ∃ val, (val = .of t.render ↔ Spaces before) ∧
      Scan.storesOf 1 (0x22 :: fromKey key before after t.render behind (e :: E)) =
        ⟨(fromKey key before after t.render behind (e :: E)).length, .of key.1, val⟩ ::
          Scan.storesOf 1 (e :: E) := by
  obtain ⟨hne, hbare⟩ := t.render_bare
  obtain ⟨y, t', ht⟩ := List.exists_cons_of_ne_nil hne
  have hvisible (b : Byte) (hb : b ∈ t.render) := isBare_visible b (hbare b hb)
  have hy : Scan.parts y = false := by
    have hy := hbare y (by rw [ht]; exact List.mem_cons_self)
    have hparts : ∀ b : Byte, isBare b = true → Scan.parts b = false := by decide
    exact hparts y hy
  have hbytes : ∀ b ∈ gap before after, isBlank b = true ∨ b = 0x3A := gap_bytes
  have hX : (before.1 ++ 0x3A :: (after.1 ++ (t.render ++ (behind.1 ++ e :: E)))).dropWhile Scan.parts =
      (gap before after ++ (t.render ++ behind.1)) ++ e :: E := by
    rw [ht, List.cons_append, dropWhile_gap hy]
    simp
  obtain ⟨c, r, hcr⟩ := List.exists_cons_of_ne_nil
    (show (gap before after ++ (t.render ++ behind.1)) ++ e :: E ≠ [] by simp)
  have hc : c ≠ 0x22 := by
    cases hg : gap before after with
    | nil =>
      rw [hg, ht] at hcr
      cases hcr
      exact (hvisible y (by rw [ht]; exact List.mem_cons_self)).2.2.1
    | cons b g =>
      rw [hg] at hcr
      rw [← (List.cons.inj hcr).1]
      exact (blank_facts b (hbytes b (by rw [hg]; exact List.mem_cons_self))).2.2
  have hgoes : ∀ b ∈ gap before after ++ (t.render ++ behind.1), goesOn b = true := by
    intro b hb
    rcases List.mem_append.mp hb with hb | hb
    · exact (blank_facts b (hbytes b hb)).2.1
    · rcases List.mem_append.mp hb with hb | hb
      · exact (hvisible b hb).2.1
      · exact (blank_not_colon b (behind.2 b hb)).2.1
  obtain ⟨htaken, hleft⟩ := takeWhile_goesOn hgoes he E
  have hread : Scan.readPair (fromKey key before after t.render behind (e :: E)) = _ :=
    Scan.readPair_bare (hX.trans hcr) hc
  rw [← hcr, htaken, hleft] at hread
  have hascii : ∀ b ∈ gap before after ++ (t.render ++ behind.1), b < 0x80 := by
    intro b hb
    rcases List.mem_append.mp hb with hb | hb
    · exact (blank_facts b (hbytes b hb)).1
    · rcases List.mem_append.mp hb with hb | hb
      · have := (hvisible b hb).1.2
        bv_omega
      · exact (blank_not_colon b (behind.2 b hb)).1
  have hof : (Text.of (gap before after ++ (t.render ++ behind.1))).1 =
      gap before after ++ (t.render ++ behind.1) := fromUtf8_eq (validUtf8_ascii_list hascii)
  have htoken : (Text.of t.render).1 = t.render := by
    apply fromUtf8_eq
    apply validUtf8_ascii_list
    intro b hb
    exact hascii b (List.mem_append_right _ (List.mem_append_left _ hb))
  refine ⟨_, ?_, Scan.storesOf_pair hread⟩
  constructor
  · intro heq
    by_contra hspaces
    have hval := congrArg Subtype.val heq
    rw [htoken] at hval
    have hcolon : 0x3A ∈ trim (gap before after ++ (t.render ++ behind.1)) :=
      mem_trim_of_mem (by decide) (List.mem_append_left _ (gap_colon hspaces))
    rw [← hof] at hcolon
    change 0x3A ∈ ((Text.of (gap before after ++ (t.render ++ behind.1))).trim).1 at hcolon
    rw [hval] at hcolon
    exact (hvisible _ hcolon).2.2.2 rfl
  · intro hspaces
    apply Subtype.ext
    rw [htoken]
    change trim (Text.of (gap before after ++ (t.render ++ behind.1))).1 = t.render
    rw [hof]
    exact trim_blanks (gap_blank hspaces) behind.2 hne fun b hb => (hvisible b hb).1

lemma storesOf_nested {y : Byte} (hy : y = 0x7B ∨ y = 0x5B) (Y : List Byte) :
    ∃ val after', Scan.storesOf 1 (0x22 :: fromKey key before after (y :: Y) behind E) =
      ⟨(fromKey key before after (y :: Y) behind E).length, .of key.1, val⟩ ::
        Scan.storesOf 1 after' := by
  have hparts : Scan.parts y = false := by
    rcases hy with rfl | rfl <;> decide
  have hX : (before.1 ++ 0x3A :: (after.1 ++ (y :: Y ++ (behind.1 ++ E)))).dropWhile Scan.parts =
      gap before after ++ y :: (Y ++ (behind.1 ++ E)) := by
    rw [List.cons_append, dropWhile_gap hparts]
  obtain ⟨c, r, hcr⟩ := List.exists_cons_of_ne_nil
    (show gap before after ++ y :: (Y ++ (behind.1 ++ E)) ≠ [] by simp)
  have hc : c ≠ 0x22 := by
    cases hg : gap before after with
    | nil =>
      rw [hg] at hcr
      cases hcr
      rcases hy with rfl | rfl <;> decide
    | cons b g =>
      rw [hg] at hcr
      rw [← (List.cons.inj hcr).1]
      exact (blank_facts b (gap_bytes b (by rw [hg]; exact List.mem_cons_self))).2.2
  exact ⟨_, _, Scan.storesOf_pair (Scan.readPair_bare (hX.trans hcr) hc)⟩

end Values

section Members

variable {ahead before after behind : Blanks} {key : Quoted} {value : Json} {rest : Members}

lemma render_cons (T : List Byte) :
    (Members.cons ahead key before after value behind rest).render ++ T =
      0x2C :: (ahead.1 ++ 0x22 :: fromKey key before after value.render behind (rest.render ++ T)) := by
  simp [Members.render, fromKey]

lemma render_stop (ms : Members) (l : List Byte) :
    ∃ e E, ms.render ++ 0x7D :: l = e :: E ∧ goesOn e = false := by
  cases ms with
  | nil => exact ⟨0x7D, l, rfl, by decide⟩
  | cons ahead key before after value behind rest =>
    rw [render_cons]
    exact ⟨_, _, rfl, by decide⟩

lemma storesOf_cons (T : List Byte) :
    Scan.storesOf 1 ((Members.cons ahead key before after value behind rest).render ++ T) =
      Scan.storesOf 1 (0x22 :: fromKey key before after value.render behind (rest.render ++ T)) := by
  rw [render_cons, Scan.storesOf_skip (by decide), Scan.storesOf_blanks ahead.2]

lemma fromKey_length (v R T : List Byte) :
    (fromKey key before after v behind (R ++ T)).length =
      (key.1 ++ 0x22 :: (before.1 ++ 0x3A :: (after.1 ++ (v ++ (behind.1 ++ R))))).length +
        T.length := by
  simp only [fromKey, List.length_append, List.length_cons]
  omega

lemma scalars_left (n : ℕ) : (ms : Members) → ∀ s ∈ ms.scalars n, s.left < ms.render.length + n
  | .nil, s, hs => by cases hs
  | .cons ahead key before after value behind rest, s, hs => by
    have ih := scalars_left n rest
    have hrest : rest.render.length <
        (Members.cons ahead key before after value behind rest).render.length := by
      simp only [Members.render, List.length_cons, List.length_append]
      omega
    rw [Members.scalars] at hs
    split at hs
    · rcases List.mem_cons.mp hs with rfl | hs
      · simp only [Members.render, List.length_cons, List.length_append]
        omega
      · have := ih s hs
        omega
    · have := ih s hs
      omega

lemma storesOf_end (trailing : Blanks) : Scan.storesOf 1 (0x7D :: trailing.1) = [] := by
  have hblanks : Scan.storesOf 0 (trailing.1 ++ []) = [] := Scan.storesOf_blanks trailing.2
  rw [List.append_nil] at hblanks
  rw [Scan.storesOf_close]
  exact hblanks

/-- Member by member: the next store is that of the next member, or never is again. -/
theorem storesOf_members (trailing : Blanks) : (ms : Members) →
    (Scan.storesOf 1 (ms.render ++ 0x7D :: trailing.1) = ms.scalars (trailing.1.length + 1) ↔
      ms.Readable)
  | .nil => iff_of_true (storesOf_end trailing) trivial
  | .cons ahead key before after value behind rest => by
    have ih := storesOf_members trailing rest
    obtain ⟨e, E, hE, he⟩ := render_stop rest trailing.1
    have hleft : (fromKey key before after value.render behind
        (rest.render ++ 0x7D :: trailing.1)).length = _ := fromKey_length _ _ _
    rw [storesOf_cons, Members.scalars, hE]
    rw [hE] at ih hleft
    have hnested {y : Byte} (hy : y = 0x7B ∨ y = 0x5B) (Y : List Byte)
        (hv : value.render = y :: Y) :
        Scan.storesOf 1 (0x22 :: fromKey key before after value.render behind (e :: E)) ≠
          rest.scalars (trailing.1.length + 1) := by
      obtain ⟨val, after', hstores⟩ : ∃ val after', Scan.storesOf 1 (0x22 ::
          fromKey key before after (y :: Y) behind (e :: E)) = ⟨_, .of key.1, val⟩ :: _ :=
        storesOf_nested hy Y
      rw [hv, hstores]
      intro heq
      have hmem : ⟨(fromKey key before after (y :: Y) behind (e :: E)).length, .of key.1, val⟩ ∈
          rest.scalars (trailing.1.length + 1) := by
        rw [← heq]
        exact List.mem_cons_self
      have hlt := scalars_left _ rest _ hmem
      have hlen := congrArg List.length hE
      simp only [fromKey, List.length_append, List.length_cons] at hlt hlen
      omega
    cases value with
    | string s =>
      dsimp only [Json.scalar]
      by_cases hgap : gap before after = []
      · rw [Json.render] at hleft ⊢
        rw [storesOf_string s hgap, hleft, List.length_cons, List.cons_inj_right, ih]
        exact (and_iff_right (gap_nil_iff.mp hgap)).symm
      · obtain ⟨val, after', hne, hstores⟩ : ∃ val after', val ≠ Text.of s.1 ∧ Scan.storesOf 1
            (0x22 :: fromKey key before after (0x22 :: (s.1 ++ [0x22])) behind (e :: E)) =
              ⟨_, .of key.1, val⟩ :: _ := storesOf_misread s hgap he
        rw [Json.render, hstores]
        refine iff_of_false ?_ fun h => hgap (gap_nil_iff.mpr h.1)
        intro heq
        exact hne (congrArg Stored.val (List.cons.inj heq).1)
    | bare t =>
      dsimp only [Json.scalar]
      obtain ⟨val, hval, hstores⟩ : ∃ val, (val = Text.of t.render ↔ Spaces before) ∧
          Scan.storesOf 1 (0x22 :: fromKey key before after t.render behind (e :: E)) =
            ⟨_, .of key.1, val⟩ :: _ := storesOf_bare t he
      rw [Json.render] at hleft ⊢
      rw [hstores, hleft]
      constructor
      · intro heq
        obtain ⟨hhead, htail⟩ := List.cons.inj heq
        exact ⟨hval.mp (congrArg Stored.val hhead), ih.mp htail⟩
      · rintro ⟨hspaces, hrest⟩
        rw [hval.mpr hspaces, ih.mpr hrest]
        rfl
    | object inside members =>
      refine iff_of_false ?_ fun h => h.1
      exact hnested (.inl rfl) _ (by rw [Json.render])
    | array inside elements =>
      refine iff_of_false ?_ fun h => h.1
      exact hnested (.inr rfl) _ (by rw [Json.render])

lemma storesOf_document (d : Document) :
    Scan.stores d.render.length 0 d.render = d.scalars ↔ d.members.Readable := by
  obtain ⟨leading, inside, members, trailing⟩ := d
  have htail (T : List Byte) :
      Scan.storesOf 1 (members.render.tail ++ T) = Scan.storesOf 1 (members.render ++ T) := by
    cases members with
    | nil => rfl
    | cons ahead key before after value behind rest =>
      rw [Members.render, List.tail_cons, List.cons_append, Scan.storesOf_skip (by decide)]
  have hrender : (Document.mk leading inside members trailing).render =
      leading.1 ++ 0x7B :: (inside.1 ++ (members.render.tail ++ 0x7D :: trailing.1)) := by
    simp [Document.render, Json.render]
  change Scan.storesOf 0 _ = _ ↔ _
  rw [hrender, Scan.storesOf_blanks leading.2, Scan.storesOf_open, zero_add,
    Scan.storesOf_blanks inside.2, htail]
  exact storesOf_members trailing members

end Members

/-- The scanner stores the scalar members, and them alone, of the objects it can read. -/
theorem stores_scalars_iff (d : Document) : StoresScalars d ↔ d.members.Readable := by
  rw [← storesOf_document]
  constructor
  · exact And.left
  · intro h
    refine ⟨h, ?_⟩
    intro req t now hbody
    change (Scan.finish { rest := req.bodyStr, table := t } now).table = _
    rw [Scan.finish, Scan.run_table]
    dsimp only
    rw [hbody, Scan.calls_eq, h, List.foldl_map]
    rfl

section Nested

def space : Blanks := ⟨[0x20], by decide⟩

def noBlank : Blanks := ⟨[], by decide⟩

def letter (b : Byte) (h : IsQuoted [b]) : Quoted := ⟨[b], h⟩

instance (l : List Byte) : Decidable (IsQuoted l) := inferInstanceAs (Decidable (_ ∧ _))

def digit (b : Byte) (h : isDigit b = true) : BareToken :=
  .number
    { minus := false
      whole := [b]
      fraction := none
      power := none
      whole_digits := ⟨List.cons_ne_nil b [], by simpa using h⟩
      whole_lead := fun h => by rw [List.head?_cons] at h; rw [Option.some.inj h]
      fraction_digits := fun _ h => by cases h
      power_digits := fun _ h => by cases h }

/-- An object with a nested one ahead of its second member. -/
def nested : Document where
  leading := noBlank
  inside := noBlank
  members :=
    .cons noBlank (letter 0x61 (by decide)) noBlank space
      (.object noBlank (.cons noBlank (letter 0x62 (by decide)) noBlank space (.bare (digit 0x31 (by decide)))
        noBlank .nil)) noBlank
      (.cons space (letter 0x63 (by decide)) noBlank space (.bare (digit 0x32 (by decide))) noBlank .nil)
  trailing := noBlank

/-- The nested object is stored under its key, and the member behind it is lost. -/
theorem nested_not_skipped :
    nested.render = ascii "\x7b\"a\": \x7b\"b\": 1\x7d, \"c\": 2\x7d" ∧ ¬ StoresScalars nested := by
  refine ⟨by decide, ?_⟩
  rintro ⟨hstores, -⟩
  exact ((storesOf_document nested).mp hstores).1

end Nested

end Ledwall.Values
