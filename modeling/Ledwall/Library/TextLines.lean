import Mathlib.Data.List.DropRight
import Mathlib.Tactic

/-! Text as a file in text mode hands it out: its line ends made line feeds, its lines split behind
every boundary, the blanks around a line stripped. -/

namespace Ledwall.Library.TextLines

abbrev Text := List Char

/-- What ends a line. -/
def boundaries : List Char :=
  ['\n', '\x0b', '\x0c', '\r', '\x1c', '\x1d', '\x1e', '\u0085', '\u2028', '\u2029']

/-- The other characters of white space. -/
def spaces : List Char :=
  ['\t', '\x1f', ' ', '\u00a0', '\u1680', '\u2000', '\u2001', '\u2002', '\u2003', '\u2004', '\u2005',
    '\u2006', '\u2007', '\u2008', '\u2009', '\u200a', '\u202f', '\u205f', '\u3000']

def isBoundary (c : Char) : Bool := c ∈ boundaries

def isBlank (c : Char) : Bool := c ∈ boundaries || c ∈ spaces

/-- `cr` is set behind a carriage return, which a line feed belongs to. -/
def universalFrom (cr : Bool) : Text → Text
  | [] => []
  | c :: t =>
    if c = '\r' then '\n' :: universalFrom true t
    else if c = '\n' ∧ cr = true then universalFrom false t
    else c :: universalFrom false t

def universal (t : Text) : Text := universalFrom false t

/-- Every line with what ends it; a carriage return and a line feed end it together. -/
def splitLines : Text → List Text
  | [] => []
  | c :: t =>
    if isBoundary c = true ∧ ¬ (c = '\r' ∧ t.head? = some '\n') then [c] :: splitLines t
    else
      match splitLines t with
      | [] => [[c]]
      | l :: ls => (c :: l) :: ls

def strip (t : Text) : Text := (t.dropWhile isBlank).rdropWhile isBlank

/-- The lines a file's text is read as. -/
def lines (t : Text) : List Text := splitLines (universal t)

section Splitting

variable {a p r t : Text} {c : Char}

/-- No line ends in it. -/
def Unbroken (a : Text) : Prop := ∀ c ∈ a, isBoundary c = false

instance (a : Text) : Decidable (Unbroken a) :=
  List.decidableBAll (fun c => isBoundary c = false) a

lemma Unbroken.append (ha : Unbroken a) (hp : Unbroken p) : Unbroken (a ++ p) :=
  List.forall_mem_append.mpr ⟨ha, hp⟩

lemma Unbroken.return_not_mem (h : Unbroken a) : '\r' ∉ a := by
  intro hc
  exact absurd (h _ hc) (by decide)

lemma isBlank_of_isBoundary (h : isBoundary c = true) : isBlank c = true := by
  rw [isBlank, Bool.or_eq_true]
  exact .inl h

lemma flatten_splitLines (t : Text) : (splitLines t).flatten = t := by
  induction t with
  | nil => rfl
  | cons c t ih =>
    rw [splitLines]
    split
    · rw [List.flatten_cons, ih, List.singleton_append]
    · have hcons : c :: t = c :: (splitLines t).flatten := congrArg _ ih.symm
      rw [hcons]
      cases splitLines t with
      | nil => rfl
      | cons l ls => rfl

lemma splitLines_line (ha : Unbroken a) (hc : isBoundary c = true) (hr : c ≠ '\r') :
    splitLines (a ++ c :: r) = (a ++ [c]) :: splitLines r := by
  induction a with
  | nil => rw [List.nil_append, splitLines, if_pos ⟨hc, fun h => hr h.1⟩, List.nil_append]
  | cons b a ih =>
    obtain ⟨hb, ha⟩ := List.forall_mem_cons.mp ha
    rw [List.cons_append, splitLines, if_neg (by simp [hb]), ih ha]
    rfl

lemma splitLines_prefix (hp : Unbroken p) (hne : p ≠ []) :
    ∃ l ls, splitLines (p ++ r) = (p ++ l) :: ls := by
  induction p with
  | nil => exact absurd rfl hne
  | cons b p ih =>
    obtain ⟨hb, hp⟩ := List.forall_mem_cons.mp hp
    rw [List.cons_append, splitLines, if_neg (by simp [hb])]
    cases p with
    | nil =>
      cases hr : splitLines ([] ++ r) with
      | nil => exact ⟨[], [], rfl⟩
      | cons l ls => exact ⟨l, ls, rfl⟩
    | cons b' p =>
      obtain ⟨l, ls, hl⟩ := ih hp (List.cons_ne_nil _ _)
      rw [hl]
      exact ⟨l, ls, rfl⟩

lemma universal_append (ha : '\r' ∉ a) : universal (a ++ t) = a ++ universal t := by
  induction a with
  | nil => rfl
  | cons c a ih =>
    obtain ⟨hc, ha⟩ := not_or.mp (mt List.mem_cons.mpr ha)
    rw [List.cons_append, universal, universalFrom, if_neg (Ne.symm hc), if_neg (by simp)]
    exact congrArg _ (ih ha)

lemma universal_of_not_mem (h : '\r' ∉ t) : universal t = t := by
  have happend := universal_append (t := []) h
  rwa [List.append_nil, show universal [] = [] from rfl, List.append_nil] at happend

lemma return_not_mem_universalFrom (cr : Bool) (t : Text) : '\r' ∉ universalFrom cr t := by
  induction t generalizing cr with
  | nil => exact List.not_mem_nil
  | cons c t ih =>
    rw [universalFrom]
    split
    · exact fun h => (List.mem_cons.mp h).elim (by decide) (ih true)
    split
    · exact ih false
    · rename_i hc _
      exact fun h => (List.mem_cons.mp h).elim (Ne.symm hc) (ih false)

lemma return_not_mem_universal (t : Text) : '\r' ∉ universal t := return_not_mem_universalFrom false t

lemma universal_boundary (hc : isBoundary c = true) :
    ∃ d r', universal (c :: r) = d :: r' ∧ isBoundary d = true ∧ d ≠ '\r' := by
  rw [universal, universalFrom]
  split
  · exact ⟨'\n', _, rfl, by decide, by decide⟩
  · rename_i hr
    rw [if_neg (by simp)]
    exact ⟨c, _, rfl, hc, hr⟩

lemma flatten_lines (t : Text) : (lines t).flatten = universal t := flatten_splitLines _

lemma lines_line (ha : Unbroken a) : lines (a ++ '\n' :: r) = (a ++ ['\n']) :: lines r := by
  rw [lines, universal_append ha.return_not_mem]
  have hfeed : universal ('\n' :: r) = '\n' :: universal r := rfl
  rw [hfeed, splitLines_line ha (by decide) (by decide), lines]

lemma lines_first (ha : Unbroken a) (hc : isBoundary c = true) :
    ∃ d ls, isBlank d = true ∧ lines (a ++ c :: r) = (a ++ [d]) :: ls := by
  obtain ⟨d, r', hd, hboundary, hreturn⟩ := universal_boundary (r := r) hc
  refine ⟨d, splitLines r', isBlank_of_isBoundary hboundary, ?_⟩
  rw [lines, universal_append ha.return_not_mem, hd, splitLines_line ha hboundary hreturn]

lemma lines_prefix (hp : Unbroken p) (hne : p ≠ []) (h : p <+: t) :
    ∃ l ls, lines t = l :: ls ∧ p <+: l := by
  obtain ⟨r, rfl⟩ := h
  rw [lines, universal_append hp.return_not_mem]
  obtain ⟨l, ls, hl⟩ := splitLines_prefix (r := universal r) hp hne
  exact ⟨_, ls, hl, List.prefix_append p l⟩

end Splitting

section Stripping

variable {t : Text} {c : Char}

lemma strip_cons (hc : isBlank c = true) : strip (c :: t) = strip t := by
  rw [strip, List.dropWhile_cons_of_pos hc, strip]

lemma strip_concat (hc : isBlank c = true) : strip (t ++ [c]) = strip t := by
  rw [strip, strip, List.dropWhile_append]
  split
  · rename_i h
    rw [List.isEmpty_iff.mp h, List.dropWhile_cons_of_pos hc]
    rfl
  · exact List.rdropWhile_concat_pos _ _ _ hc

lemma mem_strip (h : c ∈ strip t) : c ∈ t :=
  List.dropWhile_subset _ ((List.rdropWhile_prefix _ _).subset h)

lemma strip_of_unblank (h : ∀ c ∈ t, isBlank c = false) : strip t = t := by
  have hfront : t.dropWhile isBlank = t := by
    cases t with
    | nil => rfl
    | cons c t => exact List.dropWhile_cons_of_neg (by simp [h c List.mem_cons_self])
  rw [strip, hfront]
  apply List.rdropWhile_eq_self_iff.mpr
  intro hne
  simp [h _ (List.getLast_mem hne)]

lemma strip_strip (t : Text) : strip (strip t) = strip t := by
  have hfront : (strip t).dropWhile isBlank = strip t := by
    rw [strip]
    cases hd : t.dropWhile isBlank with
    | nil => rfl
    | cons c r =>
      have hc : isBlank c = false := by
        have hhead := List.head?_dropWhile_not isBlank t
        rwa [hd] at hhead
      have hprefix := List.rdropWhile_prefix isBlank (c :: r)
      cases hs : (c :: r).rdropWhile isBlank with
      | nil => rfl
      | cons e s =>
        rw [hs] at hprefix
        rw [List.dropWhile_cons_of_neg]
        rw [(List.cons_prefix_cons.mp hprefix).1, hc]
        exact Bool.false_ne_true
  change ((strip t).dropWhile isBlank).rdropWhile isBlank = strip t
  rw [hfront]
  exact List.rdropWhile_idempotent _ _

end Stripping

end Ledwall.Library.TextLines
