import Ledwall.Server.ShowFiles

/-! What an exported show is read back as: its name and description up to their first line end, its
body up to a header of its own. -/

namespace Ledwall.Server.Shows

open Ledwall.Library.Listings Ledwall.Library.TextLines

/-- A line of its own, with no blanks around it. -/
def OneLine (t : Text) : Prop := strip t = t ∧ Unbroken t

instance (t : Text) : Decidable (OneLine t) := inferInstanceAs (Decidable (_ ∧ _))

/-- A body that comes back as it is: no carriage return in it, and no header line ahead of it. -/
structure Bare (body : Text) : Prop where
  no_return : '\r' ∉ body
  no_name : ¬ "# name:".toList <+: body
  no_description : ¬ "# description:".toList <+: body

/-- A text up to its first line end. -/
def firstLine (t : Text) : Text := t.takeWhile fun c => !isBoundary c

section Lines

variable {a p t : Text} {c : Char}

lemma unbroken_firstLine (t : Text) : Unbroken (firstLine t) := by
  intro c hc
  simpa using List.mem_takeWhile_imp hc

lemma oneLine_strip_firstLine (t : Text) : OneLine (strip (firstLine t)) :=
  ⟨strip_strip _, fun c hc => unbroken_firstLine t c (mem_strip hc)⟩

lemma OneLine.firstLine (h : OneLine t) : firstLine t = t := by
  rw [Shows.firstLine, List.takeWhile_eq_self_iff]
  intro c hc
  simp [h.2 c hc]

lemma split_firstLine (t r : Text) :
    ∃ c r', isBoundary c = true ∧ t ++ '\n' :: r = firstLine t ++ c :: r' := by
  have ht : firstLine t ++ t.dropWhile (fun c => !isBoundary c) = t := List.takeWhile_append_dropWhile
  cases hd : t.dropWhile fun c => !isBoundary c with
  | nil =>
    rw [hd, List.append_nil] at ht
    exact ⟨'\n', r, by decide, by rw [ht]⟩
  | cons c r' =>
    have hc := List.head?_dropWhile_not (fun c => !isBoundary c) t
    rw [hd] at hc ht
    refine ⟨c, r' ++ '\n' :: r, by simpa using hc, ?_⟩
    conv_lhs => rw [← ht]
    rw [List.append_assoc, List.cons_append]

lemma headerValue_line (hp : ':' ∉ p) (hc : isBlank c = true) :
    headerValue (p ++ [':', ' '] ++ a ++ [c]) = strip a := by
  have hbefore : ∀ b ∈ p, decide (b ≠ ':') = true := by
    intro b hb
    apply decide_eq_true
    rintro rfl
    exact hp hb
  rw [headerValue, List.append_assoc, List.append_assoc, List.dropWhile_append_of_pos hbefore,
    List.cons_append, List.dropWhile_cons_of_neg (by decide), List.drop_one, List.tail_cons]
  rw [List.singleton_append, strip_cons (by decide), strip_concat hc]

lemma lines_header (hp : ':' ∉ p) (hline : Unbroken p) (t r : Text) :
    ∃ l ls, lines (p ++ [':', ' '] ++ t ++ '\n' :: r) = l :: ls ∧ p ++ [':'] <+: l ∧
      headerValue l = strip (firstLine t) := by
  obtain ⟨c, r', hc, ht⟩ := split_firstLine t r
  have hfront : Unbroken (p ++ [':', ' '] ++ firstLine t) :=
    (hline.append (by decide)).append (unbroken_firstLine t)
  obtain ⟨d, ls, hd, hlines⟩ := lines_first (r := r') hfront hc
  refine ⟨_, ls, ?_, ?_, headerValue_line hp hd⟩
  · rw [List.append_assoc _ t, ht, ← List.append_assoc]
    exact hlines
  · refine ⟨' ' :: firstLine t ++ [d], ?_⟩
    simp

lemma parseLines_name (name : Text) (desc : Option Text) (ls : List Text) :
    (parseLines (some name) desc ls).1 = some name := by
  induction ls generalizing desc with
  | nil => rfl
  | cons l ls ih =>
    rw [parseLines]
    split
    · exact ih desc
    split
    · exact ih _
    · rfl

lemma parseLines_description (n : Option Text) (d : Text) (ls : List Text) :
    (parseLines n (some d) ls).2.1 = some d := by
  induction ls generalizing n with
  | nil => rfl
  | cons l ls ih =>
    rw [parseLines]
    split
    · exact ih _
    split
    · exact ih n
    · rfl

lemma parseLines_suffix (n desc : Option Text) (ls : List Text) : (parseLines n desc ls).2.2 <:+ ls := by
  induction ls generalizing n desc with
  | nil => exact List.suffix_rfl
  | cons l ls ih =>
    rw [parseLines]
    split
    · exact (ih _ _).trans (List.suffix_cons l ls)
    split
    · exact (ih _ _).trans (List.suffix_cons l ls)
    · exact List.suffix_rfl

end Lines

section Tags

lemma name_tag : "# name:".toList = "# name".toList ++ [':'] := by decide

lemma description_tag : "# description:".toList = "# description".toList ++ [':'] := by decide

lemma tags_apart {l : Text} (hname : "# name:".toList <+: l) (hdesc : "# description:".toList <+: l) :
    False := by
  have hshort := List.prefix_of_prefix_length_le hname hdesc (by decide)
  exact absurd hshort (by decide)

end Tags

section Reading

variable {name fn t : Text} {r : Row} {ls : List Text}

lemma parseFile_eq (t fn : Text) :
    parseFile (universal t) fn =
      ⟨(truthy (parseLines none none (lines t)).1).getD (splitextRoot fn),
        (parseLines none none (lines t)).2.1, (parseLines none none (lines t)).2.2.flatten⟩ := by
  rw [parseFile, ← lines]

lemma append_feed (p a b c : Text) : p ++ a ++ ['\n'] ++ b ++ c = p ++ a ++ '\n' :: (b ++ c) := by
  simp

lemma exportText_eq (name : Text) (r : Row) :
    exportText name r =
      "# name".toList ++ [':', ' '] ++ name ++ '\n' :: (descriptionLine r.description ++ nl r.body) := by
  have htag : "# name: ".toList = "# name".toList ++ [':', ' '] := by decide
  rw [← htag]
  exact append_feed _ _ _ _

/-- The name a file is read under. -/
def readName (name fn : Text) : Text := (truthy (some (strip (firstLine name)))).getD (splitextRoot fn)

lemma parse_name (name fn : Text) (r : Row) :
    (parseFile (universal (exportText name r)) fn).name = readName name fn := by
  obtain ⟨l, ls, hlines, htag, hvalue⟩ := lines_header (p := "# name".toList) (by decide) (by decide)
    name (descriptionLine r.description ++ nl r.body)
  rw [parseFile_eq, exportText_eq, hlines, parseLines, if_pos (name_tag ▸ htag), hvalue]
  change (truthy (parseLines (some _) none ls).1).getD _ = _
  rw [parseLines_name, readName]

lemma safe_unblank {c : Char} (h : safe c = true) : isBlank c = false := by
  have hblank : (boundaries ++ spaces).all (fun c => !safe c) = true := by decide
  rw [← Bool.not_eq_true]
  intro hc
  rw [isBlank, Bool.or_eq_true, decide_eq_true_eq, decide_eq_true_eq, ← List.mem_append] at hc
  have hunsafe := List.all_eq_true.mp hblank c hc
  rw [h] at hunsafe
  cases hunsafe

lemma filename_safe (name : Text) : ∀ c ∈ filename name, safe c = true := by
  intro c hc
  rcases List.mem_append.mp hc with hc | hc
  · obtain ⟨b, -, rfl⟩ := List.mem_map.mp
      (List.dropWhile_subset _ ((List.rdropWhile_prefix _ _).subset hc))
    split
    · assumption
    · decide
  · exact List.all_eq_true.mp (by decide : ".yaml".toList.all safe = true) c hc

lemma filename_ne_nil (name : Text) : filename name ≠ [] := by
  intro h
  exact absurd (List.append_eq_nil_iff.mp h).2 (by decide)

lemma mem_splitextRoot {c : Char} (h : c ∈ splitextRoot fn) : c ∈ fn := by
  rw [splitextRoot] at h
  split at h
  · exact h
  · rename_i root hroot
    split at h
    · have hc : c ∈ fn.reverse.dropWhile (· ≠ '.') :=
        hroot ▸ List.mem_cons_of_mem _ (List.mem_reverse.mp h)
      exact List.mem_reverse.mp (List.dropWhile_subset _ hc)
    · exact h

lemma splitextRoot_ne_nil (h : fn ≠ []) : splitextRoot fn ≠ [] := by
  rw [splitextRoot]
  split
  · exact h
  · split
    · rename_i root _ hany
      intro hnil
      rw [List.reverse_eq_nil_iff.mp hnil] at hany
      cases hany
    · exact h

lemma oneLine_readName (name m : Text) :
    readName name (filename m) ≠ [] ∧ OneLine (readName name (filename m)) := by
  rw [readName]
  cases hv : strip (firstLine name) with
  | cons c v =>
    have hvalue : truthy (some (c :: v)) = some (c :: v) := rfl
    rw [hvalue, Option.getD_some, ← hv]
    exact ⟨hv ▸ List.cons_ne_nil c v, oneLine_strip_firstLine name⟩
  | nil =>
    have hvalue : truthy (some []) = none := rfl
    have hsafe : ∀ c ∈ splitextRoot (filename m), isBlank c = false := fun c hc =>
      safe_unblank (filename_safe m c (mem_splitextRoot hc))
    rw [hvalue, Option.getD_none]
    refine ⟨splitextRoot_ne_nil (filename_ne_nil m), strip_of_unblank hsafe, ?_⟩
    intro c hc
    rw [← Bool.not_eq_true]
    intro hb
    have hblank := isBlank_of_isBoundary hb
    rw [hsafe c hc] at hblank
    cases hblank

lemma readName_of_oneLine (hne : name ≠ []) (h : OneLine name) : readName name fn = name := by
  rw [readName, h.firstLine, h.1]
  cases name with
  | nil => exact absurd rfl hne
  | cons c name => rfl

end Reading

section Bodies

variable {body t : Text}

lemma nl_cases (t : Text) : nl t = t ∨ nl t = t ++ ['\n'] := by
  rw [nl]
  split
  · exact .inl rfl
  · exact .inr rfl

lemma nl_suffix (t : Text) : ['\n'] <:+ nl t := by
  rw [nl]
  split
  · assumption
  · exact List.suffix_append t _

lemma nl_nl (t : Text) : nl (nl t) = nl t := by
  conv_lhs => rw [nl]
  exact if_pos (nl_suffix t)

lemma nl_length_le (t : Text) : (nl t).length ≤ t.length + 1 := by
  rcases nl_cases t with h | h
  · rw [h]
    exact Nat.le_succ _
  · rw [h, List.length_append, List.length_singleton]

lemma return_mem_nl : '\r' ∈ nl t ↔ '\r' ∈ t := by
  rcases nl_cases t with h | h
  · rw [h]
  · rw [h, List.mem_append]
    exact or_iff_left (by decide)

lemma prefix_of_prefix_nl {p : Text} (hp : '\n' ∉ p) (h : p <+: nl t) : p <+: t := by
  rcases nl_cases t with he | he
  · rwa [he] at h
  · rw [he, List.prefix_concat_iff] at h
    rcases h with rfl | h
    · exact absurd (List.mem_append_right t (List.mem_singleton_self _)) hp
    · exact h

lemma Bare.universal (h : Bare body) : universal (nl body) = nl body :=
  universal_of_not_mem fun hc => h.no_return (return_mem_nl.mp hc)

lemma parseLines_bare (n desc : Option Text) (h : Bare body) :
    parseLines n desc (lines (nl body)) = (n, desc, lines (nl body)) := by
  cases hl : lines (nl body) with
  | nil => rfl
  | cons l ls =>
    have hflat : l ++ ls.flatten = nl body := by
      rw [← h.universal, ← flatten_lines, hl, List.flatten_cons]
    have hprefix : l <+: nl body := ⟨_, hflat⟩
    rw [parseLines, if_neg, if_neg]
    · exact fun htag => h.no_description (prefix_of_prefix_nl (by decide) (htag.trans hprefix))
    · exact fun htag => h.no_name (prefix_of_prefix_nl (by decide) (htag.trans hprefix))

lemma flatten_length_le {ls ls' : List Text} (h : ls' <:+ ls) :
    ls'.flatten.length ≤ ls.flatten.length := by
  obtain ⟨front, rfl⟩ := h
  rw [List.flatten_append, List.length_append]
  omega

lemma shorter_of_tag {p : Text} (hp : p = "# name:".toList ∨ p = "# description:".toList)
    (h : p <+: body) (hbody : '\r' ∉ body) (n desc : Option Text) :
    (parseLines n desc (lines (nl body))).2.2.flatten.length + 1 < (nl body).length := by
  have hshape : Unbroken p ∧ 7 ≤ p.length := by
    rcases hp with rfl | rfl
    · decide
    · decide
  have hnl : p <+: nl body := by
    rcases nl_cases body with he | he
    · rwa [he]
    · rw [he]
      exact h.trans (List.prefix_append _ _)
  obtain ⟨l, ls, hl, hpl⟩ := lines_prefix hshape.1 (by rintro rfl; exact absurd hshape.2 (by decide)) hnl
  have hlen : (nl body).length = l.length + ls.flatten.length := by
    have hflat := flatten_lines (nl body)
    rw [universal_of_not_mem fun hc => hbody (return_mem_nl.mp hc), hl, List.flatten_cons] at hflat
    rw [← hflat, List.length_append]
  have hrest : (parseLines n desc (lines (nl body))).2.2 <:+ ls := by
    rw [hl, parseLines]
    split
    · exact parseLines_suffix _ _ ls
    split
    · exact parseLines_suffix _ _ ls
    · rename_i hname hdesc
      rcases hp with rfl | rfl
      · exact absurd hpl hname
      · exact absurd hpl hdesc
  have hfirst := hpl.length_le
  have hle := flatten_length_le hrest
  omega

lemma bare_of_parseLines {n desc : Option Text}
    (h : nl (parseLines n desc (lines (nl body))).2.2.flatten = nl body) : Bare body := by
  have hreturn : '\r' ∉ body := by
    intro hc
    rw [← return_mem_nl, ← h, return_mem_nl] at hc
    obtain ⟨front, hfront⟩ := parseLines_suffix n desc (lines (nl body))
    apply return_not_mem_universal (nl body)
    rw [← flatten_lines, ← hfront, List.flatten_append]
    exact List.mem_append_right _ hc
  have hshort {p : Text} (hp : p = "# name:".toList ∨ p = "# description:".toList) : ¬ p <+: body := by
    intro htag
    have hlt := shorter_of_tag hp htag hreturn n desc
    have hle := nl_length_le (parseLines n desc (lines (nl body))).2.2.flatten
    rw [h] at hle
    omega
  exact ⟨hreturn, hshort (.inl rfl), hshort (.inr rfl)⟩

end Bodies

section Shows

variable {name fn d : Text} {r : Row}

lemma truthy_getD (desc : Option Text) : (truthy desc).getD [] = desc.getD [] := by
  rcases desc with - | - | ⟨c, d⟩
  · rfl
  · rfl
  · rfl

lemma truthy_some {desc : Option Text} (h : truthy desc = some d) : desc = some d ∧ d ≠ [] := by
  rcases desc with - | - | ⟨c, e⟩
  · cases h
  · cases h
  · obtain rfl := Option.some.inj h
    exact ⟨rfl, List.cons_ne_nil c e⟩

lemma parse_rest (hne : name ≠ []) (hname : OneLine name) (fn : Text) (r : Row) :
    parseFile (universal (exportText name r)) fn =
      ⟨name, (parseLines (some name) none (lines (descriptionLine r.description ++ nl r.body))).2.1,
        (parseLines (some name) none (lines (descriptionLine r.description ++ nl r.body))).2.2.flatten⟩ := by
  have hfront : Unbroken ("# name".toList ++ [':', ' '] ++ name) :=
    Unbroken.append (by decide) hname.2
  have htag : "# name:".toList <+: "# name".toList ++ [':', ' '] ++ name ++ ['\n'] :=
    ⟨' ' :: name ++ ['\n'], by rw [name_tag]; simp⟩
  have hvalue : headerValue ("# name".toList ++ [':', ' '] ++ name ++ ['\n']) = name := by
    rw [headerValue_line (by decide) (by decide), hname.1]
  have hparsed : (truthy (some name)).getD (splitextRoot fn) = name := by
    cases name with
    | nil => exact absurd rfl hne
    | cons c name => rfl
  rw [parseFile_eq, exportText_eq, lines_line hfront, parseLines, if_pos htag, hvalue]
  change Parsed.mk ((truthy (parseLines (some name) none _).1).getD _)
    (parseLines (some name) none _).2.1 _ = _
  rw [parseLines_name, hparsed]
  rfl

lemma descriptionLine_eq {desc : Option Text} (h : truthy desc = some d) (t : Text) :
    descriptionLine desc ++ t = "# description".toList ++ [':', ' '] ++ d ++ '\n' :: t := by
  have htag : "# description: ".toList = "# description".toList ++ [':', ' '] := by decide
  rw [descriptionLine, h, ← htag]
  simp

lemma parse_description {n : Text} (h : truthy r.description = some d) :
    ∃ ls, parseLines (some n) none (lines (descriptionLine r.description ++ nl r.body)) =
      parseLines (some n) (some (strip (firstLine d))) ls ∧ (OneLine d → ls = lines (nl r.body)) := by
  obtain ⟨l, ls, hlines, htag, hvalue⟩ := lines_header (p := "# description".toList) (by decide)
    (by decide) d (nl r.body)
  rw [← description_tag] at htag
  have hname : ¬ "# name:".toList <+: l := fun hname => tags_apart hname htag
  refine ⟨ls, ?_, ?_⟩
  · rw [descriptionLine_eq h, hlines, parseLines, if_neg hname, if_pos htag, hvalue]
    rfl
  · intro hd
    have hfront : Unbroken ("# description".toList ++ [':', ' '] ++ d) :=
      Unbroken.append (by decide) hd.2
    rw [lines_line hfront] at hlines
    exact (List.cons.inj hlines).2.symm

lemma parse_export (hne : name ≠ []) (hname : OneLine name) (hdesc : OneLine (r.description.getD []))
    (hbody : Bare r.body) (fn : Text) :
    parseFile (universal (exportText name r)) fn = ⟨name, truthy r.description, nl r.body⟩ := by
  have hflat : (lines (nl r.body)).flatten = nl r.body := (flatten_lines _).trans hbody.universal
  rw [parse_rest hne hname]
  cases hd : truthy r.description with
  | none =>
    have hline : descriptionLine r.description = [] := by rw [descriptionLine, hd]
    rw [hline, List.nil_append, parseLines_bare _ _ hbody, hflat]
  | some d =>
    rw [← truthy_getD, hd, Option.getD_some] at hdesc
    obtain ⟨ls, hls, hrest⟩ := parse_description (n := name) hd
    rw [hls, hrest hdesc, parseLines_bare _ _ hbody, hdesc.firstLine, hdesc.1, hflat]

lemma of_parse_export (hne : name ≠ []) (hname : OneLine name)
    (hdesc : (parseFile (universal (exportText name r)) fn).description.getD [] = r.description.getD [])
    (hbody : nl (parseFile (universal (exportText name r)) fn).body = nl r.body) :
    OneLine (r.description.getD []) ∧ Bare r.body := by
  rw [parse_rest hne hname] at hdesc hbody
  cases hd : truthy r.description with
  | none =>
    have hline : descriptionLine r.description = [] := by rw [descriptionLine, hd]
    rw [hline, List.nil_append] at hbody
    rw [← truthy_getD, hd]
    exact ⟨by decide, bare_of_parseLines hbody⟩
  | some d =>
    obtain ⟨ls, hls, hrest⟩ := parse_description (n := name) hd
    rw [hls] at hdesc hbody
    rw [parseLines_description, ← truthy_getD r.description, hd] at hdesc
    have hstrip : strip (firstLine d) = d := hdesc
    have honeLine : OneLine d := hstrip ▸ oneLine_strip_firstLine d
    rw [hrest honeLine] at hbody
    rw [← truthy_getD, hd]
    exact ⟨honeLine, bare_of_parseLines hbody⟩

end Shows

end Ledwall.Server.Shows
