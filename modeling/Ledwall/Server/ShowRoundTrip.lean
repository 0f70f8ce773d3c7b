import Ledwall.Server.ShowHeaders

/-! Which shows survive an export and an import, and which directories can be imported twice. -/

namespace Ledwall.Server.Shows

open Ledwall.Library.Listings Ledwall.Library.TextLines

/-- What two rows are compared by: an absent description is an empty one, and a missing final line end
makes no difference. -/
def norm (r : Row) : Text × Text := (r.description.getD [], nl r.body)

def SameShows (db db' : Db) : Prop := ∀ n, (db.lookup n).map norm = (db'.lookup n).map norm

def exported (db : Db) (written : ℤ) : Directory := (exportDir db ∅ written).1

structure Survives (db : Db) (written now : ℤ) : Prop where
  back : SameShows db (importDir db (exported db written) now).db
  created : (importDir db (exported db written) now).created = 0
  recreated : SameShows db (importDir ∅ (exported db written) now).db
  synced : ∀ s ∈ (fileStatus db (exported db written)).shows, s.2.2 = .inSync

/-- Shows with files of their own, whose names and descriptions are single lines and whose bodies are
taken for nothing else. -/
structure Exportable (db : Db) : Prop where
  files : ∀ n ∈ db, ∀ m ∈ db, filename n = filename m → n = m
  names : ∀ n ∈ db, n ≠ [] ∧ OneLine n
  rows : ∀ n r, db.lookup n = some r → OneLine (r.description.getD []) ∧ Bare r.body

/-- Files of one name say the same of the show. -/
def Agreeing (dir : Directory) : Prop :=
  ∀ f ∈ showFiles dir, ∀ g ∈ showFiles dir, (parsed f).name = (parsed g).name →
    (parsed f).body = (parsed g).body ∧
      ∀ d ∈ truthy (parsed f).description, ∀ e ∈ truthy (parsed g).description, d = e

section Importing

variable {now : ℤ} {i : Import} {p q : Parsed} {ps : List Parsed} {n : Text} {db : Db}

/-- The row of that name says what the file says. -/
def Holds (p : Parsed) (db : Db) : Prop :=
  ∃ r, db.lookup p.name = some r ∧ r.body = p.body ∧
    ((truthy p.description).isSome → r.description = p.description)

lemma importFile_of_holds (h : Holds p i.db) : importFile now i p = i := by
  obtain ⟨r, hr, hbody, hdesc⟩ := h
  rw [importFile, hr]
  dsimp only
  rw [if_neg]
  rintro (hne | ⟨hsome, hne⟩)
  · exact hne hbody
  · exact hne (hdesc hsome)

lemma importFile_lookup_of_ne (h : n ≠ p.name) :
    (importFile now i p).db.lookup n = i.db.lookup n := by
  rw [importFile]
  split
  · split
    · exact AList.lookup_insert_ne h
    · rfl
  · exact AList.lookup_insert_ne h

lemma importFile_lookup_none (h : i.db.lookup p.name = none) :
    (importFile now i p).db.lookup p.name = some ⟨p.body, some (p.description.getD []), now⟩ := by
  rw [importFile, h]
  exact AList.lookup_insert _

variable (now) in
lemma importFile_lookup_some {r : Row} (h : i.db.lookup p.name = some r) :
    (∃ u, (importFile now i p).db.lookup p.name =
      some ⟨p.body, (truthy p.description).or r.description, u⟩) ∧
      (importFile now i p).created = i.created := by
  rw [importFile, h]
  dsimp only
  split
  · exact ⟨⟨now, AList.lookup_insert _⟩, rfl⟩
  · rename_i hsame
    rw [not_or, not_not, not_and, not_not] at hsame
    refine ⟨⟨r.updated, ?_⟩, rfl⟩
    rw [h, ← hsame.1]
    cases hd : truthy p.description with
    | none => rfl
    | some d =>
      have hdesc := hsame.2 (by rw [hd]; rfl)
      rw [Option.some_or, ← (truthy_some hd).1, ← hdesc]

lemma holds_importFile : Holds p (importFile now i p).db := by
  cases h : i.db.lookup p.name with
  | none =>
    refine ⟨_, importFile_lookup_none h, rfl, fun hsome => ?_⟩
    obtain ⟨d, hd⟩ := Option.isSome_iff_exists.mp hsome
    rw [(truthy_some hd).1]
    rfl
  | some r =>
    obtain ⟨⟨u, hu⟩, -⟩ := importFile_lookup_some now h
    refine ⟨_, hu, rfl, fun hsome => ?_⟩
    obtain ⟨d, hd⟩ := Option.isSome_iff_exists.mp hsome
    change (truthy p.description).or r.description = _
    rw [hd, (truthy_some hd).1, Option.some_or]

/-- Two files that say the same where they have one name. -/
def Agree (p q : Parsed) : Prop :=
  p.name = q.name → p.body = q.body ∧ ∀ d ∈ truthy p.description, ∀ e ∈ truthy q.description, d = e

lemma Holds.importFile (h : Holds q i.db) (hagree : Agree p q) :
    Holds q (importFile now i p).db := by
  obtain ⟨r, hr, hbody, hdesc⟩ := h
  by_cases hname : q.name = p.name
  · obtain ⟨hsame, hdescs⟩ := hagree hname.symm
    obtain ⟨⟨u, hu⟩, -⟩ := importFile_lookup_some now (hname ▸ hr)
    refine ⟨_, hname ▸ hu, hsame, fun hsome => ?_⟩
    obtain ⟨e, he⟩ := Option.isSome_iff_exists.mp hsome
    cases hd : truthy p.description with
    | none => exact hdesc hsome
    | some d => rw [hdescs d hd e he, (truthy_some he).1, Option.some_or]
  · exact ⟨r, by rw [importFile_lookup_of_ne hname, hr], hbody, hdesc⟩

lemma holds_import (hagree : ∀ p ∈ ps, ∀ q ∈ ps, Agree p q) :
    ∀ q ∈ ps, Holds q (ps.foldl (importFile now) i).db := by
  have hkeep (ps : List Parsed) (i : Import) (q : Parsed) (h : Holds q i.db)
      (hagree : ∀ p ∈ ps, Agree p q) : Holds q (ps.foldl (importFile now) i).db := by
    induction ps generalizing i with
    | nil => exact h
    | cons p ps ih =>
      obtain ⟨hp, hps⟩ := List.forall_mem_cons.mp hagree
      exact ih _ (h.importFile hp) hps
  induction ps generalizing i with
  | nil =>
    intro q hq
    cases hq
  | cons p ps ih =>
    intro q hq
    rcases List.mem_cons.mp hq with rfl | hq
    · exact hkeep ps _ q holds_importFile fun p hp =>
        hagree p (List.mem_cons_of_mem q hp) q List.mem_cons_self
    · exact ih (fun p' hp q' hq' => hagree p' (List.mem_cons_of_mem p hp) q' (List.mem_cons_of_mem p hq'))
        q hq

lemma import_of_holds (h : ∀ p ∈ ps, Holds p i.db) : ps.foldl (importFile now) i = i := by
  induction ps generalizing i with
  | nil => rfl
  | cons p ps ih =>
    obtain ⟨hp, hps⟩ := List.forall_mem_cons.mp h
    rw [List.foldl_cons, importFile_of_holds hp]
    exact ih hps

variable (now) in
lemma updated_le (ps : List Parsed) (i : Import) :
    i.updated ≤ (ps.foldl (importFile now) i).updated := by
  induction ps generalizing i with
  | nil => exact le_rfl
  | cons p ps ih =>
    refine le_trans ?_ (ih (importFile now i p))
    rw [importFile]
    split
    · split
      · exact Nat.le_succ _
      · exact le_rfl
    · exact le_rfl

lemma holds_of_not_updated (hmem : ∀ p ∈ ps, p.name ∈ i.db)
    (h : (ps.foldl (importFile now) i).updated = i.updated) : ∀ p ∈ ps, Holds p i.db := by
  induction ps generalizing i with
  | nil =>
    intro p hp
    cases hp
  | cons p ps ih =>
    obtain ⟨hp, hps⟩ := List.forall_mem_cons.mp hmem
    obtain ⟨r, hr⟩ := Option.isSome_iff_exists.mp (AList.lookup_isSome.mpr hp)
    have hholds : Holds p i.db := by
      by_cases hsame : r.body ≠ p.body ∨ (truthy p.description).isSome ∧ r.description ≠ p.description
      · have hstep : (importFile now i p).updated = i.updated + 1 := by
          rw [importFile, hr]
          dsimp only
          rw [if_pos hsame]
        have hle := updated_le now ps (importFile now i p)
        rw [List.foldl_cons] at h
        omega
      · rw [not_or, not_not, not_and, not_not] at hsame
        exact ⟨r, hr, hsame⟩
    rw [List.foldl_cons, importFile_of_holds hholds] at h
    exact List.forall_mem_cons.mpr ⟨hholds, ih hps h⟩

lemma mem_importFile : n ∈ (importFile now i p).db ↔ n ∈ i.db ∨ n = p.name := by
  by_cases hname : n = p.name
  · subst hname
    refine iff_of_true ?_ (.inr rfl)
    obtain ⟨r, hr, -⟩ : Holds p (importFile now i p).db := holds_importFile
    rw [← AList.lookup_isSome, hr]
    rfl
  · rw [← AList.lookup_isSome, importFile_lookup_of_ne hname, AList.lookup_isSome, or_iff_left hname]

lemma mem_import : n ∈ (ps.foldl (importFile now) i).db ↔ n ∈ i.db ∨ ∃ p ∈ ps, p.name = n := by
  induction ps generalizing i with
  | nil => simp
  | cons p ps ih =>
    rw [List.foldl_cons, ih, mem_importFile, or_assoc, List.exists_mem_cons_iff, eq_comm (a := n)]

lemma import_lookup_of_ne (h : ∀ p ∈ ps, p.name ≠ n) :
    (ps.foldl (importFile now) i).db.lookup n = i.db.lookup n := by
  induction ps generalizing i with
  | nil => rfl
  | cons p ps ih =>
    obtain ⟨hp, hps⟩ := List.forall_mem_cons.mp h
    rw [List.foldl_cons, ih hps, importFile_lookup_of_ne hp.symm]

lemma import_lookup_new (hnodup : (ps.map Parsed.name).Nodup)
    (hnew : ∀ p ∈ ps, i.db.lookup p.name = none) :
    ∀ p ∈ ps, (ps.foldl (importFile now) i).db.lookup p.name =
      some ⟨p.body, some (p.description.getD []), now⟩ := by
  induction ps generalizing i with
  | nil =>
    intro p hp
    cases hp
  | cons q ps ih =>
    obtain ⟨hq, hps⟩ := List.nodup_cons.mp hnodup
    obtain ⟨hqnew, hpsnew⟩ := List.forall_mem_cons.mp hnew
    have hother : ∀ p ∈ ps, p.name ≠ q.name := fun p hp hname =>
      hq (List.mem_map.mpr ⟨p, hp, hname⟩)
    intro p hp
    rcases List.mem_cons.mp hp with rfl | hp
    · rw [List.foldl_cons, import_lookup_of_ne hother, importFile_lookup_none hqnew]
    · refine ih hps (fun p hp => ?_) p hp
      rw [importFile_lookup_of_ne (hother p hp), hpsnew p hp]

lemma import_same {i : Import} (hsame : SameShows db i.db)
    (h : ∀ p ∈ ps, (db.lookup p.name).map norm = some (p.description.getD [], nl p.body)) :
    SameShows db (ps.foldl (importFile now) i).db ∧
      (ps.foldl (importFile now) i).created = i.created := by
  induction ps generalizing i with
  | nil => exact ⟨hsame, rfl⟩
  | cons p ps ih =>
    obtain ⟨hp, hps⟩ := List.forall_mem_cons.mp h
    rw [hsame p.name, Option.map_eq_some_iff] at hp
    obtain ⟨r, hr, hnorm⟩ := hp
    obtain ⟨⟨u, hu⟩, hcreated⟩ := importFile_lookup_some now hr
    have hstep : SameShows db (importFile now i p).db := by
      intro n
      by_cases hn : n = p.name
      · subst hn
        rw [hsame, hr, hu, Option.map_some, Option.map_some, hnorm]
        congr 2
        cases hd : truthy p.description with
        | none =>
          have hempty := congrArg Prod.fst hnorm
          rw [← truthy_getD p.description, hd]
          exact (hempty.trans (by rw [← truthy_getD p.description, hd])).symm
        | some d => rw [(truthy_some hd).1, Option.some_or]
      · rw [hsame, importFile_lookup_of_ne hn]
    rw [List.foldl_cons, ← hcreated]
    exact ih hstep hps

lemma import_twice_iff {first second : ℤ} :
    (ps.foldl (importFile second) { db := (ps.foldl (importFile first) { db }).db }).updated = 0 ↔
      ∀ p ∈ ps, ∀ q ∈ ps, Agree p q := by
  constructor
  · intro h p hp q hq hname
    have hmem : ∀ p ∈ ps, p.name ∈ (ps.foldl (importFile first) { db }).db := fun p hp =>
      mem_import.mpr (.inr ⟨p, hp, rfl⟩)
    have hholds := holds_of_not_updated (i := { db := (ps.foldl (importFile first) { db }).db }) hmem h
    obtain ⟨r, hr, hbody, hdesc⟩ := hholds p hp
    obtain ⟨r', hr', hbody', hdesc'⟩ := hholds q hq
    obtain rfl : r = r' := Option.some.inj (hr.symm.trans (hname ▸ hr'))
    refine ⟨hbody.symm.trans hbody', fun d hd e he => ?_⟩
    have hde := (hdesc (by rw [hd]; rfl)).symm.trans (hdesc' (by rw [he]; rfl))
    rw [(truthy_some hd).1, (truthy_some he).1] at hde
    exact Option.some.inj hde
  · intro h
    rw [import_of_holds (i := { db := _ }) (holds_import h)]

end Importing

section Exporting

variable {db : Db} {written now : ℤ} {n m fn : Text} {r r' : Row} {f g : Text × File}

/-- The file of a show. -/
def fileOf (n : Text) (r : Row) (written : ℤ) : Text × File := (filename n, ⟨exportText n r, written⟩)

lemma mem_showFiles {dir : Directory} : f ∈ showFiles dir ↔
    dir.lookup f.1 = some f.2 ∧ (".yaml".toList <:+ f.1 ∨ ".yml".toList <:+ f.1) := by
  rw [showFiles, List.mem_filter, mem_listed, decide_eq_true_eq]

lemma mem_exported_of_lookup (h : (exported db written).lookup fn = some g.2) (hfn : g.1 = fn) :
    ∃ n r, db.lookup n = some r ∧ g = fileOf n r written := by
  rcases exists_of_lookup_assignAll h with hempty | ⟨s, hs, hname, hfile⟩
  · cases hempty
  · exact ⟨s.1, s.2, mem_listed.mp hs, Prod.ext (hfn.trans hname.symm) hfile.symm⟩

lemma exists_of_exported (h : f ∈ showFiles (exported db written)) :
    ∃ n r, db.lookup n = some r ∧ f = fileOf n r written :=
  mem_exported_of_lookup (mem_showFiles.mp h).1 rfl

lemma parsed_fileOf_name (n : Text) (r : Row) (written : ℤ) :
    (parsed (fileOf n r written)).name = readName n (filename n) := parse_name _ _ _

variable (written) in
lemma fileOf_mem (hfiles : ∀ n ∈ db, ∀ m ∈ db, filename n = filename m → n = m)
    (h : db.lookup n = some r) : fileOf n r written ∈ showFiles (exported db written) := by
  rw [mem_showFiles]
  refine ⟨?_, .inl (List.suffix_append _ _)⟩
  have hmem {s : Text × Row} (hs : s ∈ listed db) : s.1 ∈ db := by
    rw [← AList.lookup_isSome, mem_listed.mp hs]
    rfl
  apply lookup_assignAll (e := (n, r)) (k := fun s : Text × Row => filename s.1)
  · intro s hs s' hs' hname
    have hs₁ := mem_listed.mp hs
    have heq := hfiles _ (hmem hs) _ (hmem hs') hname
    rw [heq, mem_listed.mp hs'] at hs₁
    rw [heq, Option.some.inj hs₁]
  · exact mem_listed.mpr h

lemma exported_of_name (hnames : ∀ n ∈ db, n ≠ [] ∧ OneLine n)
    (h : f ∈ showFiles (exported db written)) :
    ∃ r, db.lookup (parsed f).name = some r ∧ f = fileOf (parsed f).name r written := by
  obtain ⟨n, r, hr, rfl⟩ := exists_of_exported h
  have hn : n ∈ db := by
    rw [← AList.lookup_isSome, hr]
    rfl
  rw [parsed_fileOf_name, readName_of_oneLine (hnames n hn).1 (hnames n hn).2]
  exact ⟨r, hr, rfl⟩

lemma eq_of_parsed_name (hnames : ∀ n ∈ db, n ≠ [] ∧ OneLine n)
    (hf : f ∈ showFiles (exported db written)) (hg : g ∈ showFiles (exported db written))
    (h : (parsed f).name = (parsed g).name) : f = g := by
  obtain ⟨r, hr, hfile⟩ := exported_of_name hnames hf
  obtain ⟨r', hr', hfile'⟩ := exported_of_name hnames hg
  rw [h] at hr hfile
  obtain rfl := Option.some.inj (hr.symm.trans hr')
  exact hfile.trans hfile'.symm

variable (now) in
lemma lookup_recreated (hnames : ∀ n ∈ db, n ≠ [] ∧ OneLine n)
    (hf : f ∈ showFiles (exported db written)) :
    (importDir ∅ (exported db written) now).db.lookup (parsed f).name =
      some ⟨(parsed f).body, some ((parsed f).description.getD []), now⟩ := by
  have hinj : ∀ f ∈ showFiles (exported db written), ∀ g ∈ showFiles (exported db written),
      (parsed f).name = (parsed g).name → f = g := fun f hf g hg h => eq_of_parsed_name hnames hf hg h
  have hnodup : (((showFiles (exported db written)).map parsed).map Parsed.name).Nodup := by
    rw [List.map_map]
    exact ((listed_nodup _).filter _).map_on hinj
  exact import_lookup_new hnodup (fun p _ => AList.lookup_empty _) _ (List.mem_map_of_mem hf)

lemma oneLine_of_recreated (h : SameShows db (importDir ∅ (exported db written) now).db) (hn : n ∈ db) :
    (∃ f ∈ showFiles (exported db written), (parsed f).name = n) ∧ n ≠ [] ∧ OneLine n := by
  have hmem : n ∈ (importDir ∅ (exported db written) now).db := by
    rw [← AList.lookup_isSome] at hn ⊢
    obtain ⟨r, hr⟩ := Option.isSome_iff_exists.mp hn
    have hnorm := h n
    rw [hr, Option.map_some] at hnorm
    obtain ⟨r', hr', -⟩ := Option.map_eq_some_iff.mp hnorm.symm
    rw [hr']
    rfl
  rcases mem_import.mp hmem with hempty | ⟨p, hp, hname⟩
  · exact absurd hempty (AList.notMem_empty n)
  obtain ⟨f, hf, rfl⟩ := List.mem_map.mp hp
  refine ⟨⟨f, hf, hname⟩, ?_⟩
  obtain ⟨m, r, -, rfl⟩ := exists_of_exported hf
  rw [← hname, parsed_fileOf_name]
  exact oneLine_readName m m

lemma Survives.exportable (h : Survives db written now) : Exportable db := by
  have hrecreated := h.recreated
  have hnames : ∀ n ∈ db, n ≠ [] ∧ OneLine n := fun n hn => (oneLine_of_recreated hrecreated hn).2
  have hfile {n : Text} {r : Row} (hr : db.lookup n = some r) :
      fileOf n r written ∈ showFiles (exported db written) := by
    have hn : n ∈ db := AList.lookup_isSome.mp (by rw [hr]; rfl)
    obtain ⟨⟨f, hf, hname⟩, -⟩ := oneLine_of_recreated hrecreated hn
    obtain ⟨r', hr', he⟩ := exported_of_name hnames hf
    rw [hname] at hr' he
    obtain rfl := Option.some.inj (hr.symm.trans hr')
    exact he ▸ hf
  constructor
  · intro n hn m hm hsame
    obtain ⟨r, hr⟩ := Option.isSome_iff_exists.mp (AList.lookup_isSome.mpr hn)
    obtain ⟨r', hr'⟩ := Option.isSome_iff_exists.mp (AList.lookup_isSome.mpr hm)
    have hfst := (mem_showFiles.mp (hfile hr)).1
    have hsnd := (mem_showFiles.mp (hfile hr')).1
    rw [fileOf, hsame] at hfst
    have htext := congrArg File.text (Option.some.inj (hfst.symm.trans hsnd))
    have hread : readName n [] = readName m [] := by
      rw [← parse_name n [] r, ← parse_name m [] r']
      exact congrArg (fun t => (parseFile (universal t) []).name) htext
    rwa [readName_of_oneLine (hnames n hn).1 (hnames n hn).2,
      readName_of_oneLine (hnames m hm).1 (hnames m hm).2] at hread
  · exact hnames
  · intro n r hr
    have hn : n ∈ db := AList.lookup_isSome.mp (by rw [hr]; rfl)
    have hname : (parsed (fileOf n r written)).name = n := by
      rw [parsed_fileOf_name, readName_of_oneLine (hnames n hn).1 (hnames n hn).2]
    have hrow := lookup_recreated now hnames (hfile hr)
    have hnorm := hrecreated n
    rw [hname] at hrow
    rw [hr, hrow, Option.map_some, Option.map_some] at hnorm
    obtain ⟨hdesc, hbody⟩ := Prod.mk.inj (Option.some.inj hnorm)
    exact of_parse_export (hnames n hn).1 (hnames n hn).2 hdesc.symm hbody.symm

section Exportable

variable (h : Exportable db)
include h

lemma Exportable.parsed_fileOf (hr : db.lookup n = some r) :
    parsed (fileOf n r written) = ⟨n, truthy r.description, nl r.body⟩ := by
  have hn : n ∈ db := AList.lookup_isSome.mp (by rw [hr]; rfl)
  obtain ⟨hdesc, hbody⟩ := h.rows n r hr
  exact parse_export (h.names n hn).1 (h.names n hn).2 hdesc hbody _

lemma Exportable.lookup_of_file (hf : f ∈ showFiles (exported db written)) :
    (db.lookup (parsed f).name).map norm = some ((parsed f).description.getD [], nl (parsed f).body) := by
  obtain ⟨n, r, hr, rfl⟩ := exists_of_exported hf
  rw [h.parsed_fileOf hr, hr, Option.map_some, norm, truthy_getD, nl_nl]

lemma Exportable.recreated : SameShows db (importDir ∅ (exported db written) now).db := by
  intro n
  cases hr : db.lookup n with
  | none =>
    have hother : ∀ p ∈ (showFiles (exported db written)).map parsed, p.name ≠ n := by
      rintro p hp rfl
      obtain ⟨f, hf, rfl⟩ := List.mem_map.mp hp
      have hfile := h.lookup_of_file hf
      rw [hr] at hfile
      cases hfile
    rw [importDir, import_lookup_of_ne hother]
    rfl
  | some r =>
    have hfile := fileOf_mem written h.files hr
    have hrow := lookup_recreated now h.names hfile
    rw [h.parsed_fileOf hr] at hrow
    rw [hrow, Option.map_some, Option.map_some, norm, norm]
    rw [Option.getD_some, truthy_getD, nl_nl]

lemma Exportable.back : SameShows db (importDir db (exported db written) now).db ∧
    (importDir db (exported db written) now).created = 0 := by
  apply import_same (i := { db }) fun n => rfl
  intro p hp
  obtain ⟨f, hf, rfl⟩ := List.mem_map.mp hp
  exact h.lookup_of_file hf

lemma Exportable.synced : ∀ s ∈ (fileStatus db (exported db written)).shows, s.2.2 = .inSync := by
  intro s hs
  obtain ⟨⟨n, r⟩, hnr, rfl⟩ := List.mem_map.mp hs
  have hr := mem_listed.mp hnr
  have hfile := fileOf_mem written h.files hr
  have hlookup := lookup_assignAll (k := fun f => (parsed f).name)
    (v := fun f => (f.1, (parsed f).body, f.2.mtime)) (m := ∅)
    (fun f hf g hg hname => congrArg (fun f => (f.1, (parsed f).body, f.2.mtime))
      (eq_of_parsed_name h.names hf hg hname)) hfile
  rw [h.parsed_fileOf hr] at hlookup
  dsimp only at hlookup ⊢
  rw [hlookup, stateOf, if_pos (nl_nl _).symm]

end Exportable

end Exporting

/-- A set of shows survives an export and an import, in every sense, if and only if it is one that can
be exported; and a second import of a directory updates nothing if and only if the directory's files
agree. -/
theorem survives_iff (db db' : Db) (written now first second : ℤ) (dir : Directory) :
    (Survives db written now ↔ Exportable db) ∧
      ((importDir (importDir db' dir first).db dir second).updated = 0 ↔ Agreeing dir) := by
  constructor
  · constructor
    · exact Survives.exportable
    · exact fun h => ⟨h.back.1, h.back.2, h.recreated, h.synced⟩
  · rw [importDir, importDir, import_twice_iff]
    constructor
    · intro h f hf g hg
      exact h _ (List.mem_map_of_mem hf) _ (List.mem_map_of_mem hg)
    · intro h p hp q hq
      obtain ⟨f, hf, rfl⟩ := List.mem_map.mp hp
      obtain ⟨g, hg, rfl⟩ := List.mem_map.mp hq
      exact h f hf g hg

def spaced : Db := AList.insert "front door".toList ⟨"scenes: []".toList, none, 0⟩
  (AList.singleton "front-door".toList ⟨"scenes: [a]".toList, some "the porch".toList, 0⟩)

theorem spaced_lost : ¬ ∀ (db db' : Db) (written now first second : ℤ) (dir : Directory),
    Survives db written now ∧ (importDir (importDir db' dir first).db dir second).updated = 0 := by
  intro h
  have hrecreated := (h spaced ∅ 0 0 0 0 ∅).1.recreated "front door".toList
  exact absurd hrecreated (by decide +kernel)

end Ledwall.Server.Shows
