import Mathlib.Data.List.Lex
import Mathlib.Data.Char
import Ledwall.Library.Listings
import Ledwall.Library.TextLines

/-! Shows exported to files and imported from them. -/

namespace Ledwall.Server.Shows

open Ledwall.Library.Listings Ledwall.Library.TextLines

/-- A row of the shows table but for its name, which is unique. -/
structure Row where
  body : Text
  description : Option Text
  updated : ℤ
  deriving DecidableEq

abbrev Db := AList fun _ : Text => Row

structure File where
  text : Text
  mtime : ℤ

abbrev Directory := AList fun _ : Text => File

/-- `[A-Za-z0-9._-]` -/
def safe (c : Char) : Bool := c.isAlphanum || c == '.' || c == '_' || c == '-'

def filename (name : Text) : Text :=
  (((name.map fun c => if safe c then c else '-').dropWhile (· == '-')).rdropWhile (· == '-')) ++
    ".yaml".toList

def nl (body : Text) : Text := if ['\n'] <:+ body then body else body ++ ['\n']

/-- A text that may be missing, where it is neither missing nor empty. -/
def truthy (d : Option Text) : Option Text := d.filter (· ≠ [])

def descriptionLine (description : Option Text) : Text :=
  match truthy description with
  | some d => "# description: ".toList ++ d ++ ['\n']
  | none => []

def exportText (name : Text) (r : Row) : Text :=
  "# name: ".toList ++ name ++ ['\n'] ++ descriptionLine r.description ++ nl r.body

/-- The directory and the names written, in the order they are written. -/
def exportDir (db : Db) (dir : Directory) (now : ℤ) : Directory × List Text :=
  (assignAll (fun s : Text × Row => filename s.1) (fun s => ⟨exportText s.1 s.2, now⟩) dir (listed db),
    (listed db).map fun s => filename s.1)

structure Parsed where
  name : Text
  description : Option Text
  body : Text
  deriving DecidableEq

/-- `line.split(":", 1)[1].strip()` -/
def headerValue (line : Text) : Text := strip ((line.dropWhile (· ≠ ':')).drop 1)

/-- The leading block of header lines, each kind's first one taken, and the lines behind it. -/
def parseLines (name desc : Option Text) : List Text → Option Text × Option Text × List Text
  | [] => (name, desc, [])
  | line :: lines =>
    if "# name:".toList <+: line then parseLines (name.or (some (headerValue line))) desc lines
    else if "# description:".toList <+: line then
      parseLines name (desc.or (some (headerValue line))) lines
    else (name, desc, line :: lines)

/-- `os.path.splitext(fn)[0]` -/
def splitextRoot (fn : Text) : Text :=
  match fn.reverse.dropWhile (· ≠ '.') with
  | [] => fn
  | _ :: root => if root.any (· ≠ '.') then root.reverse else fn

def parseFile (text fn : Text) : Parsed :=
  match parseLines none none (splitLines text) with
  | (name, desc, body) => ⟨(truthy name).getD (splitextRoot fn), desc, body.flatten⟩

/-- The show files of a directory, by their names, as they are read. -/
def showFiles (dir : Directory) : List (Text × File) :=
  (listed dir).filter fun f => ".yaml".toList <:+ f.1 ∨ ".yml".toList <:+ f.1

def parsed (f : Text × File) : Parsed := parseFile (universal f.2.text) f.1

inductive FileState
  | noFile
  | inSync
  | fileNewer
  | dbNewer
  deriving DecidableEq

structure Status where
  shows : List (Text × Option Text × FileState)
  orphans : List (Text × Text)

def stateOf (r : Row) : Option (Text × Text × ℤ) → FileState
  | none => .noFile
  | some (_, body, mtime) =>
    if nl r.body = nl body then .inSync else if r.updated < mtime then .fileNewer else .dbNewer

def fileStatus (db : Db) (dir : Directory) : Status :=
  let files : AList fun _ : Text => Text × Text × ℤ :=
    assignAll (fun f => (parsed f).name) (fun f => (f.1, (parsed f).body, f.2.mtime)) ∅ (showFiles dir)
  { shows := (listed db).map fun s =>
      (s.1, (files.lookup s.1).map Prod.fst, stateOf s.2 (files.lookup s.1))
    orphans := ((listed files).filter fun f => f.1 ∉ db).map fun f => (f.1, f.2.1) }

/-- An import so far. -/
structure Import where
  db : Db
  created : ℕ := 0
  updated : ℕ := 0

def importFile (now : ℤ) (i : Import) (p : Parsed) : Import :=
  match i.db.lookup p.name with
  | some r =>
    if r.body ≠ p.body ∨ (truthy p.description).isSome ∧ r.description ≠ p.description then
      { i with
        db := i.db.insert p.name ⟨p.body, (truthy p.description).or r.description, now⟩
        updated := i.updated + 1 }
    else i
  | none =>
    { i with
      db := i.db.insert p.name ⟨p.body, some (p.description.getD []), now⟩
      created := i.created + 1 }

def importDir (db : Db) (dir : Directory) (now : ℤ) : Import :=
  ((showFiles dir).map parsed).foldl (importFile now) { db }

end Ledwall.Server.Shows
