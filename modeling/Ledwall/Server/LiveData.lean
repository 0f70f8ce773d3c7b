import Mathlib.Data.List.SplitOn
import Ledwall.Panels.PanelDocument
import Ledwall.Server.Renderer

/-! The live cache: what a `topic|dotted.path` address reads from it. -/

namespace Ledwall.Server.Live

open Ledwall.Panels (isSpace stripped)
open Ledwall.Server.Rendering (Text)

/-- A float of a payload: the host's parser reads `NaN` and the two infinities as well. -/
inductive Floating
  | finite (q : ℚ)
  | nan
  | infinite (negative : Bool)

/-- A payload, as the host's JSON parser leaves it. -/
inductive Json
  | null
  | bool (b : Bool)
  | int (n : ℤ)
  | float (x : Floating)
  | str (s : Text)
  | list (elements : List Json)
  | dict (members : List (Text × Json))

/-- The exceptions that reading a payload and drawing it can raise. -/
inductive Raised
  | value
  | index
  | key
  | type
  | attribute
  | zeroDivision
  deriving DecidableEq

/-- The host's character tables: `str.isdigit`, and the digit a character is to `int`. The first holds
of characters that are no digit to the second. -/
structure Digits where
  isDigit : Char → Bool
  decimal : Char → Option ℕ

/-- `LiveState.get` -/
abbrev LiveState := Text → Option Json

/-- What `int` refuses to read more of. -/
def maxStrDigits : ℕ := 4300

def stripMinus : Text → Bool × Text
  | '-' :: rest => (true, rest)
  | part => (false, part)

section Segments

variable (digits : Digits)

/-- `part.lstrip("-").isdigit()` -/
def isNumeric (part : Text) : Bool :=
  let body := part.dropWhile (· = '-')
  body ≠ [] && body.all digits.isDigit

/-- `int(part)`, of a text that `isNumeric` passes: at most one sign, and digits it can read. -/
def int (part : Text) : Except Raised ℤ :=
  match (stripMinus part).2.mapM digits.decimal with
  | none => .error .value
  | some ds =>
    if ds.length ≤ maxStrDigits then
      let n : ℤ := ds.foldl (fun n d => 10 * n + d) 0
      .ok (if (stripMinus part).1 then -n else n)
    else .error .value

end Segments

/-- The position an index stands for, counted from the end when it is negative. -/
def position (length : ℕ) (i : ℤ) : ℤ := if i < 0 then i + length else i

/-- `xs[i]` -/
def pick {α : Type} (xs : List α) (i : ℤ) : Option α :=
  if position xs.length i < 0 then none else xs[(position xs.length i).toNat]?

/-- `doc[i]` -/
def item (doc : Json) (i : ℤ) : Except Raised Json :=
  match doc with
  | .list elements => (pick elements i).elim (.error .index) .ok
  | .str s => (pick s i).elim (.error .index) fun c => .ok (.str [c])
  | .dict _ => .error .key
  | _ => .error .type

/-- `doc.get(part)` -/
def get (doc : Json) (part : Text) : Except Raised Json :=
  match doc with
  | .dict members => .ok ((members.lookup part).getD .null)
  | _ => .error .attribute

/-- `[p for p in path.split(".") if p]` -/
def segments (path : Text) : List Text := (path.splitOn '.').filter (· ≠ [])

/-- `arg.partition("|")`, without the bar: the topic and the path, stripped. -/
def address (arg : Text) : Text × Text :=
  (stripped isSpace (arg.takeWhile (· ≠ '|')), stripped isSpace ((arg.dropWhile (· ≠ '|')).drop 1))

section Reading

variable (digits : Digits)

/-- `doc[int(part)] if part.lstrip("-").isdigit() else doc.get(part)` -/
def step (doc : Json) (part : Text) : Except Raised Json :=
  if isNumeric digits part then (int digits part).bind (item doc) else get doc part

/-- `dig`, of the segments of its path. -/
def dig : List Text → Json → Except Raised Json
  | [], doc => .ok doc
  | part :: parts, doc =>
    match doc with
    | .null => .ok .null
    | doc => (step digits doc part).bind (dig parts)

/-- `data_series`, which is `bus_series` -/
def dataSeries (live : Option LiveState) (arg : Text) : Except Raised (List Json) :=
  match live with
  | none => .ok []
  | some live =>
    match live (address arg).1 with
    | none | some .null => .ok []
    | some doc => do
      let val ← if (address arg).2 ≠ [] then dig digits (segments (address arg).2) doc else .ok doc
      match val with
      | .list elements => .ok elements
      | _ => .ok []

end Reading

section Meaning

variable (digits : Digits)

/-- The index a segment is: a numeric one, and one that `int` can read. -/
def index (part : Text) : Option ℤ := if isNumeric digits part then (int digits part).toOption else none

/-- What a segment names in a document, `null` when there is nothing: an index an element, anything
else a member. -/
def look (doc : Json) (part : Text) : Json :=
  match doc with
  | .list elements => ((index digits part).bind (pick elements)).getD .null
  | .str s => ((index digits part).bind (pick s)).elim .null fun c => .str [c]
  | .dict members => (members.lookup part).getD .null
  | _ => .null

/-- What a path names. -/
def found (doc : Json) (parts : List Text) : Json := parts.foldl (look digits) doc

def elementsOf : Json → List Json
  | .list elements => elements
  | _ => []

/-- The list that an address names, the empty one when it names something else or nothing. -/
def seriesAt (live : Option LiveState) (arg : Text) : List Json :=
  elementsOf (found digits ((live.bind fun live => live (address arg).1).getD .null)
    (segments (address arg).2))

/-- A segment that the walker can take at a document: an index inside a list or a text, a name at a
dict, anything at `null`. -/
def Fits (doc : Json) (part : Text) : Prop :=
  match doc with
  | .null => True
  | .list elements => ∃ i, index digits part = some i ∧ (pick elements i).isSome
  | .str s => ∃ i, index digits part = some i ∧ (pick s i).isSome
  | .dict _ => ¬ isNumeric digits part
  | _ => False

/-- Each segment fits what the ones before it name. -/
def Walks : Json → List Text → Prop
  | _, [] => True
  | doc, part :: parts => Fits digits doc part ∧ Walks (look digits doc part) parts

/-- The address is one the walker can take in that cache. -/
def AddressWalks (live : Option LiveState) (arg : Text) : Prop :=
  Walks digits ((live.bind fun live => live (address arg).1).getD .null) (segments (address arg).2)

end Meaning

section Walking

variable {digits : Digits} {doc : Json} {part : Text} {parts : List Text} {i : ℤ}

@[simp] lemma found_null : found digits .null parts = .null := by
  induction parts with
  | nil => rfl
  | cons part parts ih => exact ih

@[simp] lemma walks_null : Walks digits .null parts := by
  induction parts with
  | nil => trivial
  | cons part parts ih => exact ⟨trivial, ih⟩

@[simp] lemma found_nil : found digits doc [] = doc := rfl

@[simp] lemma found_cons : found digits doc (part :: parts) = found digits (look digits doc part) parts :=
  rfl

lemma index_of_int (hn : isNumeric digits part) (hi : int digits part = .ok i) :
    index digits part = some i := by
  simp [index, hn, hi, Except.toOption]

lemma index_of_error {e : Raised} (hi : int digits part = .error e) : index digits part = none := by
  simp [index, hi, Except.toOption]

lemma dig_cons (hdoc : doc ≠ .null) :
    dig digits (part :: parts) doc = (step digits doc part).bind (dig digits parts) := by
  cases doc with
  | null => exact absurd rfl hdoc
  | bool | int | float | str | list | dict => rfl

lemma step_spec (hdoc : doc ≠ .null) (part : Text) :
    (Fits digits doc part ∧ step digits doc part = .ok (look digits doc part)) ∨
      (¬ Fits digits doc part ∧ ∃ e, step digits doc part = .error e) := by
  by_cases hn : isNumeric digits part
  · cases hi : int digits part with
    | error e =>
      right
      have hnone : index digits part = none := index_of_error hi
      refine ⟨?_, e, by simp [step, hn, hi, Except.bind]⟩
      cases doc <;> simp_all [Fits]
    | ok i =>
      have hsome : index digits part = some i := index_of_int hn hi
      have hstep : step digits doc part = item doc i := by simp [step, hn, hi, Except.bind]
      rw [hstep]
      cases doc with
      | null => exact absurd rfl hdoc
      | bool | int | float => exact .inr ⟨id, _, rfl⟩
      | dict members => exact .inr ⟨fun h => h hn, _, rfl⟩
      | list elements =>
        cases hp : pick elements i with
        | none => exact .inr ⟨by simp [Fits, hsome, hp], .index, by simp [item, hp]⟩
        | some v => exact .inl ⟨by simp [Fits, hsome, hp], by simp [item, look, hsome, hp]⟩
      | str s =>
        cases hp : pick s i with
        | none => exact .inr ⟨by simp [Fits, hsome, hp], .index, by simp [item, hp]⟩
        | some c => exact .inl ⟨by simp [Fits, hsome, hp], by simp [item, look, hsome, hp]⟩
  · have hnone : index digits part = none := by simp [index, hn]
    have hstep : step digits doc part = get doc part := by simp [step, hn]
    rw [hstep]
    cases doc with
    | null => exact absurd rfl hdoc
    | dict members => exact .inl ⟨hn, rfl⟩
    | bool | int | float => exact .inr ⟨id, _, rfl⟩
    | list | str => exact .inr ⟨by simp [Fits, hnone], _, rfl⟩

/-- The walker finds what the path names, or it raises. -/
theorem dig_spec (digits : Digits) (parts : List Text) : ∀ doc : Json,
    (Walks digits doc parts ∧ dig digits parts doc = .ok (found digits doc parts)) ∨
      (¬ Walks digits doc parts ∧ ∃ e, dig digits parts doc = .error e) := by
  induction parts with
  | nil =>
    intro doc
    exact .inl ⟨trivial, by simp [dig]⟩
  | cons part parts ih =>
    intro doc
    by_cases hdoc : doc = .null
    · subst hdoc
      exact .inl ⟨walks_null, by simp [dig, look]⟩
    · rw [dig_cons hdoc]
      rcases step_spec hdoc part with ⟨hfits, hstep⟩ | ⟨hfits, e, hstep⟩
      · rw [hstep]
        rcases ih (look digits doc part) with ⟨hw, hd⟩ | ⟨hw, hd⟩
        · exact .inl ⟨⟨hfits, hw⟩, hd⟩
        · exact .inr ⟨fun h => hw h.2, hd⟩
      · rw [hstep]
        exact .inr ⟨fun h => hfits h.1, e, rfl⟩

theorem dig_returns_iff : (∃ v, dig digits parts doc = .ok v) ↔ Walks digits doc parts := by
  rcases dig_spec digits parts doc with ⟨hw, hd⟩ | ⟨hw, e, hd⟩
  · exact ⟨fun _ => hw, fun _ => ⟨_, hd⟩⟩
  · refine ⟨?_, fun h => absurd h hw⟩
    rintro ⟨v, hv⟩
    rw [hd] at hv
    cases hv

theorem dig_eq_found {v : Json} (h : dig digits parts doc = .ok v) : v = found digits doc parts := by
  rcases dig_spec digits parts doc with ⟨-, hd⟩ | ⟨-, e, hd⟩
  · rw [hd] at h
    exact (Except.ok.inj h).symm
  · rw [hd] at h
    cases h

lemma segments_nil : segments [] = [] := by
  simp [segments]

lemma elements_of_match (v : Json) :
    (match v with
      | .list elements => (.ok elements : Except Raised (List Json))
      | _ => .ok []) = .ok (elementsOf v) := by
  cases v <;> rfl

/-- An address reads the list it names, or reading it raises. -/
theorem dataSeries_spec (digits : Digits) (live : Option LiveState) (arg : Text) :
    (AddressWalks digits live arg ∧ dataSeries digits live arg = .ok (seriesAt digits live arg)) ∨
      (¬ AddressWalks digits live arg ∧ ∃ e, dataSeries digits live arg = .error e) := by
  cases live with
  | none => exact .inl ⟨walks_null, by simp [dataSeries, seriesAt, elementsOf]⟩
  | some live =>
    cases hdoc : live (address arg).1 with
    | none =>
      have hnull : ((some live).bind fun live => live (address arg).1).getD .null = .null := by
        simp [hdoc]
      left
      rw [AddressWalks, seriesAt, hnull]
      exact ⟨walks_null, by simp [dataSeries, hdoc, elementsOf]⟩
    | some doc =>
      have hroot : ((some live).bind fun live => live (address arg).1).getD .null = doc := by
        simp [hdoc]
      rw [AddressWalks, seriesAt, hroot]
      by_cases hnull : doc = .null
      · subst hnull
        exact .inl ⟨walks_null, by simp [dataSeries, hdoc, elementsOf]⟩
      · have hread : dataSeries digits (some live) arg =
            (dig digits (segments (address arg).2) doc).bind fun v => .ok (elementsOf v) := by
          simp only [dataSeries, hdoc]
          by_cases hp : (address arg).2 = []
          · rw [hp, segments_nil]
            cases doc with
            | null => exact absurd rfl hnull
            | bool | int | float | str | list | dict => rfl
          · cases doc with
            | null => exact absurd rfl hnull
            | bool | int | float | str | list | dict =>
              rw [if_pos hp]
              exact bind_congr fun v => elements_of_match v
        rw [hread]
        rcases dig_spec digits (segments (address arg).2) doc with
          ⟨hw, hd⟩ | ⟨hw, e, hd⟩
        · exact .inl ⟨hw, by rw [hd]; rfl⟩
        · exact .inr ⟨hw, e, by rw [hd]; rfl⟩

theorem dataSeries_eq_iff {digits : Digits} {live : Option LiveState} {arg : Text} :
    dataSeries digits live arg = .ok (seriesAt digits live arg) ↔ AddressWalks digits live arg := by
  rcases dataSeries_spec digits live arg with ⟨hw, hd⟩ | ⟨hw, e, hd⟩
  · exact ⟨fun _ => hw, fun _ => hd⟩
  · refine ⟨fun h => ?_, fun h => absurd h hw⟩
    rw [hd] at h
    cases h

end Walking

end Ledwall.Server.Live
