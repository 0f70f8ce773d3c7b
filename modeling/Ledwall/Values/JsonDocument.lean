import Ledwall.Values.TableRuns

/-! JSON objects as text, without escape sequences: every blank kept where it stands. -/

namespace Ledwall.Values

open Ledwall.Wire

/-- The blanks of JSON: space, tab, line feed and carriage return. -/
def isBlank (b : Byte) : Bool := b == 0x20 || b == 0x09 || b == 0x0A || b == 0x0D

abbrev Blanks := {l : List Byte // ∀ b ∈ l, isBlank b = true}

/-- What stands between the quotes of a string in which nothing is escaped. -/
def IsQuoted (l : List Byte) : Prop :=
  validUtf8 l = true ∧ ∀ b ∈ l, 0x20 ≤ b ∧ b ≠ 0x22 ∧ b ≠ 0x5C

abbrev Quoted := {l : List Byte // IsQuoted l}

def IsDigits (l : List Byte) : Prop := l ≠ [] ∧ ∀ b ∈ l, isDigit b = true

/-- `-? (0 | [1-9][0-9]*) (. [0-9]+)? ([eE] [+-]? [0-9]+)?` -/
structure NumberToken where
  minus : Bool
  whole : List Byte
  fraction : Option (List Byte)
  power : Option (Bool × Option Bool × List Byte)
  whole_digits : IsDigits whole
  whole_lead : whole.head? = some 0x30 → whole = [0x30]
  fraction_digits : ∀ ds ∈ fraction, IsDigits ds
  power_digits : ∀ p ∈ power, IsDigits p.2.2

namespace NumberToken

def signText : Option Bool → List Byte
  | none => []
  | some true => [0x2D]
  | some false => [0x2B]

def render (n : NumberToken) : List Byte :=
  (if n.minus then [0x2D] else []) ++ n.whole ++
    (match n.fraction with
      | none => []
      | some ds => 0x2E :: ds) ++
    match n.power with
    | none => []
    | some (capital, sign, ds) => (if capital then 0x45 else 0x65) :: signText sign ++ ds

end NumberToken

/-- A number or a literal. -/
inductive BareToken
  | number (n : NumberToken)
  | trueLit
  | falseLit
  | nullLit

def BareToken.render : BareToken → List Byte
  | number n => n.render
  | trueLit => ascii "true"
  | falseLit => ascii "false"
  | nullLit => ascii "null"

mutual

/-- A value, and the blanks inside it. -/
inductive Json
  | string (s : Quoted)
  | bare (t : BareToken)
  | object (inside : Blanks) (members : Members)
  | array (inside : Blanks) (elements : Elements)

/-- The members of an object, each with the blanks ahead of its key, on both sides of its colon and
behind its value. -/
inductive Members
  | nil
  | cons (ahead : Blanks) (key : Quoted) (before after : Blanks) (value : Json) (behind : Blanks)
      (rest : Members)

inductive Elements
  | nil
  | cons (ahead : Blanks) (value : Json) (behind : Blanks) (rest : Elements)

end

mutual

def Json.render : Json → List Byte
  | .string s => 0x22 :: (s.1 ++ [0x22])
  | .bare t => t.render
  | .object inside members => 0x7B :: (inside.1 ++ members.render.tail ++ [0x7D])
  | .array inside elements => 0x5B :: (inside.1 ++ elements.render.tail ++ [0x5D])

/-- Each behind a comma. -/
def Members.render : Members → List Byte
  | .nil => []
  | .cons ahead key before after value behind rest =>
    0x2C :: (ahead.1 ++ 0x22 :: (key.1 ++ 0x22 :: (before.1 ++ 0x3A :: (after.1 ++ (value.render ++
      (behind.1 ++ rest.render))))))

def Elements.render : Elements → List Byte
  | .nil => []
  | .cons ahead value behind rest =>
    0x2C :: (ahead.1 ++ (value.render ++ (behind.1 ++ rest.render)))

end

/-- A request's body: one object, and blanks around it. -/
structure Document where
  leading : Blanks
  inside : Blanks
  members : Members
  trailing : Blanks

def Document.render (d : Document) : List Byte :=
  d.leading.1 ++ (Json.object d.inside d.members).render ++ d.trailing.1

/-- What a member stores: how many bytes follow its key's opening quote, its key and its value. -/
structure Stored where
  left : ℕ
  key : Text
  val : Text

namespace Scan

/-- The stores of `n` turns of the loop, each with where it stands. -/
def stores : ℕ → ℤ → List Byte → List Stored
  | 0, _, _ => []
  | _ + 1, _, [] => []
  | n + 1, depth, b :: rest =>
    if b = 0x7B then stores n (depth + 1) rest
    else if b = 0x7D then stores n (depth - 1) rest
    else if b = 0x22 ∧ depth = 1 then
      match readPair rest with
      | some (key, val, after) => ⟨rest.length, key, val⟩ :: stores n depth after
      | none => []
    else stores n depth rest

end Scan

/-- The string, number or literal of a value. -/
def Json.scalar : Json → Option (List Byte)
  | .string s => some s.1
  | .bare t => some t.render
  | _ => none

/-- The members with a scalar value, in order, `left` bytes ahead of the end. -/
def Members.scalars (left : ℕ) : Members → List Stored
  | .nil => []
  | .cons _ key before after value behind rest =>
    let site := (key.1 ++ 0x22 :: (before.1 ++ 0x3A :: (after.1 ++ (value.render ++
      (behind.1 ++ rest.render))))).length + left
    match value.scalar with
    | some v => ⟨site, .of key.1, .of v⟩ :: rest.scalars left
    | none => rest.scalars left

def Document.scalars (d : Document) : List Stored := d.members.scalars (d.trailing.1.length + 1)

/-- The scanner stores every member whose value is a string, number or literal, in order, under its
own key, and nothing else; the table is what these stores make of it. -/
def StoresScalars (d : Document) : Prop :=
  Scan.stores d.render.length 0 d.render = d.scalars ∧
    ∀ (req : HttpRequest) (t : ValueTable) (now : ℤ), req.bodyStr = d.render →
      (apiValuesSet req t now).1 = d.scalars.foldl (fun t s => t.set s.key s.val now) t

/-- Only spaces. -/
def Spaces (l : Blanks) : Prop := ∀ b ∈ l.1, b = 0x20

/-- No member is nested, and nothing but spaces stands between a key and its string or between a key
and the colon ahead of its number or literal. -/
def Members.Readable : Members → Prop
  | .nil => True
  | .cons _ _ before after value _ rest =>
    (match value with
      | .string _ => Spaces before ∧ Spaces after
      | .bare _ => Spaces before
      | _ => False) ∧ rest.Readable

end Ledwall.Values
