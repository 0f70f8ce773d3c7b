import Mathlib.Data.List.DropRight
import Ledwall.Panels.Sprites

/-! Panel documents: their widgets, and what a document means at a pixel. -/

namespace Ledwall.Panels

open Ledwall.Values

/-- What a program is shown: the canvas and the values. -/
structure Ctx where
  w : ℕ
  h : ℕ
  val : Str → Str

inductive Axis
  | x
  | y
  deriving DecidableEq

def Ctx.dim (ctx : Ctx) : Axis → ℕ
  | .x => ctx.w
  | .y => ctx.h

inductive Side
  | center
  | right
  | «end»
  | bottom
  | left
  | top
  deriving DecidableEq

/-- A position: a number, or a word of `_ANCHOR` and what is added to it or taken away. -/
inductive Position
  | absolute (n : ℕ)
  | anchored (side : Side) (minus : Bool) (n : ℕ)
  deriving DecidableEq

/-- Where a position is on a canvas, for a thing of that size. -/
def Position.place (dim : ℕ) (size : Option ℕ) : Position → ℕ
  | .absolute n | .anchored .left _ n | .anchored .top _ n => n
  | .anchored .right _ n | .anchored .bottom _ n => dim - n
  | .anchored .end _ n => dim - (size.getD 0 + n)
  | .anchored .center minus n =>
    let base := match size with
      | some size => if size < dim then (dim - size) / 2 else 2
      | none => dim / 2
    if minus then base - n else base + n

/-- The words between which a guard compares. -/
structure Guard where
  key : Str
  equal : Bool
  literal : Str
  deriving DecidableEq

/-- `str.isspace` -/
def isSpace (c : Char) : Bool :=
  c.toNat ∈ [0x09, 0x0A, 0x0B, 0x0C, 0x0D, 0x1C, 0x1D, 0x1E, 0x1F, 0x20, 0x85, 0xA0, 0x1680, 0x2000,
    0x2001, 0x2002, 0x2003, 0x2004, 0x2005, 0x2006, 0x2007, 0x2008, 0x2009, 0x200A, 0x2028, 0x2029,
    0x202F, 0x205F, 0x3000]

def stripped (p : Char → Bool) (s : Str) : Str := (s.dropWhile p).rdropWhile p

/-- What stands before the first occurrence of an operator, and behind it. -/
def cutAt (op : Char × Char) : Str → Option (Str × Str)
  | [] => none
  | [_] => none
  | c :: d :: s => if (c, d) = op then some ([], s) else (cutAt op (d :: s)).map fun p => (c :: p.1, p.2)

def guardOf (equal : Bool) (p : Str × Str) : Guard :=
  ⟨stripped isSpace p.1, equal, stripped (· = '\'') (stripped isSpace p.2)⟩

/-- The guard that a condition states: its operator is the one that comes first. -/
def readGuard (cond : Str) : Option Guard :=
  match cutAt ('=', '=') cond, cutAt ('!', '=') cond with
  | some p, some q => some (if p.1.length < q.1.length then guardOf true p else guardOf false q)
  | some p, none => some (guardOf true p)
  | none, some q => some (guardOf false q)
  | none, none => none

def Guard.holds (ctx : Ctx) (g : Guard) : Bool := (ctx.val g.key = g.literal) = g.equal

/-- The fields of a `text` or `value` widget beside what it shows. -/
structure Label where
  x : Position
  y : Position
  font : Str
  color : Option Str
  cond : Option Str
  pre : Str
  suf : Str

inductive Widget
  | border (color cond : Option Str)
  | text (value : Str) (label : Label)
  | value (key : Str) (label : Label)
  | icon (name : Str) (x y : Position) (color cond : Option Str)

/-- The faces and icons of a program, by the names it gives them. -/
structure Assets where
  fonts : Str → Option Font
  icons : Str → Option Sprite

def BG : ℕ := 0

/-- The entries of the palette that a colour of `COLORS` starts at. -/
def COLORS : List (Str × ℕ) :=
  [("bg".toList, BG), ("slate".toList, 48), ("brass".toList, 32), ("white".toList, 16),
    ("water".toList, 192), ("alert".toList, 3)]

def FLAT : List (Str × ℕ) :=
  [("slate".toList, 1), ("brass".toList, 2), ("alert".toList, 3), ("bg".toList, BG)]

def colorOf (table : List (Str × ℕ)) (color : Option Str) (default : String) : Option ℕ :=
  (table.find? fun e => e.1 = color.getD default.toList).map Prod.snd

/-- The text of exactly `n` bytes that a text begins with, or all of a shorter one. -/
def takeBytes : ℕ → Str → Option Str
  | _, [] => some []
  | n, c :: s =>
    if n = 0 then some []
    else if c.utf8Size ≤ n then (takeBytes (n - c.utf8Size) s).map (c :: ·)
    else none

/-- Into a buffer of 48 bytes; nothing, where that cuts a character. -/
def join3 (a b c : Str) : Str := (takeBytes 48 (a ++ b ++ c)).getD []

namespace Label

variable (label : Label)

/-- The run a label shows around its own text. -/
def shows (own : Str) : Str :=
  if label.pre ≠ [] ∨ label.suf ≠ [] then join3 label.pre own label.suf else own

/-- What the run inks at a pixel. -/
def ink (font : Font) (ctx : Ctx) (s : Str) (x y : ℕ) : Option ℕ :=
  font.ink s ((x : ℤ) - label.x.place ctx.w (some (font.width s)))
    ((y : ℤ) - label.y.place ctx.h none)

end Label

/-- A condition that is not there, or empty, is true. -/
def condHolds (ctx : Ctx) (cond : Option Str) : Bool :=
  cond.getD [] = [] || (readGuard (cond.getD [])).any fun g => g.holds ctx

namespace Widget

variable (assets : Assets) (ctx : Ctx)

def cond : Widget → Option Str
  | .border _ cond | .icon _ _ _ _ cond => cond
  | .text _ label | .value _ label => label.cond

/-- What a widget's glyph, icon or line covers a pixel with, whatever its guard. -/
def covers (x y : ℕ) : Widget → Option ℕ
  | .border color _ =>
    if x = 0 ∨ y = 0 ∨ x = ctx.w - 1 ∨ y = ctx.h - 1 then colorOf FLAT color "slate" else none
  | .text own label => do
    let font ← assets.fonts label.font
    let ramp ← colorOf COLORS label.color "white"
    (label.ink font ctx (label.shows own) x y).map (ramp + ·)
  | .value key label => do
    let font ← assets.fonts label.font
    let ramp ← colorOf COLORS label.color "white"
    (label.ink font ctx (label.shows (ctx.val key)) x y).map (ramp + ·)
  | .icon name px py color _ => do
    let sprite ← assets.icons name
    let ramp ← colorOf COLORS color "white"
    (sprite.ink ((x : ℤ) - px.place ctx.w (some sprite.w)) ((y : ℤ) - py.place ctx.h none)).map
      (ramp + ·)

def shown (x y : ℕ) (w : Widget) : Option ℕ :=
  if condHolds ctx w.cond then w.covers assets ctx x y else none

end Widget

/-- The first widget that covers the pixel, or the background. -/
def meaning (assets : Assets) (doc : List Widget) (ctx : Ctx) (x y : ℕ) : ℕ :=
  (doc.findSome? (Widget.shown assets ctx x y)).getD BG

end Ledwall.Panels
