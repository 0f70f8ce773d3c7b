import Ledwall.Panels.PanelDocument

/-! The panel compiler: the code it generates for a document, and what that code draws. -/

namespace Ledwall.Panels

open Ledwall.Values

/-- An expression of a position. `size` is `tw`, or the icon's width. -/
inductive UExpr
  | lit (n : ℕ)
  | dim (axis : Axis)
  | size
  | saturatingSub (a b : UExpr)
  | add (a b : UExpr)
  | half (a : UExpr)
  | ifGt (a b yes no : UExpr)

def UExpr.eval (ctx : Ctx) (size : ℕ) : UExpr → ℕ
  | .lit n => n
  | .dim axis => ctx.dim axis
  | .size => size
  | .saturatingSub a b => a.eval ctx size - b.eval ctx size
  | .add a b => a.eval ctx size + b.eval ctx size
  | .half a => a.eval ctx size / 2
  | .ifGt a b yes no =>
    if b.eval ctx size < a.eval ctx size then yes.eval ctx size else no.eval ctx size

/-- `anchor`; it accepts no position off the canvas, and `end` only where there is a size. -/
def anchor (axis : Axis) (sized : Bool) : Position → Option UExpr
  | .absolute n => some (.lit n)
  | .anchored .left minus n | .anchored .top minus n => if minus then none else some (.lit n)
  | .anchored .right minus n | .anchored .bottom minus n =>
    if ¬ minus ∧ n ≠ 0 then none else some (.saturatingSub (.dim axis) (.lit n))
  | .anchored .end minus n =>
    if axis ≠ .x ∨ ¬ sized then none
    else if ¬ minus ∧ n ≠ 0 then none
    else some (.saturatingSub (.dim axis) (.add .size (.lit n)))
  | .anchored .center minus n =>
    let base : UExpr :=
      if axis = .x ∧ sized then
        .ifGt (.dim axis) .size (.half (.saturatingSub (.dim axis) .size)) (.lit 2)
      else .half (.dim axis)
    if n = 0 then some base
    else if minus then some (.saturatingSub base (.lit n))
    else some (.add base (.lit n))

/-- `cond_expr`'s reading of a condition: "==" anywhere goes before "!=". -/
def condExpr (cond : Str) : Option Guard :=
  match cutAt ('=', '=') cond with
  | some p => some (guardOf true p)
  | none => (cutAt ('!', '=') cond).map (guardOf false)

def identChar (c : Char) : Bool := c.isAlphanum || c = '_'

/-- `ident` -/
def ident (name : Str) : Str :=
  let out := name.map fun c => if identChar c then c else '_'
  if out.head?.all Char.isDigit then 'p' :: '_' :: out else out

/-- A comparison of the local `v_<id>` with a literal. -/
structure GuardCode where
  id : Str
  equal : Bool
  literal : Str

/-- What a label's row is built from. -/
inductive Source
  | literal (s : Str)
  | val (key : Str)
  | join3 (pre : Str) (own : Source) (suf : Str)

/-- A widget's share of the prologue and of the pixel loop. -/
inductive WidgetCode
  | border (index : ℕ)
  | run (font : Font) (oy ox : UExpr) (guard : Option GuardCode) (src : Source) (ramp : ℕ)
  | icon (sprite : Sprite) (iy ix : UExpr) (guard : Option GuardCode) (ramp : ℕ)

/-- A generated `render` function: the values it hoists, and its widgets. -/
structure ProgramCode where
  keys : List Str
  widgets : List WidgetCode

/-- A condition's guard, or none where there is no condition; nothing where it cannot be parsed. -/
def emitCond (cond : Option Str) : Option (Option Guard) :=
  if cond.getD [] = [] then some none else (condExpr (cond.getD [])).map some

def Guard.code (g : Guard) : GuardCode := ⟨ident g.key, g.equal, g.literal⟩

def Label.source (label : Label) (own : Source) : Source :=
  if label.pre ≠ [] ∨ label.suf ≠ [] then .join3 label.pre own label.suf else own

def Label.emit (assets : Assets) (label : Label) (own : Source) :
    Option (WidgetCode × Option Guard) := do
  let font ← assets.fonts label.font
  let ramp ← colorOf COLORS label.color "white"
  let guard ← emitCond label.cond
  let oy ← anchor .y false label.y
  let ox ← anchor .x true label.x
  return (.run font oy ox (guard.map Guard.code) (label.source own) ramp, guard)

/-- A widget's code and the guard whose key it reads. A border has no guard. -/
def Widget.emit (assets : Assets) : Widget → Option (WidgetCode × Option Guard)
  | .border color _ => (colorOf FLAT color "slate").map fun c => (.border c, none)
  | .text own label => label.emit assets (.literal own)
  | .value key label => label.emit assets (.val key)
  | .icon name x y color cond => do
    let ramp ← colorOf COLORS color "white"
    let guard ← emitCond cond
    let sprite ← assets.icons name
    let iy ← anchor .y false y
    let ix ← anchor .x true x
    return (.icon sprite iy ix (guard.map Guard.code) ramp, guard)

local instance : LawfulBEq Str := inferInstance

def addKey (keys : List Str) (guard : Option Guard) : List Str :=
  match guard with
  | some g => if g.key ∈ keys then keys else keys ++ [g.key]
  | none => keys

/-- `emit_program`: the keys are in the order of their first use. -/
def emitFrom (assets : Assets) (keys : List Str) : List Widget → Option ProgramCode
  | [] => some ⟨keys, []⟩
  | w :: ws => do
    let (code, guard) ← w.emit assets
    let rest ← emitFrom assets (addKey keys guard) ws
    return { rest with widgets := code :: rest.widgets }

def emitProgram (assets : Assets) (doc : List Widget) : Option ProgramCode :=
  emitFrom assets [] doc

section Semantics

variable (escape : Str → Str)

def plain (s : Str) : Bool := '"' ∉ s && '\\' ∉ s && '\r' ∉ s

/-- What the card's compiler reads between the quotes of a literal: `escape` is what it makes of one
with a quote, a backslash or a bare return in it. -/
def lexed (s : Str) : Str := if plain s then s else escape s

/-- The local of a hoisted value; of two with one name the later one. -/
def hoisted (ctx : Ctx) (keys : List Str) (id : Str) : Str :=
  ((keys.reverse.find? fun key => ident key = id).map fun key => ctx.val (lexed escape key)).getD []

def GuardCode.eval (ctx : Ctx) (keys : List Str) (g : GuardCode) : Bool :=
  (hoisted escape ctx keys g.id = lexed escape g.literal) = g.equal

def Source.eval (ctx : Ctx) : Source → Str
  | .literal s => lexed escape s
  | .val key => ctx.val (lexed escape key)
  | .join3 pre own suf => Panels.join3 (lexed escape pre) (own.eval ctx) (lexed escape suf)

/-- What the prologue binds for a widget in a row. -/
inductive Binding
  | border (index : ℕ)
  | run (gate : Bool) (s : Str) (o e oy : ℕ) (font : Font) (ramp : ℕ)
  | icon (gate : Bool) (ix iy : ℕ) (sprite : Sprite) (ramp : ℕ)

def WidgetCode.bind (ctx : Ctx) (keys : List Str) (y : ℕ) : WidgetCode → Binding
  | .border index => .border index
  | .run font oy ox guard src ramp =>
    let top := oy.eval ctx 0
    let gate := top ≤ y && y < top + font.lineHeight && guard.all fun g => g.eval escape ctx keys
    if gate then
      let s := src.eval escape ctx
      let tw := font.width s
      let o := ox.eval ctx tw
      .run true s o (o + tw + 4) top font ramp
    else .run false [] 0 0 top font ramp
  | .icon sprite iy ix guard ramp =>
    let top := iy.eval ctx 0
    .icon (top ≤ y && y < top + sprite.h && guard.all fun g => g.eval escape ctx keys)
      (ix.eval ctx sprite.w) top sprite ramp

/-- A widget's share of the row's early exit: its gate, where it has one. -/
def Binding.gate : Binding → Option Bool
  | .border _ => none
  | .run gate _ _ _ _ _ _ => some gate
  | .icon gate _ _ _ _ => some gate

def Binding.pixel (ctx : Ctx) (x y : ℕ) : Binding → Option ℕ
  | .border index =>
    if x = 0 ∨ y = 0 ∨ x = ctx.w - 1 ∨ y = ctx.h - 1 then some index else none
  | .run gate s o e oy font ramp =>
    if gate ∧ o ≤ x ∧ x < e then (font.coverAt s x y o oy).map (ramp + ·) else none
  | .icon gate ix iy sprite ramp =>
    if gate ∧ ix ≤ x ∧ x < ix + sprite.w then (sprite.coverAt x y ix iy).map (ramp + ·) else none

namespace ProgramCode

variable (code : ProgramCode) (ctx : Ctx)

def bindings (y : ℕ) : List Binding := code.widgets.map fun w => w.bind escape ctx code.keys y

/-- A row with no border that no widget's gate is open on is background at once. -/
def skips (y : ℕ) : Bool :=
  let gates := (code.bindings escape ctx y).map Binding.gate
  gates ≠ [] && gates.all fun gate => gate = some false

/-- `render_<program>`: the slice of row `y` from `x0`. -/
def render (y x0 length : ℕ) : List ℕ :=
  if code.skips escape ctx y then List.replicate length BG
  else (List.range length).map fun i =>
    ((code.bindings escape ctx y).findSome? (Binding.pixel ctx (x0 + i) y)).getD BG

end ProgramCode

end Semantics

end Ledwall.Panels
