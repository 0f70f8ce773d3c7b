import Ledwall.Library.Floats
import Ledwall.Library.TextLines

/-! The boxes of a show's layers, resolved against a wall, and what a show is checked for. -/

namespace Ledwall.Server.Scenes

open Ledwall.Library.Floats Ledwall.Library.Rounding Ledwall.Library.TextLines

abbrev Double := Number binary64

/-- A box edge: pixels, a fraction of the wall, or either as a text. -/
inductive Dim
  | int (v : ℤ)
  | float (v : Double)
  | text (t : Text)

/-- A box as it is written, or with `ℤ` for its edges as it is resolved. -/
structure Box (α : Type) where
  x : α
  y : α
  w : α
  h : α
  deriving DecidableEq

/-- The size may be left to the wall. -/
structure Display where
  width : Option ℕ := none
  height : Option ℕ := none
  width_mem : ∀ n ∈ width, 8 ≤ n ∧ n ≤ 4096 := by simp
  height_mem : ∀ n ∈ height, 8 ≤ n ∧ n ≤ 4096 := by simp

structure Scene where
  name : Text
  layers : List (Box Dim)

structure Show where
  display : Display := {}
  scenes : List Scene

inductive CheckError
  | noScenes
  | duplicateScene (name : Text)
  | unresolved
  | emptyBox (name : Text) (layer : ℕ)
  | startsOutside (name : Text) (layer width height : ℕ)
  deriving DecidableEq

/-- `repr` is the name as a literal, `cause` the text of what resolving raised. -/
def CheckError.text (repr : Text → Text) (cause : Text) : CheckError → Text
  | .noScenes => "a show needs at least one scene".toList
  | .duplicateScene name => "duplicate scene name ".toList ++ repr name
  | .unresolved => cause
  | .emptyBox name i =>
    "scene ".toList ++ repr name ++ " layer ".toList ++ (toString i).toList ++ " has empty box".toList
  | .startsOutside name i w h =>
    "scene ".toList ++ repr name ++ " layer ".toList ++ (toString i).toList ++
      " box starts outside the ".toList ++ (toString w).toList ++ ['x'] ++ (toString h).toList ++
      " display".toList

section Checking

-- `float` of a text, `none` where it raises
variable (float : Text → Option Double)

/-- `_dim` -/
def Dim.resolve (v : Dim) (span : ℕ) : Option ℤ :=
  match v with
  | .int v => some v
  | .float v => (v.times span).round
  | .text t =>
    let t := strip t
    if t.getLast? = some '%' then (float t.dropLast).bind fun p => ((p.div 100).times span).round
    else (float t).bind Number.round

def Box.resolve (b : Box Dim) (width height : ℕ) : Option (Box ℤ) :=
  match b.x.resolve float width, b.y.resolve float height, b.w.resolve float width,
    b.h.resolve float height with
  | some x, some y, some w, some h => some ⟨x, y, w, h⟩
  | _, _, _, _ => none

/-- The size a show is probed at. -/
def Display.probed (d : Display) : ℕ × ℕ := (d.width.getD 1000, d.height.getD 1000)

def Display.startsOutside (d : Display) (probe : Box ℤ) : Option (ℕ × ℕ) :=
  match d.width, d.height with
  | some w, some h => if probe.x ≥ w ∨ probe.y ≥ h then some (w, h) else none
  | _, _ => none

def checkLayers (d : Display) (name : Text) : ℕ → List (Box Dim) → Except CheckError Unit
  | _, [] => .ok ()
  | i, l :: layers =>
    match l.resolve float d.probed.1 d.probed.2 with
    | none => .error .unresolved
    | some probe =>
      if probe.w ≤ 0 ∨ probe.h ≤ 0 then .error (.emptyBox name i)
      else
        match d.startsOutside probe with
        | some (w, h) => .error (.startsOutside name i w h)
        | none => checkLayers d name (i + 1) layers

local instance : LawfulBEq Text := inferInstance

def checkScenes (d : Display) : List Text → List Scene → Except CheckError Unit
  | _, [] => .ok ()
  | seen, s :: scenes =>
    if s.name ∈ seen then .error (.duplicateScene s.name)
    else
      match checkLayers float d s.name 0 s.layers with
      | .error e => .error e
      | .ok () => checkScenes d (s.name :: seen) scenes

/-- `_check` -/
def Show.check (s : Show) : Except CheckError Unit :=
  if s.scenes = [] then .error .noScenes else checkScenes float s.display [] s.scenes

end Checking

/-- The number that an edge takes of the wall. -/
def Dim.fraction (float : Text → Option Double) : Dim → Option Double
  | .int _ => none
  | .float v => some v
  | .text t =>
    let t := strip t
    if t.getLast? = some '%' then (float t.dropLast).map fun p => p.div 100 else none

variable (float : Text → Option Double)

/-- The box has a size on a wall this large, and begins inside it where its position is a
fraction. -/
def DrawnOn (b : Box Dim) (width height : ℕ) : Prop :=
  ∃ box, b.resolve float width height = some box ∧ 0 < box.w ∧ 0 < box.h ∧
    ((b.x.fraction float).isSome → (b.y.fraction float).isSome →
      (0 ≤ box.x ∧ box.x < width) ∧ 0 ≤ box.y ∧ box.y < height)

end Ledwall.Server.Scenes
