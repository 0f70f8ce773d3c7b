import Ledwall.Server.Sender

/-! A wall's render loop beside its sender: the rows it reads, the links it keeps, and the queue
between the two threads. -/

namespace Ledwall.Server

open Ledwall.Wire

structure CardRow where
  id : ℕ
  host : String
  port : ℕ
  x : ℤ
  y : ℤ
  width : ℕ
  height : ℕ
  packetDelay : ℚ
  enabled : Bool
  mode : Option String
  deriving DecidableEq

def CardRow.box (c : CardRow) : Box := ⟨c.x, c.y, c.x + c.width, c.y + c.height⟩

/-- What one iteration reads. `want` is the show resolved for the moment, `doc` its body; a card's
`id` is the primary key of its table. -/
structure Rows where
  enabled : Bool
  want : Option ℕ
  doc : Option String
  cards : List CardRow
  keys : (cards.map CardRow.id).Nodup

/-- `_CardLink(card)` -/
def CardLink.new (c : CardRow) : CardLink where
  id := c.id
  host := c.host
  port := c.port
  box := c.box
  w := c.width
  h := c.height
  packetDelay := c.packetDelay
  stream := ⟨0, 0, 0, 1⟩

def CardLink.matches (link : CardLink) (c : CardRow) : Bool :=
  link.host = c.host && link.box = c.box && (link.w, link.h) = (c.width, c.height) &&
    link.packetDelay = c.packetDelay

/-- A show, and the signature of its body; a digest is taken to tell bodies apart. -/
abbrev ShowKey := Option ℕ × Option String

namespace Rows

variable (r : Rows)

/-- `_streamable_cards` -/
def streamable : List CardRow :=
  r.cards.filter fun c => c.enabled && c.mode.getD "stream" != "program"

def key : ShowKey := (r.want, some (r.doc.getD ""))

end Rows

/-- A composed frame: the show it was composed from, its canvas by the box cropped, and the crops for
the links of the cards. -/
structure Item where
  «show» : ShowKey
  canvas : Box → Crop
  payloads : List Payload

/-- Where an iteration stands. -/
inductive Render
  | top
  | comparing (r : Rows)
  | draining (r : Rows)
  | checking (r : Rows)
  | closing (r : Rows)
  | linking (r : Rows) (todo : List CardRow)
  | composing (r : Rows)
  | putting (item : Item)

def QUEUE : ℕ := 40

/-- `table` is the dict of links by card. -/
structure WallPlayer where
  render : Render := .top
  cur : ShowKey := (none, none)
  renderer : Option ShowKey := none
  table : List (ℕ × ℕ) := []
  links : List CardLink := []
  queue : List Item := []
  down : String → Bool := fun _ => false
  phase : Phase := .waiting
  hand : Option Item := none

namespace WallPlayer

variable (w : WallPlayer)

def lookup (id : ℕ) : Option ℕ := (w.table.find? fun e => e.1 = id).map Prod.snd

/-- `links.pop(id).close()` -/
def retire (id i : ℕ) : WallPlayer :=
  { w with
    table := w.table.filter fun e => e.1 ≠ id
    links := w.links.modify i fun link => { link with closed := true } }

def openLink (c : CardRow) : WallPlayer :=
  { w with table := w.table ++ [(c.id, w.links.length)], links := w.links ++ [.new c] }

/-- The link of a card that its row no longer describes. -/
def mismatched (c : CardRow) : Option ℕ :=
  match w.lookup c.id with
  | some i => if (w.links[i]?.any fun link => link.matches c) then none else some i
  | none => none

/-- `if c.id in links and not links[c.id].matches(c): links.pop(c.id).close()` -/
def unmatch (c : CardRow) : WallPlayer :=
  match w.mismatched c with
  | some i => w.retire c.id i
  | none => w

/-- The canvas, cropped for each card by its link's box. -/
def payloads (canvas : Box → Crop) (cards : List CardRow) : List Payload :=
  cards.filterMap fun c =>
    (w.lookup c.id).bind fun i => w.links[i]?.map fun link => (i, canvas link.box)

/-- What the iteration finds: the step may raise, the frame may be one it has already composed, and
the canvas has its crops. -/
structure Course where
  raises : Bool
  again : Bool
  canvas : Box → Crop

/-- One step of an iteration past its read. -/
def renderStep (course : Course) : WallPlayer :=
  match w.render with
  | .top => w
  | .comparing r =>
    if r.key = w.cur then { w with render := .checking r }
    else if w.renderer.isSome ∧ course.raises then { w with render := .top }
    else { w with renderer := none, cur := r.key, render := .draining r }
  | .draining r =>
    match w.queue with
    | [] => { w with render := .checking r }
    | _ :: queue => { w with queue := queue }
  | .checking r =>
    if r.doc = none ∨ r.streamable = [] ∨ (w.renderer = none ∧ course.raises) then
      { w with render := .top }
    else { w with renderer := some (w.renderer.getD r.key), render := .closing r }
  | .closing r =>
    match w.table.find? fun e => ∀ c ∈ r.streamable, c.id ≠ e.1 with
    | some (id, i) => w.retire id i
    | none => { w with render := .linking r r.streamable }
  | .linking r (c :: todo) =>
    let w := w.unmatch c
    if (w.lookup c.id).isSome then { w with render := .linking r todo }
    else if course.raises then { w with render := .top }
    else { w.openLink c with render := .linking r todo }
  | .linking r [] => { w with render := .composing r }
  | .composing r =>
    if course.raises ∨ course.again then { w with render := .top }
    else
      { w with
        render := .putting
          { «show» := w.renderer.getD (none, none)
            canvas := course.canvas
            payloads := w.payloads course.canvas r.streamable } }
  | .putting item =>
    if w.queue.length < QUEUE then { w with queue := w.queue ++ [item], render := .top } else w

/-- An iteration begins by reading the rows; one on a disabled wall ends there. -/
def read (r : Rows) : WallPlayer :=
  match w.render with
  | .top => { w with render := if r.enabled then .comparing r else .top }
  | _ => w

/-- `self._q.get` -/
def get : WallPlayer :=
  match w.phase, w.queue with
  | .waiting, item :: queue =>
    { w with queue := queue, phase := .holding item.payloads, hand := some item }
  | _, _ => w

def send (net : Network) : WallPlayer :=
  let s := senderStep w.links w.down net w.phase
  { w with links := s.links, phase := s.phase }

end WallPlayer

end Ledwall.Server
