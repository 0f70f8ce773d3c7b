import Ledwall.Library.Tables
import Ledwall.Server.BootConfig

/-! The tables of the fleet database, and what the control API's calls and the supervisor's samples
make of them. Foreign keys are not enforced: a row goes when a handler or a declared cascade deletes
it. -/

namespace Ledwall.Server.Fleet

open Ledwall.Library.Tables

structure Wall where
  id : ℤ
  name : String
  deriving DecidableEq

structure Card where
  id : ℤ
  name : String
  wallId : ℤ
  mac : Option String
  mode : String
  program : Option String
  panelType : Option String
  deriving DecidableEq

structure Show where
  id : ℤ
  name : String
  body : String
  description : Option String
  deriving DecidableEq

structure Assignment where
  id : ℤ
  wallId : ℤ
  showId : ℤ
  deriving DecidableEq

structure Schedule where
  id : ℤ
  wallId : ℤ
  showId : ℤ
  name : String
  deriving DecidableEq

structure CardStat where
  id : ℤ
  cardId : ℤ
  reachable : Bool
  deriving DecidableEq

instance : Keyed Wall := ⟨Wall.id⟩
instance : Keyed Card := ⟨Card.id⟩
instance : Keyed Show := ⟨Show.id⟩
instance : Keyed Assignment := ⟨Assignment.id⟩
instance : Keyed Schedule := ⟨Schedule.id⟩
instance : Keyed CardStat := ⟨CardStat.id⟩

structure Db where
  walls : Table Wall
  cards : Table Card
  shows : Table Show
  assignments : Table Assignment
  schedules : Table Schedule
  stats : Table CardStat

def Db.empty : Db := ⟨.empty, .empty, .empty, .empty, .empty, .empty⟩

/-- `internal` is an exception no handler catches: the database refuses a row, or `int()` a text. -/
inductive ApiError
  | notFound (what : String)
  | conflict (what name : String)
  | unprocessable (detail : String)
  | badRequest (detail : String)
  | internal

/-- What the host makes of a text: whether it loads as a scene document, and what `int()` makes of it
when `isdigit()` says it is a number. -/
structure Host where
  valid : String → Bool
  asId : String → Option (Option ℤ)

/-- What an integer column holds. -/
def Storable (k : ℤ) : Prop := -2 ^ 63 ≤ k ∧ k < 2 ^ 63

instance (k : ℤ) : Decidable (Storable k) := by
  unfold Storable
  infer_instance

/-- `or _404(what)` -/
def found {α : Type} (what : String) : Option α → Except ApiError α
  | some a => .ok a
  | none => .error (.notFound what)

structure CardIn where
  name : String
  wallId : ℤ
  mac : Option String
  mode : String
  program : Option String
  panelType : Option String

/-- The fields that were sent. A `null` is a field sent as `none`. -/
structure CardPatch where
  name : Option (Option String)
  wallId : Option (Option ℤ)
  mac : Option (Option String)
  mode : Option (Option String)
  program : Option (Option String)
  panelType : Option (Option String)

structure ShowIn where
  name : String
  body : String
  description : Option String

structure ScheduleIn where
  wallId : ℤ
  showId : ℤ
  name : String

structure WallContent where
  kind : String
  showId : Option ℤ
  name : Option String

/-- `now` is the timestamp an ad-hoc show is named after. -/
structure PlayRequest where
  wall : Option String
  panel : Option String
  showName : Option String
  body : Option String
  now : ℕ

namespace Db

variable (host : Host) (db : Db)

/-- The unique columns. -/
def Unique : Prop :=
  (db.walls.rows.map Wall.name).Nodup ∧ (db.cards.rows.map Card.name).Nodup ∧
    (db.cards.rows.filterMap Card.mac).Nodup ∧ (db.shows.rows.map Show.name).Nodup ∧
    (db.assignments.rows.map Assignment.wallId).Nodup

instance : Decidable db.Unique := by
  unfold Unique
  infer_instance

def commit : Except ApiError Db := if db.Unique then .ok db else .error .internal

def checkPanelType (panelType : Option String) : Except ApiError Unit :=
  match panelType with
  | some pt =>
    if pt ≠ "" ∧ ¬ PANEL_TYPES.any fun e => e.1 = pt.toList then
      .error (.unprocessable "unknown panel_type")
    else .ok ()
  | none => .ok ()

def validate (body : String) : Except ApiError Unit :=
  if host.valid body then .ok () else .error (.unprocessable "invalid scene document")

def createWall (name : String) : Except ApiError Db := do
  if db.walls.rows.any fun w => w.name = name then throw (.conflict "wall" name)
  commit { db with walls := db.walls.insert (fun k => ⟨k, name⟩) fun _ => rfl }

def updateWall (wid : ℤ) (name : Option (Option String)) : Except ApiError Db := do
  let _ ← found "wall" (db.walls.get wid)
  match name with
  | none => commit db
  -- a NOT NULL column
  | some none => throw .internal
  | some (some name) =>
    commit { db with
      walls := db.walls.update (fun w => w.id = wid) (fun w => { w with name := name }) fun _ => rfl }

/-- The cards and the assignments go with the wall; schedules and statistics have no cascade. -/
def deleteWall (wid : ℤ) : Except ApiError Db := do
  let _ ← found "wall" (db.walls.get wid)
  commit { db with
    walls := db.walls.erase fun w => w.id = wid
    cards := db.cards.erase fun c => c.wallId = wid
    assignments := db.assignments.erase fun a => a.wallId = wid }

def createCard (body : CardIn) : Except ApiError Db := do
  if db.cards.rows.any fun c => c.name = body.name then throw (.conflict "card" body.name)
  let _ ← found "wall" (db.walls.get body.wallId)
  checkPanelType body.panelType
  commit { db with
    cards := db.cards.insert
      (fun k => ⟨k, body.name, body.wallId, body.mac, body.mode, body.program, body.panelType⟩)
      fun _ => rfl }

/-- The wall of a patched card. -/
def patchedWall (c : Card) (wallId : Option (Option ℤ)) : Except ApiError ℤ :=
  match wallId with
  | none => .ok c.wallId
  -- no wall has `None` for its key
  | some none => .error (.notFound "wall")
  | some (some wid) => do
    let _ ← found "wall" (db.walls.get wid)
    return wid

def updateCard (cid : ℤ) (body : CardPatch) : Except ApiError Db := do
  let c ← found "card" (db.cards.get cid)
  let wallId ← db.patchedWall c body.wallId
  checkPanelType (body.panelType.getD none)
  if body.name = some none ∨ body.mode = some none then throw .internal
  commit { db with
    cards := db.cards.update (fun c => c.id = cid)
      (fun c => { c with
        name := (body.name.getD none).getD c.name
        wallId := wallId
        mac := body.mac.getD c.mac
        mode := (body.mode.getD none).getD c.mode
        program := body.program.getD c.program
        panelType := body.panelType.getD c.panelType })
      fun _ => rfl }

def deleteCard (cid : ℤ) : Except ApiError Db := do
  let _ ← found "card" (db.cards.get cid)
  commit { db with cards := db.cards.erase fun c => c.id = cid }

def insertShow (name body : String) (description : Option String) : Db :=
  { db with shows := db.shows.insert (fun k => ⟨k, name, body, description⟩) fun _ => rfl }

def createShow (body : ShowIn) : Except ApiError Db := do
  validate host body.body
  commit (db.insertShow body.name body.body body.description)

def updateShow (sid : ℤ) (body : ShowIn) : Except ApiError Db := do
  let _ ← found "show" (db.shows.get sid)
  validate host body.body
  commit { db with
    shows := db.shows.update (fun s => s.id = sid)
      (fun s => ⟨s.id, body.name, body.body, body.description⟩) fun _ => rfl }

/-- The standing assignment of a wall, made or changed. -/
def setAssignment (wid sid : ℤ) : Db :=
  match db.assignments.rows.find? fun a => a.wallId = wid with
  | some existing =>
    { db with
      assignments := db.assignments.update (fun a => a.id = existing.id)
        (fun a => { a with showId := sid }) fun _ => rfl }
  | none =>
    { db with assignments := db.assignments.insert (fun k => ⟨k, wid, sid⟩) fun _ => rfl }

def assign (wid sid : ℤ) : Except ApiError Db := do
  let _ ← found "wall" (db.walls.get wid)
  let _ ← found "show" (db.shows.get sid)
  commit (db.setAssignment wid sid)

def updateCards (wid : ℤ) (mode : String) (program : Option String) : Db :=
  { db with
    cards := db.cards.update (fun c => c.wallId = wid)
      (fun c => { c with mode := mode, program := program.or c.program }) fun _ => rfl }

def setWallContent (wid : ℤ) (body : WallContent) : Except ApiError Db := do
  let _ ← found "wall" (db.walls.get wid)
  if body.kind = "show" then
    match body.showId with
    | none => throw (.unprocessable "pass show_id for kind=show")
    | some sid =>
      let _ ← found "show" (db.shows.get sid)
      commit ((db.setAssignment wid sid).updateCards wid "stream" none)
  else if body.kind = "program" then
    match body.name with
    | none | some "" => throw (.unprocessable "pass name for kind=program")
    | some name => commit (db.updateCards wid "program" (some name))
  else throw (.badRequest "kind must be 'show' or 'program'")

/-- The handler makes no check of its own. -/
def createSchedule (body : ScheduleIn) : Except ApiError Db :=
  if Storable body.wallId ∧ Storable body.showId then
    commit { db with
      schedules := db.schedules.insert (fun k => ⟨k, body.wallId, body.showId, body.name⟩)
        fun _ => rfl }
  else .error .internal

def deleteSchedule (sid : ℤ) : Except ApiError Db := do
  let _ ← found "schedule" (db.schedules.get sid)
  commit { db with schedules := db.schedules.erase fun s => s.id = sid }

/-- A wall's name, its id, or the name of one of its cards. -/
def target (name : String) : Except ApiError (Option Wall) :=
  let ofCard := (db.cards.rows.find? fun c => c.name = name).bind fun c => db.walls.get c.wallId
  match db.walls.rows.find? fun w => w.name = name with
  | some w => .ok (some w)
  | none =>
    match host.asId name with
    | none => .ok ofCard
    | some none => .error .internal
    | some (some wid) => .ok ((db.walls.get wid).or ofCard)

/-- `a or b` on texts that may be missing. -/
def truthy (a : Option String) : Option String := a.filter (· ≠ "")

def play (req : PlayRequest) : Except ApiError Db :=
  match (truthy req.wall).or (truthy req.panel) with
  | none => .error (.unprocessable "pass 'wall'")
  | some name => do
    let w ← db.target host name
    let p ← found ("wall " ++ name) w
    match truthy req.body, truthy req.showName with
    | some body, _ =>
      validate host body
      let sid := db.shows.fresh
      commit ((db.insertShow ("_adhoc_" ++ p.name ++ "_" ++ toString req.now) body
        (some "ad-hoc via /play")).setAssignment p.id sid)
    | none, some showName =>
      let s ← found "show" (db.shows.rows.find? fun s => s.name = showName)
      commit (db.setAssignment p.id s.id)
    | none, none => throw (.unprocessable "pass either 'show' or 'body'")

def insertStat (cardId : ℤ) (reachable : Bool) : Db :=
  { db with stats := db.stats.insert (fun k => ⟨k, cardId, reachable⟩) fun _ => rfl }

/-- A full tick of the supervisor: a sample of every card of every wall. -/
def sample (answers : ℤ → Bool) : Db :=
  (db.walls.rows.flatMap fun w => db.cards.rows.filter fun c => c.wallId = w.id).foldl
    (fun db c => db.insertStat c.id (answers c.id)) db

end Db

inductive Call
  | createWall (name : String)
  | updateWall (wid : ℤ) (name : Option (Option String))
  | deleteWall (wid : ℤ)
  | createCard (body : CardIn)
  | updateCard (cid : ℤ) (body : CardPatch)
  | deleteCard (cid : ℤ)
  | createShow (body : ShowIn)
  | updateShow (sid : ℤ) (body : ShowIn)
  | assign (wid sid : ℤ)
  | setWallContent (wid : ℤ) (body : WallContent)
  | createSchedule (body : ScheduleIn)
  | deleteSchedule (sid : ℤ)
  | play (req : PlayRequest)
  | sample (answers : ℤ → Bool)

namespace Db

variable (host : Host) (db : Db)

def handle : Call → Except ApiError Db
  | .createWall name => db.createWall name
  | .updateWall wid name => db.updateWall wid name
  | .deleteWall wid => db.deleteWall wid
  | .createCard body => db.createCard body
  | .updateCard cid body => db.updateCard cid body
  | .deleteCard cid => db.deleteCard cid
  | .createShow body => db.createShow host body
  | .updateShow sid body => db.updateShow host sid body
  | .assign wid sid => db.assign wid sid
  | .setWallContent wid body => db.setWallContent wid body
  | .createSchedule body => db.createSchedule body
  | .deleteSchedule sid => db.deleteSchedule sid
  | .play req => db.play host req
  | .sample answers => .ok (db.sample answers)

/-- A call that fails is rolled back. -/
def step (call : Call) : Db :=
  match db.handle host call with
  | .ok db => db
  | .error _ => db

end Db

end Ledwall.Server.Fleet
