import Ledwall.Server.BitstreamPush
import Ledwall.Server.FleetCalls

/-! A card that runs an on-board program, the values it is fed, and the calls that change which
program is fed. -/

namespace Ledwall.Server.Feeds

open Ledwall.Wire Ledwall.Values Ledwall.Server.Fleet

/-- The programs of the firmware, by name. -/
def PROGRAMS : List (List Byte) :=
  [ascii "hello", ascii "railboard", ascii "dashboard-home", ascii "blank", ascii "ticker",
    ascii "timessquare"]

def byName (name : List Byte) : Option (List Byte) := PROGRAMS.find? (· = name)

/-- The card's `PROGRAM_` statics. -/
structure Running where
  fn : Option (List Byte) := none
  active : Bool := false
  fullLeft : ℕ := 2
  primeLeft : ℕ := 0
  paletteDirty : Bool := true
  frame : BitVec 32 := 0
  nextMs : ℤ := 0
  held : Bool := false
  deriving DecidableEq

def apiProgramSet (body : List Byte) (on : Bool) (r : Running) : Running :=
  if on then
    { r with
      fn := (((Bitstreams.jsonGetStr (ascii "name") body).bind byName).or r.fn).or PROGRAMS.head?
      active := true, fullLeft := 2, primeLeft := 2, paletteDirty := true, frame := 0, nextMs := 0,
      held := true }
  else { r with active := false, held := false }

/-- `json.dumps(\x7b"name": c.program\x7d) if c.program else b"\x7b\x7d"` -/
def modeBody (c : Fleet.Card) : List Byte :=
  match Db.truthy c.program with
  | some name => Dict.body ⟨[("name".toList, name.toList)], List.nodup_singleton _⟩
  | none => ascii "\x7b\x7d"

def applyMode (c : Fleet.Card) (r : Running) : Running :=
  if c.mode = "program" then apiProgramSet (modeBody c) true r else apiProgramSet [] false r

/-- What is served to cards of some programs, and its pages on the values of the moment. -/
structure Provider where
  programs : List String
  boardPages : List Dict

def PAGE_SECONDS : ℕ := 10

local instance : LawfulBEq Str := inferInstance

def setdefault (d : Dict) (k v : Str) : Dict :=
  if h : k ∈ d.items.map Prod.fst then d
  else
    ⟨d.items ++ [(k, v)], by
      rw [List.map_append, List.map_singleton, ← List.concat_eq_append]
      exact d.nodup.concat h⟩

structure Clock where
  timestamp : ℤ
  hhmm : Str

def providerValues (providers : List Provider) (program : String) (now : Clock) : Option Dict :=
  let pages := (providers.filter fun p => program ≠ "" ∧ program ∈ p.programs).flatMap
    Provider.boardPages
  pages[(now.timestamp / PAGE_SECONDS % pages.length).toNat]?.map
    (setdefault · "hhmm".toList now.hhmm)

/-- What one turn of the pusher's loop finds: the providers, the values collected from the bus, and
the way its request takes to the card. -/
structure Tick where
  providers : List Provider
  bus : Dict
  clock : Clock
  host : List Byte
  version : List Byte
  segments : List Byte → List (List Byte)
  timeMs : ℤ
  host_line : 0x0D ∉ host
  version_line : 0x0D ∉ version
  flatten : ∀ r, (segments r).flatten = r

/-- `provider_values(…) or bus_values`, unless that is empty. -/
def Tick.values (k : Tick) (program : String) : Option Dict :=
  let d := (providerValues k.providers program k.clock).getD k.bus
  if d.items = [] then none else some d

def Tick.request (k : Tick) (d : Dict) : List Byte := Values.request k.host k.version d.body

inductive Event
  /-- A request of anybody's to `/api/program/on` or `/off`. -/
  | programSet (body : List Byte) (on : Bool)
  /-- A call of the control API; `reached` when the card then answers. -/
  | call (c : Call) (reached : Bool)
  | tick (k : Tick)

/-- The database, one card, and the history of its table: every key sent to it since it booted, with
the program it was sent for. -/
structure Site where
  db : Db
  running : Running := {}
  table : ValueTable := {}
  sent : List (String × Str) := []

namespace Site

variable (host : Host) (cid : ℤ) (s : Site)

/-- `card.program or ""` -/
def program : String := ((s.db.cards.get cid).bind Fleet.Card.program).getD ""

/-- The calls after which a mode is applied to the card. -/
def applies (c : Call) : Bool :=
  match c, s.db.cards.get cid with
  | .setWallContent wid _, some card => card.wallId = wid
  | .updateCard id body, some _ => id = cid ∧ (body.mode.isSome ∨ body.program.isSome)
  | _, _ => false

def afterCall (c : Call) (reached : Bool) : Site :=
  match s.db.handle host c with
  | .error _ => s
  | .ok db =>
    match db.cards.get cid with
    | some card =>
      { s with
        db := db
        running := if s.applies cid c ∧ reached then applyMode card s.running else s.running }
    | none => { s with db := db }

/-- The values a turn of the pusher's loop sends to the card. -/
def feed : Event → Option Dict
  | .tick k =>
    if (s.db.cards.get cid).isSome ∧ s.running.active then k.values (s.program cid) else none
  | _ => none

def push (k : Tick) (d : Dict) : Site :=
  { s with
    table := (pushOnto s.table (k.segments (k.request d)) k.timeMs).getD s.table
    sent := s.sent ++ d.items.map fun p => (s.program cid, p.1) }

def step : Event → Site
  | .programSet body on => { s with running := apiProgramSet body on s.running }
  | .call c reached => s.afterCall host cid c reached
  | .tick k =>
    match s.feed cid (.tick k) with
    | some d => s.push cid k d
    | none => s

end Site

end Ledwall.Server.Feeds
