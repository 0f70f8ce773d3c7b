import Ledwall.Library.Floats
import Ledwall.Library.Outcomes
import Ledwall.Server.BootConfig
import Ledwall.Server.LiveData

/-! One pass of the value pusher: what it collects from the live cache, what it asks the providers, and
which cards it comes to. -/

namespace Ledwall.Server.Pushing

open Ledwall.Values
open Ledwall.Library.Floats Ledwall.Library.Outcomes
open Ledwall.Server.Live (Digits Floating Json LiveState Raised Walks dig dig_spec found segments)

inductive Fault
  | read (e : Raised)
  | value
  | type
  | overflow
  | attribute
  /-- Any other exception: of a provider, or of `http.client`. -/
  | other (kind : ℕ)

/-- What is used of Python: its character tables, the text of a value (`:g` for a float, else `str`),
and `json.dumps` of a dictionary of any objects, which writes every dictionary of strings. -/
structure Python (Obj : Type) where
  digits : Digits
  text : Json → Except Fault Str
  ofText : Str → Obj
  dumps : List (Obj × Obj) → Except Fault Str
  dumps_text : ∀ d : List (Str × Str), ∃ s, dumps (d.map fun p => (ofText p.1, ofText p.2)) = .ok s

/-- A page is what `dict` makes of it. -/
abbrev Page (Obj : Type) := Except Fault (List (Obj × Obj))

/-- A provider: the programs it is for, and what going through `board_pages(live) or []` gives. -/
structure Provider (Obj : Type) where
  serves : Str → Bool
  boardPages : LiveState → Except Fault (List (Page Obj))

structure Clock where
  timestamp : ℤ
  hhmm : Str
  date : Str

structure Card where
  id : ℤ
  host : Str
  program : Option Str
  enabled : Bool

/-- How `/api/display` is answered: not at all, with a document, or so that `http.client` raises what
`_mode` does not catch. -/
inductive Reply
  | refused
  | document (doc : Json)
  | broken (e : Fault)

inductive Post
  | accepted
  | failed
  | broken (e : Fault)

/-- A card, and what the network makes of the two requests to it. -/
structure Visit where
  card : Card
  reply : Reply
  post : Post

/-- What a pass finds. -/
structure Tick (Obj : Type) where
  live : LiveState
  now : Clock
  providers : List (Provider Obj)
  visits : List Visit
  ids : (visits.map fun v => v.card.id).Nodup

structure Sent (Obj : Type) where
  card : Card
  values : List (Obj × Obj)
  body : Str

/-- Key, topic and path. -/
def MAPPING : List (Str × Str × Str) :=
  [("temp".toList, "home.status".toList, "weather.temp".toList),
    ("cond".toList, "home.status".toList, "weather.cond".toList),
    ("humidity".toList, "home.status".toList, "weather.humidity".toList),
    ("doors".toList, "home.status".toList, "open.doors".toList),
    ("windows".toList, "home.status".toList, "open.windows".toList),
    ("garage".toList, "home.status".toList, "garage_open".toList),
    ("unlocked".toList, "home.status".toList, "open.unlocked".toList),
    ("power".toList, "home.status".toList, "power.total".toList),
    ("gallons".toList, "home.status".toList, "sprinkler.gallons_today".toList),
    ("nextzone".toList, "home.status".toList, "sprinkler.next_name".toList),
    ("zones".toList, "home.status".toList, "sprinkler.zones_total".toList),
    ("running".toList, "home.status".toList, "sprinkler.running".toList)]

def PAGE_SECONDS : ℤ := 10

def PAGES : ℤ := 4

section Series

/-- `for v in (values or [])` -/
def iterate : Json → Except Fault (List Json)
  | .null => .ok []
  | .bool b => if b then .error .type else .ok []
  | .int n => if n = 0 then .ok [] else .error .type
  | .float (.finite q) => if q = 0 then .ok [] else .error .type
  | .float _ => .error .type
  | .str s => .ok (s.map fun c => .str [c])
  | .list elements => .ok elements
  | .dict members => .ok (members.map fun m => .str m.1)

/-- `float(v)`, of what is a number and no boolean. -/
def toFloat : Json → Option (Except Fault (Number binary64))
  | .int n =>
    match Number.ofRat binary64 n with
    | .inf _ => some (.error .overflow)
    | v => some (.ok v)
  | .float (.finite q) => some (.ok (.ofRat binary64 q))
  | .float .nan => some (.ok .nan)
  | .float (.infinite negative) => some (.ok (.inf negative))
  | _ => none

/-- `int(v)` -/
def toInt (v : Number binary64) : Except Fault ℤ :=
  match v, v.trunc with
  | _, some k => .ok k
  | .nan, none => .error .value
  | _, none => .error .overflow

/-- `encode_series` -/
def encodeSeries (values : Json) : Except Fault Str := do
  let items ← iterate values
  let nums ← (items.filterMap toFloat).mapM id
  match nums with
  | [] => .ok []
  | v :: vs =>
    let lo := vs.foldl (fun m x => if x.lt m then x else m) v
    let hi := vs.foldl (fun m x => if m.lt x then x else m) v
    let span := if (hi.sub lo).value = some 0 then .ofRat binary64 1 else hi.sub lo
    (List.range HIST_LEN).mapM fun i => do
      let x := (v :: vs).getD (i * vs.length / (HIST_LEN - 1)) v
      let k ← toInt (((x.sub lo).quot span).times HIST_STEPS)
      .ok (Char.ofNat (HIST_BASE + k.toNat))

end Series

variable {Obj : Type} (py : Python Obj) (t : Tick Obj)

/-- `_dig(live.get(topic), path)`; `_dig` is the walker of the live cache again. -/
def digAt (topic path : Str) : Except Fault Json :=
  (dig py.digits (segments path) ((t.live topic).getD .null)).mapError .read

/-- `derived` -/
def derived : Except Fault (List (Str × Str)) := do
  let hist ← digAt py t "home.status".toList "power.history".toList
  let enc ← encodeSeries hist
  .ok ([("hhmm".toList, t.now.hhmm), ("date".toList, t.now.date),
      ("page".toList, decimal (t.now.timestamp / PAGE_SECONDS % PAGES).toNat)] ++
    if enc = [] then [] else [("hist".toList, enc)])

/-- The entry of a key, when its path leads to a value. -/
def entry (m : Str × Str × Str) : Except Fault (List (Str × Str)) := do
  match ← digAt py t m.2.1 m.2.2 with
  | .null => .ok []
  | v => do
    let s ← py.text v
    .ok [(m.1, s)]

/-- `collect` -/
def collect : Except Fault (List (Str × Str)) := do
  let out ← MAPPING.mapM (entry py t)
  let rest ← derived py t
  .ok (out.flatten ++ rest)

/-- `_mode`, and whether it is a program's. -/
def programMode : Reply → Except Fault Bool
  | .refused => .ok false
  | .broken e => .error e
  | .document doc =>
    match Live.get doc "source".toList with
    | .error _ => .error .attribute
    | .ok .null => .ok false
    | .ok (.str s) => .ok ("program".toList <+: s)
    | .ok _ => .error .attribute

/-- The page that the clock picks. -/
def pick (pages : List (Page Obj)) : Option (Page Obj) :=
  pages[(t.now.timestamp / PAGE_SECONDS % pages.length).toNat]?

/-- The providers of a program. -/
def serving (program : Str) : List (Provider Obj) :=
  t.providers.filter fun p => program ≠ [] && p.serves program

/-- The cards of a pass. -/
def Tick.enabled : List Visit := t.visits.filter fun v => v.card.enabled

variable [DecidableEq Obj]

def setdefault (values : List (Obj × Obj)) (k v : Obj) : List (Obj × Obj) :=
  if k ∈ values.map Prod.fst then values else values ++ [(k, v)]

def withClock (values : List (Obj × Obj)) : List (Obj × Obj) :=
  setdefault values (py.ofText "hhmm".toList) (py.ofText t.now.hhmm)

/-- `provider_values` -/
def providerValues (program : Str) : Except Fault (Option (List (Obj × Obj))) := do
  let pages ← (serving t program).mapM fun p => p.boardPages t.live
  match pick t pages.flatten with
  | none => .ok none
  | some page => do
    let values ← page
    .ok (some (withClock py t values))

/-- `push`: what reaches the network, and what is raised. -/
def push (v : Visit) (values : List (Obj × Obj)) : List (Sent Obj) × Option Fault :=
  match py.dumps values with
  | .error e => ([], some e)
  | .ok body =>
    ([⟨v.card, values, body⟩],
      match v.post with
      | .broken e => some e
      | _ => none)

/-- `provider_values(…) or bus_values` -/
def orBus (fed : Option (List (Obj × Obj))) (bus : List (Str × Str)) : List (Obj × Obj) :=
  match fed with
  | some (p :: d) => p :: d
  | _ => bus.map fun p => (py.ofText p.1, py.ofText p.2)

/-- A card's turn in the loop. -/
def turn (bus : List (Str × Str)) (v : Visit) : List (Sent Obj) × Option Fault :=
  match programMode v.reply with
  | .error e => ([], some e)
  | .ok false => ([], none)
  | .ok true =>
    match providerValues py t (v.card.program.getD []) with
    | .error e => ([], some e)
    | .ok fed =>
      match orBus py fed bus with
      | [] => ([], none)
      | p :: d => push py v (p :: d)

/-- One turn of the loop of `ValuePusher.run`: all of it is tried under one handler. -/
def pass : List (Sent Obj) × Option Fault :=
  match collect py t with
  | .error e => ([], some e)
  | .ok bus => sweep (turn py t bus) t.enabled

end Ledwall.Server.Pushing
