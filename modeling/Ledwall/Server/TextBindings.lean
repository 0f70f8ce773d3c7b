import Ledwall.Server.BindingTokens
import Ledwall.Server.RowsLayer

/-! The resolvers behind the brace tokens of a text, and the object that all layers share. -/

namespace Ledwall.Server.Binding

open Ledwall.Panels (isSpace stripped)
open Ledwall.Server.Live (Json Digits LiveState dig segments address noValue)
open Ledwall.Server.Rendering (Text)

/-- The identity of an object of the host. -/
abbrev Object := ℕ

/-- What a call returns: a text, `None`, or anything else, which has its `str`. -/
inductive Returned
  | text (t : Text)
  | nothing
  | other (str : Text)

/-- `str` -/
def Returned.str : Returned → Text
  | .text t => t
  | .nothing => "None".toList
  | .other s => s

/-- The fetch cache: when a value was fetched, and the value. -/
abbrev Cache := Text → Option (ℚ × Returned)

/-- The attributes of the object, each there or deleted. -/
structure Bindings where
  tz : Option Text
  live : Option (Option Object)
  haGet : Option (Option Object)
  httpGet : Option (Option Object)
  haHistory : Option (Option Object)
  cache : Option Cache
  pool : Option Object
  inflight : Option (Finset Text)
  lock : Option Object

/-- What a resolver meets when it is called: the time, the host and what its readers do, `none`
where they raise, and the live cache. -/
structure World where
  now : ℚ
  zone : Text → Option Text
  strftime : Text → Text → Option Text
  environ : Text → Option Text
  /-- The contents of a file, or `none` when it cannot be read. -/
  read : Text → Option Text
  live : LiveState
  digits : Digits
  /-- `str` of a payload that is no text. -/
  str : Json → Text
  call : Object → Text → Option Returned
  history : Object → Text → Text → Option Returned
  urlopen : Text → Option Text
  /-- What a path leads to in a JSON text. -/
  jsonAt : Text → Text → Option Text
  /-- `str` of the bindings. -/
  repr : Text
  fresh : Object
  /-- Whether the pool accepts no more. -/
  closing : Bool
  /-- Which of the pool's jobs end before the call, one after another. -/
  landed : List ℕ

/-- A fetch behind the cache. -/
inductive Fetch
  | http (arg : Text)
  | ha (arg : Text)
  | history (entity hours : Text)

structure State where
  self : Bindings
  jobs : List Fetch

section Fetching

variable (w : World)

def ttl : ℚ := 10

def giveUp : ℚ := 60

def Fetch.key : Fetch → Text
  | .http arg => "http:".toList ++ arg
  | .ha arg => "ha:".toList ++ arg
  | .history entity hours => "hist:".toList ++ entity ++ ":".toList ++ hours

/-- The text behind a URL. -/
def fetchRaw (b : Bindings) (url : Text) : Option Text :=
  match b.httpGet with
  | none => none
  | some none => w.urlopen url
  | some (some r) => (w.call r url).map Returned.str

/-- `fetch()` -/
def Fetch.run (b : Bindings) : Fetch → Option Returned
  | .http arg =>
    let path := (arg.dropWhile (· ≠ '|')).drop 1
    ((fetchRaw w b (arg.takeWhile (· ≠ '|'))).bind fun raw =>
      if path ≠ [] then w.jsonAt raw path else some (stripped isSpace raw)).map .text
  | .ha arg =>
    match b.haGet with
    | some (some r) => (w.call r arg).map fun v => .text v.str
    | _ => none
  | .history entity hours =>
    match b.haHistory with
    | some (some r) => w.history r entity hours
    | _ => none

/-- The fetch of a job, and its value in the cache, unless it is `None`. -/
def store (f : Fetch) (b : Bindings) : Bindings :=
  match f.run w b with
  | none | some .nothing => b
  | some v => { b with cache := b.cache.map fun c => Function.update c f.key (some (w.now, v)) }

/-- The key of a job is no longer in flight. -/
def release (f : Fetch) (b : Bindings) : Bindings :=
  match b.lock with
  | none => b
  | some _ => { b with inflight := b.inflight.map (·.erase f.key) }

/-- `_refresh` -/
def refresh (f : Fetch) (b : Bindings) : Bindings := release f (store w f b)

/-- The jobs of the pool that end. -/
def land : List ℕ → State → State
  | [], s => s
  | i :: is, s =>
    match s.jobs[i]? with
    | none => land is s
    | some f => land is ⟨refresh w f s.self, s.jobs.eraseIdx i⟩

/-- The claim on a key that is not in flight, and its job; without a result it raises. -/
def claim (f : Fetch) (s : State) : Option Unit × State :=
  match s.self.lock, s.self.inflight with
  | some _, some keys =>
    if f.key ∈ keys then (some (), s)
    else
      let claimed := { s.self with inflight := some (insert f.key keys) }
      match s.self.pool with
      | none => (none, { s with self := claimed })
      | some _ => if w.closing then (some (), s) else (some (), ⟨claimed, s.jobs ++ [f]⟩)
  | _, _ => (none, s)

/-- The cached value of a key, if it is younger than that. -/
def served (cache : Cache) (key : Text) (age : ℚ) : Option Returned :=
  match cache key with
  | some (t, v) => if w.now - t < age then some v else none
  | none => none

/-- `_cached` -/
def cached (f : Fetch) (empty : Returned) (s : State) : Option Returned × State :=
  match s.self.cache with
  | none => (none, s)
  | some cache =>
    match served w cache f.key ttl with
    | some v => (some v, s)
    | none =>
      match claim w f s with
      | (none, s) => (none, s)
      | (some (), s) => (some ((served w cache f.key giveUp).getD empty), s)

end Fetching

/-- The documented resolvers. -/
inductive Resolver
  | clock
  | date
  | env
  | file
  | http
  | ha
  | bus
  | data

section Resolving

variable (w : World)

/-- `arg or "%H:%M"` and the like. -/
def orElse (arg : Text) (format : String) : Text := if arg = [] then format.toList else arg

/-- `_bus` -/
def readBus (b : Bindings) (arg : Text) : Option Returned :=
  match b.live with
  | none => none
  | some none => some (.text noValue)
  | some (some _) =>
    match w.live (address arg).1 with
    | none | some .null => some (.text noValue)
    | some doc =>
      match (if (address arg).2 ≠ [] then dig w.digits (segments (address arg).2) doc else .ok doc) with
      | .error _ => none
      | .ok .null => some (.text noValue)
      | .ok (.str t) => some (.text t)
      | .ok (.list l) => some (.text ((w.str (.list l)).take 120))
      | .ok (.dict m) => some (.text ((w.str (.dict m)).take 120))
      | .ok v => some (.text (w.str v))

/-- A resolver's call; without a result it raises. -/
def Resolver.call (arg : Text) (s : State) : Resolver → Option Returned × State
  | .clock => (s.self.tz.bind fun z => (w.strftime z (orElse arg "%H:%M")).map .text, s)
  | .date => (s.self.tz.bind fun z => (w.strftime z (orElse arg "%a %d %b")).map .text, s)
  | .env => (some (.text ((w.environ arg).getD noValue)), s)
  | .file => (some (.text (((w.read arg).map (stripped isSpace)).getD noValue)), s)
  | .http => cached w (.http arg) (.text noValue) s
  | .ha =>
    match s.self.haGet with
    | none => (none, s)
    | some none => (some (.text noValue), s)
    | some (some _) => cached w (.ha arg) (.text noValue) s
  | .bus | .data => (readBus w s.self arg, s)

end Resolving

/-- The special methods that the object has from its class and from `object`, by what a call with
one text does. -/
inductive Special
  | init
  | construct
  | delattr
  | getattribute
  | format
  /-- The comparisons and `__subclasshook__`, which return `NotImplemented`. -/
  | notImplemented
  /-- Those that take no argument, two, or none of this type. -/
  | refusing

/-- What an attribute is. -/
inductive Found
  | nothing
  | text (t : Text)
  | resolver (r : Resolver)
  | reader (r : Object)
  | special (m : Special)
  /-- A method that takes two arguments. -/
  | method
  | object

/-- The names that are set on the object itself. -/
inductive Field
  | tz
  | live
  | haGet
  | httpGet
  | haHistory
  | cache
  | pool
  | inflight
  | lock
  deriving DecidableEq

def resolvers : List (Text × Resolver) :=
  [("clock".toList, .clock), ("date".toList, .date), ("env".toList, .env), ("file".toList, .file),
    ("http".toList, .http), ("ha".toList, .ha), ("bus".toList, .bus), ("data".toList, .data)]

def fields : List (Text × Field) :=
  [("tz".toList, .tz), ("_live".toList, .live), ("_ha_get".toList, .haGet),
    ("_http_get".toList, .httpGet), ("_ha_history".toList, .haHistory), ("_cache".toList, .cache),
    ("_pool".toList, .pool), ("_inflight".toList, .inflight), ("_lock".toList, .lock)]

/-- The attributes of the class, those of `object` among them. -/
def classAttributes : List (Text × Found) :=
  resolvers.map (fun r => ('_' :: r.1, Found.resolver r.2)) ++
  ([("_TTL".toList, .object), ("_GIVE_UP".toList, .object), ("_cached".toList, .method),
    ("_refresh".toList, .method), ("history".toList, .method), ("data_series".toList, .object),
    ("bus_series".toList, .object), ("resolve".toList, .object),
    ("__class__".toList, .special .construct), ("__delattr__".toList, .special .delattr),
    ("__dict__".toList, .object), ("__dir__".toList, .special .refusing),
    ("__doc__".toList, .nothing), ("__eq__".toList, .special .notImplemented),
    ("__format__".toList, .special .format), ("__ge__".toList, .special .notImplemented),
    ("__getattribute__".toList, .special .getattribute),
    ("__getstate__".toList, .special .refusing), ("__gt__".toList, .special .notImplemented),
    ("__hash__".toList, .special .refusing), ("__init__".toList, .special .init),
    ("__init_subclass__".toList, .special .refusing), ("__le__".toList, .special .notImplemented),
    ("__lt__".toList, .special .notImplemented),
    ("__module__".toList, .text "marquee_core.bindings".toList),
    ("__ne__".toList, .special .notImplemented), ("__new__".toList, .special .refusing),
    ("__reduce__".toList, .special .refusing), ("__reduce_ex__".toList, .special .refusing),
    ("__repr__".toList, .special .refusing), ("__setattr__".toList, .special .refusing),
    ("__sizeof__".toList, .special .refusing), ("__str__".toList, .special .refusing),
    ("__subclasshook__".toList, .special .notImplemented), ("__weakref__".toList, .nothing)] :
    List (Text × Found))

section Attributes

/-- What `__init__` leaves. -/
def Bindings.new (tz : Text) (fresh : Object) (ha http live history : Option Object) : Bindings where
  tz := some tz
  live := some live
  haGet := some ha
  httpGet := some http
  haHistory := some history
  cache := some fun _ => none
  pool := some fresh
  inflight := some ∅
  lock := some fresh

/-- `del` of one of the names set on the object. -/
def Bindings.erase (b : Bindings) : Field → Bindings
  | .tz => { b with tz := none }
  | .live => { b with live := none }
  | .haGet => { b with haGet := none }
  | .httpGet => { b with httpGet := none }
  | .haHistory => { b with haHistory := none }
  | .cache => { b with cache := none }
  | .pool => { b with pool := none }
  | .inflight => { b with inflight := none }
  | .lock => { b with lock := none }

/-- Without its dictionary the object has none of the names set on it. -/
def Bindings.bare : Bindings := ⟨none, none, none, none, none, none, none, none, none⟩

/-- A reader that may be `None`. -/
def reader : Option Object → Found
  | none => .nothing
  | some r => .reader r

def Bindings.field (b : Bindings) : Field → Option Found
  | .tz => b.tz.map fun _ => .object
  | .live => b.live.map fun l => l.elim .nothing fun _ => .object
  | .haGet => b.haGet.map reader
  | .httpGet => b.httpGet.map reader
  | .haHistory => b.haHistory.map reader
  | .cache => b.cache.map fun _ => .object
  | .pool => b.pool.map fun _ => .object
  | .inflight => b.inflight.map fun _ => .object
  | .lock => b.lock.map fun _ => .object

/-- The attribute of a name, if there is one. -/
def Bindings.attribute (b : Bindings) (name : Text) : Option Found :=
  match fields.lookup name with
  | some f => b.field f
  | none => classAttributes.lookup name

end Attributes

section Calling

variable (w : World)

/-- A special method's call; without a result it raises. -/
def Special.call (arg : Text) (s : State) : Special → Option Returned × State
  | .init =>
    match w.zone arg with
    | none => (none, s)
    | some tz => (some .nothing, { s with self := .new tz w.fresh none none none none })
  | .construct => ((w.zone arg).map fun _ => .other w.repr, s)
  | .delattr =>
    if arg = "__dict__".toList then (some .nothing, { s with self := .bare })
    else
      match fields.lookup arg with
      | none => (none, s)
      | some f =>
        if (s.self.field f).isSome then (some .nothing, { s with self := s.self.erase f })
        else (none, s)
  | .getattribute =>
    match s.self.attribute arg with
    | none => (none, s)
    | some .nothing => (some .nothing, s)
    | some (.text t) => (some (.text t), s)
    | some _ => (some (.other w.repr), s)
  | .format => (if arg = [] then some (.text w.repr) else none, s)
  | .notImplemented => (some (.other "NotImplemented".toList), s)
  | .refusing => (none, s)

/-- The call of an attribute with the argument of a token. -/
def Found.call (arg : Text) (s : State) : Found → Option Returned × State
  | .resolver r => r.call w arg s
  | .reader r => (w.call r arg, s)
  | .special m => m.call w arg s
  | .nothing | .text _ | .method | .object => (none, s)

/-- What becomes of a piece of the text; what is no text cannot be joined with the rest. -/
inductive Piece
  | left (t : Text)
  | replaced (t : Text)
  | unjoinable

/-- `sub`, where a result of `None` counts as no text. -/
def sub (raw kind arg : Text) (s : State) : Piece × State :=
  match s.self.attribute ('_' :: kind) with
  | none | some .nothing => (.left raw, s)
  | some f =>
    match f.call w arg s with
    | (none, s) => (.replaced noValue, s)
    | (some (.text t), s) => (.replaced t, s)
    | (some .nothing, s) => (.replaced [], s)
    | (some (.other _), s) => (.unjoinable, s)

/-- The substitution: token after token, each in the world it meets. -/
def resolveFrom (worlds : ℕ → World) : List Segment → ℕ → State → List Piece × State
  | [], _, s => ([], s)
  | .plain c :: segs, k, s =>
    let (ps, s) := resolveFrom worlds segs k s
    (.left [c] :: ps, s)
  | .token raw kind arg :: segs, k, s =>
    let (p, s) := sub (worlds k) raw kind arg (land (worlds k) (worlds k).landed s)
    let (ps, s) := resolveFrom worlds segs (k + 1) s
    (p :: ps, s)

/-- `resolve`, up to the joining of the pieces. -/
def resolve (worlds : ℕ → World) (text : Text) (s : State) : List Piece × State :=
  resolveFrom worlds (scan text) 0 s

/-- The pieces as one text, which raises on what cannot be joined. -/
def joined : List Piece → Option Text
  | [] => some []
  | .left t :: ps | .replaced t :: ps => (joined ps).map (t ++ ·)
  | .unjoinable :: _ => none

/-- `history` -/
def history (entity hours : Text) (s : State) : Option Returned × State :=
  match s.self.haHistory with
  | none => (none, s)
  | some none => (some (.other "[]".toList), s)
  | some (some _) => cached w (.history entity hours) (.other "[]".toList) s

end Calling

end Ledwall.Server.Binding
