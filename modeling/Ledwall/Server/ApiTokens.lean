import Ledwall.Library.Runs
import Ledwall.Library.TextLines

/-! The tokens of the machine callers: how they are minted, checked and revoked. -/

namespace Ledwall.Server.Tokens

open Ledwall.Library.Runs
open Ledwall.Library.TextLines (Text strip)

/-- An instant in microseconds, and whether it names its zone. -/
structure Datetime where
  us : ℤ
  aware : Bool
  deriving DecidableEq

inductive Raised
  | typeError
  | integrityError
  deriving DecidableEq

namespace Datetime

/-- `d - e`, in microseconds. -/
def sub (d e : Datetime) : Except Raised ℤ :=
  if d.aware = e.aware then .ok (d.us - e.us) else .error .typeError

/-- `d < e` -/
def lt (d e : Datetime) : Except Raised Bool :=
  if d.aware = e.aware then .ok (d.us < e.us) else .error .typeError

/-- What SQLite hands back: it keeps no zone. -/
def stored (d : Datetime) : Datetime := { d with aware := false }

end Datetime

/-- `dt.datetime.now(dt.timezone.utc)` -/
def utcnow (us : ℤ) : Datetime := ⟨us, true⟩

structure Principal where
  name : Text
  role : Text := "viewer".toList
  scopes : List Text := []
  kind : Text := "user".toList
  deriving DecidableEq

def Principal.isAdmin (p : Principal) : Bool := p.role = "admin".toList || "admin".toList ∈ p.scopes

structure ApiToken (H : Type*) where
  id : ℤ
  name : Text
  tokenPrefix : Text
  tokenHash : H
  scopes : Text
  createdBy : Text
  created : Datetime
  lastUsed : Option Datetime := none
  expires : Option Datetime := none
  revoked : Bool := false

/-- `tuple(s.strip() for s in text.split(",") if s.strip())` -/
def scopesOf (text : Text) : List Text := ((text.splitOn ',').map strip).filter (· ≠ [])

/-- The principal of a token's name and scopes. -/
def tokenPrincipal (name scopes : Text) : Principal where
  name := "token:".toList ++ name
  role := if "admin".toList ∈ scopesOf scopes then "admin".toList else "viewer".toList
  scopes := scopesOf scopes
  kind := "token".toList

/-- `TokenIn` -/
structure TokenIn where
  name : Text
  scopes : Text := "read".toList
  expiresDays : Option ℤ := none

inductive Action
  /-- Any call for which `current_principal` is all that is asked. -/
  | get
  /-- `raw` is what `secrets` draws for it. -/
  | createToken (body : TokenIn) (raw : Text)
  | revoke (tid : ℤ)

/-- A call: its header, the user its cookie stands for, and when it comes. -/
structure Call where
  us : ℤ
  authorization : Text
  session : Option Principal
  action : Action

inductive Answer
  | ok (p : Principal)
  | created (id : ℤ) (raw : Text)
  | noContent
  | unauthorized
  | forbidden
  | notFound
  | raised (e : Raised)
  deriving DecidableEq

section Handlers

variable {H : Type*}

/-- The rows of `api_tokens`, by their key. -/
abbrev Table (H : Type*) := List (ApiToken H)

namespace ApiToken

variable (tok : ApiToken H) (now : Datetime)

/-- `tok.expires and tok.expires < now` -/
def expired : Except Raised Bool := tok.expires.elim (.ok false) (·.lt now)

/-- `not tok.last_used or (now - tok.last_used).total_seconds() > 60` -/
def stale : Except Raised Bool :=
  tok.lastUsed.elim (.ok true) fun used => (now.sub used).map (60000000 < ·)

def principal : Principal := tokenPrincipal tok.name tok.scopes

def stamped : ApiToken H := { tok with lastUsed := some now.stored }

end ApiToken

def update (db : Table H) (id : ℤ) (f : ApiToken H → ApiToken H) : Table H :=
  db.map fun tok => if tok.id = id then f tok else tok

variable [DecidableEq H] (hash : Text → H)

/-- `_from_bearer` -/
def fromBearer (raw : Text) (now : Datetime) (db : Table H) :
    Except Raised (Option Principal) × Table H :=
  match db.find? fun tok => tok.tokenHash = hash raw with
  | none => (.ok none, db)
  | some tok =>
    if tok.revoked then (.ok none, db)
    else
      match tok.expired now with
      | .error e => (.error e, db)
      | .ok true => (.ok none, db)
      | .ok false =>
        match tok.stale now with
        | .error e => (.error e, db)
        | .ok true => (.ok (some tok.principal), update db tok.id (·.stamped now))
        | .ok false => (.ok (some tok.principal), db)

/-- `auth[7:].strip()`, when the header is a bearer's. -/
def bearer (auth : Text) : Option Text :=
  if (auth.take 7).map Char.toLower = "bearer ".toList then some (strip (auth.drop 7)) else none

/-- `current_principal`; nobody is a 401. -/
def currentPrincipal (call : Call) (db : Table H) : Except Raised (Option Principal) × Table H :=
  match bearer call.authorization with
  | some raw => fromBearer hash raw (utcnow call.us) db
  | none => (.ok call.session, db)

/-- `create_token` -/
def createToken (p : Principal) (body : TokenIn) (raw : Text) (us : ℤ) (db : Table H) :
    Answer × Table H :=
  if db.any fun tok => tok.tokenHash = hash raw then (.raised .integrityError, db)
  else
    (.created (db.length + 1) raw,
      db ++ [{ id := db.length + 1
               name := body.name
               tokenPrefix := raw.take 12
               tokenHash := hash raw
               scopes := body.scopes
               createdBy := p.name
               created := (utcnow us).stored }])

/-- `revoke` -/
def revokeToken (tid : ℤ) (db : Table H) : Answer × Table H :=
  if db.any fun tok => tok.id = tid then
    (.noContent, update db tid fun tok => { tok with revoked := true })
  else (.notFound, db)

def perform (p : Principal) (us : ℤ) (db : Table H) : Action → Answer × Table H
  | .get => (.ok p, db)
  | .createToken body raw => if p.isAdmin then createToken hash p body raw us db else (.forbidden, db)
  | .revoke tid => if p.isAdmin then revokeToken tid db else (.forbidden, db)

/-- A call, answered. -/
def handle (call : Call) (db : Table H) : Answer × Table H :=
  match currentPrincipal hash call db with
  | (.error e, db) => (.raised e, db)
  | (.ok none, db) => (.unauthorized, db)
  | (.ok (some p), db) => perform hash p call.us db call.action

end Handlers

/-! What was given out, and what it is good for. -/

def day : ℤ := 86400000000

/-- A token as it was given out, and whether it was taken back. -/
structure Grant where
  id : ℤ
  raw : Text
  name : Text
  scopes : Text
  ends : Option ℤ
  revoked : Bool

namespace Grant

variable (g : Grant)

def given (call : Call) (body : TokenIn) (id : ℤ) (raw : Text) : Grant where
  id := id
  raw := raw
  name := body.name
  scopes := body.scopes
  ends := body.expiresDays.map fun days => call.us + days * day
  revoked := false

/-- The days it was given have not passed. -/
def InTime (us : ℤ) : Prop := ∀ last ∈ g.ends, us ≤ last

instance (us : ℤ) : Decidable (g.InTime us) := Option.decidableForallMem (p := fun last => us ≤ last) g.ends

def principal : Principal := tokenPrincipal g.name g.scopes

end Grant

/-- What an answer adds to the grants, or takes back. -/
def record (call : Call) (grants : List Grant) : Answer → List Grant
  | .created id raw =>
    match call.action with
    | .createToken body _ => grants ++ [.given call body id raw]
    | _ => grants
  | .noContent =>
    match call.action with
    | .revoke tid => grants.map fun g => if g.id = tid then { g with revoked := true } else g
    | _ => grants
  | _ => grants

/-- The table, and beside it what has been given out so far. -/
structure World (H : Type*) where
  db : Table H := []
  grants : List Grant := []

section Laws

variable {H : Type*} [DecidableEq H] (hash : Text → H) (w : World H) (call : Call)

def World.next : World H where
  db := (handle hash call w.db).2
  grants := record call w.grants (handle hash call w.db).1

/-- The call bears the token of this row, or revokes it. -/
def Concerns (tok : ApiToken H) : Prop :=
  (∃ raw, bearer call.authorization = some raw ∧ hash raw = tok.tokenHash) ∨ call.action = .revoke tok.id

/-- A token works exactly while it is valid, and no call changes another's. -/
structure Lawful : Prop where
  checked : ∀ raw, bearer call.authorization = some raw →
    ∃ o, (currentPrincipal hash call w.db).1 = .ok o ∧ ∀ p, o = some p ↔
      ∃ g ∈ w.grants, g.raw = raw ∧ g.revoked = false ∧ g.InTime call.us ∧ p = g.principal
  untouched : ∀ tok ∈ w.db, ¬ Concerns hash call tok → tok ∈ (w.next hash call).db

/-- A token that is borne, and has not been revoked, is borne for the first time, and in time. -/
def FirstUse : Prop :=
  ∀ raw, bearer call.authorization = some raw → ∀ g ∈ w.grants, g.raw = raw → g.revoked = false →
    g.InTime call.us ∧ ∀ tok ∈ w.db, tok.tokenHash = hash raw → tok.lastUsed = none

/-- The call bears the token, or asks for it. -/
def Call.Names (raw : Text) : Prop :=
  bearer call.authorization = some raw ∨ ∃ body, call.action = .createToken body raw

end Laws

section Rows

variable {H : Type*} {hash : Text → H} {S : Set Text} {db : Table H}
  {grants : List Grant} {tok : ApiToken H} {g : Grant} {call : Call} {p : Principal} {raw : Text}

/-- The row of a grant. No row says when it expires, and every stamp has lost its zone. -/
structure Row (hash : Text → H) (tok : ApiToken H) (g : Grant) : Prop where
  id : tok.id = g.id
  hash : tok.tokenHash = hash g.raw
  name : tok.name = g.name
  scopes : tok.scopes = g.scopes
  revoked : tok.revoked = g.revoked
  expires : tok.expires = none
  naive : ∀ d ∈ tok.lastUsed, d.aware = false

structure Agrees (hash : Text → H) (S : Set Text) (db : Table H) (grants : List Grant) : Prop where
  grantOf : ∀ tok ∈ db, ∃ g ∈ grants, Row hash tok g
  rowOf : ∀ g ∈ grants, ∃ tok ∈ db, Row hash tok g
  ids : (db.map ApiToken.id).Nodup
  bound : ∀ tok ∈ db, tok.id ≤ db.length
  hashes : (db.map ApiToken.tokenHash).Nodup
  raws : (grants.map Grant.raw).Nodup
  named : ∀ g ∈ grants, g.raw ∈ S

lemma agrees_nil : Agrees hash S [] [] where
  grantOf := by simp
  rowOf := by simp
  ids := List.nodup_nil
  bound := by simp
  hashes := List.nodup_nil
  raws := List.nodup_nil
  named := by simp

lemma Agrees.map (h : Agrees hash S db grants) {f : ApiToken H → ApiToken H} {k : Grant → Grant}
    (hid : ∀ tok, (f tok).id = tok.id) (hhash : ∀ tok, (f tok).tokenHash = tok.tokenHash)
    (hraw : ∀ g, (k g).raw = g.raw) (hrow : ∀ tok g, Row hash tok g → Row hash (f tok) (k g)) :
    Agrees hash S (db.map f) (grants.map k) where
  grantOf := by
    intro tok htok
    obtain ⟨t, ht, rfl⟩ := List.mem_map.mp htok
    obtain ⟨g, hg, hr⟩ := h.grantOf t ht
    exact ⟨k g, List.mem_map_of_mem hg, hrow t g hr⟩
  rowOf := by
    intro g' hg'
    obtain ⟨g, hg, rfl⟩ := List.mem_map.mp hg'
    obtain ⟨t, ht, hr⟩ := h.rowOf g hg
    exact ⟨f t, List.mem_map_of_mem ht, hrow t g hr⟩
  ids := by simpa [Function.comp_def, hid] using h.ids
  bound := by
    intro tok htok
    obtain ⟨t, ht, rfl⟩ := List.mem_map.mp htok
    rw [hid, List.length_map]
    exact h.bound t ht
  hashes := by simpa [Function.comp_def, hhash] using h.hashes
  raws := by simpa [Function.comp_def, hraw] using h.raws
  named := by
    intro g' hg'
    obtain ⟨g, hg, rfl⟩ := List.mem_map.mp hg'
    rw [hraw]
    exact h.named g hg

lemma Agrees.stamped (h : Agrees hash S db grants) (id : ℤ) (now : Datetime) :
    Agrees hash S (update db id (·.stamped now)) grants := by
  have hmap := h.map (f := fun tok => if tok.id = id then tok.stamped now else tok) (k := fun g => g)
    (by intro tok; split <;> rfl) (by intro tok; split <;> rfl) (fun _ => rfl) ?_
  · rwa [List.map_id'] at hmap
  · intro tok g hr
    split
    · refine { hr with naive := ?_ }
      intro d hd
      obtain rfl := Option.some.inj hd
      rfl
    · exact hr

lemma Agrees.revoked (h : Agrees hash S db grants) (tid : ℤ) :
    Agrees hash S (update db tid fun tok => { tok with revoked := true })
      (grants.map fun g => if g.id = tid then { g with revoked := true } else g) := by
  refine h.map ?_ ?_ ?_ ?_
  · intro tok
    split <;> rfl
  · intro tok
    split <;> rfl
  · intro g
    split <;> rfl
  · intro tok g hr
    rw [hr.id]
    split
    · exact { hr with revoked := rfl }
    · exact hr

lemma Agrees.minted (h : Agrees hash S db grants) (hraw : raw ∈ S)
    (hnew : ∀ tok ∈ db, tok.tokenHash ≠ hash raw) (hid : tok.id = db.length + 1)
    (hgraw : g.raw = raw) (hr : Row hash tok g) : Agrees hash S (db ++ [tok]) (grants ++ [g]) where
  grantOf := by
    intro t ht
    rcases List.mem_append.mp ht with ht | ht
    · obtain ⟨g', hg', hr'⟩ := h.grantOf t ht
      exact ⟨g', List.mem_append_left _ hg', hr'⟩
    · obtain rfl := List.mem_singleton.mp ht
      exact ⟨g, List.mem_append_right _ (List.mem_singleton_self g), hr⟩
  rowOf := by
    intro g' hg'
    rcases List.mem_append.mp hg' with hg' | hg'
    · obtain ⟨t, ht, hr'⟩ := h.rowOf g' hg'
      exact ⟨t, List.mem_append_left _ ht, hr'⟩
    · obtain rfl := List.mem_singleton.mp hg'
      exact ⟨tok, List.mem_append_right _ (List.mem_singleton_self tok), hr⟩
  ids := by
    rw [List.map_append, List.map_singleton, ← List.concat_eq_append]
    refine h.ids.concat ?_
    intro hmem
    obtain ⟨t, ht, heq⟩ := List.mem_map.mp hmem
    have := h.bound t ht
    omega
  bound := by
    intro t ht
    rw [List.length_append, List.length_singleton]
    rcases List.mem_append.mp ht with ht | ht
    · have := h.bound t ht
      omega
    · obtain rfl := List.mem_singleton.mp ht
      omega
  hashes := by
    rw [List.map_append, List.map_singleton, ← List.concat_eq_append]
    refine h.hashes.concat ?_
    intro hmem
    obtain ⟨t, ht, heq⟩ := List.mem_map.mp hmem
    apply hnew t ht
    rw [heq, hr.hash, hgraw]
  raws := by
    rw [List.map_append, List.map_singleton, ← List.concat_eq_append]
    refine h.raws.concat ?_
    intro hmem
    obtain ⟨g', hg', heq⟩ := List.mem_map.mp hmem
    obtain ⟨t, ht, hr'⟩ := h.rowOf g' hg'
    apply hnew t ht
    rw [hr'.hash, heq, hgraw]
  named := by
    intro g' hg'
    rcases List.mem_append.mp hg' with hg' | hg'
    · exact h.named g' hg'
    · obtain rfl := List.mem_singleton.mp hg'
      rwa [hgraw]

lemma mem_update {id : ℤ} {f : ApiToken H → ApiToken H} (h : tok ∈ db) (hne : tok.id ≠ id) :
    tok ∈ update db id f :=
  List.mem_map.mpr ⟨tok, h, if_neg hne⟩

variable [DecidableEq H]

lemma Agrees.find_row (h : Agrees hash S db grants) (hg : g ∈ grants) :
    ∃ tok ∈ db, Row hash tok g ∧ (db.find? fun t => t.tokenHash = hash g.raw) = some tok ∧
      ∀ t ∈ db, t.tokenHash = hash g.raw → t = tok := by
  obtain ⟨tok, htok, hr⟩ := h.rowOf g hg
  have honly : ∀ t ∈ db, t.tokenHash = hash g.raw → t = tok := fun t ht heq =>
    List.inj_on_of_nodup_map h.hashes ht htok (heq.trans hr.hash.symm)
  refine ⟨tok, htok, hr, ?_, honly⟩
  cases hfind : db.find? fun t => t.tokenHash = hash g.raw with
  | none =>
    have := List.find?_eq_none.mp hfind tok htok
    simp [hr.hash] at this
  | some t =>
    have heq := List.find?_some hfind
    rw [decide_eq_true_eq] at heq
    rw [honly t (List.mem_of_find?_eq_some hfind) heq]

lemma Agrees.find_none (h : Agrees hash S db grants) (hinj : Set.InjOn hash S) (hraw : raw ∈ S)
    (hnone : ∀ g ∈ grants, g.raw ≠ raw) : (db.find? fun t => t.tokenHash = hash raw) = none := by
  rw [List.find?_eq_none]
  intro tok htok heq
  rw [decide_eq_true_eq] at heq
  obtain ⟨g, hg, hr⟩ := h.grantOf tok htok
  exact hnone g hg (hinj (h.named g hg) hraw (hr.hash.symm.trans heq))

lemma fromBearer_row (hr : Row hash tok g) (us : ℤ)
    (hfind : (db.find? fun t => t.tokenHash = hash g.raw) = some tok) :
    fromBearer hash g.raw (utcnow us) db =
      if g.revoked = true then (.ok none, db)
      else
        match tok.lastUsed with
        | none => (.ok (some g.principal), update db tok.id (·.stamped (utcnow us)))
        | some _ => (.error .typeError, db) := by
  have hp : tok.principal = g.principal := by rw [ApiToken.principal, hr.name, hr.scopes, Grant.principal]
  rw [fromBearer, hfind]
  dsimp only
  rw [hr.revoked, ApiToken.expired, hr.expires]
  split
  · rfl
  · cases hlast : tok.lastUsed with
    | none =>
      rw [ApiToken.stale, hlast, hp]
      rfl
    | some d =>
      have hnaive := hr.naive d hlast
      rw [ApiToken.stale, hlast]
      simp [Datetime.sub, utcnow, hnaive, Except.map]

end Rows

/-! What a call does to the rows and to the grants. -/

section Steps

variable {H : Type*} [DecidableEq H] {hash : Text → H} {S : Set Text} {w : World H} {call : Call}
  {db : Table H} {grants : List Grant} {tok : ApiToken H} {p : Principal} {raw : Text}

lemma currentPrincipal_db (hash : Text → H) (call : Call) (db : Table H) :
    (currentPrincipal hash call db).2 = db ∨ ∃ raw tok, bearer call.authorization = some raw ∧
      (db.find? fun t => t.tokenHash = hash raw) = some tok ∧
      (currentPrincipal hash call db).2 = update db tok.id (·.stamped (utcnow call.us)) := by
  rw [currentPrincipal]
  split
  · next raw hraw =>
    rw [fromBearer]
    split
    · exact .inl rfl
    · next tok hfind =>
      split
      · exact .inl rfl
      · split
        · exact .inl rfl
        · exact .inl rfl
        · split
          · exact .inl rfl
          · exact .inr ⟨raw, tok, hraw, hfind, rfl⟩
          · exact .inl rfl
  · exact .inl rfl

lemma handle_cases (hash : Text → H) (call : Call) (db : Table H) :
    (∃ a, handle hash call db = (a, (currentPrincipal hash call db).2) ∧
        ∀ grants, record call grants a = grants) ∨
      ∃ p, handle hash call db = perform hash p call.us (currentPrincipal hash call db).2 call.action := by
  rw [handle]
  rcases currentPrincipal hash call db with ⟨_ | _ | p, db'⟩
  · exact .inl ⟨_, rfl, fun _ => rfl⟩
  · exact .inl ⟨_, rfl, fun _ => rfl⟩
  · exact .inr ⟨p, rfl⟩

lemma Agrees.check (h : Agrees hash S db grants) (call : Call) :
    Agrees hash S (currentPrincipal hash call db).2 grants := by
  rcases currentPrincipal_db hash call db with hdb | ⟨raw, tok, -, -, hdb⟩
  · rwa [hdb]
  · rw [hdb]
    exact h.stamped tok.id _

lemma Agrees.created (h : Agrees hash S db grants) {body : TokenIn} (hraw : raw ∈ S)
    (hact : call.action = .createToken body raw) :
    Agrees hash S (createToken hash p body raw call.us db).2
      (record call grants (createToken hash p body raw call.us db).1) := by
  rw [createToken]
  split
  · exact h
  · next hnew =>
    have hfresh : ∀ tok ∈ db, tok.tokenHash ≠ hash raw := by
      intro tok htok heq
      apply hnew
      rw [List.any_eq_true]
      exact ⟨tok, htok, decide_eq_true heq⟩
    dsimp only [record]
    rw [hact]
    exact h.minted hraw hfresh rfl rfl ⟨rfl, rfl, rfl, rfl, rfl, rfl, by simp⟩

lemma Agrees.perform (h : Agrees hash S db grants) (hnamed : ∀ raw, call.Names raw → raw ∈ S)
    (p : Principal) :
    Agrees hash S (Tokens.perform hash p call.us db call.action).2
      (record call grants (Tokens.perform hash p call.us db call.action).1) := by
  cases hact : call.action with
  | get => exact h
  | createToken body raw =>
    rw [Tokens.perform]
    split
    · exact h.created (hnamed raw (.inr ⟨body, hact⟩)) hact
    · exact h
  | revoke tid =>
    rw [Tokens.perform]
    split
    · rw [revokeToken]
      split
      · dsimp only [record]
        rw [hact]
        exact h.revoked tid
      · exact h
    · exact h

lemma Agrees.next (h : Agrees hash S w.db w.grants) (hnamed : ∀ raw, call.Names raw → raw ∈ S) :
    Agrees hash S (w.next hash call).db (w.next hash call).grants := by
  rw [World.next]
  rcases handle_cases hash call w.db with ⟨a, ha, hrec⟩ | ⟨p, hp⟩
  · rw [ha]
    dsimp only
    rw [hrec]
    exact h.check call
  · rw [hp]
    exact (h.check call).perform hnamed p

lemma mem_perform (h : tok ∈ db) (hne : call.action ≠ .revoke tok.id) :
    tok ∈ (perform hash p call.us db call.action).2 := by
  cases hact : call.action with
  | get => exact h
  | createToken body raw =>
    rw [perform]
    split
    · rw [createToken]
      split
      · exact h
      · exact List.mem_append_left _ h
    · exact h
  | revoke tid =>
    have hid : tok.id ≠ tid := by
      rintro rfl
      exact hne hact
    rw [perform]
    split
    · rw [revokeToken]
      split
      · exact mem_update h hid
      · exact h
    · exact h

lemma Agrees.untouched (h : Agrees hash S w.db w.grants) (htok : tok ∈ w.db)
    (hother : ¬ Concerns hash call tok) : tok ∈ (w.next hash call).db := by
  have hcheck : tok ∈ (currentPrincipal hash call w.db).2 := by
    rcases currentPrincipal_db hash call w.db with hdb | ⟨raw, t, hraw, hfind, hdb⟩
    · rwa [hdb]
    · rw [hdb]
      apply mem_update htok
      intro hid
      have heq := List.inj_on_of_nodup_map h.ids htok (List.mem_of_find?_eq_some hfind) hid
      subst heq
      have hhash := List.find?_some hfind
      rw [decide_eq_true_eq] at hhash
      exact hother (.inl ⟨raw, hraw, hhash.symm⟩)
  rw [World.next]
  rcases handle_cases hash call w.db with ⟨a, ha, -⟩ | ⟨p, hp⟩
  · rw [ha]
    exact hcheck
  · rw [hp]
    exact mem_perform hcheck fun hact => hother (.inr hact)

lemma Agrees.lawful_iff (h : Agrees hash S w.db w.grants) (hinj : Set.InjOn hash S)
    (hnamed : ∀ raw, call.Names raw → raw ∈ S) : Lawful hash w call ↔ FirstUse hash w call := by
  have hcheck {raw : Text} (hraw : bearer call.authorization = some raw) :
      currentPrincipal hash call w.db = fromBearer hash raw (utcnow call.us) w.db := by
    rw [currentPrincipal, hraw]
  have hunique {g g' : Grant} (hg : g ∈ w.grants) (hg' : g' ∈ w.grants) (heq : g'.raw = g.raw) :
      g' = g := List.inj_on_of_nodup_map h.raws hg' hg heq
  constructor
  · intro hl raw hraw g hg hgraw hvalid
    subst hgraw
    obtain ⟨tok, -, hr, hfind, honly⟩ := h.find_row hg
    obtain ⟨o, ho, hp⟩ := hl.checked _ hraw
    rw [hcheck hraw, fromBearer_row hr call.us hfind, if_neg (by simp [hvalid])] at ho
    cases hlast : tok.lastUsed with
    | some d =>
      rw [hlast] at ho
      cases ho
    | none =>
      rw [hlast] at ho
      obtain ⟨g', hg', heq, -, htime, -⟩ := (hp g.principal).mp (Except.ok.inj ho).symm
      rw [hunique hg hg' heq] at htime
      exact ⟨htime, fun t ht hhash => honly t ht hhash ▸ hlast⟩
  · intro hf
    refine ⟨?_, fun tok htok => h.untouched htok⟩
    intro raw hraw
    rw [hcheck hraw]
    by_cases hex : ∃ g ∈ w.grants, g.raw = raw
    · obtain ⟨g, hg, rfl⟩ := hex
      obtain ⟨tok, htok, hr, hfind, -⟩ := h.find_row hg
      rw [fromBearer_row hr call.us hfind]
      by_cases hrev : g.revoked = true
      · rw [if_pos hrev]
        refine ⟨none, rfl, fun p => ⟨nofun, ?_⟩⟩
        rintro ⟨g', hg', heq, hvalid, -⟩
        rw [hunique hg hg' heq, hrev] at hvalid
        cases hvalid
      · rw [if_neg hrev]
        rw [Bool.not_eq_true] at hrev
        obtain ⟨htime, hfirst⟩ := hf _ hraw g hg rfl hrev
        rw [hfirst tok htok hr.hash]
        refine ⟨some g.principal, rfl, fun p => ⟨?_, ?_⟩⟩
        · rintro ⟨rfl⟩
          exact ⟨g, hg, rfl, hrev, htime, rfl⟩
        · rintro ⟨g', hg', heq, -, -, rfl⟩
          rw [hunique hg hg' heq]
    · have hnone : ∀ g ∈ w.grants, g.raw ≠ raw := fun g hg heq => hex ⟨g, hg, heq⟩
      rw [fromBearer, h.find_none hinj (hnamed raw (.inl hraw)) hnone]
      refine ⟨none, rfl, fun p => ⟨nofun, ?_⟩⟩
      rintro ⟨g, hg, heq, -⟩
      exact absurd heq (hnone g hg)

end Steps

section Runs

variable {H : Type*} [DecidableEq H]

/-- In a run from an empty table a token works exactly while it is valid, if and only if none is borne
twice, or past its days, while it is not revoked. -/
theorem works_while_valid_iff (hash : Text → H) (calls : List Call)
    (hinj : Set.InjOn hash {raw | ∃ call ∈ calls, call.Names raw}) :
    Always (fun w call w' => w' = World.next hash w call) (Lawful hash) {} calls ↔
      Always (fun w call w' => w' = World.next hash w call) (FirstUse hash) {} calls := by
  have hkeep : ∀ w call w', Agrees hash {raw | ∃ call ∈ calls, call.Names raw} (World.db w) w.grants →
      call ∈ calls → w' = w.next hash call →
      Agrees hash {raw | ∃ call ∈ calls, call.Names raw} w'.db w'.grants := by
    rintro w call _ h hcall rfl
    exact h.next fun raw hraw => ⟨call, hcall, hraw⟩
  have hinv : Always (fun w call w' => w' = World.next hash w call) (fun w call =>
      Agrees hash {raw | ∃ call ∈ calls, call.Names raw} w.db w.grants ∧ call ∈ calls) {} calls := by
    apply Always.of_invariant hkeep agrees_nil
    apply Always.of_mem
    intro call hcall _
    exact hcall
  have hiff {w : World H} {call : Call}
      (h : Agrees hash {raw | ∃ call ∈ calls, call.Names raw} w.db w.grants ∧ call ∈ calls) :
      Lawful hash w call ↔ FirstUse hash w call :=
    h.1.lawful_iff hinj fun raw hraw => ⟨call, h.2, hraw⟩
  constructor
  · intro hl
    exact (hinv.and hl).mono fun w call h => (hiff h.1).mp h.2
  · intro hf
    exact (hinv.and hf).mono fun w call h => (hiff h.1).mpr h.2

end Runs

def root : Principal := { name := "root".toList, role := "admin".toList }

/-- A token for one day. -/
def mint : Call :=
  ⟨0, [], some root, .createToken ⟨"ci".toList, "read, write".toList, some 1⟩ "mrq_a".toList⟩

/-- A call that bears it. -/
def bears (us : ℤ) : Call := ⟨us, "Bearer mrq_a".toList, none, .get⟩

lemma bearer_bears (us : ℤ) : bearer (bears us).authorization = some "mrq_a".toList := by
  change bearer "Bearer mrq_a".toList = _
  decide

theorem works_while_valid_once :
    Always (fun w call w' => w' = World.next id w call) (Lawful id) {} [mint, bears 1000000] := by
  apply (works_while_valid_iff id [mint, bears 1000000] (Set.injOn_id _)).mpr
  refine always_next_cons.mpr ⟨?_, always_next_cons.mpr ⟨?_, trivial⟩⟩
  · intro raw hraw
    cases hraw
  · intro raw hraw
    obtain rfl := Option.some.inj ((bearer_bears 1000000).symm.trans hraw)
    decide +kernel

/-- The second use within its day: the stamp of the first has no zone. -/
theorem second_use_raises : ¬ Always (fun w call w' => w' = World.next id w call) (Lawful id) {}
    [mint, bears 1000000, bears 3600000000] := by
  intro h
  obtain ⟨-, h⟩ := always_next_cons.mp h
  obtain ⟨-, h⟩ := always_next_cons.mp h
  obtain ⟨o, ho, -⟩ := (always_next_cons.mp h).1.checked _ (bearer_bears 3600000000)
  have hraised : (currentPrincipal id (bears 3600000000)
      (World.next id (World.next id {} mint) (bears 1000000)).db).1 = .error .typeError := by
    decide +kernel
  rw [hraised] at ho
  cases ho

end Ledwall.Server.Tokens
