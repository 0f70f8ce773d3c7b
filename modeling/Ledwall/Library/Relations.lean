import Mathlib.Tactic

/-! Tables of rows by column name, and the statements of a migration that change them. -/

namespace Ledwall.Library.Relations

/-- A cell; a real is its bits. -/
inductive Value
  | null
  | integer (n : ℤ)
  | real (bits : BitVec 64)
  | text (s : List Char)
  | blob (b : List (BitVec 8))
  deriving DecidableEq

/-- A row is `null` at the columns that its table does not have. -/
abbrev Row := String → Value

abbrev Database := String → Option (List Row)

inductive SqlError
  | noTable
  | tableExists
  | notNull
  | unique
  deriving DecidableEq

abbrev Statement := Database → Except SqlError Database

/-- `=` in a condition: nothing equals `NULL`. -/
def sqlEq (a b : Value) : Bool := a ≠ .null ∧ a = b

def put (db : Database) (t : String) (rows : List Row) : Database :=
  Function.update db t (some rows)

/-- Statements one after the other, up to the first that fails. -/
def run : List Statement → Database → Except SqlError Database
  | [], db => .ok db
  | s :: ss, db =>
    match s db with
    | .ok db => run ss db
    | .error e => .error e

section Statements

variable (t : String) (c : String) (db : Database)

def createTable : Except SqlError Database :=
  match db t with
  | none => .ok (put db t [])
  | some _ => .error .tableExists

def dropTable : Except SqlError Database :=
  match db t with
  | none => .error .noTable
  | some _ => .ok (Function.update db t none)

def renameTable (t u : String) (db : Database) : Except SqlError Database :=
  match db t with
  | none => .error .noTable
  | some rows =>
    match db u with
    | none => .ok (put (Function.update db t none) u rows)
    | some _ => .error .tableExists

def rewrite (f : Row → Row) : Except SqlError Database :=
  match db t with
  | none => .error .noTable
  | some rows => .ok (put db t (rows.map f))

def addColumn (v : Value) (db : Database) : Except SqlError Database :=
  rewrite t db fun r => Function.update r c v

def dropColumn : Except SqlError Database := rewrite t db fun r => Function.update r c .null

def renameColumn (t c d : String) (db : Database) : Except SqlError Database :=
  rewrite t db fun r => Function.update (Function.update r d (r c)) c .null

/-- `UPDATE t SET c = e`, where the expression may ask other tables. -/
def updateSet (e : Database → Row → Value) (db : Database) : Except SqlError Database :=
  rewrite t db fun r => Function.update r c (e db r)

def deleteWhere (p : Database → Row → Bool) (db : Database) : Except SqlError Database :=
  match db t with
  | none => .error .noTable
  | some rows => .ok (put db t (rows.filter fun r => !p db r))

/-- A rebuild of the table whose column may not be `NULL`. -/
def notNull : Except SqlError Database :=
  match db t with
  | none => .error .noTable
  | some rows => if ∀ r ∈ rows, r c ≠ .null then .ok db else .error .notNull

def uniqueOn : Except SqlError Database :=
  match db t with
  | none => .error .noTable
  | some rows =>
    if ((rows.map (· c)).filter (· ≠ .null)).Nodup then .ok db else .error .unique

/-- `(SELECT c FROM t WHERE p)` in an expression: the first row's. -/
def scalar (p : Row → Bool) : Value := (((db t).getD []).find? p).elim .null (· c)

def Value.integer? : Value → Option ℤ
  | .integer n => some n
  | _ => none

def minOf (vs : List Value) : Value := (vs.filterMap Value.integer?).min?.elim .null .integer

/-- `(SELECT MIN(c) FROM t WHERE p)`, of a column of integers. -/
def scalarMin (p : Row → Bool) : Value := minOf ((((db t).getD []).filter p).map (· c))

end Statements

section Insertion

/-- The next value of an integer primary key. -/
def nextRowid (rows : List Row) : ℤ :=
  (rows.filterMap fun r => (r "id").integer?).max?.elim 1 (· + 1)

/-- Rows put in one by one behind those there: each gets the next id, has the columns required and
differs from all before it in the unique one. -/
def insertAll (required : List String) (unique : String) :
    List Row → List Row → Except SqlError (List Row)
  | rows, [] => .ok rows
  | rows, r :: rs =>
    if ∃ c ∈ required, r c = .null then .error .notNull
    else if ∃ q ∈ rows, sqlEq (q unique) (r unique) then .error .unique
    else insertAll required unique (rows ++ [Function.update r "id" (.integer (nextRowid rows))]) rs

/-- `INSERT INTO t SELECT ...` -/
def insertSelect (t : String) (required : List String) (unique : String) (q : Database → List Row)
    (db : Database) : Except SqlError Database :=
  match db t with
  | none => .error .noTable
  | some rows =>
    match insertAll required unique rows (q db) with
    | .ok rows => .ok (put db t rows)
    | .error e => .error e

/-- The rows inserted, numbered from `k` on. -/
def numbered (k : ℤ) : List Row → List Row
  | [] => []
  | r :: rs => Function.update r "id" (.integer k) :: numbered (k + 1) rs

end Insertion

section Lemmas

variable {t u c : String} {db db' : Database} {rows : List Row} {s : Statement} {ss : List Statement}

lemma run_cons (h : s db = .ok db') : run (s :: ss) db = run ss db' := by
  rw [run, h]

lemma run_append (ss' : List Statement) (h : run ss db = .ok db') :
    run (ss ++ ss') db = run ss' db' := by
  induction ss generalizing db with
  | nil =>
    cases h
    rfl
  | cons s ss ih =>
    rw [run] at h
    cases hs : s db with
    | ok mid =>
      rw [hs] at h
      rw [List.cons_append, run_cons hs]
      exact ih h
    | error e =>
      rw [hs] at h
      cases h

@[simp] lemma put_self (db : Database) (t : String) (rows : List Row) : put db t rows t = some rows :=
  Function.update_self _ _ _

@[simp] lemma put_put (rows rows' : List Row) : put (put db t rows) t rows' = put db t rows' :=
  Function.update_idem _ _ _

lemma sqlEq_iff {a b : Value} : sqlEq a b = true ↔ a ≠ .null ∧ a = b := by
  rw [sqlEq, decide_eq_true_eq]

lemma rewrite_ok (f : Row → Row) (h : db t = some rows) :
    rewrite t db f = .ok (put db t (rows.map f)) := by
  rw [rewrite, h]

lemma deleteWhere_none {p : Database → Row → Bool} (h : db t = some rows)
    (hp : ∀ r ∈ rows, p db r = false) : deleteWhere t p db = .ok (put db t rows) := by
  have hkept : rows.filter (fun r => !p db r) = rows := by
    apply List.filter_eq_self.mpr
    intro r hr
    rw [hp r hr]
    rfl
  rw [deleteWhere, h]
  exact congrArg (fun kept => Except.ok (put db t kept)) hkept

lemma notNull_ok (h : db t = some rows) (hc : ∀ r ∈ rows, r c ≠ .null) : notNull t c db = .ok db := by
  rw [notNull, h]
  exact if_pos hc

lemma uniqueOn_ok (h : db t = some rows) (hc : (rows.map (· c)).Nodup) : uniqueOn t c db = .ok db := by
  rw [uniqueOn, h]
  exact if_pos (hc.filter _)

lemma find?_unique {p : Row → Bool} {r : Row} (hr : r ∈ rows) (hp : p r = true)
    (h : ∀ q ∈ rows, p q = true → q = r) : rows.find? p = some r := by
  obtain ⟨q, hq⟩ := Option.isSome_iff_exists.mp (List.find?_isSome.mpr ⟨r, hr, hp⟩)
  rw [hq, h q (List.mem_of_find?_eq_some hq) (List.find?_some hq)]

lemma minOf_const {vs : List Value} {n : ℤ} (hne : vs ≠ []) (h : ∀ v ∈ vs, v = .integer n) :
    minOf vs = .integer n := by
  have hvs : vs = List.replicate vs.length (.integer n) := List.eq_replicate_iff.mpr ⟨rfl, h⟩
  obtain ⟨k, hk⟩ : ∃ k, vs.length = k + 1 := Nat.exists_eq_succ_of_ne_zero (by simpa using hne)
  rw [hvs, hk, minOf, List.filterMap_replicate]
  simp [Value.integer?]

lemma mem_numbered {k : ℤ} {w : Row} (h : w ∈ numbered k rows) :
    ∃ r ∈ rows, ∃ j, k ≤ j ∧ w = Function.update r "id" (.integer j) := by
  induction rows generalizing k with
  | nil => cases h
  | cons r rows ih =>
    rcases List.mem_cons.mp h with rfl | h
    · exact ⟨r, List.mem_cons_self, k, le_refl k, rfl⟩
    · obtain ⟨r', hr', j, hj, rfl⟩ := ih h
      exact ⟨r', List.mem_cons_of_mem _ hr', j, by omega, rfl⟩

lemma exists_numbered (k : ℤ) {r : Row} (h : r ∈ rows) :
    ∃ j, Function.update r "id" (.integer j) ∈ numbered k rows := by
  induction rows generalizing k with
  | nil => cases h
  | cons q rows ih =>
    rcases List.mem_cons.mp h with rfl | h
    · exact ⟨k, List.mem_cons_self⟩
    · obtain ⟨j, hj⟩ := ih (k + 1) h
      exact ⟨j, List.mem_cons_of_mem _ hj⟩

lemma map_numbered {c : String} (hc : c ≠ "id") (k : ℤ) :
    (numbered k rows).map (· c) = rows.map (· c) := by
  induction rows generalizing k with
  | nil => rfl
  | cons r rows ih =>
    rw [numbered, List.map_cons, List.map_cons, ih, Function.update_of_ne hc]

lemma numbered_inj {k : ℤ} {v w : Row} (hv : v ∈ numbered k rows) (hw : w ∈ numbered k rows)
    (h : v "id" = w "id") : v = w := by
  induction rows generalizing k with
  | nil => cases hv
  | cons r rows ih =>
    have hlater {u : Row} (hu : u ∈ numbered (k + 1) rows) : u "id" ≠ .integer k := by
      obtain ⟨r', -, j, hj, rfl⟩ := mem_numbered hu
      rw [Function.update_self]
      intro heq
      have := Value.integer.inj heq
      omega
    have hfirst : Function.update r "id" (Value.integer k) "id" = .integer k :=
      Function.update_self _ _ _
    rcases List.mem_cons.mp hv with rfl | hv <;> rcases List.mem_cons.mp hw with rfl | hw
    · rfl
    · exact absurd (h.symm.trans hfirst) (hlater hw)
    · exact absurd (h.trans hfirst) (hlater hv)
    · exact ih hv hw

lemma nextRowid_snoc (rows : List Row) (r : Row) :
    nextRowid (rows ++ [Function.update r "id" (.integer (nextRowid rows))]) = nextRowid rows + 1 := by
  obtain ⟨ids, hids⟩ : ∃ ids, rows.filterMap (fun r => (r "id").integer?) = ids := ⟨_, rfl⟩
  have hnext : nextRowid rows = ids.max?.elim 1 (· + 1) := by rw [nextRowid, hids]
  have hlast : (rows ++ [Function.update r "id" (.integer (nextRowid rows))]).filterMap
      (fun r => (r "id").integer?) = ids ++ [nextRowid rows] := by
    rw [List.filterMap_append, hids]
    simp [Value.integer?]
  rw [nextRowid, hlast, hnext]
  cases hmax : ids.max? with
  | none =>
    rw [List.max?_eq_none_iff.mp hmax]
    rfl
  | some m =>
    have hfull : (ids ++ [m + 1]).max? = some (m + 1) := by
      obtain ⟨-, hle⟩ := List.max?_eq_some_iff.mp hmax
      refine List.max?_eq_some_iff.mpr ⟨List.mem_append_right _ (List.mem_singleton_self _), ?_⟩
      intro n hn
      rcases List.mem_append.mp hn with hn | hn
      · have := hle n hn
        omega
      · exact (List.mem_singleton.mp hn).le
    rw [Option.elim_some, hfull]
    rfl

lemma insertAll_ok {required : List String} {unique : String} {rs : List Row} (hid : unique ≠ "id")
    (hreq : ∀ r ∈ rs, ∀ c ∈ required, r c ≠ .null)
    (hnodup : ((rows ++ rs).map (· unique)).Nodup) :
    insertAll required unique rows rs = .ok (rows ++ numbered (nextRowid rows) rs) := by
  induction rs generalizing rows with
  | nil => rw [insertAll, numbered, List.append_nil]
  | cons r rs ih =>
    have hnew : ¬ ∃ q ∈ rows, sqlEq (q unique) (r unique) = true := by
      rintro ⟨q, hq, heq⟩
      rw [List.map_append, List.nodup_append] at hnodup
      exact hnodup.2.2 _ (List.mem_map_of_mem hq) _ (List.mem_map_of_mem List.mem_cons_self)
        (sqlEq_iff.mp heq).2
    rw [insertAll, if_neg, if_neg hnew, ih]
    · rw [nextRowid_snoc, numbered, List.append_assoc]
      rfl
    · exact fun q hq => hreq q (List.mem_cons_of_mem _ hq)
    · simpa [Function.update_of_ne hid] using hnodup
    · rintro ⟨c, hc, hnull⟩
      exact hreq r List.mem_cons_self c hc hnull

end Lemmas

end Ledwall.Library.Relations
