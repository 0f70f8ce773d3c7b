import Ledwall.Library.Relations

/-! The migration from panels to walls of cards, and back. -/

namespace Ledwall.Server.Migration

open Ledwall.Library.Relations

def panelColumns : List String :=
  ["id", "name", "host", "port", "mac", "width", "height", "layout_yaml", "firmware", "enabled",
    "packet_delay", "state", "last_seen", "last_error", "notes", "created", "mode", "program"]

def assignmentColumns : List String := ["id", "panel_id", "show_id"]

def scheduleColumns : List String :=
  ["id", "panel_id", "show_id", "name", "start_min", "end_min", "days", "priority", "enabled"]

def statColumns : List String :=
  ["id", "panel_id", "at", "reachable", "isr_count", "refresh_count", "bitmap_frames", "dma_pixels",
    "dma_chunks", "mac_overflow", "mac_crc_errors", "fps", "refresh_hz", "rebooted"]

/-- The rows have no other columns. -/
def Within (columns : List String) (rows : List Row) : Prop :=
  ∀ r ∈ rows, ∀ c, c ∉ columns → r c = .null

/-- A database at the revision before, as its constraints leave it, in which every assignment and
schedule points to a panel. -/
structure PanelsDatabase where
  tables : Database
  panels : List Row
  assignments : List Row
  schedules : List Row
  stats : List Row
  panels_eq : tables "panels" = some panels
  assignments_eq : tables "assignments" = some assignments
  schedules_eq : tables "schedules" = some schedules
  stats_eq : tables "panel_stats" = some stats
  walls_eq : tables "walls" = none
  cards_eq : tables "cards" = none
  cardStats_eq : tables "card_stats" = none
  panels_within : Within panelColumns panels
  assignments_within : Within assignmentColumns assignments
  schedules_within : Within scheduleColumns schedules
  stats_within : Within statColumns stats
  ids : ∀ p ∈ panels, ∃ n, p "id" = .integer n
  ids_nodup : (panels.map (· "id")).Nodup
  required : ∀ p ∈ panels, ∀ c ∈ ["name", "width", "height", "enabled"], p c ≠ .null
  names_nodup : (panels.map (· "name")).Nodup
  assignments_nodup : (assignments.map (· "panel_id")).Nodup
  assigned : ∀ a ∈ assignments, ∃ p ∈ panels, a "panel_id" = p "id"
  scheduled : ∀ s ∈ schedules, ∃ p ∈ panels, s "panel_id" = p "id"

/-- `SELECT name, width, height, enabled, notes, created` -/
def wallOf (p : Row) : Row := fun c =>
  if c ∈ ["name", "width", "height", "enabled", "notes", "created"] then p c else .null

/-- The first half of `upgrade`. Foreign keys and indexes change no row. -/
def cardsFromPanels : List Statement :=
  [createTable "walls",
    renameTable "panels" "cards",
    addColumn "cards" "wall_id" .null,
    addColumn "cards" "x" (.integer 0),
    addColumn "cards" "y" (.integer 0),
    insertSelect "walls" ["name", "width", "height", "enabled"] "name" fun db =>
      ((db "cards").getD []).map wallOf,
    updateSet "cards" "wall_id" fun db r =>
      scalar "walls" "id" db fun w => sqlEq (w "name") (r "name"),
    updateSet "cards" "x" fun _ _ => .integer 0,
    updateSet "cards" "y" fun _ _ => .integer 0,
    notNull "cards" "wall_id"]

/-- The loop over assignments and schedules. -/
def toWalls (t : String) : List Statement :=
  [addColumn t "wall_id" .null,
    updateSet t "wall_id" fun db r =>
      scalar "cards" "wall_id" db fun c => sqlEq (c "id") (r "panel_id"),
    deleteWhere t fun _ r => r "wall_id" = .null,
    notNull t "wall_id",
    dropColumn t "panel_id"]

def upgrade : List Statement :=
  cardsFromPanels ++ (toWalls "assignments" ++ (toWalls "schedules" ++
    [uniqueOn "assignments" "wall_id",
      renameTable "panel_stats" "card_stats",
      renameColumn "card_stats" "panel_id" "card_id"]))

/-- The loop over assignments and schedules. -/
def toPanels (t : String) : List Statement :=
  [addColumn t "panel_id" .null,
    updateSet t "panel_id" fun db r =>
      scalarMin "cards" "id" db fun c => sqlEq (c "wall_id") (r "wall_id"),
    deleteWhere t fun _ r => r "panel_id" = .null,
    dropColumn t "wall_id"]

/-- `SELECT MIN(id) FROM cards GROUP BY wall_id` -/
def firstIds (cards : List Row) : List Value :=
  cards.map fun d => minOf ((cards.filter fun c => c "wall_id" = d "wall_id").map (· "id"))

def downgrade : List Statement :=
  [renameColumn "card_stats" "card_id" "panel_id",
    renameTable "card_stats" "panel_stats"] ++ (toPanels "assignments" ++ (toPanels "schedules" ++
    [deleteWhere "cards" fun db c => c "id" ∉ firstIds ((db "cards").getD []),
      dropColumn "cards" "wall_id",
      dropColumn "cards" "x",
      dropColumn "cards" "y",
      renameTable "cards" "panels",
      dropTable "walls"]))

namespace PanelsDatabase

variable (d : PanelsDatabase)

/-- Wall `w` and card `c` stand for panel `p`. -/
structure Stands (walls cards : List Row) (p w c : Row) : Prop where
  wall : w ∈ walls
  same : ∀ col ∈ ["name", "width", "height", "enabled"], w col = p col
  card : c ∈ cards
  held : c "wall_id" = w "id"
  origin : c "x" = .integer 0 ∧ c "y" = .integer 0
  kept : ∀ col ∈ panelColumns, c col = p col

/-- A row that pointed to a panel points to the wall of that panel, and is the same otherwise. -/
def Follows (columns : List String) (walls cards : List Row) (r r' : Row) : Prop :=
  (∃ p ∈ d.panels, ∃ w c, Stands walls cards p w c ∧ r "panel_id" = p "id" ∧
    r' "wall_id" = w "id") ∧ ∀ col ∈ columns, col ≠ "panel_id" → r' col = r col

/-- A statistics row of a panel is one of the panel's card, and is the same otherwise. -/
def Counts (walls cards : List Row) (r r' : Row) : Prop :=
  r' "card_id" = r "panel_id" ∧ (∀ p ∈ d.panels, r "panel_id" = p "id" →
    ∃ w c, Stands walls cards p w c ∧ r' "card_id" = c "id") ∧
    ∀ col ∈ statColumns, col ≠ "panel_id" → r' col = r col

/-- What `upgrade` makes of the database. -/
structure Upgraded (up : Database) (walls cards : List Row) : Prop where
  walls_eq : up "walls" = some walls
  cards_eq : up "cards" = some cards
  gone : up "panels" = none ∧ up "panel_stats" = none
  lengths : walls.length = d.panels.length ∧ cards.length = d.panels.length
  one_each : ∀ p ∈ d.panels, ∃ w c, Stands walls cards p w c ∧
    (∀ w' ∈ walls, w' "name" = p "name" → w' = w) ∧ ∀ c' ∈ cards, c' "wall_id" = w "id" → c' = c
  assignments : ∃ rows, up "assignments" = some rows ∧
    List.Forall₂ (d.Follows assignmentColumns walls cards) d.assignments rows
  schedules : ∃ rows, up "schedules" = some rows ∧
    List.Forall₂ (d.Follows scheduleColumns walls cards) d.schedules rows
  stats : ∃ rows, up "card_stats" = some rows ∧ List.Forall₂ (d.Counts walls cards) d.stats rows
  others : ∀ t, t ∉ ["panels", "walls", "cards", "assignments", "schedules", "panel_stats",
    "card_stats"] → up t = d.tables t

/-- The tables that the migration touches. -/
inductive TableName
  | panels
  | walls
  | cards
  | assignments
  | schedules
  | panelStats
  | cardStats
  deriving DecidableEq

def TableName.name : TableName → String
  | .panels => "panels"
  | .walls => "walls"
  | .cards => "cards"
  | .assignments => "assignments"
  | .schedules => "schedules"
  | .panelStats => "panel_stats"
  | .cardStats => "card_stats"

def TableName.all : List TableName :=
  [.panels, .walls, .cards, .assignments, .schedules, .panelStats, .cardStats]

/-- The database with these tables and the rest of another. -/
def spread (base : Database) (x : TableName → Option (List Row)) : Database := fun t =>
  (TableName.all.find? fun n => n.name = t).elim (base t) x

def before : TableName → Option (List Row)
  | .panels => some d.panels
  | .assignments => some d.assignments
  | .schedules => some d.schedules
  | .panelStats => some d.stats
  | _ => none

def walls : List Row := numbered 1 (d.panels.map wallOf)

def wallId (p : Row) : Value :=
  (d.walls.find? fun w => sqlEq (w "name") (p "name")).elim .null (· "id")

def cardOf (p : Row) : Row :=
  Function.update (Function.update (Function.update p "wall_id" (d.wallId p)) "x" (.integer 0)) "y"
    (.integer 0)

def cards : List Row := d.panels.map d.cardOf

def followed (r : Row) : Row :=
  Function.update (Function.update r "wall_id"
    ((d.cards.find? fun c => sqlEq (c "id") (r "panel_id")).elim .null (· "wall_id")))
    "panel_id" .null

def statOf (r : Row) : Row :=
  Function.update (Function.update r "card_id" (r "panel_id")) "panel_id" .null

def afterwards : TableName → Option (List Row)
  | .walls => some d.walls
  | .cards => some d.cards
  | .assignments => some (d.assignments.map d.followed)
  | .schedules => some (d.schedules.map d.followed)
  | .cardStats => some (d.stats.map statOf)
  | _ => none

section Spread

variable {b : Database} {x : TableName → Option (List Row)} {l : List Row} {n m : TableName}
  {c : String}

lemma find_name (n : TableName) : (TableName.all.find? fun m => m.name = n.name) = some n := by
  cases n <;> decide

lemma name_injective : Function.Injective TableName.name := by
  intro n m h
  have hfind := find_name n
  rw [h, find_name m] at hfind
  exact (Option.some.inj hfind).symm

lemma spread_name (n : TableName) : spread b x n.name = x n := by
  rw [spread, find_name, Option.elim_some]

lemma spread_other {t : String} (h : ∀ n : TableName, n.name ≠ t) : spread b x t = b t := by
  rw [spread, List.find?_eq_none.mpr fun n _ => by simpa using h n, Option.elim_none]

lemma update_spread (n : TableName) (v : Option (List Row)) :
    Function.update (spread b x) n.name v = spread b (Function.update x n v) := by
  funext t
  by_cases ht : ∃ m : TableName, m.name = t
  · obtain ⟨m, rfl⟩ := ht
    rw [spread_name]
    by_cases hm : m = n
    · rw [hm, Function.update_self, Function.update_self]
    · rw [Function.update_of_ne (name_injective.ne hm), Function.update_of_ne hm, spread_name]
  · push Not at ht
    rw [Function.update_of_ne (ht n).symm, spread_other ht, spread_other ht]

lemma put_spread (n : TableName) (l : List Row) :
    put (spread b x) n.name l = spread b (Function.update x n (some l)) :=
  update_spread n (some l)

lemma createTable_spread (h : x n = none) :
    createTable n.name (spread b x) = .ok (spread b (Function.update x n (some []))) := by
  rw [createTable, spread_name, h, ← put_spread]

lemma dropTable_spread (h : x n = some l) :
    dropTable n.name (spread b x) = .ok (spread b (Function.update x n none)) := by
  rw [dropTable, spread_name, h, ← update_spread]

lemma renameTable_spread (h : x n = some l) (h' : x m = none) :
    renameTable n.name m.name (spread b x) =
      .ok (spread b (Function.update (Function.update x n none) m (some l))) := by
  rw [renameTable, spread_name, spread_name, h, h', ← put_spread, ← update_spread]

lemma addColumn_spread (c : String) (v : Value) (h : x n = some l) :
    addColumn n.name c v (spread b x) =
      .ok (spread b (Function.update x n (some (l.map fun r => Function.update r c v)))) := by
  rw [addColumn, rewrite_ok _ ((spread_name n).trans h), put_spread]

lemma dropColumn_spread (c : String) (h : x n = some l) :
    dropColumn n.name c (spread b x) =
      .ok (spread b (Function.update x n (some (l.map fun r => Function.update r c .null)))) := by
  rw [dropColumn, rewrite_ok _ ((spread_name n).trans h), put_spread]

lemma renameColumn_spread (c e : String) (h : x n = some l) :
    renameColumn n.name c e (spread b x) =
      .ok (spread b (Function.update x n (some (l.map fun r =>
        Function.update (Function.update r e (r c)) c .null)))) := by
  rw [renameColumn, rewrite_ok _ ((spread_name n).trans h), put_spread]

lemma updateSet_spread (c : String) (e : Database → Row → Value) {f g : Row → Row}
    (h : x n = some (l.map g))
    (hf : ∀ r ∈ l, Function.update (g r) c (e (spread b x) (g r)) = f r) :
    updateSet n.name c e (spread b x) =
      .ok (spread b (Function.update x n (some (l.map f)))) := by
  rw [updateSet, rewrite_ok _ ((spread_name n).trans h), put_spread, List.map_map,
    ← List.map_congr_left hf]
  rfl

lemma deleteWhere_spread {p : Database → Row → Bool} (h : x n = some l)
    (hp : ∀ r ∈ l, p (spread b x) r = false) :
    deleteWhere n.name p (spread b x) = .ok (spread b x) := by
  rw [deleteWhere_none ((spread_name n).trans h) hp, put_spread, ← h, Function.update_eq_self]

lemma notNull_spread (h : x n = some l) (hc : ∀ r ∈ l, r c ≠ .null) :
    notNull n.name c (spread b x) = .ok (spread b x) :=
  notNull_ok ((spread_name n).trans h) hc

lemma insertSelect_spread {required : List String} {unique : String} {q : Database → List Row}
    (h : x n = some []) (hid : unique ≠ "id")
    (hreq : ∀ r ∈ q (spread b x), ∀ c ∈ required, r c ≠ .null)
    (hnodup : ((q (spread b x)).map (· unique)).Nodup) :
    insertSelect n.name required unique q (spread b x) =
      .ok (spread b (Function.update x n (some (numbered 1 (q (spread b x)))))) := by
  rw [insertSelect, spread_name, h]
  dsimp only
  rw [insertAll_ok hid hreq (by simpa using hnodup), List.nil_append]
  exact congrArg Except.ok (put_spread n _)

end Spread

lemma spread_before : spread d.tables d.before = d.tables := by
  funext t
  by_cases ht : ∃ n : TableName, n.name = t
  · obtain ⟨n, rfl⟩ := ht
    rw [spread_name]
    cases n with
    | panels => exact d.panels_eq.symm
    | walls => exact d.walls_eq.symm
    | cards => exact d.cards_eq.symm
    | assignments => exact d.assignments_eq.symm
    | schedules => exact d.schedules_eq.symm
    | panelStats => exact d.stats_eq.symm
    | cardStats => exact d.cardStats_eq.symm
  · push Not at ht
    exact spread_other ht

section Standing

variable {p q r w w' : Row} {col : String}

lemma wallOf_apply (h : col ∈ ["name", "width", "height", "enabled", "notes", "created"]) :
    wallOf p col = p col :=
  if_pos h

lemma wallOf_required (hp : p ∈ d.panels) (h : col ∈ ["name", "width", "height", "enabled"]) :
    wallOf p col = p col ∧ wallOf p col ≠ .null := by
  have hread : wallOf p col = p col := by
    apply wallOf_apply
    simp only [List.mem_cons, List.not_mem_nil, or_false] at h ⊢
    tauto
  exact ⟨hread, hread.trans_ne (d.required p hp col h)⟩

lemma wallOf_names : (d.panels.map wallOf).map (· "name") = d.panels.map (· "name") := by
  rw [List.map_map]
  exact List.map_congr_left fun p _ => wallOf_apply (by decide)

lemma walls_names : d.walls.map (· "name") = d.panels.map (· "name") := by
  rw [walls, map_numbered (by decide), wallOf_names]

lemma walls_unique (hw : w ∈ d.walls) (hw' : w' ∈ d.walls) (h : w "name" = w' "name") : w = w' :=
  List.inj_on_of_nodup_map (d.walls_names ▸ d.names_nodup) hw hw' h

lemma exists_wall (hp : p ∈ d.panels) : ∃ w ∈ d.walls, w "id" = d.wallId p ∧ w "id" ≠ .null ∧
    ∀ col ∈ ["name", "width", "height", "enabled"], w col = p col := by
  obtain ⟨j, hj⟩ := exists_numbered 1 (List.mem_map_of_mem (f := wallOf) hp)
  have hread : ∀ col ∈ ["name", "width", "height", "enabled"],
      Function.update (wallOf p) "id" (Value.integer j) col = p col := by
    intro col hcol
    have hid : col ≠ "id" := by
      rintro rfl
      exact absurd hcol (by decide)
    rw [Function.update_of_ne hid]
    exact (d.wallOf_required hp hcol).1
  have hname := hread "name" (by decide)
  have hfind : (d.walls.find? fun w => sqlEq (w "name") (p "name")) =
      some (Function.update (wallOf p) "id" (Value.integer j)) := by
    apply find?_unique hj
    · exact sqlEq_iff.mpr ⟨hname ▸ d.required p hp _ (by decide), hname⟩
    · intro w hw h
      exact d.walls_unique hw hj ((sqlEq_iff.mp h).2.trans hname.symm)
  refine ⟨_, hj, ?_, ?_, hread⟩
  · rw [wallId, hfind, Option.elim_some]
  · rw [Function.update_self]
    exact Value.noConfusion

lemma wallId_ne_null (hp : p ∈ d.panels) : d.wallId p ≠ .null := by
  obtain ⟨w, -, hid, hne, -⟩ := d.exists_wall hp
  exact hid ▸ hne

lemma wallId_injective (hp : p ∈ d.panels) (hq : q ∈ d.panels) (h : d.wallId p = d.wallId q) :
    p = q := by
  obtain ⟨v, hv, hvid, -, hvp⟩ := d.exists_wall hp
  obtain ⟨w, hw, hwid, -, hwq⟩ := d.exists_wall hq
  have hsame : v = w := numbered_inj hv hw (hvid.trans (h.trans hwid.symm))
  have hname : p "name" = q "name" := by
    rw [← hvp _ (by decide), ← hwq _ (by decide), hsame]
  exact List.inj_on_of_nodup_map d.names_nodup hp hq hname

lemma cardOf_wall (p : Row) : d.cardOf p "wall_id" = d.wallId p := rfl

lemma cardOf_kept (h : col ∈ panelColumns) : d.cardOf p col = p col := by
  have hnew : col ≠ "wall_id" ∧ col ≠ "x" ∧ col ≠ "y" := by
    refine ⟨?_, ?_, ?_⟩ <;> rintro rfl <;> exact absurd h (by decide)
  rw [cardOf, Function.update_of_ne hnew.2.2, Function.update_of_ne hnew.2.1,
    Function.update_of_ne hnew.1]

@[simp] lemma cardOf_id (p : Row) : d.cardOf p "id" = p "id" := d.cardOf_kept (by decide)

lemma id_ne_null (hp : p ∈ d.panels) : p "id" ≠ .null := by
  obtain ⟨n, hn⟩ := d.ids p hp
  rw [hn]
  exact Value.noConfusion

lemma cards_find (hp : p ∈ d.panels) :
    (d.cards.find? fun c => sqlEq (c "id") (p "id")) = some (d.cardOf p) := by
  apply find?_unique (List.mem_map_of_mem hp)
  · rw [cardOf_id]
    exact sqlEq_iff.mpr ⟨d.id_ne_null hp, rfl⟩
  · intro c hc h
    obtain ⟨q, hq, rfl⟩ := List.mem_map.mp hc
    exact congrArg d.cardOf (List.inj_on_of_nodup_map d.ids_nodup hq hp (sqlEq_iff.mp h).2)

lemma followed_wall (hp : p ∈ d.panels) (h : r "panel_id" = p "id") :
    d.followed r "wall_id" = d.wallId p := by
  rw [followed, Function.update_of_ne (by decide), Function.update_self, h, d.cards_find hp]
  rfl

lemma cards_of_wall (hp : p ∈ d.panels) {c : Row} (hc : c ∈ d.cards)
    (h : c "wall_id" = d.wallId p) : c = d.cardOf p := by
  obtain ⟨q, hq, rfl⟩ := List.mem_map.mp hc
  exact congrArg d.cardOf (d.wallId_injective hq hp h)

lemma stands (hp : p ∈ d.panels) :
    ∃ w, Stands d.walls d.cards p w (d.cardOf p) ∧ w "id" = d.wallId p := by
  obtain ⟨w, hw, hid, -, hsame⟩ := d.exists_wall hp
  exact ⟨w, ⟨hw, hsame, List.mem_map_of_mem hp, hid.symm, ⟨rfl, rfl⟩, fun _ => d.cardOf_kept⟩, hid⟩

end Standing

section Runs

variable {b : Database} {x : TableName → Option (List Row)} {l : List Row} {n : TableName}

lemma scalar_spread (c : String) (p : Row → Bool) (h : x n = some l) :
    scalar n.name c (spread b x) p = (l.find? p).elim .null (· c) := by
  rw [scalar, spread_name, h, Option.getD_some]

lemma scalarMin_spread (c : String) (p : Row → Bool) (h : x n = some l) :
    scalarMin n.name c (spread b x) p = minOf ((l.filter p).map (· c)) := by
  rw [scalarMin, spread_name, h, Option.getD_some]

/-- A row with its wall, before its panel goes. -/
def walled (r : Row) : Row :=
  Function.update r "wall_id"
    ((d.cards.find? fun c => sqlEq (c "id") (r "panel_id")).elim .null (· "wall_id"))

lemma toWalls_run (hn : x n = some l) (hcards : x .cards = some d.cards) (hne : n ≠ .cards)
    (hrows : ∀ r ∈ l, ∃ p ∈ d.panels, r "panel_id" = p "id") :
    run (toWalls n.name) (spread b x) =
      .ok (spread b (Function.update x n (some (l.map d.followed)))) := by
  have hwall : ∀ r ∈ l.map d.walled, r "wall_id" ≠ .null := by
    intro r hr
    obtain ⟨q, hq, rfl⟩ := List.mem_map.mp hr
    obtain ⟨p, hp, h⟩ := hrows q hq
    have hfollowed := d.followed_wall hp h
    rw [followed, Function.update_of_ne (by decide)] at hfollowed
    exact hfollowed.trans_ne (d.wallId_ne_null hp)
  refine (run_cons (addColumn_spread "wall_id" .null hn)).trans ?_
  refine (run_cons (updateSet_spread "wall_id" _ (f := d.walled) (Function.update_self _ _ _)
    fun r _ => ?_)).trans ?_
  · rw [walled, Function.update_idem]
    exact congrArg (Function.update r "wall_id")
      (scalar_spread (n := .cards) _ _ ((Function.update_of_ne hne.symm _ _).trans hcards))
  rw [Function.update_idem]
  have hself := Function.update_self n (some (l.map d.walled)) x
  refine (run_cons (deleteWhere_spread hself fun r hr => decide_eq_false (hwall r hr))).trans ?_
  refine (run_cons (notNull_spread hself hwall)).trans ?_
  refine (run_cons (dropColumn_spread "panel_id" hself)).trans ?_
  rw [Function.update_idem, List.map_map]
  rfl

lemma min_of_wall {p : Row} (hp : p ∈ d.panels) {q : Row → Bool}
    (hq : ∀ c, q c = true ↔ c "wall_id" = d.wallId p) :
    minOf ((d.cards.filter q).map (· "id")) = p "id" := by
  obtain ⟨j, hj⟩ := d.ids p hp
  rw [hj]
  apply minOf_const
  · have hcard : d.cardOf p ∈ d.cards.filter q :=
      List.mem_filter.mpr ⟨List.mem_map_of_mem hp, (hq _).mpr (d.cardOf_wall p)⟩
    exact List.ne_nil_of_mem (List.mem_map_of_mem hcard)
  · intro v hv
    obtain ⟨c, hc, rfl⟩ := List.mem_map.mp hv
    obtain ⟨hc, hwall⟩ := List.mem_filter.mp hc
    rw [d.cards_of_wall hp hc ((hq c).mp hwall), cardOf_id, hj]

lemma mem_firstIds {c : Row} (hc : c ∈ d.cards) : c "id" ∈ firstIds d.cards := by
  obtain ⟨p, hp, rfl⟩ := List.mem_map.mp hc
  have hmin := d.min_of_wall hp (q := fun c => c "wall_id" = d.cardOf p "wall_id")
    fun c => decide_eq_true_iff
  rw [cardOf_id, ← hmin]
  exact List.mem_map_of_mem hc

lemma rejoined (r : Row) : Function.update (d.followed r) "panel_id" (r "panel_id") =
    Function.update r "wall_id" (d.followed r "wall_id") := by
  rw [followed, Function.update_idem]
  exact Function.update_eq_self "panel_id" (Function.update r "wall_id" _)

lemma toPanels_run {columns : List String} (hn : x n = some (l.map d.followed))
    (hcards : x .cards = some d.cards) (hne : n ≠ .cards)
    (hrows : ∀ r ∈ l, ∃ p ∈ d.panels, r "panel_id" = p "id") (hwithin : Within columns l)
    (hwall : "wall_id" ∉ columns) :
    run (toPanels n.name) (spread b x) =
      .ok (spread b (Function.update x n (some l))) := by
  let joined := fun r : Row => Function.update r "wall_id" (d.followed r "wall_id")
  have hpanel : ∀ r ∈ l.map joined, r "panel_id" ≠ .null := by
    intro r hr
    obtain ⟨q, hq, rfl⟩ := List.mem_map.mp hr
    obtain ⟨p, hp, h⟩ := hrows q hq
    exact (Function.update_of_ne (by decide) _ _).trans_ne (h.trans_ne (d.id_ne_null hp))
  refine (run_cons (addColumn_spread "panel_id" .null hn)).trans ?_
  rw [List.map_map]
  refine (run_cons (updateSet_spread "panel_id" _ (f := joined) (Function.update_self _ _ _)
    fun r hr => ?_)).trans ?_
  · obtain ⟨p, hp, h⟩ := hrows r hr
    have hmin : minOf ((d.cards.filter fun c => sqlEq (c "wall_id") (d.followed r "wall_id")).map
        (· "id")) = r "panel_id" := by
      rw [h]
      apply d.min_of_wall hp
      intro c
      rw [sqlEq_iff, d.followed_wall hp h]
      exact ⟨And.right, fun heq => ⟨heq.trans_ne (d.wallId_ne_null hp), heq⟩⟩
    refine (congrArg (Function.update _ "panel_id") ((scalarMin_spread (n := .cards) _ _
      ((Function.update_of_ne hne.symm _ _).trans hcards)).trans hmin)).trans ?_
    exact (Function.update_idem _ _ _).trans (d.rejoined r)
  rw [Function.update_idem]
  have hself := Function.update_self n (some (l.map joined)) x
  refine (run_cons (deleteWhere_spread hself fun r hr => decide_eq_false (hpanel r hr))).trans ?_
  refine (run_cons (dropColumn_spread "wall_id" hself)).trans ?_
  have hback : ∀ r ∈ l, Function.update (joined r) "wall_id" .null = r := by
    intro r hr
    rw [Function.update_idem, ← hwithin r hr _ hwall, Function.update_eq_self]
  have hmap : l.map ((fun r => Function.update r "wall_id" .null) ∘ joined) = l :=
    (List.map_congr_left hback).trans (List.map_id l)
  rw [Function.update_idem, List.map_map, hmap]
  rfl

/-- A panel's row when the columns of a card are added. -/
def placed (p : Row) : Row :=
  Function.update (Function.update (Function.update p "wall_id" .null) "x" (.integer 0)) "y"
    (.integer 0)

lemma wallOf_placed (p : Row) : wallOf (placed p) = wallOf p := by
  funext col
  by_cases hcol : col ∈ ["name", "width", "height", "enabled", "notes", "created"]
  · have hnew : col ≠ "wall_id" ∧ col ≠ "x" ∧ col ≠ "y" := by
      refine ⟨?_, ?_, ?_⟩ <;> rintro rfl <;> exact absurd hcol (by decide)
    rw [wallOf_apply hcol, wallOf_apply hcol, placed, Function.update_of_ne hnew.2.2,
      Function.update_of_ne hnew.2.1, Function.update_of_ne hnew.1]
  · rw [wallOf, if_neg hcol, wallOf, if_neg hcol]

lemma cardOf_placed (p : Row) : Function.update (Function.update (Function.update (placed p)
    "wall_id" (d.wallId p)) "x" (.integer 0)) "y" (.integer 0) = d.cardOf p := by
  funext col
  simp only [cardOf, placed, Function.update_apply]
  split_ifs <;> rfl

lemma cardOf_run (hwalls : x .walls = some d.walls)
    (hcards : x .cards = some (d.panels.map placed)) :
    run (cardsFromPanels.drop 6) (spread b x) =
      .ok (spread b (Function.update x .cards (some d.cards))) := by
  refine (run_cons (updateSet_spread (n := .cards) "wall_id" _
    (f := fun p => Function.update (placed p) "wall_id" (d.wallId p)) hcards
    fun p _ => ?_)).trans ?_
  · exact congrArg (Function.update (placed p) "wall_id") (scalar_spread (n := .walls) _ _ hwalls)
  refine (run_cons (updateSet_spread (n := .cards) "x" _ (Function.update_self _ _ _)
    fun p _ => rfl)).trans ?_
  refine (run_cons (updateSet_spread (n := .cards) "y" _ (f := d.cardOf)
    (Function.update_self _ _ _) fun p _ => d.cardOf_placed p)).trans ?_
  rw [Function.update_idem, Function.update_idem]
  refine (run_cons (notNull_spread (n := .cards) (Function.update_self _ _ _)
    fun c hc => ?_)).trans ?_
  · obtain ⟨p, hp, rfl⟩ := List.mem_map.mp hc
    exact d.wallId_ne_null hp
  rfl

/-- The tables when cards have taken the panels' place. -/
def carded : TableName → Option (List Row)
  | .panels => none
  | .walls => some d.walls
  | .cards => some d.cards
  | n => d.before n

lemma cardsFromPanels_run :
    run cardsFromPanels (spread b d.before) = .ok (spread b d.carded) := by
  refine (run_cons (createTable_spread (n := .walls) rfl)).trans ?_
  refine (run_cons (renameTable_spread (n := .panels) (m := .cards) (l := d.panels) rfl
    rfl)).trans ?_
  refine (run_cons (addColumn_spread (n := .cards) "wall_id" .null
    (Function.update_self _ _ _))).trans ?_
  refine (run_cons (addColumn_spread (n := .cards) "x" (.integer 0)
    (Function.update_self _ _ _))).trans ?_
  refine (run_cons (addColumn_spread (n := .cards) "y" (.integer 0)
    (Function.update_self _ _ _))).trans ?_
  rw [Function.update_idem, Function.update_idem, Function.update_idem, List.map_map, List.map_map]
  let y : TableName → Option (List Row) := Function.update (Function.update (Function.update
    d.before .walls (some [])) .panels none) .cards (some (d.panels.map placed))
  change run _ (spread b y) = _
  have hselect : ((spread b y "cards").getD []).map wallOf = d.panels.map wallOf := by
    have hcards : spread b y "cards" = some (d.panels.map placed) :=
      spread_name (b := b) (x := y) .cards
    rw [hcards, Option.getD_some, List.map_map]
    exact List.map_congr_left fun p _ => wallOf_placed p
  refine (run_cons (insertSelect_spread (n := .walls) rfl (by decide) ?_ ?_)).trans ?_
  · intro r hr col hcol
    rw [hselect] at hr
    obtain ⟨p, hp, rfl⟩ := List.mem_map.mp hr
    exact (d.wallOf_required hp hcol).2
  · rw [hselect, wallOf_names]
    exact d.names_nodup
  rw [hselect]
  refine (d.cardOf_run (Function.update_self _ _ _)
    (Function.update_of_ne (by decide) _ _)).trans ?_
  refine congrArg (fun x => Except.ok (spread b x)) (funext fun n => ?_)
  cases n <;> rfl

lemma assigned_walls : ((d.assignments.map d.followed).map (· "wall_id")).Nodup := by
  rw [List.map_map]
  refine List.Nodup.map_on ?_ (List.Nodup.of_map _ d.assignments_nodup)
  intro a ha b hb h
  obtain ⟨p, hp, hap⟩ := d.assigned a ha
  obtain ⟨q, hq, hbq⟩ := d.assigned b hb
  have hwalls : d.wallId p = d.wallId q :=
    (d.followed_wall hp hap).symm.trans (h.trans (d.followed_wall hq hbq))
  have hsame : a "panel_id" = b "panel_id" := by
    rw [hap, hbq, d.wallId_injective hp hq hwalls]
  exact List.inj_on_of_nodup_map d.assignments_nodup ha hb hsame

lemma upgrade_run : run upgrade (spread b d.before) = .ok (spread b d.afterwards) := by
  refine (run_append _ d.cardsFromPanels_run).trans ?_
  refine (run_append _ (d.toWalls_run (n := .assignments) rfl rfl (by decide) d.assigned)).trans ?_
  refine (run_append _ (d.toWalls_run (n := .schedules) rfl rfl (by decide) d.scheduled)).trans ?_
  refine (run_cons (uniqueOn_ok (spread_name .assignments) d.assigned_walls)).trans ?_
  refine (run_cons (renameTable_spread (n := .panelStats) (m := .cardStats) (l := d.stats) rfl
    rfl)).trans ?_
  refine (run_cons (renameColumn_spread (n := .cardStats) "panel_id" "card_id"
    (Function.update_self _ _ _))).trans ?_
  refine congrArg (fun x => Except.ok (spread b x)) (funext fun n => ?_)
  cases n <;> rfl

lemma panels_back : ((d.cards.map (Function.update · "wall_id" .null)).map
    (Function.update · "x" .null)).map (Function.update · "y" .null) = d.panels := by
  rw [cards, List.map_map, List.map_map, List.map_map]
  refine (List.map_congr_left fun p hp => funext fun col => ?_).trans (List.map_id d.panels)
  have hwithin := d.panels_within p hp
  simp only [Function.comp_apply, cardOf, Function.update_apply, id]
  split_ifs with hy hx hw
  · rw [hy, hwithin "y" (by decide)]
  · rw [hx, hwithin "x" (by decide)]
  · rw [hw, hwithin "wall_id" (by decide)]
  · rfl

lemma stats_back : (d.stats.map statOf).map (fun r =>
    Function.update (Function.update r "panel_id" (r "card_id")) "card_id" .null) = d.stats := by
  rw [List.map_map]
  refine (List.map_congr_left fun r hr => funext fun col => ?_).trans (List.map_id d.stats)
  simp only [Function.comp_apply, statOf, Function.update_apply, id]
  split_ifs with hcard hpanel heq
  · rw [hcard, d.stats_within r hr "card_id" (by decide)]
  · exact absurd heq (by decide)
  · rw [hpanel]
  · rfl

lemma downgrade_run : run downgrade (spread b d.afterwards) = .ok (spread b d.before) := by
  refine (run_cons (renameColumn_spread (n := .cardStats) "card_id" "panel_id"
    (l := d.stats.map statOf) rfl)).trans ?_
  refine (run_cons (renameTable_spread (n := .cardStats) (m := .panelStats)
    (Function.update_self _ _ _) rfl)).trans ?_
  refine (run_append _ (d.toPanels_run (n := .assignments) rfl rfl (by decide) d.assigned
    d.assignments_within (by decide))).trans ?_
  refine (run_append _ (d.toPanels_run (n := .schedules) rfl rfl (by decide) d.scheduled
    d.schedules_within (by decide))).trans ?_
  refine (run_cons (deleteWhere_spread (n := .cards) (l := d.cards) rfl fun c hc => ?_)).trans ?_
  · have hcards : ∀ x : TableName → Option (List Row), x .cards = some d.cards →
        (spread b x "cards").getD [] = d.cards := by
      intro x hx
      rw [show "cards" = TableName.cards.name from rfl, spread_name, hx, Option.getD_some]
    rw [hcards _ rfl]
    exact decide_eq_false (not_not_intro (d.mem_firstIds hc))
  refine (run_cons (dropColumn_spread (n := .cards) "wall_id" (l := d.cards) rfl)).trans ?_
  refine (run_cons (dropColumn_spread (n := .cards) "x" (Function.update_self _ _ _))).trans ?_
  refine (run_cons (dropColumn_spread (n := .cards) "y" (Function.update_self _ _ _))).trans ?_
  refine (run_cons (renameTable_spread (n := .cards) (m := .panels) (Function.update_self _ _ _)
    rfl)).trans ?_
  refine (run_cons (dropTable_spread (n := .walls) (l := d.walls) rfl)).trans ?_
  refine congrArg (fun x => Except.ok (spread b x)) (funext fun n => ?_)
  cases n with
  | panels => exact congrArg some d.panels_back
  | panelStats => exact congrArg some d.stats_back
  | _ => rfl

end Runs

section Meaning

lemma follows {columns : List String} (r : Row) (hr : ∃ p ∈ d.panels, r "panel_id" = p "id")
    (hwall : "wall_id" ∉ columns) : d.Follows columns d.walls d.cards r (d.followed r) := by
  obtain ⟨p, hp, h⟩ := hr
  obtain ⟨w, hstands, hid⟩ := d.stands hp
  refine ⟨⟨p, hp, w, d.cardOf p, hstands, h, (d.followed_wall hp h).trans hid.symm⟩, ?_⟩
  intro col hcol hpanel
  have hne : col ≠ "wall_id" := by
    rintro rfl
    exact hwall hcol
  rw [followed, Function.update_of_ne hpanel, Function.update_of_ne hne]

lemma counts (r : Row) : d.Counts d.walls d.cards r (statOf r) := by
  refine ⟨rfl, ?_, ?_⟩
  · intro p hp h
    obtain ⟨w, hstands, -⟩ := d.stands hp
    exact ⟨w, d.cardOf p, hstands, h.trans (d.cardOf_id p).symm⟩
  · intro col hcol hpanel
    have hne : col ≠ "card_id" := by
      rintro rfl
      exact absurd hcol (by decide)
    rw [statOf, Function.update_of_ne hpanel, Function.update_of_ne hne]

lemma forall₂_map {S : Row → Row → Prop} {f : Row → Row} {rows : List Row}
    (h : ∀ r ∈ rows, S r (f r)) : List.Forall₂ S rows (rows.map f) := by
  rw [List.forall₂_map_right_iff, List.forall₂_same]
  exact h

lemma upgraded : d.Upgraded (spread d.tables d.afterwards) d.walls d.cards where
  walls_eq := spread_name .walls
  cards_eq := spread_name .cards
  gone := ⟨spread_name .panels, spread_name .panelStats⟩
  lengths := by
    have hwalls := congrArg List.length d.walls_names
    rw [List.length_map, List.length_map] at hwalls
    exact ⟨hwalls, List.length_map _⟩
  one_each := by
    intro p hp
    obtain ⟨w, hstands, hid⟩ := d.stands hp
    refine ⟨w, d.cardOf p, hstands, ?_, fun c hc h => d.cards_of_wall hp hc (h.trans hid)⟩
    intro w' hw' h
    exact d.walls_unique hw' hstands.wall (h.trans (hstands.same _ (by decide)).symm)
  assignments := ⟨_, spread_name .assignments,
    forall₂_map fun r hr => d.follows r (d.assigned r hr) (by decide)⟩
  schedules := ⟨_, spread_name .schedules,
    forall₂_map fun r hr => d.follows r (d.scheduled r hr) (by decide)⟩
  stats := ⟨_, spread_name .cardStats, forall₂_map fun r _ => d.counts r⟩
  others := by
    intro t ht
    apply spread_other
    rintro n rfl
    cases n <;> exact ht (by decide)

end Meaning

/-- The migration runs through, loses nothing, and is undone by the way back. -/
theorem upgrade_undone (d : PanelsDatabase) : ∃ up walls cards, run upgrade d.tables = .ok up ∧
    d.Upgraded up walls cards ∧ run downgrade up = .ok d.tables := by
  have hup := d.upgrade_run (b := d.tables)
  have hdown := d.downgrade_run (b := d.tables)
  rw [spread_before] at hup hdown
  exact ⟨_, d.walls, d.cards, hup, d.upgraded, hdown⟩

/-- There are such databases: a panel that shows something. -/
example : ∃ d : PanelsDatabase, d.panels.length = 1 ∧ d.assignments.length = 1 := by
  let panel : Row := fun c => if c ∈ panelColumns then .integer 1 else .null
  let assignment : Row := fun c => if c ∈ assignmentColumns then .integer 1 else .null
  let tables : Database := fun t =>
    if t = "panels" then some [panel] else if t = "assignments" then some [assignment]
    else if t ∈ ["schedules", "panel_stats"] then some [] else none
  have hpanel : ∀ c, c ∉ panelColumns → panel c = .null := fun c hc => if_neg hc
  have hassignment : ∀ c, c ∉ assignmentColumns → assignment c = .null := fun c hc => if_neg hc
  refine ⟨{ tables, panels := [panel], assignments := [assignment], schedules := [], stats := []
            panels_eq := rfl, assignments_eq := rfl, schedules_eq := rfl, stats_eq := rfl
            walls_eq := rfl, cards_eq := rfl, cardStats_eq := rfl
            panels_within := by simpa [Within] using hpanel
            assignments_within := by simpa [Within] using hassignment
            schedules_within := by simp [Within]
            stats_within := by simp [Within]
            ids := by simp [panel, panelColumns]
            ids_nodup := List.nodup_singleton _
            required := by simp [panel, panelColumns]
            names_nodup := List.nodup_singleton _
            assignments_nodup := List.nodup_singleton _
            assigned := by simp [panel, assignment, panelColumns, assignmentColumns]
            scheduled := by simp }, rfl, rfl⟩

end PanelsDatabase

end Ledwall.Server.Migration
