import Ledwall.Library.Traversals
import Ledwall.Server.LiveData

/-! The table layer: one row for each entry of a list in the live cache. -/

namespace Ledwall.Server.Live

open Ledwall.Library.Traversals
open Ledwall.Server.Rendering (Dim Text)

inductive Align
  | left
  | center
  | right

inductive VAlign
  | top
  | middle
  | bottom

inductive Scroll
  | none
  | left
  | auto

structure RowColumn where
  field : Text
  w : Dim
  size : Option ℕ
  color : Option Text
  font : Option Text
  align : Align
  valign : VAlign
  scroll : Scroll
  speed : ℚ

/-- A layer, with the box it has on the wall. -/
structure RowsLayer where
  address : Text
  width : ℕ
  height : ℕ
  columns : List RowColumn
  rowHeight : ℕ
  colGap : ℕ
  limit : Option ℕ
  size : ℕ
  color : Text
  font : Option Text

/-- `_Cell` -/
structure Cell where
  w : ℤ
  h : ℕ
  text : Text
  size : ℕ
  color : Text
  font : Option Text
  align : Align
  valign : VAlign
  scroll : Scroll
  speed : ℚ

/-- What the layer calls: the character tables, the arithmetic of a box edge that is no pixel count,
the host's texts of a value, and `_text`, which may raise. -/
structure Host (Tile : Type) where
  digits : Digits
  ofFrac : ℚ → ℕ → ℤ
  ofText : Text → ℕ → Except Raised ℤ
  general : Floating → Text
  str : Json → Text
  text : Cell → Except Raised Tile

/-- A cell's place in the layer's image, and what is pasted there. -/
structure Pasted (Tile : Type) where
  x : ℤ
  y : ℕ
  tile : Tile

/-- `_FAIL` -/
def noValue : Text := ['—']

/-- A column, and where it starts and how wide it is. -/
structure Span where
  column : RowColumn
  x : ℤ
  w : ℤ

/-- A cell to draw: its row, the rows' number, and its column. -/
structure Slot where
  row : Json
  r : ℕ
  span : Span

section Drawing

variable {Tile : Type} (host : Host Tile) (layer : RowsLayer)

/-- `_dim` -/
def Host.dim (span : ℕ) : Dim → Except Raised ℤ
  | .px n => .ok n
  | .frac f => .ok (host.ofFrac f span)
  | .text t => host.ofText t span

/-- The columns from the left, each behind the one before and the gap. -/
def RowsLayer.spans (x : ℤ) : List RowColumn → Except Raised (List Span)
  | [] => .ok []
  | col :: cols => do
    let w ← host.dim layer.width col.w
    let rest ← RowsLayer.spans (x + w + layer.colGap) cols
    .ok (⟨col, x, w⟩ :: rest)

/-- How many rows are drawn: those that fit, and no more than the limit. -/
def RowsLayer.count (rows : List Json) : ℕ :=
  let fits := if layer.rowHeight = 0 then 0 else layer.height / layer.rowHeight
  match layer.limit with
  | none => min rows.length fits
  | some limit => min (min rows.length fits) limit

/-- The columns that start inside the box and have a width, cut off at its edge. -/
def RowsLayer.visible (spans : List Span) : List Span :=
  (spans.filter fun span => span.x < (layer.width : ℤ) ∧ 0 < span.w).map fun span =>
    { span with w := min span.w (layer.width - span.x) }

def RowsLayer.slots (rows : List Json) (spans : List Span) : List Slot :=
  (rows.take (layer.count rows)).zipIdx.flatMap fun row =>
    (layer.visible spans).map fun span => ⟨row.1, row.2, span⟩

/-- The text of a value, the glyph of none for `null`. -/
def Host.cellText : Json → Text
  | .null => noValue
  | .bool b => if b then "yes".toList else "no".toList
  | .float x => host.general x
  | v => host.str v

def RowsLayer.cell (span : Span) (text : Text) : Cell where
  w := span.w
  h := layer.rowHeight
  text := text
  size := span.column.size.getD layer.size
  color := span.column.color.getD layer.color
  font := span.column.font <|> layer.font
  align := span.column.align
  valign := span.column.valign
  scroll := span.column.scroll
  speed := span.column.speed

/-- What a field reads from a row: a row that is no dict is its own value. -/
def Host.value (field : Text) (row : Json) : Except Raised Json :=
  match row with
  | .dict _ => dig host.digits (segments field) row
  | _ => .ok row

def RowsLayer.drawCell (slot : Slot) : Except Raised (Pasted Tile) := do
  let value ← host.value slot.span.column.field slot.row
  let tile ← host.text (layer.cell slot.span (host.cellText value))
  .ok ⟨slot.span.x, slot.r * layer.rowHeight, tile⟩

/-- `_rows`: the cells pasted on the empty image, in order. -/
def RowsLayer.draw (live : Option LiveState) : Except Raised (List (Pasted Tile)) := do
  let rows ← dataSeries host.digits live layer.address
  if rows.isEmpty then .ok []
  else
    let spans ← layer.spans host 0 layer.columns
    (layer.slots rows spans).mapM (layer.drawCell host)

end Drawing

section Meaning

variable {Tile : Type} (host : Host Tile) (layer : RowsLayer)

/-- What a field names in a row. -/
def Host.named (field : Text) (row : Json) : Json :=
  match row with
  | .dict _ => found host.digits row (segments field)
  | _ => row

/-- The cell of a slot: of what its field names, the glyph of no value when that is nothing. -/
def RowsLayer.cellOf (slot : Slot) : Cell :=
  layer.cell slot.span (host.cellText (host.named slot.span.column.field slot.row))

/-- A slot's own cell, where it belongs. -/
def RowsLayer.Shows (slot : Slot) (pasted : Pasted Tile) : Prop :=
  pasted.x = slot.span.x ∧ pasted.y = slot.r * layer.rowHeight ∧
    host.text (layer.cellOf host slot) = .ok pasted.tile

/-- The layer is drawn, and in it each cell of the table, in its place. -/
def RowsLayer.DrawsTable (live : Option LiveState) : Prop :=
  ∃ pasted, layer.draw host live = .ok pasted ∧
    ∀ spans, layer.spans host 0 layer.columns = .ok spans →
      List.Forall₂ (layer.Shows host)
        (layer.slots (seriesAt host.digits live layer.address) spans) pasted

/-- A cell that the layer gets drawn: the walker can take its field in its row, when that is a dict,
and `_text` takes its text. -/
def RowsLayer.Drawable (slot : Slot) : Prop :=
  (∀ members, slot.row = .dict members →
    Walks host.digits slot.row (segments slot.span.column.field)) ∧
  ∃ tile, host.text (layer.cellOf host slot) = .ok tile

/-- The address is one the walker can take, and where it names any rows, the columns have widths and
every cell is drawable. -/
def RowsLayer.TableDrawable (live : Option LiveState) : Prop :=
  AddressWalks host.digits live layer.address ∧
  (seriesAt host.digits live layer.address ≠ [] →
    ∃ spans, layer.spans host 0 layer.columns = .ok spans ∧
      ∀ slot ∈ layer.slots (seriesAt host.digits live layer.address) spans, layer.Drawable host slot)

end Meaning

section Tables

variable {Tile : Type} {host : Host Tile} {layer : RowsLayer} {slot : Slot} {pasted : Pasted Tile}

lemma value_spec (host : Host Tile) (field : Text) (row : Json) :
    ((∀ members, row = .dict members → Walks host.digits row (segments field)) ∧
        host.value field row = .ok (host.named field row)) ∨
      ((∃ members, row = .dict members ∧ ¬ Walks host.digits row (segments field)) ∧
        ∃ e, host.value field row = .error e) := by
  cases row with
  | dict members =>
    rcases dig_spec host.digits (segments field) (.dict members) with ⟨hw, hd⟩ | ⟨hw, hd⟩
    · exact .inl ⟨fun _ _ => hw, hd⟩
    · exact .inr ⟨⟨members, rfl, hw⟩, hd⟩
  | null | bool | int | float | str | list =>
    refine .inl ⟨?_, rfl⟩
    intro members h
    cases h

lemma drawCell_spec (host : Host Tile) (layer : RowsLayer) (slot : Slot) :
    (layer.Drawable host slot ∧ ∃ p, layer.drawCell host slot = .ok p ∧ layer.Shows host slot p) ∨
      (¬ layer.Drawable host slot ∧ ∃ e, layer.drawCell host slot = .error e) := by
  rcases value_spec host slot.span.column.field slot.row with ⟨hw, hv⟩ | ⟨⟨members, hrow, hw⟩, e, hv⟩
  · have hdraw : layer.drawCell host slot = (host.text (layer.cellOf host slot)).bind fun tile =>
        .ok ⟨slot.span.x, slot.r * layer.rowHeight, tile⟩ := by
      simp [RowsLayer.drawCell, hv, bind, Except.bind, RowsLayer.cellOf]
    cases ht : host.text (layer.cellOf host slot) with
    | ok tile =>
      rw [hdraw, ht]
      exact .inl ⟨⟨hw, tile, ht⟩, _, rfl, rfl, rfl, ht⟩
    | error e =>
      rw [hdraw, ht]
      refine .inr ⟨?_, e, rfl⟩
      rintro ⟨-, tile, htile⟩
      rw [ht] at htile
      cases htile
  · refine .inr ⟨fun h => hw (h.1 members hrow), e, ?_⟩
    simp [RowsLayer.drawCell, hv, bind, Except.bind]

lemma drawCell_shows (h : layer.drawCell host slot = .ok pasted) : layer.Shows host slot pasted := by
  rcases drawCell_spec host layer slot with ⟨-, p, hp, hs⟩ | ⟨-, e, he⟩
  · rw [hp] at h
    exact Except.ok.inj h ▸ hs
  · rw [he] at h
    cases h

lemma drawCell_returns_iff :
    (∃ p, layer.drawCell host slot = .ok p) ↔ layer.Drawable host slot := by
  rcases drawCell_spec host layer slot with ⟨hd, p, hp, -⟩ | ⟨hd, e, he⟩
  · exact ⟨fun _ => hd, fun _ => ⟨p, hp⟩⟩
  · refine ⟨?_, fun h => absurd h hd⟩
    rintro ⟨p, hp⟩
    rw [he] at hp
    cases hp

@[simp] lemma slots_nil (spans : List Span) : layer.slots [] spans = [] := by
  simp [RowsLayer.slots]

lemma draw_of_walks {live : Option LiveState} (h : AddressWalks host.digits live layer.address) :
    layer.draw host live =
      if (seriesAt host.digits live layer.address).isEmpty then .ok []
      else (layer.spans host 0 layer.columns).bind fun spans =>
        (layer.slots (seriesAt host.digits live layer.address) spans).mapM (layer.drawCell host) := by
  rw [RowsLayer.draw, dataSeries_eq_iff.mpr h]
  rfl

lemma walks_of_draw {live : Option LiveState} {tiles : List (Pasted Tile)}
    (h : layer.draw host live = .ok tiles) : AddressWalks host.digits live layer.address := by
  rcases dataSeries_spec host.digits live layer.address with ⟨hw, -⟩ | ⟨-, e, he⟩
  · exact hw
  · rw [RowsLayer.draw, he] at h
    cases h

/-- The layer is drawn when the table is drawable, and then it shows the table. -/
theorem drawsTable_iff (host : Host Tile) (layer : RowsLayer) (live : Option LiveState) :
    layer.DrawsTable host live ↔ layer.TableDrawable host live := by
  constructor
  · rintro ⟨tiles, hdraw, -⟩
    have hw := walks_of_draw hdraw
    refine ⟨hw, ?_⟩
    intro hrows
    rw [draw_of_walks hw, if_neg (by simpa using hrows)] at hdraw
    cases hs : layer.spans host 0 layer.columns with
    | error e =>
      rw [hs] at hdraw
      cases hdraw
    | ok spans =>
      rw [hs] at hdraw
      refine ⟨spans, rfl, ?_⟩
      intro slot hslot
      exact drawCell_returns_iff.mp (exists_mapM_iff.mp ⟨tiles, hdraw⟩ slot hslot)
  · rintro ⟨hw, hcells⟩
    by_cases hrows : seriesAt host.digits live layer.address = []
    · refine ⟨[], by rw [draw_of_walks hw, hrows]; rfl, ?_⟩
      intro spans _
      rw [hrows, slots_nil]
      exact .nil
    · obtain ⟨spans, hs, hslots⟩ := hcells hrows
      obtain ⟨tiles, htiles⟩ := exists_mapM_iff.mpr fun slot hslot =>
        drawCell_returns_iff.mpr (hslots slot hslot)
      refine ⟨tiles, ?_, ?_⟩
      · rw [draw_of_walks hw, if_neg (by simpa using hrows), hs]
        exact htiles
      · intro spans' hs'
        rw [hs] at hs'
        cases hs'
        exact (mapM_returns_iff.mp htiles).imp fun _ _ h => drawCell_shows h

/-- When an address reads the list it names, and when a layer draws its table. -/
theorem live_reads_iff (host : Host Tile) (layer : RowsLayer) (live : Option LiveState) (arg : Text) :
    (dataSeries host.digits live arg = .ok (seriesAt host.digits live arg) ↔
      AddressWalks host.digits live arg) ∧
    (layer.DrawsTable host live ↔ layer.TableDrawable host live) :=
  ⟨dataSeries_eq_iff, drawsTable_iff host layer live⟩

end Tables

/-- A host with the digits of ASCII, which prints the texts of a payload and draws every cell as it is
handed over. -/
def plainHost : Host Cell where
  digits := ⟨Char.isDigit, fun c => if c.isDigit then some (c.toNat - 48) else none⟩
  ofFrac f span := ⌊f * span⌋
  ofText _ _ := .error .value
  general _ := noValue
  str
    | .str s => s
    | _ => noValue
  text := .ok

/-- Two departures, the second with a text where the first has its train. -/
def departures : LiveState := fun topic =>
  if topic = "board".toList then
    some (.dict [("trains".toList, .list [
      .dict [("train".toList, .dict [("to".toList, .str "Harlem".toList)])],
      .dict [("train".toList, .str "cancelled".toList)]])])
  else none

def trainBoard : RowsLayer where
  address := "board|trains".toList
  width := 64
  height := 32
  columns := [⟨"train.to".toList, .px 64, none, none, none, .left, .middle, .none, 30⟩]
  rowHeight := 14
  colGap := 2
  limit := none
  size := 12
  color := "#ffffff".toList
  font := none

/-- The second departure takes the whole board down, and an address one segment too long raises. -/
theorem departures_not_drawn :
    dataSeries plainHost.digits (some departures) "board|trains.0.train.to.city".toList =
      .error .attribute ∧
    trainBoard.draw plainHost (some departures) = .error .attribute ∧
    (¬ ∀ live arg, dataSeries plainHost.digits live arg = .ok (seriesAt plainHost.digits live arg)) ∧
    ¬ ∀ live, trainBoard.DrawsTable plainHost live := by
  have hread : dataSeries plainHost.digits (some departures) "board|trains.0.train.to.city".toList =
      .error .attribute := by rfl
  have hdraw : trainBoard.draw plainHost (some departures) = .error .attribute := by rfl
  refine ⟨hread, hdraw, ?_, ?_⟩
  · intro h
    rw [h] at hread
    cases hread
  · intro h
    obtain ⟨pasted, hp, -⟩ := h (some departures)
    rw [hdraw] at hp
    cases hp

end Ledwall.Server.Live
