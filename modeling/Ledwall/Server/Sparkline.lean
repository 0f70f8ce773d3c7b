import Ledwall.Library.Rounding
import Ledwall.Library.Traversals
import Ledwall.Server.LiveData

/-! The chart layers: one sample for each column, scaled between two ends. -/

namespace Ledwall.Server.Live

open Ledwall.Library.Rounding Ledwall.Library.Traversals
open Ledwall.Server.Rendering (Text)

structure Colour where
  r : ℕ
  g : ℕ
  b : ℕ
  deriving DecidableEq

def Colour.div (c : Colour) (k : ℕ) : Colour := ⟨c.r / k, c.g / k, c.b / k⟩

/-- `dr.line` -/
structure Stroke where
  points : List (ℕ × ℤ)
  fill : Colour
  deriving DecidableEq

/-- A chart layer, with the box it has on the wall. -/
structure Plot where
  width : ℕ
  height : ℕ
  width_pos : 0 < width
  height_pos : 0 < height
  min : Option ℚ
  max : Option ℚ
  baseline : Bool
  fill : Bool
  color : Colour

/-- `min(series)` -/
def least : List ℚ → ℚ
  | [] => 0
  | [s] => s
  | s :: rest => min s (least rest)

/-- `max(series)` -/
def greatest : List ℚ → ℚ
  | [] => 0
  | [s] => s
  | s :: rest => max s (greatest rest)

/-- A share held between 0 and 1. -/
def clamped (f : ℚ) : ℚ := if f < 0 then 0 else if 1 < f then 1 else f

section Plotting

variable (plot : Plot) (series : List ℚ)

/-- The lower end of the scale, as it is given or found. -/
def Plot.lo : ℚ := plot.min.getD (least series)

def Plot.hi : ℚ := plot.max.getD (greatest series)

/-- The ends that are scaled into: half a unit further out each, when they are not in order. -/
def Plot.ends : ℚ × ℚ :=
  if plot.hi series ≤ plot.lo series then (plot.lo series - 1 / 2, plot.hi series + 1 / 2)
  else (plot.lo series, plot.hi series)

def Plot.top : ℕ := if plot.baseline then 1 else 0

def Plot.usable : ℕ := Max.max 1 (plot.height - 1 - plot.top)

def Plot.lastRow : ℕ := plot.top + (plot.usable - 1)

/-- The sample of a column. -/
def Plot.sampleAt (x : ℕ) : Option ℚ := series[x * (series.length - 1) / Max.max 1 (plot.width - 1)]?

def Plot.row (s : ℚ) : Except Raised ℤ :=
  let (lo, hi) := plot.ends series
  if hi - lo = 0 then .error .zeroDivision
  else .ok (roundEven (plot.top + (1 - clamped ((s - lo) / (hi - lo))) * (plot.usable - 1 : ℕ)))

def Plot.point (x : ℕ) : Except Raised (ℕ × ℤ) := do
  let s ← (plot.sampleAt series x).elim (.error .index) .ok
  let y ← plot.row series s
  .ok (x, y)

def Plot.points : Except Raised (List (ℕ × ℤ)) := (List.range plot.width).mapM (plot.point series)

def Plot.rule : List Stroke :=
  if plot.baseline then
    [⟨[(0, plot.height - 1), (plot.width - 1, plot.height - 1)], plot.color.div 4⟩]
  else []

def Plot.strokes (pts : List (ℕ × ℤ)) : List Stroke :=
  plot.rule ++
    (if plot.fill then pts.map fun p => ⟨[p, (p.1, plot.height - 1)], plot.color.div 3⟩ else []) ++
    [⟨pts, plot.color⟩]

/-- `_plot`: the lines drawn on the empty image. -/
def Plot.draw : Except Raised (List Stroke) :=
  if series.length < 2 then .ok plot.rule
  else do
    let pts ← plot.points series
    .ok (plot.strokes pts)

end Plotting

/-- The finite numbers of a payload: a boolean is none. -/
def numbers (raw : List Json) : List ℚ :=
  raw.filterMap fun
    | .int n => some n
    | .float (.finite q) => some q
    | _ => none

/-- `_sparkline` -/
def Plot.sparkline (plot : Plot) (digits : Digits) (live : Option LiveState) (address : Text) :
    Except Raised (List Stroke) := do
  let raw ← dataSeries digits live address
  plot.draw (numbers raw)

section Meaning

variable (plot : Plot) (series : List ℚ)

/-- One point for each column, inside the box, a larger sample no lower than a smaller one, and those
beyond a fixed end on the row of that end. -/
structure Plot.RightWayUp (pts : List (ℕ × ℤ)) : Prop where
  columns : pts.map Prod.fst = List.range plot.width
  inBox : ∀ p ∈ pts, (plot.top : ℤ) ≤ p.2 ∧ p.2 ≤ plot.lastRow ∧ p.2 < plot.height
  ordered : ∀ p ∈ pts, ∀ q ∈ pts, ∀ s t, plot.sampleAt series p.1 = some s →
    plot.sampleAt series q.1 = some t → s < t → q.2 ≤ p.2
  atBottom : ∀ m, plot.min = some m → ∀ p ∈ pts, ∀ s, plot.sampleAt series p.1 = some s → s ≤ m →
    p.2 = plot.lastRow
  atTop : ∀ m, plot.max = some m → ∀ p ∈ pts, ∀ s, plot.sampleAt series p.1 = some s → m ≤ s →
    p.2 = plot.top

/-- The chart is drawn, and it is in range and the right way up. -/
def Plot.Drawn : Prop :=
  ∃ pts, plot.points series = .ok pts ∧ plot.draw series = .ok (plot.strokes pts) ∧
    plot.RightWayUp series pts

/-- The ends are less than one apart the wrong way round, and each sample beyond a fixed end lies less
than half a row from where that end is drawn; on the half itself the even row wins. -/
def Plot.NearEnds : Prop :=
  plot.lo series < plot.hi series + 1 ∧
  ∀ x < plot.width, ∀ s, plot.sampleAt series x = some s →
    (∀ m, plot.min = some m → s ≤ m →
      (s - plot.lo series + 1 / 2) * (plot.usable - 1 : ℕ) <
          (plot.hi series - plot.lo series + 1) / 2 ∨
        (s - plot.lo series + 1 / 2) * (plot.usable - 1 : ℕ) =
          (plot.hi series - plot.lo series + 1) / 2 ∧ Even plot.lastRow) ∧
    (∀ m, plot.max = some m → m ≤ s →
      (plot.hi series + 1 / 2 - s) * (plot.usable - 1 : ℕ) <
          (plot.hi series - plot.lo series + 1) / 2 ∨
        (plot.hi series + 1 / 2 - s) * (plot.usable - 1 : ℕ) =
          (plot.hi series - plot.lo series + 1) / 2 ∧ Even plot.top)

/-- The box has a row above the baseline, and the ends are in order, or they do not fall together once
they are moved and there is one row to draw on, or the samples beyond them are near them. -/
def Plot.Scales : Prop :=
  (plot.baseline → 2 ≤ plot.height) ∧
  (plot.lo series < plot.hi series ∨
    plot.lo series ≠ plot.hi series + 1 ∧ plot.usable = 1 ∨
    plot.NearEnds series)

end Meaning

section Ends

variable {series : List ℚ} {s : ℚ}

lemma least_le (h : s ∈ series) : least series ≤ s := by
  induction series with
  | nil => cases h
  | cons a rest ih =>
    cases rest with
    | nil => simp [least, List.mem_singleton.mp h]
    | cons b rest =>
      rw [least]
      · rcases List.mem_cons.mp h with rfl | hrest
        · exact min_le_left _ _
        · exact (min_le_right _ _).trans (ih hrest)
      · simp

lemma le_greatest (h : s ∈ series) : s ≤ greatest series := by
  induction series with
  | nil => cases h
  | cons a rest ih =>
    cases rest with
    | nil => simp [greatest, List.mem_singleton.mp h]
    | cons b rest =>
      rw [greatest]
      · rcases List.mem_cons.mp h with rfl | hrest
        · exact le_max_left _ _
        · exact (ih hrest).trans (le_max_right _ _)
      · simp

end Ends

section Clamping

variable {f g : ℚ} {n : ℕ}

lemma clamped_nonneg : 0 ≤ clamped f := by
  unfold clamped
  split_ifs with h0 h1
  · exact le_refl 0
  · exact zero_le_one
  · exact not_lt.mp h0

lemma clamped_le_one : clamped f ≤ 1 := by
  unfold clamped
  split_ifs with h0 h1
  · exact zero_le_one
  · exact le_refl 1
  · exact not_lt.mp h1

lemma clamped_mono (h : f ≤ g) : clamped f ≤ clamped g := by
  unfold clamped
  split_ifs <;> linarith

lemma one_sub_clamped : 1 - clamped f = clamped (1 - f) := by
  unfold clamped
  split_ifs <;> linarith

lemma clamped_half : clamped f * n = f * n ∨ (clamped f * n < 1 / 2 ∧ f * n < 1 / 2) ∨
    (1 / 2 < clamped f * n ∧ 1 / 2 < f * n) := by
  have hn : (0 : ℚ) ≤ n := Nat.cast_nonneg n
  unfold clamped
  split_ifs with h0 h1
  · have : f * n ≤ 0 := mul_nonpos_of_nonpos_of_nonneg h0.le hn
    exact .inr (.inl ⟨by linarith, by linarith⟩)
  · rcases Nat.eq_zero_or_pos n with rfl | hpos
    · exact .inl (by simp)
    · have hone : (1 : ℚ) ≤ n := by exact_mod_cast hpos
      have : 1 * (n : ℚ) ≤ f * n := mul_le_mul_of_nonneg_right h1.le hn
      exact .inr (.inr ⟨by linarith, by linarith⟩)
  · exact .inl rfl

lemma clamped_lt_half : clamped f * n < 1 / 2 ↔ f * n < 1 / 2 := by
  rcases clamped_half (f := f) (n := n) with heq | ⟨h, h'⟩ | ⟨h, h'⟩
  · rw [heq]
  · exact iff_of_true h h'
  · exact iff_of_false h.le.not_gt h'.le.not_gt

lemma clamped_eq_half : clamped f * n = 1 / 2 ↔ f * n = 1 / 2 := by
  rcases clamped_half (f := f) (n := n) with heq | ⟨h, h'⟩ | ⟨h, h'⟩
  · rw [heq]
  · exact iff_of_false h.ne h'.ne
  · exact iff_of_false h.ne' h'.ne'

end Clamping

section Rows

variable (plot : Plot) {f g : ℚ}

/-- The row of a share of the scale. -/
def Plot.rowOf (f : ℚ) : ℤ := roundEven (plot.top + (1 - clamped f) * (plot.usable - 1 : ℕ) : ℚ)

lemma Plot.rowOf_antitone (h : f ≤ g) : plot.rowOf g ≤ plot.rowOf f := by
  apply roundEven_mono
  have hc := clamped_mono h
  have hn : (0 : ℚ) ≤ (plot.usable - 1 : ℕ) := Nat.cast_nonneg _
  have := mul_le_mul_of_nonneg_right hc hn
  linarith

lemma Plot.top_le_rowOf : (plot.top : ℤ) ≤ plot.rowOf f := by
  apply le_roundEven
  have hc : 0 ≤ 1 - clamped f := sub_nonneg.mpr clamped_le_one
  have hn : (0 : ℚ) ≤ (plot.usable - 1 : ℕ) := Nat.cast_nonneg _
  have := mul_nonneg hc hn
  push_cast
  linarith

lemma Plot.rowOf_le_lastRow : plot.rowOf f ≤ plot.lastRow := by
  apply roundEven_le
  have hc : 0 ≤ clamped f := clamped_nonneg
  have hn : (0 : ℚ) ≤ (plot.usable - 1 : ℕ) := Nat.cast_nonneg _
  have := mul_nonneg hc hn
  simp only [Plot.lastRow]
  push_cast
  linarith

lemma Plot.rowOf_eq_lastRow_iff : plot.rowOf f = plot.lastRow ↔
    f * (plot.usable - 1 : ℕ) < 1 / 2 ∨ f * (plot.usable - 1 : ℕ) = 1 / 2 ∧ Even plot.lastRow := by
  have hge : plot.rowOf f = plot.lastRow ↔ (plot.lastRow : ℤ) ≤ plot.rowOf f :=
    ⟨fun h => h.ge, fun h => le_antisymm plot.rowOf_le_lastRow h⟩
  rw [hge, Plot.rowOf, le_roundEven_iff, ← clamped_lt_half, ← clamped_eq_half, Int.even_coe_nat]
  simp only [Plot.lastRow]
  push_cast
  apply or_congr
  · constructor <;> intro h <;> linarith
  · apply and_congr_left
    intro _
    constructor <;> intro h <;> linarith

lemma Plot.rowOf_eq_top_iff : plot.rowOf f = plot.top ↔
    (1 - f) * (plot.usable - 1 : ℕ) < 1 / 2 ∨
      (1 - f) * (plot.usable - 1 : ℕ) = 1 / 2 ∧ Even plot.top := by
  have hle : plot.rowOf f = plot.top ↔ plot.rowOf f ≤ (plot.top : ℤ) :=
    ⟨fun h => h.le, fun h => le_antisymm h plot.top_le_rowOf⟩
  rw [hle, Plot.rowOf, roundEven_le_iff, one_sub_clamped, ← clamped_lt_half, ← clamped_eq_half,
    Int.even_coe_nat]
  push_cast
  apply or_congr
  · constructor <;> intro h <;> linarith
  · apply and_congr_left
    intro _
    constructor <;> intro h <;> linarith

lemma Plot.rowOf_bottom (h : f ≤ 0) : plot.rowOf f = plot.lastRow := by
  rw [plot.rowOf_eq_lastRow_iff]
  left
  have hn : (0 : ℚ) ≤ (plot.usable - 1 : ℕ) := Nat.cast_nonneg _
  have := mul_nonpos_of_nonpos_of_nonneg h hn
  linarith

lemma Plot.rowOf_top (h : 1 ≤ f) : plot.rowOf f = plot.top := by
  rw [plot.rowOf_eq_top_iff]
  left
  have hn : (0 : ℚ) ≤ (plot.usable - 1 : ℕ) := Nat.cast_nonneg _
  have := mul_nonpos_of_nonpos_of_nonneg (sub_nonpos.mpr h) hn
  linarith

end Rows

section Points

variable {plot : Plot} {series : List ℚ}

/-- The share of the scale that a sample is at. -/
def Plot.share (plot : Plot) (series : List ℚ) (s : ℚ) : ℚ :=
  (s - (plot.ends series).1) / ((plot.ends series).2 - (plot.ends series).1)

lemma ends_of_lt (h : plot.lo series < plot.hi series) :
    plot.ends series = (plot.lo series, plot.hi series) := by
  simp [Plot.ends, not_le.mpr h]

lemma ends_of_le (h : plot.hi series ≤ plot.lo series) :
    plot.ends series = (plot.lo series - 1 / 2, plot.hi series + 1 / 2) := by
  simp [Plot.ends, h]

lemma Plot.exists_sample (plot : Plot) (hlen : 2 ≤ series.length) {x : ℕ} (hx : x < plot.width) :
    ∃ s ∈ series, plot.sampleAt series x = some s := by
  have hle : x ≤ Max.max 1 (plot.width - 1) := by omega
  have hi : x * (series.length - 1) / Max.max 1 (plot.width - 1) < series.length := by
    calc x * (series.length - 1) / Max.max 1 (plot.width - 1)
        ≤ series.length - 1 := Nat.div_le_of_le_mul (Nat.mul_le_mul_right _ hle)
      _ < series.length := by omega
  exact ⟨_, List.getElem_mem hi, List.getElem?_eq_getElem hi⟩

lemma point_of_range {x : ℕ} {s : ℚ} (hr : (plot.ends series).2 - (plot.ends series).1 ≠ 0)
    (hs : plot.sampleAt series x = some s) :
    plot.point series x = .ok (x, plot.rowOf (plot.share series s)) := by
  simp [Plot.point, hs, Plot.row, hr, bind, Except.bind, Plot.rowOf, Plot.share]

lemma point_of_no_range {x : ℕ} {s : ℚ} (hr : (plot.ends series).2 - (plot.ends series).1 = 0)
    (hs : plot.sampleAt series x = some s) : plot.point series x = .error .zeroDivision := by
  simp [Plot.point, hs, Plot.row, hr, bind, Except.bind]

lemma points_spec {pts : List (ℕ × ℤ)} (hlen : 2 ≤ series.length)
    (h : plot.points series = .ok pts) :
    (plot.ends series).2 - (plot.ends series).1 ≠ 0 ∧ pts.map Prod.fst = List.range plot.width ∧
      (∀ p ∈ pts, p.1 < plot.width) ∧
      (∀ p ∈ pts, ∀ s, plot.sampleAt series p.1 = some s →
        p.2 = plot.rowOf (plot.share series s)) ∧
      ∀ x < plot.width, ∀ s, plot.sampleAt series x = some s →
        (x, plot.rowOf (plot.share series s)) ∈ pts := by
  have hr : (plot.ends series).2 - (plot.ends series).1 ≠ 0 := by
    intro hr
    obtain ⟨p, hp⟩ := exists_mapM_iff.mp ⟨pts, h⟩ 0 (List.mem_range.mpr plot.width_pos)
    obtain ⟨s, -, hs⟩ := plot.exists_sample hlen plot.width_pos
    rw [point_of_no_range hr hs] at hp
    cases hp
  have hmap : pts = (List.range plot.width).map fun x =>
      (x, plot.rowOf (plot.share series ((plot.sampleAt series x).getD 0))) := by
    apply eq_map_of_mapM _ h
    intro x hx p hp
    obtain ⟨s, -, hs⟩ := plot.exists_sample hlen (List.mem_range.mp hx)
    rw [point_of_range hr hs] at hp
    rw [hs]
    exact (Except.ok.inj hp).symm
  refine ⟨hr, ?_, ?_, ?_, ?_⟩
  · rw [hmap, List.map_map]
    exact List.map_id _
  · intro p hp
    rw [hmap] at hp
    obtain ⟨x, hx, rfl⟩ := List.mem_map.mp hp
    exact List.mem_range.mp hx
  · intro p hp s hs
    rw [hmap] at hp
    obtain ⟨x, -, rfl⟩ := List.mem_map.mp hp
    rw [show plot.sampleAt series x = some s from hs]
    rfl
  · intro x hx s hs
    rw [hmap]
    exact List.mem_map.mpr ⟨x, List.mem_range.mpr hx, by rw [hs]; rfl⟩

lemma exists_points (hlen : 2 ≤ series.length)
    (hr : (plot.ends series).2 - (plot.ends series).1 ≠ 0) :
    ∃ pts, plot.points series = .ok pts := by
  apply exists_mapM_iff.mpr
  intro x hx
  obtain ⟨s, -, hs⟩ := plot.exists_sample hlen (List.mem_range.mp hx)
  exact ⟨_, point_of_range hr hs⟩

end Points

section Drawing

variable {plot : Plot} {series : List ℚ}

lemma draw_of_points {pts : List (ℕ × ℤ)} (hlen : 2 ≤ series.length)
    (h : plot.points series = .ok pts) : plot.draw series = .ok (plot.strokes pts) := by
  rw [Plot.draw, if_neg (by omega), h]
  rfl

lemma lastRow_lt_height (h : plot.baseline → 2 ≤ plot.height) : plot.lastRow < plot.height := by
  have hpos := plot.height_pos
  unfold Plot.lastRow Plot.usable Plot.top
  cases hb : plot.baseline with
  | false =>
    simp only [Bool.false_eq_true, if_false]
    omega
  | true =>
    have := h hb
    simp only [if_true]
    omega

lemma two_le_height {y : ℤ} (htop : (plot.top : ℤ) ≤ y) (hy : y < plot.height)
    (hb : plot.baseline = true) : 2 ≤ plot.height := by
  simp only [Plot.top, hb, if_true] at htop
  omega

lemma drawn_of_points (hlen : 2 ≤ series.length) (hbox : plot.baseline → 2 ≤ plot.height)
    (hr : (plot.ends series).2 - (plot.ends series).1 ≠ 0)
    (hord : ∀ s t, s < t →
      plot.rowOf (plot.share series t) ≤ plot.rowOf (plot.share series s))
    (hbottom : ∀ m, plot.min = some m → ∀ x < plot.width, ∀ s, plot.sampleAt series x = some s →
      s ≤ m → plot.rowOf (plot.share series s) = plot.lastRow)
    (htop : ∀ m, plot.max = some m → ∀ x < plot.width, ∀ s, plot.sampleAt series x = some s →
      m ≤ s → plot.rowOf (plot.share series s) = plot.top) : plot.Drawn series := by
  obtain ⟨pts, hpts⟩ := exists_points hlen hr
  obtain ⟨-, hcols, hlt, hrow, -⟩ := points_spec hlen hpts
  refine ⟨pts, hpts, draw_of_points hlen hpts, hcols, ?_, ?_, ?_, ?_⟩
  · intro p hp
    obtain ⟨s, -, hs⟩ := plot.exists_sample hlen (hlt p hp)
    have hle := plot.rowOf_le_lastRow (f := plot.share series s)
    have hlast := lastRow_lt_height hbox
    rw [hrow p hp s hs]
    exact ⟨plot.top_le_rowOf, hle, by omega⟩
  · intro p hp q hq s t hs ht hst
    rw [hrow p hp s hs, hrow q hq t ht]
    exact hord s t hst
  · intro m hm p hp s hs hsm
    rw [hrow p hp s hs]
    exact hbottom m hm p.1 (hlt p hp) s hs hsm
  · intro m hm p hp s hs hsm
    rw [hrow p hp s hs]
    exact htop m hm p.1 (hlt p hp) s hs hsm

lemma share_mono {s t : ℚ} (hr : (plot.ends series).1 < (plot.ends series).2) (hst : s ≤ t) :
    plot.share series s ≤ plot.share series t := by
  unfold Plot.share
  have hpos := (sub_pos.mpr hr).le
  gcongr

lemma rowOf_of_one_row {f : ℚ} (h : plot.usable = 1) :
    plot.rowOf f = plot.lastRow ∧ plot.rowOf f = plot.top := by
  have hlast : plot.lastRow = plot.top := by simp [Plot.lastRow, h]
  have hge := plot.top_le_rowOf (f := f)
  have hle := plot.rowOf_le_lastRow (f := f)
  omega

lemma lo_eq {m : ℚ} (series : List ℚ) (h : plot.min = some m) : plot.lo series = m := by
  simp [Plot.lo, h]

lemma hi_eq {m : ℚ} (series : List ℚ) (h : plot.max = some m) : plot.hi series = m := by
  simp [Plot.hi, h]

lemma share_of_ordered {s : ℚ} (h : plot.lo series < plot.hi series) :
    (s ≤ plot.lo series → plot.share series s ≤ 0) ∧
      (plot.hi series ≤ s → 1 ≤ plot.share series s) := by
  have hr : 0 < plot.hi series - plot.lo series := sub_pos.mpr h
  simp only [Plot.share, ends_of_lt h]
  constructor
  · intro hs
    exact div_nonpos_of_nonpos_of_nonneg (sub_nonpos.mpr hs) hr.le
  · intro hs
    rw [one_le_div hr]
    linarith

lemma share_of_moved {s : ℚ} {n : ℕ} (h : plot.hi series ≤ plot.lo series)
    (hr : plot.lo series < plot.hi series + 1) :
    (plot.share series s * n < 1 / 2 ↔
        (s - plot.lo series + 1 / 2) * n < (plot.hi series - plot.lo series + 1) / 2) ∧
      (plot.share series s * n = 1 / 2 ↔
        (s - plot.lo series + 1 / 2) * n = (plot.hi series - plot.lo series + 1) / 2) ∧
      ((1 - plot.share series s) * n < 1 / 2 ↔
        (plot.hi series + 1 / 2 - s) * n < (plot.hi series - plot.lo series + 1) / 2) ∧
      ((1 - plot.share series s) * n = 1 / 2 ↔
        (plot.hi series + 1 / 2 - s) * n = (plot.hi series - plot.lo series + 1) / 2) := by
  have hpos : 0 < plot.hi series - plot.lo series + 1 := by linarith
  have hshare : plot.share series s =
      (s - plot.lo series + 1 / 2) / (plot.hi series - plot.lo series + 1) := by
    simp only [Plot.share, ends_of_le h]
    congr 1 <;> ring
  have hrest : 1 - plot.share series s =
      (plot.hi series + 1 / 2 - s) / (plot.hi series - plot.lo series + 1) := by
    rw [hshare, eq_div_iff hpos.ne', sub_mul, div_mul_cancel₀ _ hpos.ne']
    ring
  rw [hrest, hshare, div_mul_eq_mul_div, div_mul_eq_mul_div, div_lt_iff₀ hpos, div_eq_iff hpos.ne',
    div_lt_iff₀ hpos, div_eq_iff hpos.ne']
  have hhalf : 1 / 2 * (plot.hi series - plot.lo series + 1) =
      (plot.hi series - plot.lo series + 1) / 2 := by ring
  rw [hhalf]
  exact ⟨Iff.rfl, Iff.rfl, Iff.rfl, Iff.rfl⟩

lemma share_of_crossed {s : ℚ} (h : plot.hi series + 1 < plot.lo series) :
    (s ≤ plot.hi series → 1 ≤ plot.share series s) ∧
      (plot.lo series ≤ s → plot.share series s ≤ 0) := by
  have hle : plot.hi series ≤ plot.lo series := by linarith
  have hneg : plot.hi series + 1 / 2 - (plot.lo series - 1 / 2) < 0 := by linarith
  simp only [Plot.share, ends_of_le hle]
  constructor
  · intro hs
    rw [one_le_div_of_neg hneg]
    linarith
  · intro hs
    exact div_nonpos_of_nonneg_of_nonpos (by linarith) hneg.le

lemma one_row_of_crossed {pts : List (ℕ × ℤ)} (hlen : 2 ≤ series.length)
    (hpts : plot.points series = .ok pts) (hright : plot.RightWayUp series pts)
    (h : plot.hi series + 1 < plot.lo series) : plot.usable = 1 := by
  obtain ⟨-, -, -, -, hmem⟩ := points_spec hlen hpts
  obtain ⟨s, hs, hx⟩ := plot.exists_sample hlen plot.width_pos
  have hp := hmem 0 plot.width_pos s hx
  -- it is enough that one sample belongs at the end opposite to where it is drawn
  have one : (plot.lastRow : ℤ) = plot.top → plot.usable = 1 := by
    intro heq
    have hpos : 1 ≤ plot.usable := le_max_left _ _
    simp only [Plot.lastRow] at heq
    omega
  apply one
  by_cases hlow : s ≤ plot.hi series
  · have htop : plot.rowOf (plot.share series s) = plot.top :=
      plot.rowOf_top ((share_of_crossed h).1 hlow)
    cases hm : plot.min with
    | none =>
      have hlo : plot.lo series = least series := by simp [Plot.lo, hm]
      have := least_le hs
      linarith
    | some m =>
      rw [← htop]
      exact (hright.atBottom m hm _ hp s hx (by rw [← lo_eq series hm]; linarith)).symm
  · cases hm : plot.max with
    | none =>
      have hhi : plot.hi series = greatest series := by simp [Plot.hi, hm]
      exact absurd (hhi ▸ le_greatest hs) hlow
    | some m =>
      have hms : m ≤ s := by
        rw [← hi_eq series hm]
        linarith
      have htop := hright.atTop m hm _ hp s hx hms
      by_cases hhigh : plot.lo series ≤ s
      · rw [← htop]
        exact (plot.rowOf_bottom ((share_of_crossed h).2 hhigh)).symm
      · cases hm' : plot.min with
        | none =>
          have hlo : plot.lo series = least series := by simp [Plot.lo, hm']
          exact absurd (hlo ▸ least_le hs) hhigh
        | some m' =>
          rw [← htop]
          refine (hright.atBottom m' hm' _ hp s hx ?_).symm
          rw [← lo_eq series hm']
          linarith

/-- Exactly when a series of two samples or more is drawn in range and the right way up. -/
theorem drawn_iff (plot : Plot) (series : List ℚ) (hlen : 2 ≤ series.length) :
    plot.Drawn series ↔ plot.Scales series := by
  constructor
  · rintro ⟨pts, hpts, -, hright⟩
    obtain ⟨hr, -, hlt, hrow, hmem⟩ := points_spec hlen hpts
    obtain ⟨s₀, -, hs₀⟩ := plot.exists_sample hlen plot.width_pos
    obtain ⟨htop₀, -, hheight₀⟩ := hright.inBox _ (hmem 0 plot.width_pos s₀ hs₀)
    refine ⟨two_le_height htop₀ hheight₀, ?_⟩
    rcases lt_or_ge (plot.lo series) (plot.hi series) with hlt' | hle
    · exact .inl hlt'
    · right
      have hne : plot.lo series ≠ plot.hi series + 1 := by
        intro heq
        apply hr
        rw [ends_of_le hle, heq]
        ring
      rcases lt_trichotomy (plot.lo series) (plot.hi series + 1) with hnear | heq | hfar
      · right
        refine ⟨hnear, ?_⟩
        intro x hx s hs
        obtain ⟨hlt₁, heq₁, hlt₂, heq₂⟩ :=
          share_of_moved (s := s) (n := plot.usable - 1) hle hnear
        have hp := hmem x hx s hs
        constructor
        · intro m hm hsm
          have := plot.rowOf_eq_lastRow_iff.mp (hright.atBottom m hm _ hp s hs hsm)
          rwa [hlt₁, heq₁] at this
        · intro m hm hms
          have := plot.rowOf_eq_top_iff.mp (hright.atTop m hm _ hp s hs hms)
          rwa [hlt₂, heq₂] at this
      · exact absurd heq hne
      · exact .inl ⟨hne, one_row_of_crossed hlen hpts hright hfar⟩
  · rintro ⟨hbox, hscale⟩
    rcases lt_or_ge (plot.lo series) (plot.hi series) with hlt | hle
    · have hends := ends_of_lt hlt
      apply drawn_of_points hlen hbox
      · rw [hends]
        exact (sub_pos.mpr hlt).ne'
      · intro s t hst
        apply plot.rowOf_antitone
        exact share_mono (by rw [hends]; exact hlt) hst.le
      · intro m hm x _ s _ hsm
        apply plot.rowOf_bottom
        exact (share_of_ordered hlt).1 (by rwa [lo_eq series hm])
      · intro m hm x _ s _ hms
        apply plot.rowOf_top
        exact (share_of_ordered hlt).2 (by rwa [hi_eq series hm])
    · have hends := ends_of_le hle
      rcases hscale with hlt | ⟨hne, hone⟩ | ⟨hnear, hsamples⟩
      · exact absurd hlt (not_lt.mpr hle)
      · apply drawn_of_points hlen hbox
        · rw [hends]
          intro h
          apply hne
          simp only at h
          linarith
        · intro s t _
          rw [(rowOf_of_one_row hone).1, (rowOf_of_one_row hone).1]
        · intro m _ x _ s _ _
          exact (rowOf_of_one_row hone).1
        · intro m _ x _ s _ _
          exact (rowOf_of_one_row hone).2
      · have hpos : (plot.ends series).1 < (plot.ends series).2 := by
          rw [hends]
          simp only
          linarith
        apply drawn_of_points hlen hbox (sub_pos.mpr hpos).ne'
        · intro s t hst
          exact plot.rowOf_antitone (share_mono hpos hst.le)
        · intro m hm x hx s hs hsm
          obtain ⟨hlt₁, heq₁, -, -⟩ := share_of_moved (s := s) (n := plot.usable - 1) hle hnear
          rw [plot.rowOf_eq_lastRow_iff, hlt₁, heq₁]
          exact (hsamples x hx s hs).1 m hm hsm
        · intro m hm x hx s hs hms
          obtain ⟨-, -, hlt₂, heq₂⟩ := share_of_moved (s := s) (n := plot.usable - 1) hle hnear
          rw [plot.rowOf_eq_top_iff, hlt₂, heq₂]
          exact (hsamples x hx s hs).2 m hm hms

end Drawing

/-- A chart of eight by seven pixels, with its baseline. -/
def smallChart (min : Option ℚ) : Plot where
  width := 8
  height := 7
  width_pos := by decide
  height_pos := by decide
  min := min
  max := none
  baseline := true
  fill := false
  color := ⟨64, 208, 128⟩

/-- A ramp on its own scale. -/
theorem ramp_drawn : 2 ≤ [(0 : ℚ), 5, 10].length ∧ (smallChart none).Drawn [0, 5, 10] := by
  refine ⟨by decide, (drawn_iff (smallChart none) [0, 5, 10] (by decide)).mpr ⟨?_, ?_⟩⟩
  · intro _
    decide
  · exact .inl (by decide +kernel)

/-- A minimum of one, and readings that never leave zero. -/
theorem pinned_above_not_drawn :
    (smallChart (some 1)).draw [0, 0] = .error .zeroDivision ∧
    ¬ ∀ (plot : Plot) (series : List ℚ), 2 ≤ series.length → plot.Drawn series := by
  have hdraw : (smallChart (some 1)).draw [0, 0] = .error .zeroDivision := by
    decide +kernel
  refine ⟨hdraw, ?_⟩
  intro h
  obtain ⟨pts, -, hpts, -⟩ := h (smallChart (some 1)) [0, 0] (by decide)
  rw [hdraw] at hpts
  cases hpts

end Ledwall.Server.Live
