import Ledwall.Server.SceneBoxes

/-! Which accepted shows can be drawn on every wall. -/

namespace Ledwall.Server.Scenes

open Ledwall.Library.Floats Ledwall.Library.Rounding Ledwall.Library.TextLines

section Shares

variable {q : ℚ} {n : ℕ}

lemma nearest_scale (h : binary64.Grid q) (k : ℕ) :
    binary64.nearest (q * ((2 ^ k : ℕ) : ℤ)) = q * 2 ^ k := by
  have hscale := (h.scale k).nearest_eq
  push_cast
  exact hscale

lemma top_eq : (2 : ℚ) ^ binary64.emax = 2 ^ 1012 * 2 ^ 12 := by
  have hmax : binary64.emax = ((1012 + 12 : ℕ) : ℤ) := rfl
  rw [hmax, zpow_natCast, pow_add]

lemma abs_scale_le (hn : n ≤ 4096) : |q * ((n : ℤ) : ℚ)| ≤ |q * 2 ^ 12| := by
  have hcast : ((n : ℤ) : ℚ) ≤ 2 ^ 12 := by
    norm_num
    exact_mod_cast hn
  rw [abs_mul, abs_mul, abs_of_nonneg (by positivity : (0 : ℚ) ≤ ((n : ℤ) : ℚ)),
    abs_of_pos (by positivity : (0 : ℚ) < 2 ^ 12)]
  exact mul_le_mul_of_nonneg_left hcast (abs_nonneg q)

lemma abs_scale : |q * 2 ^ 12| = |q| * 2 ^ 12 := by
  rw [abs_mul, abs_of_pos (by positivity : (0 : ℚ) < 2 ^ 12)]

lemma nearest_lt (h : binary64.Grid q) (hq : |q| < 2 ^ 1012) (hn : n ≤ 4096) :
    |binary64.nearest (q * (n : ℤ))| < 2 ^ binary64.emax := by
  refine ((h.scale 12).abs_nearest_le (abs_scale_le hn)).trans_lt ?_
  rw [abs_scale, top_eq]
  exact mul_lt_mul_of_pos_right hq (pow_pos two_pos 12)

lemma lt_of_nearest_lt (h : binary64.Grid q)
    (hlt : |binary64.nearest (q * ((4096 : ℕ) : ℤ))| < 2 ^ binary64.emax) : |q| < 2 ^ 1012 := by
  rw [show (4096 : ℕ) = 2 ^ 12 from rfl, nearest_scale h, abs_scale, top_eq] at hlt
  exact lt_of_mul_lt_mul_right hlt (pow_pos two_pos 12).le

lemma sized (hq : 1 / 16 < q) (hgrid : binary64.Grid q) (hn : 8 ≤ n) :
    0 < roundEven (binary64.nearest (q * (n : ℤ))) := by
  rw [Int.lt_iff_add_one_le, zero_add, le_roundEven_iff]
  left
  rcases hn.eq_or_lt with rfl | hlt
  · rw [show (8 : ℕ) = 2 ^ 3 from rfl, nearest_scale hgrid]
    norm_num
    linarith
  · have hnine : (9 : ℚ) ≤ ((n : ℤ) : ℚ) := by exact_mod_cast hlt
    have hstep : binary64.Grid (9 / 16) := ⟨9, -4, by norm_num [binary64], by norm_num [binary64], by norm_num⟩
    have hle := hstep.le_nearest (q := q * ((n : ℤ) : ℚ)) (by nlinarith)
    norm_num at hle ⊢
    linarith

lemma lt_of_sized (hgrid : binary64.Grid q)
    (h : 0 < roundEven (binary64.nearest (q * ((8 : ℕ) : ℤ)))) : 1 / 16 < q := by
  rw [Int.lt_iff_add_one_le, zero_add, le_roundEven_iff, show (8 : ℕ) = 2 ^ 3 from rfl,
    nearest_scale hgrid] at h
  rcases h with h | ⟨-, hone⟩
  · norm_num at h
    linarith
  · exact absurd hone (by decide)

lemma begins (hq : -(1 / 8192) ≤ q) (hn : n ≤ 4096) :
    0 ≤ roundEven (binary64.nearest (q * (n : ℤ))) := by
  have hcast : ((n : ℤ) : ℚ) ≤ 4096 := by exact_mod_cast hn
  have hpos : (0 : ℚ) ≤ ((n : ℤ) : ℚ) := by positivity
  have hstep : binary64.Grid (-(1 / 2)) := ⟨-1, -1, by norm_num [binary64], by norm_num [binary64], by norm_num⟩
  have hle := hstep.le_nearest (q := q * ((n : ℤ) : ℚ)) (by nlinarith)
  rw [le_roundEven_iff, Int.cast_zero, zero_sub]
  rcases hle.lt_or_eq with hlt | heq
  · exact .inl hlt
  · exact .inr ⟨heq, by decide⟩

lemma le_of_begins (hgrid : binary64.Grid q)
    (h : 0 ≤ roundEven (binary64.nearest (q * ((4096 : ℕ) : ℤ)))) : -(1 / 8192) ≤ q := by
  rw [le_roundEven_iff, show (4096 : ℕ) = 2 ^ 12 from rfl, nearest_scale hgrid] at h
  rcases h with h | ⟨h, -⟩ <;> norm_num at h <;> linarith

lemma within (hq : q < 15 / 16) (hgrid : binary64.Grid q) (hn : 8 ≤ n) (hmax : n ≤ 4096) :
    roundEven (binary64.nearest (q * (n : ℤ))) < n := by
  rw [← Int.le_sub_one_iff, roundEven_le_iff]
  left
  rcases hn.eq_or_lt with rfl | hlt
  · rw [show (8 : ℕ) = 2 ^ 3 from rfl, nearest_scale hgrid]
    push_cast
    linarith
  · have hnine : (9 : ℚ) ≤ (n : ℚ) := by exact_mod_cast hlt
    have hstep : binary64.Grid (15 / 16 * n) := by
      refine ⟨15 * n, -4, ?_, by norm_num [binary64], by push_cast; ring⟩
      have hbits : (15 * n : ℤ) ≤ 2 ^ 53 := by omega
      rw [abs_of_nonneg (by positivity)]
      exact hbits
    have hle := hstep.nearest_le (q := q * ((n : ℤ) : ℚ)) (by push_cast; nlinarith)
    push_cast at hle ⊢
    linarith

lemma lt_of_within (hgrid : binary64.Grid q)
    (h : roundEven (binary64.nearest (q * ((8 : ℕ) : ℤ))) < (8 : ℕ)) : q < 15 / 16 := by
  rw [← Int.le_sub_one_iff, roundEven_le_iff, show (8 : ℕ) = 2 ^ 3 from rfl, nearest_scale hgrid] at h
  rcases h with h | ⟨-, heven⟩
  · push_cast at h
    linarith
  · exact absurd heven (by decide)

end Shares

section Boxes

variable (float : Text → Option Double)

/-- The fraction itself, where it is a number. -/
def Dim.share (v : Dim) : Option ℚ := (v.fraction float).bind Number.value

/-- A product with a wall's size is a number, a size is more than half a pixel of the smallest wall,
and a position of fractions rounds to a pixel of the smallest and of the largest. -/
structure Scales (b : Box Dim) : Prop where
  bounded : ∀ v ∈ [b.x, b.y, b.w, b.h], ∀ q ∈ v.share float, |q| < 2 ^ 1012
  sized : ∀ v ∈ [b.w, b.h], ∀ q ∈ v.share float, 1 / 16 < q
  inside : (b.x.fraction float).isSome → (b.y.fraction float).isSome →
    ∀ v ∈ [b.x, b.y], ∀ q ∈ v.share float, -(1 / 8192) ≤ q ∧ q < 15 / 16

/-- A position of fractions is no further left or up than half a pixel. -/
def Begins (b : Box Dim) (width height : ℕ) : Prop :=
  (b.x.fraction float).isSome → (b.y.fraction float).isSome →
    (∀ q ∈ b.x.share float, -(1 / 2) ≤ binary64.nearest (q * (width : ℤ))) ∧
      ∀ q ∈ b.y.share float, -(1 / 2) ≤ binary64.nearest (q * (height : ℤ))

variable {float} {v : Dim} {b : Box Dim} {d : Display} {n m : ℕ} {k : ℤ} {q : ℚ} {name : Text}

lemma resolve_fraction {f : Double} (h : v.fraction float = some f) :
    v.resolve float n = (f.times n).round := by
  cases v with
  | int => cases h
  | float => rw [Option.some.inj h.symm]; rfl
  | text t =>
    simp only [Dim.fraction] at h
    simp only [Dim.resolve]
    split at h
    · rename_i hpercent
      rw [if_pos hpercent]
      obtain ⟨p, hp, rfl⟩ := Option.map_eq_some_iff.mp h
      rw [hp]
      rfl
    · cases h

lemma resolve_pixels (h : v.fraction float = none) : v.resolve float n = v.resolve float m := by
  cases v with
  | int => rfl
  | float => cases h
  | text t =>
    simp only [Dim.fraction] at h
    simp only [Dim.resolve]
    split at h
    · rename_i hpercent
      rw [if_pos hpercent, if_pos hpercent, Option.map_eq_none_iff.mp h]
      rfl
    · rename_i hpercent
      rw [if_neg hpercent, if_neg hpercent]

lemma share_resolve (h : v.resolve float n = some k) (hq : q ∈ v.share float) :
    binary64.Grid q ∧ |binary64.nearest (q * (n : ℤ))| < 2 ^ binary64.emax ∧
      roundEven (binary64.nearest (q * (n : ℤ))) = k := by
  obtain ⟨f, hf, hvalue⟩ := Option.bind_eq_some_iff.mp hq
  rw [resolve_fraction hf] at h
  obtain ⟨r, hr, hlt, hround⟩ := Number.round_times h
  obtain rfl := Option.some.inj (hr.symm.trans hvalue)
  exact ⟨(Number.value_eq_some hr).1, hlt, hround⟩

lemma resolve_at (h : v.resolve float n = some k) (hlt : ∀ q ∈ v.share float, |q| < 2 ^ 1012)
    (hm : m ≤ 4096) :
    v.fraction float = none ∧ v.resolve float m = some k ∨
      ∃ q, q ∈ v.share float ∧ binary64.Grid q ∧
        v.resolve float m = some (roundEven (binary64.nearest (q * (m : ℤ)))) := by
  cases hf : v.fraction float with
  | none => exact .inl ⟨rfl, (resolve_pixels hf).trans h⟩
  | some f =>
    rw [resolve_fraction hf] at h
    obtain ⟨q, hq, -, -⟩ := Number.round_times h
    have hshare : q ∈ v.share float := Option.bind_eq_some_iff.mpr ⟨f, hf, hq⟩
    have hgrid := (Number.value_eq_some hq).1
    refine .inr ⟨q, hshare, hgrid, ?_⟩
    rw [resolve_fraction hf]
    exact Number.times_round hq (nearest_lt hgrid (hlt q hshare) hm)

lemma Box.resolve_eq_some {box : Box ℤ} : b.resolve float n m = some box ↔
    b.x.resolve float n = some box.x ∧ b.y.resolve float m = some box.y ∧
      b.w.resolve float n = some box.w ∧ b.h.resolve float m = some box.h := by
  simp only [Box.resolve]
  constructor
  · intro h
    split at h
    · rename_i hx hy hw hh
      obtain rfl := Option.some.inj h
      exact ⟨hx, hy, hw, hh⟩
    · cases h
  · rintro ⟨hx, hy, hw, hh⟩
    rw [hx, hy, hw, hh]

/-- What a layer of an accepted show was probed for. -/
structure Probed (float : Text → Option Double) (d : Display) (b : Box Dim) (box : Box ℤ) : Prop where
  resolves : b.resolve float d.probed.1 d.probed.2 = some box
  width : 0 < box.w
  height : 0 < box.h
  inside : d.startsOutside box = none

lemma checkLayers_ok {i : ℕ} {layers : List (Box Dim)}
    (h : checkLayers float d name i layers = .ok ()) (hb : b ∈ layers) : ∃ box, Probed float d b box := by
  induction layers generalizing i with
  | nil => cases hb
  | cons l layers ih =>
    rw [checkLayers] at h
    split at h
    · cases h
    · rename_i box hbox
      split at h
      · cases h
      · rename_i hpos
        split at h
        · cases h
        · rename_i hinside
          rcases List.mem_cons.mp hb with rfl | hb
          · exact ⟨box, hbox, by omega, by omega, hinside⟩
          · exact ih h hb

lemma checkScenes_ok {seen : List Text} {scenes : List Scene} {s : Scene}
    (h : checkScenes float d seen scenes = .ok ()) (hs : s ∈ scenes) :
    checkLayers float d s.name 0 s.layers = .ok () := by
  induction scenes generalizing seen with
  | nil => cases hs
  | cons s' scenes ih =>
    rw [checkScenes] at h
    split at h
    · cases h
    · split at h
      · cases h
      · rename_i hlayers
        rcases List.mem_cons.mp hs with rfl | hs
        · exact hlayers
        · exact ih h hs

lemma check_ok {s : Show} (h : s.check float = .ok ()) {sc : Scene} (hsc : sc ∈ s.scenes)
    (hb : b ∈ sc.layers) : ∃ box, Probed float s.display b box := by
  rw [Show.check] at h
  split at h
  · cases h
  · exact checkLayers_ok (checkScenes_ok h hsc) hb

lemma size_at (h : v.resolve float n = some k) (hk : 0 < k)
    (hlt : ∀ q ∈ v.share float, |q| < 2 ^ 1012) (hsize : ∀ q ∈ v.share float, 1 / 16 < q)
    (hmin : 8 ≤ m) (hmax : m ≤ 4096) : ∃ j, v.resolve float m = some j ∧ 0 < j := by
  rcases resolve_at h hlt hmax with ⟨-, hm⟩ | ⟨q, hq, hgrid, hm⟩
  · exact ⟨k, hm, hk⟩
  · exact ⟨_, hm, sized (hsize q hq) hgrid hmin⟩

lemma position_at (h : v.resolve float n = some k) (hlt : ∀ q ∈ v.share float, |q| < 2 ^ 1012)
    (hmin : 8 ≤ m) (hmax : m ≤ 4096) :
    ∃ j, v.resolve float m = some j ∧ ((v.fraction float).isSome →
      (∀ q ∈ v.share float, -(1 / 8192) ≤ q ∧ q < 15 / 16) → 0 ≤ j ∧ j < m) := by
  rcases resolve_at h hlt hmax with ⟨hnone, hm⟩ | ⟨q, hq, hgrid, hm⟩
  · refine ⟨k, hm, fun hsome => ?_⟩
    rw [hnone] at hsome
    cases hsome
  · refine ⟨_, hm, fun _ hinside => ?_⟩
    obtain ⟨hlow, hhigh⟩ := hinside q hq
    exact ⟨begins hlow hmax, within hhigh hgrid hmin hmax⟩

lemma drawn_of_scales {box : Box ℤ} {width height : ℕ} (hp : Probed float d b box)
    (h : Scales float b) (hwidth : 8 ≤ width ∧ width ≤ 4096) (hheight : 8 ≤ height ∧ height ≤ 4096) :
    DrawnOn float b width height := by
  obtain ⟨hx, hy, hw, hh⟩ := Box.resolve_eq_some.mp hp.resolves
  obtain ⟨x, hx', hxin⟩ := position_at hx (h.bounded b.x (by simp)) hwidth.1 hwidth.2
  obtain ⟨y, hy', hyin⟩ := position_at hy (h.bounded b.y (by simp)) hheight.1 hheight.2
  obtain ⟨w, hw', hwpos⟩ :=
    size_at hw hp.width (h.bounded b.w (by simp)) (h.sized b.w (by simp)) hwidth.1 hwidth.2
  obtain ⟨t, ht', htpos⟩ :=
    size_at hh hp.height (h.bounded b.h (by simp)) (h.sized b.h (by simp)) hheight.1 hheight.2
  refine ⟨⟨x, y, w, t⟩, Box.resolve_eq_some.mpr ⟨hx', hy', hw', ht'⟩, hwpos, htpos, fun hfx hfy => ?_⟩
  have hinside := h.inside hfx hfy
  exact ⟨hxin hfx (hinside b.x (by simp)), hyin hfy (hinside b.y (by simp))⟩

lemma scales_of_drawn (hsmall : DrawnOn float b 8 8) (hlarge : DrawnOn float b 4096 4096) :
    Scales float b := by
  obtain ⟨s, hs, hwpos, hhpos, hsin⟩ := hsmall
  obtain ⟨l, hl, -, -, hlin⟩ := hlarge
  obtain ⟨hsx, hsy, hsw, hsh⟩ := Box.resolve_eq_some.mp hs
  obtain ⟨hlx, hly, hlw, hlh⟩ := Box.resolve_eq_some.mp hl
  have hbound {v : Dim} {k : ℤ} (h : v.resolve float 4096 = some k) :
      ∀ q ∈ v.share float, |q| < 2 ^ 1012 := by
    intro q hq
    obtain ⟨hgrid, hlt, -⟩ := share_resolve h hq
    exact lt_of_nearest_lt hgrid hlt
  have hsized {v : Dim} {k : ℤ} (h : v.resolve float 8 = some k) (hk : 0 < k) :
      ∀ q ∈ v.share float, 1 / 16 < q := by
    intro q hq
    obtain ⟨hgrid, -, hround⟩ := share_resolve h hq
    exact lt_of_sized hgrid (hround ▸ hk)
  have hinside {v : Dim} {j k : ℤ} (h : v.resolve float 8 = some j) (hj : j < 8)
      (h' : v.resolve float 4096 = some k) (hk : 0 ≤ k) :
      ∀ q ∈ v.share float, -(1 / 8192) ≤ q ∧ q < 15 / 16 := by
    intro q hq
    obtain ⟨hgrid, -, hround⟩ := share_resolve h hq
    obtain ⟨-, -, hround'⟩ := share_resolve h' hq
    exact ⟨le_of_begins hgrid (hround' ▸ hk), lt_of_within hgrid (hround ▸ hj)⟩
  refine ⟨?_, ?_, fun hfx hfy => ?_⟩
  · simp only [List.forall_mem_cons, List.not_mem_nil, false_implies, implies_true, and_true]
    exact ⟨hbound hlx, hbound hly, hbound hlw, hbound hlh⟩
  · simp only [List.forall_mem_cons, List.not_mem_nil, false_implies, implies_true, and_true]
    exact ⟨hsized hsw hwpos, hsized hsh hhpos⟩
  · obtain ⟨⟨-, hsx'⟩, -, hsy'⟩ := hsin hfx hfy
    obtain ⟨⟨hlx', -⟩, hly', -⟩ := hlin hfx hfy
    simp only [List.forall_mem_cons, List.not_mem_nil, false_implies, implies_true, and_true]
    exact ⟨hinside hsx hsx' hlx hlx', hinside hsy hsy' hly hly'⟩

lemma roundEven_nonneg_iff : 0 ≤ roundEven q ↔ -(1 / 2) ≤ q := by
  rw [le_roundEven_iff, Int.cast_zero, zero_sub, le_iff_lt_or_eq, and_iff_left (by decide : Even (0 : ℤ))]

lemma begins_at {k : ℤ} (h : v.resolve float n = some k) (hf : (v.fraction float).isSome) :
    0 ≤ k ↔ ∀ q ∈ v.share float, -(1 / 2) ≤ binary64.nearest (q * (n : ℤ)) := by
  obtain ⟨f, hf⟩ := Option.isSome_iff_exists.mp hf
  have hround := h
  rw [resolve_fraction hf] at hround
  obtain ⟨q, hq, -, hk⟩ := Number.round_times hround
  have hshare : v.share float = some q := Option.bind_eq_some_iff.mpr ⟨f, hf, hq⟩
  rw [hshare, ← hk, roundEven_nonneg_iff]
  simp

lemma drawn_declared {box : Box ℤ} {w h : ℕ} (hp : Probed float d b box) (hw : d.width = some w)
    (hh : d.height = some h) : DrawnOn float b w h ↔ Begins float b w h := by
  have hprobed : d.probed = (w, h) := by rw [Display.probed, hw, hh]; rfl
  have hres := hp.resolves
  have hin := hp.inside
  rw [hprobed] at hres
  rw [Display.startsOutside, hw, hh] at hin
  obtain ⟨hx, hy, -, -⟩ := Box.resolve_eq_some.mp hres
  have hlt : box.x < w ∧ box.y < h := by
    by_contra hout
    simp only [if_pos (show box.x ≥ w ∨ box.y ≥ h by omega)] at hin
    cases hin
  constructor
  · rintro ⟨box', hbox', -, -, hinside⟩ hfx hfy
    obtain rfl := Option.some.inj (hres.symm.trans hbox')
    obtain ⟨⟨hx0, -⟩, hy0, -⟩ := hinside hfx hfy
    exact ⟨(begins_at hx hfx).mp hx0, (begins_at hy hfy).mp hy0⟩
  · intro hbegins
    refine ⟨box, hres, hp.width, hp.height, fun hfx hfy => ?_⟩
    obtain ⟨hbx, hby⟩ := hbegins hfx hfy
    exact ⟨⟨(begins_at hx hfx).mpr hbx, hlt.1⟩, (begins_at hy hfy).mpr hby, hlt.2⟩

/-- A show accepted without a size can be drawn on every wall just when its fractions stay numbers,
give the smallest wall more than half a pixel, and begin where both walls have one; a show accepted
with a size can be drawn at that size just when no position of fractions is left of it or above. -/
theorem drawn_inside_iff (float : Text → Option Double) (s : Show) (h : s.check float = .ok ()) :
    (s.display.width = none ∨ s.display.height = none →
      ((∀ width height : ℕ, 8 ≤ width ∧ width ≤ 4096 → 8 ≤ height ∧ height ≤ 4096 →
          ∀ sc ∈ s.scenes, ∀ b ∈ sc.layers, DrawnOn float b width height) ↔
        ∀ sc ∈ s.scenes, ∀ b ∈ sc.layers, Scales float b)) ∧
    ∀ width height, s.display.width = some width → s.display.height = some height →
      ((∀ sc ∈ s.scenes, ∀ b ∈ sc.layers, DrawnOn float b width height) ↔
        ∀ sc ∈ s.scenes, ∀ b ∈ sc.layers, Begins float b width height) := by
  constructor
  · intro _
    constructor
    · intro hdrawn sc hsc b hb
      exact scales_of_drawn (hdrawn 8 8 (by decide) (by decide) sc hsc b hb)
        (hdrawn 4096 4096 (by decide) (by decide) sc hsc b hb)
    · intro hscales width height hwidth hheight sc hsc b hb
      obtain ⟨box, hp⟩ := check_ok h hsc hb
      exact drawn_of_scales hp (hscales sc hsc b hb) hwidth hheight
  · intro width height hw hh
    refine forall₂_congr fun sc hsc => forall₂_congr fun b hb => ?_
    obtain ⟨box, hp⟩ := check_ok h hsc hb
    exact drawn_declared hp hw hh

/-- A show of one layer, its edges fractions. -/
def oneLayer (x y w h : ℚ) : Show :=
  ⟨{}, [⟨['a'], [⟨.float (.ofRat _ x), .float (.ofRat _ y), .float (.ofRat _ w), .float (.ofRat _ h)⟩]⟩]⟩

theorem drawn_quarter : DrawnOn (fun _ => none) ⟨.float (.ofRat _ (1 / 4)), .float (.ofRat _ (1 / 4)),
    .float (.ofRat _ (1 / 2)), .float (.ofRat _ (1 / 2))⟩ 8 8 := by
  have hscales : ∀ sc ∈ (oneLayer (1 / 4) (1 / 4) (1 / 2) (1 / 2)).scenes, ∀ b ∈ sc.layers,
      Scales (fun _ => none) b := by
    intro sc hsc b hb
    obtain rfl := List.mem_singleton.mp hsc
    obtain rfl := List.mem_singleton.mp hb
    exact ⟨by decide +kernel, by decide +kernel, by decide +kernel⟩
  exact ((drawn_inside_iff (fun _ => none) (oneLayer (1 / 4) (1 / 4) (1 / 2) (1 / 2))
    (by decide +kernel)).1 (.inl rfl)).mpr hscales 8 8 (by decide) (by decide) _ List.mem_cons_self _
    List.mem_cons_self

/-- A thirty-second is 31 pixels of the size it is probed at, and none of eight. -/
theorem thin_layer_vanishes :
    ¬ ∀ (float : Text → Option Double) (s : Show), s.check float = .ok () →
      s.display.width = none ∨ s.display.height = none →
      ∀ width height : ℕ, 8 ≤ width ∧ width ≤ 4096 → 8 ≤ height ∧ height ≤ 4096 →
        ∀ sc ∈ s.scenes, ∀ b ∈ sc.layers, DrawnOn float b width height := by
  intro h
  obtain ⟨box, hbox, hw, -⟩ := h (fun _ => none) (oneLayer 0 0 (1 / 32) 1) (by decide +kernel)
    (.inl rfl) 8 8 (by decide) (by decide) _ List.mem_cons_self _ List.mem_cons_self
  have hzero : (oneLayer 0 0 (1 / 32) 1).scenes.flatMap (fun sc => sc.layers.map fun b =>
      (b.resolve (fun _ => none) 8 8).map Box.w) = [some 0] := by decide +kernel
  simp only [oneLayer, List.flatMap_cons, List.flatMap_nil, List.map_cons, List.map_nil,
    List.append_nil, List.cons.injEq, and_true] at hzero
  rw [hbox] at hzero
  rw [Option.some.inj hzero] at hw
  exact absurd hw (by decide)

end Boxes

end Ledwall.Server.Scenes
