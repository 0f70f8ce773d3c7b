import Mathlib.Algebra.Order.Field.Basic
import Ledwall.Library.Rounding
import Ledwall.Server.Renderer

/-! How a picture is framed: the filter chain of a video, and the fit of an image. -/

namespace Ledwall.Server.Fitting

open Ledwall.Library.Rounding
open Ledwall.Server.Rendering (Fit)

/-- A size in pixels, neither side of it zero. -/
structure Size where
  w : ℕ
  h : ℕ
  w_pos : 0 < w
  h_pos : 0 < h

/-- `max(1, k)` -/
def atLeastOne (k : ℤ) : ℕ := (max 1 k).toNat

lemma atLeastOne_pos (k : ℤ) : 0 < atLeastOne k := by
  unfold atLeastOne
  omega

/-- `int(q)` -/
def truncated (q : ℚ) : ℤ := if 0 ≤ q then ⌊q⌋ else ⌈q⌉

/-- `_SMART_CROP_BUDGET` -/
def smartCropBudget : ℚ := 3 / 20

section Scales

variable (sqrt : ℚ → ℚ) (sw sh tw th : ℕ)

def coverScale : ℚ := max (tw / sw) (th / sh)

def containScale : ℚ := min (tw / sw) (th / sh)

/-- `_smart_scale` -/
def smartScale : ℚ :=
  let cover := coverScale sw sh tw th
  let cw := sw * cover
  let ch := sh * cover
  let crop := max (if tw < cw then 1 - tw / cw else 0) (if th < ch then 1 - th / ch else 0)
  if crop ≤ smartCropBudget then cover else sqrt (tw / sw * (th / sh))

end Scales

section Chains

/-- A filter of the chain: `keeping` is a scale with `force_original_aspect_ratio`, which is
`increase` or `decrease`, and `pad` centres. -/
inductive Filter
  | scale (w h : ℕ)
  | keeping (grow : Bool) (w h : ℕ)
  | setsar
  | crop (w h : ℕ)
  | pad (w h : ℕ)

def sides (w h : ℕ) : String := toString w ++ ":" ++ toString h

def Filter.text : Filter → String
  | .scale w h => "scale=" ++ sides w h
  | .keeping true w h => "scale=" ++ sides w h ++ ":force_original_aspect_ratio=increase"
  | .keeping false w h => "scale=" ++ sides w h ++ ":force_original_aspect_ratio=decrease"
  | .setsar => "setsar=1"
  | .crop w h => "crop=" ++ sides w h
  | .pad w h => "pad=" ++ sides w h ++ ":(ow-iw)/2:(oh-ih)/2"

/-- What `ffprobe` says: a size, and how wide a pixel is. -/
structure Probe where
  w : ℤ
  h : ℤ
  sar : ℚ

/-- `_source_size`, of what the probe brought back, if anything. -/
def sourceSize (probe : Option Probe) : Option Size :=
  match probe with
  | none => none
  | some p =>
    if h : 0 < p.w ∧ 0 < p.h then
      some ⟨atLeastOne (roundEven (p.w * p.sar)), p.h.toNat, atLeastOne_pos _, by omega⟩
    else none

/-- The size a picture has at a scale. -/
def rounded (src : Size) (s : ℚ) : Size where
  w := atLeastOne (roundEven (src.w * s))
  h := atLeastOne (roundEven (src.h * s))
  w_pos := atLeastOne_pos _
  h_pos := atLeastOne_pos _

/-- `_filter` -/
def filter (sqrt : ℚ → ℚ) (fit : Fit) (box : Size) (src : Option Size) : List Filter :=
  match src, fit with
  | _, .stretch => [.scale box.w box.h]
  | none, .contain => [.keeping false box.w box.h, .pad box.w box.h]
  | none, _ => [.keeping true box.w box.h, .crop box.w box.h]
  | some src, .contain =>
    let t := rounded src (containScale src.w src.h box.w box.h)
    [.scale t.w t.h, .setsar, .pad box.w box.h]
  | some src, .smart =>
    let t := rounded src (smartScale sqrt src.w src.h box.w box.h)
    [.scale t.w t.h, .setsar, .crop (min t.w box.w) (min t.h box.h), .pad box.w box.h]
  | some src, .cover =>
    let t := rounded src (coverScale src.w src.h box.w box.h)
    [.scale t.w t.h, .setsar, .crop box.w box.h]

/-- The text that `ffmpeg` is handed. -/
def filterText (sqrt : ℚ → ℚ) (fit : Fit) (box : Size) (src : Option Size) : String :=
  ",".intercalate ((filter sqrt fit box src).map Filter.text)

/-- The size that a scale keeping the shape of its input gives it, in or around the one asked for. -/
abbrev Keeping := Bool → Size → Size → Size

/-- `decrease` stays inside the size asked for. -/
def Decreases (keeping : Keeping) : Prop :=
  ∀ input asked, (keeping false input asked).w ≤ asked.w ∧ (keeping false input asked).h ≤ asked.h

/-- `increase` covers it. -/
def Increases (keeping : Keeping) : Prop :=
  ∀ input asked, asked.w ≤ (keeping true input asked).w ∧ asked.h ≤ (keeping true input asked).h

/-- What a filter makes of an input, `none` when it refuses: a side of zero, a crop larger than its
input, a pad smaller than it. -/
def Filter.run (keeping : Keeping) (input : Size) : Filter → Option Size
  | .scale w h => if hp : 0 < w ∧ 0 < h then some ⟨w, h, hp.1, hp.2⟩ else none
  | .keeping grow w h => if hp : 0 < w ∧ 0 < h then some (keeping grow input ⟨w, h, hp.1, hp.2⟩) else none
  | .setsar => some input
  | .crop w h =>
    if hp : (0 < w ∧ 0 < h) ∧ w ≤ input.w ∧ h ≤ input.h then some ⟨w, h, hp.1.1, hp.1.2⟩ else none
  | .pad w h =>
    if hp : input.w ≤ w ∧ input.h ≤ h then
      some ⟨w, h, input.w_pos.trans_le hp.1, input.h_pos.trans_le hp.2⟩
    else none

def runChain (keeping : Keeping) (input : Size) (chain : List Filter) : Option Size :=
  chain.foldlM (Filter.run keeping) input

end Chains

section Images

/-- An image, of which the pixels inside are meant. -/
structure Image (α : Type) where
  w : ℕ
  h : ℕ
  pixel : ℕ → ℕ → α

variable {α : Type}

/-- The image library: black, and the pixels of a resized image. -/
structure Imaging (α : Type) where
  black : α
  resample : Image α → ℕ → ℕ → ℕ → ℕ → α

variable (imaging : Imaging α)

/-- `img.resize` -/
def Imaging.resize (img : Image α) (w h : ℕ) : Image α := ⟨w, h, imaging.resample img w h⟩

/-- `img.crop`: black where the box leaves the image. -/
def Imaging.crop (img : Image α) (left top right bottom : ℤ) : Image α where
  w := (right - left).toNat
  h := (bottom - top).toNat
  pixel x y :=
    if 0 ≤ left + x ∧ left + x < img.w ∧ 0 ≤ top + y ∧ top + y < img.h then
      img.pixel (left + x).toNat (top + y).toNat
    else imaging.black

/-- `Image.new`, and `paste` on it. -/
def Imaging.onCanvas (img : Image α) (w h : ℕ) (left top : ℤ) : Image α where
  w := w
  h := h
  pixel x y :=
    if left ≤ x ∧ x < left + img.w ∧ top ≤ y ∧ y < top + img.h then
      img.pixel (x - left).toNat (y - top).toNat
    else imaging.black

/-- The modes of an image layer. -/
inductive ImageFit
  | none
  | of (fit : Fit)

/-- `_fit` -/
def Imaging.fit (sqrt : ℚ → ℚ) (img : Image α) (box : Size) (mode : ImageFit) : Image α :=
  match mode with
  | .of .stretch => imaging.resize img box.w box.h
  | .none => img
  | .of fit =>
    let scale :=
      if fit = .smart then smartScale sqrt img.w img.h box.w box.h
      else if fit = .cover then coverScale img.w img.h box.w box.h
      else containScale img.w img.h box.w box.h
    let nw := atLeastOne (truncated (img.w * scale))
    let nh := atLeastOne (truncated (img.h * scale))
    let img := imaging.resize img nw nh
    if fit = .cover then
      let left := ((nw : ℤ) - box.w) / 2
      let top := ((nh : ℤ) - box.h) / 2
      imaging.crop img left top (left + box.w) (top + box.h)
    else
      let img :=
        if fit = .smart ∧ (box.w < nw ∨ box.h < nh) then
          let left := max 0 (((nw : ℤ) - box.w) / 2)
          let top := max 0 (((nh : ℤ) - box.h) / 2)
          imaging.crop img left top (left + min nw box.w) (top + min nh box.h)
        else img
      imaging.onCanvas img box.w box.h (((box.w : ℤ) - img.w) / 2) (((box.h : ℤ) - img.h) / 2)

/-- Every pixel of the one image is one of the other's, in their place. -/
def Image.Within (inner outer : Image α) : Prop :=
  ∃ left top, ∀ x < inner.w, ∀ y < inner.h,
    left + x < outer.w ∧ top + y < outer.h ∧ inner.pixel x y = outer.pixel (left + x) (top + y)

end Images

section Sizes

variable {q : ℚ} {n t sw sh tw th : ℕ}

lemma le_atLeastOne {k : ℤ} (h : (t : ℤ) ≤ k) : t ≤ atLeastOne k := by
  unfold atLeastOne
  omega

lemma atLeastOne_le {k : ℤ} (ht : 0 < t) (h : k ≤ t) : atLeastOne k ≤ t := by
  unfold atLeastOne
  omega

lemma truncated_of_nonneg (h : 0 ≤ q) : truncated q = ⌊q⌋ := if_pos h

lemma le_truncated (h : (t : ℚ) ≤ q) : (t : ℤ) ≤ truncated q := by
  rw [truncated_of_nonneg ((Nat.cast_nonneg t).trans h)]
  exact Int.le_floor.mpr (by exact_mod_cast h)

lemma truncated_le (h0 : 0 ≤ q) (h : q ≤ t) : truncated q ≤ t := by
  rw [truncated_of_nonneg h0]
  exact_mod_cast (Int.floor_le q).trans h

lemma cover_covers (tw th : ℕ) (hw : 0 < sw) (hh : 0 < sh) :
    (tw : ℚ) ≤ sw * coverScale sw sh tw th ∧ (th : ℚ) ≤ sh * coverScale sw sh tw th := by
  have hsw : (0 : ℚ) < sw := by exact_mod_cast hw
  have hsh : (0 : ℚ) < sh := by exact_mod_cast hh
  constructor
  · calc (tw : ℚ) = sw * (tw / sw) := (mul_div_cancel₀ _ hsw.ne').symm
      _ ≤ sw * coverScale sw sh tw th := mul_le_mul_of_nonneg_left (le_max_left _ _) hsw.le
  · calc (th : ℚ) = sh * (th / sh) := (mul_div_cancel₀ _ hsh.ne').symm
      _ ≤ sh * coverScale sw sh tw th := mul_le_mul_of_nonneg_left (le_max_right _ _) hsh.le

lemma contain_within (tw th : ℕ) (hw : 0 < sw) (hh : 0 < sh) :
    sw * containScale sw sh tw th ≤ (tw : ℚ) ∧ sh * containScale sw sh tw th ≤ (th : ℚ) := by
  have hsw : (0 : ℚ) < sw := by exact_mod_cast hw
  have hsh : (0 : ℚ) < sh := by exact_mod_cast hh
  constructor
  · calc sw * containScale sw sh tw th ≤ (sw : ℚ) * (tw / sw) :=
          mul_le_mul_of_nonneg_left (min_le_left _ _) hsw.le
      _ = tw := mul_div_cancel₀ _ hsw.ne'
  · calc sh * containScale sw sh tw th ≤ (sh : ℚ) * (th / sh) :=
          mul_le_mul_of_nonneg_left (min_le_right _ _) hsh.le
      _ = th := mul_div_cancel₀ _ hsh.ne'

lemma containScale_nonneg : 0 ≤ containScale sw sh tw th := by
  apply le_min <;> positivity

lemma rounded_covers (src box : Size) :
    box.w ≤ (rounded src (coverScale src.w src.h box.w box.h)).w ∧
      box.h ≤ (rounded src (coverScale src.w src.h box.w box.h)).h := by
  obtain ⟨hw, hh⟩ := cover_covers box.w box.h src.w_pos src.h_pos
  exact ⟨le_atLeastOne (le_roundEven (by exact_mod_cast hw)),
    le_atLeastOne (le_roundEven (by exact_mod_cast hh))⟩

lemma rounded_within (src box : Size) :
    (rounded src (containScale src.w src.h box.w box.h)).w ≤ box.w ∧
      (rounded src (containScale src.w src.h box.w box.h)).h ≤ box.h := by
  obtain ⟨hw, hh⟩ := contain_within box.w box.h src.w_pos src.h_pos
  exact ⟨atLeastOne_le box.w_pos (roundEven_le (by exact_mod_cast hw)),
    atLeastOne_le box.h_pos (roundEven_le (by exact_mod_cast hh))⟩

end Sizes

section Accepted

variable {keeping : Keeping} {input box t : Size}

@[simp] lemma run_scale : (Filter.scale t.w t.h).run keeping input = some t := by
  simp [Filter.run, t.w_pos, t.h_pos]

@[simp] lemma run_setsar : Filter.setsar.run keeping input = some input := rfl

@[simp] lemma run_keeping {grow : Bool} :
    (Filter.keeping grow t.w t.h).run keeping input = some (keeping grow input t) := by
  simp [Filter.run, t.w_pos, t.h_pos]

lemma run_crop (keeping : Keeping) (t : Size) (hw : t.w ≤ input.w) (hh : t.h ≤ input.h) :
    (Filter.crop t.w t.h).run keeping input = some t := by
  simp [Filter.run, t.w_pos, t.h_pos, hw, hh]

lemma run_pad (keeping : Keeping) (input : Size) (hw : input.w ≤ t.w) (hh : input.h ≤ t.h) :
    (Filter.pad t.w t.h).run keeping input = some t := by
  simp [Filter.run, hw, hh]

/-- What is left of a picture when its overflow is cut off. -/
def Size.meet (t box : Size) : Size :=
  ⟨min t.w box.w, min t.h box.h, lt_min t.w_pos box.w_pos, lt_min t.h_pos box.h_pos⟩

/-- The chain is accepted at every step, and it ends with the box. -/
theorem chain_exact (sqrt : ℚ → ℚ) (hdec : Decreases keeping) (hinc : Increases keeping) (fit : Fit)
    (box : Size) (src : Option Size) (input : Size) :
    runChain keeping input (filter sqrt fit box src) = some box := by
  unfold runChain
  cases src with
  | none =>
    cases fit with
    | stretch => simp [filter]
    | contain =>
      obtain ⟨hw, hh⟩ := hdec input box
      simp [filter, run_pad keeping _ hw hh]
    | cover | smart =>
      obtain ⟨hw, hh⟩ := hinc input box
      simp [filter, run_crop keeping _ hw hh]
  | some src =>
    cases fit with
    | stretch => simp [filter]
    | contain =>
      obtain ⟨hw, hh⟩ := rounded_within src box
      simp [filter, run_pad keeping _ hw hh]
    | cover =>
      obtain ⟨hw, hh⟩ := rounded_covers src box
      simp [filter, run_crop keeping _ hw hh]
    | smart =>
      -- what is left of the scaled picture is inside it and inside the box
      let t := rounded src (smartScale sqrt src.w src.h box.w box.h)
      have hcrop : (Filter.crop (t.meet box).w (t.meet box).h).run keeping t = some (t.meet box) :=
        run_crop keeping _ (min_le_left _ _) (min_le_left _ _)
      have hpad : (Filter.pad box.w box.h).run keeping (t.meet box) = some box :=
        run_pad keeping _ (min_le_right _ _) (min_le_right _ _)
      simp only [Size.meet, t] at hcrop hpad
      simp [filter, hcrop, hpad]

end Accepted

section Fits

variable {α : Type} (imaging : Imaging α) (img : Image α) {w h : ℕ}

lemma crop_within (hw : w ≤ img.w) (hh : h ≤ img.h) :
    (imaging.crop img (((img.w : ℤ) - w) / 2) (((img.h : ℤ) - h) / 2)
      (((img.w : ℤ) - w) / 2 + w) (((img.h : ℤ) - h) / 2 + h)).Within img := by
  refine ⟨(img.w - w) / 2, (img.h - h) / 2, ?_⟩
  intro x hx y hy
  have hx' : x < w := by simpa [Imaging.crop] using hx
  have hy' : y < h := by simpa [Imaging.crop] using hy
  have hleft : ((img.w : ℤ) - w) / 2 = ((img.w - w) / 2 : ℕ) := by omega
  have htop : ((img.h : ℤ) - h) / 2 = ((img.h - h) / 2 : ℕ) := by omega
  refine ⟨by omega, by omega, ?_⟩
  rw [hleft, htop]
  simp only [Imaging.crop]
  rw [if_pos (by omega)]
  congr 1

lemma canvas_within (hw : img.w ≤ w) (hh : img.h ≤ h) :
    img.Within (imaging.onCanvas img w h (((w : ℤ) - img.w) / 2) (((h : ℤ) - img.h) / 2)) := by
  refine ⟨(w - img.w) / 2, (h - img.h) / 2, ?_⟩
  intro x hx y hy
  have hleft : ((w : ℤ) - img.w) / 2 = ((w - img.w) / 2 : ℕ) := by omega
  have htop : ((h : ℤ) - img.h) / 2 = ((h - img.h) / 2 : ℕ) := by omega
  refine ⟨by simp only [Imaging.onCanvas]; omega, by simp only [Imaging.onCanvas]; omega, ?_⟩
  rw [hleft, htop]
  simp only [Imaging.onCanvas]
  rw [if_pos (by omega)]
  congr 1 <;> omega

lemma fit_size (sqrt : ℚ → ℚ) (box : Size) {mode : ImageFit} (hmode : mode ≠ .none) :
    (imaging.fit sqrt img box mode).w = box.w ∧ (imaging.fit sqrt img box mode).h = box.h := by
  cases mode with
  | none => exact absurd rfl hmode
  | of fit =>
    cases fit with
    | stretch => exact ⟨rfl, rfl⟩
    | cover => simp [Imaging.fit, Imaging.crop]
    | smart | contain => exact ⟨rfl, rfl⟩

lemma fit_cover_within (sqrt : ℚ → ℚ) (box : Size) (hw : 0 < img.w) (hh : 0 < img.h) :
    ∃ nw nh, (imaging.fit sqrt img box (.of .cover)).Within (imaging.resize img nw nh) := by
  obtain ⟨hcw, hch⟩ := cover_covers box.w box.h hw hh
  refine ⟨_, _, crop_within imaging (imaging.resize img _ _) ?_ ?_⟩
  · exact le_atLeastOne (le_truncated hcw)
  · exact le_atLeastOne (le_truncated hch)

lemma fit_contain_within (sqrt : ℚ → ℚ) (box : Size) (hw : 0 < img.w) (hh : 0 < img.h) :
    ∃ nw nh, 0 < nw ∧ 0 < nh ∧
      (imaging.resize img nw nh).Within (imaging.fit sqrt img box (.of .contain)) := by
  obtain ⟨hcw, hch⟩ := contain_within box.w box.h hw hh
  have hs : 0 ≤ containScale img.w img.h box.w box.h := containScale_nonneg
  refine ⟨_, _, atLeastOne_pos _, atLeastOne_pos _,
    canvas_within imaging (imaging.resize img _ _) ?_ ?_⟩
  · exact atLeastOne_le box.w_pos (truncated_le (mul_nonneg (Nat.cast_nonneg _) hs) hcw)
  · exact atLeastOne_le box.h_pos (truncated_le (mul_nonneg (Nat.cast_nonneg _) hs) hch)

end Fits

/-- The shape of the input at the other side asked for, rounded to the nearest. -/
def nearest (grow : Bool) (input asked : Size) : Size :=
  let w := (2 * asked.h * input.w + input.h) / (2 * input.h)
  let h := (2 * asked.w * input.h + input.w) / (2 * input.w)
  if grow then
    ⟨max asked.w w, max asked.h h, asked.w_pos.trans_le (le_max_left _ _),
      asked.h_pos.trans_le (le_max_left _ _)⟩
  else
    ⟨max 1 (min asked.w w), max 1 (min asked.h h), by omega, by omega⟩

lemma nearest_decreases : Decreases nearest := by
  intro input asked
  have hw := asked.w_pos
  have hh := asked.h_pos
  simp only [nearest, Bool.false_eq_true, if_false]
  omega

lemma nearest_increases : Increases nearest := by
  intro input asked
  simp only [nearest, if_true]
  omega

def grey : Imaging ℕ := ⟨0, fun img w h x y => img.pixel (x * img.w / w) (y * img.h / h)⟩

end Ledwall.Server.Fitting
