import Mathlib.Tactic
import Ledwall.Values.ValuePush

/-! Sprites and fonts: what a run of text inks, and what the card's lookup finds of it. -/

namespace Ledwall.Panels

open Ledwall.Values Ledwall.Wire

/-- Four bits of coverage a pixel, two pixels a byte. -/
structure Sprite where
  w : ℕ
  h : ℕ
  data : List Byte
  whole : w * h ≤ 2 * data.length

namespace Sprite

/-- One pixel, fully covered. -/
def dot : Sprite := ⟨1, 1, [0xF0], by decide⟩

variable (sprite : Sprite)

def cover (x y : ℕ) : Option ℕ :=
  if sprite.w ≤ x ∨ sprite.h ≤ y then none
  else
    let i := y * sprite.w + x
    let b := sprite.data.getD (i / 2) 0
    some (if i % 2 = 0 then b.toNat / 16 else b.toNat % 16)

def coverAt (x y ox oy : ℕ) : Option ℕ :=
  if x < ox ∨ y < oy then none else (sprite.cover (x - ox) (y - oy)).filter fun c => c ≠ 0

/-- What the sprite inks at an offset from its origin. -/
def ink (dx dy : ℤ) : Option ℕ :=
  if dx < 0 ∨ dy < 0 then none else (sprite.cover dx.toNat dy.toNat).filter fun c => c ≠ 0

variable {sprite}

theorem ink_bounds {dx dy : ℤ} {c : ℕ} (h : sprite.ink dx dy = some c) :
    ∃ i < sprite.w, ∃ j < sprite.h, dx = i ∧ dy = j ∧ sprite.cover i j ≠ some 0 := by
  rw [ink] at h
  split at h
  · cases h
  · next hneg =>
    obtain ⟨hcover, hc⟩ := Option.filter_eq_some_iff.mp h
    have hin : ¬ (sprite.w ≤ dx.toNat ∨ sprite.h ≤ dy.toNat) := by
      intro hout
      rw [cover, if_pos hout] at hcover
      cases hcover
    refine ⟨dx.toNat, by omega, dy.toNat, by omega, by omega, by omega, ?_⟩
    rw [hcover]
    simpa using hc

/-- An icon is inked where the lookup finds it, inside its rectangle. -/
theorem coverAt_eq_ink (x y ox oy : ℕ) :
    sprite.coverAt x y ox oy = sprite.ink ((x : ℤ) - ox) ((y : ℤ) - oy) := by
  rw [coverAt, ink]
  by_cases h : x < ox ∨ y < oy
  · rw [if_pos h, if_pos (by omega)]
  · rw [if_neg h, if_neg (by omega)]
    congr 2 <;> omega

end Sprite

structure Glyph where
  ch : Char
  sprite : Sprite
  xoff : ℤ
  yoff : ℤ
  advance : ℕ

/-- `ascii` gives the glyph of each character from 32 on, 255 for none. -/
structure Font where
  glyphs : List Glyph
  ascent : ℕ
  lineHeight : ℕ
  fixedAdvance : ℕ
  advShift : ℕ
  ascii : List ℕ
  table : ascii.length = 96
  shift : 0 < advShift → fixedAdvance = 2 ^ advShift

namespace Font

variable (font : Font)

def glyph (ch : Char) : Option Glyph :=
  if 32 ≤ ch.toNat ∧ ch.toNat < 128 then
    let i := font.ascii.getD (ch.toNat - 32) 255
    if i ≠ 255 then font.glyphs[i]? else none
  else font.glyphs.find? fun g => g.ch = ch

def width (s : Str) : ℕ := (s.map fun c => (font.glyph c).elim 0 Glyph.advance).sum

/-- A glyph with its pen at `pen`, both from the run's origin. -/
def inkGlyph (g : Glyph) (pen dx dy : ℤ) : Option ℕ :=
  g.sprite.ink (dx - (pen + g.xoff)) (dy - (font.ascent + g.yoff))

/-- `b as char` -/
def byteGlyph (b : Byte) : Option Glyph := font.glyph (Char.ofNat b.toNat)

/-- The walk over a run, from the pixel's place in it. -/
def walk (dx dy : ℤ) : ℤ → Str → Option ℕ
  | _, [] => none
  | pen, ch :: s =>
    match font.glyph ch with
    | none => walk dx dy pen s
    | some g =>
      match font.inkGlyph g pen dx dy with
      | some c => some c
      | none => if dx + 64 < pen + g.advance then none else walk dx dy (pen + g.advance) s

def coverAt (s : Str) (x y ox oy : ℕ) : Option ℕ :=
  if y < oy ∨ oy + font.lineHeight ≤ y then none
  else if x < ox then none
  else if 0 < font.fixedAdvance then
    let dx := x - ox
    let cell := if 0 < font.advShift then dx >>> font.advShift else dx / font.fixedAdvance
    let off := if 0 < font.advShift then dx &&& (font.fixedAdvance - 1) else dx % font.fixedAdvance
    ((utf8 s)[cell]?.bind font.byteGlyph).bind fun g => font.inkGlyph g 0 off ((y : ℤ) - oy)
  else font.walk ((x : ℤ) - ox) ((y : ℤ) - oy) 0 s

/-- The glyphs of a run and their pens: one a byte in a face of one advance, else one a character
that has a glyph. -/
def penned (pen : ℕ) : Str → List (Glyph × ℕ)
  | [] => []
  | ch :: s =>
    match font.glyph ch with
    | none => penned pen s
    | some g => (g, pen) :: penned (pen + g.advance) s

def cells (k : ℕ) : List Byte → List (Glyph × ℕ)
  | [] => []
  | b :: bs =>
    match font.byteGlyph b with
    | none => cells (k + 1) bs
    | some g => (g, k * font.fixedAdvance) :: cells (k + 1) bs

def run (s : Str) : List (Glyph × ℕ) :=
  if 0 < font.fixedAdvance then font.cells 0 (utf8 s) else font.penned 0 s

/-- What the first glyph of the run that covers a pixel inks there. -/
def ink (s : Str) (dx dy : ℤ) : Option ℕ :=
  (font.run s).findSome? fun gp => font.inkGlyph gp.1 gp.2 dx dy

/-- A glyph's pixel of a run lies in the run's band and in its extent: from the origin to 4 beyond
the last advance; and in its own cell, or less than 64 left of its pen. -/
def FitsAt (width : ℕ) (gp : Glyph × ℕ) (i j : ℕ) : Prop :=
  0 ≤ gp.2 + gp.1.xoff + i ∧ gp.2 + gp.1.xoff + i < width + 4 ∧
    0 ≤ font.ascent + gp.1.yoff + j ∧ font.ascent + gp.1.yoff + j < font.lineHeight ∧
    if 0 < font.fixedAdvance then 0 ≤ gp.1.xoff + i ∧ gp.1.xoff + i < font.fixedAdvance
    else -64 ≤ gp.1.xoff + i

instance (width : ℕ) (gp : Glyph × ℕ) (i j : ℕ) : Decidable (font.FitsAt width gp i j) := by
  unfold FitsAt
  infer_instance

/-- Each pixel a run inks lies in its extent. -/
def Fits (s : Str) : Prop :=
  ∀ gp ∈ font.run s, ∀ i < gp.1.sprite.w, ∀ j < gp.1.sprite.h,
    gp.1.sprite.cover i j ≠ some 0 → font.FitsAt (font.width s) gp i j

instance (s : Str) : Decidable (font.Fits s) :=
  inferInstanceAs (Decidable (∀ gp ∈ font.run s, ∀ i < gp.1.sprite.w, ∀ j < gp.1.sprite.h,
    gp.1.sprite.cover i j ≠ some 0 → font.FitsAt (font.width s) gp i j))

variable {font} {s : Str}

theorem Fits.ink_bounds (h : font.Fits s) {gp : Glyph × ℕ} (hgp : gp ∈ font.run s) {dx dy : ℤ}
    {c : ℕ} (hink : font.inkGlyph gp.1 gp.2 dx dy = some c) :
    0 ≤ dx ∧ dx < font.width s + 4 ∧ 0 ≤ dy ∧ dy < font.lineHeight ∧
      if 0 < font.fixedAdvance then gp.2 ≤ dx ∧ dx < gp.2 + font.fixedAdvance
      else gp.2 ≤ dx + 64 := by
  obtain ⟨i, hi, j, hj, hdx, hdy, hcover⟩ := Sprite.ink_bounds hink
  obtain ⟨hleft, hright, htop, hbottom, hcell⟩ := h gp hgp i hi j hj hcover
  refine ⟨by omega, by omega, by omega, by omega, ?_⟩
  split
  · next hfixed =>
    rw [if_pos hfixed] at hcell
    omega
  · next hfixed =>
    rw [if_neg hfixed] at hcell
    omega

theorem penned_pen_le {pen : ℕ} {gp : Glyph × ℕ} (h : gp ∈ font.penned pen s) : pen ≤ gp.2 := by
  induction s generalizing pen with
  | nil => cases h
  | cons ch s ih =>
    rw [penned] at h
    split at h
    · exact ih h
    · rcases List.mem_cons.mp h with rfl | h
      · exact le_refl _
      · exact le_trans (Nat.le_add_right _ _) (ih h)

/-- The walk finds what the run inks, where no glyph reaches 64 left of its pen. -/
theorem walk_eq {dx dy : ℤ} {pen : ℕ} (h : ∀ gp ∈ font.penned pen s, ∀ c,
      font.inkGlyph gp.1 gp.2 dx dy = some c → gp.2 ≤ dx + 64) :
    font.walk dx dy pen s =
      (font.penned pen s).findSome? fun gp => font.inkGlyph gp.1 gp.2 dx dy := by
  induction s generalizing pen with
  | nil => rfl
  | cons ch s ih =>
    rw [walk, penned]
    cases hg : font.glyph ch with
    | none =>
      rw [penned, hg] at h
      exact ih h
    | some g =>
      rw [penned, hg] at h
      have hrest : ∀ gp ∈ font.penned (pen + g.advance) s, ∀ c,
          font.inkGlyph gp.1 gp.2 dx dy = some c → gp.2 ≤ dx + 64 :=
        fun gp hgp => h gp (List.mem_cons_of_mem _ hgp)
      have hih := ih hrest
      rw [Nat.cast_add] at hih
      simp only [List.findSome?_cons]
      cases hink : font.inkGlyph g pen dx dy with
      | some c => rfl
      | none =>
        simp only
        split
        · next hpast =>
          symm
          apply List.findSome?_eq_none_iff.mpr
          intro gp hgp
          cases hc : font.inkGlyph gp.1 gp.2 dx dy with
          | none => rfl
          | some c =>
            have hreach := hrest gp hgp c hc
            have hpen := penned_pen_le hgp
            omega
        · exact hih

section Slots

variable (font) in
/-- Glyphs side by side at the one advance, with gaps. -/
def slotted (k : ℕ) : List (Option Glyph) → List (Glyph × ℕ)
  | [] => []
  | none :: gs => slotted (k + 1) gs
  | some g :: gs => (g, k * font.fixedAdvance) :: slotted (k + 1) gs

lemma cells_eq_slotted (k : ℕ) (bs : List Byte) :
    font.cells k bs = font.slotted k (bs.map font.byteGlyph) := by
  induction bs generalizing k with
  | nil => rfl
  | cons b bs ih =>
    rw [cells, List.map_cons]
    cases font.byteGlyph b with
    | none => exact ih (k + 1)
    | some g => exact congrArg (_ :: ·) (ih (k + 1))

variable {gs : List (Option Glyph)} {k : ℕ}

lemma slotted_pen_le {gp : Glyph × ℕ} (h : gp ∈ font.slotted k gs) :
    k * font.fixedAdvance ≤ gp.2 := by
  induction gs generalizing k with
  | nil => cases h
  | cons g gs ih =>
    have hnext : k * font.fixedAdvance ≤ (k + 1) * font.fixedAdvance :=
      Nat.mul_le_mul_right _ (Nat.le_succ k)
    cases g with
    | none => exact hnext.trans (ih h)
    | some g =>
      rcases List.mem_cons.mp h with rfl | h
      · exact le_refl _
      · exact hnext.trans (ih h)

lemma slotted_none {dx : ℕ} {dy : ℤ} (hk : dx < k * font.fixedAdvance)
    (h : ∀ gp ∈ font.slotted k gs, ∀ c, font.inkGlyph gp.1 gp.2 dx dy = some c → gp.2 ≤ (dx : ℤ)) :
    (font.slotted k gs).findSome? (fun gp => font.inkGlyph gp.1 gp.2 dx dy) = none := by
  apply List.findSome?_eq_none_iff.mpr
  intro gp hgp
  cases hc : font.inkGlyph gp.1 gp.2 dx dy with
  | none => rfl
  | some c =>
    have hpen := slotted_pen_le hgp
    have hreach := h gp hgp c hc
    omega

/-- Where each glyph keeps to its slot, a pixel is inked from its own. -/
theorem slotted_eq {dx : ℕ} {dy : ℤ} (hadv : 0 < font.fixedAdvance)
    (hk : k ≤ dx / font.fixedAdvance) (h : ∀ gp ∈ font.slotted k gs, ∀ c,
      font.inkGlyph gp.1 gp.2 dx dy = some c → gp.2 ≤ (dx : ℤ) ∧ dx < gp.2 + font.fixedAdvance) :
    (font.slotted k gs).findSome? (fun gp => font.inkGlyph gp.1 gp.2 dx dy) =
      gs[dx / font.fixedAdvance - k]?.join.bind fun g =>
        font.inkGlyph g 0 ((dx % font.fixedAdvance : ℕ) : ℤ) dy := by
  induction gs generalizing k with
  | nil => rfl
  | cons g gs ih =>
    have hdx := Nat.div_add_mod' dx font.fixedAdvance
    have hmod := Nat.mod_lt dx hadv
    have hmul := Nat.add_one_mul k font.fixedAdvance
    have hrest : ∀ gp ∈ font.slotted (k + 1) gs, ∀ c, font.inkGlyph gp.1 gp.2 dx dy = some c →
        gp.2 ≤ (dx : ℤ) ∧ dx < gp.2 + font.fixedAdvance := by
      intro gp hgp
      apply h gp
      cases g with
      | none => exact hgp
      | some g => exact List.mem_cons_of_mem _ hgp
    rcases hk.eq_or_lt with rfl | hlt
    · -- the pixel's own slot: no later one inks it
      have hnone := slotted_none (by omega) fun gp hgp c hc => (hrest gp hgp c hc).1
      rw [Nat.sub_self, List.getElem?_cons_zero]
      cases g with
      | none => exact hnone
      | some g =>
        have hsame : font.inkGlyph g ((dx / font.fixedAdvance * font.fixedAdvance : ℕ) : ℤ) dx dy =
            font.inkGlyph g 0 ((dx % font.fixedAdvance : ℕ) : ℤ) dy := by
          rw [inkGlyph, inkGlyph]
          congr 1
          omega
        rw [slotted, List.findSome?_cons, hsame, hnone, Option.join_some, Option.bind_some]
        cases font.inkGlyph g 0 ((dx % font.fixedAdvance : ℕ) : ℤ) dy <;> rfl
    · -- an earlier slot ends before the pixel
      have hend : (k + 1) * font.fixedAdvance ≤ dx / font.fixedAdvance * font.fixedAdvance :=
        Nat.mul_le_mul_right _ hlt
      have hindex : dx / font.fixedAdvance - k = dx / font.fixedAdvance - (k + 1) + 1 := by omega
      rw [hindex, List.getElem?_cons_succ, ← ih hlt hrest]
      cases g with
      | none => rfl
      | some g =>
        rw [slotted, List.findSome?_cons]
        cases hc : font.inkGlyph g ((k * font.fixedAdvance : ℕ) : ℤ) dx dy with
        | none => rfl
        | some c =>
          obtain ⟨-, hreach⟩ := h _ List.mem_cons_self c hc
          have hreach' : dx < k * font.fixedAdvance + font.fixedAdvance := hreach
          omega

end Slots

lemma coverAt_fixed (hadv : 0 < font.fixedAdvance) {x y ox oy : ℕ}
    (hband : oy ≤ y ∧ y < oy + font.lineHeight) (hleft : ox ≤ x) :
    font.coverAt s x y ox oy = ((utf8 s)[(x - ox) / font.fixedAdvance]?.bind font.byteGlyph).bind
      fun g => font.inkGlyph g 0 (((x - ox) % font.fixedAdvance : ℕ) : ℤ) ((y : ℤ) - oy) := by
  have hcell : (if 0 < font.advShift then (x - ox) >>> font.advShift
      else (x - ox) / font.fixedAdvance) = (x - ox) / font.fixedAdvance := by
    split
    · next hshift => rw [font.shift hshift, Nat.shiftRight_eq_div_pow]
    · rfl
  have hoff : (if 0 < font.advShift then (x - ox) &&& (font.fixedAdvance - 1)
      else (x - ox) % font.fixedAdvance) = (x - ox) % font.fixedAdvance := by
    split
    · next hshift => rw [font.shift hshift, Nat.and_two_pow_sub_one_eq_mod]
    · rfl
  rw [coverAt, if_neg (by omega), if_neg (by omega), if_pos hadv]
  simp only [hcell, hoff]

/-- Inside the extent of a run that fits, the lookup finds what the run inks; outside, the run inks
nothing. -/
theorem coverAt_eq_ink (h : font.Fits s) (x y ox oy : ℕ) :
    (if oy ≤ y ∧ y < oy + font.lineHeight ∧ ox ≤ x ∧ x < ox + font.width s + 4 then
        font.coverAt s x y ox oy else none) = font.ink s ((x : ℤ) - ox) ((y : ℤ) - oy) := by
  have hbounds : ∀ gp ∈ font.run s, ∀ c,
      font.inkGlyph gp.1 gp.2 ((x : ℤ) - ox) ((y : ℤ) - oy) = some c → _ :=
    fun gp hgp c hc => h.ink_bounds hgp hc
  split
  · next hin =>
    obtain ⟨htop, hbottom, hleft, -⟩ := hin
    have hdx : (x : ℤ) - ox = ((x - ox : ℕ) : ℤ) := by omega
    rw [ink, run]
    split
    · next hadv =>
      have hown : ∀ gp ∈ font.slotted 0 ((utf8 s).map font.byteGlyph), ∀ c,
          font.inkGlyph gp.1 gp.2 ((x - ox : ℕ) : ℤ) ((y : ℤ) - oy) = some c →
            (gp.2 : ℤ) ≤ ((x - ox : ℕ) : ℤ) ∧ x - ox < gp.2 + font.fixedAdvance := by
        intro gp hgp c hc
        rw [← hdx] at hc
        rw [← cells_eq_slotted] at hgp
        have hb := (hbounds gp (by rwa [run, if_pos hadv]) c hc).2.2.2.2
        rw [if_pos hadv, hdx] at hb
        exact ⟨hb.1, by exact_mod_cast hb.2⟩
      have hslots := slotted_eq hadv (Nat.zero_le _) hown
      rw [Nat.sub_zero, List.getElem?_map] at hslots
      rw [coverAt_fixed hadv ⟨htop, hbottom⟩ hleft, cells_eq_slotted, hdx, hslots]
      cases (utf8 s)[(x - ox) / font.fixedAdvance]? <;> rfl
    · next hadv =>
      rw [coverAt, if_neg (by omega), if_neg (by omega), if_neg hadv]
      apply walk_eq
      intro gp hgp c hc
      have hb := (hbounds gp (by rwa [run, if_neg hadv]) c hc).2.2.2.2
      rw [if_neg hadv] at hb
      exact hb
  · next hout =>
    symm
    apply List.findSome?_eq_none_iff.mpr
    intro gp hgp
    cases hc : font.inkGlyph gp.1 gp.2 ((x : ℤ) - ox) ((y : ℤ) - oy) with
    | none => rfl
    | some c =>
      obtain ⟨hleft, hright, htop, hbottom, -⟩ := hbounds gp hgp c hc
      exact absurd ⟨by omega, by omega, by omega, by omega⟩ hout

end Font

end Ledwall.Panels
