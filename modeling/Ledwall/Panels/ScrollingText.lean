import Ledwall.Panels.CachedMessages
import Ledwall.Panels.FixedAdvance
import Ledwall.Panels.RotatedSprites
import Mathlib.Algebra.Ring.Periodic
import Mathlib.Data.BitVec

/-! Tickers: a text of one advance, repeated without end and scrolled in the target's 32-bit words. -/

namespace Ledwall.Panels

open Ledwall.Values Ledwall.Wire

/-- A face of one advance, in the bits a font has for it. -/
structure FixedFont extends Font where
  pos : 0 < fixedAdvance
  small : fixedAdvance < 2 ^ 16

/-- A non-empty string of the target. -/
structure Tape where
  bytes : List Byte
  nonempty : bytes ≠ []
  fits : bytes.length < 2 ^ 31

namespace Font

variable (font : Font) (s : List Byte) (y oy : BitVec 32)

def OutsideBand : Prop := y < oy ∨ oy + BitVec.ofNat 32 font.lineHeight ≤ y

instance : Decidable (font.OutsideBand y oy) := inferInstanceAs (Decidable (_ ∨ _))

def glyphRow (g : Glyph) : ℤ :=
  (y - (oy + BitVec.ofNat 32 font.ascent + BitVec.ofInt 32 g.yoff)).toInt

def coverScroll (vx : BitVec 32) : Option ℕ :=
  let adv := BitVec.ofNat 32 font.fixedAdvance
  if adv = 0 ∨ s = [] ∨ font.OutsideBand y oy then none
  else
    let cell := if 0 < font.advShift then vx >>> font.advShift else vx / adv
    let off := if 0 < font.advShift then vx &&& (adv - 1) else vx % adv
    let n := BitVec.ofNat 32 s.length
    let ci := if n &&& (n - 1) = 0 then cell &&& (n - 1) else cell % n
    (s[ci.toNat]?.bind font.byteGlyph).bind fun g =>
      g.sprite.ink ((off.toNat : ℤ) - g.xoff) (font.glyphRow y oy g)

section Frames

variable (speed : BitVec 32) (ramp : Byte) (frame x : BitVec 32)

def scrollText : Option Byte := (font.coverScroll s y oy (x + frame * speed)).map (shade ramp)

/-- No result where the code divides by a period of 0. -/
def scrollTextRev : Option (Option Byte) :=
  let adv := BitVec.ofNat 32 font.fixedAdvance
  if adv = 0 ∨ s = [] then some none
  else
    let period := BitVec.ofNat 32 s.length * adv
    if period = 0 then none
    else
      some ((font.coverScroll s y oy (x + period - (frame * speed) % period)).map (shade ramp))

variable {ι : Type*} (b : Builders ι) (i : ι) (t : Tickers)

def scrollMessage : Option Byte × Tickers :=
  if font.OutsideBand y oy then (none, t)
  else
    let (s, t) := t.cachedMsg b i
    (font.scrollText s y oy speed ramp frame x, t)

def scrollMessageRev : Option (Option Byte) × Tickers :=
  if font.OutsideBand y oy then (some none, t)
  else
    let (s, t) := t.cachedMsg b i
    (font.scrollTextRev s y oy speed ramp frame x, t)

end Frames

/-- The endless repetition of the string at one of its columns: cell by cell, each character in its
own. -/
def column (v : ℤ) : Option ℕ :=
  if font.OutsideBand y oy then none
  else
    (s[(v / font.fixedAdvance % s.length).toNat]?.bind font.byteGlyph).bind fun g =>
      g.sprite.ink (v % font.fixedAdvance - g.xoff) (font.glyphRow y oy g)

end Font

/-- Frame 0 shows the pattern from its beginning, and a frame that shows it from anywhere is followed
by one that shows it moved by `v`, the largest frame by frame 0. -/
structure Evenly (shown : BitVec 32 → BitVec 32 → Option (Option Byte)) (pattern : ℤ → Option Byte)
    (v : ℤ) : Prop where
  start : ∀ x, shown 0 x = some (pattern x.toNat)
  moves : ∀ frame o, (∀ x, shown frame x = some (pattern (x.toNat + o))) →
    ∀ x, shown (frame + 1) x = some (pattern (x.toNat + (o + v)))

/-- At one row: the lookup is the endless repetition, and every ticker of that text scrolls evenly,
both ways. -/
structure Font.ScrollsEvenly (font : Font) (s : List Byte) (y oy : BitVec 32) : Prop where
  cover : ∀ vx, font.coverScroll s y oy vx = font.column s y oy vx.toNat
  text : ∀ speed ramp, Evenly (fun f x => some (font.scrollText s y oy speed ramp f x))
    (fun v => (font.column s y oy v).map (shade ramp)) speed.toNat
  textRev : ∀ speed ramp, Evenly (fun f x => font.scrollTextRev s y oy speed ramp f x)
    (fun v => (font.column s y oy v).map (shade ramp)) (-speed.toNat)
  message : ∀ {ι : Type} (b : Builders ι) (i : ι) (t : BitVec 32 → BitVec 32 → Tickers) speed ramp,
    (∀ f x, ((t f x).cachedMsg b i).1 = s) →
      Evenly (fun f x => some (font.scrollMessage y oy speed ramp f x b i (t f x)).1)
        (fun v => (font.column s y oy v).map (shade ramp)) speed.toNat
  messageRev : ∀ {ι : Type} (b : Builders ι) (i : ι) (t : BitVec 32 → BitVec 32 → Tickers)
    speed ramp, (∀ f x, ((t f x).cachedMsg b i).1 = s) →
      Evenly (fun f x => (font.scrollMessageRev y oy speed ramp f x b i (t f x)).1)
        (fun v => (font.column s y oy v).map (shade ramp)) (-speed.toNat)

section Words

variable {α : Type*} {g : ℤ → α} {a b : ℤ} {x z : BitVec 32}

lemma eq_of_modEq (h : Function.Periodic g (2 ^ 32)) (hab : a ≡ b [ZMOD 2 ^ 32]) : g a = g b := by
  obtain ⟨c, hc⟩ := hab.dvd
  rw [show b = a + c * 2 ^ 32 by linarith]
  exact (h.int_mul c a).symm

lemma toNat_add_modEq : ((x + z).toNat : ℤ) ≡ x.toNat + z.toNat [ZMOD 2 ^ 32] := by
  rw [BitVec.toNat_add]
  push_cast
  exact Int.mod_modEq _ _

lemma toNat_sub_modEq : ((x - z).toNat : ℤ) ≡ x.toNat - z.toNat [ZMOD 2 ^ 32] := by
  have h := toNat_add_modEq (x := x - z) (z := z)
  rw [BitVec.sub_add_cancel] at h
  simpa using h.symm.sub_right (z.toNat : ℤ)

lemma mask_toNat {k : ℕ} (h : z.toNat = 2 ^ k) : (x &&& (z - 1)).toNat = x.toNat % z.toNat := by
  have hpos : 0 < z.toNat := by
    rw [h]
    exact Nat.two_pow_pos k
  have hsub : (z - 1).toNat = 2 ^ k - 1 := by
    rw [← h]
    bv_omega
  rw [BitVec.toNat_and, hsub, Nat.and_two_pow_sub_one_eq_mod, h]

lemma powerOfTwo_of_mask (h : z ≠ 0) (hmask : z &&& (z - 1) = 0) : ∃ k, z.toNat = 2 ^ k := by
  have hne : z.toNat ≠ 0 := fun h0 => h (BitVec.eq_of_toNat_eq h0)
  have hsub : (z - 1).toNat = z.toNat - 1 := by bv_omega
  have hand := congrArg BitVec.toNat hmask
  rw [BitVec.toNat_and, hsub] at hand
  exact (Nat.and_sub_one_eq_zero_iff_isPowerOfTwo hne).mp hand

end Words

lemma Sprite.ink_lt {sprite : Sprite} {dx dy : ℤ} {c : ℕ} (h : sprite.ink dx dy = some c) :
    c < 16 := by
  rw [ink] at h
  split at h
  · cases h
  · obtain ⟨hcover, -⟩ := Option.filter_eq_some_iff.mp h
    rw [cover] at hcover
    split at hcover
    · cases hcover
    · obtain rfl := Option.some.inj hcover
      split <;> omega

lemma shade_injective {ramp : Byte} {c d : ℕ} (hc : c < 16) (hd : d < 16)
    (h : shade ramp c = shade ramp d) : c = d := by
  have hbits := congrArg BitVec.toNat ((BitVec.add_right_inj ramp).mp h)
  rw [BitVec.toNat_ofNat, BitVec.toNat_ofNat] at hbits
  omega

namespace Font

section Columns

variable {font : FixedFont} {s : Tape} {y oy : BitVec 32} {u v : ℤ}

lemma adv_toNat (font : FixedFont) :
    (BitVec.ofNat 32 font.fixedAdvance).toNat = font.fixedAdvance := by
  have hsmall := font.small
  rw [BitVec.toNat_ofNat, Nat.mod_eq_of_lt (by omega)]

lemma adv_ne_zero (font : FixedFont) : BitVec.ofNat 32 font.fixedAdvance ≠ 0 := by
  intro h
  have hzero := congrArg BitVec.toNat h
  rw [adv_toNat] at hzero
  exact font.pos.ne' hzero

lemma length_toNat (s : Tape) : (BitVec.ofNat 32 s.bytes.length).toNat = s.bytes.length := by
  have hfits := s.fits
  rw [BitVec.toNat_ofNat, Nat.mod_eq_of_lt (by omega)]

lemma length_pos (s : Tape) : 0 < s.bytes.length := List.length_pos_iff.mpr s.nonempty

lemma cell_toNat (font : FixedFont) (vx : BitVec 32) :
    (if 0 < font.advShift then vx >>> font.advShift
      else vx / BitVec.ofNat 32 font.fixedAdvance).toNat = vx.toNat / font.fixedAdvance := by
  split
  · next hshift =>
    rw [BitVec.toNat_ushiftRight, Nat.shiftRight_eq_div_pow, font.shift hshift]
  · rw [BitVec.toNat_udiv, adv_toNat]

lemma off_toNat (font : FixedFont) (vx : BitVec 32) :
    (if 0 < font.advShift then vx &&& (BitVec.ofNat 32 font.fixedAdvance - 1)
      else vx % BitVec.ofNat 32 font.fixedAdvance).toNat = vx.toNat % font.fixedAdvance := by
  split
  · next hshift =>
    rw [mask_toNat ((adv_toNat font).trans (font.shift hshift)), adv_toNat]
  · rw [BitVec.toNat_umod, adv_toNat]

lemma ci_toNat (s : Tape) (cell : BitVec 32) :
    (if BitVec.ofNat 32 s.bytes.length &&& (BitVec.ofNat 32 s.bytes.length - 1) = 0
      then cell &&& (BitVec.ofNat 32 s.bytes.length - 1)
      else cell % BitVec.ofNat 32 s.bytes.length).toNat = cell.toNat % s.bytes.length := by
  split
  · next hmask =>
    have hne : BitVec.ofNat 32 s.bytes.length ≠ 0 := by
      intro h
      have hzero := congrArg BitVec.toNat h
      rw [length_toNat] at hzero
      exact (length_pos s).ne' hzero
    obtain ⟨k, hk⟩ := powerOfTwo_of_mask hne hmask
    rw [mask_toNat hk, length_toNat]
  · rw [BitVec.toNat_umod, length_toNat]

lemma coverScroll_eq (font : FixedFont) (s : Tape) (y oy vx : BitVec 32) :
    font.coverScroll s.bytes y oy vx = font.column s.bytes y oy vx.toNat := by
  rw [coverScroll, column]
  by_cases hband : font.OutsideBand y oy
  · simp only [hband, or_true, if_true]
  · have hin : ¬ (BitVec.ofNat 32 font.fixedAdvance = 0 ∨ s.bytes = [] ∨ font.OutsideBand y oy) := by
      simp only [adv_ne_zero font, s.nonempty, hband, or_self, not_false_eq_true]
    dsimp only
    rw [if_neg hin, if_neg hband, ci_toNat, cell_toNat, off_toNat]
    rfl

lemma column_lt {c : ℕ} (h : font.column s.bytes y oy v = some c) : c < 16 := by
  rw [column] at h
  split at h
  · cases h
  · obtain ⟨g, -, hink⟩ := Option.bind_eq_some_iff.mp h
    exact Sprite.ink_lt hink

lemma column_of_shaded {ramp : Byte} (h : (font.column s.bytes y oy u).map (shade ramp) =
    (font.column s.bytes y oy v).map (shade ramp)) :
    font.column s.bytes y oy u = font.column s.bytes y oy v := by
  cases hu : font.column s.bytes y oy u with
  | none =>
    rw [hu] at h
    exact (Option.map_eq_none_iff.mp h.symm).symm
  | some c =>
    rw [hu] at h
    obtain ⟨d, hv, hshade⟩ := Option.map_eq_some_iff.mp h.symm
    rw [hv, shade_injective (column_lt hv) (column_lt hu) hshade]

/-- The columns of one repetition. -/
def tapeWidth (font : FixedFont) (s : Tape) : ℕ := s.bytes.length * font.fixedAdvance

lemma tapeWidth_pos (font : FixedFont) (s : Tape) : 0 < tapeWidth font s :=
  Nat.mul_pos (length_pos s) font.pos

lemma column_periodic (font : FixedFont) (s : Tape) (y oy : BitVec 32) :
    Function.Periodic (font.column s.bytes y oy) (tapeWidth font s) := by
  intro v
  have hpos : (font.fixedAdvance : ℤ) ≠ 0 := by
    have := font.pos
    omega
  rw [column, column, tapeWidth, Nat.cast_mul, Int.add_mul_ediv_right _ _ hpos, Int.add_emod_right,
    Int.add_mul_emod_self_right]

/-- The repetition comes out even in 2^32 columns. -/
def Wraps (font : FixedFont) (s : Tape) (y oy : BitVec 32) : Prop :=
  Function.Periodic (font.column s.bytes y oy) (2 ^ 32)

lemma wraps_of_dvd (h : tapeWidth font s ∣ 2 ^ 32) : Wraps font s y oy := by
  obtain ⟨k, hk⟩ := h
  have hmul := (column_periodic font s y oy).nat_mul k
  have hcast : ((k : ℕ) : ℤ) * tapeWidth font s = 2 ^ 32 := by
    rw [mul_comm]
    exact_mod_cast hk.symm
  rwa [hcast] at hmul

lemma wraps_of_emod (h : ∀ m : ℕ, font.column s.bytes y oy (m % 2 ^ 32 : ℕ) =
    font.column s.bytes y oy m) : Wraps font s y oy := by
  intro v
  have hper := column_periodic font s y oy
  obtain ⟨m, hm⟩ : ∃ m : ℕ, v + v.natAbs * tapeWidth font s = m := by
    have hpos := tapeWidth_pos font s
    have hle : (v.natAbs : ℤ) ≤ v.natAbs * tapeWidth font s := by
      exact le_mul_of_one_le_right (by omega) (by omega)
    exact ⟨(v + v.natAbs * tapeWidth font s).toNat, by omega⟩
  have hv := hper.nat_mul v.natAbs v
  have hv' := hper.nat_mul v.natAbs (v + 2 ^ 32)
  rw [hm] at hv
  have hcast : ((m + 2 ^ 32 : ℕ) : ℤ) = m + 2 ^ 32 := by norm_num
  rw [show v + 2 ^ 32 + (v.natAbs : ℕ) * (tapeWidth font s : ℤ) = ((m + 2 ^ 32 : ℕ) : ℤ) by omega]
    at hv'
  rw [← hv, ← hv', ← h m, ← h (m + 2 ^ 32), Nat.add_mod_right]

end Columns

section Scrolls

variable {font : FixedFont} {s : Tape} {y oy : BitVec 32} {ramp : Byte} {speed : BitVec 32}

/-- The columns as a ticker shows them. -/
def shaded (font : FixedFont) (s : Tape) (y oy : BitVec 32) (ramp : Byte) (v : ℤ) : Option Byte :=
  (font.column s.bytes y oy v).map (shade ramp)

lemma Wraps.periodic (h : Wraps font s y oy) (ramp : Byte) :
    Function.Periodic (shaded font s y oy ramp) (2 ^ 32) :=
  fun v => congrArg (Option.map (shade ramp)) (h v)

lemma scrollText_eq (frame x : BitVec 32) : font.scrollText s.bytes y oy speed ramp frame x =
    shaded font s y oy ramp (x + frame * speed).toNat := by
  rw [scrollText, coverScroll_eq, shaded]

lemma evenly_text (h : Wraps font s y oy) :
    Evenly (fun f x => some (font.scrollText s.bytes y oy speed ramp f x)) (shaded font s y oy ramp)
      speed.toNat := by
  constructor
  · intro x
    rw [scrollText_eq, zero_mul, add_zero]
  · intro frame o hshown x
    have hnext : x + (frame + 1) * speed = x + speed + frame * speed := by ring
    have hshown := hshown (x + speed)
    rw [scrollText_eq] at hshown ⊢
    rw [hnext, hshown]
    refine congrArg some (eq_of_modEq (h.periodic ramp) ?_)
    rw [show (x.toNat : ℤ) + (o + speed.toNat) = x.toNat + speed.toNat + o by ring]
    exact toNat_add_modEq.add_right o

lemma period_toNat (font : FixedFont) (s : Tape) :
    (BitVec.ofNat 32 s.bytes.length * BitVec.ofNat 32 font.fixedAdvance).toNat =
      tapeWidth font s % 2 ^ 32 := by
  rw [BitVec.toNat_mul, length_toNat, adv_toNat, tapeWidth]

lemma period_eq_zero_iff :
    BitVec.ofNat 32 s.bytes.length * BitVec.ofNat 32 font.fixedAdvance = 0 ↔
      2 ^ 32 ∣ tapeWidth font s := by
  rw [Nat.dvd_iff_mod_eq_zero, ← period_toNat]
  exact ⟨fun h => by rw [h]; rfl, fun h => BitVec.eq_of_toNat_eq h⟩

lemma Wraps.scrollTextRev_eq (h : Wraps font s y oy) (hzero : ¬ 2 ^ 32 ∣ tapeWidth font s)
    (frame x : BitVec 32) : font.scrollTextRev s.bytes y oy speed ramp frame x =
      some (shaded font s y oy ramp (x.toNat - (frame * speed).toNat)) := by
  rw [← period_eq_zero_iff] at hzero
  have hperiod := period_toNat font s
  rw [scrollTextRev, if_neg (by simp only [adv_ne_zero font, s.nonempty, or_self,
    not_false_eq_true])]
  dsimp only
  rw [if_neg hzero, coverScroll_eq]
  generalize BitVec.ofNat 32 s.bytes.length * BitVec.ofNat 32 font.fixedAdvance = period at hperiod
  generalize frame * speed = moved
  refine congrArg some ?_
  change shaded font s y oy ramp (x + period - moved % period).toNat = _
  have hword : ((x + period - moved % period).toNat : ℤ) ≡
      x.toNat + period.toNat - (moved % period).toNat [ZMOD 2 ^ 32] :=
    toNat_sub_modEq.trans (toNat_add_modEq.sub_right _)
  -- the 32-bit period is a period too, as the width and 2^32 are
  have hperiodic : Function.Periodic (shaded font s y oy ramp) period.toNat := by
    have hwidth : Function.Periodic (shaded font s y oy ramp) (tapeWidth font s) :=
      fun v => congrArg (Option.map (shade ramp)) (column_periodic font s y oy v)
    have hsub := hwidth.sub_period ((h.periodic ramp).int_mul (tapeWidth font s / 2 ^ 32))
    rw [Int.cast_id] at hsub
    rwa [show (period.toNat : ℤ) = tapeWidth font s - (tapeWidth font s : ℤ) / 2 ^ 32 * 2 ^ 32 by
      omega]
  have hdiv := Nat.div_add_mod moved.toNat period.toNat
  have hturns := hperiodic.nat_mul (moved.toNat / period.toNat + 1)
    (x.toNat - moved.toNat)
  rw [eq_of_modEq (h.periodic ramp) hword, ← hturns, BitVec.toNat_umod]
  congr 1
  have hcast : (moved.toNat : ℤ) = period.toNat * (moved.toNat / period.toNat : ℕ) +
      (moved.toNat % period.toNat : ℕ) := by exact_mod_cast hdiv.symm
  push_cast at hcast ⊢
  linarith

lemma evenly_textRev (h : Wraps font s y oy) (hzero : ¬ 2 ^ 32 ∣ tapeWidth font s) :
    Evenly (fun f x => font.scrollTextRev s.bytes y oy speed ramp f x) (shaded font s y oy ramp)
      (-speed.toNat) := by
  constructor
  · intro x
    rw [h.scrollTextRev_eq hzero, zero_mul]
    simp
  · intro frame o hshown x
    have hshown := hshown (x - speed)
    rw [h.scrollTextRev_eq hzero] at hshown ⊢
    have hnext : ((frame + 1) * speed : BitVec 32) = frame * speed + speed := by ring
    have hfrom : (x.toNat : ℤ) - ((frame + 1) * speed).toNat ≡
        (x - speed).toNat - (frame * speed).toNat [ZMOD 2 ^ 32] := by
      rw [hnext]
      have hsum := toNat_add_modEq (x := frame * speed) (z := speed)
      have hsub := toNat_sub_modEq (x := x) (z := speed)
      calc (x.toNat : ℤ) - (frame * speed + speed).toNat
          ≡ x.toNat - ((frame * speed).toNat + speed.toNat) [ZMOD 2 ^ 32] := hsum.sub_left _
        _ = x.toNat - speed.toNat - (frame * speed).toNat := by ring
        _ ≡ (x - speed).toNat - (frame * speed).toNat [ZMOD 2 ^ 32] := (hsub.symm).sub_right _
    rw [eq_of_modEq (h.periodic ramp) hfrom, hshown]
    refine congrArg some (eq_of_modEq (h.periodic ramp) ?_)
    rw [show (x.toNat : ℤ) + (o + -speed.toNat) = x.toNat - speed.toNat + o by ring]
    exact toNat_sub_modEq.add_right o

lemma shows_of_evenly (h : Evenly (fun f x => some (font.scrollText s.bytes y oy 1 ramp f x))
    (shaded font s y oy ramp) 1) (m : ℕ) (x : BitVec 32) :
    some (font.scrollText s.bytes y oy 1 ramp (BitVec.ofNat 32 m) x) =
      some (shaded font s y oy ramp (x.toNat + m)) := by
  induction m generalizing x with
  | zero =>
    have hstart := h.start x
    simpa using hstart
  | succ m ih =>
    have hnext := h.moves (BitVec.ofNat 32 m) m ih x
    rw [BitVec.ofNat_add]
    push_cast
    exact hnext

lemma wraps_of_evenly (h : Evenly (fun f x => some (font.scrollText s.bytes y oy 1 ramp f x))
    (shaded font s y oy ramp) 1) : Wraps font s y oy := by
  apply wraps_of_emod
  intro m
  have hshown := Option.some.inj (shows_of_evenly h m 0)
  rw [scrollText_eq, zero_add, mul_one, BitVec.toNat_ofNat] at hshown
  have hcolumn := column_of_shaded hshown
  simpa using hcolumn

lemma scrollMessage_eq {ι : Type} {b : Builders ι} {i : ι} {t : Tickers}
    (h : (t.cachedMsg b i).1 = s.bytes) (frame x : BitVec 32) :
    (font.scrollMessage y oy speed ramp frame x b i t).1 =
      font.scrollText s.bytes y oy speed ramp frame x := by
  rw [scrollMessage]
  split
  · next hband => rw [scrollText_eq, shaded, column, if_pos hband, Option.map_none]
  · rw [← h]

lemma scrollMessageRev_eq {ι : Type} {b : Builders ι} {i : ι} {t : Tickers}
    (h : (t.cachedMsg b i).1 = s.bytes) (hwraps : Wraps font s y oy)
    (hzero : ¬ 2 ^ 32 ∣ tapeWidth font s) (frame x : BitVec 32) :
    (font.scrollMessageRev y oy speed ramp frame x b i t).1 =
      font.scrollTextRev s.bytes y oy speed ramp frame x := by
  rw [scrollMessageRev]
  split
  · next hband => rw [hwraps.scrollTextRev_eq hzero, shaded, column, if_pos hband, Option.map_none]
  · rw [← h]

lemma scrollsEvenly_iff : font.ScrollsEvenly s.bytes y oy ↔
    Wraps font s y oy ∧ ¬ 2 ^ 32 ∣ tapeWidth font s := by
  constructor
  · intro h
    refine ⟨wraps_of_evenly (h.text 1 0), fun hdvd => ?_⟩
    have hstart := (h.textRev 0 0).start 0
    rw [← period_eq_zero_iff] at hdvd
    rw [scrollTextRev, if_neg (by simp only [adv_ne_zero font, s.nonempty, or_self,
      not_false_eq_true])] at hstart
    dsimp only at hstart
    rw [if_pos hdvd] at hstart
    cases hstart
  · rintro ⟨hwraps, hzero⟩
    refine ⟨coverScroll_eq font s y oy, fun speed ramp => evenly_text hwraps,
      fun speed ramp => evenly_textRev hwraps hzero, ?_, ?_⟩
    · intro ι b i t speed ramp htext
      rw [funext₂ fun f x => congrArg some (scrollMessage_eq (htext f x) f x)]
      exact evenly_text hwraps
    · intro ι b i t speed ramp htext
      rw [funext₂ fun f x => scrollMessageRev_eq (htext f x) hwraps hzero f x]
      exact evenly_textRev hwraps hzero

lemma scrollsEvenly_of_dvd (h : tapeWidth font s ∣ 2 ^ 32) (hlt : tapeWidth font s < 2 ^ 32) :
    font.ScrollsEvenly s.bytes y oy :=
  scrollsEvenly_iff.mpr ⟨wraps_of_dvd h, Nat.not_dvd_of_pos_of_lt (tapeWidth_pos font s) hlt⟩

/-- The lookup is always the endless repetition. Every ticker of a text scrolls evenly, at every
speed, just when the repetition comes out even in 2^32 columns and does not take a multiple of them
for one round. -/
theorem scrolls_evenly_iff_wraps (font : FixedFont) (s : Tape) (y oy : BitVec 32) :
    (∀ vx, font.coverScroll s.bytes y oy vx = font.column s.bytes y oy vx.toNat) ∧
      (font.ScrollsEvenly s.bytes y oy ↔ Wraps font s y oy ∧ ¬ 2 ^ 32 ∣ tapeWidth font s) :=
  ⟨coverScroll_eq font s y oy, scrollsEvenly_iff⟩

/-- The dot and two blanks. -/
def dotted : Tape := ⟨Values.ascii "A  ", by decide, by decide⟩

def dotsFixed : FixedFont := { dots with pos := by decide, small := by decide }

/-- Three columns a round: at the largest frame the dot is where it is at frame 0. -/
theorem ticker_jumps : ¬ ∀ (font : FixedFont) (s : Tape) (y oy : BitVec 32),
    font.ScrollsEvenly s.bytes y oy := by
  intro hclaim
  have hwraps := (scrollsEvenly_iff.mp (hclaim dotsFixed dotted 0 0)).1 0
  rw [zero_add] at hwraps
  exact absurd hwraps (by decide +kernel)

end Scrolls

end Font

end Ledwall.Panels
