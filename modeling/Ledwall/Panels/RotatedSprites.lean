import Mathlib.Tactic
import Ledwall.Panels.Sprites

/-! The spinning icon: the bounding reject in front of the inverse rotation. -/

namespace Ledwall.Panels

open Ledwall.Wire

/-- A value as an `i32` holds it. -/
def wrap (z : ℤ) : ℤ := z.bmod (2 ^ 32)

def SIN64 : List ℤ :=
  [0, 25, 50, 74, 98, 121, 142, 162, 181, 198, 213, 226, 237, 245, 251, 255,
    256, 255, 251, 245, 237, 226, 213, 198, 181, 162, 142, 121, 98, 74, 50, 25,
    0, -25, -50, -74, -98, -121, -142, -162, -181, -198, -213, -226, -237, -245, -251, -255,
    -256, -255, -251, -245, -237, -226, -213, -198, -181, -162, -142, -121, -98, -74, -50, -25]

def sin64 (a : ℕ) : ℤ := SIN64.getD (a % 64) 0

def cos64 (a : ℕ) : ℤ := SIN64.getD ((a + 16) % 64) 0

def unrotate (x y : ℕ) (cx cy : ℤ) (a : ℕ) : ℤ × ℤ :=
  let dx := wrap (wrap x - cx)
  let dy := wrap (wrap y - cy)
  let s := sin64 a
  let c := cos64 a
  (wrap (wrap (wrap (dx * c) + wrap (dy * s)) / 256 + cx),
    wrap (wrap (wrap (dy * c) - wrap (dx * s)) / 256 + cy))

def absDiff (x y : ℕ) : ℕ := if x < y then y - x else x - y

def shade (rampBase : Byte) (coverage : ℕ) : Byte := rampBase + BitVec.ofNat 8 (coverage % 16)

namespace Sprite

variable (sprite : Sprite)

/-- Unrotate, then sample. -/
def sampled (x y cx cy angle : ℕ) (ramp : Byte) : Option Byte :=
  let source := unrotate x y (wrap cx) (wrap cy) angle
  if source.1 < 0 ∨ source.2 < 0 then none
  else (sprite.coverAt source.1.toNat source.2.toNat (cx - sprite.w / 2) (cy - sprite.h / 2)).map
    (shade ramp)

def reach : ℕ := max sprite.w sprite.h * 3 / 4 + 1

/-- `sprite_rotated` -/
def rotated (x y cx cy angle : ℕ) (ramp : Byte) : Option Byte :=
  if sprite.reach < absDiff x cx ∨ sprite.reach < absDiff y cy then none
  else sprite.sampled x y cx cy angle ramp

end Sprite

/-- The rotated offset of a pixel, before its shift. -/
def across (dx dy : ℤ) (a : ℕ) : ℤ := dx * cos64 a + dy * sin64 a

def down (dx dy : ℤ) (a : ℕ) : ℤ := dy * cos64 a - dx * sin64 a

def FitsI32 (z : ℤ) : Prop := -2 ^ 31 ≤ z ∧ z < 2 ^ 31

instance (z : ℤ) : Decidable (FitsI32 z) := inferInstanceAs (Decidable (_ ∧ _))

/-- The rotation of an offset stays in range. -/
def Exact (dx dy : ℤ) (a : ℕ) : Prop := FitsI32 (across dx dy a) ∧ FitsI32 (down dx dy a)

instance (dx dy : ℤ) (a : ℕ) : Decidable (Exact dx dy a) := inferInstanceAs (Decidable (_ ∧ _))

theorem wrap_of_fits {z : ℤ} (h : FitsI32 z) : wrap z = z := by
  obtain ⟨hlow, hhigh⟩ := h
  apply Int.bmod_eq_of_le <;> norm_num <;> omega

theorem unrotate_eq (x y cx cy a : ℕ) (h : Exact ((x : ℤ) - cx) ((y : ℤ) - cy) a) :
    unrotate x y (wrap cx) (wrap cy) a =
      (wrap (across ((x : ℤ) - cx) ((y : ℤ) - cy) a / 256 + cx),
        wrap (down ((x : ℤ) - cx) ((y : ℤ) - cy) a / 256 + cy)) := by
  have hacross := wrap_of_fits h.1
  have hdown := wrap_of_fits h.2
  unfold wrap across down at *
  simp only [unrotate, wrap, Int.bmod_sub_bmod, Int.sub_bmod_bmod, Int.bmod_add_bmod,
    Int.add_bmod_bmod, Int.bmod_mul_bmod, hacross, hdown]

theorem sin64_eq (a : ℕ) : sin64 a = sin64 (a % 64) := by
  simp [sin64]

theorem cos64_eq (a : ℕ) : cos64 a = cos64 (a % 64) := by
  simp [cos64, Nat.add_mod]

/-- A turn is a rotation up to its rounding, at each of the 64 angles. -/
theorem turn_bound (a : ℕ) : 0 < cos64 a * cos64 a + sin64 a * sin64 a ∧
    12800000 * (|cos64 a| + |sin64 a|) ≤ 70719 * (cos64 a * cos64 a + sin64 a * sin64 a) := by
  have hturn : ∀ b < 64, 0 < cos64 b * cos64 b + sin64 b * sin64 b ∧
      12800000 * (|cos64 b| + |sin64 b|) ≤ 70719 * (cos64 b * cos64 b + sin64 b * sin64 b) := by
    decide +kernel
  rw [sin64_eq, cos64_eq]
  exact hturn _ (Nat.mod_lt a (by norm_num))

/-- What a rotated offset inside a square of side `m` says of the offset itself. -/
theorem offset_bound {p q c s u v m : ℤ} (hu : |u| ≤ 128 * (m + 1)) (hv : |v| ≤ 128 * (m + 1))
    (hpos : 0 < c * c + s * s)
    (hturn : 12800000 * (|c| + |s|) ≤ 70719 * (c * c + s * s))
    (hp : p * (c * c + s * s) = c * u + q * (s * v)) (hq : |q| = 1) :
    |p| ≤ m * 3 / 4 + 1 := by
  have hm : 0 ≤ m + 1 := by
    have hnonneg := abs_nonneg u
    omega
  have hscaled : |p| * (c * c + s * s) ≤ (|c| + |s|) * (128 * (m + 1)) := by
    calc |p| * (c * c + s * s) = |p * (c * c + s * s)| := by rw [abs_mul, abs_of_pos hpos]
      _ = |c * u + q * (s * v)| := by rw [hp]
      _ ≤ |c * u| + |q * (s * v)| := abs_add_le _ _
      _ = |c| * |u| + |s| * |v| := by rw [abs_mul, abs_mul q, hq, one_mul, abs_mul]
      _ ≤ |c| * (128 * (m + 1)) + |s| * (128 * (m + 1)) :=
        add_le_add (mul_le_mul_of_nonneg_left hu (abs_nonneg c))
          (mul_le_mul_of_nonneg_left hv (abs_nonneg s))
      _ = (|c| + |s|) * (128 * (m + 1)) := by ring
  have hratio : 100000 * |p| ≤ 70719 * (m + 1) := by
    apply le_of_mul_le_mul_right _ hpos
    calc 100000 * |p| * (c * c + s * s) ≤ 100000 * ((|c| + |s|) * (128 * (m + 1))) := by
          linarith only [hscaled]
      _ = 12800000 * (|c| + |s|) * (m + 1) := by ring
      _ ≤ 70719 * (c * c + s * s) * (m + 1) := mul_le_mul_of_nonneg_right hturn hm
      _ = 70719 * (m + 1) * (c * c + s * s) := by ring
  omega

/-- Where a coordinate is sampled inside a side of the sprite, its offset is within half a side. -/
theorem sampled_bound {z : ℤ} {centre side i : ℕ} (hz : FitsI32 z) (hside : side < 2 ^ 16)
    (hcentre : side / 2 ≤ centre) (hi : i < side)
    (hsample : wrap (z / 256 + centre) = ((centre - side / 2 + i : ℕ) : ℤ)) :
    |z| ≤ 128 * ((side : ℤ) + 1) := by
  obtain ⟨hlow, hhigh⟩ := hz
  obtain ⟨k, hk⟩ : ((2 ^ 32 : ℕ) : ℤ) ∣ wrap (z / 256 + centre) - (z / 256 + centre) :=
    Int.dvd_bmod_sub_self
  rw [hsample] at hk
  have hk0 : k = 0 := by
    push_cast at hk
    omega
  rw [hk0] at hk
  rw [abs_le]
  omega

namespace Sprite

variable {sprite : Sprite} {x y cx cy angle : ℕ}

theorem coverAt_bounds {x y ox oy c : ℕ} (h : sprite.coverAt x y ox oy = some c) :
    ∃ i < sprite.w, ∃ j < sprite.h, x = ox + i ∧ y = oy + j := by
  rw [coverAt_eq_ink] at h
  obtain ⟨i, hi, j, hj, hx, hy, -⟩ := ink_bounds h
  exact ⟨i, hi, j, hj, by omega, by omega⟩

/-- A pixel the rotation samples inside the sprite is within its reach. -/
theorem within_reach (hw : sprite.w < 2 ^ 16) (hh : sprite.h < 2 ^ 16) (hcx : sprite.w / 2 ≤ cx)
    (hcy : sprite.h / 2 ≤ cy) (hexact : Exact ((x : ℤ) - cx) ((y : ℤ) - cy) angle) {ramp c : Byte}
    (h : sprite.sampled x y cx cy angle ramp = some c) :
    absDiff x cx ≤ sprite.reach ∧ absDiff y cy ≤ sprite.reach := by
  rw [sampled, unrotate_eq x y cx cy angle hexact] at h
  dsimp only at h
  split at h
  · cases h
  · next hneg =>
    obtain ⟨coverage, hcover, -⟩ := Option.map_eq_some_iff.mp h
    obtain ⟨i, hi, j, hj, hsx, hsy⟩ := coverAt_bounds hcover
    have hu := sampled_bound hexact.1 hw hcx hi (by omega)
    have hv := sampled_bound hexact.2 hh hcy hj (by omega)
    have hside : (sprite.w : ℤ) ≤ (max sprite.w sprite.h : ℕ) ∧
        (sprite.h : ℤ) ≤ (max sprite.w sprite.h : ℕ) := by omega
    obtain ⟨hpos, hturn⟩ := turn_bound angle
    have hu' := hu.trans (mul_le_mul_of_nonneg_left (add_le_add_left hside.1 1) (by norm_num))
    have hv' := hv.trans (mul_le_mul_of_nonneg_left (add_le_add_left hside.2 1) (by norm_num))
    have hx := offset_bound hu' hv' hpos hturn (p := (x : ℤ) - cx) (q := -1)
      (by unfold across down; ring) (by norm_num)
    have hy := offset_bound hv' hu' hpos hturn (p := (y : ℤ) - cy) (q := 1)
      (by unfold across down; ring) (by norm_num)
    rw [abs_le] at hx hy
    unfold absDiff reach
    constructor <;> split <;> omega

/-- The reject takes nothing from the sprite wherever the rotation itself stays in range. -/
theorem rotated_eq_sampled (sprite : Sprite) (hw : sprite.w < 2 ^ 16) (hh : sprite.h < 2 ^ 16)
    (x y cx cy angle : ℕ) (hcx : sprite.w / 2 ≤ cx) (hcy : sprite.h / 2 ≤ cy)
    (hexact : Exact ((x : ℤ) - cx) ((y : ℤ) - cy) angle) (ramp : Byte) :
    sprite.rotated x y cx cy angle ramp = sprite.sampled x y cx cy angle ramp := by
  rw [rotated]
  split
  · next hfar =>
    cases hsampled : sprite.sampled x y cx cy angle ramp with
    | none => rfl
    | some c =>
      obtain ⟨hx, hy⟩ := within_reach hw hh hcx hcy hexact hsampled
      omega
  · rfl

theorem rotated_dot : (dot.w < 2 ^ 16 ∧ dot.h < 2 ^ 16 ∧ dot.w / 2 ≤ 3 ∧ dot.h / 2 ≤ 3 ∧
      Exact ((3 : ℕ) - (3 : ℕ)) ((4 : ℕ) - (3 : ℕ)) 8) ∧
    dot.rotated 3 4 3 3 8 32 = dot.sampled 3 4 3 3 8 32 :=
  ⟨by decide, rotated_eq_sampled dot (by decide) (by decide) 3 4 3 3 8 (by decide) (by decide)
    (by decide) 32⟩

/-- At a centre 2^24 away the product wraps to nothing, and only the reject tells the pixel from
the centre itself. -/
theorem rotated_far : dot.w / 2 ≤ 2 ^ 24 ∧ dot.h / 2 ≤ 0 ∧
    dot.rotated 0 0 (2 ^ 24) 0 0 32 = none ∧ dot.sampled 0 0 (2 ^ 24) 0 0 32 = some 47 := by
  decide +kernel

end Sprite

/-- Offsets below 2^22 are always in range, whatever the angle. -/
theorem exact_of_near {dx dy : ℤ} (hx : |dx| < 2 ^ 22) (hy : |dy| < 2 ^ 22) (a : ℕ) :
    Exact dx dy a := by
  have hturn : ∀ b < 64, |cos64 b| + |sin64 b| ≤ 362 := by decide +kernel
  have hsum := hturn (a % 64) (Nat.mod_lt a (by norm_num))
  rw [← sin64_eq, ← cos64_eq] at hsum
  have hbound : ∀ {p q : ℤ}, |p| < 2 ^ 22 → |q| < 2 ^ 22 →
      |p * cos64 a| + |q * sin64 a| ≤ 2 ^ 22 * 362 := by
    intro p q hp hq
    rw [abs_mul, abs_mul]
    calc |p| * |cos64 a| + |q| * |sin64 a| ≤ 2 ^ 22 * |cos64 a| + 2 ^ 22 * |sin64 a| :=
          add_le_add (mul_le_mul_of_nonneg_right hp.le (abs_nonneg _))
            (mul_le_mul_of_nonneg_right hq.le (abs_nonneg _))
      _ = 2 ^ 22 * (|cos64 a| + |sin64 a|) := by ring
      _ ≤ 2 ^ 22 * 362 := mul_le_mul_of_nonneg_left hsum (by norm_num)
  have hacross := (abs_add_le (dx * cos64 a) (dy * sin64 a)).trans (hbound hx hy)
  have hdown := (abs_sub (dy * cos64 a) (dx * sin64 a)).trans (hbound hy hx)
  rw [abs_le] at hacross hdown
  unfold Exact FitsI32 across down
  omega

end Ledwall.Panels
