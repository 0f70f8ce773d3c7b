import Mathlib.Data.List.ProdSigma
import Ledwall.Gateware.RowModule
import Ledwall.Gateware.RowRun

/-! Which image pixel stands at which place of which panel: the geometry a scan-out is for, and when
the addresses of the generator are those. -/

namespace Ledwall.Gateware

open RowFetch

/-- A panel's column `k` and row `r`, turned and counted from the panel's corner in the image. -/
def PanelSize.rotated (z : PanelSize) (rot : BitVec 2) (k r : ℕ) : ℕ × ℕ :=
  match rot with
  | 0 => (k, r)
  | 1 => (2 * z.rowsPerHalf - 1 - r, k)
  | 2 => (z.columns - 1 - k, 2 * z.rowsPerHalf - 1 - r)
  | 3 => (r, z.columns - 1 - k)

/-- Width and height of a turned panel. -/
def PanelSize.extent (z : PanelSize) (rot : BitVec 2) : ℕ × ℕ :=
  match rot with
  | 0 | 2 => (z.columns, 2 * z.rowsPerHalf)
  | 1 | 3 => (2 * z.rowsPerHalf, z.columns)

namespace RowSettings

variable (z : PanelSize) (gamma : BitVec 8 → BitVec 8) (v : RowSettings)

/-- The row of the panel that half `h` is shown. -/
def panelRow (h : ℕ) : ℕ := h * z.rowsPerHalf + v.row

/-- The image pixel for column `k` of half `h` of panel `s`, counted along the image. -/
def imagePixel (s h k : ℕ) : ℕ :=
  let place := z.rotated (v.panelConfig s).rot k (v.panelRow z h)
  (place.2 + (v.panelConfig s).y.toNat * 16) * v.imageWidth.toNat + place.1 +
    (v.panelConfig s).x.toNat * 16

/-- The word it is kept in. -/
def imageWord (s h k : ℕ) : BitVec 32 := v.fbBase.setWidth 32 + BitVec.ofNat 32 (v.imagePixel z s h k)

/-- The panels are inside an image that a half holds. -/
def Inside (imageHeight : ℕ) : Prop :=
  v.imageWidth.toNat * imageHeight ≤ halfWords.toNat ∧ ∀ s < z.panels,
    (v.panelConfig s).x.toNat * 16 + (z.extent (v.panelConfig s).rot).1 ≤ v.imageWidth.toNat ∧
      (v.panelConfig s).y.toNat * 16 + (z.extent (v.panelConfig s).rot).2 ≤ imageHeight

instance (imageHeight : ℕ) : Decidable (v.Inside z imageHeight) := inferInstanceAs (Decidable (_ ∧ _))

/-- A panel that the offsets reach all of. -/
def Placed (s : ℕ) : Prop :=
  match (v.panelConfig s).rot with
  | 0 => z.rowsPerHalf + v.row < 128
  | 1 => False
  | 2 => False
  | 3 => z.columns ≤ 128 ∧ z.rowsPerHalf + v.row < z.columns

end RowSettings

namespace PanelSize

variable {z : PanelSize} {s h k : ℕ}

lemma index_column (hk : k < 2 ^ z.columnsBits) : z.index s h k % 2 ^ z.columnsBits = k := by
  rw [index, Nat.mul_add_mod_self_right, Nat.mod_eq_of_lt hk]

lemma index_half (hk : k < 2 ^ z.columnsBits) (hh : h < 2) :
    z.index s h k / 2 ^ z.columnsBits % 2 = h := by
  rw [index, Nat.add_comm, Nat.add_mul_div_right _ _ (Nat.two_pow_pos _), Nat.div_eq_of_lt hk]
  omega

lemma panelOf_index (hk : k < 2 ^ z.columnsBits) (hh : h < 2) : z.panelOf (z.index s h k) = s := by
  rw [panelOf, Nat.pow_succ, ← Nat.div_div_eq_div_mul, index, Nat.add_comm,
    Nat.add_mul_div_right _ _ (Nat.two_pow_pos _), Nat.div_eq_of_lt hk]
  omega

lemma outputOf_index {o c : ℕ} (hk : k < 2 ^ z.columnsBits) (hh : h < 2) (hc : c < 2 ^ z.chainLength2) :
    z.outputOf (z.index (o * 2 ^ z.chainLength2 + c) h k) = o := by
  have hp := panelOf_index (s := o * 2 ^ z.chainLength2 + c) hk hh
  rw [panelOf] at hp
  rw [outputOf, Nat.pow_add _ (z.columnsBits + 1), ← Nat.div_div_eq_div_mul, hp, Nat.add_comm,
    Nat.add_mul_div_right _ _ (Nat.two_pow_pos _), Nat.div_eq_of_lt hc, Nat.zero_add]

lemma addressOf_index {o c : ℕ} (hk : k < 2 ^ z.columnsBits) (hh : h < 2) (hc : c < 2 ^ z.chainLength2) :
    z.addressOf (z.index (o * 2 ^ z.chainLength2 + c) h k) = 2 * (c * 2 ^ z.columnsBits + k) + h := by
  have hp := panelOf_index (s := o * 2 ^ z.chainLength2 + c) hk hh
  rw [panelOf] at hp
  rw [addressOf, index_half hk hh, index_column hk, hp, Nat.mul_comm o, Nat.mul_add_mod,
    Nat.mod_eq_of_lt hc, Nat.pow_succ]
  ring

lemma index_lt (hz : z.columns = 2 ^ z.columnsBits) (hs : s < z.panels) (hk : k < z.columns) (hh : h < 2) :
    z.index s h k < z.total := by
  rw [total_eq, index, ← hz]
  calc (2 * s + h) * z.columns + k < (2 * s + h + 1) * z.columns := by
        rw [Nat.add_one_mul (2 * s + h)]
        omega
    _ ≤ 2 * z.panels * z.columns := Nat.mul_le_mul_right _ (by omega)

lemma index_panelOf (m : ℕ) : z.index (z.panelOf m) (m / 2 ^ z.columnsBits % 2)
    (m % 2 ^ z.columnsBits) = m := by
  have hm := Nat.div_add_mod m (2 ^ z.columnsBits)
  rw [panelOf, Nat.pow_succ, ← Nat.div_div_eq_div_mul, index, Nat.div_add_mod, Nat.mul_comm, hm]

end PanelSize

namespace RowSettings

variable {z : PanelSize} {gamma : BitVec 8 → BitVec 8} {v : RowSettings} {s h k : ℕ}

/-- The seven bits a row is formed in. -/
def rowComb (z : PanelSize) (v : RowSettings) (h : ℕ) : ℕ := v.panelRow z h % 2 ^ 7

/-- The offsets the generator forms. -/
def offsets (z : PanelSize) (v : RowSettings) (rot : BitVec 2) (h k : ℕ) : ℕ × ℕ :=
  match rot with
  | 0 => (k % 2 ^ z.columnsBits, v.rowComb z h % 2 ^ 7)
  | 1 => (subBits z.columnsBits (z.rowsPerHalf - 1) (v.rowComb z h), k % 2 ^ 7)
  | 2 => (subBits z.columnsBits (z.columns - 1) k, subBits 7 (z.rowsPerHalf - 1) (v.rowComb z h))
  | 3 => (v.rowComb z h % 2 ^ z.columnsBits, subBits 7 (z.columns - 1) k)

def offsetPixel (z : PanelSize) (v : RowSettings) (s h k : ℕ) : ℕ :=
  let place := v.offsets z (v.panelConfig s).rot h k
  (place.2 + (v.panelConfig s).y.toNat * 16) * v.imageWidth.toNat + place.1 +
    (v.panelConfig s).x.toNat * 16

lemma address_index (hk : k < 2 ^ z.columnsBits) (hh : h < 2) :
    (v.address z (z.index s h k)).word =
      v.fbBase.setWidth 32 + BitVec.ofNat 32 (v.offsetPixel z s h k) := by
  rw [address, FbAddress.word, RamAddressGenerator.offset, RamAddressGenerator.xOffset,
    RamAddressGenerator.yOffset, RamAddressGenerator.rowComb, RamAddressGenerator.collumn,
    RamAddressGenerator.halfSelect, PanelSize.panelOf_index hk hh, PanelSize.index_column hk,
    PanelSize.index_half hk hh, offsetPixel, offsets.eq_def]
  dsimp only
  congr 2
  have hrot : ∀ rot : BitVec 2, rot = 0 ∨ rot = 1 ∨ rot = 2 ∨ rot = 3 := by decide
  generalize (v.panelConfig s).rot = rot
  rcases hrot rot with rfl | rfl | rfl | rfl <;> rfl

lemma subBits_lt (n : ℕ) (a : ℤ) (b : ℕ) : subBits n a b < 2 ^ n := by
  have hpos : (0 : ℤ) < 2 ^ n := by positivity
  have hlt := Int.emod_lt_of_pos (a - b) hpos
  rw [subBits, Int.toNat_lt (Int.emod_nonneg _ hpos.ne')]
  exact_mod_cast hlt

lemma subBits_eq {n a b : ℕ} (hb : b < a) : subBits n ((a : ℤ) - 1) b = (a - 1 - b) % 2 ^ n := by
  have hcast : (a : ℤ) - 1 - b = ((a - 1 - b : ℕ) : ℤ) := by omega
  rw [subBits, hcast]
  norm_cast

lemma offsets_lt (rot : BitVec 2) :
    (v.offsets z rot h k).1 < 2 ^ z.columnsBits ∧ (v.offsets z rot h k).2 < 2 ^ 7 := by
  have hcolumn (m : ℕ) : m % 2 ^ z.columnsBits < 2 ^ z.columnsBits :=
    Nat.mod_lt _ (Nat.two_pow_pos _)
  have hrow (m : ℕ) : m % 2 ^ 7 < 2 ^ 7 := Nat.mod_lt _ (Nat.two_pow_pos _)
  match rot with
  | 0 => exact ⟨hcolumn _, hrow _⟩
  | 1 => exact ⟨subBits_lt _ _ _, hrow _⟩
  | 2 => exact ⟨subBits_lt _ _ _, subBits_lt _ _ _⟩
  | 3 => exact ⟨hcolumn _, subBits_lt _ _ _⟩

lemma rotated_lt (rot : BitVec 2) {r : ℕ} (hk : k < z.columns) (hr : r < 2 * z.rowsPerHalf) :
    (z.rotated rot k r).1 < (z.extent rot).1 ∧ (z.rotated rot k r).2 < (z.extent rot).2 := by
  match rot with
  | 0 => exact ⟨hk, hr⟩
  | 1 => exact ⟨show 2 * z.rowsPerHalf - 1 - r < 2 * z.rowsPerHalf by omega, hk⟩
  | 2 => exact ⟨show z.columns - 1 - k < z.columns by omega,
      show 2 * z.rowsPerHalf - 1 - r < 2 * z.rowsPerHalf by omega⟩
  | 3 => exact ⟨hr, show z.columns - 1 - k < z.columns by omega⟩

lemma panelRow_lt (hrow : v.row < z.rowsPerHalf) (hh : h < 2) : v.panelRow z h < 2 * z.rowsPerHalf := by
  have hle : h * z.rowsPerHalf ≤ 1 * z.rowsPerHalf := Nat.mul_le_mul_right _ (by omega)
  rw [panelRow]
  omega

lemma place_inj {x y x' y' w : ℕ} (hx : x ≤ x') (hy : y ≤ y') (hw : 0 < w)
    (h : y * w + x = y' * w + x') : x = x' ∧ y = y' := by
  have hmul : y * w ≤ y' * w := Nat.mul_le_mul_right w hy
  have hsame : y * w = y' * w := by omega
  exact ⟨by omega, Nat.eq_of_mul_eq_mul_right hw hsame⟩

section Rotations

variable {w : ℕ} (hw : 0 < w) (hz : z.columns = 2 ^ z.columnsBits) (hpos : 0 < z.columns)
  (hrow : v.row < z.rowsPerHalf)

/-- The offsets of every pixel are its place, as they are counted along an image `w` wide. -/
def Agree (z : PanelSize) (v : RowSettings) (w : ℕ) (rot : BitVec 2) : Prop :=
  ∀ h < 2, ∀ k < z.columns, (v.offsets z rot h k).2 * w + (v.offsets z rot h k).1 =
    (z.rotated rot k (v.panelRow z h)).2 * w + (z.rotated rot k (v.panelRow z h)).1

lemma panelRow_le (hh : h < 2) : v.panelRow z h ≤ z.rowsPerHalf + v.row := by
  have hle : h * z.rowsPerHalf ≤ 1 * z.rowsPerHalf := Nat.mul_le_mul_right _ (by omega)
  rw [panelRow]
  omega

include hw hz hpos

lemma agree_upright : v.Agree z w 0 ↔ z.rowsPerHalf + v.row < 128 := by
  constructor
  · intro h
    have hlast := h 1 (by decide) 0 hpos
    change v.rowComb z 1 % 2 ^ 7 * w + 0 % 2 ^ z.columnsBits = v.panelRow z 1 * w + 0 at hlast
    rw [Nat.zero_mod, rowComb, Nat.mod_mod] at hlast
    have hsame := (place_inj le_rfl (Nat.mod_le _ _) hw hlast).2
    have hlt := Nat.mod_lt (v.panelRow z 1) (show 0 < 2 ^ 7 by decide)
    rw [hsame, panelRow, Nat.one_mul] at hlt
    exact hlt
  · intro hfit h hh k hk
    have hle := v.panelRow_le (z := z) hh
    change v.rowComb z h % 2 ^ 7 * w + k % 2 ^ z.columnsBits = v.panelRow z h * w + k
    rw [rowComb, Nat.mod_mod, Nat.mod_eq_of_lt (show v.panelRow z h < 2 ^ 7 by omega),
      Nat.mod_eq_of_lt (hz ▸ hk)]

lemma agree_left :
    v.Agree z w 3 ↔ z.columns ≤ 128 ∧ z.rowsPerHalf + v.row < z.columns := by
  constructor
  · intro h
    have hlast := h 1 (by decide) 0 hpos
    change subBits 7 (z.columns - 1) 0 * w + v.rowComb z 1 % 2 ^ z.columnsBits =
      (z.columns - 1 - 0) * w + v.panelRow z 1 at hlast
    have hcomb : v.rowComb z 1 % 2 ^ z.columnsBits ≤ v.rowComb z 1 := Nat.mod_le _ _
    have hmod : v.rowComb z 1 ≤ v.panelRow z 1 := Nat.mod_le _ _
    rw [subBits_eq hpos] at hlast
    obtain ⟨hx, hy⟩ := place_inj (hcomb.trans hmod) (Nat.mod_le _ _) hw hlast
    have hxlt := Nat.mod_lt (v.rowComb z 1) (Nat.two_pow_pos z.columnsBits)
    have hylt := Nat.mod_lt (z.columns - 1 - 0) (show 0 < 2 ^ 7 by decide)
    rw [hx, ← hz, panelRow, Nat.one_mul] at hxlt
    exact ⟨by omega, hxlt⟩
  · rintro ⟨hnarrow, hfit⟩ h hh k hk
    have hle := v.panelRow_le (z := z) hh
    change subBits 7 (z.columns - 1) k * w + v.rowComb z h % 2 ^ z.columnsBits =
      (z.columns - 1 - k) * w + v.panelRow z h
    rw [subBits_eq hk, Nat.mod_eq_of_lt (show z.columns - 1 - k < 2 ^ 7 by omega), rowComb,
      Nat.mod_eq_of_lt (show v.panelRow z h < 2 ^ 7 by omega), ← hz, Nat.mod_eq_of_lt (by omega)]

include hrow

omit hw hz hpos in
lemma subBits_lt_row (n : ℕ) :
    subBits n (z.rowsPerHalf - 1) (v.rowComb z 0) < 2 * z.rowsPerHalf - 1 - v.panelRow z 0 := by
  have hcomb : v.rowComb z 0 ≤ v.row := by
    rw [rowComb, panelRow, Nat.zero_mul, Nat.zero_add]
    exact Nat.mod_le _ _
  rw [subBits_eq (by omega), panelRow, Nat.zero_mul, Nat.zero_add]
  have hle := Nat.mod_le (z.rowsPerHalf - 1 - v.rowComb z 0) (2 ^ n)
  omega

omit hw hz in
lemma not_agree_right : ¬ v.Agree z w 1 := by
  intro h
  have hlast := h 0 (by decide) 0 hpos
  change 0 % 2 ^ 7 * w + subBits z.columnsBits (z.rowsPerHalf - 1) (v.rowComb z 0) =
    0 * w + (2 * z.rowsPerHalf - 1 - v.panelRow z 0) at hlast
  have hlt := subBits_lt_row hrow z.columnsBits
  omega

omit hz in
lemma not_agree_upset : ¬ v.Agree z w 2 := by
  intro h
  have hlast := h 0 (by decide) 0 hpos
  change subBits 7 (z.rowsPerHalf - 1) (v.rowComb z 0) * w + subBits z.columnsBits (z.columns - 1) 0 =
    (2 * z.rowsPerHalf - 1 - v.panelRow z 0) * w + (z.columns - 1 - 0) at hlast
  have hlt := subBits_lt_row hrow 7
  rw [subBits_eq hpos] at hlast
  have hsame := (place_inj (Nat.mod_le _ _) hlt.le hw hlast).2
  omega

end Rotations

section Placement

variable {imageHeight : ℕ} (hz : z.columns = 2 ^ z.columnsBits) (hrow : v.row < z.rowsPerHalf)
  (hin : v.Inside z imageHeight) (hs : s < z.panels)
include hrow hin hs

lemma Inside.columns_le (hk : k < z.columns) :
    z.columns ≤ halfWords.toNat ∧ 0 < v.imageWidth.toNat ∧ 0 < imageHeight := by
  obtain ⟨hwidth, hheight⟩ := hin.2 s hs
  have hplace := rotated_lt (v.panelConfig s).rot hk (panelRow_lt hrow (show 0 < 2 by decide))
  have hw : 0 < v.imageWidth.toNat := by omega
  have hh : 0 < imageHeight := by omega
  refine ⟨le_trans ?_ hin.1, hw, hh⟩
  have hext : z.columns ≤ (z.extent (v.panelConfig s).rot).1 ∨
      z.columns ≤ (z.extent (v.panelConfig s).rot).2 := by
    match (v.panelConfig s).rot with
    | 0 => exact Or.inl le_rfl
    | 1 => exact Or.inr le_rfl
    | 2 => exact Or.inl le_rfl
    | 3 => exact Or.inr le_rfl
  rcases hext with hext | hext
  · exact (show z.columns ≤ v.imageWidth.toNat by omega).trans (Nat.le_mul_of_pos_right _ hh)
  · exact (show z.columns ≤ imageHeight by omega).trans (Nat.le_mul_of_pos_left _ hw)

lemma Inside.imagePixel_lt (hk : k < z.columns) (hh : h < 2) :
    v.imagePixel z s h k < halfWords.toNat := by
  obtain ⟨hwidth, hheight⟩ := hin.2 s hs
  obtain ⟨hx, hy⟩ := rotated_lt (v.panelConfig s).rot hk (panelRow_lt hrow hh)
  apply lt_of_lt_of_le _ hin.1
  rw [imagePixel]
  calc _ < ((z.rotated (v.panelConfig s).rot k (v.panelRow z h)).2 +
          (v.panelConfig s).y.toNat * 16 + 1) * v.imageWidth.toNat := by
        rw [Nat.add_one_mul]
        omega
    _ ≤ imageHeight * v.imageWidth.toNat := Nat.mul_le_mul_right _ (by omega)
    _ = _ := Nat.mul_comm _ _

include hz

lemma Inside.offsetPixel_lt (hk : k < z.columns) : v.offsetPixel z s h k < 2 ^ 32 := by
  obtain ⟨hx, hy⟩ := v.offsets_lt (z := z) (h := h) (k := k) (v.panelConfig s).rot
  have hcolumns := (hin.columns_le hrow hs hk).1
  have hhalf : halfWords.toNat = 327680 := by decide
  have hpanelx : (v.panelConfig s).x.toNat < 2 ^ 8 := (v.panelConfig s).x.isLt
  have hpanely : (v.panelConfig s).y.toNat < 2 ^ 8 := (v.panelConfig s).y.isLt
  have hwidth : v.imageWidth.toNat < 2 ^ 16 := v.imageWidth.isLt
  have hmul : ((v.offsets z (v.panelConfig s).rot h k).2 + (v.panelConfig s).y.toNat * 16) *
      v.imageWidth.toNat ≤ 4208 * 65535 := Nat.mul_le_mul (by omega) (by omega)
  rw [offsetPixel]
  omega

lemma Inside.word_iff (hk : k < z.columns) (hh : h < 2) :
    (v.address z (z.index s h k)).word = v.imageWord z s h k ↔
      v.offsetPixel z s h k = v.imagePixel z s h k := by
  have hoffset := hin.offsetPixel_lt hz hrow hs hk (h := h)
  have himage := hin.imagePixel_lt hrow hs hk hh
  have hhalf : halfWords.toNat = 327680 := by decide
  rw [address_index (hz ▸ hk) hh, imageWord, BitVec.add_right_inj, ← BitVec.toNat_inj,
    BitVec.toNat_ofNat, BitVec.toNat_ofNat, Nat.mod_eq_of_lt hoffset, Nat.mod_eq_of_lt (by omega)]

lemma Inside.placed_iff (hpos : 0 < z.columns) :
    (∀ h < 2, ∀ k < z.columns, v.offsetPixel z s h k = v.imagePixel z s h k) ↔ v.Placed z s := by
  have hw : 0 < v.imageWidth.toNat := (hin.columns_le hrow hs hpos).2.1
  have hagree : (∀ h < 2, ∀ k < z.columns, v.offsetPixel z s h k = v.imagePixel z s h k) ↔
      v.Agree z v.imageWidth.toNat (v.panelConfig s).rot := by
    refine forall₄_congr fun h _ k _ => ?_
    rw [offsetPixel, imagePixel, Nat.add_mul, Nat.add_mul]
    omega
  rw [hagree, Placed]
  generalize (v.panelConfig s).rot = rot
  match rot with
  | 0 => exact agree_upright hw hz hpos
  | 1 => exact iff_of_false (not_agree_right hpos hrow) id
  | 2 => exact iff_of_false (not_agree_upset hw hpos hrow) id
  | 3 => exact agree_left hw hz hpos

end Placement

end RowSettings

end Ledwall.Gateware
