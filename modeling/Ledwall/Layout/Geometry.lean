import Ledwall.Layout.Histories
import Ledwall.Layout.LayoutText

/-! The sizes and places a layout states, as numbers, and what of them sixteen and eight bits keep. -/

namespace Ledwall.Layout

open Ledwall.Wire Ledwall.Values Ledwall.Receiver

/-- A call of `set_panel_param`. -/
structure PanelCall where
  output : Fin MAX_OUTPUTS
  chain : Fin MAX_CHAIN
  x : Byte
  y : Byte
  deriving DecidableEq

namespace LayoutConfig

variable (layout : LayoutConfig)

def panelCall (output : Fin MAX_OUTPUTS) (chain : Fin MAX_CHAIN) : Option PanelCall :=
  (layout.assignments output chain).map fun cell =>
    ⟨output, chain, (layout.placement cell).1, (layout.placement cell).2⟩

/-- The calls `apply` makes, in their order. -/
def panelCalls : List PanelCall :=
  (List.finRange MAX_OUTPUTS).flatMap fun output =>
    (List.finRange MAX_CHAIN).filterMap fun chain => layout.panelCall output chain

lemma foldl_panelCalls (b : Bitstream) (c : Csrs) :
    Card.placePanels b layout c =
      layout.panelCalls.foldl (fun c call => c.setPanelParam b call.output call.chain call.x call.y 0)
        c := by
  rw [Card.placePanels, panelCalls, List.foldl_flatMap]
  congr 1
  funext c output
  rw [List.foldl_filterMap]
  congr 1
  funext c chain
  rw [Card.placeSlot, panelCall]
  cases layout.assignments output chain <;> rfl

@[simp] lemma mem_panelCalls {call : PanelCall} :
    call ∈ layout.panelCalls ↔ layout.panelCall call.output call.chain = some call := by
  simp only [panelCalls, List.mem_flatMap, List.mem_filterMap, List.mem_finRange, true_and]
  constructor
  · rintro ⟨output, chain, h⟩
    obtain ⟨cell, hcell, rfl⟩ := Option.map_eq_some_iff.mp h
    exact h
  · exact fun h => ⟨call.output, call.chain, h⟩

def Inside (cell : Byte × Byte) : Prop :=
  cell.1.toNat < layout.gridCols.toNat ∧ cell.2.toNat < layout.gridRows.toNat

instance (cell : Byte × Byte) : Decidable (layout.Inside cell) := inferInstanceAs (Decidable (_ ∧ _))

/-- A panel's place in the gateware's unit is its place in pixels. -/
def Placed (cell : Byte × Byte) (x y : Byte) : Prop :=
  x.toNat * 16 = cell.1.toNat * layout.panelWidth.toNat ∧
    y.toNat * 16 = cell.2.toNat * layout.panelHeight.toNat

/-- The virtual image is the grid of panels, and each panel of the grid is put at its place. -/
structure ExactGeometry : Prop where
  width : layout.virtualWidth.toNat = layout.panelWidth.toNat * layout.gridCols.toNat
  height : layout.virtualHeight.toNat = layout.panelHeight.toNat * layout.gridRows.toNat
  placed : ∀ output chain cell, layout.assignments output chain = some cell → layout.Inside cell →
    ∀ call ∈ layout.panelCalls, call.output = output → call.chain = chain →
      layout.Placed cell call.x call.y

/-- A distance the panel registers can hold. -/
def Placeable (n : ℕ) : Prop := 16 ∣ n ∧ n < 4096

structure Scales : Prop where
  width : layout.panelWidth.toNat * layout.gridCols.toNat < 2 ^ 16
  height : layout.panelHeight.toNat * layout.gridRows.toNat < 2 ^ 16
  placed : ∀ output chain cell, layout.assignments output chain = some cell → layout.Inside cell →
    Placeable (cell.1.toNat * layout.panelWidth.toNat) ∧
      Placeable (cell.2.toNat * layout.panelHeight.toNat)

lemma extent_exact (size : BitVec 16) (count : Byte) :
    (size * count.setWidth 16).toNat = size.toNat * count.toNat ↔
      size.toNat * count.toNat < 2 ^ 16 := by
  have hcount : (count.setWidth 16).toNat = count.toNat := by
    rw [BitVec.toNat_setWidth, Nat.mod_eq_of_lt (count.isLt.trans (by norm_num))]
  rw [BitVec.toNat_mul, hcount]
  exact Nat.mod_eq_iff_lt (by norm_num)

lemma place_exact (index : Byte) (size : BitVec 16) :
    ((index.setWidth 16 * size / POS_UNIT).setWidth 8).toNat * 16 = index.toNat * size.toNat ↔
      Placeable (index.toNat * size.toNat) := by
  have hindex : (index.setWidth 16).toNat = index.toNat := by
    rw [BitVec.toNat_setWidth, Nat.mod_eq_of_lt (index.isLt.trans (by norm_num))]
  have hunit : POS_UNIT.toNat = 16 := rfl
  rw [BitVec.toNat_setWidth, BitVec.toNat_udiv, BitVec.toNat_mul, hindex, hunit, Placeable]
  generalize index.toNat * size.toNat = n
  omega

variable {layout}

lemma panelCall_of_assigned {output : Fin MAX_OUTPUTS} {chain : Fin MAX_CHAIN} {cell : Byte × Byte}
    (h : layout.assignments output chain = some cell) : layout.panelCall output chain =
      some ⟨output, chain, (layout.placement cell).1, (layout.placement cell).2⟩ := by
  rw [panelCall, h, Option.map_some]

lemma forall_call {output : Fin MAX_OUTPUTS} {chain : Fin MAX_CHAIN} {cell : Byte × Byte}
    (h : layout.assignments output chain = some cell) (P : Byte → Byte → Prop) :
    (∀ call ∈ layout.panelCalls, call.output = output → call.chain = chain → P call.x call.y) ↔
      P (layout.placement cell).1 (layout.placement cell).2 := by
  have hcall := panelCall_of_assigned h
  constructor
  · intro hall
    exact hall ⟨output, chain, (layout.placement cell).1, (layout.placement cell).2⟩
      (layout.mem_panelCalls.mpr hcall) rfl rfl
  · rintro hP call hmem rfl rfl
    rw [layout.mem_panelCalls.mp hmem, Option.some_inj] at hcall
    rwa [hcall]

lemma exactGeometry_iff : layout.ExactGeometry ↔ layout.Scales := by
  constructor
  · intro h
    refine ⟨(extent_exact _ _).mp h.width, (extent_exact _ _).mp h.height, ?_⟩
    intro output chain cell hcell hinside
    have hplaced := (forall_call hcell (layout.Placed cell)).mp
      (h.placed output chain cell hcell hinside)
    exact ⟨(place_exact _ _).mp hplaced.1, (place_exact _ _).mp hplaced.2⟩
  · intro h
    refine ⟨(extent_exact _ _).mpr h.width, (extent_exact _ _).mpr h.height, ?_⟩
    intro output chain cell hcell hinside
    have hplaced := h.placed output chain cell hcell hinside
    apply (forall_call hcell (layout.Placed cell)).mpr
    exact ⟨(place_exact _ _).mpr hplaced.1, (place_exact _ _).mpr hplaced.2⟩

/-- Every text is accepted; the layout it gives is exact where its products fit. -/
theorem parse_exact_iff (text : Str) :
    ∃ layout, parse text = some layout ∧ (layout.ExactGeometry ↔ layout.Scales) :=
  ⟨_, rfl, exactGeometry_iff⟩

def uneven : Str := "panel_width=100\ngrid=2x1\nJ1=1,0\n".toList

/-- Two panels of 100 by 48: the second is put 96 pixels to the right. -/
theorem uneven_misplaced : ∃ layout, parse uneven = some layout ∧
    layout.panelWidth.toNat * layout.gridCols.toNat *
      (layout.panelHeight.toNat * layout.gridRows.toNat) ≤ MAX_IMG_PIXELS ∧
    ¬ layout.ExactGeometry := by
  refine ⟨_, rfl, by decide +kernel, ?_⟩
  intro h
  have hplaced := h.placed 0 0 (1, 0) (by decide +kernel) (by decide +kernel) ⟨0, 0, 6, 0⟩
    (by decide +kernel) rfl rfl
  revert hplaced
  rw [Placed]
  decide +kernel

end LayoutConfig

end Ledwall.Layout
