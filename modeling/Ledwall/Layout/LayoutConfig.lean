import Ledwall.Values.HttpRequest

/-! What a layout configuration states, and the programs it can name. -/

namespace Ledwall.Layout

open Ledwall.Wire Ledwall.Values

abbrev MAX_OUTPUTS : ℕ := 8
abbrev MAX_CHAIN : ℕ := 2
def MAX_GROUPS : ℕ := 4
def POS_UNIT : BitVec 16 := 16
def MAX_PROGRAM_NAME : ℕ := 24

inductive DisplayMode
  | stream
  | program
  deriving DecidableEq, Repr

/-- `programBytes`, `driveBytes` and `groupOrigins` are the arrays up to their stated lengths. -/
structure LayoutConfig where
  panelWidth : BitVec 16
  panelHeight : BitVec 16
  gridCols : Byte
  gridRows : Byte
  assignments : Fin MAX_OUTPUTS → Fin MAX_CHAIN → Option (Byte × Byte)
  mode : DisplayMode
  programBytes : List Byte
  driveBytes : List Byte
  clkDiv : Byte
  writeThrottle : Byte
  rgbOrder : Byte
  groupOrigins : List (BitVec 16 × BitVec 16)
  program_le : programBytes.length ≤ MAX_PROGRAM_NAME
  drive_le : driveBytes.length ≤ MAX_PROGRAM_NAME
  groups_le : groupOrigins.length ≤ MAX_GROUPS

namespace LayoutConfig

def singlePanel (width height : BitVec 16) : LayoutConfig where
  panelWidth := width
  panelHeight := height
  gridCols := 1
  gridRows := 1
  assignments := fun output chain => if output.val = 0 ∧ chain.val = 0 then some (0, 0) else none
  mode := .stream
  programBytes := []
  driveBytes := []
  clkDiv := 0
  writeThrottle := 0
  rgbOrder := 0
  groupOrigins := []
  program_le := Nat.zero_le _
  drive_le := Nat.zero_le _
  groups_le := Nat.zero_le _

variable (layout : LayoutConfig)

def program : List Byte := fromUtf8 layout.programBytes

def drive : List Byte := fromUtf8 layout.driveBytes

def virtualWidth : BitVec 16 := layout.panelWidth * layout.gridCols.setWidth 16

def virtualHeight : BitVec 16 := layout.panelHeight * layout.gridRows.setWidth 16

def virtualLength : BitVec 32 :=
  layout.virtualWidth.setWidth 32 * layout.virtualHeight.setWidth 32

def scanRows : ℕ := max 1 (layout.panelHeight.toNat / 2)

/-- Where the panel at a grid position goes, in the gateware's unit. -/
def placement (cell : Byte × Byte) : Byte × Byte :=
  ((cell.1.setWidth 16 * layout.panelWidth / POS_UNIT).setWidth 8,
    (cell.2.setWidth 16 * layout.panelHeight / POS_UNIT).setWidth 8)

end LayoutConfig

/-- The fields of a compiled program that selecting it reads. -/
structure Program where
  name : String
  dynamic : Option (ℕ × ℕ)
  deriving DecidableEq, Repr

def PROGRAMS : List Program :=
  [⟨"hello", none⟩, ⟨"railboard", some (16, 102)⟩, ⟨"dashboard-home", none⟩, ⟨"blank", none⟩,
    ⟨"ticker", some (0, 0)⟩, ⟨"timessquare", none⟩]

def programByName (name : List Byte) : Option Program :=
  PROGRAMS.find? fun p => ascii p.name == name

end Ledwall.Layout
