import Ledwall.Layout.LayoutSettings
import Ledwall.Values.Utf8

/-! The text a card is served as its configuration. -/

namespace Ledwall.Server

open Ledwall.Layout Ledwall.Values

def DRIVE_TYPES : List Str := ["".toList, "icnd1065".toList, "dp3364s".toList, "dp3264s".toList]

/-- The facts of a module that its cards are served. -/
structure PanelType where
  label : Str
  moduleW : ℕ
  moduleH : ℕ
  drive : Str
  groupOrigins : Option Str
  clkDiv : Option ℕ
  writeThrottle : Option ℕ

def PANEL_TYPES : List (Str × PanelType) :=
  [("hub75-128x64".toList,
      { label := "HUB75 128x64, 1/32 scan (5A-75E)".toList
        moduleW := 128
        moduleH := 64
        drive := []
        groupOrigins := none
        clkDiv := none
        writeThrottle := none }),
    ("linsn-p1.25-256x128-dp3264s".toList,
      { label := "Linsn P1.25 256x128, DP3264S, HUB320 (E320)".toList
        moduleW := 256
        moduleH := 128
        drive := "dp3264s".toList
        groupOrigins := some "128,0 128,64 0,0 0,64".toList
        clkDiv := some 4
        writeThrottle := some 0 })]

/-- The columns of a card's row that its configuration is made of. -/
structure Card where
  layoutYaml : Option Str
  panelType : Option Str
  mode : Str
  program : Option Str
  drive : Option Str
  rgbOrder : Option Str

def decimal (n : ℕ) : Str := Nat.toDigits 10 n

def configLine (key : String) (value : Str) : Str := (key.toList ++ ':' :: ' ' :: value) ++ ['\n']

namespace PanelType

variable (pt : PanelType)

def originsText : Str :=
  match pt.groupOrigins with
  | some value => if value = [] then [] else configLine "group_origins" value
  | none => []

def text (slug : Str) : Str :=
  ("# module: ".toList ++ slug ++ " -- ".toList ++ pt.label) ++ ['\n'] ++
    configLine "panel_width" (decimal pt.moduleW) ++ configLine "panel_height" (decimal pt.moduleH) ++
    pt.originsText ++ (pt.clkDiv.elim [] fun v => configLine "clk_div" (decimal v)) ++
    (pt.writeThrottle.elim [] fun v => configLine "write_throttle" (decimal v))

end PanelType

namespace Card

variable (card : Card)

def layoutText : Str :=
  let cfg := card.layoutYaml.getD []
  if cfg ≠ [] ∧ cfg.getLast? ≠ some '\n' then cfg ++ ['\n'] else cfg

/-- `PANEL_TYPES.get(card.panel_type or "")` -/
def type : Option (Str × PanelType) := PANEL_TYPES.find? fun e => e.1 = card.panelType.getD []

def typeText : Str := card.type.elim [] fun e => e.2.text e.1

def modeText : Str := configLine "mode" (if card.mode = [] then "stream".toList else card.mode)

def programText : Str :=
  if card.program.getD [] = [] then [] else configLine "program" (card.program.getD [])

/-- `card.drive or (pt["drive"] if pt else "")` -/
def chosenDrive : Str :=
  if card.drive.getD [] = [] then card.type.elim [] fun e => e.2.drive else card.drive.getD []

def driveText : Str := if card.chosenDrive = [] then [] else configLine "drive" card.chosenDrive

def rgbText : Str :=
  if card.rgbOrder.getD [] ≠ [] ∧ (card.rgbOrder.getD []).map Char.toUpper ≠ "RGB".toList then
    configLine "rgb_order" (card.rgbOrder.getD [])
  else []

def bootConfig : Str :=
  card.layoutText ++ card.typeText ++ card.modeText ++ card.programText ++ card.driveText ++
    card.rgbText

end Card

end Ledwall.Server
