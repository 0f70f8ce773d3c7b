import Mathlib.Data.List.DropRight
import Mathlib.Tactic
import Ledwall.Layout.LayoutConfig
import Ledwall.Values.ValuePush

/-! The text of a layout, as the card reads it. -/

namespace Ledwall.Layout

open Ledwall.Wire Ledwall.Values

/-- `char::is_whitespace` -/
def whiteSpace (c : Char) : Bool :=
  c.toNat ∈ [0x09, 0x0A, 0x0B, 0x0C, 0x0D, 0x20, 0x85, 0xA0, 0x1680, 0x2000, 0x2001, 0x2002, 0x2003,
    0x2004, 0x2005, 0x2006, 0x2007, 0x2008, 0x2009, 0x200A, 0x2028, 0x2029, 0x202F, 0x205F, 0x3000]

/-- `str::trim` -/
def trimmed (s : Str) : Str := (s.dropWhile whiteSpace).rdropWhile whiteSpace

def stripCr (s : Str) : Str := if s.getLast? = some '\r' then s.dropLast else s

/-- `str::lines` -/
def lines (text : Str) : List Str :=
  (text.splitOn '\n').dropLast.map stripCr ++
    (text.splitOn '\n').getLast?.toList.filter fun last => last ≠ []

/-- `str::split_ascii_whitespace` -/
def words (s : Str) : List Str :=
  (s.splitOnP fun c => c ∈ [' ', '\t', '\n', '\x0c', '\r']).filter fun word => word ≠ []

def eqIgnoreAsciiCase (s t : Str) : Bool := s.map Char.toLower = t.map Char.toLower

def parseDigits (bound : ℕ) (s : Str) : Option ℕ :=
  if s = [] then none
  else s.foldlM (fun result c =>
    if c.isDigit ∧ result * 10 + (c.toNat - '0'.toNat) < bound then
      some (result * 10 + (c.toNat - '0'.toNat))
    else none) 0

def parseU8 (s : Str) : Option Byte := (parseDigits (2 ^ 8) s).map (BitVec.ofNat 8)

def parseU16 (s : Str) : Option (BitVec 16) := (parseDigits (2 ^ 16) s).map (BitVec.ofNat 16)

def parsePair {α : Type} (sep : Char) (parse : Str → Option α) (s : Str) : Option (α × α) :=
  if sep ∈ s then do
    let x ← parse (s.takeWhile (· ≠ sep))
    let y ← parse (s.dropWhile (· ≠ sep)).tail
    return (x, y)
  else none

def parseGrid : Str → Option (Byte × Byte) := parsePair 'x' parseU8

def parsePos16 : Str → Option (BitVec 16 × BitVec 16) := parsePair ',' parseU16

def parsePos : Str → Option (Byte × Byte) := parsePair ',' parseU8

def RGB_ORDERS : List Str :=
  ["RGB".toList, "RBG".toList, "GRB".toList, "GBR".toList, "BRG".toList, "BGR".toList]

/-- What a line of the text can set. -/
inductive LayoutKey
  | grid
  | panelWidth
  | mode
  | program
  | rgbOrder
  | drive
  | clkDiv
  | writeThrottle
  | panelHeight
  | groupOrigins
  | output (n : Fin MAX_OUTPUTS)
  deriving DecidableEq

def KEYS : List (Str × LayoutKey) :=
  [("grid".toList, .grid), ("panel_width".toList, .panelWidth), ("mode".toList, .mode),
    ("program".toList, .program), ("rgb_order".toList, .rgbOrder),
    ("color_order".toList, .rgbOrder), ("colour_order".toList, .rgbOrder), ("drive".toList, .drive),
    ("drive_type".toList, .drive), ("chip".toList, .drive), ("clk_div".toList, .clkDiv),
    ("clock_div".toList, .clkDiv), ("write_throttle".toList, .writeThrottle),
    ("dma_throttle".toList, .writeThrottle), ("panel_height".toList, .panelHeight),
    ("group_origins".toList, .groupOrigins), ("groups".toList, .groupOrigins)]

def outputKey : Str → Option LayoutKey
  | 'J' :: rest => (parseU8 rest).bind fun n =>
    if h : 1 ≤ n.toNat ∧ n.toNat ≤ MAX_OUTPUTS then some (.output ⟨n.toNat - 1, by omega⟩) else none
  | _ => none

def layoutKey (key : Str) : Option LayoutKey :=
  match KEYS.find? fun e => e.1 = key with
  | some e => some e.2
  | none => outputKey key

/-- The text before the first ": " and behind it. -/
def splitColon : Str → Option (Str × Str)
  | [] => none
  | ':' :: ' ' :: rest => some ([], rest)
  | c :: rest => (splitColon rest).map fun kv => (c :: kv.1, kv.2)

/-- A line's key and value: "=" anywhere goes before ": ". -/
def keyValue (line : Str) : Option (Str × Str) :=
  if '=' ∈ line then some (line.takeWhile (· ≠ '='), (line.dropWhile (· ≠ '=')).tail)
  else splitColon line

def setting (line : Str) : Option (LayoutKey × Str) :=
  let line := trimmed line
  if line = [] ∨ line.head? = some '#' then none
  else (keyValue line).bind fun kv => (layoutKey (trimmed kv.1)).map fun key => (key, trimmed kv.2)

def settings (text : Str) : List (LayoutKey × Str) := (lines text).filterMap setting

def rgbIndex (value : Str) : ℕ :=
  (RGB_ORDERS.findIdx? fun order => eqIgnoreAsciiCase order (trimmed value)).getD 0

def origins (value : Str) : List (BitVec 16 × BitVec 16) :=
  ((words value).filterMap parsePos16).take MAX_GROUPS

/-- At most `limit`, in a byte. -/
def parseUpTo (limit : ℕ) (value : Str) : Option Byte :=
  (parseU16 value).map fun v => BitVec.ofNat 8 (min v.toNat limit)

namespace LayoutConfig

def assign (config : LayoutConfig) (n : Fin MAX_OUTPUTS) (value : Str) :
    Fin MAX_OUTPUTS → Fin MAX_CHAIN → Option (Byte × Byte) := fun output chain =>
  if output = n then
    (((words value)[chain.val]?).bind parsePos).or (config.assignments output chain)
  else config.assignments output chain

/-- The branch of a key; a value that does not parse changes nothing. -/
def set (config : LayoutConfig) : LayoutKey × Str → LayoutConfig
  | (.grid, value) =>
    match parseGrid value with
    | some (cols, rows) => { config with gridCols := cols, gridRows := rows }
    | none => config
  | (.panelWidth, value) => { config with panelWidth := (parseU16 value).getD config.panelWidth }
  | (.mode, value) =>
    { config with
      mode := if eqIgnoreAsciiCase value "program".toList then .program else .stream }
  | (.program, value) =>
    { config with
      programBytes := (utf8 value).take MAX_PROGRAM_NAME
      program_le := List.length_take_le _ _ }
  | (.rgbOrder, value) => { config with rgbOrder := BitVec.ofNat 8 (rgbIndex value) }
  | (.drive, value) =>
    { config with
      driveBytes := (utf8 value).take MAX_PROGRAM_NAME
      drive_le := List.length_take_le _ _ }
  | (.clkDiv, value) => { config with clkDiv := (parseUpTo 255 value).getD config.clkDiv }
  | (.writeThrottle, value) =>
    { config with writeThrottle := (parseUpTo 15 value).getD config.writeThrottle }
  | (.panelHeight, value) =>
    { config with panelHeight := (parseU16 value).getD config.panelHeight }
  | (.groupOrigins, value) =>
    { config with groupOrigins := origins value, groups_le := List.length_take_le _ _ }
  | (.output n, value) => { config with assignments := config.assign n value }

def start : LayoutConfig := { singlePanel 96 48 with assignments := fun _ _ => none }

def parse (text : Str) : Option LayoutConfig := some ((settings text).foldl set start)

end LayoutConfig

end Ledwall.Layout
