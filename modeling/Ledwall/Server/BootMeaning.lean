import Ledwall.Server.BootConfig

/-! What a card makes of its configuration, against its row. -/

namespace Ledwall.Server

open Ledwall.Layout Ledwall.Values Ledwall.Wire

/-- Origins as a module's entry writes them. -/
def renderOrigins (os : List (BitVec 16 × BitVec 16)) : Str :=
  [' '].intercalate (os.map fun o => decimal o.1.toNat ++ ',' :: decimal o.2.toNat)

lemma renderOrigins_eq_nil {os : List (BitVec 16 × BitVec 16)} :
    renderOrigins os = [] ↔ os = [] := by
  cases os with
  | nil => exact iff_of_true rfl rfl
  | cons o os =>
    apply iff_of_false
    · cases os with
      | nil => simp [renderOrigins]
      | cons o' os => simp [renderOrigins, List.intercalate]
    · exact List.cons_ne_nil _ _

/-- The card's own rendering of a name: what fits, if that is text. -/
def heldName (value : Str) : List Byte := fromUtf8 ((utf8 value).take MAX_PROGRAM_NAME)

lemma heldName_of_fits {value : Str} (h : (utf8 value).length ≤ MAX_PROGRAM_NAME) :
    heldName value = utf8 value := by
  rw [heldName, List.take_of_length_le h, fromUtf8, if_pos (validUtf8_utf8 value)]

/-- What a module's text sets. -/
def PanelType.settings (pt : PanelType) : List (LayoutKey × Str) :=
  [(LayoutKey.panelWidth, decimal pt.moduleW), (.panelHeight, decimal pt.moduleH)] ++
    pt.groupOrigins.toList.map (fun value => (LayoutKey.groupOrigins, value)) ++
    pt.clkDiv.toList.map (fun v => (LayoutKey.clkDiv, decimal v)) ++
    pt.writeThrottle.toList.map fun v => (LayoutKey.writeThrottle, decimal v)

/-- Each module's text sets what its entry states, to values the card reads back. -/
theorem panelTypes_set : ∀ e ∈ PANEL_TYPES,
    settings (e.2.text e.1) = e.2.settings ∧ e.2.drive ∈ DRIVE_TYPES ∧
      (parseU16 (decimal e.2.moduleW)).map BitVec.toNat = some e.2.moduleW ∧
      (parseU16 (decimal e.2.moduleH)).map BitVec.toNat = some e.2.moduleH ∧
      (∀ value ∈ e.2.groupOrigins, renderOrigins (origins value) = value ∧ value ≠ []) ∧
      (∀ v ∈ e.2.clkDiv, (parseUpTo 255 (decimal v)).map BitVec.toNat = some v) ∧
      ∀ v ∈ e.2.writeThrottle, (parseUpTo 15 (decimal v)).map BitVec.toNat = some v := by
  decide +kernel

theorem panelTypes_ended : ∀ e ∈ PANEL_TYPES, (e.2.text e.1).getLast? = some '\n' := by
  decide +kernel

lemma settings_configLine {key : String} {k : LayoutKey} (h : Names key.toList k) {value : Str}
    (hv : '\n' ∉ value) : settings (configLine key value) =
      if '=' ∈ value ∨ trimmed value = [] then [] else [(k, trimmed value)] := by
  have hline : '\n' ∉ key.toList ++ ':' :: ' ' :: value := by
    intro hmem
    rcases List.mem_append.mp hmem with hk | hk
    · exact (h.plain _ hk).2.2.2.2.2 rfl
    · simp [hv] at hk
  rw [configLine, settings_line hline, h.setting_line]
  split <;> rfl

namespace Card

variable (card : Card)

/-- What a row may hold. -/
structure Valid : Prop where
  mode : card.mode = "stream".toList ∨ card.mode = "program".toList
  fits : (utf8 (card.program.getD [])).length ≤ MAX_PROGRAM_NAME
  oneLine : '\n' ∉ card.program.getD []
  drive : card.drive.getD [] ∈ DRIVE_TYPES
  rgbOrder : card.rgbOrder.getD [] = [] ∨ card.rgbOrder.getD [] ∈ RGB_ORDERS

/-- The order of the channels the row asks for. -/
def order : Str := if card.rgbOrder.getD [] = [] then "RGB".toList else card.rgbOrder.getD []

/-- The configuration says what the row does. -/
structure Means (config : LayoutConfig) : Prop where
  mode : config.mode = if card.mode = "program".toList then .program else .stream
  program : config.program = utf8 (card.program.getD [])
  drive : config.drive = utf8 card.chosenDrive
  rgbOrder : RGB_ORDERS[config.rgbOrder.toNat]? = some card.order
  panel : ∀ e, card.type = some e → config.panelWidth.toNat = e.2.moduleW ∧
    config.panelHeight.toNat = e.2.moduleH ∧
    renderOrigins config.groupOrigins = e.2.groupOrigins.getD [] ∧
    config.clkDiv.toNat = e.2.clkDiv.getD 0 ∧ config.writeThrottle.toNat = e.2.writeThrottle.getD 0

/-- The last value the layout's text gives a key. -/
def stale (key : LayoutKey) : Option Str := (valuesOf key (settings card.layoutText)).getLast?

/-- What the layout's text leaves a key that takes the last number it can read. -/
def staleNumber (key : LayoutKey) (limit : ℕ) : Option Byte :=
  ((valuesOf key (settings card.layoutText)).filterMap (parseUpTo limit)).getLast?

/-- A program whose line the card can read is written as it reads it; where there is no such line,
and for each other setting the row leaves unsaid, the layout's text says nothing else. -/
structure Clean : Prop where
  program : if '=' ∈ card.program.getD [] ∨ trimmed (card.program.getD []) = [] then
      heldName ((card.stale .program).getD []) = utf8 (card.program.getD [])
    else trimmed (card.program.getD []) = card.program.getD []
  drive : card.chosenDrive = [] → heldName ((card.stale .drive).getD []) = []
  rgbOrder : card.order = "RGB".toList → ∀ value ∈ card.stale .rgbOrder, rgbIndex value = 0
  origins : ∀ e, card.type = some e → e.2.groupOrigins = none →
    ∀ value ∈ card.stale .groupOrigins, origins value = []
  clkDiv : ∀ e, card.type = some e → e.2.clkDiv = none →
    ∀ v ∈ card.staleNumber .clkDiv 255, v = 0
  writeThrottle : ∀ e, card.type = some e → e.2.writeThrottle = none →
    ∀ v ∈ card.staleNumber .writeThrottle 15, v = 0

/-- What the row sets by its own lines. -/
def programSettings : List (LayoutKey × Str) :=
  if '=' ∈ card.program.getD [] ∨ trimmed (card.program.getD []) = [] then []
  else [(.program, trimmed (card.program.getD []))]

def driveSettings : List (LayoutKey × Str) :=
  if card.chosenDrive = [] then [] else [(.drive, card.chosenDrive)]

def rgbSettings : List (LayoutKey × Str) :=
  if card.order = "RGB".toList then [] else [(.rgbOrder, card.order)]

variable {card}

lemma layoutText_ended : Ended card.layoutText := by
  rw [layoutText]
  split
  · exact Or.inr ⟨_, rfl⟩
  · next h =>
    rw [not_and_or, not_not, not_not] at h
    rcases h with h | h
    · exact Or.inl h
    · exact Or.inr ⟨_, (List.dropLast_append_getLast? _ h).symm⟩

lemma configLine_ended (key : String) (value : Str) : Ended (configLine key value) :=
  Or.inr ⟨_, rfl⟩

lemma type_mem {e : Str × PanelType} (h : card.type = some e) : e ∈ PANEL_TYPES :=
  List.mem_of_find?_eq_some h

lemma typeText_ended : Ended card.typeText := by
  rw [typeText]
  cases h : card.type with
  | none => exact Or.inl rfl
  | some e =>
    exact Or.inr ⟨_, (List.dropLast_append_getLast? _ (panelTypes_ended e (type_mem h))).symm⟩

lemma settings_typeText : settings card.typeText = card.type.elim [] fun e => e.2.settings := by
  rw [typeText]
  cases h : card.type with
  | none => rfl
  | some e => exact (panelTypes_set e (type_mem h)).1

lemma chosenDrive_mem (h : card.Valid) : card.chosenDrive ∈ DRIVE_TYPES := by
  rw [chosenDrive]
  split
  · cases ht : card.type with
    | none => exact List.mem_cons_self
    | some e => exact (panelTypes_set e (type_mem ht)).2.1
  · exact h.drive

lemma order_mem (h : card.Valid) : card.order ∈ RGB_ORDERS := by
  rw [order]
  split
  · exact List.mem_cons_self
  · next hne => exact h.rgbOrder.resolve_left hne

lemma settings_modeText (h : card.Valid) : settings card.modeText = [(.mode, card.mode)] := by
  rw [modeText]
  rcases h.mode with hmode | hmode <;> rw [hmode] <;> decide +kernel

lemma settings_programText (h : card.Valid) :
    settings card.programText = card.programSettings := by
  rw [programText, programSettings]
  split
  · next hnil =>
    rw [hnil]
    rfl
  · exact settings_configLine (by decide +kernel) h.oneLine

lemma settings_driveText (h : card.Valid) : settings card.driveText = card.driveSettings := by
  have hdrives : ∀ drive ∈ DRIVE_TYPES, drive ≠ [] →
      settings (configLine "drive" drive) = [(.drive, drive)] := by
    decide +kernel
  rw [driveText, driveSettings]
  split
  · rfl
  · next hne => exact hdrives _ (chosenDrive_mem h) hne

lemma settings_rgbText (h : card.Valid) : settings card.rgbText = card.rgbSettings := by
  have horders : ∀ order ∈ RGB_ORDERS, order ≠ [] ∧ order.map Char.toUpper = order ∧
      settings (configLine "rgb_order" order) = [(.rgbOrder, order)] := by
    decide +kernel
  rw [rgbText, rgbSettings, order]
  rcases h.rgbOrder with hnil | hmem
  · rw [hnil]
    rfl
  · obtain ⟨hne, hupper, hset⟩ := horders _ hmem
    rw [hupper, if_neg hne]
    by_cases hrgb : card.rgbOrder.getD [] = "RGB".toList
    · rw [if_neg (fun h => h.2 hrgb), if_pos hrgb]
      rfl
    · rw [if_pos ⟨hne, hrgb⟩, if_neg hrgb, hset]

/-- The configuration sets what the layout's text does, and then what the row does. -/
theorem settings_bootConfig (h : card.Valid) : settings card.bootConfig =
    settings card.layoutText ++ (card.type.elim [] fun e => e.2.settings) ++ [(.mode, card.mode)] ++
      card.programSettings ++ card.driveSettings ++ card.rgbSettings := by
  have hmode : Ended card.modeText := configLine_ended _ _
  have hprogram : Ended card.programText := by
    rw [programText]
    split
    · exact Or.inl rfl
    · exact configLine_ended _ _
  have hdrive : Ended card.driveText := by
    rw [driveText]
    split
    · exact Or.inl rfl
    · exact configLine_ended _ _
  have htype := (@layoutText_ended card).append (@typeText_ended card)
  rw [bootConfig, settings_append (((htype.append hmode).append hprogram).append hdrive),
    settings_append ((htype.append hmode).append hprogram), settings_append (htype.append hmode),
    settings_append htype, settings_append layoutText_ended, settings_typeText,
    settings_modeText h, settings_programText h, settings_driveText h, settings_rgbText h]

section Fields

variable (card)

/-- What the card's parser makes of the configuration. -/
def parsed : LayoutConfig := (settings card.bootConfig).foldl LayoutConfig.set LayoutConfig.start

variable {card}

lemma valuesOf_own (h : card.Valid) (key : LayoutKey) :
    valuesOf key (settings card.bootConfig) = valuesOf key (settings card.layoutText) ++
      valuesOf key (card.type.elim [] fun e => e.2.settings) ++
      (if LayoutKey.mode = key then [card.mode] else []) ++
      (if LayoutKey.program = key then card.programSettings.map Prod.snd else []) ++
      (if LayoutKey.drive = key then card.driveSettings.map Prod.snd else []) ++
      (if LayoutKey.rgbOrder = key then card.rgbSettings.map Prod.snd else []) := by
  have hprogram : valuesOf key card.programSettings =
      if LayoutKey.program = key then card.programSettings.map Prod.snd else [] := by
    rw [programSettings]
    split <;> simp
  have hdrive : valuesOf key card.driveSettings =
      if LayoutKey.drive = key then card.driveSettings.map Prod.snd else [] := by
    rw [driveSettings]
    split <;> simp
  have hrgb : valuesOf key card.rgbSettings =
      if LayoutKey.rgbOrder = key then card.rgbSettings.map Prod.snd else [] := by
    rw [rgbSettings]
    split <;> simp
  rw [settings_bootConfig h]
  simp only [valuesOf_append, hprogram, hdrive, hrgb, valuesOf_cons, valuesOf_nil]

lemma valuesOf_panel (pt : PanelType) (key : LayoutKey) : valuesOf key pt.settings =
    (if LayoutKey.panelWidth = key then [decimal pt.moduleW] else []) ++
      (if LayoutKey.panelHeight = key then [decimal pt.moduleH] else []) ++
      (if LayoutKey.groupOrigins = key then pt.groupOrigins.toList else []) ++
      (if LayoutKey.clkDiv = key then pt.clkDiv.toList.map decimal else []) ++
      (if LayoutKey.writeThrottle = key then pt.writeThrottle.toList.map decimal else []) := by
  obtain ⟨_, _, _, _, groups, clk, throttle⟩ := pt
  cases key <;> cases groups <;> cases clk <;> cases throttle <;> simp [PanelType.settings]

lemma valuesOf_panel_other (key : LayoutKey) (h : key ∈ [LayoutKey.mode, .program, .drive, .rgbOrder]) :
    valuesOf key (card.type.elim [] fun e => e.2.settings) = [] := by
  cases card.type with
  | none => rfl
  | some e =>
    simp only [Option.elim_some, valuesOf_panel]
    fin_cases h <;> rfl

theorem parsed_mode (h : card.Valid) :
    card.parsed.mode = if card.mode = "program".toList then .program else .stream := by
  rw [parsed, LayoutConfig.foldl_mode, valuesOf_own h, valuesOf_panel_other _ (by decide)]
  simp only [if_true, reduceCtorEq, if_false, List.append_nil, List.getLast?_concat,
    Option.map_some, Option.getD_some]
  rcases h.mode with hmode | hmode <;> rw [hmode] <;> decide

lemma fromUtf8_last (o : Option Str) :
    fromUtf8 ((o.map fun v => (utf8 v).take MAX_PROGRAM_NAME).getD []) = heldName (o.getD []) := by
  cases o <;> rfl

theorem parsed_program (h : card.Valid) : card.parsed.program =
    heldName (if '=' ∈ card.program.getD [] ∨ trimmed (card.program.getD []) = [] then
      (card.stale .program).getD [] else trimmed (card.program.getD [])) := by
  rw [LayoutConfig.program, parsed, LayoutConfig.foldl_program, valuesOf_own h,
    valuesOf_panel_other _ (by decide)]
  simp only [if_true, reduceCtorEq, if_false, List.append_nil, programSettings]
  split
  · simp only [List.map_nil, List.append_nil]
    exact fromUtf8_last _
  · simp only [List.map_cons, List.map_nil, List.getLast?_concat]
    exact fromUtf8_last _

theorem parsed_drive (h : card.Valid) : card.parsed.drive =
    heldName (if card.chosenDrive = [] then (card.stale .drive).getD [] else card.chosenDrive) := by
  rw [LayoutConfig.drive, parsed, LayoutConfig.foldl_drive, valuesOf_own h,
    valuesOf_panel_other _ (by decide)]
  simp only [if_true, reduceCtorEq, if_false, List.append_nil, driveSettings]
  split
  · simp only [List.map_nil, List.append_nil]
    exact fromUtf8_last _
  · simp only [List.map_cons, List.map_nil, List.getLast?_concat]
    exact fromUtf8_last _

theorem parsed_rgbOrder (h : card.Valid) : card.parsed.rgbOrder =
    if card.order = "RGB".toList then ((card.stale .rgbOrder).map fun v =>
      BitVec.ofNat 8 (rgbIndex v)).getD 0 else BitVec.ofNat 8 (rgbIndex card.order) := by
  rw [parsed, LayoutConfig.foldl_rgbOrder, valuesOf_own h, valuesOf_panel_other _ (by decide)]
  simp only [if_true, reduceCtorEq, if_false, List.append_nil, rgbSettings]
  split
  · simp only [List.map_nil, List.append_nil]
    rfl
  · simp only [List.map_cons, List.map_nil, List.getLast?_concat, Option.map_some,
      Option.getD_some]

lemma heldName_trimmed {p : Str} (hfits : (utf8 p).length ≤ MAX_PROGRAM_NAME) :
    heldName (trimmed p) = utf8 p ↔ trimmed p = p := by
  have hinfix : trimmed p <:+: p :=
    (List.rdropWhile_prefix _ _).isInfix.trans (List.dropWhile_suffix _).isInfix
  obtain ⟨a, b, hp⟩ := hinfix
  have hlength := congrArg (fun s => (utf8 s).length) hp
  simp only [utf8_append, List.length_append] at hlength
  rw [heldName_of_fits (by omega)]
  constructor
  · intro heq
    have ha : utf8 a = [] := List.length_eq_zero_iff.mp (by rw [heq] at hlength; omega)
    have hb : utf8 b = [] := List.length_eq_zero_iff.mp (by rw [heq] at hlength; omega)
    rw [utf8_eq_nil] at ha hb
    rw [ha, hb, List.nil_append, List.append_nil] at hp
    exact hp
  · intro heq
    rw [heq]

theorem program_iff (h : card.Valid) : card.parsed.program = utf8 (card.program.getD []) ↔
    if '=' ∈ card.program.getD [] ∨ trimmed (card.program.getD []) = [] then
      heldName ((card.stale .program).getD []) = utf8 (card.program.getD [])
    else trimmed (card.program.getD []) = card.program.getD [] := by
  rw [parsed_program h]
  split
  · rfl
  · exact heldName_trimmed h.fits

theorem drive_iff (h : card.Valid) : card.parsed.drive = utf8 card.chosenDrive ↔
    (card.chosenDrive = [] → heldName ((card.stale .drive).getD []) = []) := by
  have hnames : ∀ drive ∈ DRIVE_TYPES, heldName drive = utf8 drive := by decide +kernel
  rw [parsed_drive h]
  split
  · next hnil =>
    rw [hnil]
    exact ⟨fun heq _ => heq, fun heq => heq rfl⟩
  · next hne =>
    rw [hnames _ (chosenDrive_mem h)]
    exact iff_of_true rfl fun hnil => absurd hnil hne

lemma rgbIndex_lt (value : Str) : rgbIndex value < 6 := by
  rw [rgbIndex]
  cases hfind : RGB_ORDERS.findIdx? fun order => eqIgnoreAsciiCase order (trimmed value) with
  | none => decide
  | some i => exact (List.findIdx?_eq_some_iff_findIdx_eq.mp hfind).1

theorem rgbOrder_iff (h : card.Valid) :
    RGB_ORDERS[card.parsed.rgbOrder.toNat]? = some card.order ↔
      (card.order = "RGB".toList → ∀ value ∈ card.stale .rgbOrder, rgbIndex value = 0) := by
  have hindex : ∀ order ∈ RGB_ORDERS,
      RGB_ORDERS[(BitVec.ofNat 8 (rgbIndex order)).toNat]? = some order := by decide +kernel
  have hfirst : ∀ n < 6, RGB_ORDERS[(BitVec.ofNat 8 n).toNat]? = some "RGB".toList ↔ n = 0 := by
    decide +kernel
  rw [parsed_rgbOrder h]
  split
  · next hrgb =>
    rw [hrgb]
    cases hstale : card.stale .rgbOrder with
    | none => exact iff_of_true rfl fun _ value hv => by cases hv
    | some value =>
      simp only [Option.map_some, Option.getD_some, hfirst _ (rgbIndex_lt value),
        forall_true_left, Option.mem_def, Option.some.injEq, forall_eq']
  · next hne => exact iff_of_true (hindex _ (order_mem h)) fun hrgb => absurd hrgb hne

lemma last_read {n : ℕ} {f : Str → Option (BitVec n)} {vs : List Str} {v : Str} {k : ℕ}
    (h : (f v).map BitVec.toNat = some k) (a : BitVec n) :
    (((vs ++ [v]).filterMap f).getLast?.getD a).toNat = k := by
  obtain ⟨x, hx, hk⟩ := Option.map_eq_some_iff.mp h
  simp [List.filterMap_append, hx, hk]

lemma eq_zero_iff (o : Option Byte) : (o.getD 0).toNat = 0 ↔ ∀ v ∈ o, v = 0 := by
  cases o with
  | none => exact iff_of_true rfl fun v hv => by cases hv
  | some v =>
    simp only [Option.getD_some, Option.mem_def, Option.some.injEq, forall_eq']
    exact (BitVec.toNat_inj (y := (0 : Byte)))

section Panel

variable {e : Str × PanelType}

theorem parsed_panelWidth (h : card.Valid) (he : card.type = some e) :
    card.parsed.panelWidth.toNat = e.2.moduleW := by
  rw [parsed, LayoutConfig.foldl_panelWidth, valuesOf_own h, he, Option.elim_some, valuesOf_panel]
  simp only [if_true, reduceCtorEq, if_false, List.append_nil]
  exact last_read (panelTypes_set e (type_mem he)).2.2.1 _

theorem parsed_panelHeight (h : card.Valid) (he : card.type = some e) :
    card.parsed.panelHeight.toNat = e.2.moduleH := by
  rw [parsed, LayoutConfig.foldl_panelHeight, valuesOf_own h, he, Option.elim_some, valuesOf_panel]
  simp only [if_true, reduceCtorEq, if_false, List.append_nil, List.nil_append]
  exact last_read (panelTypes_set e (type_mem he)).2.2.2.1 _

theorem groupOrigins_iff (h : card.Valid) (he : card.type = some e) :
    renderOrigins card.parsed.groupOrigins = e.2.groupOrigins.getD [] ↔
      (e.2.groupOrigins = none → ∀ value ∈ card.stale .groupOrigins, origins value = []) := by
  obtain ⟨-, -, -, -, hgroups, -, -⟩ := panelTypes_set e (type_mem he)
  rw [parsed, LayoutConfig.foldl_groupOrigins, valuesOf_own h, he, Option.elim_some,
    valuesOf_panel]
  simp only [if_true, reduceCtorEq, if_false, List.append_nil, List.nil_append]
  cases hg : e.2.groupOrigins with
  | none =>
    simp only [Option.toList_none, List.append_nil, Option.getD_none, forall_true_left,
      renderOrigins_eq_nil]
    change ((card.stale .groupOrigins).map origins).getD [] = [] ↔ _
    cases card.stale .groupOrigins with
    | none => exact iff_of_true rfl fun v hv => by cases hv
    | some v => simp
  | some value =>
    simp only [Option.toList_some, List.getLast?_concat, Option.map_some, Option.getD_some]
    exact iff_of_true (hgroups value hg).1 fun hnone => by cases hnone

theorem clkDiv_iff (h : card.Valid) (he : card.type = some e) :
    card.parsed.clkDiv.toNat = e.2.clkDiv.getD 0 ↔
      (e.2.clkDiv = none → ∀ v ∈ card.staleNumber .clkDiv 255, v = 0) := by
  obtain ⟨-, -, -, -, -, hclk, -⟩ := panelTypes_set e (type_mem he)
  rw [parsed, LayoutConfig.foldl_clkDiv, valuesOf_own h, he, Option.elim_some, valuesOf_panel]
  simp only [if_true, reduceCtorEq, if_false, List.append_nil, List.nil_append]
  cases hc : e.2.clkDiv with
  | none =>
    simp only [Option.toList_none, List.map_nil, List.append_nil, Option.getD_none,
      forall_true_left]
    exact eq_zero_iff _
  | some v =>
    simp only [Option.toList_some, List.map_cons, List.map_nil, Option.getD_some]
    exact iff_of_true (last_read (hclk v hc) _) fun hnone => by cases hnone

theorem writeThrottle_iff (h : card.Valid) (he : card.type = some e) :
    card.parsed.writeThrottle.toNat = e.2.writeThrottle.getD 0 ↔
      (e.2.writeThrottle = none → ∀ v ∈ card.staleNumber .writeThrottle 15, v = 0) := by
  obtain ⟨-, -, -, -, -, -, hthrottle⟩ := panelTypes_set e (type_mem he)
  rw [parsed, LayoutConfig.foldl_writeThrottle, valuesOf_own h, he, Option.elim_some,
    valuesOf_panel]
  simp only [if_true, reduceCtorEq, if_false, List.append_nil, List.nil_append]
  cases hc : e.2.writeThrottle with
  | none =>
    simp only [Option.toList_none, List.map_nil, List.append_nil, Option.getD_none,
      forall_true_left]
    exact eq_zero_iff _
  | some v =>
    simp only [Option.toList_some, List.map_cons, List.map_nil, Option.getD_some]
    exact iff_of_true (last_read (hthrottle v hc) _) fun hnone => by cases hnone

end Panel

end Fields

/-- The configuration means the row exactly when its text is clean. -/
theorem bootConfig_means (card : Card) (h : card.Valid) :
    (∃ config, LayoutConfig.parse card.bootConfig = some config ∧ card.Means config) ↔
      card.Clean := by
  constructor
  · rintro ⟨config, hparse, hmeans⟩
    have hconfig : card.parsed = config := Option.some.inj hparse
    rw [← hconfig] at hmeans
    exact
      { program := (program_iff h).mp hmeans.program
        drive := (drive_iff h).mp hmeans.drive
        rgbOrder := (rgbOrder_iff h).mp hmeans.rgbOrder
        origins := fun e he => (groupOrigins_iff h he).mp (hmeans.panel e he).2.2.1
        clkDiv := fun e he => (clkDiv_iff h he).mp (hmeans.panel e he).2.2.2.1
        writeThrottle := fun e he => (writeThrottle_iff h he).mp (hmeans.panel e he).2.2.2.2 }
  · intro hclean
    refine ⟨card.parsed, rfl, parsed_mode h, (program_iff h).mpr hclean.program,
      (drive_iff h).mpr hclean.drive, (rgbOrder_iff h).mpr hclean.rgbOrder, ?_⟩
    intro e he
    exact ⟨parsed_panelWidth h he, parsed_panelHeight h he,
      (groupOrigins_iff h he).mpr (hclean.origins e he), (clkDiv_iff h he).mpr (hclean.clkDiv e he),
      (writeThrottle_iff h he).mpr (hclean.writeThrottle e he)⟩

/-- A row that names no program, over a layout that still does. -/
def unnamed : Card where
  layoutYaml := some "grid: 1x1\nprogram: ticker\n".toList
  panelType := none
  mode := "program".toList
  program := none
  drive := none
  rgbOrder := none

/-- The layout's program runs. -/
theorem unnamed_runs : ¬ ∀ card : Card, card.Valid →
    ∃ config, LayoutConfig.parse card.bootConfig = some config ∧ card.Means config := by
  intro hclaim
  have hvalid : unnamed.Valid := ⟨by decide, by decide, by decide, by decide, by decide⟩
  obtain ⟨config, hparse, hmeans⟩ := hclaim unnamed hvalid
  have hconfig : unnamed.parsed = config := Option.some.inj hparse
  have hprogram := hmeans.program
  rw [← hconfig] at hprogram
  revert hprogram
  decide +kernel

/-- The bench module's row. -/
def bench : Card where
  layoutYaml := some "grid: 1x1\nJ1: 0,0\npanel_width: 96".toList
  panelType := some "linsn-p1.25-256x128-dp3264s".toList
  mode := "program".toList
  program := some "ticker".toList
  drive := none
  rgbOrder := some "GRB".toList

theorem bench_means :
    ∃ config, LayoutConfig.parse bench.bootConfig = some config ∧ bench.Means config := by
  apply (bootConfig_means bench ⟨by decide, by decide, by decide, by decide, by decide⟩).mpr
  have hstated : ∀ e ∈ bench.type,
      e.2.groupOrigins ≠ none ∧ e.2.clkDiv ≠ none ∧ e.2.writeThrottle ≠ none := by
    decide
  constructor
  · decide +kernel
  · decide +kernel
  · decide +kernel
  · exact fun e he hnone => absurd hnone (hstated e he).1
  · exact fun e he hnone => absurd hnone (hstated e he).2.1
  · exact fun e he hnone => absurd hnone (hstated e he).2.2

end Card

end Ledwall.Server
