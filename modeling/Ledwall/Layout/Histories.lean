import Ledwall.Layout.ApplyLayout

/-! What a layout states of the display, that applying it leaves the rest alone, and so what a
history of layouts leaves. -/

namespace Ledwall.Layout

open Ledwall.Wire Ledwall.Receiver Ledwall.Library.Overlays

def Chip.row? (chip : Chip) (scan : BitVec 16) (addr : ℕ) : Option Row :=
  (if MAX_REGS ≤ addr then chip.wrappers[addr - MAX_REGS]? else none).or
    ((chip.regs[addr]?).map fun row => chip.withScan row scan)

namespace LayoutConfig

variable (b : Bitstream) (layout : LayoutConfig)

def slot (output chain : ℕ) : Option (Byte × Byte) :=
  if h : output < MAX_OUTPUTS ∧ chain < MAX_CHAIN then layout.assignments ⟨output, h.1⟩ ⟨chain, h.2⟩
  else none

def panelParam (cell : Byte × Byte) : PanelParam :=
  ⟨(layout.placement cell).1, (layout.placement cell).2, 0⟩

def chip : Option Chip := if b.spwm then selectedChip layout.drive else none

def scan : BitVec 16 := if 0 < b.scan then b.scan.setWidth 16 else .ofNat 16 layout.scanRows

/-- Whether `mode: program` finds its program. -/
def starts : Option Bool :=
  if layout.mode = .program then some (programByName layout.program).isSome else none

def driverStates : Writes Item.Val
  | .chipRow addr => (layout.chip b).bind fun chip => chip.row? (layout.scan b) addr
  | .chipCfg => (layout.chip b).map Chip.grammar
  | .rowSerial => (layout.chip b).map fun chip => chip.rowSerial != 0
  | .chanXor => (layout.chip b).map fun chip => chip.chanXor.setWidth 4
  | .sweepAdv => (layout.chip b).map fun chip => chip.sweepAdv.setWidth 3
  | .passes => (layout.chip b).map fun chip => chip.passesM1.setWidth 7
  | _ => none

def operatingStates : Writes Item.Val
  | .clkDiv => if 2 ≤ layout.clkDiv then some layout.clkDiv else none
  | .throttle => if 0 < layout.writeThrottle then some (layout.writeThrottle.setWidth 4) else none
  | _ => none

def geometryStates : Writes Item.Val
  | .imageWidth => some layout.virtualWidth.toNat
  | .imageLength => some layout.virtualLength.toNat
  | .dmaLimit => some (min layout.virtualLength.toNat FB_HALF_WORDS)
  | .rgbOrder =>
    some (if b.rgbOrderCsr then if 5 < layout.rgbOrder then 0 else layout.rgbOrder else 0)
  | .groupOrigin g => if b.spwm then (layout.groupOrigins[g]?).map Csrs.originCsr else none
  | .panel n => if n < b.panelCsrCount then (layout.slot n 0).map layout.panelParam else none
  | _ => none

def programStates : Writes Item.Val
  | .programActive => layout.starts
  | .hold => layout.starts
  | .dmaEnable => layout.starts.map fun on => !on
  | _ => none

/-- The items a layout states, with what it states of them. -/
def states : Writes Item.Val := fun i =>
  (layout.programStates i).or
    ((layout.geometryStates b i).or ((layout.operatingStates i).or (layout.driverStates b i)))

end LayoutConfig

namespace Card

variable (b : Bitstream) (layout : LayoutConfig) (s : Card)

theorem configureDriver_display :
    (s.configureDriver b layout).display b = overlay (layout.driverStates b) (s.display b) := by
  have hcsrs : (s.configureDriver b layout).csrs =
      (layout.chip b).elim s.csrs fun chip => chip.load s.csrs (layout.scan b) := by
    rw [configureDriver, LayoutConfig.chip]
    cases b.spwm with
    | false => rfl
    | true =>
      refine (configure_some _ _ _).trans ?_
      change _ = (selectedChip layout.drive).elim _ _
      cases selectedChip layout.drive <;> rfl
  have hrest : s.configureDriver b layout =
      { s with
        csrs := (s.configureDriver b layout).csrs
        spwmState := (s.configureDriver b layout).spwmState } := by
    rw [configureDriver]
    split <;> rfl
  rw [hrest, hcsrs]
  funext i
  cases hc : layout.chip b with
  | none => cases i <;> simp [overlay, LayoutConfig.driverStates, hc, display]
  | some chip =>
    cases i
    case chipRow addr =>
      simp only [display, Option.elim_some, Chip.load, Csrs.writeRows_eq, overlay,
        LayoutConfig.driverStates, hc, Option.bind_some, Chip.row?, Nat.zero_le, if_true, Nat.sub_zero, List.getElem?_map]
      split
      · cases chip.wrappers[addr - MAX_REGS]? <;> rfl
      · rfl
    all_goals
      simp [display, overlay, LayoutConfig.driverStates, hc, Chip.load, Csrs.writeRows_eq,
        Csrs.readRgbOrder]

theorem setOperatingPoint_display :
    (s.setOperatingPoint layout).display b = overlay layout.operatingStates (s.display b) := by
  have heq : s.setOperatingPoint layout =
      { s with
        csrs := { s.csrs with
          clkDiv := if 2 ≤ layout.clkDiv then layout.clkDiv else s.csrs.clkDiv
          throttle := if 0 < layout.writeThrottle then layout.writeThrottle.setWidth 4
            else s.csrs.throttle } } := by
    rw [setOperatingPoint]
    split <;> split <;> rfl
  rw [heq]
  funext i
  cases i
  case clkDiv =>
    simp only [display, overlay, LayoutConfig.operatingStates]
    split <;> rfl
  case throttle =>
    simp only [display, overlay, LayoutConfig.operatingStates]
    split <;> rfl
  all_goals rfl

/-- The second slot of a chain, and an output without a register, are not written. -/
theorem placeSlot_eq (c : Csrs) (output : Fin MAX_OUTPUTS) (chain : Fin MAX_CHAIN) :
    placeSlot b layout output chain c =
      { c with
        panel := fun n =>
          (if n = output ∧ chain = 0 ∧ n < b.panelCsrCount then
            (layout.assignments output chain).map layout.panelParam else none).getD (c.panel n) } := by
  have hcount := b.panelCsrCount_le
  rw [placeSlot]
  cases layout.assignments output chain with
  | none =>
    simp only [Option.map_none, ite_self]
    rfl
  | some cell =>
    dsimp only
    rw [Csrs.setPanelParam]
    split
    · next h =>
      have hout (n : ℕ) : ¬ (n = output ∧ chain = 0 ∧ n < b.panelCsrCount) := by
        rintro ⟨hn, hc, hlt⟩
        subst hn
        rw [hc, CHAIN_LENGTH, Fin.val_zero] at h
        omega
      simp only [hout, if_false]
      rfl
    · next h =>
      have hc : chain = 0 := by
        apply Fin.ext
        have : ¬ CHAIN_LENGTH ≤ chain.val := fun hle => h (Or.inr hle)
        rw [CHAIN_LENGTH] at this
        rw [Fin.val_zero]
        omega
      simp only [hc, CHAIN_LENGTH, Fin.val_zero, Nat.mul_one, Nat.add_zero, true_and]
      split
      · next hge =>
        have hout (n : ℕ) : ¬ (n = output ∧ n < b.panelCsrCount) := by
          rintro ⟨hn, hlt⟩
          omega
        simp only [hout, if_false]
        rfl
      · next hlt =>
        rw [Csrs.mk.injEq]
        simp only [and_true]
        funext n
        rcases eq_or_ne n output with hn | hn
        · rw [if_pos ⟨hn, by omega⟩, hn, Function.update_self]
          rfl
        · rw [if_neg fun h => hn h.1, Function.update_of_ne hn]
          rfl

theorem placePanels_eq (c : Csrs) : placePanels b layout c =
    { c with
      panel := fun n =>
        (if n < b.panelCsrCount then (layout.slot n 0).map layout.panelParam else none).getD
          (c.panel n) } := by
  have hloop (outputs : List (Fin MAX_OUTPUTS)) (c : Csrs) :
      outputs.foldl (fun c output =>
        (List.finRange MAX_CHAIN).foldl (fun c chain => placeSlot b layout output chain c) c) c =
      { c with
        panel := fun n =>
          (if n ∈ outputs.map Fin.val ∧ n < b.panelCsrCount then
            (layout.slot n 0).map layout.panelParam else none).getD (c.panel n) } := by
    induction outputs generalizing c with
    | nil => simp
    | cons output outputs ih =>
      have hchains : List.finRange MAX_CHAIN = [0, 1] := rfl
      have hslot : layout.slot output 0 = layout.assignments output 0 :=
        dif_pos ⟨output.isLt, by decide⟩
      rw [List.foldl_cons, ih, hchains, List.foldl_cons, List.foldl_cons, List.foldl_nil,
        placeSlot_eq, placeSlot_eq, Csrs.mk.injEq]
      simp only [true_and, and_true]
      funext n
      rcases eq_or_ne n output with rfl | hn
      · have h10 : ¬ (1 : Fin MAX_CHAIN) = 0 := by decide
        simp only [hslot, h10, false_and, and_false, if_false, Option.getD_none, true_and,
          List.map_cons, List.mem_cons, true_or]
        by_cases hc : output < b.panelCsrCount
        · simp only [hc, and_true, if_true]
          split
          · cases layout.assignments output 0 <;> rfl
          · rfl
        · simp only [hc, and_false, if_false, Option.getD_none]
      · simp [hn]
  rw [placePanels, hloop, Csrs.mk.injEq]
  simp only [and_true]
  funext n
  have hmem (hn : n < b.panelCsrCount) : n ∈ (List.finRange MAX_OUTPUTS).map Fin.val := by
    have hlt : n < MAX_OUTPUTS := Nat.lt_of_lt_of_le hn (b.panelCsrCount_le.trans (by decide))
    exact List.mem_map.mpr ⟨⟨n, hlt⟩, List.mem_finRange _, rfl⟩
  by_cases hn : n < b.panelCsrCount
  · rw [if_pos ⟨hmem hn, hn⟩, if_pos hn]
  · rw [if_neg fun h => hn h.2, if_neg hn]

/-- The geometry, with the redraw that follows it: the redraw states the image size once more. -/
theorem applyGeometry_display :
    ({ s.applyGeometry b layout with layout := layout }.drawTestScreen layout).display b =
      overlay (layout.geometryStates b) (s.display b) := by
  let sized := s.hub75.setImgParam layout.virtualWidth layout.virtualLength
  have hdraw : Hub75.SameImage (sized.setImgParam layout.virtualWidth layout.virtualLength)
      ({ s.applyGeometry b layout with layout := layout }.drawTestScreen layout).hub75 := by
    let grid := gridTiled layout.virtualWidth.toNat layout.virtualHeight.toNat
      layout.panelWidth.toNat layout.panelHeight.toNat
    let plain := sized.setImgParam layout.virtualWidth layout.virtualLength
    refine (plain.writeImgData_same 0 grid).trans ?_
    refine ((plain.writeImgData 0 grid).drawVersionBanners_same layout.virtualWidth.toNat
      layout.virtualHeight.toNat layout.panelWidth.toNat layout.panelHeight.toNat).trans ?_
    exact ⟨rfl, rfl, rfl, rfl⟩
  have hcsrs : ({ s.applyGeometry b layout with layout := layout }.drawTestScreen layout).csrs =
      placePanels b layout ((s.csrs.setRgbOrder b layout.rgbOrder).2.setGroupOrigins b
        layout.groupOrigins) := rfl
  rw [Csrs.setGroupOrigins_eq _ _ _ layout.groups_le, placePanels_eq] at hcsrs
  have hordered : (s.csrs.setRgbOrder b layout.rgbOrder).2 =
      { s.csrs with rgbOrder := (s.csrs.setRgbOrder b layout.rgbOrder).2.rgbOrder } := by
    simp only [Csrs.setRgbOrder]
    split <;> rfl
  funext i
  cases i
  case imageWidth => exact hdraw.width
  case imageLength => exact hdraw.length
  case dmaLimit => exact hdraw.limit
  case dmaEnable => exact hdraw.enable
  case rgbOrder =>
    have hread := s.csrs.setRgbOrder_read b layout.rgbOrder
    simp only [display, hcsrs, Csrs.readRgbOrder] at hread ⊢
    exact hread
  case groupOrigin g =>
    simp only [display, hcsrs, overlay, LayoutConfig.geometryStates]
    rw [hordered]
    split <;> rfl
  case panel n =>
    simp only [display, hcsrs, overlay, LayoutConfig.geometryStates]
    rw [hordered]
  case programActive => rfl
  case hold => rfl
  case paletteDirty => rfl
  all_goals
    simp only [display, hcsrs]
    rw [hordered]
    rfl

theorem setStreamHold_display (on : Bool) (hptr : s.hub75Ptr = true)
    (hlimit : s.hub75.dmaLimit = s.hub75.limit) : (s.setStreamHold on).display b =
      overlay (fun
        | .hold => some on
        | .dmaEnable => some (!on)
        | _ => none) (s.display b) := by
  have heq : s.setStreamHold on =
      { s with rx := s.rx.setHold on, hub75 := s.hub75.setDmaEnabled (!on) } := if_pos hptr
  rw [heq]
  funext i
  cases i
  case dmaLimit => exact hlimit.symm
  all_goals rfl

theorem startProgram_display (hptr : s.hub75Ptr = true)
    (hlimit : s.hub75.dmaLimit = s.hub75.limit) :
    ∃ s', s.startProgram layout = .ok s' ∧ s'.hub75Ptr = s.hub75Ptr ∧ s'.layoutPtr = s.layoutPtr ∧
      s'.display b = overlay layout.programStates (s.display b) := by
  have hfields (s : Card) (on : Bool) : (s.setStreamHold on).hub75Ptr = s.hub75Ptr ∧
      (s.setStreamHold on).layoutPtr = s.layoutPtr := by
    rw [setStreamHold]
    split <;> exact ⟨rfl, rfl⟩
  rw [startProgram]
  cases hmode : layout.mode with
  | stream =>
    refine ⟨s, rfl, rfl, rfl, ?_⟩
    have hstarts : layout.starts = none := if_neg (by rw [hmode]; decide)
    funext i
    cases i <;> simp [overlay, LayoutConfig.programStates, hstarts]
  | program =>
    rw [if_pos rfl]
    cases hprog : programByName layout.program with
    | none =>
      have hstarts : layout.starts = some false := by
        rw [LayoutConfig.starts, if_pos hmode, hprog]
        rfl
      refine ⟨_, rfl, (hfields _ _).1, (hfields _ _).2, ?_⟩
      refine (setStreamHold_display b _ false ?_ ?_).trans ?_
      · exact hptr
      · exact hlimit
      funext i
      cases i <;> simp [overlay, LayoutConfig.programStates, hstarts, display]
    | some pr =>
      have hstarts : layout.starts = some true := by
        rw [LayoutConfig.starts, if_pos hmode, hprog]
        rfl
      obtain ⟨h', hh', himage⟩ := s.hub75.setPaletteAll_same paletteDefault
      simp only [hh', bind, Except.bind, pure, Except.pure]
      refine ⟨_, rfl, (hfields _ _).1, (hfields _ _).2, ?_⟩
      have hlimit' : h'.dmaLimit = h'.limit := by
        rw [himage.limit, hlimit, Hub75.limit, Hub75.limit, himage.length]
      refine (setStreamHold_display b _ true ?_ ?_).trans ?_
      · exact hptr
      · exact hlimit'
      funext i
      cases i
      case imageWidth => exact himage.width
      case imageLength => exact himage.length
      case dmaLimit => exact himage.limit
      all_goals simp [overlay, LayoutConfig.programStates, hstarts, display]

/-- Applying a layout lays what it states over the display, and nothing else. -/
theorem applyLayout_display (hptr : s.hub75Ptr = true) (hlayout : s.layoutPtr = true) :
    ∃ s', s.applyLayout b layout = .ok s' ∧ s'.hub75Ptr = true ∧ s'.layoutPtr = true ∧
      s'.display b = overlay (layout.states b) (s.display b) := by
  have hdriver : (s.configureDriver b layout).hub75Ptr = true ∧
      (s.configureDriver b layout).layoutPtr = true := by
    rw [configureDriver]
    split <;> exact ⟨hptr, hlayout⟩
  let t := ((s.configureDriver b layout).setOperatingPoint layout).checkBitstream b layout
  let drawn := { t.applyGeometry b layout with layout := layout }.drawTestScreen layout
  have hlimit : drawn.hub75.dmaLimit = drawn.hub75.limit := by
    have hdisplay := applyGeometry_display b layout t
    have hlim := congrFun hdisplay .dmaLimit
    have hlen := congrFun hdisplay .imageLength
    rw [Hub75.limit]
    exact hlim.trans (by rw [show drawn.hub75.length = _ from hlen]; rfl)
  obtain ⟨s', hs', h1, h2, hd⟩ := startProgram_display b layout drawn hdriver.1 hlimit
  refine ⟨s', ?_, h1.trans hdriver.1, h2.trans hdriver.2, ?_⟩
  · rw [applyLayout, if_neg (by simp [hptr, hlayout])]
    exact hs'
  · have hoperating : t.display b = overlay layout.operatingStates
        (overlay (layout.driverStates b) (s.display b)) := by
      rw [← configureDriver_display, ← setOperatingPoint_display]
      rfl
    rw [hd, applyGeometry_display, hoperating, overlay_overlay, overlay_overlay, overlay_overlay]
    simp only [Option.or_assoc]
    rfl

/-- A run of layouts leaves each item as the last layout that states it says. -/
theorem applyLayouts_display (layouts : List LayoutConfig) (hptr : s.hub75Ptr = true)
    (hlayout : s.layoutPtr = true) :
    ∃ s', layouts.foldlM (fun s layout => s.applyLayout b layout) s = .ok s' ∧
      ∀ i, s'.display b i =
        (layouts.reverse.findSome? fun layout => layout.states b i).getD (s.display b i) := by
  have hrun : ∃ s', layouts.foldlM (fun s layout => s.applyLayout b layout) s = .ok s' ∧
      s'.display b = (layouts.map fun layout => layout.states b).foldl (fun d w => overlay w d)
        (s.display b) := by
    induction layouts generalizing s with
    | nil => exact ⟨s, rfl, rfl⟩
    | cons layout layouts ih =>
      obtain ⟨t, ht, h1, h2, hd⟩ := s.applyLayout_display b layout hptr hlayout
      obtain ⟨s', hs', hrest⟩ := ih t h1 h2
      refine ⟨s', ?_, ?_⟩
      · rw [List.foldlM_cons, ht]
        exact hs'
      · rw [hrest, hd, List.map_cons, List.foldl_cons]
  obtain ⟨s', hs', hd⟩ := hrun
  refine ⟨s', hs', fun i => ?_⟩
  rw [hd, overlays_apply, ← List.map_reverse, List.findSome?_map]
  rfl

/-- The layout applied last decides the display by itself exactly when each item it does not state
is one the layout before did not state either, or stated as the display had it. -/
theorem applyLayout_forgets_iff (first second : LayoutConfig) :
    ((s.applyLayout b first).bind fun s => s.applyLayout b second).map (Card.display b) =
        (s.applyLayout b second).map (Card.display b) ↔
      (s.hub75Ptr = true → s.layoutPtr = true →
        ∀ i, second.states b i = none → ∀ v, first.states b i = some v → v = s.display b i) := by
  by_cases hptrs : s.hub75Ptr = false ∨ s.layoutPtr = false
  · have hid (layout : LayoutConfig) : s.applyLayout b layout = .ok s := if_pos hptrs
    constructor
    · intro _ hptr hlayout
      rcases hptrs with h | h <;> simp_all
    · intro _
      rw [hid first]
      rfl
  · push Not at hptrs
    have hptr : s.hub75Ptr = true := by simpa using hptrs.1
    have hlayout : s.layoutPtr = true := by simpa using hptrs.2
    obtain ⟨t, ht, h1, h2, hdt⟩ := s.applyLayout_display b first hptr hlayout
    obtain ⟨u, hu, -, -, hdu⟩ := t.applyLayout_display b second h1 h2
    obtain ⟨v, hv, -, -, hdv⟩ := s.applyLayout_display b second hptr hlayout
    have hboth : (s.applyLayout b first).bind (fun s => s.applyLayout b second) = .ok u := by
      rw [ht]
      exact hu
    rw [hboth, hv, Except.map, Except.map, Except.ok.injEq, hdu, hdt, hdv, overlay_hides_iff]
    constructor
    · intro h _ _
      exact h
    · intro h
      exact h hptr hlayout

end Card

/-- A four-output card on the S-PWM bitstream, before any layout. -/
def e320 : Bitstream where
  spwm := true
  hwColumns := 256
  hwRows := 128
  hwConfig := 0x4440
  hwDriver := 1
  rgbOrderCsr := true

def unconfigured : Card where
  hub75Ptr := true
  layoutPtr := true
  hub75 := Hub75.new (fun _ => 0) Registers.reset
  csrs :=
    { panel := fun _ => ⟨0, 0, 0⟩
      rgbOrder := 0
      groupOrigin := fun _ => (0, 0)
      clkDiv := 4
      throttle := 0
      chipTable := fun _ => ⟨0, 0, 0⟩
      chipCfg := ⟨38, 5, 2, true, 2, 2, false, false, false, 0⟩
      rowSer := ⟨false, 0⟩
      latchCfg := ⟨0, 0, 0, 0⟩
      pixelFilterEnable := false }
  rx := {}
  layout := .singlePanel 256 128
  spwmState := .default
  rgbOrderUnsupported := false
  outputMismatch := 0
  moduleMismatch := 0
  prog := ⟨none, none, 0, 0, "", false, 0, 0, true⟩

def standalone : LayoutConfig :=
  { LayoutConfig.singlePanel 256 128 with
    mode := .program
    programBytes := Values.ascii "hello"
    program_le := by decide }

/-- A card that boots into a program keeps running it when a stream layout arrives. -/
theorem program_survives_stream :
    ((unconfigured.applyLayout e320 standalone).bind fun s =>
      s.applyLayout e320 (.singlePanel 256 128)).map (Card.display e320) ≠
    (unconfigured.applyLayout e320 (.singlePanel 256 128)).map (Card.display e320) := by
  obtain ⟨t, ht, h1, h2, hdt⟩ := unconfigured.applyLayout_display e320 standalone rfl rfl
  obtain ⟨u, hu, -, -, hdu⟩ := t.applyLayout_display e320 (.singlePanel 256 128) h1 h2
  obtain ⟨v, hv, -, -, hdv⟩ := unconfigured.applyLayout_display e320 (.singlePanel 256 128) rfl rfl
  have hboth : (unconfigured.applyLayout e320 standalone).bind (fun s =>
      s.applyLayout e320 (.singlePanel 256 128)) = .ok u := by
    rw [ht]
    exact hu
  rw [hboth, hv, Except.map, Except.map, Ne, Except.ok.injEq, hdu, hdt, hdv, overlay_hides_iff]
  intro h
  have hactive : true = false := h .programActive rfl true (by decide +kernel)
  cases hactive

end Ledwall.Layout
