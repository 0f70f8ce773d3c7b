import Mathlib.Data.List.TakeWhile
import Ledwall.Layout.TestScreen
import Ledwall.Values.ValueTable

/-! On-panel programs: the tick that draws a frame into the half that is not shown, as little of it as
it can, and shows it. -/

namespace Ledwall.Panels

open Ledwall.Receiver Ledwall.Values Ledwall.Wire

def PROGRAM_PERIOD_MS : ℤ := 33
def REPAINT_SLICE : ℕ := 12

/-- Everything a program is handed for one frame. -/
structure FrameCtx where
  w : ℕ
  h : ℕ
  frame : BitVec 32
  timeMs : ℤ
  values : ValueTable

/-- Rows that move by `speed` with every frame. -/
structure ScrollBand where
  y0 : ℕ
  y1 : ℕ
  speed : ℕ
  right : Bool

/-- A compiled program: what it has at a pixel, and what of it is declared to change. -/
structure Program where
  pixel : FrameCtx → ℕ → ℕ → Word
  dynamic : Option (ℕ × ℕ)
  scroll : List ScrollBand
  palette : Option (FrameCtx → ℕ → Word)
  paletteStatic : Bool

/-- What a tick samples. -/
structure TickInputs where
  timeMs : ℤ
  regs : Registers

/-- The statics of the program mode with the driver. `shownCtx` and `spareCtx` are history: what the half
on the glass and the other one were last drawn with. -/
structure ProgramRunner where
  hub : Hub75
  values : ValueTable
  frame : BitVec 32
  fullLeft : ℕ
  primeLeft : ℕ
  seenWrites : BitVec 32
  nextMs : ℤ
  paletteDirty : Bool
  repaintPos : Fin 2 → ℕ
  repaintLeft : Fin 2 → ℕ
  shownCtx : FrameCtx
  spareCtx : FrameCtx

def ScrollBand.has (b : ScrollBand) (y : ℕ) : Bool := b.y0 ≤ y && y < b.y1

namespace Program

variable (p : Program) (ctx : FrameCtx)

/-- The row function: the slice of row `y` from `x0`. -/
def row (y x0 len : ℕ) : List Word := (List.range len).map fun i => p.pixel ctx (x0 + i) y

/-- Draws a slice of each of the rows, until one is not in the buffer. -/
def drawRows (hub : Hub75) (ys : List ℕ) (x0 len : ℕ) : Hub75 :=
  (ys.takeWhile fun y => y * ctx.w + x0 + len ≤ hub.limit).foldl
    (fun hub y => hub.store (y * ctx.w + x0) (p.row ctx y x0 len)) hub

/-- One row of a band, moved on its way from the half on the glass. -/
def shiftRow (w : ℕ) (b : ScrollBand) (hub : Hub75) (y : ℕ) : Hub75 :=
  if b.right then
    hub.store (y * w + b.speed) ((List.range (w - b.speed)).map fun x => hub.displayBuffer (y * w + x))
  else hub.store (y * w) ((List.range (w - b.speed)).map fun x => hub.displayBuffer (y * w + x + b.speed))

def rowsOf (h y0 y1 : ℕ) : List ℕ := List.range' (min y0 h) (min y1 h - min y0 h)

/-- A band: moved, and then drawn where that has uncovered it. -/
def scrollBand (hub : Hub75) (b : ScrollBand) : Hub75 :=
  if b.speed = 0 ∨ ctx.w ≤ b.speed then hub
  else
    let ys := rowsOf ctx.h b.y0 b.y1
    let moved := (ys.takeWhile fun y => y * ctx.w + ctx.w ≤ hub.limit).foldl (shiftRow ctx.w b) hub
    p.drawRows ctx moved ys (if b.right then 0 else ctx.w - b.speed) b.speed

/-- The next of the rows that a half is owed, until the budget is spent: what is left of the debt. -/
def repaint (skip : ℕ → Bool) : ℕ → ℕ → ℕ → Hub75 → ℕ × ℕ × Hub75
  | _, pos, 0, hub => (pos, 0, hub)
  | 0, pos, left + 1, hub => (pos, left + 1, hub)
  | budget + 1, pos, left + 1, hub =>
    if skip pos || ctx.h ≤ pos then repaint skip (budget + 1) (pos + 1) left hub
    else if hub.limit < pos * ctx.w + ctx.w then (pos + 1, left, hub)
    else repaint skip budget (pos + 1) left (hub.store (pos * ctx.w) (p.row ctx pos 0 ctx.w))

end Program

/-- `back_index`: which half is drawn into, as the gateware tells. -/
def backIndex (hub : Hub75) : Fin 2 × Hub75 :=
  (if hub.fbBaseNow.1 = FB_BASE_WORDS then 1 else 0, hub.fbBaseNow.2)

namespace ProgramRunner

variable (p : Program) (s : ProgramRunner) (ctx : FrameCtx)

def writePalette : Except Panic ProgramRunner :=
  match p.palette with
  | none => .ok s
  | some pf =>
    if ¬ p.paletteStatic then do
      let hub ← s.hub.setPalette 0 ((List.range 256).map (pf ctx))
      return { s with hub := hub }
    else if s.paletteDirty then do
      let hub ← s.hub.setPaletteAll 0 (pf ctx)
      return { s with hub := hub, paletteDirty := false }
    else .ok s

/-- When a value has landed both halves owe all rows. -/
def armed (h : ℕ) : ProgramRunner :=
  if s.values.writes ≠ s.seenWrites then
    { s with seenWrites := s.values.writes, repaintPos := fun _ => 0, repaintLeft := fun _ => h }
  else s

def repainting : Bool := 0 < s.repaintLeft 0 || 0 < s.repaintLeft 1

def animated : Bool :=
  p.scroll ≠ [] || (p.palette.isSome && !p.paletteStatic) || p.dynamic.isSome || s.repainting

/-- The rows that are drawn in any case. -/
def band (h : ℕ) : ℕ × ℕ :=
  match p.dynamic, s.fullLeft with
  | some b, 0 => b
  | _, _ => (0, h)

def inBand (h y : ℕ) : Bool := (s.band p h).1 ≤ y && y < (s.band p h).2

def scrolling : Bool := p.scroll ≠ [] && s.primeLeft = 0

def inScroll (y : ℕ) : Bool := s.scrolling p && p.scroll.any fun b => b.has y

/-- The bands, and then the rows that they leave. -/
def drawBands : Hub75 :=
  p.drawRows ctx (if s.scrolling p then p.scroll.foldl (p.scrollBand ctx) s.hub else s.hub)
    ((Program.rowsOf ctx.h (s.band p ctx.h).1 (s.band p ctx.h).2).filter fun y => !s.inScroll p y) 0 ctx.w

/-- Pays off what the half that is drawn into is owed, a slice at a time. -/
def payOff (hub : Hub75) : ProgramRunner :=
  if s.repainting then
    let (bi, hub) := backIndex hub
    let (pos, left, hub) := p.repaint ctx (fun y => s.inScroll p y || s.inBand p ctx.h y) REPAINT_SLICE
      (s.repaintPos bi) (s.repaintLeft bi) hub
    { s with
      hub := hub
      repaintPos := Function.update s.repaintPos bi pos
      repaintLeft := Function.update s.repaintLeft bi left }
  else { s with hub := hub }

/-- One frame, drawn and shown. -/
def draw : ProgramRunner :=
  let drawn := s.payOff p ctx (s.drawBands p ctx)
  { drawn with
    hub := (drawn.hub.setMode true).swapBuffers
    frame := s.frame + 1
    fullLeft := s.fullLeft - 1
    primeLeft := s.primeLeft - 1
    shownCtx := ctx
    spareCtx := s.shownCtx }

/-- `program_tick` -/
def tick (i : TickInputs) : Except Panic ProgramRunner :=
  if i.timeMs < s.nextMs then .ok s
  else do
    let s := { s with nextMs := i.timeMs + PROGRAM_PERIOD_MS, hub := { s.hub with regs := i.regs } }
    let (w, len) := s.hub.getImgParam
    if w = 0 ∨ len = 0 then return s
    let ctx : FrameCtx := ⟨w, len / w, s.frame, i.timeMs, s.values⟩
    let s := if s.hub.autoSwap then { s with hub := s.hub.setAutoSwap false } else s
    let s ← s.writePalette p ctx
    let s := s.armed ctx.h
    if s.fullLeft = 0 ∧ s.animated p = false then return s
    return s.draw p ctx

end ProgramRunner

section Painting

variable {p : Program} {ctx : FrameCtx} {hub hub' hub'' : Hub75} {w a n x y : ℕ}
  {f g : ℕ → ℕ → Option Word} {words : List Word}

/-- An operation paints the cells of the half that is not shown, row by row of `w`, as `f` says, and
leaves everything else. -/
structure Paints (w : ℕ) (f : ℕ → ℕ → Option Word) (hub hub' : Hub75) : Prop where
  same : ∃ data drawn, hub' = { hub with hub75Data := data, drawn := drawn }
  cell : ∀ y x, x < w → hub'.hub75Data (y * w + x) = (f y x).getD (hub.hub75Data (y * w + x))

lemma Paints.refl : Paints w (fun _ _ => none) hub hub := ⟨⟨_, _, rfl⟩, fun _ _ _ => rfl⟩

lemma Paints.trans (h : Paints w f hub hub') (h' : Paints w g hub' hub'') :
    Paints w (fun y x => (g y x).or (f y x)) hub hub'' := by
  obtain ⟨⟨data, drawn, rfl⟩, hcell⟩ := h
  obtain ⟨⟨data', drawn', rfl⟩, hcell'⟩ := h'
  refine ⟨⟨data', drawn', rfl⟩, fun y x hx => ?_⟩
  rw [hcell' y x hx, hcell y x hx]
  cases g y x <;> rfl

lemma Paints.congr (h : Paints w f hub hub') (hfg : ∀ y x, x < w → f y x = g y x) :
    Paints w g hub hub' :=
  ⟨h.same, fun y x hx => by rw [h.cell y x hx, hfg y x hx]⟩

lemma Paints.displayBuffer (h : Paints w f hub hub') : hub'.displayBuffer = hub.displayBuffer := by
  obtain ⟨data, drawn, rfl⟩ := h.same
  rfl

lemma Paints.limit (h : Paints w f hub hub') : hub'.limit = hub.limit := by
  obtain ⟨data, drawn, rfl⟩ := h.same
  rfl

/-- A cell lies in a slice of a row exactly when it is in that row, between the slice's columns. -/
lemma cell_iff {z : ℕ} (ha : a + n ≤ w) (hx : x < w) :
    z * w + a ≤ y * w + x ∧ y * w + x < z * w + a + n ↔ y = z ∧ a ≤ x ∧ x < a + n := by
  rcases Nat.lt_trichotomy y z with h | rfl | h
  · have hrow : (y + 1) * w ≤ z * w := Nat.mul_le_mul_right w h
    rw [Nat.add_mul] at hrow
    omega
  · omega
  · have hrow : (z + 1) * w ≤ y * w := Nat.mul_le_mul_right w h
    rw [Nat.add_mul] at hrow
    omega

lemma paints_store (hub : Hub75) (v : ℕ → Word) (z : ℕ) (ha : a + n ≤ w) : Paints w
    (fun y x => if y = z ∧ a ≤ x ∧ x < a + n then some (v (x - a)) else none) hub
    (hub.store (z * w + a) ((List.range n).map v)) := by
  refine ⟨⟨_, _, rfl⟩, fun y x hx => ?_⟩
  rw [Hub75.store]
  simp only [List.length_map, List.length_range, cell_iff ha hx]
  split
  · next h =>
    obtain ⟨rfl, hax, hlt⟩ := h
    rw [show y * w + x - (y * w + a) = x - a by omega, List.getD_eq_getElem?_getD, List.getElem?_map,
      List.getElem?_range (by omega)]
    rfl
  · rfl

/-- Row after row, each with its slice out of the half on the glass. -/
lemma paints_rows {v : (ℕ → Word) → ℕ → ℕ → Word} {step : Hub75 → ℕ → Hub75}
    (hstep : ∀ hub z, Paints w (fun y x => if y = z ∧ a ≤ x ∧ x < a + n then
      some (v hub.displayBuffer y x) else none) hub (step hub z)) (ys : List ℕ) (hub : Hub75) :
    Paints w (fun y x => if y ∈ ys ∧ a ≤ x ∧ x < a + n then some (v hub.displayBuffer y x) else none) hub
      (ys.foldl step hub) := by
  induction ys generalizing hub with
  | nil => exact Paints.refl.congr fun y x _ => by simp
  | cons z ys ih =>
    have hrest := ih (step hub z)
    rw [(hstep hub z).displayBuffer] at hrest
    refine ((hstep hub z).trans hrest).congr fun y x _ => ?_
    simp only [List.mem_cons]
    by_cases hcol : a ≤ x ∧ x < a + n
    · simp only [hcol, and_true]
      by_cases hys : y ∈ ys <;> simp [hys]
    · simp only [hcol, and_false, if_false, Option.or_none]

lemma mem_rowsOf {h y0 y1 : ℕ} : y ∈ Program.rowsOf h y0 y1 ↔ y < h ∧ y0 ≤ y ∧ y < y1 := by
  rw [Program.rowsOf, List.mem_range'_1]
  omega

lemma paints_drawRows {ys : List ℕ} {x0 len : ℕ} (hlen : x0 + len ≤ ctx.w)
    (hfit : ∀ y ∈ ys, y * ctx.w + ctx.w ≤ hub.limit) : Paints ctx.w
      (fun y x => if y ∈ ys ∧ x0 ≤ x ∧ x < x0 + len then some (p.pixel ctx x y) else none) hub
      (p.drawRows ctx hub ys x0 len) := by
  have hall : (ys.takeWhile fun y => decide (y * ctx.w + x0 + len ≤ hub.limit)) = ys := by
    refine List.takeWhile_eq_self_iff.mpr fun y hy => ?_
    have hrow := hfit y hy
    rw [decide_eq_true_iff]
    omega
  rw [Program.drawRows, hall]
  refine paints_rows (v := fun _ y x => p.pixel ctx x y) (fun hub z => ?_) ys hub
  refine (paints_store hub (fun i => p.pixel ctx (x0 + i) z) z hlen).congr fun y x _ => ?_
  split
  · next h =>
    obtain ⟨rfl, hx0, -⟩ := h
    rw [Nat.add_sub_cancel' hx0]
  · rfl

/-- What a band puts at a pixel: what has moved there, or what its program has there. -/
def Program.scrolled (p : Program) (ctx : FrameCtx) (b : ScrollBand) (glass : ℕ → Word) (x y : ℕ) : Word :=
  if b.right then if x < b.speed then p.pixel ctx x y else glass (y * ctx.w + (x - b.speed))
  else if x + b.speed < ctx.w then glass (y * ctx.w + (x + b.speed)) else p.pixel ctx x y

lemma paints_shiftRow {b : ScrollBand} (hspeed : b.speed < w) (hub : Hub75) (z : ℕ) : Paints w
    (fun y x => if y = z ∧ (if b.right then b.speed else 0) ≤ x ∧
        x < (if b.right then b.speed else 0) + (w - b.speed) then
      some (hub.displayBuffer (y * w + if b.right then x - b.speed else x + b.speed)) else none) hub
    (Program.shiftRow w b hub z) := by
  rw [Program.shiftRow]
  cases b.right with
  | true =>
    simp only [if_true]
    have hroom : b.speed + (w - b.speed) ≤ w := by omega
    refine (paints_store hub (fun x => hub.displayBuffer (z * w + x)) z hroom).congr fun y x _ => ?_
    split
    · next h => rw [h.1]
    · rfl
  | false =>
    simp only [Bool.false_eq_true, if_false]
    have hroom : 0 + (w - b.speed) ≤ w := by omega
    refine (paints_store hub (fun x => hub.displayBuffer (z * w + x + b.speed)) z hroom).congr fun y x _ => ?_
    split
    · next h => rw [h.1, Nat.sub_zero, Nat.add_assoc]
    · rfl

/-- A band that moves, but not all the way. -/
def ScrollBand.Moves (b : ScrollBand) (w : ℕ) : Prop := 0 < b.speed ∧ b.speed < w

lemma paints_scrollBand {b : ScrollBand} (hb : b.Moves ctx.w) (hroom : ctx.h * ctx.w ≤ hub.limit) :
    Paints ctx.w (fun y x => if y < ctx.h ∧ b.has y then some (p.scrolled ctx b hub.displayBuffer x y)
      else none) hub (p.scrollBand ctx hub b) := by
  obtain ⟨hpos, hlt⟩ := hb
  have hfit (y : ℕ) (hy : y ∈ Program.rowsOf ctx.h b.y0 b.y1) : y * ctx.w + ctx.w ≤ hub.limit := by
    have hrow : (y + 1) * ctx.w ≤ ctx.h * ctx.w := Nat.mul_le_mul_right _ (mem_rowsOf.mp hy).1
    rw [Nat.add_mul, Nat.one_mul] at hrow
    omega
  rw [Program.scrollBand, if_neg (by omega)]
  dsimp only
  rw [List.takeWhile_eq_self_iff.mpr fun y hy => decide_eq_true (hfit y hy)]
  have hmoved := paints_rows (w := ctx.w)
    (v := fun glass y x => glass (y * ctx.w + if b.right then x - b.speed else x + b.speed))
    (paints_shiftRow hlt) (Program.rowsOf ctx.h b.y0 b.y1) hub
  refine (hmoved.trans (paints_drawRows ?_ ?_)).congr fun y x hx => ?_
  · split <;> omega
  · intro y hy
    rw [hmoved.limit]
    exact hfit y hy
  · have hrows : y ∈ Program.rowsOf ctx.h b.y0 b.y1 ↔ y < ctx.h ∧ b.has y = true := by
      rw [mem_rowsOf, ScrollBand.has, Bool.and_eq_true, decide_eq_true_iff, decide_eq_true_iff]
    simp only [hrows, Program.scrolled]
    by_cases hy : y < ctx.h ∧ b.has y = true
    · simp only [hy, true_and]
      cases b.right with
      | true =>
        by_cases hx' : x < b.speed
        · simp [hx']
        · simp [hx', show b.speed ≤ x by omega, show x < b.speed + (ctx.w - b.speed) by omega]
      | false =>
        by_cases hx' : x + b.speed < ctx.w
        · simp [hx', show ¬ ctx.w - b.speed ≤ x by omega, show x < ctx.w - b.speed by omega]
        · simp [hx', show ctx.w - b.speed ≤ x by omega, show x < ctx.w - b.speed + b.speed by omega]
    · simp only [hy, false_and, if_false, Option.or_none]

/-- The band that a row is left to: of those it is in, the last. -/
def Program.bandAt (p : Program) (y : ℕ) : Option ScrollBand := p.scroll.reverse.find? fun b => b.has y

lemma paints_bands {bands : List ScrollBand} (hbands : ∀ b ∈ bands, b.Moves ctx.w)
    (hroom : ctx.h * ctx.w ≤ hub.limit) : Paints ctx.w
      (fun y x => if y < ctx.h then (bands.reverse.find? fun b => b.has y).map fun b =>
        p.scrolled ctx b hub.displayBuffer x y else none) hub
      (bands.foldl (p.scrollBand ctx) hub) := by
  induction bands using List.reverseRecOn with
  | nil => exact Paints.refl.congr fun y x _ => by simp
  | append_singleton bands b ih =>
    have hrest := ih fun b' hb' => hbands b' (List.mem_append_left _ hb')
    have hlast := paints_scrollBand (p := p) (hbands b (by simp)) (by rwa [hrest.limit])
    rw [hrest.displayBuffer] at hlast
    rw [List.foldl_append]
    refine (hrest.trans hlast).congr fun y x _ => ?_
    rw [List.reverse_append, List.reverse_singleton, List.singleton_append, List.find?_cons]
    by_cases hy : y < ctx.h
    · simp only [hy, true_and, if_true]
      cases b.has y <;> simp
    · simp [hy]

/-- At least a slice of what is owed is paid off, and exactly that is drawn. -/
lemma repaint_spec (skip : ℕ → Bool) (budget pos left : ℕ) (hub : Hub75) (howed : pos + left = ctx.h)
    (hroom : ctx.h * ctx.w ≤ hub.limit) : ∃ pos' left' hub',
      p.repaint ctx skip budget pos left hub = (pos', left', hub') ∧ pos ≤ pos' ∧ pos' + left' = ctx.h ∧
      min ctx.h (pos + budget) ≤ pos' ∧ Paints ctx.w (fun y x =>
        if (pos ≤ y ∧ y < pos') ∧ skip y = false then some (p.pixel ctx x y) else none) hub hub' := by
  fun_induction Program.repaint p ctx skip budget pos left hub with
  | case1 budget pos hub =>
    exact ⟨pos, 0, hub, rfl, le_rfl, howed, by omega, Paints.refl.congr fun y x _ =>
      (if_neg (by omega)).symm⟩
  | case2 pos left hub =>
    exact ⟨pos, left + 1, hub, rfl, le_rfl, howed, by omega, Paints.refl.congr fun y x _ =>
      (if_neg (by omega)).symm⟩
  | case3 budget pos left hub hskip ih =>
    obtain ⟨pos', left', hub', hrest, hle, howed', hpaid, hpaints⟩ := ih (by omega) hroom
    refine ⟨pos', left', hub', hrest, by omega, howed', by omega, hpaints.congr fun y x _ => ?_⟩
    have hskipped : skip pos = true := by simpa [show ¬ ctx.h ≤ pos by omega] using hskip
    by_cases hy : y = pos
    · subst hy
      simp [hskipped]
    · simp only [show pos + 1 ≤ y ↔ pos ≤ y by omega]
  | case4 budget pos left hub hskip hfull =>
    have hrow : (pos + 1) * ctx.w ≤ ctx.h * ctx.w := Nat.mul_le_mul_right _ (by omega)
    rw [Nat.add_mul, Nat.one_mul] at hrow
    omega
  | case5 budget pos left hub hskip hfull ih =>
    have hstore := paints_store hub (fun i => p.pixel ctx (0 + i) pos) pos (Nat.zero_add ctx.w).le
    obtain ⟨pos', left', hub', hrest, hle, howed', hpaid, hpaints⟩ := ih (by omega) hroom
    refine ⟨pos', left', hub', hrest, by omega, howed', by omega,
      (hstore.trans hpaints).congr fun y x hx => ?_⟩
    by_cases hy : y = pos
    · subst hy
      have hdrawn : skip y = false := by
        simpa [show ¬ ctx.h ≤ y by omega] using hskip
      simp [hx, hdrawn, show y < pos' by omega]
    · simp only [show pos + 1 ≤ y ↔ pos ≤ y by omega, hy, false_and, if_false, Option.or_none]

end Painting

section Drawing

variable {p : Program} {ctx : FrameCtx} {s s' : ProgramRunner} {hub : Hub75} {y : ℕ}

/-- The half that is drawn into, as the driver has it. -/
def ProgramRunner.back (s : ProgramRunner) : Fin 2 := if s.hub.activeBuf = 1 then 0 else 1

/-- The gateware's register tells the half that the driver has put on the glass. -/
def Truthful (s : ProgramRunner) (regs : Registers) : Prop :=
  ∀ n, (regs.fbBaseNow n).toNat =
    if s.hub.activeBuf = 1 then FB_BASE_WORDS + FB_HALF_WORDS else FB_BASE_WORDS

lemma inScroll_iff : s.inScroll p y = true ↔ s.scrolling p = true ∧ ∃ b, p.bandAt y = some b := by
  rw [ProgramRunner.inScroll, Bool.and_eq_true, ← Option.isSome_iff_exists, Program.bandAt,
    List.find?_isSome]
  simp

lemma paints_drawBands (hbands : ∀ b ∈ p.scroll, b.Moves ctx.w) (hroom : ctx.h * ctx.w ≤ s.hub.limit) :
    Paints ctx.w (fun y x => if y < ctx.h then
      if s.inScroll p y then (p.bandAt y).map fun b => p.scrolled ctx b s.hub.displayBuffer x y
      else if s.inBand p ctx.h y then some (p.pixel ctx x y) else none
      else none) s.hub (s.drawBands p ctx) := by
  have hscroll : Paints ctx.w (fun y x => if y < ctx.h ∧ s.scrolling p = true then
      (p.bandAt y).map fun b => p.scrolled ctx b s.hub.displayBuffer x y else none) s.hub
      (if s.scrolling p then p.scroll.foldl (p.scrollBand ctx) s.hub else s.hub) := by
    cases hs : s.scrolling p with
    | false => exact Paints.refl.congr fun y x _ => (if_neg (by simp)).symm
    | true => exact (paints_bands hbands hroom).congr fun y x _ => by simp [Program.bandAt]
  have hfit (y : ℕ) (hy : y < ctx.h) : y * ctx.w + ctx.w ≤ s.hub.limit := by
    have hrow : (y + 1) * ctx.w ≤ ctx.h * ctx.w := Nat.mul_le_mul_right _ hy
    rw [Nat.add_mul, Nat.one_mul] at hrow
    omega
  refine (hscroll.trans (paints_drawRows (by rw [Nat.zero_add]) ?_)).congr fun y x hx => ?_
  · intro y hy
    rw [hscroll.limit]
    exact hfit y (mem_rowsOf.mp (List.mem_filter.mp hy).1).1
  · have hmem : y ∈ (Program.rowsOf ctx.h (s.band p ctx.h).1 (s.band p ctx.h).2).filter
        (fun y => !s.inScroll p y) ↔ y < ctx.h ∧ s.inBand p ctx.h y = true ∧ s.inScroll p y = false := by
      rw [List.mem_filter, mem_rowsOf, ProgramRunner.inBand]
      simp [and_assoc]
    simp only [hmem, Nat.zero_le, Nat.zero_add, hx, and_true]
    by_cases hy : y < ctx.h
    · simp only [hy, true_and, if_true]
      cases hin : s.inScroll p y with
      | true =>
        obtain ⟨hs, b, hb⟩ := inScroll_iff.mp hin
        simp [hs]
      | false =>
        have hnone : (if s.scrolling p = true then (p.bandAt y).map fun b =>
            p.scrolled ctx b s.hub.displayBuffer x y else none) = none := by
          by_cases hs : s.scrolling p = true
          · have hb : p.bandAt y = none := by
              rw [← Option.not_isSome_iff_eq_none, Option.isSome_iff_exists]
              exact fun h => absurd (inScroll_iff.mpr ⟨hs, h⟩) (by simp [hin])
            simp [hb]
          · exact if_neg hs
        rw [hnone]
        simp
    · simp [hy]

/-- What a frame does. -/
structure Drawn (p : Program) (ctx : FrameCtx) (s s' : ProgramRunner) : Prop where
  values : s'.values = s.values
  seen : s'.seenWrites = s.seenWrites
  frame : s'.frame = s.frame + 1
  full : s'.fullLeft = s.fullLeft - 1
  prime : s'.primeLeft = s.primeLeft - 1
  shown : s'.shownCtx = ctx
  was : s'.spareCtx = s.shownCtx
  width : s'.hub.ctrlWidth = s.hub.ctrlWidth
  length : s'.hub.length = s.hub.length
  active : s'.hub.activeBuf = 1 - s.hub.activeBuf
  spare : s'.hub.hub75Data = s.hub.displayBuffer
  other : ∀ i ≠ s.back, s'.repaintPos i = s.repaintPos i ∧ s'.repaintLeft i = s.repaintLeft i
  free : s.repaintLeft s.back = 0 → s'.repaintPos s.back = s.repaintPos s.back ∧ s'.repaintLeft s.back = 0
  owed : s.repaintPos s.back + s.repaintLeft s.back = ctx.h →
    s'.repaintPos s.back + s'.repaintLeft s.back = ctx.h ∧
      min ctx.h (s.repaintPos s.back + REPAINT_SLICE) ≤ s'.repaintPos s.back
  moved : ∀ y < ctx.h, ∀ b, s.scrolling p = true → p.bandAt y = some b → ∀ x < ctx.w,
    s'.hub.displayBuffer (y * ctx.w + x) = p.scrolled ctx b s.hub.displayBuffer x y
  drawn : ∀ y < ctx.h, s.inScroll p y = false →
    s.inBand p ctx.h y = true ∨ s.repaintPos s.back ≤ y ∧ y < s'.repaintPos s.back → ∀ x < ctx.w,
      s'.hub.displayBuffer (y * ctx.w + x) = p.pixel ctx x y
  kept : ∀ y < ctx.h, s.inScroll p y = false → s.inBand p ctx.h y = false →
    ¬ (s.repaintPos s.back ≤ y ∧ y < s'.repaintPos s.back) → ∀ x < ctx.w,
      s'.hub.displayBuffer (y * ctx.w + x) = s.hub.hub75Data (y * ctx.w + x)

/-- A half has no debts, or those of this image. -/
def Owes (h : ℕ) (s : ProgramRunner) : Prop :=
  ∀ i, s.repaintLeft i = 0 ∨ s.repaintPos i + s.repaintLeft i = h

lemma payOff_spec (howes : Owes ctx.h s)
    (hbase : ∀ n, (hub.regs.fbBaseNow n).toNat =
      if s.hub.activeBuf = 1 then FB_BASE_WORDS + FB_HALF_WORDS else FB_BASE_WORDS)
    (hroom : ctx.h * ctx.w ≤ hub.limit) : ∃ pos' left' reads hub',
      s.payOff p ctx hub = { s with
        hub := hub'
        repaintPos := Function.update s.repaintPos s.back pos'
        repaintLeft := Function.update s.repaintLeft s.back left' } ∧
      (s.repaintLeft s.back = 0 → pos' = s.repaintPos s.back ∧ left' = 0) ∧
      (s.repaintPos s.back + s.repaintLeft s.back = ctx.h → pos' + left' = ctx.h ∧
        min ctx.h (s.repaintPos s.back + REPAINT_SLICE) ≤ pos') ∧
      Paints ctx.w (fun y x => if (s.repaintPos s.back ≤ y ∧ y < pos') ∧
          (s.inScroll p y || s.inBand p ctx.h y) = false then some (p.pixel ctx x y) else none)
        { hub with fbReads := reads } hub' := by
  have hfree (reads : ℕ) : Paints ctx.w (fun y x =>
      if (s.repaintPos s.back ≤ y ∧ y < s.repaintPos s.back) ∧
        (s.inScroll p y || s.inBand p ctx.h y) = false then some (p.pixel ctx x y) else none)
      { hub with fbReads := reads } { hub with fbReads := reads } :=
    Paints.refl.congr fun y x _ => (if_neg (by omega)).symm
  rw [ProgramRunner.payOff]
  split
  · have hback : (backIndex hub).1 = s.back := by
      simp only [backIndex, Hub75.fbBaseNow, hbase, ProgramRunner.back]
      split
      · exact if_neg (by decide)
      · exact if_pos rfl
    rcases howes s.back with hzero | howed
    · refine ⟨s.repaintPos s.back, 0, _, (backIndex hub).2, ?_, fun _ => ⟨rfl, rfl⟩, ?_, hfree _⟩
      · simp only [hback, hzero, Program.repaint]
      · intro howed
        omega
    · obtain ⟨pos', left', hub', heq, hgrows, howed', hpaid, hpaints⟩ := repaint_spec (p := p)
        (fun y => s.inScroll p y || s.inBand p ctx.h y) REPAINT_SLICE (s.repaintPos s.back)
        (s.repaintLeft s.back) (backIndex hub).2 howed hroom
      refine ⟨pos', left', _, hub', ?_, fun hzero => ?_, fun _ => ⟨howed', hpaid⟩, hpaints⟩
      · simp only [hback, heq]
      · omega
  · next hnone =>
    have hleft : s.repaintLeft s.back = 0 := by
      simp only [ProgramRunner.repainting, Bool.or_eq_true, decide_eq_true_iff, not_or, not_lt] at hnone
      rcases Fin.exists_fin_two.mp ⟨s.back, rfl⟩ with h | h <;> rw [h] <;> omega
    refine ⟨s.repaintPos s.back, s.repaintLeft s.back, hub.fbReads, hub, ?_, fun h => ⟨rfl, h⟩, ?_,
      hfree hub.fbReads⟩
    · rw [Function.update_eq_self, Function.update_eq_self]
    · intro howed
      omega

/-- The spec of `draw`. -/
lemma draw_drawn (howes : Owes ctx.h s)
    (htrue : Truthful s s.hub.regs) (hbands : ∀ b ∈ p.scroll, b.Moves ctx.w)
    (hroom : ctx.h * ctx.w ≤ s.hub.limit) : Drawn p ctx s (s.draw p ctx) := by
  have hbandsDrawn := paints_drawBands (s := s) hbands hroom
  have hregs : (s.drawBands p ctx).regs = s.hub.regs := by
    obtain ⟨data, drawn, h⟩ := hbandsDrawn.same
    rw [h]
  obtain ⟨pos', left', reads, hub', heq, hfree, howed, hpaints⟩ := payOff_spec (p := p) howes
    (by rw [hregs]; exact htrue) (by rwa [hbandsDrawn.limit])
  have hdraw : s.draw p ctx = { s with
      hub := (hub'.setMode true).swapBuffers
      repaintPos := Function.update s.repaintPos s.back pos'
      repaintLeft := Function.update s.repaintLeft s.back left'
      frame := s.frame + 1
      fullLeft := s.fullLeft - 1
      primeLeft := s.primeLeft - 1
      shownCtx := ctx
      spareCtx := s.shownCtx } := by
    rw [ProgramRunner.draw, heq]
  have hsame : hub'.displayBuffer = s.hub.displayBuffer ∧ hub'.ctrlWidth = s.hub.ctrlWidth ∧
      hub'.length = s.hub.length ∧ hub'.activeBuf = s.hub.activeBuf := by
    obtain ⟨data, drawn, h⟩ := hbandsDrawn.same
    obtain ⟨data', drawn', h'⟩ := hpaints.same
    rw [h', h]
    exact ⟨rfl, rfl, rfl, rfl⟩
  -- the cells of the half that is put on the glass
  have hcell (y x : ℕ) (hy : y < ctx.h) (hx : x < ctx.w) : hub'.hub75Data (y * ctx.w + x) =
      if (s.repaintPos s.back ≤ y ∧ y < pos') ∧ (s.inScroll p y || s.inBand p ctx.h y) = false then
        p.pixel ctx x y
      else if s.inScroll p y then ((p.bandAt y).map fun b =>
        p.scrolled ctx b s.hub.displayBuffer x y).getD (s.hub.hub75Data (y * ctx.w + x))
      else if s.inBand p ctx.h y then p.pixel ctx x y
      else s.hub.hub75Data (y * ctx.w + x) := by
    rw [hpaints.cell y x hx]
    have hbelow := hbandsDrawn.cell y x hx
    rw [if_pos hy] at hbelow
    change (_ : Option Word).getD ((s.drawBands p ctx).hub75Data (y * ctx.w + x)) = _
    rw [hbelow]
    split
    · rfl
    · rw [Option.getD_none]
      split
      · rfl
      · split <;> rfl
  rw [hdraw]
  constructor
  case free => simpa using hfree
  case owed => simpa using howed
  case other => exact fun i hi => ⟨Function.update_of_ne hi _ _, Function.update_of_ne hi _ _⟩
  case active => exact congrArg (1 - ·) hsame.2.2.2
  case spare => exact hsame.1
  case width => exact hsame.2.1
  case length => exact hsame.2.2.1
  case moved =>
    intro y hy b hs hb x hx
    have hin : s.inScroll p y = true := inScroll_iff.mpr ⟨hs, b, hb⟩
    refine (hcell y x hy hx).trans ?_
    rw [hin, hb, Bool.true_or, if_neg (by simp), if_pos rfl]
    rfl
  case drawn =>
    intro y hy hin hor x hx
    refine (hcell y x hy hx).trans ?_
    simp only [Function.update_self] at hor
    cases hband : s.inBand p ctx.h y with
    | true => simp [hin]
    | false =>
      have hpos : s.repaintPos s.back ≤ y ∧ y < pos' := by simpa [hband] using hor
      simp [hin, hpos]
  case kept =>
    intro y hy hin hband hnot x hx
    refine (hcell y x hy hx).trans ?_
    simp only [Function.update_self] at hnot
    simp [hin, hband, hnot]
  all_goals rfl

end Drawing

section Palettes

variable {hub hub' hub'' : Hub75}

/-- Only the palette, and how often the register of the half has been read. -/
def Recoloured (hub hub' : Hub75) : Prop := ∃ shadow gen bankGen ram reads,
  hub' = { hub with
    paletteShadow := shadow, paletteGen := gen, bankGen := bankGen, paletteRam := ram, fbReads := reads }

lemma Recoloured.refl (hub : Hub75) : Recoloured hub hub := ⟨_, _, _, _, _, rfl⟩

lemma Recoloured.trans (h : Recoloured hub hub') (h' : Recoloured hub' hub'') : Recoloured hub hub'' := by
  obtain ⟨shadow, gen, bankGen, ram, reads, rfl⟩ := h
  obtain ⟨shadow', gen', bankGen', ram', reads', rfl⟩ := h'
  exact ⟨_, _, _, _, _, rfl⟩

lemma recoloured_stash (hub : Hub75) (f : ℕ → Word) : ∃ n hub',
    hub.stash 0 ((List.range 256).map f) = .ok (n, hub') ∧ Recoloured hub hub' := by
  rw [Hub75.stash, checkSlice, if_pos (by simp)]
  refine ⟨_, _, rfl, ?_⟩
  split <;> exact ⟨_, _, _, _, _, rfl⟩

lemma recoloured_writeBank (hub : Hub75) (bank n : ℕ) :
    ∃ hub', hub.writeBank bank 0 n = .ok hub' ∧ Recoloured hub hub' := by
  rw [Hub75.writeBank, checkSlice, if_pos (by omega)]
  change ∃ hub', hub.setPaletteBank bank 0 _ = .ok hub' ∧ _
  rw [Hub75.setPaletteBank]
  dsimp only
  split
  · exact ⟨hub, rfl, .refl hub⟩
  · rw [checkSlice, if_pos]
    · exact ⟨_, rfl, _, _, _, _, _, rfl⟩
    · have htake := List.length_take_le (256 * hub.paletteBanks - (bank * 256 + 0))
        ((List.range' 0 (min (0 + n) 256 - 0)).map hub.paletteShadow)
      omega

lemma recoloured_setPalette (hub : Hub75) (f : ℕ → Word) : ∃ hub',
    hub.setPalette 0 ((List.range 256).map f) = .ok hub' ∧ Recoloured hub hub' := by
  obtain ⟨n, k, hstash, hk⟩ := recoloured_stash hub f
  rw [Hub75.setPalette, hstash]
  have hback : Recoloured k k.backPaletteBank.2 := by
    rw [Hub75.backPaletteBank]
    split
    · exact .refl k
    · exact ⟨_, _, _, _, _, rfl⟩
  obtain ⟨k', hwrite, hk'⟩ := recoloured_writeBank k.backPaletteBank.2 k.backPaletteBank.1 n
  change ∃ hub', (if n = 0 then pure k else _ : Except Panic Hub75) = .ok hub' ∧ _
  split
  · exact ⟨k, rfl, hk⟩
  · change ∃ hub', (do
      let h ← k.backPaletteBank.2.writeBank k.backPaletteBank.1 0 n
      return { h with bankGen := fun b => if b = k.backPaletteBank.1 % 2 then h.paletteGen else h.bankGen b }) =
        (.ok hub' : Except Panic Hub75) ∧ _
    rw [hwrite]
    exact ⟨_, rfl, ((hk.trans hback).trans hk').trans ⟨_, _, _, _, _, rfl⟩⟩

lemma recoloured_setPaletteAll (hub : Hub75) (f : ℕ → Word) : ∃ hub',
    hub.setPaletteAll 0 f = .ok hub' ∧ Recoloured hub hub' := by
  have hbanks (n : ℕ) (banks : List ℕ) (k : Hub75) (hk : Recoloured hub k) :
      ∃ hub', banks.foldlM (fun h bank => do
        let h ← h.writeBank bank 0 n
        return { h with bankGen := fun b => if b = bank % 2 then h.paletteGen else h.bankGen b }) k
          = (.ok hub' : Except Panic Hub75) ∧ Recoloured hub hub' := by
    induction banks generalizing k with
    | nil => exact ⟨k, rfl, hk⟩
    | cons bank banks ih =>
      obtain ⟨k', hk', hs⟩ := recoloured_writeBank k bank n
      rw [List.foldlM_cons, hk']
      exact ih _ ((hk.trans hs).trans ⟨_, _, _, _, _, rfl⟩)
  obtain ⟨n, k, hstash, hs⟩ := recoloured_stash hub f
  rw [Hub75.setPaletteAll, hstash]
  exact hbanks n _ k hs

end Palettes

section Ticks

variable {p : Program} {s s' : ProgramRunner} {i : TickInputs} {w h : ℕ}

/-- An image of `w` columns and `h` rows, within a half. -/
structure Sized (w h : ℕ) (hub : Hub75) : Prop where
  width : hub.ctrlWidth = w
  rows : hub.length / w = h
  pos : 0 < w ∧ 0 < h
  half : hub.length ≤ FB_HALF_WORDS

lemma Sized.congr {hub hub' : Hub75} (hs : Sized w h hub) (hwidth : hub'.ctrlWidth = hub.ctrlWidth)
    (hlength : hub'.length = hub.length) : Sized w h hub' :=
  ⟨hwidth.trans hs.width, by rw [hlength]; exact hs.rows, hs.pos, hlength.trans_le hs.half⟩

lemma Sized.room (hs : Sized w h s.hub) : h * w ≤ s.hub.limit := by
  have hdiv := Nat.div_mul_le_self s.hub.length w
  rw [hs.rows] at hdiv
  rw [Hub75.limit, Nat.min_eq_left hs.half]
  exact hdiv

/-- What a tick draws a frame with. -/
def ProgramRunner.ctx (s : ProgramRunner) (w h : ℕ) (timeMs : ℤ) : FrameCtx := ⟨w, h, s.frame, timeMs, s.values⟩

/-- The state in which a tick draws: with its registers, its palette, and the debts of what has landed. -/
structure Prepared (h : ℕ) (i : TickInputs) (s s' : ProgramRunner) : Prop where
  data : s'.hub.hub75Data = s.hub.hub75Data
  display : s'.hub.displayBuffer = s.hub.displayBuffer
  width : s'.hub.ctrlWidth = s.hub.ctrlWidth
  length : s'.hub.length = s.hub.length
  active : s'.hub.activeBuf = s.hub.activeBuf
  regs : s'.hub.regs = i.regs
  values : s'.values = s.values
  frame : s'.frame = s.frame
  full : s'.fullLeft = s.fullLeft
  prime : s'.primeLeft = s.primeLeft
  shown : s'.shownCtx = s.shownCtx
  was : s'.spareCtx = s.spareCtx
  seen : s'.seenWrites = s.values.writes
  debt : if s.values.writes ≠ s.seenWrites then s'.repaintPos = (fun _ => 0) ∧ s'.repaintLeft = (fun _ => h)
    else s'.repaintPos = s.repaintPos ∧ s'.repaintLeft = s.repaintLeft

lemma Prepared.sized (hq : Prepared h i s s') (hs : Sized w h s.hub) : Sized w h s'.hub :=
  hs.congr hq.width hq.length

lemma writePalette_ok (s : ProgramRunner) (p : Program) (ctx : FrameCtx) : ∃ hub dirty,
    s.writePalette p ctx = .ok { s with hub := hub, paletteDirty := dirty } ∧ Recoloured s.hub hub := by
  rw [ProgramRunner.writePalette]
  cases p.palette with
  | none => exact ⟨s.hub, s.paletteDirty, rfl, .refl _⟩
  | some pf =>
    dsimp only
    split
    · obtain ⟨hub, hok, hub'⟩ := recoloured_setPalette s.hub (pf ctx)
      rw [hok]
      exact ⟨hub, s.paletteDirty, rfl, hub'⟩
    · split
      · obtain ⟨hub, hok, hub'⟩ := recoloured_setPaletteAll s.hub (pf ctx)
        rw [hok]
        exact ⟨hub, false, rfl, hub'⟩
      · exact ⟨s.hub, s.paletteDirty, rfl, .refl _⟩

lemma tick_early (h : i.timeMs < s.nextMs) : s.tick p i = .ok s := if_pos h

/-- A tick that is due goes through. -/
lemma tick_due (hs : Sized w h s.hub) (hdue : s.nextMs ≤ i.timeMs) : ∃ s', Prepared h i s s' ∧
    s.tick p i = .ok (if s'.fullLeft = 0 ∧ s'.animated p = false then s'
      else s'.draw p (s.ctx w h i.timeMs)) := by
  have hlen : s.hub.length ≠ 0 := by
    intro h0
    have hrows := hs.rows
    rw [h0, Nat.zero_div] at hrows
    exact absurd hs.pos.2 (by omega)
  obtain ⟨k, hk, hswap⟩ : ∃ k : ProgramRunner, k = { s with
      nextMs := i.timeMs + PROGRAM_PERIOD_MS, hub := { s.hub with regs := i.regs } } ∧
      ∃ on csr, (if k.hub.autoSwap then { k with hub := k.hub.setAutoSwap false } else k) =
        { k with hub := { k.hub with autoSwap := on, autoSwapCsr := csr } } := by
    refine ⟨_, rfl, ?_⟩
    split <;> exact ⟨_, _, rfl⟩
  obtain ⟨on, csr, hswap⟩ := hswap
  obtain ⟨hub, dirty, hpalette, shadow, gen, bankGen, ram, reads, hhub⟩ := writePalette_ok
    { k with hub := { k.hub with autoSwap := on, autoSwapCsr := csr } } p (s.ctx w h i.timeMs)
  refine ⟨ProgramRunner.armed { k with hub := hub, paletteDirty := dirty } h, ?_, ?_⟩
  · rw [ProgramRunner.armed, hhub, hk]
    dsimp only
    by_cases hw : s.values.writes = s.seenWrites
    · rw [if_neg (not_not.mpr hw)]
      constructor
      case debt =>
        rw [if_neg (not_not.mpr hw)]
        exact ⟨rfl, rfl⟩
      case seen => exact hw.symm
      all_goals rfl
    · rw [if_pos hw]
      constructor
      case debt =>
        rw [if_pos hw]
        exact ⟨rfl, rfl⟩
      all_goals rfl
  · have htick : s.tick p i = (do
        let s ← ({ k with hub := { k.hub with autoSwap := on, autoSwapCsr := csr } } :
          ProgramRunner).writePalette p (s.ctx w h i.timeMs)
        let s := s.armed h
        if s.fullLeft = 0 ∧ s.animated p = false then return s
        return s.draw p (ProgramRunner.ctx k w h i.timeMs)) := by
      have hnot : ¬ (s.hub.ctrlWidth = 0 ∨ s.hub.length = 0) := by
        rw [hs.width]
        have hpos := hs.pos
        omega
      rw [← hswap, ProgramRunner.tick, if_neg (not_lt.mpr hdue)]
      dsimp only [Hub75.getImgParam]
      rw [if_neg hnot, hk]
      simp only [hs.width, hs.rows]
      rfl
    rw [htick, hpalette]
    subst hk
    change (if _ then pure _ else pure _ : Except Panic ProgramRunner) = _
    split <;> rfl

end Ticks

end Ledwall.Panels
