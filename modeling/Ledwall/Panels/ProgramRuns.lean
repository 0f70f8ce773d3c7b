import Ledwall.Panels.ProgramTicks

/-! Runs of an on-panel program: what its piecemeal drawing leaves on the glass is what a full redraw
would have left, once the debts of a push are paid off, and at no time anything that the program has not
drawn there. -/

namespace Ledwall.Panels

open Ledwall.Receiver Ledwall.Values

namespace Program

/-- The rows that a program declares to change: those of its dynamic band, or, where it has none and is
animated at all, every row. -/
def Changes (p : Program) (y : ℕ) : Prop :=
  match p.dynamic with
  | some b => b.1 ≤ y ∧ y < b.2
  | none => p.scroll ≠ [] ∨ p.palette.isSome = true ∧ p.paletteStatic = false

/-- What a program declares is so: its bands move as declared, and the rows that are in none of them and
not declared to change are drawn from the values alone. -/
structure Declared (p : Program) (w h : ℕ) : Prop where
  bands : ∀ b ∈ p.scroll, b.Moves w
  moves : ∀ y < h, ∀ b, p.bandAt y = some b → ∀ values frame t t' x, x + b.speed < w →
    p.pixel ⟨w, h, frame + 1, t', values⟩ (if b.right then x + b.speed else x) y =
      p.pixel ⟨w, h, frame, t, values⟩ (if b.right then x else x + b.speed) y
  still : ∀ y < h, p.bandAt y = none → ¬ p.Changes y → ∀ values frame frame' t t', ∀ x < w,
    p.pixel ⟨w, h, frame', t', values⟩ x y = p.pixel ⟨w, h, frame, t, values⟩ x y

end Program

variable {p : Program} {w h k x y : ℕ} {s s' : ProgramRunner} {i : TickInputs} {timeMs : ℤ}
  {vs : List ValueTable} {n : Option ℕ}

section Rows

lemma inBand_of_changes (hy : y < h) (hc : p.Changes y) : s.inBand p h y = true := by
  rw [ProgramRunner.inBand, ProgramRunner.band]
  rw [Program.Changes] at hc
  cases hd : p.dynamic with
  | none => simp [hy]
  | some b =>
    rw [hd] at hc
    split
    · next heq _ =>
      cases heq
      simpa using hc
    · simp [hy]

lemma inBand_of_full (hy : y < h) (hf : s.fullLeft ≠ 0) : s.inBand p h y = true := by
  rw [ProgramRunner.inBand, ProgramRunner.band]
  split
  · next hzero => exact absurd hzero hf
  · simp [hy]

lemma inScroll_of_bandAt (hb : p.bandAt y = none) : s.inScroll p y = false := by
  rw [← Bool.not_eq_true, inScroll_iff]
  rintro ⟨-, b, hb'⟩
  rw [hb] at hb'
  cases hb'

lemma scroll_of_bandAt {b : ScrollBand} (hb : p.bandAt y = some b) : p.scroll ≠ [] := by
  intro hnil
  rw [Program.bandAt, hnil] at hb
  cases hb

/-- A band's row moves, or is drawn with all the others. -/
lemma bandRow {b : ScrollBand} (hd : Drawn p (s.ctx w h timeMs) s s') (hprime : s.primeLeft ≤ s.fullLeft)
    (hy : y < h) (hb : p.bandAt y = some b) (hx : x < w) :
    s'.hub.displayBuffer (y * w + x) = p.scrolled (s.ctx w h timeMs) b s.hub.displayBuffer x y ∧
        s.primeLeft = 0 ∨
      s'.hub.displayBuffer (y * w + x) = p.pixel (s.ctx w h timeMs) x y := by
  by_cases hzero : s.primeLeft = 0
  · refine .inl ⟨hd.moved y hy b ?_ hb x hx, hzero⟩
    simp [ProgramRunner.scrolling, scroll_of_bandAt hb, hzero]
  · refine .inr (hd.drawn y hy ?_ (.inl (inBand_of_full hy (by omega))) x hx)
    simp [ProgramRunner.inScroll, ProgramRunner.scrolling, hzero]

/-- The row of a band that does not change otherwise, and of one that does. -/
lemma otherRow (hd : Drawn p (s.ctx w h timeMs) s s') (hy : y < h) (hb : p.bandAt y = none) :
    (∀ x < w, s'.hub.displayBuffer (y * w + x) = p.pixel (s.ctx w h timeMs) x y) ∨
      s.fullLeft = 0 ∧ ¬ p.Changes y ∧ ¬ (s.repaintPos s.back ≤ y ∧ y < s'.repaintPos s.back) ∧
        ∀ x < w, s'.hub.displayBuffer (y * w + x) = s.hub.hub75Data (y * w + x) := by
  have hin : s.inScroll p y = false := inScroll_of_bandAt hb
  by_cases hor : s.inBand p h y = true ∨ s.repaintPos s.back ≤ y ∧ y < s'.repaintPos s.back
  · exact .inl (hd.drawn y hy hin hor)
  · obtain ⟨hband, hnot⟩ := not_or.mp hor
    refine .inr ⟨?_, fun hc => hband (inBand_of_changes hy hc), hnot,
      hd.kept y hy hin (Bool.eq_false_of_not_eq_true hband) hnot⟩
    by_contra hf
    exact hband (inBand_of_full hy hf)

end Rows

section Halves

lemma back_ne (hactive : s.hub.activeBuf ≤ 1) (hswap : s'.hub.activeBuf = 1 - s.hub.activeBuf) :
    s'.back ≠ s.back ∧ s'.hub.activeBuf ≤ 1 := by
  rw [ProgramRunner.back, ProgramRunner.back, hswap]
  obtain h0 | h1 : s.hub.activeBuf = 0 ∨ s.hub.activeBuf = 1 := by omega
  · simp [h0]
  · simp [h1]

lemma eq_back (hne : s'.back ≠ s.back) {j : Fin 2} (hj : j ≠ s'.back) : j = s.back := by
  omega

end Halves

section Settling

/-- A frame of this image, with these values. -/
def FrameCtx.Of (ctx : FrameCtx) (w h : ℕ) (values : ValueTable) : Prop :=
  ctx.w = w ∧ ctx.h = h ∧ ctx.values = values

lemma FrameCtx.Of.eq {ctx : FrameCtx} {values : ValueTable} (hc : ctx.Of w h values) :
    ctx = ⟨w, h, ctx.frame, ctx.timeMs, values⟩ := by
  obtain ⟨rfl, rfl, rfl⟩ := hc
  rfl

/-- What a band has drawn anew within `k` frames. -/
def ScrollBand.Reached (b : ScrollBand) (w k x : ℕ) : Prop :=
  if b.right then x < k * b.speed else w ≤ x + k * b.speed

/-- `k` ticks after the last push: each half has paid off its slices, and the bands have brought in that
many steps of columns. -/
structure Settling (p : Program) (w h k : ℕ) (s : ProgramRunner) : Prop where
  sized : Sized w h s.hub
  active : s.hub.activeBuf ≤ 1
  prime : s.primeLeft ≤ s.fullLeft
  seen : s.seenWrites = s.values.writes
  frame : 1 ≤ k → s.frame = s.shownCtx.frame + 1
  shown : 1 ≤ k → s.shownCtx.Of w h s.values
  was : 2 ≤ k → s.spareCtx.Of w h s.values
  owed : ∀ j, s.repaintPos j + s.repaintLeft j = h
  whole : ∀ j, k = 0 ∨ k = 1 ∧ j = s.back → s.repaintLeft j = h
  paid : ∀ j, min h (REPAINT_SLICE * (if j = s.back then k / 2 else (k + 1) / 2)) ≤ s.repaintPos j
  stillShown : ∀ y < h, p.bandAt y = none → ¬ p.Changes y → ∀ j ≠ s.back, y < s.repaintPos j → ∀ x < w,
    s.hub.displayBuffer (y * w + x) = p.pixel ⟨w, h, 0, 0, s.values⟩ x y
  stillSpare : ∀ y < h, p.bandAt y = none → ¬ p.Changes y → y < s.repaintPos s.back → ∀ x < w,
    s.hub.hub75Data (y * w + x) = p.pixel ⟨w, h, 0, 0, s.values⟩ x y
  changesShown : 1 ≤ k → ∀ y < h, p.bandAt y = none → p.Changes y → ∀ x < w,
    s.hub.displayBuffer (y * w + x) = p.pixel s.shownCtx x y
  changesSpare : 2 ≤ k → ∀ y < h, p.bandAt y = none → p.Changes y → ∀ x < w,
    s.hub.hub75Data (y * w + x) = p.pixel s.spareCtx x y
  bandShown : ∀ y < h, ∀ b, p.bandAt y = some b → ∀ x < w, b.Reached w k x →
    s.hub.displayBuffer (y * w + x) = p.pixel s.shownCtx x y
  bandSpare : ∀ y < h, ∀ b, p.bandAt y = some b → ∀ x < w, b.Reached w (k - 1) x →
    s.hub.hub75Data (y * w + x) = p.pixel s.spareCtx x y

lemma not_reached_zero {b : ScrollBand} (hx : x < w) : ¬ b.Reached w 0 x := by
  rw [ScrollBand.Reached]
  split <;> omega

/-- A column that a band reaches was reached where it comes from, or has just come in. -/
lemma scrolled_reached {b : ScrollBand} (values : ValueTable) (glass : ℕ → Word) (frame : BitVec 32)
    (t t' : ℤ) (hp : p.Declared w h) (hy : y < h) (hb : p.bandAt y = some b) (hx : x < w)
    (hreached : b.Reached w (k + 1) x)
    (hglass : ∀ x < w, b.Reached w k x → glass (y * w + x) = p.pixel ⟨w, h, frame, t, values⟩ x y) :
    p.scrolled ⟨w, h, frame + 1, t', values⟩ b glass x y = p.pixel ⟨w, h, frame + 1, t', values⟩ x y := by
  have hmoves := hp.moves y hy b hb values frame t t'
  rw [Program.scrolled]
  rw [ScrollBand.Reached, Nat.add_mul, Nat.one_mul] at hreached
  cases hr : b.right with
  | true =>
    simp only [hr, if_true] at hreached hmoves ⊢
    split
    · rfl
    · next hle =>
      have hfrom := hmoves (x - b.speed) (by omega)
      rw [Nat.sub_add_cancel (by omega)] at hfrom
      rw [hfrom]
      refine hglass (x - b.speed) (by omega) ?_
      simp only [ScrollBand.Reached, hr, if_true]
      omega
  | false =>
    simp only [hr, Bool.false_eq_true, if_false] at hreached hmoves ⊢
    split
    · next hlt =>
      rw [hmoves x hlt]
      refine hglass (x + b.speed) hlt ?_
      simp only [ScrollBand.Reached, hr, Bool.false_eq_true, if_false]
      omega
    · rfl

/-- A tick that draws. -/
lemma Settling.draw (hp : p.Declared w h) (hs : Settling p w h k s)
    (hd : Drawn p (s.ctx w h timeMs) s s') : Settling p w h (k + 1) s' := by
  obtain ⟨hne, hactive⟩ := back_ne hs.active hd.active
  have hother := hd.other s'.back hne
  obtain ⟨howed, hpaid⟩ := hd.owed (hs.owed s.back)
  change s'.repaintPos s.back + s'.repaintLeft s.back = h at howed
  change min h (s.repaintPos s.back + REPAINT_SLICE) ≤ s'.repaintPos s.back at hpaid
  constructor
  case sized => exact hs.sized.congr hd.width hd.length
  case active => exact hactive
  case prime =>
    rw [hd.prime, hd.full]
    exact Nat.sub_le_sub_right hs.prime 1
  case seen => rw [hd.seen, hd.values, hs.seen]
  case frame =>
    intro _
    rw [hd.frame, hd.shown]
    rfl
  case shown =>
    intro _
    rw [hd.shown, hd.values]
    exact ⟨rfl, rfl, rfl⟩
  case was =>
    intro hk
    rw [hd.was, hd.values]
    exact hs.shown (by omega)
  case owed =>
    intro j
    by_cases hj : j = s'.back
    · rw [hj, hother.1, hother.2]
      exact hs.owed _
    · rw [eq_back hne hj]
      exact howed
  case whole =>
    rintro j (hk | ⟨hk, rfl⟩)
    · omega
    · rw [hother.2]
      exact hs.whole _ (.inl (by omega))
  case paid =>
    intro j
    by_cases hj : j = s'.back
    · have hfront := hs.paid s'.back
      rw [if_neg hne] at hfront
      rw [hj, if_pos rfl, hother.1]
      exact hfront
    · have hback := hs.paid s.back
      rw [if_pos rfl] at hback
      rw [if_neg hj, eq_back hne hj]
      simp only [REPAINT_SLICE] at hback hpaid ⊢
      omega
  case stillShown =>
    intro y hy hb hstill j hj hpos x hx
    rw [eq_back hne hj] at hpos
    rw [hd.values]
    rcases otherRow hd hy hb with hdrawn | ⟨-, -, hnot, hkept⟩
    · rw [hdrawn x hx]
      exact hp.still y hy hb hstill s.values _ _ _ _ x hx
    · rw [hkept x hx]
      exact hs.stillSpare y hy hb hstill (by omega) x hx
  case stillSpare =>
    intro y hy hb hstill hpos x hx
    rw [hother.1] at hpos
    rw [hd.values, hd.spare]
    exact hs.stillShown y hy hb hstill s'.back hne hpos x hx
  case changesShown =>
    intro _ y hy hb hc x hx
    rw [hd.shown]
    rcases otherRow hd hy hb with hdrawn | ⟨-, hstill, -⟩
    · exact hdrawn x hx
    · exact absurd hc hstill
  case changesSpare =>
    intro hk y hy hb hc x hx
    rw [hd.was, hd.spare]
    exact hs.changesShown (by omega) y hy hb hc x hx
  case bandShown =>
    intro y hy b hb x hx hreached
    rw [hd.shown]
    rcases bandRow hd hs.prime hy hb hx with ⟨hmoved, -⟩ | hdrawn
    · rw [hmoved]
      obtain rfl | hk := Nat.eq_zero_or_pos k
      · -- what has come in so far, the program has drawn
        have hscrolled := scrolled_reached s.values s.hub.displayBuffer (s.frame - 1) 0 timeMs hp hy hb hx
          hreached fun x hx hfrom => absurd hfrom (not_reached_zero hx)
        rwa [BitVec.sub_add_cancel] at hscrolled
      · have hshown := (hs.shown hk).eq
        have hscrolled := scrolled_reached s.values s.hub.displayBuffer s.shownCtx.frame s.shownCtx.timeMs
          timeMs hp hy hb hx hreached fun x hx hfrom => by
            rw [← hshown]
            exact hs.bandShown y hy b hb x hx hfrom
        rwa [← hs.frame hk] at hscrolled
    · exact hdrawn
  case bandSpare =>
    intro y hy b hb x hx hreached
    rw [hd.was, hd.spare]
    exact hs.bandShown y hy b hb x hx hreached

/-- A tick that draws nothing. -/
lemma Settling.idle (hs : Settling p w h k s) (hidle : s.animated p = false) :
    Settling p w h (k + 1) s := by
  obtain ⟨⟨⟨hscroll, -⟩, -⟩, hleft⟩ : ((p.scroll = [] ∧ _) ∧ _) ∧ s.repainting = false := by
    simpa [ProgramRunner.animated] using hidle
  replace hleft (j : Fin 2) : s.repaintLeft j = 0 := by
    simp only [ProgramRunner.repainting, Bool.or_eq_false_iff, decide_eq_false_iff_not, not_lt,
      Nat.le_zero] at hleft
    fin_cases j
    · exact hleft.1
    · exact hleft.2
  have hpos (j : Fin 2) : s.repaintPos j = h := by
    rw [← hs.owed j, hleft j, Nat.add_zero]
  have hk : 2 ≤ k := by
    by_contra hlt
    have hwhole := hs.whole s.back ((by omega : k = 0 ∨ k = 1).imp_right fun hk => ⟨hk, rfl⟩)
    have hrows := hs.sized.pos.2
    rw [hleft] at hwhole
    omega
  constructor
  case sized => exact hs.sized
  case active => exact hs.active
  case prime => exact hs.prime
  case seen => exact hs.seen
  case frame => exact fun _ => hs.frame (by omega)
  case shown => exact fun _ => hs.shown (by omega)
  case was => exact fun _ => hs.was hk
  case owed => exact hs.owed
  case whole =>
    rintro j (hzero | ⟨hone, -⟩) <;> omega
  case paid =>
    intro j
    rw [hpos]
    exact Nat.min_le_left _ _
  case stillShown => exact hs.stillShown
  case stillSpare => exact hs.stillSpare
  case changesShown => exact fun _ => hs.changesShown (by omega)
  case changesSpare => exact fun _ => hs.changesSpare hk
  case bandShown => exact fun y _ b hb => absurd hscroll (scroll_of_bandAt hb)
  case bandSpare => exact fun y _ b hb => absurd hscroll (scroll_of_bandAt hb)

/-- What a tick does before it draws. -/
lemma Settling.prepared (hs : Settling p w h k s) (hq : Prepared h i s s') : Settling p w h k s' := by
  have hback : s'.back = s.back := by rw [ProgramRunner.back, ProgramRunner.back, hq.active]
  obtain ⟨hpos, hleft⟩ : s'.repaintPos = s.repaintPos ∧ s'.repaintLeft = s.repaintLeft := by
    have hdebt := hq.debt
    rwa [if_neg (not_not.mpr hs.seen.symm)] at hdebt
  constructor
  case sized => exact hq.sized hs.sized
  case active => exact hq.active.trans_le hs.active
  case prime => simpa only [hq.prime, hq.full] using hs.prime
  case seen => rw [hq.seen, hq.values]
  case frame => simpa only [hq.frame, hq.shown] using hs.frame
  case shown => simpa only [hq.shown, hq.values] using hs.shown
  case was => simpa only [hq.was, hq.values] using hs.was
  case owed => simpa only [hpos, hleft] using hs.owed
  case whole => simpa only [hback, hleft] using hs.whole
  case paid => simpa only [hback, hpos] using hs.paid
  case stillShown => simpa only [hback, hpos, hq.display, hq.values] using hs.stillShown
  case stillSpare => simpa only [hback, hpos, hq.data, hq.values] using hs.stillSpare
  case changesShown => simpa only [hq.display, hq.shown] using hs.changesShown
  case changesSpare => simpa only [hq.data, hq.was] using hs.changesSpare
  case bandShown => simpa only [hq.display, hq.shown] using hs.bandShown
  case bandSpare => simpa only [hq.data, hq.was] using hs.bandSpare

end Settling

section Running

/-- The image is within a half, and the halves' debts are its own. -/
structure Ready (w h : ℕ) (s : ProgramRunner) : Prop where
  sized : Sized w h s.hub
  active : s.hub.activeBuf ≤ 1
  prime : s.primeLeft ≤ s.fullLeft
  owes : Owes h s

lemma Prepared.ready (hr : Ready w h s) (hq : Prepared h i s s') : Ready w h s' := by
  constructor
  case sized => exact hq.sized hr.sized
  case active => exact hq.active.trans_le hr.active
  case prime => simpa only [hq.prime, hq.full] using hr.prime
  case owes =>
    intro j
    have hdebt := hq.debt
    split at hdebt
    · rw [hdebt.1, hdebt.2]
      exact .inr (Nat.zero_add h)
    · rw [hdebt.1, hdebt.2]
      exact hr.owes j

lemma Drawn.ready (hr : Ready w h s) (hd : Drawn p (s.ctx w h timeMs) s s') : Ready w h s' := by
  constructor
  case sized => exact hr.sized.congr hd.width hd.length
  case active => exact (back_ne hr.active hd.active).2
  case prime =>
    rw [hd.prime, hd.full]
    exact Nat.sub_le_sub_right hr.prime 1
  case owes =>
    intro j
    by_cases hj : j = s.back
    · rw [hj]
      exact (hr.owes s.back).imp (fun hzero => (hd.free hzero).2) fun howed => (hd.owed howed).1
    · rw [(hd.other j hj).1, (hd.other j hj).2]
      exact hr.owes j

/-- A tick that is due, once it is prepared, draws a frame or has nothing to draw. -/
lemma tick_cases (hp : p.Declared w h) (hr : Ready w h s) (hdue : s.nextMs ≤ i.timeMs)
    (htrue : Truthful s i.regs) (htick : s.tick p i = .ok s') : ∃ s₁, Prepared h i s s₁ ∧ Ready w h s₁ ∧
      (s' = s₁ ∧ s₁.animated p = false ∨ Drawn p (s₁.ctx w h i.timeMs) s₁ s') := by
  obtain ⟨s₁, hq, hok⟩ := tick_due (p := p) hr.sized hdue
  have hr₁ := hq.ready hr
  refine ⟨s₁, hq, hr₁, ?_⟩
  rw [htick] at hok
  injection hok with hs'
  split at hs'
  · next hidle => exact .inl ⟨hs', hidle.2⟩
  · have hctx : s.ctx w h i.timeMs = s₁.ctx w h i.timeMs := by
      rw [ProgramRunner.ctx, ProgramRunner.ctx, hq.frame, hq.values]
    refine .inr ?_
    rw [hs', hctx]
    refine draw_drawn hr₁.owes ?_ hp.bands hr₁.sized.room
    simpa only [Truthful, hq.regs, hq.active] using htrue

/-- The rows are owed in both halves, and nothing is known of either. -/
lemma Ready.landed (hr : Ready w h s) (hlanded : s.values.writes ≠ s.seenWrites)
    (hq : Prepared h i s s') : Settling p w h 0 s' := by
  have hr' := hq.ready hr
  obtain ⟨hpos, hleft⟩ : s'.repaintPos = (fun _ => 0) ∧ s'.repaintLeft = fun _ => h := by
    have hdebt := hq.debt
    rwa [if_pos hlanded] at hdebt
  constructor
  case sized => exact hr'.sized
  case active => exact hr'.active
  case prime => exact hr'.prime
  case seen => rw [hq.seen, hq.values]
  case owed => simp [hpos, hleft]
  case whole => simp [hleft]
  case paid => simp [hpos]
  case stillShown => simp [hpos]
  case stillSpare => simp [hpos]
  case bandShown => exact fun y _ b _ x hx hreached => absurd hreached (not_reached_zero hx)
  case bandSpare => exact fun y _ b _ x hx hreached => absurd hreached (not_reached_zero hx)
  all_goals exact fun hk => absurd hk (by omega)

lemma Settling.tick (hp : p.Declared w h) (hs : Settling p w h k s)
    (hcases : s' = s ∧ s.animated p = false ∨ Drawn p (s.ctx w h timeMs) s s') :
    Settling p w h (k + 1) s' := by
  rcases hcases with ⟨rfl, hidle⟩ | hd
  · exact hs.idle hidle
  · exact hs.draw hp hd

/-- `api_program_set`, of a program that is on the card. -/
def ProgramRunner.programSet (s : ProgramRunner) : Except Panic ProgramRunner := do
  let hub ← (s.hub.setAutoSwap false).setPaletteAll 0 Layout.paletteDefault
  return { s with hub := hub, frame := 0, nextMs := 0, fullLeft := 2, primeLeft := 2, paletteDirty := true }

/-- The program since it was set: the tables it has had, the last one first, and, after a push, how many
ticks have been due since. A push is new values under a count that the program has not seen. -/
inductive Running (p : Program) (w h : ℕ) : List ValueTable → Option ℕ → ProgramRunner → Prop
  | set {s s' : ProgramRunner} : Sized w h s.hub → s.hub.activeBuf ≤ 1 → Owes h s →
      s.programSet = .ok s' → Running p w h [s'.values] none s'
  | push {vs : List ValueTable} {n : Option ℕ} {s : ProgramRunner} (values : ValueTable) :
      Running p w h vs n s → values.writes ≠ s.seenWrites →
      Running p w h (values :: vs) (some 0) { s with values := values }
  | early {vs : List ValueTable} {n : Option ℕ} {s s' : ProgramRunner} {i : TickInputs} :
      Running p w h vs n s → i.timeMs < s.nextMs → s.tick p i = .ok s' → Running p w h vs n s'
  | due {vs : List ValueTable} {n : Option ℕ} {s s' : ProgramRunner} {i : TickInputs} :
      Running p w h vs n s → s.nextMs ≤ i.timeMs → Truthful s i.regs → s.tick p i = .ok s' →
      Running p w h vs (n.map (· + 1)) s'

/-- What is so `n` ticks after a push. -/
def Stands (p : Program) (w h : ℕ) : Option ℕ → ProgramRunner → Prop
  | none, _ => True
  | some 0, s => s.values.writes ≠ s.seenWrites
  | some (k + 1), s => Settling p w h (k + 1) s

lemma programSet_ok (s : ProgramRunner) :
    ∃ s', s.programSet = .ok s' ∧ s'.seenWrites = s.seenWrites ∧ s'.fullLeft = 2 := by
  obtain ⟨hub, hok, -⟩ := recoloured_setPaletteAll (s.hub.setAutoSwap false) Layout.paletteDefault
  rw [ProgramRunner.programSet, hok]
  exact ⟨_, rfl, rfl, rfl⟩

lemma programSet_ready (hsized : Sized w h s.hub) (hactive : s.hub.activeBuf ≤ 1) (howes : Owes h s)
    (hset : s.programSet = .ok s') : Ready w h s' := by
  obtain ⟨hub, hok, hcolours⟩ := recoloured_setPaletteAll (s.hub.setAutoSwap false) Layout.paletteDefault
  rw [ProgramRunner.programSet, hok] at hset
  cases hset
  obtain ⟨shadow, gen, bankGen, ram, reads, rfl⟩ := hcolours
  exact ⟨hsized.congr rfl rfl, hactive, le_rfl, howes⟩

lemma Running.stands (hp : p.Declared w h) (hrun : Running p w h vs n s) :
    Ready w h s ∧ Stands p w h n s := by
  induction hrun with
  | set hsized hactive howes hset => exact ⟨programSet_ready hsized hactive howes hset, trivial⟩
  | push values hrun hlanded ih => exact ⟨⟨ih.1.sized, ih.1.active, ih.1.prime, ih.1.owes⟩, hlanded⟩
  | early hrun hearly htick ih =>
    rw [tick_early hearly] at htick
    cases htick
    exact ih
  | @due vs n s s' i hrun hdue htrue htick ih =>
    obtain ⟨hr, hstands⟩ := ih
    obtain ⟨s₁, hq, hr₁, hcases⟩ := tick_cases hp hr hdue htrue htick
    constructor
    · rcases hcases with ⟨rfl, -⟩ | hd
      · exact hr₁
      · exact hd.ready hr₁
    · cases n with
      | none => trivial
      | some k =>
        cases k with
        | zero => exact (hr.landed hstands hq).tick hp hcases
        | succ k => exact (hstands.prepared hq).tick hp hcases

lemma ScrollBand.reached_of_le {b : ScrollBand} (hx : x < w) (hk : w ≤ k * b.speed) : b.Reached w k x := by
  rw [ScrollBand.Reached]
  split <;> omega

/-- Once the slices of both halves are paid off and the bands have gone round, both halves are what the
program draws of the new values, in full. -/
theorem Running.settles (hp : p.Declared w h) (hrun : Running p w h vs (some k) s)
    (hrows : h ≤ REPAINT_SLICE * (k / 2)) (hcols : ∀ b ∈ p.scroll, w ≤ (k - 1) * b.speed) :
    (s.shownCtx.Of w h s.values ∧ s.spareCtx.Of w h s.values) ∧ ∀ y < h, ∀ x < w,
      s.hub.displayBuffer (y * w + x) = p.pixel s.shownCtx x y ∧
        s.hub.hub75Data (y * w + x) = p.pixel s.spareCtx x y := by
  obtain ⟨hr, hstands⟩ := hrun.stands hp
  have hk : 2 ≤ k := by
    by_contra hlt
    rw [Nat.div_eq_of_lt (by omega)] at hrows
    exact absurd hr.sized.pos.2 (by omega)
  obtain ⟨m, rfl⟩ : ∃ m, k = m + 1 := ⟨k - 1, by omega⟩
  have hs : Settling p w h (m + 1) s := hstands
  have hshown := hs.shown (by omega)
  have hspare := hs.was hk
  refine ⟨⟨hshown, hspare⟩, fun y hy x hx => ?_⟩
  cases hb : p.bandAt y with
  | some b =>
    have hmem : b ∈ p.scroll := List.mem_reverse.mp (List.mem_of_find?_eq_some hb)
    have hround := hcols b hmem
    have hmore : m * b.speed ≤ (m + 1) * b.speed := Nat.mul_le_mul_right _ (Nat.le_succ m)
    exact ⟨hs.bandShown y hy b hb x hx (ScrollBand.reached_of_le hx (hround.trans hmore)),
      hs.bandSpare y hy b hb x hx (ScrollBand.reached_of_le hx hround)⟩
  | none =>
    by_cases hc : p.Changes y
    · exact ⟨hs.changesShown (by omega) y hy hb hc x hx, hs.changesSpare hk y hy hb hc x hx⟩
    · obtain ⟨j, hj⟩ := exists_ne s.back
      have hfront := hs.paid j
      have hback := hs.paid s.back
      rw [if_neg hj] at hfront
      rw [if_pos rfl] at hback
      simp only [REPAINT_SLICE] at hrows hfront hback
      rw [hs.stillShown y hy hb hc j hj (by omega) x hx, hs.stillSpare y hy hb hc (by omega) x hx,
        hshown.eq, hspare.eq]
      exact ⟨hp.still y hy hb hc s.values _ _ _ _ x hx, hp.still y hy hb hc s.values _ _ _ _ x hx⟩

/-- No tick that is due ends the run. -/
lemma Running.more (hp : p.Declared w h) (hrun : Running p w h vs n s) :
    ∃ s', Running p w h vs (n.map (· + 1)) s' ∧ s'.fullLeft = s.fullLeft - 1 := by
  let i : TickInputs := ⟨s.nextMs, { Registers.reset with
    fbBaseNow := fun _ => if s.hub.activeBuf = 1 then BitVec.ofNat 20 (FB_BASE_WORDS + FB_HALF_WORDS)
      else BitVec.ofNat 20 FB_BASE_WORDS }⟩
  have htrue : Truthful s i.regs := by
    intro n
    change (if s.hub.activeBuf = 1 then BitVec.ofNat 20 (FB_BASE_WORDS + FB_HALF_WORDS)
      else BitVec.ofNat 20 FB_BASE_WORDS).toNat = _
    split <;> rfl
  obtain ⟨s₁, hq, hok⟩ := tick_due (p := p) (i := i) (hrun.stands hp).1.sized le_rfl
  refine ⟨_, hrun.due le_rfl htrue hok, ?_⟩
  split
  · next hidle => rw [← hq.full, hidle.1]
  · exact congrArg (· - 1) hq.full

/-- A ticker of one row over a row that says how often values have come. -/
def ticker : Program where
  pixel := fun ctx x y => if y = 0 then if (x + ctx.frame.toNat) % 2 = 0 then 1 else 0 else ctx.values.writes
  dynamic := some (0, 1)
  scroll := [⟨0, 1, 1, false⟩]
  palette := none
  paletteStatic := true

lemma ticker_declared : ticker.Declared 2 2 := by
  constructor
  case bands =>
    intro b hb
    rw [List.mem_singleton.mp hb]
    exact ⟨Nat.one_pos, Nat.lt_succ_self 1⟩
  case moves =>
    intro y _ b hb values frame t t' x _
    obtain rfl : b = ⟨0, 1, 1, false⟩ :=
      List.mem_singleton.mp (List.mem_reverse.mp (List.mem_of_find?_eq_some hb))
    have hrow : y = 0 := by
      have hin := List.find?_some hb
      simpa [ScrollBand.has] using hin
    have hparity : (x + (frame.toNat + 1) % 4294967296) % 2 = (x + 1 + frame.toNat) % 2 := by omega
    simp [ticker, hrow, hparity]
  case still =>
    intro y _ hb _ values frame frame' t t' x _
    have hrow : y ≠ 0 := by
      rintro rfl
      cases hb
    simp [ticker, hrow]

/-- A wall of two rows of two pixels, before a program is set. -/
def smallWall : ProgramRunner where
  hub := { Hub75.new (fun _ => 0) Registers.reset with ctrlWidth := 2, length := 4 }
  values := {}
  frame := 0
  fullLeft := 0
  primeLeft := 0
  seenWrites := 0
  nextMs := 0
  paletteDirty := false
  repaintPos := fun _ => 0
  repaintLeft := fun _ => 0
  shownCtx := ⟨2, 2, 0, 0, {}⟩
  spareCtx := ⟨2, 2, 0, 0, {}⟩

lemma ticker_pushed : ∃ vs s, Running ticker 2 2 vs (some 0) s ∧ s.fullLeft = 2 := by
  obtain ⟨s₀, hset, hseen, hfull⟩ := programSet_ok smallWall
  have hrun : Running ticker 2 2 [s₀.values] none s₀ :=
    .set ⟨rfl, rfl, by decide, by decide⟩ (Nat.zero_le 1) (fun _ => .inl rfl) hset
  exact ⟨_, _, hrun.push { writes := 1 } (by rw [hseen]; decide), hfull⟩

theorem settles_ticker : ∃ vs s, Running ticker 2 2 vs (some 3) s ∧ ∀ y < 2, ∀ x < 2,
    s.hub.displayBuffer (y * 2 + x) = ticker.pixel s.shownCtx x y := by
  obtain ⟨vs, s₀, hpush, -⟩ := ticker_pushed
  obtain ⟨s₁, hone, -⟩ := hpush.more ticker_declared
  obtain ⟨s₂, htwo, -⟩ := hone.more ticker_declared
  obtain ⟨s₃, hthree, -⟩ := htwo.more ticker_declared
  refine ⟨vs, s₃, hthree, fun y hy x hx => ?_⟩
  exact ((Running.settles ticker_declared hthree (by decide) (by simp [ticker])).2 y hy x hx).1

end Running

section Shown

/-- Since the first frame, everything on the glass is drawn of a table that the program has had, and
since the second one everything in the other half. -/
structure Shows (p : Program) (w h : ℕ) (vs : List ValueTable) (s : ProgramRunner) : Prop where
  full : s.fullLeft ≤ 2
  even : s.primeLeft = s.fullLeft
  values : s.values ∈ vs
  frame : s.fullLeft < 2 → s.frame = s.shownCtx.frame + 1
  glass : s.fullLeft < 2 → ∀ y < h, ∀ x < w, ∃ v ∈ vs, ∃ t,
    s.hub.displayBuffer (y * w + x) = p.pixel ⟨w, h, s.shownCtx.frame, t, v⟩ x y
  spare : s.fullLeft = 0 → ∀ y < h, ∀ x < w, ∃ v ∈ vs, ∃ t,
    s.hub.hub75Data (y * w + x) = p.pixel ⟨w, h, s.spareCtx.frame, t, v⟩ x y

lemma Shows.prepared (hs : Shows p w h vs s) (hq : Prepared h i s s') : Shows p w h vs s' := by
  constructor
  case full => exact hq.full.trans_le hs.full
  case even => rw [hq.prime, hq.full, hs.even]
  case values => rw [hq.values]; exact hs.values
  case frame => simpa only [hq.full, hq.frame, hq.shown] using hs.frame
  case glass => simpa only [hq.full, hq.display, hq.shown] using hs.glass
  case spare => simpa only [hq.full, hq.data, hq.was] using hs.spare

/-- A pixel that a band brings was drawn of the table that its source was drawn of. -/
lemma scrolled_shown {b : ScrollBand} (hp : p.Declared w h) (hs : Shows p w h vs s) (hfull : s.fullLeft < 2)
    (hy : y < h) (hb : p.bandAt y = some b) (hx : x < w) : ∃ v ∈ vs, ∃ t,
      p.scrolled (s.ctx w h timeMs) b s.hub.displayBuffer x y = p.pixel ⟨w, h, s.frame, t, v⟩ x y := by
  have hmoves := hp.moves y hy b hb
  rw [Program.scrolled]
  cases hr : b.right with
  | true =>
    simp only [hr, if_true] at hmoves ⊢
    split
    · exact ⟨s.values, hs.values, timeMs, rfl⟩
    · next hle =>
      obtain ⟨v, hv, t, hglass⟩ := hs.glass hfull y hy (x - b.speed) (by omega)
      have hfrom := hmoves v s.shownCtx.frame t t (x - b.speed) (by omega)
      rw [Nat.sub_add_cancel (by omega), ← hs.frame hfull] at hfrom
      exact ⟨v, hv, t, hglass.trans hfrom.symm⟩
  | false =>
    simp only [hr, Bool.false_eq_true, if_false] at hmoves ⊢
    split
    · next hlt =>
      obtain ⟨v, hv, t, hglass⟩ := hs.glass hfull y hy (x + b.speed) hlt
      have hfrom := hmoves v s.shownCtx.frame t t x hlt
      rw [← hs.frame hfull] at hfrom
      exact ⟨v, hv, t, hglass.trans hfrom.symm⟩
    · exact ⟨s.values, hs.values, timeMs, rfl⟩

lemma Shows.draw (hp : p.Declared w h) (hs : Shows p w h vs s) (hd : Drawn p (s.ctx w h timeMs) s s') :
    Shows p w h vs s' := by
  have hfull := hs.full
  constructor
  case full => rw [hd.full]; omega
  case even => rw [hd.prime, hd.full, hs.even]
  case values => rw [hd.values]; exact hs.values
  case frame =>
    intro _
    rw [hd.frame, hd.shown]
    rfl
  case glass =>
    intro _ y hy x hx
    rw [hd.shown]
    cases hb : p.bandAt y with
    | some b =>
      rcases bandRow hd hs.even.le hy hb hx with ⟨hmoved, hprime⟩ | hdrawn
      · rw [hmoved]
        exact scrolled_shown hp hs (by rw [← hs.even, hprime]; exact Nat.two_pos) hy hb hx
      · exact ⟨s.values, hs.values, timeMs, hdrawn⟩
    | none =>
      rcases otherRow hd hy hb with hdrawn | ⟨hzero, hstill, -, hkept⟩
      · exact ⟨s.values, hs.values, timeMs, hdrawn x hx⟩
      · obtain ⟨v, hv, t, hspare⟩ := hs.spare hzero y hy x hx
        refine ⟨v, hv, t, (hkept x hx).trans (hspare.trans ?_)⟩
        exact hp.still y hy hb hstill v _ _ _ _ x hx
  case spare =>
    intro hzero
    rw [hd.full] at hzero
    rw [hd.spare, hd.was]
    exact hs.glass (by omega)

lemma Shows.push {values : ValueTable} (hs : Shows p w h vs s) :
    Shows p w h (values :: vs) { s with values := values } := by
  have hmore {P : ValueTable → Prop} : (∃ v ∈ vs, P v) → ∃ v ∈ values :: vs, P v :=
    fun ⟨v, hv, hP⟩ => ⟨v, List.mem_cons_of_mem _ hv, hP⟩
  exact ⟨hs.full, hs.even, List.mem_cons_self, hs.frame, fun hlt y hy x hx => hmore (hs.glass hlt y hy x hx),
    fun hzero y hy x hx => hmore (hs.spare hzero y hy x hx)⟩

lemma programSet_shows (hset : s.programSet = .ok s') : Shows p w h [s'.values] s' := by
  obtain ⟨hub, hok, -⟩ := recoloured_setPaletteAll (s.hub.setAutoSwap false) Layout.paletteDefault
  rw [ProgramRunner.programSet, hok] at hset
  cases hset
  exact ⟨le_rfl, rfl, List.mem_singleton_self _, fun hlt => absurd hlt (Nat.lt_irrefl 2),
    fun hlt => absurd hlt (Nat.lt_irrefl 2), fun hzero => absurd hzero (Nat.succ_ne_zero 1)⟩

end Shown

end Ledwall.Panels
