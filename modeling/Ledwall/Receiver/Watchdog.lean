import Ledwall.Gateware.Hub75UdpDma
import Ledwall.Receiver.Coverage
import Ledwall.Receiver.PendingPalette

/-! The watchdog in `present`, which takes the flip back from a gateware that does not flip, against
the gateware. -/

namespace Ledwall.Receiver

open BitmapReceiver Ledwall.Gateware Ledwall.Library.Outcomes Ledwall.Library.Runs Ledwall.Wire

/-- One verdict of the watchdog: the number of the read of `fb_base_now` it sampled, and the half then
believed to be on the glass. -/
structure Mark where
  read : ℕ
  believed : ℕ

/-- The verdict, if the flip is the gateware's. -/
def BitmapReceiver.marks (r : BitmapReceiver) (h : Hub75) : List Mark :=
  if h.autoSwap then [⟨h.fbReads, (r.flip h).2.activeBuf⟩] else []

/-- Moves of the setting, with the verdicts given on the way, oldest first. -/
inductive Setting.Trace : Setting → List Mark → Setting → Prop
  | nil (s) : Trace s [] s
  | apply {r r' : BitmapReceiver} {h h' : Hub75} {l s} (ha : r.applyPendingPalette h = .ok (r', h'))
      (ht : Trace (r'.setting h') l s) : Trace (r.setting h) l s
  | present {r r' : BitmapReceiver} {h h' : Hub75} {l s} (ha : r.applyPendingPalette h = .ok (r', h'))
      (ht : Trace ((r'.flip h').1.setting (r'.flip h').2) l s) :
      Trace (r.setting h) (r'.marks h' ++ l) s

lemma Setting.Moves.trace {s s' : Setting} (hm : Moves s s') : ∃ l, Trace s l s' := by
  induction hm using Relation.ReflTransGen.head_induction_on with
  | refl => exact ⟨[], .nil s'⟩
  | head hmove _ ih =>
    obtain ⟨l, ht⟩ := ih
    cases hmove with
    | apply ha => exact ⟨l, .apply ha ht⟩
    | present ha => exact ⟨_, .present ha ht⟩

/-- The gateware, and how often it has flipped the halves itself. -/
structure Scanout where
  path : PixelPath
  turned : ℕ

namespace Scanout

def next (g : Scanout) (i : Inputs) : Scanout :=
  ⟨g.path.next i,
    if i.fbBase = none ∧ i.autoSwap = true ∧ g.path.dma.swapReq i = true then g.turned + 1
    else g.turned⟩

/-- The cycles go by while the driver leaves `fb_base` alone. -/
def after (g : Scanout) (h : Hub75) (is : List Inputs) : Scanout :=
  is.foldl (fun g i => g.next { i with autoSwap := h.autoSwapCsr, fbBase := none }) g

/-- The gateware at the `n`-th of a call's reads. -/
def through (g : Scanout) (h : Hub75) (gaps : ℕ → List Inputs) : ℕ → Scanout
  | 0 => g.after h (gaps 0)
  | n + 1 => (g.through h gaps n).after h (gaps (n + 1))

/-- The half that is scanned out: as `sync_buffers_from_hw` numbers them. -/
def half (g : Scanout) : ℕ := if g.path.fbBaseEff.toNat = FB_BASE_WORDS then 0 else 1

end Scanout

/-- One call, and the gateware's cycles before each of its reads of `fb_base_now`; those with the
number of its reads come before it returns. -/
structure Visit where
  poll : Poll
  gaps : ℕ → List Inputs

/-- The gateware when a verdict sampled `fb_base_now`, when it read it again to follow it, and when
that was over. -/
structure Sample where
  seen : Scanout
  synced : Scanout
  ended : Scanout
  believed : ℕ

/-- The receiver, its driver and the gateware; `samples` is history, newest first. -/
structure Board where
  rx : BitmapReceiver
  hub : Hub75
  gate : Scanout
  samples : List Sample

namespace Board

variable {b b' : Board} {t : Visit}

/-- The gateware at the call's `n`-th read. -/
def gateAt (b : Board) (t : Visit) (n : ℕ) : Scanout := b.gate.through b.hub t.gaps n

/-- The call, with what the gateware answers to its reads. The environment picks the DMA's other
registers. -/
def asks (b : Board) (t : Visit) : Poll :=
  { t.poll with
    regs.fbBaseNow := fun n => (b.gateAt t (n - b.hub.fbReads)).path.fbBaseEff }

def sample (b : Board) (t : Visit) (m : Mark) : Sample :=
  let n := m.read - b.hub.fbReads
  ⟨b.gateAt t n, b.gateAt t (n + 1), b.gateAt t (n + 2), m.believed⟩

/-- The gateware once the call is over: a write to `fb_base` wins. -/
def gateAfter (b : Board) (t : Visit) (h : Hub75) : Scanout :=
  let g := b.gateAt t (h.fbReads - b.hub.fbReads)
  if h.flips.length = b.hub.flips.length then g
  else { g with path.fbBaseEff := BitVec.ofNat 20 h.fbBase }

def Step (b : Board) (t : Visit) (b' : Board) : Prop :=
  ∃ o marks s, (b.asks t).run b.rx b.hub = .ok o ∧
    Setting.Trace ((b.asks t).stashed b.rx b.hub) marks s ∧
    o.rx.setting o.hub = { s with refusals := o.rx.refusals } ∧
    b' = ⟨o.rx, o.hub, b.gateAfter t o.hub, (marks.map (b.sample t)).reverse ++ b.samples⟩

lemma step_exists {o : Outcome} (ho : (b.asks t).run b.rx b.hub = .ok o) :
    ∃ l, b.Step t ⟨o.rx, o.hub, b.gateAfter t o.hub, l⟩ := by
  rcases (b.asks t).run_settles b.rx b.hub o ho with hm | he
  · obtain ⟨marks, ht⟩ := hm.trace
    exact ⟨_, o, marks, _, ho, ht, rfl, rfl⟩
  · exact ⟨_, o, [], _, ho, .nil _, he, rfl⟩

/-- Nine verdicts in a row between which the gateware flipped an even number of times. -/
def Stalled (l : List Sample) : Prop :=
  STUCK_FRAMES < l.length ∧ ∃ n, ∀ x ∈ l.take (STUCK_FRAMES + 1), x.seen.turned % 2 = n

/-- The verdicts never stalled, and no flip fell between following the gateware and being done. -/
structure Lively (b : Board) : Prop where
  moving : ∀ l, l <:+ b.samples → ¬ Stalled l
  still : ∀ x ∈ b.samples, x.ended.turned = x.synced.turned

/-- The flip stays the gateware's, the CPU makes none, and each verdict left the driver believing on
the glass what is scanned out. -/
structure Trusts (b b' : Board) : Prop where
  autoSwap : b'.hub.autoSwap = true
  swaps : b'.hub.flips.length = b.hub.flips.length
  follows : ∀ x ∈ b'.samples, x.believed = x.ended.half

end Board

section Watching

variable {r r' : BitmapReceiver} {h h' : Hub75}

/-- What a palette write does not touch. -/
structure Unmoved (h h' : Hub75) : Prop where
  active : h'.activeBuf = h.activeBuf
  autoSwap : h'.autoSwap = h.autoSwap
  flips : h'.flips = h.flips
  regs : h'.regs = h.regs
  reads : h.fbReads ≤ h'.fbReads

lemma Unmoved.refl (h : Hub75) : Unmoved h h := ⟨rfl, rfl, rfl, rfl, Nat.le_refl _⟩

lemma Unmoved.trans {k : Hub75} (h₁ : Unmoved h k) (h₂ : Unmoved k h') : Unmoved h h' :=
  ⟨h₂.active.trans h₁.active, h₂.autoSwap.trans h₁.autoSwap, h₂.flips.trans h₁.flips,
    h₂.regs.trans h₁.regs, h₁.reads.trans h₂.reads⟩

lemma setPalette_unmoved (h : Hub75) (offset : ℕ) (words : List Word) :
    Ensures (Unmoved h) (h.setPalette offset words) := by
  unfold Hub75.setPalette
  refine Ensures.bind (P := fun s : ℕ × Hub75 => Unmoved h s.2) ?_ ?_
  · unfold Hub75.stash
    refine Ensures.bind (P := fun _ => True) (fun _ _ => trivial) fun _ _ => ?_
    apply Ensures.ok
    dsimp only
    split <;> exact ⟨rfl, rfl, rfl, rfl, Nat.le_refl _⟩
  · rintro ⟨n, h₁⟩ hh
    dsimp only at hh ⊢
    split
    · exact .ok hh
    · have hb : Unmoved h h₁.backPaletteBank.2 := by
        apply hh.trans
        unfold Hub75.backPaletteBank
        split
        · exact .refl h₁
        · exact ⟨rfl, rfl, rfl, rfl, Nat.le_succ _⟩
      refine Ensures.bind (P := Unmoved h) ?_ fun h₂ hh₂ => .ok ?_
      · unfold Hub75.writeBank
        refine Ensures.bind (P := fun _ => True) (fun _ _ => trivial) fun _ _ => ?_
        unfold Hub75.setPaletteBank
        dsimp only
        split
        · exact .ok hb
        · refine Ensures.bind (P := fun _ => True) (fun _ _ => trivial) fun _ _ => ?_
          exact .ok (hb.trans ⟨rfl, rfl, rfl, rfl, Nat.le_refl _⟩)
      · exact hh₂.trans ⟨rfl, rfl, rfl, rfl, Nat.le_refl _⟩

lemma applyPendingPalette_unmoved (r : BitmapReceiver) (h : Hub75) :
    Ensures (fun s => Unmoved h s.2 ∧ s.1.fbBaseStuck = r.fbBaseStuck ∧
      s.1.lastFbBase = r.lastFbBase) (r.applyPendingPalette h) := by
  unfold applyPendingPalette
  split
  · exact .ok ⟨.refl h, rfl, rfl⟩
  · refine Ensures.bind (P := fun _ => True) (fun _ _ => trivial) fun _ _ => ?_
    exact (setPalette_unmoved h _ _).bind fun h' hh => .ok ⟨hh, rfl, rfl⟩

/-- What a verdict that leaves the flip to the gateware does. -/
structure Followed (r : BitmapReceiver) (h : Hub75) (r' : BitmapReceiver) (h' : Hub75) : Prop where
  stuck : r'.fbBaseStuck =
    if (h.regs.fbBaseNow h.fbReads).toNat = r.lastFbBase then r.fbBaseStuck + 1 else 0
  last : r'.lastFbBase = (h.regs.fbBaseNow h.fbReads).toNat
  active : h'.activeBuf =
    if (h.regs.fbBaseNow (h.fbReads + 1)).toNat = FB_BASE_WORDS then 0 else 1
  autoSwap : h'.autoSwap = h.autoSwap
  flips : h'.flips = h.flips
  regs : h'.regs = h.regs
  reads : h'.fbReads = h.fbReads + 2

lemma syncBuffersFromHw_follows (h : Hub75) :
    h.syncBuffersFromHw.activeBuf =
        (if (h.regs.fbBaseNow h.fbReads).toNat = FB_BASE_WORDS then 0 else 1) ∧
      h.syncBuffersFromHw.autoSwap = h.autoSwap ∧ h.syncBuffersFromHw.flips = h.flips ∧
      h.syncBuffersFromHw.regs = h.regs ∧ h.syncBuffersFromHw.fbReads = h.fbReads + 1 := by
  by_cases hsame : (if (h.regs.fbBaseNow h.fbReads).toNat = FB_BASE_WORDS then 0 else 1) =
      h.activeBuf
  · have he : h.syncBuffersFromHw = h.fbBaseNow.2 := if_neg (not_not.mpr hsame)
    rw [he]
    exact ⟨hsame.symm, rfl, rfl, rfl, rfl⟩
  · have he : h.syncBuffersFromHw = { h.fbBaseNow.2 with
        hub75Data := h.displayBuffer
        displayBuffer := h.hub75Data
        activeBuf := if (h.regs.fbBaseNow h.fbReads).toNat = FB_BASE_WORDS then 0 else 1 } :=
      if_pos hsame
    rw [he]
    exact ⟨rfl, rfl, rfl, rfl, rfl⟩

lemma flip_follows (hauto : h.autoSwap = true) (hstuck : r.fbBaseStuck < STUCK_FRAMES)
    (hmoves : (h.regs.fbBaseNow h.fbReads).toNat = r.lastFbBase →
      r.fbBaseStuck + 1 < STUCK_FRAMES) :
    Followed r h (r.flip h).1 (r.flip h).2 := by
  have hword : STUCK_FRAMES = 8 := rfl
  obtain ⟨h₁, h₂, h₃, h₄, h₅⟩ := syncBuffersFromHw_follows h.fbBaseNow.2
  by_cases hsame : h.fbBaseNow.1 = r.lastFbBase
  · have hcap : min (r.fbBaseStuck + 1) 255 = r.fbBaseStuck + 1 := by omega
    have hlt : ¬ STUCK_FRAMES ≤ r.fbBaseStuck + 1 := Nat.not_le.mpr (hmoves hsame)
    have hflip : r.flip h =
        ({ r with fbBaseStuck := r.fbBaseStuck + 1 }, h.fbBaseNow.2.syncBuffersFromHw) := by
      simp only [BitmapReceiver.flip, if_pos hauto, if_pos hsame, hcap]
      exact if_neg hlt
    rw [hflip]
    exact ⟨(if_pos hsame).symm, hsame.symm, h₁, h₂, h₃, h₄, h₅⟩
  · have hlt : ¬ STUCK_FRAMES ≤ 0 := by decide
    have hflip : r.flip h =
        ({ r with fbBaseStuck := 0, lastFbBase := h.fbBaseNow.1 },
          h.fbBaseNow.2.syncBuffersFromHw) := by
      simp only [BitmapReceiver.flip, if_pos hauto, if_neg hsame]
      exact if_neg hlt
    rw [hflip]
    exact ⟨(if_neg hsame).symm, rfl, h₁, h₂, h₃, h₄, h₅⟩

lemma flip_reads (r : BitmapReceiver) (h : Hub75) :
    h.fbReads + (r.marks h).length ≤ (r.flip h).2.fbReads := by
  by_cases hauto : h.autoSwap = true
  · have hm : (r.marks h).length = 1 := by
      rw [BitmapReceiver.marks, if_pos hauto]
      rfl
    have hsync : h.fbReads + 1 ≤ h.fbBaseNow.2.syncBuffersFromHw.fbReads :=
      (Nat.le_succ _).trans (syncBuffersFromHw_follows h.fbBaseNow.2).2.2.2.2.ge
    rw [hm]
    simp only [BitmapReceiver.flip, if_pos hauto]
    split
    · split
      · exact Nat.le_refl _
      · exact hsync
    · split
      · exact Nat.le_refl _
      · exact hsync
  · rw [BitmapReceiver.marks, if_neg hauto, BitmapReceiver.flip, if_neg hauto]
    exact Nat.le_refl _

end Watching

namespace Scanout

variable {g : Scanout} {h : Hub75} {i : Inputs} {is : List Inputs}

/-- The half scanned out tells whether the number of flips is even. -/
def Placed (g : Scanout) : Prop :=
  g.path.fbBaseEff =
    if g.turned % 2 = 0 then sdramOffset.setWidth 20 else (sdramOffset + halfWords).setWidth 20

lemma Placed.next (hg : g.Placed) (hi : i.fbBase = none) : (g.next i).Placed := by
  have hbase : (g.next i).path.fbBaseEff = g.path.nextBase i := rfl
  have hne : (sdramOffset + halfWords).setWidth 20 ≠ sdramOffset.setWidth 20 := by decide
  rw [Placed] at hg ⊢
  rw [hbase]
  simp only [PixelPath.nextBase, hi, Scanout.next, Bool.and_eq_true, true_and]
  split
  · by_cases he : g.turned % 2 = 0
    · rw [if_pos he] at hg
      have hodd : ¬ (g.turned + 1) % 2 = 0 := by omega
      rw [hg, if_pos rfl, if_neg hodd]
    · rw [if_neg he] at hg
      have heven : (g.turned + 1) % 2 = 0 := by omega
      rw [hg, if_neg hne, if_pos heven]
  · exact hg

lemma Placed.after (hg : g.Placed) (h : Hub75) (is : List Inputs) : (g.after h is).Placed := by
  induction is generalizing g with
  | nil => exact hg
  | cons i is ih =>
    apply ih
    exact hg.next rfl

lemma Placed.base_eq_iff {g' : Scanout} (hg : g.Placed) (hg' : g'.Placed) :
    g.path.fbBaseEff.toNat = g'.path.fbBaseEff.toNat ↔ g.turned % 2 = g'.turned % 2 := by
  have hne : (sdramOffset + halfWords).setWidth 20 ≠ sdramOffset.setWidth 20 := by decide
  rw [BitVec.toNat_inj, hg, hg']
  rcases Nat.mod_two_eq_zero_or_one g.turned with h₁ | h₁ <;>
    rcases Nat.mod_two_eq_zero_or_one g'.turned with h₂ | h₂ <;>
    simp [h₁, h₂, hne, hne.symm]

end Scanout

/-- The counter of equal samples tells how many of the last samples saw the same half. -/
structure Streak (stuck last : ℕ) (l : List Sample) : Prop where
  lt : stuck < STUCK_FRAMES
  placed : ∀ x ∈ l, x.seen.Placed
  first : l = [] → last = 2 ^ 32 - 1
  equal : ∀ x ∈ l.head?, last = x.seen.path.fbBaseEff.toNat ∧ stuck < l.length ∧
    ∀ y ∈ l.take (stuck + 1), y.seen.turned % 2 = x.seen.turned % 2

namespace Streak

variable {stuck last : ℕ} {l : List Sample} {x : Sample}

lemma room (hs : Streak stuck last l) (hx : x.seen.Placed)
    (hsame : x.seen.path.fbBaseEff.toNat = last) (hn : ¬ Board.Stalled (x :: l)) :
    stuck + 1 < STUCK_FRAMES := by
  have hword : STUCK_FRAMES = 8 := rfl
  by_contra hge
  have hlt := hs.lt
  cases l with
  | nil =>
    have hlast := hs.first rfl
    have hbase := x.seen.path.fbBaseEff.isLt
    omega
  | cons y l =>
    obtain ⟨hlast, hlen, hequal⟩ := hs.equal y rfl
    have hparity := (hx.base_eq_iff (hs.placed y List.mem_cons_self)).mp (hsame.trans hlast)
    apply hn
    rw [List.length_cons] at hlen
    refine ⟨?_, y.seen.turned % 2, ?_⟩
    · rw [List.length_cons, List.length_cons]
      omega
    · intro z hz
      rw [List.take_succ_cons] at hz
      rcases List.mem_cons.mp hz with rfl | hz
      · exact hparity
      · apply hequal
        have hle : STUCK_FRAMES = stuck + 1 := by omega
        rwa [hle] at hz

lemma push (hs : Streak stuck last l) (hx : x.seen.Placed)
    (hroom : x.seen.path.fbBaseEff.toNat = last → stuck + 1 < STUCK_FRAMES) :
    Streak (if x.seen.path.fbBaseEff.toNat = last then stuck + 1 else 0)
      x.seen.path.fbBaseEff.toNat (x :: l) := by
  have hplaced : ∀ y ∈ x :: l, y.seen.Placed := by
    intro y hy
    rcases List.mem_cons.mp hy with rfl | hy
    · exact hx
    · exact hs.placed y hy
  by_cases hsame : x.seen.path.fbBaseEff.toNat = last
  · rw [if_pos hsame]
    refine ⟨hroom hsame, hplaced, fun h => absurd h (List.cons_ne_nil x l), ?_⟩
    rintro _ ⟨⟩
    cases l with
    | nil =>
      have hlast := hs.first rfl
      have hbase := x.seen.path.fbBaseEff.isLt
      omega
    | cons y l =>
      obtain ⟨hlast, hlen, hequal⟩ := hs.equal y rfl
      have hparity := (hx.base_eq_iff (hs.placed y List.mem_cons_self)).mp (hsame.trans hlast)
      refine ⟨rfl, Nat.succ_lt_succ hlen, ?_⟩
      intro z hz
      rw [List.take_succ_cons] at hz
      rcases List.mem_cons.mp hz with rfl | hz
      · rfl
      · rw [hparity]
        exact hequal z hz
  · rw [if_neg hsame]
    refine ⟨by decide, hplaced, fun h => absurd h (List.cons_ne_nil x l), ?_⟩
    rintro _ ⟨⟩
    refine ⟨rfl, Nat.succ_pos _, ?_⟩
    intro z hz
    rw [List.take_succ_cons, List.take_zero] at hz
    rw [List.mem_singleton.mp hz]

end Streak

namespace Board

variable {b b' : Board} {t : Visit} {l : List Sample} {s s' : Setting} {marks : List Mark}

lemma gateAt_placed (hb : b.gate.Placed) (t : Visit) (n : ℕ) : (b.gateAt t n).Placed := by
  induction n with
  | zero => exact hb.after _ _
  | succ n ih => exact ih.after _ _

/-- In the middle of a call, with the samples so far. -/
structure Held (b : Board) (t : Visit) (s : Setting) (l : List Sample) : Prop where
  autoSwap : s.colours.autoSwap = true
  flips : s.colours.flips = b.hub.flips.length
  seen : s.colours.seen = fun n => (b.gateAt t (n - b.hub.fbReads)).path.fbBaseEff
  reads : b.hub.fbReads ≤ s.fbReads
  streak : Streak s.stuck s.lastBase l

lemma Held.apply {r r' : BitmapReceiver} {h h' : Hub75} (hh : Held b t (r.setting h) l)
    (ha : r.applyPendingPalette h = .ok (r', h')) : Held b t (r'.setting h') l := by
  obtain ⟨hu, hstuck, hlast⟩ := applyPendingPalette_unmoved r h _ ha
  refine ⟨hu.autoSwap.trans hh.autoSwap, (congrArg List.length hu.flips).trans hh.flips,
    (congrArg Registers.fbBaseNow hu.regs).trans hh.seen, hh.reads.trans hu.reads, ?_⟩
  have hstreak := hh.streak
  change Streak r'.fbBaseStuck r'.lastFbBase l
  rw [hstuck, hlast]
  exact hstreak

lemma Held.flip {r : BitmapReceiver} {h : Hub75} (hb : b.gate.Placed)
    (hh : Held b t (r.setting h) l) {m : Mark} (hm : m = ⟨h.fbReads, (r.flip h).2.activeBuf⟩)
    (hn : ¬ Stalled (b.sample t m :: l))
    (hstill : (b.sample t m).ended.turned = (b.sample t m).synced.turned) :
    Held b t ((r.flip h).1.setting (r.flip h).2) (b.sample t m :: l) ∧
      m.believed = (b.sample t m).ended.half := by
  have hseen (n : ℕ) : h.regs.fbBaseNow n = (b.gateAt t (n - b.hub.fbReads)).path.fbBaseEff :=
    congrFun hh.seen n
  have hreads : b.hub.fbReads ≤ h.fbReads := hh.reads
  have hstreak : Streak r.fbBaseStuck r.lastFbBase l := hh.streak
  have hbase : (b.sample t m).seen.path.fbBaseEff = h.regs.fbBaseNow h.fbReads := by
    rw [hseen, hm]
    rfl
  have hplaced : (b.sample t m).seen.Placed := gateAt_placed hb t _
  have hroom (hsame : (h.regs.fbBaseNow h.fbReads).toNat = r.lastFbBase) :
      r.fbBaseStuck + 1 < STUCK_FRAMES := by
    apply hstreak.room hplaced _ hn
    rw [hbase]
    exact hsame
  have hf := flip_follows hh.autoSwap hstreak.lt hroom
  constructor
  · refine ⟨hf.autoSwap.trans hh.autoSwap, (congrArg List.length hf.flips).trans hh.flips,
      (congrArg Registers.fbBaseNow hf.regs).trans hh.seen, ?_, ?_⟩
    · change b.hub.fbReads ≤ (r.flip h).2.fbReads
      rw [hf.reads]
      omega
    · change Streak (r.flip h).1.fbBaseStuck (r.flip h).1.lastFbBase _
      rw [hf.stuck, hf.last, ← hbase]
      apply hstreak.push hplaced
      rw [hbase]
      exact hroom
  · have hnext : h.regs.fbBaseNow (h.fbReads + 1) = (b.sample t m).synced.path.fbBaseEff := by
      rw [hseen, hm, Nat.sub_add_comm hreads]
      rfl
    have hended : (b.sample t m).ended.path.fbBaseEff = (b.sample t m).synced.path.fbBaseEff := by
      have h₁ : (b.sample t m).ended.Placed := gateAt_placed hb t _
      have h₂ : (b.sample t m).synced.Placed := gateAt_placed hb t _
      rw [h₁, h₂, hstill]
    rw [Scanout.half, hended, ← hnext, hm]
    exact hf.active

lemma Held.trace (hb : b.gate.Placed) (ht : Setting.Trace s marks s') (hh : Held b t s l)
    (hn : ∀ k, k <:+ (marks.map (b.sample t)).reverse ++ l → ¬ Stalled k)
    (hstill : ∀ m ∈ marks, (b.sample t m).ended.turned = (b.sample t m).synced.turned) :
    Held b t s' ((marks.map (b.sample t)).reverse ++ l) ∧
      ∀ m ∈ marks, m.believed = (b.sample t m).ended.half := by
  induction ht generalizing l with
  | nil s =>
    refine ⟨hh, ?_⟩
    intro m hm
    cases hm
  | apply ha _ ih => exact ih (hh.apply ha) hn hstill
  | @present r r' h h' marks s' ha _ ih =>
    have hh' := hh.apply ha
    have hauto : h'.autoSwap = true := hh'.autoSwap
    have hmarks : r'.marks h' ++ marks = ⟨h'.fbReads, (r'.flip h').2.activeBuf⟩ :: marks := by
      rw [BitmapReceiver.marks, if_pos hauto]
      rfl
    rw [hmarks] at hn hstill ⊢
    generalize hm : (⟨h'.fbReads, (r'.flip h').2.activeBuf⟩ : Mark) = m at hn hstill ⊢
    have hsplit : ((m :: marks).map (b.sample t)).reverse ++ l =
        (marks.map (b.sample t)).reverse ++ b.sample t m :: l := by
      rw [List.map_cons, List.reverse_cons, List.append_assoc]
      rfl
    rw [hsplit] at hn ⊢
    obtain ⟨hflip, hbelieved⟩ := hh'.flip hb hm.symm (hn _ (List.suffix_append _ _))
      (hstill m List.mem_cons_self)
    obtain ⟨hrest, hall⟩ := ih hflip hn fun k hk => hstill k (List.mem_cons_of_mem m hk)
    refine ⟨hrest, ?_⟩
    intro k hk
    rcases List.mem_cons.mp hk with rfl | hk
    · exact hbelieved
    · exact hall k hk

/-- What every call keeps. -/
structure Sound (b : Board) : Prop where
  autoSwap : b.hub.autoSwap = true
  placed : b.gate.Placed
  streak : Streak b.rx.fbBaseStuck b.rx.lastFbBase b.samples
  follows : ∀ x ∈ b.samples, x.believed = x.ended.half

lemma Sound.step (hb : Sound b) (hstep : b.Step t b') (hl : b'.Lively) :
    Sound b' ∧ b.Trusts b' := by
  obtain ⟨o, marks, s, -, ht, hs, rfl⟩ := hstep
  have hstart : Held b t ((b.asks t).stashed b.rx b.hub) b.samples :=
    ⟨hb.autoSwap, rfl, rfl, Nat.le_refl _, hb.streak⟩
  have hstill : ∀ m ∈ marks, (b.sample t m).ended.turned = (b.sample t m).synced.turned := by
    intro m hm
    apply hl.still
    apply List.mem_append_left
    exact List.mem_reverse.mpr (List.mem_map_of_mem hm)
  obtain ⟨hh, hbelieved⟩ := hstart.trace hb.placed ht hl.moving hstill
  have hauto : o.hub.autoSwap = true :=
    (congrArg (fun s => s.colours.autoSwap) hs).trans hh.autoSwap
  have hflips : o.hub.flips.length = b.hub.flips.length :=
    (congrArg (fun s => s.colours.flips) hs).trans hh.flips
  have hstuck : o.rx.fbBaseStuck = s.stuck := congrArg Setting.stuck hs
  have hlast : o.rx.lastFbBase = s.lastBase := congrArg Setting.lastBase hs
  have hfollows : ∀ x ∈ (marks.map (b.sample t)).reverse ++ b.samples,
      x.believed = x.ended.half := by
    intro x hx
    rcases List.mem_append.mp hx with hx | hx
    · obtain ⟨m, hm, rfl⟩ := List.mem_map.mp (List.mem_reverse.mp hx)
      exact hbelieved m hm
    · exact hb.follows x hx
  refine ⟨⟨hauto, ?_, ?_, hfollows⟩, hauto, hflips, hfollows⟩
  · dsimp only
    rw [gateAfter, if_pos hflips]
    exact gateAt_placed hb.placed t _
  · dsimp only
    rw [hstuck, hlast]
    exact hh.streak

/-- Power-up, with the flip handed to the gateware. -/
def powerUp (h : Hub75) : Board := ⟨{}, h, ⟨{}, 0⟩, []⟩

/-- In a run in which no nine verdicts in a row see the gateware's flips an even number apart, and no
flip falls into the end of a verdict, the flip stays the gateware's. -/
theorem trusts_gateware {h : Hub75} (hauto : h.autoSwap = true) {ts : List Visit}
    (hl : Always Step (fun b t => ∀ b', b.Step t b' → b'.Lively) (powerUp h) ts) :
    Always Step (fun b t => ∀ b', b.Step t b' → b.Trusts b') (powerUp h) ts := by
  apply Always.of_safe (I := Sound) _ _ _ hl
  · intro b t b' hb hc hstep
    exact (hb.step hstep (hc b' hstep)).1
  · intro b t hb hc b' hstep
    exact (hb.step hstep (hc b' hstep)).2
  · refine ⟨hauto, rfl, ⟨Nat.succ_pos 7, ?_, fun _ => rfl, ?_⟩, ?_⟩
    · intro x hx
      cases hx
    · intro x hx
      cases hx
    · intro x hx
      cases hx

/-- The DMA's registers, read while the DMA stands still. -/
def readout (d : Hub75UdpDma) : Registers where
  arrival := Vector.ofFn fun k => d.arrival.extractLsb' (32 * k) 32
  arrivalFrameId := d.status.frameId
  done := Vector.ofFn fun k => d.done.arrival.extractLsb' (32 * k) 32
  frameIdDone := d.done.status.frameId
  totalChunksDone := d.done.status.totalChunks
  indexedDone := d.done.status.indexed
  doneSeq := d.done.seq
  doneSeqAfter := d.done.seq
  frameId := d.status.frameId
  totalChunks := d.status.totalChunks
  indexed := d.status.indexed
  lastChunk := d.counters.lastChunk
  fbBaseNow := fun _ => 0

/-- A card that shows 488 pixels, its pixels and its flips left to the gateware. -/
def handedOver : Hub75 := { (Canvas.dark 488 488).hub.setAutoSwap true with dmaEnable := true }

/-- The datagram of frame `k` that brings its last pixel, as the second chunk of two. -/
def lastPixel (k : ℕ) : List Byte :=
  [0x42, 0x4D, BitVec.ofNat 8 k, 0, 1, 2, 0xE8, 1, 1, 0, 255, 255, 255]

/-- The cycles in which the payload passes the DMA. -/
def arrives (payload : List Byte) : List Inputs :=
  payload.mapIdx fun i d =>
    { sink := some ⟨d, i + 1 == payload.length⟩, writerReady := true, enable := true,
      limit := 488, throttle := 0, swapWholeOnly := true, autoSwap := true, peakClear := false,
      fbBase := none }

/-- The cycles in which each of the first `n` frames loses its first chunk. -/
def heldBack (n : ℕ) : List Inputs := (List.range n).flatMap fun k => arrives (lastPixel (k + 1))

/-- Frame `n` begins, and then the call comes. -/
def visit (call : Call) (n : ℕ) : Visit where
  poll := ⟨call, readout ((⟨{}, 0⟩ : Scanout).after handedOver (heldBack n)).path.dma, 0⟩
  gaps
    | 0 => arrives (lastPixel n)
    | _ + 1 => []

lemma Trace.reads (ht : Setting.Trace s marks s') : s.fbReads + marks.length ≤ s'.fbReads := by
  induction ht with
  | nil s => exact Nat.le_refl _
  | apply ha _ ih => exact (Nat.add_le_add_right (applyPendingPalette_unmoved _ _ _ ha).1.reads _).trans ih
  | @present r r' h h' marks s' ha _ ih =>
    have hreads : h.fbReads ≤ h'.fbReads := (applyPendingPalette_unmoved r h _ ha).1.reads
    have hflip := flip_reads r' h'
    have ih : (r'.flip h').2.fbReads + marks.length ≤ s'.fbReads := ih
    rw [List.length_append]
    change h.fbReads + _ ≤ _
    omega

/-- Whether the flip stays the gateware's all along. -/
def keepsFlip (r : BitmapReceiver) (h : Hub75) (g : Scanout) : List Visit → Bool
  | [] => true
  | t :: ts =>
    match ((⟨r, h, g, []⟩ : Board).asks t).run r h with
    | .ok o => o.hub.autoSwap &&
        keepsFlip o.rx o.hub ((⟨r, h, g, []⟩ : Board).gateAfter t o.hub) ts
    | .error _ => true

lemma keepsFlip_of_always {r : BitmapReceiver} {h : Hub75} {g : Scanout} {ts : List Visit}
    (ha : Always Step (fun b t => ∀ b', b.Step t b' → b.Trusts b') ⟨r, h, g, l⟩ ts) :
    keepsFlip r h g ts = true := by
  induction ts generalizing r h g l with
  | nil => rfl
  | cons t ts ih =>
    rw [keepsFlip]
    cases ho : ((⟨r, h, g, []⟩ : Board).asks t).run r h with
    | error e => rfl
    | ok o =>
      obtain ⟨l', hstep⟩ := step_exists (b := ⟨r, h, g, l⟩) (t := t) ho
      rw [Bool.and_eq_true]
      exact ⟨(ha.1 _ hstep).autoSwap, ih (ha.2 _ hstep)⟩

lemma handedOver_tick : passes (fun o => decide (o.hub.fbReads = 2))
    (((powerUp handedOver).asks (visit .tick 2)).run {} handedOver) = true := by
  decide +kernel

/-- A frame held back, and a tick. -/
theorem trusts_gateware_tick : Always Step (fun b t => ∀ b', b.Step t b' → b.Trusts b')
    (powerUp handedOver) [visit .tick 2] := by
  apply trusts_gateware rfl
  refine ⟨?_, fun _ _ => trivial⟩
  rintro _ ⟨o, marks, s, ho, ht, hs, rfl⟩
  obtain ⟨o', ho', hreads⟩ := exists_of_passes handedOver_tick
  cases ho'.symm.trans ho
  have hlen : marks.length ≤ 2 := by
    have hend : o.hub.fbReads = s.fbReads := congrArg Setting.fbReads hs
    have hle := Trace.reads ht
    rw [← hend, of_decide_eq_true hreads] at hle
    exact (Nat.le_add_left _ _).trans hle
  have hlong : ((marks.map ((powerUp handedOver).sample (visit .tick 2))).reverse ++ []).length =
      marks.length := by
    rw [List.append_nil, List.length_reverse, List.length_map]
  refine ⟨?_, ?_⟩
  · rintro l hl ⟨hnine, -⟩
    have hle : l.length ≤ marks.length := hl.length_le.trans hlong.le
    exact absurd (hnine.trans_le (hle.trans hlen)) (by decide)
  · intro x hx
    rcases List.mem_append.mp hx with hx | hx
    · obtain ⟨m, -, rfl⟩ := List.mem_map.mp (List.mem_reverse.mp hx)
      rfl
    · cases hx

/-- Eight frames held back in a row lose the gateware its flip. -/
theorem heldBack_demoted : ¬ Always Step (fun b t => ∀ b', b.Step t b' → b.Trusts b')
    (powerUp handedOver) (⟨⟨.setHwFilter true, Registers.reset, 0⟩, fun _ => []⟩ ::
      (List.range 10).map fun k => visit .presentDoneNow (k + 1)) := by
  intro ha
  have hkeeps := keepsFlip_of_always ha
  revert hkeeps
  decide +kernel

end Board

end Ledwall.Receiver
