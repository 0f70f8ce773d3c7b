import Ledwall.Library.Runs
import Ledwall.Receiver.Colours

/-! Palette packets on a one-bank bitstream: what the palette RAM holds once a pending one went in. -/

namespace Ledwall.Receiver

open BitmapReceiver Ledwall.Library.Outcomes Ledwall.Library.Runs Ledwall.Wire

namespace PaletteWrite

variable {v w : PaletteWrite}

/-- The entries of `v` are among those of `w`. -/
def Covers (w v : PaletteWrite) : Prop :=
  w.start ≤ v.start ∧ v.start + v.taken.length ≤ w.start + w.taken.length

lemma Covers.overlay (h : w.Covers v) (palette : ℕ → Word) :
    w.overlay (v.overlay palette) = w.overlay palette := by
  funext e
  obtain ⟨h₁, h₂⟩ := h
  by_cases hin : w.start ≤ e ∧ e < w.start + w.taken.length
  · simp only [PaletteWrite.overlay, if_pos hin]
  · have hout : ¬ (v.start ≤ e ∧ e < v.start + v.taken.length) := by omega
    simp only [PaletteWrite.overlay, if_neg hin, if_neg hout]

end PaletteWrite

namespace Colours

/-- The palette RAM once the waiting palette has gone in. -/
def due (c : Colours) : ℕ → Word :=
  match c.waiting with
  | some w => w.overlay c.ram
  | none => c.ram

end Colours

section Moves

variable {r r' : BitmapReceiver} {h h' : Hub75}

lemma Hub75.setPalette_overlay (w : PaletteWrite) (hb : h.paletteBanks < 2) :
    Ensures (fun h' : Hub75 => h'.paletteRam = w.overlay h.paletteRam ∧
      h'.paletteBanks = h.paletteBanks) (h.setPalette w.start w.words) := by
  have hpos : 0 < h.paletteBanks := by
    rw [Hub75.paletteBanks]
    split
    · exact Nat.zero_lt_one
    · rename_i hz
      exact Nat.pos_of_ne_zero fun h₀ => hz (BitVec.eq_of_toNat_eq h₀)
  refine (h.stash_record w).bind ?_
  rintro s rfl
  by_cases ht : w.taken = []
  · simp only [ht, List.length_nil, if_true]
    apply Ensures.ok
    refine ⟨?_, rfl⟩
    funext e
    rw [PaletteWrite.overlay, if_neg]
    rw [ht, List.length_nil]
    omega
  · have hn : w.taken.length ≠ 0 := fun h₀ => ht (List.length_eq_zero_iff.mp h₀)
    have hback : (h.record w).backPaletteBank = (0, h.record w) := if_pos hb
    have hbank : 0 < (h.record w).paletteBanks := hpos
    have hwrite := Hub75.writeBank_copies (h.record w) hbank (w.taken_le ht) (Nat.pos_of_ne_zero hn)
    simp only [if_neg ht, if_neg hn, hback, hwrite, bind, Except.bind]
    apply Ensures.ok
    refine ⟨?_, rfl⟩
    funext e
    simp only [Nat.zero_mul, Nat.zero_add, Nat.sub_zero, Hub75.record, PaletteWrite.overlay]
    split <;> rfl

lemma applyPendingPalette_due (hb : h.paletteBanks < 2) :
    Ensures (fun s : BitmapReceiver × Hub75 => (s.1.colours s.2).due = (r.colours h).due ∧
      s.1.waiting = none ∧ s.2.paletteBanks < 2) (r.applyPendingPalette h) := by
  unfold applyPendingPalette
  cases hv : r.pendingPaletteValid with
  | false =>
    apply Ensures.ok
    refine ⟨rfl, ?_, hb⟩
    rw [waiting, hv]
    rfl
  | true =>
    have hw : (r.colours h).waiting = some r.pending := if_pos hv
    refine Ensures.bind (P := fun _ => True) (fun _ _ => trivial) fun _ _ => ?_
    refine (Hub75.setPalette_overlay r.pending hb).bind fun h' hp => ?_
    apply Ensures.ok
    refine ⟨?_, rfl, hp.2 ▸ hb⟩
    rw [Colours.due, Colours.due, hw]
    exact hp.1

lemma syncBuffersFromHw_palette (h : Hub75) : h.syncBuffersFromHw.paletteRam = h.paletteRam ∧
    h.syncBuffersFromHw.hwPaletteBanks = h.hwPaletteBanks := by
  simp only [Hub75.syncBuffersFromHw]
  split <;> split <;> exact ⟨rfl, rfl⟩

lemma flip_palette : (r.flip h).1.waiting = r.waiting ∧
    (r.flip h).2.paletteRam = h.paletteRam ∧ (r.flip h).2.hwPaletteBanks = h.hwPaletteBanks := by
  simp only [BitmapReceiver.flip]
  split
  · have hsync := syncBuffersFromHw_palette h.fbBaseNow.2
    split <;> split <;> first | exact ⟨rfl, rfl, rfl⟩ | exact ⟨rfl, hsync⟩
  · exact ⟨rfl, rfl, rfl⟩

lemma flip_due : ((r.flip h).1.colours (r.flip h).2).due = (r.colours h).due := by
  obtain ⟨hw, hr, -⟩ := flip_palette (r := r) (h := h)
  have hw : ((r.flip h).1.colours (r.flip h).2).waiting = (r.colours h).waiting := hw
  have hr : ((r.flip h).1.colours (r.flip h).2).ram = (r.colours h).ram := hr
  rw [Colours.due, Colours.due, hw, hr]

/-- A setting of a one-bank bitstream in which the palette RAM will be `palette`. -/
structure Due (palette : ℕ → Word) (s : Setting) : Prop where
  banks : (if s.colours.banks = 0 then 1 else s.colours.banks.toNat) < 2
  due : s.colours.due = palette

lemma Due.move {palette : ℕ → Word} {s s' : Setting} (h : Due palette s) (hm : Setting.Move s s') :
    Due palette s' := by
  cases hm with
  | apply ha =>
    obtain ⟨hd, -, hb⟩ := applyPendingPalette_due h.banks _ ha
    exact ⟨hb, hd.trans h.due⟩
  | @present r r' h₀ h' ha =>
    obtain ⟨hd, -, hb⟩ := applyPendingPalette_due h.banks _ ha
    refine ⟨?_, flip_due.trans (hd.trans h.due)⟩
    have hbanks := (flip_palette (r := r') (h := h')).2.2
    have hb' : (r'.flip h').2.paletteBanks < 2 := by
      rw [Hub75.paletteBanks, hbanks]
      exact hb
    exact hb'

lemma Due.moves {palette : ℕ → Word} {s s' : Setting} (h : Due palette s)
    (hm : Setting.Moves s s') : Due palette s' := by
  induction hm with
  | refl => exact h
  | tail _ hmove ih => exact ih.move hmove

end Moves

namespace Poll

/-- The palette the call brings. -/
def brings (p : Poll) (r : BitmapReceiver) : Option PaletteWrite :=
  match p.call with
  | .processPacket data => if r.hold then none else paletteOf data.bytes
  | _ => none

/-- The setting once the palette the call brings is the one that waits. -/
def stashed (p : Poll) (r : BitmapReceiver) (h : Hub75) : Setting :=
  { r.setting { h with regs := p.regs } with
    colours := Hub75.colours { h with regs := p.regs } ((p.brings r).or r.waiting) }

lemma run_settles (p : Poll) (r : BitmapReceiver) (h : Hub75) :
    Ensures (fun o => Setting.Moves (p.stashed r h) (o.rx.setting o.hub) ∨
        o.rx.setting o.hub = { p.stashed r h with refusals := o.rx.refusals })
      (p.run r h) := by
  rcases p with ⟨call, regs, t⟩
  cases call with
  | processPacket data =>
    have hs : (⟨.processPacket data, regs, t⟩ : Poll).stashed r h =
        r.settingAfter { h with regs := regs } data.bytes := by
      simp only [stashed, brings, settingAfter, waitingAfter]
      split <;> rfl
    rw [hs]
    exact processPacket_settles data t
  | tick => exact (tick_settles t).mono fun o ho => .inl ho
  | presentDoneNow => exact (presentDoneNow_settles t).mono fun o ho => .inl ho
  | setHold on => exact .ok (.inl .refl)
  | setCpuPixels on =>
    cases on
    · exact .ok (.inl .refl)
    · exact .ok (.inl .refl)
  | setHwFilter on => exact .ok (.inl .refl)
  | forgetFrame => exact .ok (.inl .refl)
  | invalidateModeCache => exact .ok (.inl .refl)

end Poll

/-- The receiver and its driver; `arrived` is the history of the palette packets, oldest first. -/
structure Bench where
  rx : BitmapReceiver
  hub : Hub75
  arrived : List PaletteWrite

namespace Bench

def Step (b : Bench) (p : Poll) (b' : Bench) : Prop :=
  ∃ o, p.run b.rx b.hub = .ok o ∧ b' = ⟨o.rx, o.hub, b.arrived ++ (p.brings b.rx).toList⟩

/-- If the call puts a palette in, the RAM is then the fold of all that arrived. -/
def InOrder (palette : ℕ → Word) (b : Bench) (p : Poll) : Prop :=
  ∀ b', b.Step p b' → ((p.brings b.rx).or b.rx.waiting).isSome → b'.rx.waiting = none →
    b'.hub.paletteRam = cumulative palette b'.arrived

/-- A palette that arrives while one waits covers it. -/
def Supersedes (b : Bench) (p : Poll) : Prop :=
  ∀ w, p.brings b.rx = some w → ∀ v, b.rx.waiting = some v → w.Covers v

variable {palette : ℕ → Word} {b b' : Bench} {p : Poll}

lemma due_stashed (h : Due (cumulative palette b.arrived) (b.rx.setting b.hub)) (hc : b.Supersedes p) :
    Due (cumulative palette (b.arrived ++ (p.brings b.rx).toList)) (p.stashed b.rx b.hub) := by
  refine ⟨h.banks, ?_⟩
  have hdue := h.due
  cases hw : p.brings b.rx with
  | none =>
    simp only [Poll.stashed, hw, Option.none_or, Option.toList_none, List.append_nil]
    exact hdue
  | some w =>
    simp only [Poll.stashed, hw, Option.some_or, Option.toList_some, cumulative, List.foldl_append]
    change w.overlay b.hub.paletteRam = w.overlay (cumulative palette b.arrived)
    rw [← hdue]
    cases hv : b.rx.waiting with
    | none =>
      have hn : (b.rx.setting b.hub).colours.waiting = none := hv
      rw [Colours.due, hn]
      rfl
    | some v =>
      have hs : (b.rx.setting b.hub).colours.waiting = some v := hv
      rw [Colours.due, hs]
      exact ((hc w hw v hv).overlay _).symm

lemma due_step (h : Due (cumulative palette b.arrived) (b.rx.setting b.hub)) (hc : b.Supersedes p)
    (hs : b.Step p b') : Due (cumulative palette b'.arrived) (b'.rx.setting b'.hub) := by
  obtain ⟨o, ho, rfl⟩ := hs
  have hst := due_stashed h hc
  rcases p.run_settles b.rx b.hub o ho with hm | he
  · exact hst.moves hm
  · exact ⟨congrArg Setting.colours he ▸ hst.banks, (congrArg (·.colours.due) he).trans hst.due⟩

/-- Whenever a palette goes in, the RAM is the fold of all that arrived, in runs in which none
arrives that leaves something of a waiting one. -/
theorem inOrder_of_supersedes {b : Bench} (hbanks : b.hub.paletteBanks < 2)
    (hwaiting : b.rx.waiting = none) (harrived : b.arrived = []) {ps : List Poll}
    (hc : Always Step Supersedes b ps) : Always Step (InOrder b.hub.paletteRam) b ps := by
  apply Always.of_safe
    (I := fun b' => Due (cumulative b.hub.paletteRam b'.arrived) (b'.rx.setting b'.hub)) _ _ _ hc
  · intro b₁ p b₂ h hc hs
    exact due_step h hc hs
  · intro b₁ p h hc b₂ hs _ hnone
    have hdue := (due_step h hc hs).due
    have hn : (b₂.rx.setting b₂.hub).colours.waiting = none := hnone
    rw [Colours.due, hn] at hdue
    exact hdue
  · refine ⟨hbanks, ?_⟩
    have hn : (b.rx.setting b.hub).colours.waiting = none := hwaiting
    rw [harrived, Colours.due, hn]
    rfl

/-- A fresh receiver on a one-bank bitstream with a black palette. -/
def fresh : Bench := ⟨{}, Hub75.new (fun _ => 0) Registers.reset, []⟩

/-- A call on registers that report nothing. -/
def quiet (call : Call) (timeMs : ℤ) : Poll := ⟨call, Registers.reset, timeMs⟩

/-- A palette packet of one entry, the `entry`th. -/
def oneEntry (entry red green blue : Byte) : Call :=
  .processPacket ⟨0, [letterB, letterP, 0, 0, entry, 1, 1, 0, 1, 0, red, green, blue]⟩

theorem inOrder_of_supersedes_red :
    Always Step (InOrder fun _ => 0) fresh [quiet (oneEntry 0 255 0 0) 100, quiet .tick 300] := by
  apply inOrder_of_supersedes (b := fresh) (by decide) rfl rfl
  refine ⟨?_, ?_⟩
  · rintro w - v hv
    cases hv
  · intro b _
    refine ⟨?_, fun _ _ => trivial⟩
    rintro w hw
    cases hw

/-- Entry 0 made red, entry 1 made green a millisecond later, and the tick that applies them. -/
def redThenGreen : List Poll :=
  [quiet (oneEntry 0 255 0 0) 100, quiet (oneEntry 1 0 255 0) 101, quiet .tick 300]

/-- The red entry is lost. -/
theorem redThenGreen_loses : ¬ Always Step (InOrder fun _ => 0) fresh redThenGreen := by
  intro hall
  obtain ⟨o₁, ho₁, hp₁⟩ := exists_of_passes (p := fun o₁ : Outcome => !o₁.rx.hold &&
    passes (fun o₂ : Outcome => o₂.rx.waiting.isSome &&
      passes (fun o₃ : Outcome => o₃.rx.waiting.isNone && o₃.hub.paletteRam 0 == 0)
        ((quiet .tick 300).run o₂.rx o₂.hub))
      ((quiet (oneEntry 1 0 255 0) 101).run o₁.rx o₁.hub))
    (x := (quiet (oneEntry 0 255 0 0) 100).run fresh.rx fresh.hub) (by decide +kernel)
  simp only [Bool.and_eq_true, Bool.not_eq_true'] at hp₁
  obtain ⟨o₂, ho₂, hp₂⟩ := exists_of_passes hp₁.2
  simp only [Bool.and_eq_true] at hp₂
  obtain ⟨o₃, ho₃, hp₃⟩ := exists_of_passes hp₂.2
  simp only [Bool.and_eq_true, Option.isNone_iff_eq_none, beq_iff_eq] at hp₃
  have hram := ((hall.2 _ ⟨o₁, ho₁, rfl⟩).2 _ ⟨o₂, ho₂, rfl⟩).1 _ ⟨o₃, ho₃, rfl⟩ hp₂.1 hp₃.1
  have hred := congrFun hram 0
  have hbrings : (quiet (oneEntry 1 0 255 0) 101).brings o₁.rx = some ⟨1, [0x00FF0000]⟩ := by
    simp only [Poll.brings, quiet, oneEntry, hp₁.1]
    decide
  rw [hbrings] at hred
  rw [hp₃.2] at hred
  have hred : (0 : Word) =
      cumulative (fun _ => 0) [⟨0, [0x0000FF00]⟩, ⟨1, [0x00FF0000]⟩] 0 := hred
  exact absurd hred (by decide)

end Bench

end Ledwall.Receiver
