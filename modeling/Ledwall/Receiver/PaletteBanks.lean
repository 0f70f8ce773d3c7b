import Ledwall.Receiver.Colours
import Ledwall.Receiver.Simulation

/-! The firmware's entry points over whole runs, with the two palette banks and the CPU owning the
swap: what the bank on the glass holds. -/

namespace Ledwall.Receiver

open BitmapReceiver Ledwall.Library.Outcomes Ledwall.Library.Runs Ledwall.Wire

/-- With the CPU owning the swap the register reads back the base written last. -/
def Hub75.facing (h : Hub75) (regs : Registers) : Hub75 :=
  { h with regs := { regs with fbBaseNow := fun _ => BitVec.ofNat 20 h.fbBase } }

/-- The bank the gateware looks colours up in. -/
def Hub75.liveBank (h : Hub75) : ℕ := if h.fbBase = FB_BASE_WORDS then 0 else 1

namespace BitmapReceiver

def processRawBitmap (r : BitmapReceiver) (h : Hub75) (frame : Slice) (timeMs : ℤ) :
    Except Panic Outcome := do
  let versionIhl ← frame.get 14
  let ihl := (versionIhl &&& 0x0F#8).toNat
  let data ← frame.from (14 + ihl * 4 + 8)
  r.processPacket h data timeMs

/-- One turn of the receive loop. -/
def handleBitmapSmoltcp (r : BitmapReceiver) (h : Hub75) (data : Slice) (timeMs : ℤ) :
    Except Panic Outcome :=
  r.processPacket h data timeMs

/-- What the two ticks do after a frame went up; `regs` is what the registers hold by then. -/
def catchUp (o : Outcome) (regs : Registers) : Except Panic Outcome := do
  if ¬ o.presented then return o
  let h ← (o.hub.facing regs).syncPaletteBank
  return { o with hub := h }

def bitmapTick (r : BitmapReceiver) (h : Hub75) (regs : Registers) (timeMs : ℤ) :
    Except Panic Outcome := do
  catchUp (← r.tick h timeMs) regs

def bitmapPresentTick (r : BitmapReceiver) (h : Hub75) (regs : Registers) (timeMs : ℤ) :
    Except Panic Outcome := do
  catchUp (← r.presentDoneNow h timeMs) regs

end BitmapReceiver

inductive Entry
  | processRawBitmap (frame : Slice)
  | handleBitmapSmoltcp (data : Slice)
  | bitmapTick
  | bitmapPresentTick

/-- The UDP payload an entry point is handed. -/
def Entry.payload : Entry → List Byte
  | .processRawBitmap frame =>
    frame.bytes.drop (14 + (frame.bytes.getD 14 0 &&& 0x0F#8).toNat * 4 + 8)
  | .handleBitmapSmoltcp data => data.bytes
  | .bitmapTick => []
  | .bitmapPresentTick => []

/-- A call of an entry point, with the registers it finds and those a catch-up finds after it. -/
structure Turn where
  entry : Entry
  regs : Registers
  regsAfter : Registers
  timeMs : ℤ

def Turn.run (e : Turn) (r : BitmapReceiver) (h : Hub75) : Except Panic Outcome :=
  match e.entry with
  | .processRawBitmap frame => r.processRawBitmap (h.facing e.regs) frame e.timeMs
  | .handleBitmapSmoltcp data => r.handleBitmapSmoltcp (h.facing e.regs) data e.timeMs
  | .bitmapTick => r.bitmapTick (h.facing e.regs) e.regsAfter e.timeMs
  | .bitmapPresentTick => r.bitmapPresentTick (h.facing e.regs) e.regsAfter e.timeMs

/-- The sign. `applied` is the history of the palette writes that went in, oldest first, and
`shown` is that history when the frame on the glass was presented. -/
structure Sign where
  rx : BitmapReceiver
  hub : Hub75
  applied : List PaletteWrite
  shown : List PaletteWrite

namespace Sign

/-- The palette that waits in this call: one left from before, or the one the call brings. -/
def waiting (s : Sign) (e : Turn) : Option PaletteWrite := s.rx.waitingAfter e.entry.payload

def after (s : Sign) (e : Turn) (o : Outcome) : Sign :=
  let applied :=
    if o.rx.waiting.isNone then s.applied ++ (s.waiting e).toList else s.applied
  { rx := o.rx
    hub := o.hub
    applied := applied
    shown := if s.hub.flips.length < o.hub.flips.length then applied else s.shown }

def next (s : Sign) (e : Turn) : Except Panic Sign := do
  let o ← e.run s.rx s.hub
  return s.after e o

def Step (s : Sign) (e : Turn) (s' : Sign) : Prop := s.next e = .ok s'

/-- The bank on the glass holds every palette write that went in before the frame on the glass. -/
def Coherent (palette : ℕ → Word) (s : Sign) : Prop :=
  ∀ e < 256, s.hub.paletteRam (s.hub.liveBank * 256 + e) = cumulative palette s.shown e

/-- Both banks hold the palette recorded last; no history yet. -/
structure Level (s : Sign) : Prop where
  banks : s.hub.hwPaletteBanks = 2
  swap : s.hub.autoSwap = false
  placed : s.hub.activeBuf = 0 ∧ s.hub.fbBase = FB_BASE_WORDS ∨
    s.hub.activeBuf = 1 ∧ s.hub.fbBase = FB_BASE_WORDS + FB_HALF_WORDS
  current : ∀ b < 2, s.hub.bankGen b = s.hub.paletteGen
  level : ∀ b < 2, ∀ e < 256, s.hub.paletteRam (b * 256 + e) = s.hub.paletteShadow e
  applied : s.applied = []
  shown : s.shown = []

end Sign

namespace Colours

def liveBank (c : Colours) : ℕ := if c.base = FB_BASE_WORDS then 0 else 1

def Current (c : Colours) (b : ℕ) : Prop := c.bankGen b = c.gen

/-- The registers read back the base. -/
def face (c : Colours) : Colours := { c with seen := fun _ => BitVec.ofNat 20 c.base }

/-- Two banks, and halves that the CPU swaps and that agree with the base register. -/
structure Wired (c : Colours) : Prop where
  banks : c.banks = 2
  swap : c.autoSwap = false
  placed : c.active = 0 ∧ c.base = FB_BASE_WORDS ∨
    c.active = 1 ∧ c.base = FB_BASE_WORDS + FB_HALF_WORDS

/-- The invariant of the banks. -/
structure Banked (palette : ℕ → Word) (c : Colours) (applied shown : List PaletteWrite) : Prop where
  banks : c.banks = 2
  swap : c.autoSwap = false
  placed : c.active = 0 ∧ c.base = FB_BASE_WORDS ∨
    c.active = 1 ∧ c.base = FB_BASE_WORDS + FB_HALF_WORDS
  shadow : c.shadow = cumulative palette applied
  older : ∀ b < 2, c.bankGen b ≤ c.gen
  current : ∀ b < 2, c.Current b → ∀ e < 256, c.ram (b * 256 + e) = c.shadow e
  glass : ∀ e < 256, c.ram (c.liveBank * 256 + e) = cumulative palette shown e

variable {palette : ℕ → Word} {c d : Colours} {applied shown : List PaletteWrite}
  {w : PaletteWrite}

lemma liveBank_lt (c : Colours) : c.liveBank < 2 := by
  unfold liveBank
  split <;> decide

lemma Wired.face (h : c.Wired) : c.face.Wired := ⟨h.banks, h.swap, h.placed⟩

lemma Wired.flip_liveBank (h : c.Wired) : c.flip.liveBank = 1 - c.liveBank := by
  rcases h.placed with ⟨ha, hb⟩ | ⟨ha, hb⟩
  · simp only [liveBank, Colours.flip, ha, hb]
    decide
  · simp only [liveBank, Colours.flip, ha, hb]
    decide

lemma Wired.flip (h : c.Wired) : c.flip.Wired := by
  refine ⟨h.banks, h.swap, ?_⟩
  rcases h.placed with ⟨ha, -⟩ | ⟨ha, -⟩
  · right
    simp only [Colours.flip, ha]
    decide
  · left
    simp only [Colours.flip, ha]
    decide

lemma Wired.flips (h : c.Wired) (n : ℕ) : (Colours.flip^[n] c).Wired := by
  induction n generalizing c with
  | zero => exact h
  | succ n ih =>
    rw [Function.iterate_succ_apply]
    exact ih h.flip

lemma Wired.put (h : c.Wired) (w : PaletteWrite) : (c.put w).Wired := by
  unfold Colours.put
  split
  · exact ⟨h.banks, h.swap, h.placed⟩
  · exact ⟨h.banks, h.swap, h.placed⟩

lemma Wired.moves (h : c.Wired) (hm : Moves c d) : d.Wired := by
  cases hm with
  | flips n _ => exact h.flips n
  | put n w _ => exact (h.put w).flips n

lemma Wired.steady (h : c.Wired) : c.face.Steady := ⟨h.banks, h.swap, fun _ => rfl⟩

lemma Wired.backBank (h : c.Wired) : c.face.backBank = 1 - c.face.liveBank := by
  have hlt : c.base < 2 ^ 20 := by
    rcases h.placed with ⟨-, hb⟩ | ⟨-, hb⟩
    · rw [hb]
      decide
    · rw [hb]
      decide
  have hseen : (c.face.seen 0).toNat = c.base :=
    (BitVec.toNat_ofNat c.base 20).trans (Nat.mod_eq_of_lt hlt)
  have hbase : c.face.base = c.base := rfl
  rw [Colours.backBank, liveBank, hseen, hbase]
  split <;> rfl

lemma Banked.wired (h : Banked palette c applied shown) : c.Wired := ⟨h.banks, h.swap, h.placed⟩

lemma Banked.face (h : Banked palette c applied shown) : Banked palette c.face applied shown :=
  ⟨h.banks, h.swap, h.placed, h.shadow, h.older, h.current, h.glass⟩

lemma Banked.settle (h : Banked palette c applied shown) : Banked palette c.settle applied shown :=
  ⟨h.banks, h.swap, h.placed, h.shadow, h.older, h.current, h.glass⟩

lemma Banked.copyOut (h : Banked palette c applied shown) (hb : c.backBank = 1 - c.liveBank)
    {start n : ℕ} (hn : start + n ≤ 256)
    (hw : ∀ e < 256, ¬ (start ≤ e ∧ e < start + n) → c.ram (c.backBank * 256 + e) = c.shadow e) :
    Banked palette (c.copyOut start n) applied shown := by
  have hlive := c.liveBank_lt
  have hback := c.backBank_lt
  have hother (e : ℕ) (b : ℕ) (hbb : b < 2) (hne : b ≠ c.backBank) (he : e < 256) :
      (c.copyOut start n).ram (b * 256 + e) = c.ram (b * 256 + e) := by
    apply if_neg
    omega
  refine ⟨h.banks, h.swap, h.placed, h.shadow, ?_, ?_, ?_⟩
  · intro b hbb
    simp only [Colours.copyOut]
    split
    · exact le_rfl
    · exact h.older b hbb
  · intro b hbb hc e he
    by_cases hbk : b = c.backBank
    · subst hbk
      simp only [Colours.copyOut, Nat.add_sub_cancel_left]
      split
      · rfl
      · rename_i hout
        exact hw e he (by omega)
    · rw [hother e b hbb hbk he]
      simp only [Current, Colours.copyOut, if_neg hbk] at hc
      exact h.current b hbb hc e he
  · intro e he
    have hl : (c.copyOut start n).liveBank = c.liveBank := rfl
    rw [hl, hother e c.liveBank hlive (by omega) he]
    exact h.glass e he

lemma Banked.record (h : Banked palette c applied shown) (hg : c.gen + 1 < 2 ^ 32) :
    Banked palette (c.record w) (applied ++ [w]) shown := by
  have hmod : (c.record w).gen = c.gen + 1 := Nat.mod_eq_of_lt hg
  refine ⟨h.banks, h.swap, h.placed, ?_, ?_, ?_, h.glass⟩
  · simp only [Colours.record, cumulative, List.foldl_append, List.foldl_cons, List.foldl_nil]
    rw [h.shadow]
    rfl
  · intro b hb
    rw [hmod]
    exact (h.older b hb).trans (Nat.le_succ _)
  · intro b hb hc
    have ho : (c.record w).bankGen b ≤ c.gen := h.older b hb
    rw [Current, hmod] at hc
    omega

lemma overlay_outside {e : ℕ} (shadow : ℕ → Word)
    (h : ¬ (w.start ≤ e ∧ e < w.start + w.taken.length)) : w.overlay shadow e = shadow e := if_neg h

lemma overlay_nil (shadow : ℕ → Word) (h : w.taken = []) : w.overlay shadow = shadow := by
  funext e
  apply overlay_outside
  rw [h, List.length_nil]
  omega

lemma Banked.put (h : Banked palette c applied shown) (hb : c.backBank = 1 - c.liveBank)
    (hg : c.gen + 1 < 2 ^ 32) (hw : w.taken ≠ [] → c.Current c.backBank ∨ w.Whole) :
    Banked palette (c.put w) (applied ++ [w]) shown := by
  unfold Colours.put
  split
  · rename_i ht
    refine ⟨h.banks, h.swap, h.placed, ?_, h.older, h.current, h.glass⟩
    simp only [cumulative, List.foldl_append, List.foldl_cons, List.foldl_nil, overlay_nil _ ht]
    exact h.shadow
  · rename_i ht
    apply Banked.settle
    apply (h.record hg).copyOut hb (w.taken_le ht)
    intro e he hout
    have hs : (c.record w).shadow e = c.shadow e := overlay_outside c.shadow hout
    rw [hs]
    rcases hw ht with hcur | hwhole
    · exact h.current _ c.backBank_lt hcur e he
    · rw [hwhole.taken_length, hwhole.1] at hout
      omega

lemma put_current (ht : w.taken ≠ []) : (c.put w).Current c.backBank := by
  have hb : (c.record w).backBank = c.backBank := rfl
  simp only [Colours.put, if_neg ht, Current, Colours.settle, Colours.copyOut, hb, if_true]

lemma Banked.flip (h : Banked palette c applied shown) (hc : c.Current (1 - c.liveBank)) :
    Banked palette c.flip applied applied := by
  have hwired := h.wired.flip
  refine ⟨hwired.banks, hwired.swap, hwired.placed, h.shadow, h.older, h.current, ?_⟩
  intro e he
  rw [h.wired.flip_liveBank, ← h.shadow]
  exact h.current _ (by omega) hc e he

@[simp] lemma current_flips (n b : ℕ) : (Colours.flip^[n] c).Current b ↔ c.Current b := by
  induction n generalizing c with
  | zero => rfl
  | succ n ih =>
    rw [Function.iterate_succ_apply, ih]
    rfl

lemma Banked.flips (h : Banked palette c applied shown) (n : ℕ)
    (hone : 0 < n → c.Current (1 - c.liveBank)) (htwo : 1 < n → ∀ b < 2, c.Current b) :
    Banked palette (Colours.flip^[n] c) applied (if 0 < n then applied else shown) := by
  induction n with
  | zero => exact h
  | succ n ih =>
    have hn := ih (fun _ => hone (Nat.zero_lt_succ n)) (fun h₁ => htwo (by omega))
    rw [Function.iterate_succ_apply', if_pos (Nat.zero_lt_succ n)]
    apply hn.flip
    rw [current_flips]
    cases n with
    | zero => exact hone Nat.one_pos
    | succ n => exact htwo (by omega) _ (by omega)

lemma flips_flips (n : ℕ) : (Colours.flip^[n] c).flips = c.flips + n := by
  induction n generalizing c with
  | zero => rfl
  | succ n ih =>
    rw [Function.iterate_succ_apply, ih]
    simp only [Colours.flip]
    omega

lemma put_flips (w : PaletteWrite) : (c.put w).flips = c.flips := by
  unfold Colours.put
  split <;> rfl

lemma put_liveBank (w : PaletteWrite) : (c.put w).liveBank = c.liveBank := by
  unfold Colours.put
  split <;> rfl

/-- What a call that flips `n` times must find, `goesIn` when the waiting palette goes in. -/
structure Safe (c : Colours) (goesIn : Bool) (n : ℕ) : Prop where
  counted : c.gen + 1 < 2 ^ 32
  whole : goesIn → ∀ w ∈ c.waiting, w.taken ≠ [] → c.Current (1 - c.liveBank) ∨ w.Whole
  once : 0 < n → c.Current (1 - c.liveBank) ∨ ∃ w ∈ c.waiting, w.taken ≠ []
  twice : 1 < n → (∀ b < 2, c.Current b) ∧ ∀ w ∈ c.waiting, w.taken = []

lemma Banked.moves (h : Banked palette c applied shown) (hb : c.backBank = 1 - c.liveBank)
    (hm : Moves c d) (hs : Safe c d.waiting.isNone (d.flips - c.flips)) :
    let applied' := if d.waiting.isNone then applied ++ c.waiting.toList else applied
    Banked palette d applied' (if c.flips < d.flips then applied' else shown) := by
  cases hm with
  | flips n hn =>
    have hcount : (Colours.flip^[n] c).flips - c.flips = n := by
      rw [flips_flips]
      omega
    have hpos : c.flips < (Colours.flip^[n] c).flips ↔ 0 < n := by
      rw [flips_flips]
      omega
    rw [hcount] at hs
    have hsame : (if (Colours.flip^[n] c).waiting.isNone then applied ++ c.waiting.toList
        else applied) = applied := by
      rw [flip_waiting]
      cases hw : c.waiting with
      | none => exact List.append_nil applied
      | some w => rfl
    simp only [hsame, hpos]
    apply h.flips n
    · intro h₀
      rcases hs.once h₀ with hc | ⟨w, hw, -⟩
      · exact hc
      · rcases hn with hn | hn
        · omega
        · rw [hn] at hw
          cases hw
    · exact fun h₁ => (hs.twice h₁).1
  | put n w hw =>
    have hcount : (Colours.flip^[n] (c.put w)).flips - c.flips = n := by
      rw [flips_flips, put_flips]
      omega
    have hpos : c.flips < (Colours.flip^[n] (c.put w)).flips ↔ 0 < n := by
      rw [flips_flips, put_flips]
      omega
    rw [hcount] at hs
    have hnone : (Colours.flip^[n] (c.put w)).waiting.isNone = true := by
      rw [flip_waiting, put_waiting]
      rfl
    rw [hnone] at hs
    simp only [hnone, if_true, hw, Option.toList_some, hpos]
    have hin := hs.whole rfl w hw
    rw [← hb] at hin
    apply (h.put hb hs.counted hin).flips n
    · intro h₀
      rw [put_liveBank]
      by_cases ht : w.taken = []
      · have hput : c.put w = c.settle := if_pos ht
        rw [hput]
        rcases hs.once h₀ with hc | ⟨v, hv, hne⟩
        · exact hc
        · rw [hw] at hv
          cases hv
          exact absurd ht hne
      · rw [← hb]
        exact put_current ht
    · intro h₁
      obtain ⟨hall, hempty⟩ := hs.twice h₁
      have hput : c.put w = c.settle := if_pos (hempty w hw)
      rw [hput]
      exact hall

/-- What a catch-up can do: nothing, or copy the shadow to the bank it sees at the back. -/
inductive Synced (c : Colours) : Colours → Prop
  | refl : Synced c c
  | face : Synced c c.face
  | copied : Synced c (c.face.copyOut 0 256)

lemma Banked.synced (h : Banked palette c applied shown) (hs : Synced c d) :
    Banked palette d applied shown := by
  cases hs with
  | refl => exact h
  | face => exact h.face
  | copied =>
    apply h.face.copyOut h.wired.backBank le_rfl
    intro e he hout
    omega

lemma Wired.synced (h : c.Wired) (hs : Synced c d) : d.Wired := by
  cases hs with
  | refl => exact h
  | face => exact h.face
  | copied => exact ⟨h.banks, h.swap, h.placed⟩

lemma Synced.waiting (hs : Synced c d) : d.waiting = c.waiting := by
  cases hs <;> rfl

lemma Synced.flips (hs : Synced c d) : d.flips = c.flips := by
  cases hs <;> rfl

end Colours

open Colours

lemma Hub75.syncPaletteBank_colours {h : Hub75} {q : Option PaletteWrite}
    (hs : (h.colours q).Steady) :
    Ensures (fun h' : Hub75 => h'.colours q = h.colours q ∨
      h'.colours q = (h.colours q).copyOut 0 256) h.syncPaletteBank := by
  unfold syncPaletteBank
  split
  · exact .ok (.inl rfl)
  · obtain ⟨h', hw, hc⟩ := copyOut_colours hs (Nat.zero_lt_succ 255) le_rfl
    dsimp only
    split
    · apply Ensures.ok
      left
      rw [backPaletteBank_eq hs]
      rfl
    · rw [hw]
      exact .ok (.inr hc)

lemma BitmapReceiver.catchUp_synced {o : Outcome} (regs : Registers)
    (hs : (o.rx.colours o.hub).face.Steady) :
    Ensures (fun o' : Outcome => Synced (o.rx.colours o.hub) (o'.rx.colours o'.hub))
      (catchUp o regs) := by
  unfold catchUp
  split
  · exact .ok .refl
  · refine (Hub75.syncPaletteBank_colours (h := o.hub.facing regs) hs).bind ?_
    rintro h' (he | he)
    · apply Ensures.ok
      exact Eq.subst he.symm Synced.face
    · apply Ensures.ok
      exact Eq.subst he.symm Synced.copied

namespace Sign

variable {s s' : Sign} {e : Turn}

/-- The colours as the call finds them. -/
def found (s : Sign) (e : Turn) : Colours := (s.hub.colours (s.waiting e)).face

lemma run_moves (hs : (s.found e).Steady) :
    Ensures (fun o : Outcome => ∃ c, Moves (s.found e) c ∧ Synced c (o.rx.colours o.hub))
      (e.run s.rx s.hub) := by
  have hnone : s.rx.waitingAfter [] = s.rx.waiting := waitingAfter_of_none rfl
  rcases e with ⟨entry, regs, regsAfter, t⟩
  have hsteady : (s.rx.colours (s.hub.facing regs)).Steady := ⟨hs.banks, hs.swap, fun _ => rfl⟩
  have htick {x : Except Panic Outcome} (hw : s.rx.waitingAfter entry.payload = s.rx.waiting)
      (hx : Moving s.rx (s.hub.facing regs) x) :
      Ensures (fun o : Outcome => ∃ c, Moves (s.found ⟨entry, regs, regsAfter, t⟩) c ∧
        Synced c (o.rx.colours o.hub)) (x.bind fun o => catchUp o regsAfter) := by
    have hf : s.found ⟨entry, regs, regsAfter, t⟩ = s.rx.colours (s.hub.facing regs) := by
      rw [found, waiting, hw]
      rfl
    rw [hf]
    refine hx.bind fun o ho => ?_
    have hface : (o.rx.colours o.hub).face.Steady :=
      ⟨(ho.steady hsteady).banks, (ho.steady hsteady).swap, fun _ => rfl⟩
    exact (catchUp_synced regsAfter hface).mono fun o' ho' => ⟨_, ho, ho'⟩
  cases entry with
  | processRawBitmap frame =>
    simp only [Turn.run, processRawBitmap]
    by_cases hlen : 14 < frame.bytes.length
    · rw [frame.get_ok hlen]
      simp only [bind, Except.bind]
      by_cases hoff : 14 + (frame.bytes.getD 14 0 &&& 0x0F#8).toNat * 4 + 8 ≤ frame.bytes.length
      · rw [frame.from_ok hoff]
        exact (processPacket_moves hsteady _ t).mono fun o ho => ⟨_, ho, .refl⟩
      · have herr : frame.from (14 + (frame.bytes.getD 14 0 &&& 0x0F#8).toNat * 4 + 8) =
            .error .sliceOutOfBounds := by
          simp only [Slice.from, checkSlice]
          rw [if_neg (by omega)]
          rfl
        rw [herr]
        exact .error _ _
    · have herr : frame.get 14 = .error .indexOutOfBounds := by
        simp only [Slice.get, checkIndex]
        rw [if_neg hlen]
        rfl
      rw [herr]
      exact .error _ _
  | handleBitmapSmoltcp data =>
    exact (processPacket_moves hsteady data t).mono fun o ho => ⟨_, ho, .refl⟩
  | bitmapTick => exact htick hnone (tick_moves hsteady t)
  | bitmapPresentTick => exact htick hnone (presentDoneNow_moves hsteady t)

/-- The condition on a call: every bank it will show has been brought up to date before it. -/
def Meets (s : Sign) (e : Turn) : Prop :=
  ∀ o, e.run s.rx s.hub = .ok o →
    Safe (s.found e) o.rx.waiting.isNone (o.hub.flips.length - s.hub.flips.length)

def Invariant (palette : ℕ → Word) (s : Sign) : Prop :=
  Banked palette (s.rx.colours s.hub) s.applied s.shown

variable {palette : ℕ → Word}

lemma Invariant.coherent (h : Invariant palette s) : s.Coherent palette := h.glass

lemma Level.invariant (h : s.Level) : Invariant s.hub.paletteShadow s where
  banks := h.banks
  swap := h.swap
  placed := h.placed
  shadow := by
    rw [h.applied]
    rfl
  older b hb := (h.current b hb).le
  current b hb _ e he := h.level b hb e he
  glass e he := by
    rw [h.shown]
    exact h.level _ (liveBank_lt _) e he

lemma Invariant.step (h : Invariant palette s) (hm : s.Meets e) (hn : s.Step e s') :
    Invariant palette s' := by
  have hbanked : Banked palette (s.hub.colours (s.waiting e)) s.applied s.shown :=
    ⟨h.banks, h.swap, h.placed, h.shadow, h.older, h.current, h.glass⟩
  cases ho : e.run s.rx s.hub with
  | error p =>
    simp only [Step, next, ho] at hn
    cases hn
  | ok o =>
    have hs : s.after e o = s' := by
      simp only [Step, next, ho] at hn
      exact Except.ok.inj hn
    subst hs
    obtain ⟨c, hmoves, hsync⟩ := run_moves hbanked.wired.steady o ho
    have hsafe := hm o ho
    have hwaiting : o.rx.waiting = c.waiting := hsync.waiting
    have hflips : o.hub.flips.length = c.flips := hsync.flips
    rw [hwaiting, hflips] at hsafe
    have hmoved := hbanked.face.moves hbanked.wired.backBank hmoves hsafe
    rw [← hwaiting, ← hflips] at hmoved
    exact hmoved.synced hsync

/-- Whenever the calls of a run find the banks they will show up to date, the bank on the glass is
coherent in every state the run reaches. -/
theorem coherent_of_meets {es : List Turn} (hs : s.Level) (h : Run Step s es s')
    (hm : Always Step Meets s es) : s'.Coherent s.hub.paletteShadow := by
  apply Invariant.coherent
  exact h.invariant (fun s e t hi hc he => hi.step hc he) hs.invariant hm

section Runs

instance (c : Colours) (goesIn : Bool) (n : ℕ) : Decidable (Safe c goesIn n) :=
  have (b : ℕ) : Decidable (c.Current b) := inferInstanceAs (Decidable (_ = _))
  have (w : PaletteWrite) : Decidable w.Whole := inferInstanceAs (Decidable (_ ∧ _))
  decidable_of_iff
    (c.gen + 1 < 2 ^ 32 ∧
      (goesIn → ∀ w ∈ c.waiting, w.taken ≠ [] → c.Current (1 - c.liveBank) ∨ w.Whole) ∧
      (0 < n → c.Current (1 - c.liveBank) ∨ ∃ w ∈ c.waiting, w.taken ≠ []) ∧
      (1 < n → (∀ b < 2, c.Current b) ∧ ∀ w ∈ c.waiting, w.taken = []))
    ⟨fun h => ⟨h.1, h.2.1, h.2.2.1, h.2.2.2⟩, fun h => ⟨h.counted, h.whole, h.once, h.twice⟩⟩

/-- The run on the turns, with the condition checked at each. -/
def play (s : Sign) : List Turn → Option (Bool × Sign)
  | [] => some (true, s)
  | e :: es =>
    match e.run s.rx s.hub with
    | .error _ => none
    | .ok o =>
      let safe := decide (Safe (s.found e) o.rx.waiting.isNone
        (o.hub.flips.length - s.hub.flips.length))
      ((s.after e o).play es).map fun x => (safe && x.1, x.2)

lemma play_run {es : List Turn} {x : Bool × Sign} (h : s.play es = some x) :
    Run Step s es x.2 ∧ (x.1 = true → Always Step Meets s es) := by
  induction es generalizing s x with
  | nil =>
    cases h
    exact ⟨.nil s, fun _ => trivial⟩
  | cons e es ih =>
    simp only [play] at h
    cases ho : e.run s.rx s.hub with
    | error p =>
      rw [ho] at h
      cases h
    | ok o =>
      rw [ho] at h
      obtain ⟨y, hy, rfl⟩ := Option.map_eq_some_iff.mp h
      obtain ⟨hrun, halways⟩ := ih hy
      have hstep : s.Step e (s.after e o) := by
        simp only [Step, next, ho]
        rfl
      refine ⟨.cons hstep hrun, fun hx => ?_⟩
      simp only [Bool.and_eq_true, decide_eq_true_eq] at hx
      refine ⟨fun o' ho' => ?_, fun t ht => ?_⟩
      · cases ho.symm.trans ho'
        exact hx.1
      · have he : s.after e o = t := Except.ok.inj (hstep.symm.trans ht)
        rw [← he]
        exact halways hx.2

end Runs

/-- A two-bank sign for an image of `width` by `height` at power-up. -/
def powerUp (width height : BitVec 16) : Sign :=
  ⟨{}, { blank width height with hwPaletteBanks := 2 }, [], []⟩

lemma level_powerUp (width height : BitVec 16) : (powerUp width height).Level :=
  ⟨rfl, rfl, .inl ⟨rfl, rfl⟩, fun _ _ => rfl, fun _ _ _ _ => rfl, rfl, rfl⟩

/-- An Ethernet frame to UDP port 7000. -/
def toPanel (payload : List Byte) : Slice :=
  ⟨0, List.replicate 12 0 ++ [0x08, 0x00, 0x45] ++ List.replicate 8 0 ++ [17] ++
    List.replicate 12 0 ++ [0x1B, 0x58] ++ List.replicate 4 0 ++ payload⟩

def fastPath (payload : List Byte) (timeMs : ℤ) : Turn :=
  ⟨.processRawBitmap (toPanel payload), Registers.reset, Registers.reset, timeMs⟩

/-- Entry 0 of the palette set to red while nothing streams. -/
def redEntry : Turn := fastPath [0x42, 0x50, 0, 0, 0, 1, 1, 0, 1, 0, 255, 0, 0] 1000

def dot (id : ℕ) : Turn := fastPath ((⟨id, .indexed [0], 1, 1⟩ : Frame).datagram 0) 1000

/-- A palette and one frame: what is on the glass is coherent. -/
theorem coherent_first_dot : ∃ t, Run Step (powerUp 1 1) [redEntry, dot 1] t ∧
    t.Coherent (powerUp 1 1).hub.paletteShadow := by
  have hp : ((powerUp 1 1).play [redEntry, dot 1]).any (fun x => x.1) = true := by decide +kernel
  obtain ⟨x, hx, hsafe⟩ := (Option.any_eq_true _ _).mp hp
  obtain ⟨hrun, hmeets⟩ := play_run hx
  exact ⟨x.2, hrun, coherent_of_meets (level_powerUp 1 1) hrun (hmeets hsafe)⟩

/-- A palette and two frames on the fast path: the second shows the bank the palette never
reached. -/
theorem not_coherent_second_dot : ∃ t, Run Step (powerUp 1 1) [redEntry, dot 1, dot 2] t ∧
    ¬ t.Coherent (powerUp 1 1).hub.paletteShadow := by
  have hp : ((powerUp 1 1).play [redEntry, dot 1, dot 2]).any (fun x =>
      x.2.hub.liveBank = 0 ∧ x.2.hub.paletteRam 0 = 0 ∧
        cumulative (fun _ => 0) x.2.shown 0 = 0xFF00) = true := by decide +kernel
  obtain ⟨x, hx, hstale⟩ := (Option.any_eq_true _ _).mp hp
  obtain ⟨hlive, hram, hshown⟩ := of_decide_eq_true hstale
  refine ⟨x.2, (play_run hx).1, fun hc => ?_⟩
  have h₀ := hc 0 (by decide)
  rw [hlive] at h₀
  have hword : (0 : Word) = 0xFF00 := hram.symm.trans (h₀.trans hshown)
  exact absurd hword (by decide)

end Sign

end Ledwall.Receiver
