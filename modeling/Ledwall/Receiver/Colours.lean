import Ledwall.Receiver.Settings

/-! The colours on a two-bank bitstream whose halves the CPU swaps: the banks, their generations and
the palette that waits for a swap. -/

namespace Ledwall.Receiver

open Ledwall.Library.Outcomes Ledwall.Wire

namespace Colours

def backBank (c : Colours) : ℕ := if (c.seen 0).toNat = FB_BASE_WORDS then 1 else 0

def flip (c : Colours) : Colours :=
  let active := 1 - c.active
  { c with
    active := active
    base := if active = 1 then FB_BASE_WORDS + FB_HALF_WORDS else FB_BASE_WORDS
    flips := c.flips + 1 }

/-- `n` entries of the shadow from `start` on copied to the bank being drawn into, which counts as
current from then on. -/
def copyOut (c : Colours) (start n : ℕ) : Colours :=
  { c with
    ram := fun e =>
      if c.backBank * 256 + start ≤ e ∧ e < c.backBank * 256 + start + n then
        c.shadow (e - c.backBank * 256)
      else c.ram e
    bankGen := fun b => if b = c.backBank then c.gen else c.bankGen b }

def record (c : Colours) (w : PaletteWrite) : Colours :=
  { c with shadow := w.overlay c.shadow, gen := (c.gen + 1) % 2 ^ 32 }

def settle (c : Colours) : Colours := { c with waiting := none }

def put (c : Colours) (w : PaletteWrite) : Colours :=
  if w.taken = [] then c.settle else ((c.record w).copyOut w.start w.taken.length).settle

/-- The bank the CPU reads back is the one this call saw throughout, on a two-bank bitstream whose
halves the CPU swaps. -/
structure Steady (c : Colours) : Prop where
  banks : c.banks = 2
  swap : c.autoSwap = false
  seen : ∀ n, c.seen n = c.seen 0

/-- What a call does to the colours: the waiting palette, if it goes in, goes in before the first
flip, and no flip passes a waiting palette by. -/
inductive Moves (c : Colours) : Colours → Prop
  | flips (n : ℕ) (h : n = 0 ∨ c.waiting = none) : Moves c (flip^[n] c)
  | put (n : ℕ) (w : PaletteWrite) (h : c.waiting = some w) : Moves c (flip^[n] (c.put w))

variable {c d e : Colours}

lemma backBank_lt (c : Colours) : c.backBank < 2 := by
  unfold backBank
  split <;> decide

@[simp] lemma flip_waiting (n : ℕ) : (flip^[n] c).waiting = c.waiting := by
  induction n generalizing c with
  | zero => rfl
  | succ n ih =>
    rw [Function.iterate_succ_apply, ih]
    rfl

@[simp] lemma put_waiting (w : PaletteWrite) : (c.put w).waiting = none := by
  unfold put
  split <;> rfl

lemma Steady.flip (h : c.Steady) (n : ℕ) : (Colours.flip^[n] c).Steady := by
  induction n generalizing c with
  | zero => exact h
  | succ n ih =>
    rw [Function.iterate_succ_apply]
    apply ih
    exact ⟨h.banks, h.swap, h.seen⟩

lemma Steady.put (h : c.Steady) (w : PaletteWrite) : (c.put w).Steady := by
  unfold Colours.put
  split
  · exact ⟨h.banks, h.swap, h.seen⟩
  · exact ⟨h.banks, h.swap, h.seen⟩

lemma Moves.steady (h : Moves c d) (hs : c.Steady) : d.Steady := by
  cases h with
  | flips n _ => exact hs.flip n
  | put n w _ => exact (hs.put w).flip n

lemma Moves.refl (c : Colours) : Moves c c := .flips 0 (.inl rfl)

lemma Moves.of_eq (h : d = c) : Moves c d := h ▸ .refl c

lemma Moves.trans (h : Moves c d) (h' : Moves d e) : Moves c e := by
  cases h with
  | flips n hn =>
    cases h' with
    | flips m hm =>
      rw [← Function.iterate_add_apply]
      apply Moves.flips
      rw [flip_waiting] at hm
      rcases hn with rfl | hn
      · rwa [Nat.add_zero]
      · exact .inr hn
    | put m w hw =>
      rw [flip_waiting] at hw
      have h₀ : n = 0 := by
        apply hn.resolve_right
        rw [hw]
        exact Option.some_ne_none w
      subst h₀
      exact .put m w hw
  | put n w hw =>
    cases h' with
    | flips m hm =>
      rw [← Function.iterate_add_apply]
      exact .put (m + n) w hw
    | put m v hv =>
      rw [flip_waiting, put_waiting] at hv
      cases hv

end Colours

namespace Hub75

variable {h : Hub75} {q : Option PaletteWrite}

lemma backPaletteBank_eq (hs : (h.colours q).Steady) :
    h.backPaletteBank = ((h.colours q).backBank, h.fbBaseNow.2) := by
  have hb : ¬ h.paletteBanks < 2 := by
    have hb : h.hwPaletteBanks = 2 := hs.banks
    rw [paletteBanks, hb]
    decide
  have hseen : h.regs.fbBaseNow h.fbReads = h.regs.fbBaseNow 0 := hs.seen h.fbReads
  simp only [backPaletteBank, if_neg hb, fbBaseNow, hseen]
  rfl

def record (h : Hub75) (w : PaletteWrite) : Hub75 :=
  { h with
    paletteShadow := w.overlay h.paletteShadow
    paletteGen := (h.paletteGen + 1) % 2 ^ 32 }

lemma stash_record (h : Hub75) (w : PaletteWrite) :
    Ensures (fun s : ℕ × Hub75 => s = (w.taken.length, if w.taken = [] then h else h.record w))
      (h.stash w.start w.words) := by
  unfold stash checkSlice
  refine Ensures.bind (P := fun _ => True) (fun _ _ => trivial) fun _ _ => ?_
  apply Ensures.ok
  by_cases hn : List.take (256 - min w.start 256) w.words = []
  · have hi (e : ℕ) : ¬ (w.start ≤ e ∧ e < w.start) := by omega
    simp only [PaletteWrite.taken, hn, List.length_nil, Nat.add_zero, hi, if_false, if_true,
      Nat.lt_irrefl]
  · have hp : 0 < (List.take (256 - min w.start 256) w.words).length := List.length_pos_iff.mpr hn
    have ht : w.taken ≠ [] := hn
    simp only [if_pos hp, if_neg ht]
    rfl

lemma writeBank_copies (h : Hub75) {bank start n : ℕ} (hk : bank < h.paletteBanks) (hs : start + n ≤ 256)
    (hn : 0 < n) :
    h.writeBank bank start n = .ok { h with
      paletteRam := fun e =>
        if bank * 256 + start ≤ e ∧ e < bank * 256 + start + n then h.paletteShadow (e - bank * 256)
        else h.paletteRam e } := by
  have hmin : min (start + n) 256 = start + n := min_eq_left hs
  have hc : start ≤ start + n ∧ start + n ≤ 256 := ⟨Nat.le_add_right start n, hs⟩
  have hl : ¬ 256 * h.paletteBanks ≤ bank * 256 + start := by omega
  have hlen : ((List.range' start n).map h.paletteShadow).length = n := by
    rw [List.length_map, List.length_range']
  have htake : ((List.range' start n).map h.paletteShadow).take
      (256 * h.paletteBanks - (bank * 256 + start)) = (List.range' start n).map h.paletteShadow := by
    apply List.take_of_length_le
    omega
  have hc' : bank * 256 + start ≤ bank * 256 + start + n ∧
      bank * 256 + start + n ≤ 256 * h.paletteBanks := by omega
  simp only [writeBank, hmin, checkSlice, if_pos hc, bind, Except.bind, setPaletteBank,
    Nat.add_sub_cancel_left, if_neg hl, htake, hlen, if_pos hc', pure, Except.pure]
  congr 2
  funext e
  split
  · rename_i he
    have hi : e - (bank * 256 + start) < n := by omega
    have he : start + (e - (bank * 256 + start)) = e - bank * 256 := by omega
    simp only [List.getD, List.getElem?_map, List.getElem?_range' hi, Option.map_some,
      Option.getD_some, Nat.one_mul, he]
  · rfl

lemma copyOut_colours (hs : (h.colours q).Steady) {start n : ℕ} (hn : 0 < n)
    (hle : start + n ≤ 256) :
    ∃ h', h.backPaletteBank.2.writeBank h.backPaletteBank.1 start n = .ok h' ∧
      Hub75.colours { h' with
        bankGen := fun b => if b = h.backPaletteBank.1 % 2 then h'.paletteGen else h'.bankGen b } q =
        (h.colours q).copyOut start n := by
  have hlt := (h.colours q).backBank_lt
  have hmod : (h.colours q).backBank % 2 = (h.colours q).backBank := Nat.mod_eq_of_lt hlt
  have hbanks : h.fbBaseNow.2.paletteBanks = 2 := by
    have hb : h.fbBaseNow.2.hwPaletteBanks = 2 := hs.banks
    rw [paletteBanks, hb]
    rfl
  rw [backPaletteBank_eq hs]
  refine ⟨_, writeBank_copies h.fbBaseNow.2 (hbanks ▸ hlt) hle hn, ?_⟩
  simp only [hmod]
  rfl

lemma setPalette_colours (w : PaletteWrite) (hs : (h.colours q).Steady) :
    Ensures (fun h' : Hub75 => h'.colours none = (h.colours q).put w)
      (h.setPalette w.start w.words) := by
  refine (h.stash_record w).bind ?_
  rintro s rfl
  by_cases ht : w.taken = []
  · simp only [ht, List.length_nil, if_true]
    apply Ensures.ok
    rw [Colours.put, if_pos ht]
    rfl
  · have hpos : w.taken.length ≠ 0 := fun h₀ => ht (List.length_eq_zero_iff.mp h₀)
    have hs₁ : ((h.record w).colours q).Steady := ⟨hs.banks, hs.swap, hs.seen⟩
    obtain ⟨h', hw, hc⟩ := copyOut_colours hs₁ (Nat.pos_of_ne_zero hpos) (w.taken_le ht)
    simp only [if_neg ht, if_neg hpos, hw, bind, Except.bind]
    apply Ensures.ok
    rw [Colours.put, if_neg ht]
    exact congrArg Colours.settle hc

end Hub75

namespace BitmapReceiver

open Colours

variable {r : BitmapReceiver} {h : Hub75}

lemma applyPendingPalette_moves (hs : (r.colours h).Steady) :
    Ensures (fun s : BitmapReceiver × Hub75 => Moves (r.colours h) (s.1.colours s.2) ∧
      s.1.waiting = none) (r.applyPendingPalette h) := by
  unfold applyPendingPalette
  cases hv : r.pendingPaletteValid with
  | false =>
    apply Ensures.ok
    refine ⟨.refl _, ?_⟩
    simp only [waiting, hv]
    rfl
  | true =>
    have hw : r.waiting = some r.pending := by simp only [waiting, hv, if_true]
    have hput : Ensures (fun h' : Hub75 => h'.colours none = (r.colours h).put r.pending)
        (h.setPalette r.pendingPaletteStart ((List.range r.pendingPaletteLen).map r.pendingPalette)) :=
      Hub75.setPalette_colours r.pending hs
    refine Ensures.bind (P := fun _ => True) (fun _ _ => trivial) fun _ _ => ?_
    refine hput.bind fun h' hp => ?_
    apply Ensures.ok
    refine ⟨?_, rfl⟩
    have hc : colours { r with pendingPaletteValid := false } h' = (r.colours h).put r.pending := hp
    rw [hc]
    exact .put 0 _ hw

lemma flip_colours (ha : h.autoSwap = false) :
    (r.flip h).1.colours (r.flip h).2 = (r.colours h).flip := by
  simp only [flip, ha, Bool.false_eq_true, if_false, colours, Hub75.colours, Hub75.swapBuffers,
    Colours.flip, List.length_append, List.length_singleton]

lemma flip_moves (hs : (r.colours h).Steady) (hw : r.waiting = none) :
    Moves (r.colours h) ((r.flip h).1.colours (r.flip h).2) := by
  rw [flip_colours hs.swap]
  exact .flips 1 (.inr hw)

lemma move_moves {s s' : Setting} (hm : Setting.Move s s') (hs : s.colours.Steady) :
    Moves s.colours s'.colours := by
  cases hm with
  | apply ha => exact (applyPendingPalette_moves hs _ ha).1
  | present ha =>
    obtain ⟨hm, hw⟩ := applyPendingPalette_moves hs _ ha
    exact hm.trans (flip_moves (hm.steady hs) hw)

lemma settled_moves {s s' : Setting} (hm : Setting.Moves s s') (hs : s.colours.Steady) :
    Moves s.colours s'.colours := by
  induction hm with
  | refl => exact .refl _
  | tail _ hmove ih => exact ih.trans (move_moves hmove (ih.steady hs))

abbrev Moving (r : BitmapReceiver) (h : Hub75) (x : Except Panic Outcome) : Prop :=
  Ensures (fun o => Moves (r.colours h) (o.rx.colours o.hub)) x

lemma presentDoneNow_moves (hs : (r.colours h).Steady) (t : ℤ) :
    Moving r h (r.presentDoneNow h t) :=
  (presentDoneNow_settles t).mono fun _ ho => settled_moves ho hs

lemma tick_moves (hs : (r.colours h).Steady) (t : ℤ) : Moving r h (r.tick h t) :=
  (tick_settles t).mono fun _ ho => settled_moves ho hs

lemma processPacket_moves (hs : (r.colours h).Steady) (data : Slice) (t : ℤ) :
    Ensures (fun o : Outcome => Moves (h.colours (r.waitingAfter data.bytes)) (o.rx.colours o.hub))
      (r.processPacket h data t) := by
  refine (processPacket_settles data t).mono fun o ho => ?_
  rcases ho with ho | ho
  · have hsteady : (r.settingAfter h data.bytes).colours.Steady := ⟨hs.banks, hs.swap, hs.seen⟩
    exact settled_moves ho hsteady
  · exact .of_eq (congrArg Setting.colours ho)

end BitmapReceiver

end Ledwall.Receiver
