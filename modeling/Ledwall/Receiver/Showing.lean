import Ledwall.Receiver.RoundTrip

/-! What a card that draws with the CPU puts on the glass, over whole runs of datagrams and ticks. -/

namespace Ledwall.Receiver

open BitmapReceiver Ledwall.Library.Runs Ledwall.Wire

/-- The receiver with its driver, and beside them the assembler that says what should be shown. -/
structure Card where
  rx : BitmapReceiver
  hub : Hub75
  asm : Assembler

def Input.run : Input → BitmapReceiver → Hub75 → Except Panic Outcome
  | .chunk f i addr t, r, h => r.processPacket h ⟨addr, f.datagram i⟩ t
  | .other data t, r, h => r.processPacket h data t
  | .tick t, r, h => r.tick h t

namespace Card

def next (c : Card) (x : Input) : Assembler := (c.asm.step c.rx.hwFilterOn x).1

/-- The frames that should be shown while `x` is handled. -/
def shown (c : Card) (x : Input) : List Assembly := (c.asm.step c.rx.hwFilterOn x).2

def Step (c : Card) (x : Input) (c' : Card) : Prop :=
  ∃ o, x.run c.rx c.hub = .ok o ∧ c' = ⟨o.rx, o.hub, c.next x⟩

def start (r : BitmapReceiver) (h : Hub75) : Card := ⟨r, h, none, none⟩

end Card

/-- Chunk `i` of `f` is a datagram of some send call for the image. -/
def Emitted (width height : ℕ) (f : Frame) (i : ℕ) : Prop :=
  ∃ (s : CardStream) (picture : Picture), f = s.nextFrame picture width height ∧ i < f.total ∧
    f.datagram i ∈ (s.send picture width height).datagrams

/-- Every pixel datagram comes from a send call, and no two frames in flight share a `frame_id`. -/
def Input.Fair (width height : ℕ) (c : Card) : Input → Prop
  | .chunk f i _ _ => Emitted width height f i ∧ c.asm.Admits f
  | .other data _ => HEADER_SIZE ≤ data.bytes.length → pixelMagic data.bytes = none
  | .tick _ => True

/-- The call returns `true` exactly when it shows a frame, and its flips show those frames, as `P`
has it. -/
def Card.Flips (P : Card → Input → Flip → Assembly → Prop) (c : Card) (x : Input) : Prop :=
  ∃ o, x.run c.rx c.hub = .ok o ∧ o.presented = !(c.shown x).isEmpty ∧
    ∃ fs, o.hub.flips = c.hub.flips ++ fs ∧ List.Forall₂ (P c x) fs (c.shown x)

variable {width height : ℕ} {c : Card} {x : Input} {f : Frame} {i : ℕ}

lemma Emitted.suits (h : Emitted width height f i) : Suits width height f ∧ i < f.total := by
  obtain ⟨s, picture, rfl, hi, hm⟩ := h
  exact ⟨⟨(CardStream.mem_send hm).1, rfl, rfl⟩, hi⟩

namespace Card

lemma step_follows (hf : c.rx.PaletteFits)
    (ht : Tracks width height c.asm c.rx.progress c.hub.glass) (hx : x.Fair width height c) :
    ∃ o, x.run c.rx c.hub = .ok o ∧
      Follows width height c.rx.progress c.hub.glass (c.next x) (c.shown x) o := by
  cases x with
  | chunk f i addr t =>
    obtain ⟨hemit, hadm⟩ := hx
    obtain ⟨hs, hi⟩ := hemit.suits
    obtain ⟨o, ho, hfol, -⟩ := processPacket_chunk ⟨addr, f.datagram i⟩ t hf ht hs hi
      hadm rfl c.rx.hwFilterOn addr
    exact ⟨o, ho, hfol⟩
  | other data t => exact processPacket_other hf ht hx
  | tick t => exact tick_step hf ht

lemma shows_iff {A : Assembler} {fl : Flip} {a : Assembly} {q : Progress} {g : Glass} {agrees : Prop}
    (ht : Tracks width height A q g) (hag : agrees)
    (h : ∃ m, A.latch = some m ∧ FlipOf width height m agrees fl a) :
    Shows fl a ↔ A.latch = some a.frame.format := by
  obtain ⟨m, hm, hof⟩ := h
  obtain ⟨-, f, hf, rfl⟩ := ht.latch m hm
  rw [hm]
  constructor
  · intro hs
    have hmode := hof.mode hag
    rw [hs.mode] at hmode
    rw [hof.suits.format_eq hf hmode]
  · intro he
    have he : f.format = a.frame.format := Option.some.inj he
    exact ⟨hof.pixels he.symm, (hof.mode hag).trans (congrArg Format.isIndexed he)⟩

lemma Step.asm {c' : Card} (h : Step c x c') : c'.asm = c.next x := by
  obtain ⟨o, -, rfl⟩ := h
  rfl

/-- The invariant of a run. -/
structure Synced (width height : ℕ) (c : Card) : Prop where
  palette : c.rx.PaletteFits
  tracks : Tracks width height c.asm c.rx.progress c.hub.glass
  agrees : ModeAgrees c.rx.progress c.hub.glass

lemma synced_start {r : BitmapReceiver} {h : Hub75} (hr : Ready width height r h)
    (hm : ModeAgrees r.progress h.glass) : Synced width height (start r h) :=
  ⟨hr.reachable.kept.palette, hr.tracks, hm⟩

lemma Synced.step {c' : Card} (hc : Synced width height c) (hx : x.Fair width height c)
    (hs : Step c x c') : Synced width height c' := by
  obtain ⟨o, ho, rfl⟩ := hs
  obtain ⟨o', ho', hfol⟩ := step_follows hc.palette hc.tracks hx
  rw [ho] at ho'
  cases ho'
  exact ⟨hfol.palette, hfol.tracks, hfol.agrees hc.agrees⟩

lemma Synced.flips (hc : Synced width height c) (hx : x.Fair width height c) :
    Flips (fun c x fl a => Shows fl a ↔ (c.next x).latch = some a.frame.format) c x := by
  obtain ⟨o, ho, hfol⟩ := step_follows hc.palette hc.tracks hx
  obtain ⟨fs, hfs, -, hall⟩ := hfol.flips
  exact ⟨o, ho, hfol.presented, fs, hfs, hall.imp fun fl a h => shows_iff hfol.tracks hc.agrees h⟩

/-- Over every run: a frame put on the glass shows its own pixels, the glass before it where a chunk
is missing, and its own mode, exactly when the last pixel datagram handed in had its format. -/
theorem flips_show_iff {r : BitmapReceiver} {h : Hub75} (hr : Ready width height r h)
    (hm : ModeAgrees r.progress h.glass) (xs : List Input) (hx : Always Step (fun c x => x.Fair width height c) (start r h) xs) :
    Always Step (Flips fun c x fl a => Shows fl a ↔ (c.next x).latch = some a.frame.format)
      (start r h) xs :=
  Always.of_safe (fun _ _ _ hc hx hs => hc.step hx hs) (fun _ _ hc hx => hc.flips hx)
    (synced_start hr hm) hx

lemma modeAgrees_new (h : Hub75) : ModeAgrees (BitmapReceiver.progress {}) h.glass :=
  fun b hb => by cases hb

/-- An indexed frame of the image of `black`. -/
def blackIndexed : Frame := ⟨2, .indexed (List.replicate 488 0), 488, 1⟩

lemma blackIndexed_total : blackIndexed.total = 1 := by
  simp only [Frame.total, blackIndexed, Picture.body, List.length_replicate]
  rfl

lemma black_emitted {i : ℕ} (hi : i < 2) : Emitted 488 1 black i := by
  have hi : i < black.total := hi.trans_eq black_total.symm
  refine ⟨⟨0, 0, 0, 1⟩, .rgb (List.replicate 1464 0), rfl, hi, ?_⟩
  exact CardStream.datagram_mem_send (s := ⟨0, 0, 0, 1⟩) black_sendable hi

lemma blackIndexed_emitted : Emitted 488 1 blackIndexed 0 := by
  have hs : blackIndexed.Sendable := by
    refine ⟨by decide, by decide, by decide, ?_, ?_⟩
    · exact List.length_replicate
    · rw [blackIndexed_total]
      decide
  have hi : 0 < blackIndexed.total := Nat.lt_of_lt_of_eq Nat.zero_lt_one blackIndexed_total.symm
  refine ⟨⟨1, 0, 0, 1⟩, .indexed (List.replicate 488 0), rfl, hi, ?_⟩
  exact CardStream.datagram_mem_send (s := ⟨1, 0, 0, 1⟩) hs hi

/-- One of two chunks of the RGB frame, then the indexed frame: the flush is in the wrong mode. -/
def handover : List Input :=
  [.chunk black 0 0 0, .chunk blackIndexed 0 0 0]

lemma blackIndexed_takes : Takes blackIndexed := by
  refine ⟨?_, by decide⟩
  rw [blackIndexed_total]
  decide

lemma next_black : (start {} (blank 488 1)).next (.chunk black 0 0 0) =
    ⟨some ⟨black, {0}, 0⟩, some .narrow⟩ := by
  have hcard : ¬ (1 : ℕ) = 2 := by decide
  simp only [next, start, Assembler.step, if_pos black_takes, Assembler.kept, Assembler.join,
    Finset.notMem_empty, if_false, insert_empty_eq, Finset.card_singleton, black_total, hcard,
    black_format]

lemma step_blackIndexed (filter : Bool) :
    Assembler.step filter ⟨some ⟨black, {0}, 0⟩, some .narrow⟩ (.chunk blackIndexed 0 0 0) =
      (⟨none, some .indexed⟩, [⟨black, {0}, 0⟩, ⟨blackIndexed, {0}, 0⟩]) := by
  have hne : black ≠ blackIndexed := fun h => absurd (congrArg Frame.id h) (by decide)
  have hflush : Assembly.flush ⟨black, {0}, 0⟩ = [⟨black, {0}, 0⟩] := by
    rw [Assembly.flush, Assembly.missing, black_total]
    rfl
  simp only [Assembler.step, if_pos blackIndexed_takes, Assembler.kept, Assembler.outgoing,
    if_neg hne, hflush, Assembler.join, Finset.notMem_empty, if_false, insert_empty_eq,
    Finset.card_singleton, blackIndexed_total, if_true]
  rfl

lemma handover_fair :
    Always Step (fun c x => x.Fair 488 1 c) (start {} (blank 488 1)) handover := by
  refine ⟨⟨black_emitted (by decide), fun a ha => by cases ha⟩, ?_⟩
  rintro _ ⟨o, -, rfl⟩
  refine ⟨⟨blackIndexed_emitted, fun a ha hid => ?_⟩, fun _ _ => trivial⟩
  rw [next_black] at ha
  cases ha
  cases hid

theorem handover_flips_wrong :
    Always Step (fun c x => x.Fair 488 1 c) (start {} (blank 488 1)) handover ∧
      ¬ Always Step (Flips fun _ _ => Shows) (start {} (blank 488 1)) handover := by
  refine ⟨handover_fair, fun hall => ?_⟩
  obtain ⟨hfair, hfair'⟩ := handover_fair
  have hsynced := synced_start (ready_blank 488 1) (modeAgrees_new _)
  obtain ⟨o, ho, -⟩ := hsynced.flips hfair
  obtain ⟨c, hs⟩ : ∃ c, Step (start {} (blank 488 1)) (.chunk black 0 0 0) c := ⟨_, o, ho, rfl⟩
  have hasm := hs.asm.trans next_black
  obtain ⟨o', ho', -, fs, hfs, hshows⟩ := (hall.2 _ hs).1
  obtain ⟨o'', ho'', -, fs', hfs', hiff⟩ := (hsynced.step hfair hs).flips (hfair' _ hs).1
  cases ho'.symm.trans ho''
  cases List.append_cancel_left (hfs.symm.trans hfs')
  have hshown : c.shown (.chunk blackIndexed 0 0 0) =
      [⟨black, {0}, 0⟩, ⟨blackIndexed, {0}, 0⟩] := by
    rw [shown, hasm, step_blackIndexed]
  have hnext : (c.next (.chunk blackIndexed 0 0 0)).latch = some .indexed := by
    rw [next, hasm, step_blackIndexed]
  rw [hshown] at hshows hiff
  simp only [hnext] at hiff
  cases hshows with
  | cons hshow _ =>
    cases hiff with
    | cons hmode _ =>
      -- the latch already has the format of the indexed frame
      have hlatch := hmode.mp hshow
      rw [black_format] at hlatch
      cases hlatch

theorem flips_show_iff_black :
    Always Step (Flips fun c x fl a => Shows fl a ↔ (c.next x).latch = some a.frame.format)
      (start {} (blank 488 1)) [.chunk black 0 0 0] :=
  flips_show_iff (ready_blank 488 1) (modeAgrees_new _) _
    ⟨⟨black_emitted (by decide), fun a ha => by cases ha⟩, fun _ _ => trivial⟩

end Card

end Ledwall.Receiver
