import Ledwall.Receiver.Calls

/-! What the receiver's calls do besides the frame in progress: a palette goes in, the halves are
flipped, a packet is counted as a bad one. -/

namespace Ledwall.Receiver

open Ledwall.Library.Outcomes Ledwall.Wire

/-- A run of palette words for the entries from `start` on. -/
structure PaletteWrite where
  start : ℕ
  words : List Word
  deriving DecidableEq

namespace PaletteWrite

/-- The words that fit. -/
def taken (w : PaletteWrite) : List Word := w.words.take (256 - min w.start 256)

def overlay (w : PaletteWrite) (palette : ℕ → Word) (e : ℕ) : Word :=
  if w.start ≤ e ∧ e < w.start + w.taken.length then w.taken.getD (e - w.start) 0 else palette e

def Whole (w : PaletteWrite) : Prop := w.start = 0 ∧ 256 ≤ w.words.length

lemma taken_le (w : PaletteWrite) (h : w.taken ≠ []) : w.start + w.taken.length ≤ 256 := by
  have hpos : 0 < w.taken.length := List.length_pos_iff.mpr h
  simp only [taken, List.length_take] at hpos ⊢
  omega

lemma Whole.taken_length {w : PaletteWrite} (h : w.Whole) : w.taken.length = 256 := by
  obtain ⟨hs, hl⟩ := h
  simp only [taken, List.length_take]
  omega

end PaletteWrite

/-- The cumulative effect of palette writes, in order. -/
def cumulative (palette : ℕ → Word) (ws : List PaletteWrite) : ℕ → Word :=
  ws.foldl (fun p w => w.overlay p) palette

/-- The part of the receiver and of its driver the colours are made of. -/
structure Colours where
  waiting : Option PaletteWrite
  shadow : ℕ → Word
  gen : ℕ
  bankGen : ℕ → ℕ
  ram : ℕ → Word
  banks : Byte
  base : ℕ
  active : ℕ
  autoSwap : Bool
  seen : ℕ → BitVec 20
  flips : ℕ

namespace Hub75

def colours (h : Hub75) (waiting : Option PaletteWrite) : Colours where
  waiting := waiting
  shadow := h.paletteShadow
  gen := h.paletteGen
  bankGen := h.bankGen
  ram := h.paletteRam
  banks := h.hwPaletteBanks
  base := h.fbBase
  active := h.activeBuf
  autoSwap := h.autoSwap
  seen := h.regs.fbBaseNow
  flips := h.flips.length

end Hub75

namespace BitmapReceiver

def pending (r : BitmapReceiver) : PaletteWrite :=
  ⟨r.pendingPaletteStart, (List.range r.pendingPaletteLen).map r.pendingPalette⟩

def waiting (r : BitmapReceiver) : Option PaletteWrite :=
  if r.pendingPaletteValid then some r.pending else none

def colours (r : BitmapReceiver) (h : Hub75) : Colours := h.colours r.waiting

end BitmapReceiver

/-- The palette, the flips and the counters of packets thrown away: bad magic, bad header, bad
size. -/
structure Setting where
  colours : Colours
  refusals : ℕ × ℕ × ℕ
  stuck : ℕ
  lastBase : ℕ
  fbReads : ℕ

namespace BitmapReceiver

def refusals (r : BitmapReceiver) : ℕ × ℕ × ℕ :=
  (r.stats.packetsBadMagic, r.stats.packetsBadHeader, r.stats.packetsBadSize)

def setting (r : BitmapReceiver) (h : Hub75) : Setting where
  colours := r.colours h
  refusals := r.refusals
  stuck := r.fbBaseStuck
  lastBase := r.lastFbBase
  fbReads := h.fbReads

end BitmapReceiver

namespace Setting

/-- The pending palette goes in, and the halves may be flipped after it. -/
inductive Move : Setting → Setting → Prop
  | apply {r r' : BitmapReceiver} {h h' : Hub75} (ha : r.applyPendingPalette h = .ok (r', h')) :
      Move (r.setting h) (r'.setting h')
  | present {r r' : BitmapReceiver} {h h' : Hub75} (ha : r.applyPendingPalette h = .ok (r', h')) :
      Move (r.setting h) ((r'.flip h').1.setting (r'.flip h').2)

abbrev Moves : Setting → Setting → Prop := Relation.ReflTransGen Move

lemma Moves.of_eq {s s' : Setting} (h : s' = s) : Moves s s' := h ▸ .refl

end Setting

namespace BitmapReceiver

open Setting

variable {r : BitmapReceiver} {h : Hub75}

/-- All the call does to the setting are moves. -/
abbrev Settles (r : BitmapReceiver) (h : Hub75) (x : Except Panic Outcome) : Prop :=
  Ensures (fun o => Moves (r.setting h) (o.rx.setting o.hub)) x

lemma applyMode_setting (indexed : Bool) :
    (r.applyMode h indexed).1.setting (r.applyMode h indexed).2 = r.setting h := by
  unfold applyMode
  split <;> rfl

lemma localiseDamage_setting (expected missing : ℕ) :
    Ensures (fun s => s.setting h = r.setting h) (r.localiseDamage expected missing) := by
  unfold localiseDamage
  dsimp only
  split
  · refine Ensures.bind (P := fun _ => True) (fun _ _ => trivial) fun b _ => ?_
    exact .ok rfl
  · exact .ok rfl

lemma repairFromFront_setting (r : BitmapReceiver) (offset len : ℕ) :
    Ensures (fun h' => r.setting h' = r.setting h) (h.repairFromFront offset len) := by
  unfold Hub75.repairFromFront
  split
  · exact .ok rfl
  · refine Ensures.bind (P := fun _ => True) (fun _ _ => trivial) fun _ _ => ?_
    exact .ok rfl

lemma repairMissing_setting (expected : ℕ) :
    Ensures (fun s : BitmapReceiver × Hub75 => s.1.setting s.2 = r.setting h)
      (r.repairMissing h expected) := by
  refine Ensures.foldlM (Q := fun s : BitmapReceiver × Hub75 => s.1.setting s.2 = r.setting h) rfl ?_
  intro s hs idx _
  refine Ensures.bind (P := fun _ => True) (fun _ _ => trivial) fun b _ => ?_
  split
  · exact .ok hs
  · dsimp only
    split
    · exact .ok hs
    · refine (repairFromFront_setting s.1 _ _).bind fun h' hh => ?_
      apply Ensures.ok
      exact hh.trans hs

lemma repairOrComplete_setting (expected missing : ℕ) :
    Ensures (fun s : BitmapReceiver × Hub75 => s.1.setting s.2 = r.setting h)
      (r.repairOrComplete h expected missing) := by
  unfold repairOrComplete
  split
  · refine (repairMissing_setting expected).bind fun s hs => ?_
    exact .ok hs
  · exact .ok rfl

lemma updateTiming_setting (t : ℤ) : (r.updateTiming t).setting h = r.setting h := by
  unfold updateTiming
  split <;> rfl

lemma resetFrame_setting : r.resetFrame.setting h = r.setting h := rfl

lemma present_move (t : ℤ) :
    Ensures (fun o => if o.presented then Move (r.setting h) (o.rx.setting o.hub)
      else o.rx.setting o.hub = r.setting h) (r.present h t) := by
  unfold present
  split
  · exact .ok rfl
  · refine (localiseDamage_setting (h := h) _ _).bind fun r₁ hr₁ => ?_
    split
    · exact .ok hr₁
    · refine (repairOrComplete_setting _ _).bind ?_
      rintro ⟨r₂, h₂⟩ hs₂
      have hs₂ : r₂.setting h₂ = r.setting h := hs₂.trans hr₁
      refine Ensures.bind (P := fun s => r₂.applyPendingPalette h₂ = .ok s) (fun s hs => hs) ?_
      rintro ⟨r₃, h₃⟩ ha
      have hmove := Move.present ha
      rw [hs₂, ← updateTiming_setting (r := (r₃.flip h₃).1) t] at hmove
      refine .ok ?_
      dsimp only
      rw [if_pos rfl, resetFrame_setting]
      exact hmove

lemma present_settles (t : ℤ) : Settles r h (r.present h t) := by
  refine (present_move t).mono fun o ho => ?_
  split at ho
  · exact .single ho
  · rw [ho]

lemma complete_settles (t : ℤ) (presented : Bool) : Settles r h (r.complete h t presented) := by
  unfold complete
  split
  · exact (present_settles t).bind fun o ho => .ok ho
  · exact .ok .refl

lemma mergeDmaArrival_setting (t : ℤ) (h' : Hub75) :
    (r.mergeDmaArrival h t).setting h' = r.setting h' := by
  unfold mergeDmaArrival
  split
  · rfl
  · split <;> rfl

lemma drawChunk_setting (r : BitmapReceiver) (p : PixelHeader) (ppc : ℕ) (indexed : Bool)
    (data : Slice) :
    Ensures (fun h' => r.setting h' = r.setting h) (drawChunk h p ppc indexed data) := by
  have hwrite (offset bytesPerPixel : ℕ) (src : Slice) (words : ℕ → List Word) :
      Ensures (fun h' => r.setting h' = r.setting h)
        (h.writePixels offset bytesPerPixel src words) := by
    unfold Hub75.writePixels
    split
    · exact .ok rfl
    · dsimp only
      split
      · exact .ok rfl
      · refine Ensures.bind (P := fun _ => True) (fun _ _ => trivial) fun _ _ => ?_
        refine Ensures.bind (P := fun _ => True) (fun _ _ => trivial) fun _ _ => ?_
        exact .ok rfl
  unfold drawChunk
  split
  · exact .ok rfl
  · refine Ensures.bind (P := fun _ => True) (fun _ _ => trivial) fun payload _ => ?_
    split
    · exact hwrite _ _ _ _
    · exact hwrite _ _ _ _

lemma storeChunk_settles (p : PixelHeader) (ppc : ℕ) (indexed : Bool) (data : Slice) (t : ℤ)
    (presented : Bool) : Settles r h (r.storeChunk h p ppc indexed data t presented) := by
  unfold storeChunk
  refine Ensures.bind (P := fun _ => True) (fun _ _ => trivial) fun b _ => ?_
  split
  · exact .ok .refl
  · refine (drawChunk_setting r p ppc indexed data).bind fun h' hh => ?_
    refine Ensures.bind (P := fun _ => True) (fun _ _ => trivial) fun mask _ => ?_
    have hc : (r.countChunk mask t).setting h' = r.setting h := hh
    have hm : ((r.countChunk mask t).mergeDmaArrival h' t).setting h' = r.setting h :=
      (mergeDmaArrival_setting t h').trans hc
    dsimp only
    split
    · have hp := complete_settles (r := (r.countChunk mask t).mergeDmaArrival h' t) (h := h') t
        presented
      rw [Settles, hm] at hp
      exact hp
    · have hp := complete_settles (r := r.countChunk mask t) (h := h') t presented
      rw [Settles, hc] at hp
      exact hp

lemma pixelPacket_settles (indexed wide : Bool) (data : Slice) (t : ℤ) :
    Ensures (fun o => Moves (r.setting h) (o.rx.setting o.hub) ∨
        o.rx.setting o.hub = { r.setting h with refusals := o.rx.refusals })
      (r.pixelPacket h indexed wide data t) := by
  unfold pixelPacket
  dsimp only
  have hc := applyMode_setting (r := { r with indexed := indexed, wide := wide }) (h := h) indexed
  have hc : _ = r.setting h := hc
  generalize applyMode { r with indexed := indexed, wide := wide } h indexed = s at hc ⊢
  obtain ⟨r₁, h₁⟩ := s
  dsimp only at hc ⊢
  rw [← hc]
  split
  · exact .ok (.inr rfl)
  refine Ensures.bind (P := fun _ => True) (fun _ _ => trivial) fun p _ => ?_
  split
  · exact .ok (.inr rfl)
  split
  · exact .ok (.inr rfl)
  split
  · exact .ok (.inr rfl)
  split
  · exact .ok (.inr rfl)
  split
  · split
    · exact .ok (.inr rfl)
    · refine (present_settles (r := (r₁.noteHeader p).countValid) t).bind fun o ho => ?_
      refine (storeChunk_settles (r := o.rx.beginFrame p) p _ indexed data t o.presented).mono
        fun o' ho' => ?_
      exact .inl (ho.trans ho')
  · refine (storeChunk_settles (r := (r₁.noteHeader p).countValid) p _ indexed data t false).mono
      fun o ho => ?_
    exact .inl ho

lemma takeSnapshot_setting (words : Vector Word 16) (fid total : ℕ) (indexed : Bool) (t : ℤ) :
    (r.takeSnapshot h words fid total indexed t).1.setting
      (r.takeSnapshot h words fid total indexed t).2 = r.setting h := by
  simp only [takeSnapshot, applyMode]
  split <;> rfl

lemma takeIdentity_setting (fid total : ℕ) (indexed : Bool) (t : ℤ) :
    (r.takeIdentity h fid total indexed t).1.setting
      (r.takeIdentity h fid total indexed t).2 = r.setting h := by
  simp only [takeIdentity, applyMode]
  split <;> rfl

lemma presentDoneFrame_settles (t : ℤ) : Settles r h (r.presentDoneFrame h t) := by
  by_cases ha : r.AdoptsSnapshot h
  · rw [presentDoneFrame_adopts t ha]
    have hc : (r.snapshotTaken h t).1.setting (r.snapshotTaken h t).2 = r.setting h :=
      takeSnapshot_setting _ _ _ _ _
    have hp := present_settles (r := (r.snapshotTaken h t).1) (h := (r.snapshotTaken h t).2) t
    rw [Settles, hc] at hp
    exact hp
  · obtain ⟨seq, he⟩ := presentDoneFrame_skips t ha
    rw [he]
    exact .ok .refl

lemma presentDoneNow_settles (t : ℤ) : Settles r h (r.presentDoneNow h t) := by
  unfold presentDoneNow
  split
  · exact .ok .refl
  · exact presentDoneFrame_settles t

lemma adoptDmaFrame_settles (t : ℤ) : Settles r h (r.adoptDmaFrame h t) := by
  unfold adoptDmaFrame
  split
  · exact .ok .refl
  split
  · exact .ok .refl
  split
  · exact .ok .refl
  split
  · exact .ok .refl
  · refine (present_settles t).bind fun o ho => ?_
    apply Ensures.ok
    exact ho.trans (Moves.of_eq (takeIdentity_setting _ _ _ _))

lemma tickFrame_settles (t : ℤ) (presented : Bool) : Settles r h (r.tickFrame h t presented) := by
  unfold tickFrame
  rw [Settles, ← mergeDmaArrival_setting (h := h) t h]
  dsimp only
  split
  · exact (present_settles t).bind fun o ho => .ok ho
  split
  · exact .ok .refl
  split
  · exact .ok .refl
  · exact (present_settles (r := (r.mergeDmaArrival h t).countStale) t).bind fun o ho => .ok ho

lemma tickPalette_settles (t : ℤ) :
    Ensures (fun s : BitmapReceiver × Hub75 => Moves (r.setting h) (s.1.setting s.2))
      (r.tickPalette h t) := by
  unfold tickPalette
  split
  · rintro ⟨r', h'⟩ ha
    exact .single (.apply ha)
  · exact .ok .refl

lemma tick_settles (t : ℤ) : Settles r h (r.tick h t) := by
  unfold tick
  refine (tickPalette_settles t).bind ?_
  rintro ⟨r₁, h₁⟩ hm
  refine (presentDoneFrame_settles t).bind ?_
  rintro ⟨presented, r₂, h₂⟩ ho
  have ho : Moves (r.setting h) (r₂.setting h₂) := hm.trans ho
  dsimp only
  split
  · exact .ok ho
  refine (adoptDmaFrame_settles t).bind ?_
  rintro ⟨adopted, r₃, h₃⟩ ho₃
  have ho₃ : Moves (r.setting h) (r₃.setting h₃) := ho.trans ho₃
  dsimp only
  split
  · exact .ok ho₃
  · exact (tickFrame_settles t _).mono fun o ho => ho₃.trans ho

/-- The palette in a datagram. -/
def paletteOf (data : List Byte) : Option PaletteWrite :=
  if HEADER_SIZE ≤ data.length ∧ data.getD 0 0 = letterB ∧ data.getD 1 0 = letterP then
    let start := (data.getD 4 0).toNat
    let body := data.drop HEADER_SIZE
    some ⟨start, (List.range (min (body.length / 3) (PALETTE_LEN - start))).map (paletteTriple body)⟩
  else none

/-- The palette that waits once the datagram has been stashed. -/
def waitingAfter (r : BitmapReceiver) (data : List Byte) : Option PaletteWrite :=
  if r.hold then r.waiting else (paletteOf data).or r.waiting

/-- The setting once the datagram has been stashed. -/
def settingAfter (r : BitmapReceiver) (h : Hub75) (data : List Byte) : Setting :=
  { r.setting h with colours := h.colours (r.waitingAfter data) }

lemma stashPalette_settles (start : ℕ) (body : List Byte) (t : ℤ) :
    Ensures (fun s : BitmapReceiver × Hub75 => Moves { r.setting h with
        colours := h.colours (some ⟨start,
          (List.range (min (body.length / 3) (PALETTE_LEN - start))).map (paletteTriple body)⟩) }
      (s.1.setting s.2)) (r.stashPalette h start body t) := by
  unfold stashPalette
  refine Ensures.bind (P := fun _ => True) (fun _ _ => trivial) fun _ _ => ?_
  have hw (n : ℕ) : (List.range n).map
      (fun i => if i < n then paletteTriple body i else r.pendingPalette i) =
      (List.range n).map (paletteTriple body) := by
    apply List.map_congr_left
    intro i hi
    rw [if_pos (List.mem_range.mp hi)]
  rw [← hw]
  dsimp only
  split
  · rintro ⟨r', h'⟩ ha
    exact .single (.apply ha)
  · exact .ok .refl

lemma waitingAfter_of_none {data : List Byte} (hn : paletteOf data = none) :
    r.waitingAfter data = r.waiting := by
  simp only [waitingAfter, hn, Option.none_or, ite_self]

lemma paletteOf_of_ne {data : List Byte}
    (hn : ¬ (data.getD 0 0 = letterB ∧ data.getD 1 0 = letterP)) : paletteOf data = none := by
  unfold paletteOf
  rw [if_neg]
  rintro ⟨-, hb⟩
  exact hn hb

lemma settingAfter_of_none {data : List Byte} (hn : paletteOf data = none) :
    r.settingAfter h data = r.setting h := by
  rw [settingAfter, waitingAfter_of_none hn]
  rfl

lemma processPacket_settles (data : Slice) (t : ℤ) :
    Ensures (fun o : Outcome => Moves (r.settingAfter h data.bytes) (o.rx.setting o.hub) ∨
        o.rx.setting o.hub = { r.settingAfter h data.bytes with refusals := o.rx.refusals })
      (r.processPacket h data t) := by
  unfold processPacket
  dsimp only
  split
  · rename_i hh
    have hh : r.hold = true := hh
    have hw : r.settingAfter h data.bytes = r.setting h := by
      rw [settingAfter, waitingAfter, if_pos hh]
      rfl
    rw [hw]
    exact .ok (.inl .refl)
  rename_i hh
  have hh : ¬ r.hold = true := hh
  split
  · rename_i hlen
    have hn : paletteOf data.bytes = none := by
      rw [paletteOf, if_neg]
      omega
    rw [settingAfter_of_none hn]
    exact .ok (.inr rfl)
  rename_i hlen
  have hlen : HEADER_SIZE ≤ data.bytes.length := Nat.le_of_not_lt hlen
  have hget (i : ℕ) (hi : i < HEADER_SIZE) : data.get i = .ok (data.bytes.getD i 0) :=
    data.get_ok (by omega)
  have h₀ := hget 0 (by decide)
  have h₁ := hget 1 (by decide)
  have h₄ := hget 4 (by decide)
  simp only [h₀, h₁, h₄, data.from_ok hlen, bind, Except.bind]
  have hpixel (indexed wide : Bool) (letter : Byte) (hp : letter ≠ letterP)
      (hm : data.bytes.getD 1 0 = letter) :
      Ensures (fun o : Outcome => Moves (r.settingAfter h data.bytes) (o.rx.setting o.hub) ∨
          o.rx.setting o.hub = { r.settingAfter h data.bytes with refusals := o.rx.refusals })
        ((r.countPacket data).pixelPacket h indexed wide data t) := by
    have hn : paletteOf data.bytes = none :=
      paletteOf_of_ne fun hb => hp (hm.symm.trans hb.2)
    rw [settingAfter_of_none hn]
    exact pixelPacket_settles (r := r.countPacket data) indexed wide data t
  split
  · rename_i hskip
    have hn : paletteOf data.bytes = none := by
      apply paletteOf_of_ne
      rintro ⟨-, hb⟩
      rw [hb] at hskip
      exact absurd hskip.2.2 (by decide)
    rw [settingAfter_of_none hn]
    exact .ok (.inl .refl)
  split
  · rename_i hm
    exact hpixel false false letterM (by decide) hm.2
  split
  · rename_i hm
    exact hpixel true false letterI (by decide) hm.2
  split
  · rename_i hm
    exact hpixel false true letterW (by decide) hm.2
  split
  · rename_i hm
    have hw : r.waitingAfter data.bytes = some ⟨(data.bytes.getD 4 0).toNat,
        (List.range (min ((data.bytes.drop HEADER_SIZE).length / 3)
          (PALETTE_LEN - (data.bytes.getD 4 0).toNat))).map
          (paletteTriple (data.bytes.drop HEADER_SIZE))⟩ := by
      rw [waitingAfter, if_neg hh, paletteOf, if_pos ⟨hlen, hm⟩]
      rfl
    rw [settingAfter, hw]
    refine (stashPalette_settles (r := r.countPacket data) _ _ t).bind ?_
    intro s hm
    exact .ok (.inl hm)
  · rename_i hn
    rw [settingAfter_of_none (paletteOf_of_ne hn)]
    exact .ok (.inr rfl)

end BitmapReceiver

end Ledwall.Receiver
