import Ledwall.Receiver.Settings

/-! Packets that are thrown away: which counter says so, and what they leave as it was. -/

namespace Ledwall.Receiver

open Ledwall.Library.Outcomes Ledwall.Library.Runs Ledwall.Wire

namespace BitmapReceiver

section Spared

variable {r : BitmapReceiver} (h : Hub75) (t : ℤ)

lemma applyPendingPalette_spares :
    Ensures (fun s => s.1.refusals = r.refusals) (r.applyPendingPalette h) := by
  simp only [applyPendingPalette]
  split
  · exact .ok rfl
  · refine Ensures.bind (P := fun _ => True) (fun _ _ => trivial) fun _ _ => ?_
    refine Ensures.bind (P := fun _ => True) (fun _ _ => trivial) fun _ _ => ?_
    exact .ok rfl

lemma flip_refusals : (r.flip h).1.refusals = r.refusals := by
  simp only [flip]
  split
  · split <;> split <;> rfl
  · rfl

lemma settled_refusals {s s' : Setting} (hm : Setting.Moves s s') : s'.refusals = s.refusals := by
  induction hm with
  | refl => rfl
  | tail _ hmove ih =>
    rw [← ih]
    cases hmove with
    | apply ha => exact applyPendingPalette_spares _ _ ha
    | present ha => exact (flip_refusals _).trans (applyPendingPalette_spares _ _ ha)

lemma present_spares : Ensures (fun o => o.rx.refusals = r.refusals) (r.present h t) :=
  (present_settles t).mono fun _ ho => settled_refusals ho

lemma storeChunk_spares (p : PixelHeader) (ppc : ℕ) (indexed : Bool) (data : Slice) (presented : Bool) :
    Ensures (fun o => o.rx.refusals = r.refusals)
      (r.storeChunk h p ppc indexed data t presented) :=
  (storeChunk_settles p ppc indexed data t presented).mono fun _ ho => settled_refusals ho

lemma stashPalette_spares (start : ℕ) (body : List Byte) :
    Ensures (fun s => s.1.refusals = r.refusals) (r.stashPalette h start body t) :=
  (stashPalette_settles start body t).mono fun _ hs => settled_refusals hs

end Spared

section PixelPackets

/-- The receiver and the driver with the packet's format latched. -/
def latched (r : BitmapReceiver) (h : Hub75) (indexed wide : Bool) : BitmapReceiver × Hub75 :=
  applyMode { r with indexed := indexed, wide := wide } h indexed

variable {r : BitmapReceiver} {h : Hub75} {indexed wide : Bool} {data : Slice} {t : ℤ}

lemma latched_refusals (r : BitmapReceiver) (h : Hub75) (indexed wide : Bool) :
    (r.latched h indexed wide).1.refusals = r.refusals :=
  congrArg Setting.refusals (applyMode_setting indexed)

/-- What a pixel packet leaves when it is thrown away: its format latched, and counters. -/
def ThrownAway (s : BitmapReceiver × Hub75) (o : Outcome) : Prop :=
  o.presented = false ∧ o.rx = { s.1 with stats := o.rx.stats } ∧ o.hub = s.2

lemma pixelPacket_thrownAway_or (r : BitmapReceiver) (h : Hub75) (indexed wide : Bool)
    (data : Slice) (t : ℤ) :
    Ensures (fun o => ThrownAway (r.latched h indexed wide) o ∨ o.rx.refusals = r.refusals)
      (r.pixelPacket h indexed wide data t) := by
  have hlatch := latched_refusals r h indexed wide
  rcases hpair : applyMode { r with indexed := indexed, wide := wide } h indexed with ⟨r₁, h₁⟩
  rw [latched, hpair] at hlatch ⊢
  have hr₁ : r₁.refusals = r.refusals := hlatch
  clear hlatch
  simp only [pixelPacket, hpair]
  split
  · exact .ok (.inl ⟨rfl, rfl, rfl⟩)
  refine Ensures.bind (P := fun _ => True) (fun _ _ => trivial) fun p _ => ?_
  split
  · exact .ok (.inl ⟨rfl, rfl, rfl⟩)
  split
  · exact .ok (.inl ⟨rfl, rfl, rfl⟩)
  split
  · exact .ok (.inl ⟨rfl, rfl, rfl⟩)
  split
  · exact .ok (.inl ⟨rfl, rfl, rfl⟩)
  split
  · split
    · exact .ok (.inl ⟨rfl, rfl, rfl⟩)
    · refine (present_spares _ t).bind fun o ho => ?_
      refine (storeChunk_spares _ t p _ _ data _).mono fun o' ho' => ?_
      exact .inr (ho'.trans (ho.trans hr₁))
  · refine (storeChunk_spares _ t p _ _ data _).mono fun o' ho' => ?_
    exact .inr (ho'.trans hr₁)

lemma pixelPacket_accepted (ha : Accepts r.progress h.glass indexed wide data.bytes) :
    Ensures (fun o => o.rx.refusals = r.refusals) (r.pixelPacket h indexed wide data t) := by
  have hlatch := latched_refusals r h indexed wide
  obtain ⟨hm, -⟩ := applyMode_progress { r with indexed := indexed, wide := wide } h indexed
  have hg := applyMode_glass { r with indexed := indexed, wide := wide } h indexed
  rcases hpair : applyMode { r with indexed := indexed, wide := wide } h indexed with ⟨r₁, h₁⟩
  rw [latched, hpair] at hlatch
  rw [hpair] at hm hg
  have hr₁ : r₁.refusals = r.refusals := hlatch
  have hm : r₁.progress = r.progress.latch indexed wide := hm
  have hg : h₁.glass = h.glass.latch r.progress indexed := hg
  have himg : h₁.imgLen = h.glass.imgLen :=
    (congrArg Glass.imgLen hg).trans (Glass.latch_imgLen _ _ _)
  have hparam : h₁.getImgParam = (h.glass.width, h.glass.length) :=
    Prod.ext ((congrArg Glass.width hg).trans (Glass.latch_width _ _ _))
      ((congrArg Glass.length hg).trans (Glass.latch_length _ _ _))
  have hppc : (r₁.noteHeader (headerOf data.bytes wide)).ppc = strideOf indexed wide :=
    congrArg Progress.ppc hm
  have hid : (r₁.noteHeader (headerOf data.bytes wide)).countValid.currentFrameId =
      r.progress.frameId := congrArg Progress.frameId hm
  have htotal : (r₁.noteHeader (headerOf data.bytes wide)).countValid.totalChunks =
      r.progress.total := congrArg Progress.total hm
  have hshort : ¬ (wide = true ∧ data.bytes.length < HEADER_SIZE_WIDE) := by
    rintro ⟨hw, hlt⟩
    have hlong := ha.long
    simp only [headerLen, hw, if_true] at hlong
    omega
  obtain ⟨hmax, hne, hlt, hsize, himg₀, hcover⟩ := ha.valid
  simp only [pixelPacket, hpair, if_neg hshort, parseHeader_ok data ha.long, bind, Except.bind]
  rw [if_neg (by omega), if_neg (by omega), himg, hppc, if_neg (by tauto), if_neg (by omega), hid,
    htotal]
  split
  · rename_i hnew
    have hfits := ha.image fun hc => hnew.elim (fun hf => hf hc.1) fun hf => hf hc.2
    rw [hparam]
    simp only
    rw [if_neg (by
      rintro ⟨hw, hor⟩
      obtain ⟨h₁, h₂⟩ := hfits hw
      exact hor.elim (fun hn => hn h₁) fun hn => hn h₂)]
    refine (present_spares _ t).bind fun o ho => ?_
    refine (storeChunk_spares _ t _ _ _ data _).mono fun o' ho' => ?_
    exact ho'.trans (ho.trans hr₁)
  · exact (storeChunk_spares _ t _ _ _ data _).mono fun o' ho' => ho'.trans hr₁

lemma pixelPacket_oversize (hlen : headerLen wide ≤ data.bytes.length)
    (hmax : MAX_CHUNKS < (headerOf data.bytes wide).totalChunks) :
    r.pixelPacket h indexed wide data t =
      .ok ⟨false, (r.latched h indexed wide).1.countBadHeader, (r.latched h indexed wide).2⟩ := by
  have hshort : ¬ (wide = true ∧ data.bytes.length < HEADER_SIZE_WIDE) := by
    rintro ⟨hw, hlt⟩
    simp only [headerLen, hw, if_true] at hlen
    omega
  rcases hpair : applyMode { r with indexed := indexed, wide := wide } h indexed with ⟨r₁, h₁⟩
  simp only [pixelPacket, latched, hpair, if_neg hshort, parseHeader_ok data hlen, if_pos hmax,
    bind, Except.bind]
  rfl

lemma processPacket_pixel (hhold : r.hold = false) (hcpu : r.cpuPixels = true)
    (hlen : HEADER_SIZE ≤ data.bytes.length)
    (hmagic : pixelMagic data.bytes = some (indexed, wide)) :
    r.processPacket h data t = (r.countPacket data).pixelPacket h indexed wide data t := by
  have hten : HEADER_SIZE = 10 := rfl
  have hh : ¬ (r.countPacket data).hold = true := Bool.eq_false_iff.mp hhold
  have hc : ¬ ¬ (r.countPacket data).cpuPixels = true := not_not.mpr hcpu
  have hl : ¬ data.bytes.length < HEADER_SIZE := by omega
  simp only [processPacket, if_neg hh, if_neg hl, data.get_ok (i := 0) (by omega),
    data.get_ok (i := 1) (by omega), bind, Except.bind, hc, false_and, if_false]
  unfold pixelMagic at hmagic
  split at hmagic
  · rename_i hM
    cases hmagic
    rw [if_pos hM]
  split at hmagic
  · rename_i hM hI
    cases hmagic
    rw [if_neg hM, if_pos hI]
  split at hmagic
  · rename_i hM hI hW
    cases hmagic
    rw [if_neg hM, if_neg hI, if_pos hW]
  · cases hmagic

lemma processPacket_deaf (hdeaf : ¬ (r.hold = false ∧ r.cpuPixels = true))
    (hlen : HEADER_SIZE ≤ data.bytes.length)
    (hmagic : pixelMagic data.bytes = some (indexed, wide)) :
    Ensures (fun o => o.rx.refusals = r.refusals) (r.processPacket h data t) := by
  have hten : HEADER_SIZE = 10 := rfl
  have hl : ¬ data.bytes.length < HEADER_SIZE := by omega
  have hpixel : data.bytes.getD 0 0 = letterB ∧ (data.bytes.getD 1 0 = letterM ∨
      data.bytes.getD 1 0 = letterI ∨ data.bytes.getD 1 0 = letterW) := by
    unfold pixelMagic at hmagic
    split at hmagic
    · rename_i hM
      exact ⟨hM.1, .inl hM.2⟩
    split at hmagic
    · rename_i hI
      exact ⟨hI.1, .inr (.inl hI.2)⟩
    split at hmagic
    · rename_i hW
      exact ⟨hW.1, .inr (.inr hW.2)⟩
    · cases hmagic
  simp only [processPacket, data.get_ok (i := 0) (show 0 < data.bytes.length by omega),
    data.get_ok (i := 1) (show 1 < data.bytes.length by omega), bind, Except.bind, if_neg hl]
  split
  · exact .ok rfl
  · rename_i hhold
    have hcpu : ¬ (r.countPacket data).cpuPixels = true := by
      intro hc
      exact hdeaf ⟨Bool.eq_false_iff.mpr hhold, hc⟩
    rw [if_pos ⟨hcpu, hpixel⟩]
    exact .ok rfl

lemma countPacket_latched (r : BitmapReceiver) (h : Hub75) (indexed wide : Bool) (data : Slice) :
    ((r.countPacket data).latched h indexed wide).1 =
      { (r.latched h indexed wide).1 with stats := (r.countPacket data).stats } ∧
    ((r.countPacket data).latched h indexed wide).2 = (r.latched h indexed wide).2 := by
  have hm : (r.countPacket data).modeIndexed = r.modeIndexed := rfl
  simp only [latched, applyMode, hm]
  split <;> exact ⟨rfl, rfl⟩

lemma processPacket_thrownAway_or (r : BitmapReceiver) (h : Hub75) (data : Slice) (t : ℤ) :
    Ensures (fun o => o.rx.refusals = r.refusals ∨
        (data.bytes.length < HEADER_SIZE ∨ pixelMagic data.bytes = none) ∧ ThrownAway (r, h) o ∨
        ∃ indexed wide, HEADER_SIZE ≤ data.bytes.length ∧
          pixelMagic data.bytes = some (indexed, wide) ∧ ThrownAway (r.latched h indexed wide) o)
      (r.processPacket h data t) := by
  simp only [processPacket]
  split
  · exact .ok (.inl rfl)
  split
  · rename_i hlen
    exact .ok (.inr (.inl ⟨.inl hlen, rfl, rfl, rfl⟩))
  rename_i hlen
  have hl : HEADER_SIZE ≤ data.bytes.length := by omega
  have hpos : HEADER_SIZE = 10 := rfl
  rw [data.get_ok (i := 0) (by omega), data.get_ok (i := 1) (by omega)]
  refine Ensures.bind (P := fun b => b = data.bytes.getD 0 0) (.ok rfl) ?_
  rintro b₀ rfl
  refine Ensures.bind (P := fun b => b = data.bytes.getD 1 0) (.ok rfl) ?_
  rintro b₁ rfl
  have hpixel (indexed wide : Bool) (hm : pixelMagic data.bytes = some (indexed, wide)) :=
    (pixelPacket_thrownAway_or (r.countPacket data) h indexed wide data t).mono
      (R := fun o => o.rx.refusals = r.refusals ∨
        (data.bytes.length < HEADER_SIZE ∨ pixelMagic data.bytes = none) ∧ ThrownAway (r, h) o ∨
        ∃ indexed wide, HEADER_SIZE ≤ data.bytes.length ∧
          pixelMagic data.bytes = some (indexed, wide) ∧ ThrownAway (r.latched h indexed wide) o)
      (by
        rintro o (ho | ho)
        · obtain ⟨h₁, h₂⟩ := countPacket_latched r h indexed wide data
          refine .inr (.inr ⟨indexed, wide, hl, hm, ho.1, ?_, ho.2.2.trans h₂⟩)
          rw [ho.2.1, h₁]
        · exact .inl ho)
  split
  · exact .ok (.inl rfl)
  split
  · rename_i hM
    exact hpixel false false (by rw [pixelMagic, if_pos hM])
  split
  · rename_i hM hI
    exact hpixel true false (by rw [pixelMagic, if_neg hM, if_pos hI])
  split
  · rename_i hM hI hW
    exact hpixel false true (by rw [pixelMagic, if_neg hM, if_neg hI, if_pos hW])
  rename_i hM hI hW
  have hnone : pixelMagic data.bytes = none := by
    rw [pixelMagic, if_neg hM, if_neg hI, if_neg hW]
  split
  · refine Ensures.bind (P := fun _ => True) (fun _ _ => trivial) fun start _ => ?_
    refine Ensures.bind (P := fun _ => True) (fun _ _ => trivial) fun body _ => ?_
    refine (stashPalette_spares h t start.toNat body.bytes).bind fun s hs => ?_
    exact .ok (.inl hs)
  · exact .ok (.inr (.inl ⟨.inr hnone, rfl, rfl, rfl⟩))

/-- The call returned `false` and left the frame in progress, the pixels, the palettes, the output
mode and the timestamps as they were. -/
structure Untouched (r : BitmapReceiver) (h : Hub75) (o : Outcome) : Prop where
  presented : o.presented = false
  frameId : o.rx.currentFrameId = r.currentFrameId
  total : o.rx.totalChunks = r.totalChunks
  mask : o.rx.chunkMask = r.chunkMask
  received : o.rx.received = r.received
  indexed : o.rx.indexed = r.indexed
  wide : o.rx.wide = r.wide
  back : o.hub.hub75Data = h.hub75Data
  front : o.hub.displayBuffer = h.displayBuffer
  palette : o.hub.paletteRam = h.paletteRam
  shadow : o.hub.paletteShadow = h.paletteShadow
  pending : o.rx.pendingPalette = r.pendingPalette
  pendingStart : o.rx.pendingPaletteStart = r.pendingPaletteStart
  pendingLen : o.rx.pendingPaletteLen = r.pendingPaletteLen
  pendingValid : o.rx.pendingPaletteValid = r.pendingPaletteValid
  mode : o.hub.ctrlIndexed = h.ctrlIndexed
  lastPacket : o.rx.lastPacketMs = r.lastPacketMs
  lastComplete : o.rx.lastCompleteMs = r.lastCompleteMs

/-- The packet latches no format but the one already latched and put out. -/
def KeepsFormat (r : BitmapReceiver) (h : Hub75) (data : Slice) : Prop :=
  HEADER_SIZE ≤ data.bytes.length → ∀ indexed wide, pixelMagic data.bytes = some (indexed, wide) →
    r.indexed = indexed ∧ r.wide = wide ∧
      (r.modeIndexed ≠ some indexed → h.ctrlIndexed = indexed)

lemma ThrownAway.untouched {o : Outcome} (ht : ThrownAway (r, h) o) : Untouched r h o := by
  obtain ⟨hp, hr, hh⟩ := ht
  constructor
  case presented => exact hp
  all_goals first | rw [hh] | rw [hr]

lemma ThrownAway.untouched_iff {o : Outcome} (ht : ThrownAway (r.latched h indexed wide) o) :
    Untouched r h o ↔ r.indexed = indexed ∧ r.wide = wide ∧
      (r.modeIndexed ≠ some indexed → h.ctrlIndexed = indexed) := by
  obtain ⟨hp, hr, hh⟩ := ht
  have hfields : o.rx.indexed = indexed ∧ o.rx.wide = wide := by
    rw [hr, latched, applyMode]
    split <;> exact ⟨rfl, rfl⟩
  have hmode : o.hub.ctrlIndexed = if r.modeIndexed ≠ some indexed then indexed else h.ctrlIndexed := by
    rw [hh, latched, applyMode]
    simp only
    split <;> rfl
  constructor
  · intro hu
    refine ⟨hu.indexed.symm.trans hfields.1, hu.wide.symm.trans hfields.2, fun hn => ?_⟩
    rw [if_pos hn] at hmode
    exact hu.mode.symm.trans hmode
  · rintro ⟨hi, hw, hm⟩
    constructor
    case presented => exact hp
    case indexed => exact hfields.1.trans hi.symm
    case wide => exact hfields.2.trans hw.symm
    case mode =>
      rw [hmode]
      split
      · rename_i hn
        exact (hm hn).symm
      · rfl
    all_goals
      first | rw [hh, latched, applyMode] | rw [hr, latched, applyMode]
      simp only
      split <;> rfl

/-- A packet counted as a bad one changes nothing but counters exactly if it latches no format. -/
theorem rejected_untouched_iff {o : Outcome} (ho : r.processPacket h data t = .ok o)
    (hbad : o.rx.refusals ≠ r.refusals) : Untouched r h o ↔ KeepsFormat r h data := by
  rcases processPacket_thrownAway_or r h data t o ho with
    hsame | ⟨hnone, ht⟩ | ⟨indexed, wide, hlen, hmagic, ht⟩
  · exact absurd hsame hbad
  · refine ⟨fun _ hlen indexed wide hmagic => ?_, fun _ => ht.untouched⟩
    rcases hnone with hshort | hnone
    · exact absurd hlen (by omega)
    · rw [hnone] at hmagic
      cases hmagic
  · rw [ht.untouched_iff]
    refine ⟨fun hk _ i w hm => ?_, fun hk => hk hlen indexed wide hmagic⟩
    rw [hmagic] at hm
    cases hm
    exact hk

end PixelPackets

end BitmapReceiver

open BitmapReceiver

/-- An image of two RGB chunks, its first chunk with one pixel, and an indexed header of no chunk. -/
def twoChunks : Hub75 := (Hub75.new (fun _ => 0) Registers.reset).setImgParam 40 800
def firstChunk : Slice := ⟨0, [letterB, letterM, 1, 0, 0, 2, 40, 0, 20, 0, 255, 255, 255]⟩
def stray : Slice := ⟨0, [letterB, letterI, 0, 0, 0, 0, 0, 0, 0, 0]⟩

/-- The stray header in the middle of an RGB frame. -/
theorem stray_touches : ∃ r, Run Event.step {} [⟨.processPacket firstChunk, twoChunks, 0⟩] r ∧
    r.totalChunks = 2 ∧ r.received = 1 ∧ ∃ o, r.processPacket twoChunks stray 1 = .ok o ∧
      o.rx.refusals ≠ r.refusals ∧ ¬ Untouched r twoChunks o := by
  obtain ⟨o, ho, hp⟩ := exists_of_passes (p := fun o : Outcome =>
    o.rx.totalChunks == 2 && o.rx.received == 1 && !o.rx.indexed &&
      passes (fun o' => o'.rx.indexed && decide (o'.rx.refusals ≠ o.rx.refusals))
        (o.rx.processPacket twoChunks stray 1))
    (x := ({} : BitmapReceiver).processPacket twoChunks firstChunk 0) (by decide +kernel)
  simp only [Bool.and_eq_true, beq_iff_eq, Bool.not_eq_true'] at hp
  obtain ⟨⟨⟨ht, hr⟩, hi⟩, hpass⟩ := hp
  obtain ⟨o', ho', hp'⟩ := exists_of_passes hpass
  simp only [Bool.and_eq_true, decide_eq_true_eq] at hp'
  refine ⟨o.rx, .cons ⟨o, ho, rfl⟩ (.nil _), ht, hr, o', ho', hp'.2, fun hu => ?_⟩
  have hlatched : o'.rx.indexed = false := hu.indexed.trans hi
  rw [hp'.1] at hlatched
  cases hlatched

theorem rejected_untouched_iff_noise : ∃ o,
    ({} : BitmapReceiver).processPacket twoChunks ⟨0, List.replicate 12 0⟩ 0 = .ok o ∧
      (Untouched {} twoChunks o ↔ KeepsFormat {} twoChunks ⟨0, List.replicate 12 0⟩) := by
  obtain ⟨o, ho, hp⟩ := exists_of_passes (p := fun o : Outcome =>
      decide (o.rx.refusals ≠ ({} : BitmapReceiver).refusals))
    (x := ({} : BitmapReceiver).processPacket twoChunks ⟨0, List.replicate 12 0⟩ 0)
    (by decide +kernel)
  exact ⟨o, ho, rejected_untouched_iff ho (of_decide_eq_true hp)⟩

end Ledwall.Receiver
