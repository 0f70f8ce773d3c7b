import Ledwall.Receiver.Calls

/-! Which answers of the gateware's registers the receiver survives. -/

namespace Ledwall.Receiver

open Ledwall.Library.Runs Ledwall.Wire

namespace BitmapReceiver

/-- What keeps every buffer access of the receiver in bounds. -/
structure Sound (r : BitmapReceiver) : Prop where
  palette : r.PaletteFits
  total : r.progress.total ≤ MAX_CHUNKS

lemma sound_new : Sound {} := ⟨Nat.zero_le _, Nat.zero_le _⟩

section Calls

variable {r : BitmapReceiver} {h : Hub75} {p : PixelHeader} {ppc : ℕ} {indexed wide presented : Bool}
  {data : Slice} {t : ℤ}

lemma presented_total_le {q : Progress} (hq : q.total ≤ MAX_CHUNKS) (c : ℕ) :
    (q.presented c).total ≤ MAX_CHUNKS := by
  rw [Progress.presented]
  split
  · exact hq
  · exact Nat.zero_le _

lemma present_sound (hs : Sound r) (h : Hub75) (t : ℤ) :
    ∃ o, r.present h t = .ok o ∧ Sound o.rx := by
  obtain ⟨r', h', he, ⟨c, hr, -⟩, hf, -⟩ := r.present_ok h t hs.palette (.inl hs.total)
  refine ⟨_, he, hf, ?_⟩
  rw [hr]
  exact presented_total_le hs.total c

lemma complete_sound (hs : Sound r) (h : Hub75) (t : ℤ) (presented : Bool) :
    ∃ o, r.complete h t presented = .ok o ∧ Sound o.rx := by
  simp only [complete]
  split
  · obtain ⟨o, ho, hs'⟩ := present_sound hs h t
    simp only [ho, bind, Except.bind]
    exact ⟨_, rfl, hs'⟩
  · exact ⟨_, rfl, hs⟩

lemma storeChunk_sound (hs : Sound r) (hi : p.chunkIndex < MAX_CHUNKS)
    (hd : p.hdrLen ≤ data.bytes.length) :
    ∃ o, r.storeChunk h p ppc indexed data t presented = .ok o ∧ Sound o.rx := by
  cases hm : r.chunkMask.has p.chunkIndex with
  | true =>
    obtain ⟨r', he, hr, hf⟩ := storeChunk_duplicate h ppc indexed t presented data hi hm
    refine ⟨_, he, hf.mpr hs.palette, ?_⟩
    rw [hr]
    exact hs.total
  | false =>
    obtain ⟨r', h', he, ht, hf, -⟩ := storeChunk_new h ppc indexed t presented hi hd hm
    rw [he]
    apply complete_sound
    exact ⟨hf.mpr hs.palette, ht.trans_le hs.total⟩

lemma pixelPacket_sound (hs : Sound r) (h : Hub75) (indexed wide : Bool) (t : ℤ)
    (hlen : HEADER_SIZE ≤ data.bytes.length) :
    ∃ o, r.pixelPacket h indexed wide data t = .ok o ∧ Sound o.rx := by
  obtain ⟨r₀, h₀, hr, hf, -, hcase⟩ := r.pixelPacket_cases h indexed wide data t hlen
  have hs₀ : Sound r₀ := by
    refine ⟨hf.mpr hs.palette, ?_⟩
    rw [hr]
    exact hs.total
  cases hcase with
  | refused _ he => exact ⟨_, he, hs₀⟩
  | stored ha _ he =>
    rw [he]
    apply storeChunk_sound hs₀
    · exact ha.valid.index_lt.trans_le ha.valid.total_le
    · rw [headerOf_hdrLen]
      exact ha.long
  | flushed ha _ he =>
    obtain ⟨o, ho, hs₁⟩ := present_sound hs₀ h₀ t
    rw [he, ho]
    apply storeChunk_sound
    · exact ⟨hs₁.palette, ha.valid.total_le⟩
    · exact ha.valid.index_lt.trans_le ha.valid.total_le
    · rw [headerOf_hdrLen]
      exact ha.long

lemma processPacket_sound (hs : Sound r) (h : Hub75) (data : Slice) (t : ℤ) :
    ∃ o, r.processPacket h data t = .ok o ∧ Sound o.rx := by
  rcases r.processPacket_cases h data t hs.palette with
    ⟨indexed, wide, r₀, hlen, -, -, -, hr, hf, he⟩ | ⟨-, r', h', he, hf, -, hr⟩
  · rw [he]
    apply pixelPacket_sound _ _ _ _ _ hlen
    refine ⟨hf, ?_⟩
    rw [hr]
    exact hs.total
  · refine ⟨_, he, hf, ?_⟩
    rcases hr with hr | ⟨-, hr⟩
    · rw [hr]
      exact hs.total
    · rw [hr]
      exact hs.total

end Calls

/-- `adopt_dma_frame` takes the live frame over, in a `tick` that starts from `r`. -/
def AdoptsIdentity (r : BitmapReceiver) (h : Hub75) : Prop :=
  h.dmaEnable = true ∧ r.hwFilterOn = false ∧ r.cpuSawPacket = false ∧
    h.regs.frameId.toNat ≠
      if r.AdoptsSnapshot h then h.regs.frameIdDone.toNat else r.currentFrameId

/-- What one call leaves: the receiver it came from still sound, and the rest of a `tick` told what
it goes on. -/
structure SnapshotOutcome (r : BitmapReceiver) (h : Hub75) (o : Outcome) : Prop where
  sound : Sound o.rx
  filter : o.rx.hwFilterOn = r.hwFilterOn
  saw : o.rx.cpuSawPacket = r.cpuSawPacket
  frameId : o.rx.currentFrameId =
    if r.AdoptsSnapshot h then h.regs.frameIdDone.toNat else r.currentFrameId
  regs : o.hub.regs = h.regs
  dma : o.hub.dmaEnable = h.dmaEnable

lemma presentDoneFrame_sound {r : BitmapReceiver} (hs : Sound r) (h : Hub75) (t : ℤ)
    (hc : r.AdoptsSnapshot h → h.regs.totalChunksDone.toNat ≤ MAX_CHUNKS) :
    ∃ o, r.presentDoneFrame h t = .ok o ∧ SnapshotOutcome r h o := by
  by_cases ha : r.AdoptsSnapshot h
  · obtain ⟨ht, hi, hw, hf, hp, hr, hd⟩ := takeSnapshot_progress
      { r with lastDoneSeq := h.regs.doneSeq.toNat } h h.regs.done h.regs.frameIdDone.toNat
      h.regs.totalChunksDone.toNat h.regs.indexedDone t
    have hn : (r.snapshotTaken h t).1.totalChunks ≤ MAX_CHUNKS := ht.trans_le (hc ha)
    obtain ⟨r', h', he, ⟨c, hr', -⟩, hp', hr'', hd', -⟩ :=
      (r.snapshotTaken h t).1.present_ok (r.snapshotTaken h t).2 t (hp.mpr hs.palette) (.inl hn)
    have hreset : r'.progress = (r.snapshotTaken h t).1.progress.reset.withRepairs c := by
      have hz : (r.snapshotTaken h t).1.progress.total ≠ 0 := by
        rw [snapshotTaken, ht]
        exact ha.2.2.1
      rw [hr', Progress.presented, if_neg hz]
    refine ⟨_, (presentDoneFrame_adopts t ha).trans he, ⟨hp', ?_⟩, ?_, ?_, ?_, hr''.trans hr,
      hd'.1.trans hd⟩
    · rw [hreset]
      exact Nat.zero_le _
    · exact (congrArg Progress.hwFilter hreset).trans hf
    · exact (congrArg Progress.sawPacket hreset).trans ha.2.2.2.2.symm
    · rw [if_pos ha]
      exact (congrArg Progress.frameId hreset).trans hi
  · obtain ⟨seq, he⟩ := presentDoneFrame_skips t ha
    refine ⟨_, he, ⟨hs.palette, hs.total⟩, rfl, rfl, ?_, rfl, rfl⟩
    rw [if_neg ha]

lemma snapshotTaken_received_le (r : BitmapReceiver) (h : Hub75) (t : ℤ) :
    (r.snapshotTaken h t).1.received ≤ MAX_CHUNKS := by
  have hc (m : ChunkMask) (n : ℕ) : min m.count n ≤ MAX_CHUNKS :=
    (min_le_left _ _).trans m.count_le
  simp only [snapshotTaken, takeSnapshot, applyMode]
  split <;> exact hc _ _

lemma presentDoneFrame_error {r : BitmapReceiver} {h : Hub75} (t : ℤ) (ha : r.AdoptsSnapshot h)
    (hn : MAX_CHUNKS < h.regs.totalChunksDone.toNat) :
    r.presentDoneFrame h t = .error .indexOutOfBounds := by
  have ht : (r.snapshotTaken h t).1.totalChunks = h.regs.totalChunksDone.toNat :=
    (takeSnapshot_progress { r with lastDoneSeq := h.regs.doneSeq.toNat } h h.regs.done
      h.regs.frameIdDone.toNat h.regs.totalChunksDone.toNat h.regs.indexedDone t).1
  rw [presentDoneFrame_adopts t ha]
  apply present_error
  · have hr := r.snapshotTaken_received_le h t
    have hm : (r.snapshotTaken h t).1.progress.missing =
        (r.snapshotTaken h t).1.totalChunks - (r.snapshotTaken h t).1.received := rfl
    have hp : (r.snapshotTaken h t).1.progress.total = (r.snapshotTaken h t).1.totalChunks := rfl
    rw [Progress.Countable, hm, hp]
    omega
  · exact ht.trans_lt h.regs.totalChunksDone.isLt

lemma presentDoneFrame_returns_iff {r : BitmapReceiver} (hs : Sound r) (h : Hub75) (t : ℤ) :
    (∃ o, r.presentDoneFrame h t = .ok o) ↔
      (r.AdoptsSnapshot h → h.regs.totalChunksDone.toNat ≤ MAX_CHUNKS) := by
  constructor
  · rintro ⟨o, ho⟩ ha
    by_contra hn
    rw [presentDoneFrame_error t ha (by omega)] at ho
    cases ho
  · intro hc
    obtain ⟨o, ho, -⟩ := presentDoneFrame_sound hs h t hc
    exact ⟨o, ho⟩

lemma adoptDmaFrame_sound {r : BitmapReceiver} (hs : Sound r) (h : Hub75) (t : ℤ)
    (hc : h.dmaEnable = true → h.regs.frameId.toNat ≠ r.currentFrameId → r.cpuSawPacket = false →
      h.regs.totalChunks.toNat ≤ MAX_CHUNKS) :
    ∃ o, r.adoptDmaFrame h t = .ok o ∧ Sound o.rx := by
  by_cases hd : h.dmaEnable = true
  · simp only [adoptDmaFrame, Hub75.dmaFrameIdentity, if_pos hd]
    split
    · exact ⟨_, rfl, hs⟩
    · split
      · exact ⟨_, rfl, hs⟩
      · rename_i hid
        split
        · exact ⟨_, rfl, hs⟩
        · rename_i hw
          obtain ⟨o, ho, hs'⟩ := present_sound hs h t
          simp only [ho, bind, Except.bind]
          obtain ⟨ht, hp⟩ := takeIdentity_progress o.rx o.hub h.regs.frameId.toNat
            h.regs.totalChunks.toNat h.regs.indexed t
          refine ⟨_, rfl, hp.mpr hs'.palette, ht.trans_le (hc hd hid (Bool.eq_false_iff.mpr hw))⟩
  · simp only [adoptDmaFrame, Hub75.dmaFrameIdentity, if_neg hd]
    exact ⟨_, rfl, hs⟩

lemma tickFrame_sound {r : BitmapReceiver} (hs : Sound r) (h : Hub75) (t : ℤ) (presented : Bool) :
    ∃ o, r.tickFrame h t presented = .ok o ∧ Sound o.rx := by
  obtain ⟨ht, -, hp⟩ := r.mergeDmaArrival_total h t
  have hm : Sound (r.mergeDmaArrival h t) := ⟨hp.mpr hs.palette, ht.trans_le hs.total⟩
  simp only [tickFrame]
  split
  · obtain ⟨o, ho, hs'⟩ := present_sound hm h t
    simp only [ho, bind, Except.bind]
    exact ⟨_, rfl, hs'⟩
  · split
    · exact ⟨_, rfl, hm⟩
    · split
      · exact ⟨_, rfl, hm⟩
      · obtain ⟨o, ho, hs'⟩ := present_sound
          (r := (r.mergeDmaArrival h t).countStale)
          ⟨hm.palette, hm.total⟩ h t
        simp only [ho, bind, Except.bind]
        exact ⟨_, rfl, hs'⟩

lemma tick_sound {r : BitmapReceiver} (hs : Sound r) (h : Hub75) (t : ℤ)
    (hsnap : r.AdoptsSnapshot h → h.regs.totalChunksDone.toNat ≤ MAX_CHUNKS)
    (hlive : r.AdoptsIdentity h → h.regs.totalChunks.toNat ≤ MAX_CHUNKS) :
    ∃ o, r.tick h t = .ok o ∧ Sound o.rx := by
  obtain ⟨r₁, h₁, he₁, hr₁, hf₁, hg₁⟩ := tickPalette_ok hs.palette h t
  have hs₁ : Sound r₁ := by
    refine ⟨hf₁, ?_⟩
    rw [hr₁]
    exact hs.total
  have hregs : h₁.regs = h.regs := congrArg Glass.regs hg₁
  have hsnap₁ : r₁.AdoptsSnapshot h₁ ↔ r.AdoptsSnapshot h := by
    have hd : h₁.dmaEnable = h.dmaEnable := congrArg Glass.dmaEnable hg₁
    have hq : r₁.lastDoneSeq = r.lastDoneSeq := congrArg Progress.doneSeq hr₁
    have hw : r₁.cpuSawPacket = r.cpuSawPacket := congrArg Progress.sawPacket hr₁
    rw [AdoptsSnapshot, AdoptsSnapshot, hd, hq, hw, hregs]
  obtain ⟨o, ho, hout⟩ := presentDoneFrame_sound hs₁ h₁ t (by
    rw [hsnap₁, hregs]
    exact hsnap)
  by_cases hfilter : o.rx.hwFilterOn = true
  · refine ⟨o, ?_, hout.sound⟩
    simp only [tick, he₁, ho, if_pos hfilter, bind, Except.bind]
    rfl
  obtain ⟨o₂, ho₂, hs₂⟩ := adoptDmaFrame_sound hout.sound o.hub t (by
    rw [hout.dma, hout.regs, hout.frameId, hout.saw, hregs]
    intro hd hid hw
    apply hlive
    refine ⟨(congrArg Glass.dmaEnable hg₁).symm.trans hd, ?_, ?_, ?_⟩
    · exact (congrArg Progress.hwFilter hr₁).symm.trans
        (hout.filter.symm.trans (Bool.eq_false_iff.mpr hfilter))
    · exact (congrArg Progress.sawPacket hr₁).symm.trans hw
    · have hcur : r₁.currentFrameId = r.currentFrameId := congrArg Progress.frameId hr₁
      simpa only [hsnap₁, hcur] using hid)
  by_cases hz : o₂.rx.totalChunks = 0
  · refine ⟨⟨o.presented || o₂.presented, o₂.rx, o₂.hub⟩, ?_, hs₂⟩
    simp only [tick, he₁, ho, if_neg hfilter, ho₂, if_pos hz, bind, Except.bind]
    rfl
  · obtain ⟨o₃, ho₃, hs₃⟩ := tickFrame_sound hs₂ o₂.hub t (o.presented || o₂.presented)
    refine ⟨o₃, ?_, hs₃⟩
    simp only [tick, he₁, ho, if_neg hfilter, ho₂, if_neg hz, ho₃, bind, Except.bind]

end BitmapReceiver

/-- No frame is taken over from the gateware that has more chunks than the arrival mask. -/
def Event.MaskHolds (r : BitmapReceiver) (e : Event) : Prop :=
  match e.call with
  | .tick => (r.AdoptsSnapshot e.hub → e.hub.regs.totalChunksDone.toNat ≤ MAX_CHUNKS) ∧
      (r.AdoptsIdentity e.hub → e.hub.regs.totalChunks.toNat ≤ MAX_CHUNKS)
  | .presentDoneNow => r.hwFilterOn = true → r.AdoptsSnapshot e.hub →
      e.hub.regs.totalChunksDone.toNat ≤ MAX_CHUNKS
  | _ => True

namespace Event

open BitmapReceiver

lemma run_sound {r : BitmapReceiver} {e : Event} (hs : Sound r) (hm : e.MaskHolds r) :
    ∃ o, e.run r = .ok o ∧ Sound o.rx := by
  rcases e with ⟨call, hub, t⟩
  cases call with
  | processPacket data => exact processPacket_sound hs hub data t
  | tick => exact tick_sound hs hub t hm.1 hm.2
  | presentDoneNow =>
    simp only [run, presentDoneNow]
    split
    · exact ⟨_, rfl, hs⟩
    · rename_i hf
      obtain ⟨o, ho, hout⟩ := presentDoneFrame_sound hs hub t (hm (not_not.mp hf))
      exact ⟨o, ho, hout.sound⟩
  | setHold on => exact ⟨_, rfl, hs.palette, hs.total⟩
  | setCpuPixels on =>
    refine ⟨_, rfl, ?_⟩
    cases on
    · exact ⟨hs.palette, Nat.zero_le _⟩
    · exact ⟨hs.palette, hs.total⟩
  | setHwFilter on => exact ⟨_, rfl, hs.palette, hs.total⟩
  | forgetFrame => exact ⟨_, rfl, hs.palette, Nat.zero_le _⟩
  | invalidateModeCache => exact ⟨_, rfl, hs.palette, hs.total⟩

/-- Along every run from power-up that adopts no oversize frame, every call returns. -/
theorem run_returns (es : List Event) (hm : Always step (fun r e => e.MaskHolds r) {} es) :
    Always step (fun r e => ∃ o, e.run r = .ok o) {} es := by
  apply Always.of_safe (I := Sound) _ _ sound_new hm
  · rintro r e r' hs hm ⟨o, ho, rfl⟩
    obtain ⟨o', ho', hs'⟩ := run_sound hs hm
    rw [ho] at ho'
    cases ho'
    exact hs'
  · intro r e hs hm
    obtain ⟨o, ho, -⟩ := run_sound hs hm
    exact ⟨o, ho⟩

/-- A finished frame of `total` chunks, as the gateware reports it to a card with the DMA on. -/
def finished (total : BitVec 16) : Hub75 :=
  { Hub75.new (fun _ => 0) { Registers.reset with
      totalChunksDone := total, doneSeq := 1, doneSeqAfter := 1 } with dmaEnable := true }

theorem run_returns_finished :
    Always step (fun r e => ∃ o, e.run r = .ok o) {} [⟨.tick, finished 512, 0⟩] :=
  run_returns _ ⟨⟨fun _ => by decide, fun _ => by decide⟩, fun _ _ => trivial⟩

theorem run_panics_finished :
    ¬ Always step (fun r e => ∃ o, e.run r = .ok o) {} [⟨.tick, finished 513, 0⟩] := by
  rintro ⟨⟨o, ho⟩, -⟩
  have ha : AdoptsSnapshot {} (finished 513) := by decide
  have he : (⟨.tick, finished 513, 0⟩ : Event).run {} = .error .indexOutOfBounds := by
    change tick {} (finished 513) 0 = _
    have hp : tickPalette {} (finished 513) 0 = .ok ({}, finished 513) := rfl
    simp only [tick, hp, presentDoneFrame_error 0 ha (by decide), bind, Except.bind]
  rw [he] at ho
  cases ho

end Event

end Ledwall.Receiver
