import Ledwall.Library.Runs
import Ledwall.Receiver.Packets

/-! The receiver's calls in any order, and what holds of every receiver they lead to. -/

namespace Ledwall.Receiver

open Ledwall.Library.Outcomes Ledwall.Library.Runs Ledwall.Wire

/-- A call of the receiver's interface. -/
inductive Call
  | processPacket (data : Slice)
  | tick
  | presentDoneNow
  | setHold (on : Bool)
  | setCpuPixels (on : Bool)
  | setHwFilter (on : Bool)
  | forgetFrame
  | invalidateModeCache

/-- A call with the driver and the registers it finds; nothing is assumed of either. -/
structure Event where
  call : Call
  hub : Hub75
  timeMs : ℤ

def Event.run (e : Event) (r : BitmapReceiver) : Except Panic Outcome :=
  match e.call with
  | .processPacket data => r.processPacket e.hub data e.timeMs
  | .tick => r.tick e.hub e.timeMs
  | .presentDoneNow => r.presentDoneNow e.hub e.timeMs
  | .setHold on => .ok ⟨false, r.setHold on, e.hub⟩
  | .setCpuPixels on => .ok ⟨false, r.setCpuPixels on, e.hub⟩
  | .setHwFilter on => .ok ⟨false, r.setHwFilter on, e.hub⟩
  | .forgetFrame => .ok ⟨false, r.forgetFrame, e.hub⟩
  | .invalidateModeCache => .ok ⟨false, r.invalidateModeCache, e.hub⟩

/-- The call with `judge` in the place of `present`. -/
def Event.judging (e : Event) (r : BitmapReceiver) (judge : Judge) : Except Panic Outcome :=
  match e.call with
  | .processPacket data => r.processPacketWith judge e.hub data e.timeMs
  | .tick => r.tickWith judge e.hub e.timeMs
  | .presentDoneNow => r.presentDoneNowWith judge e.hub e.timeMs
  | _ => e.run r

lemma Event.judging_present (e : Event) (r : BitmapReceiver) :
    e.judging r presentAt = e.run r := by
  rcases e with ⟨call, hub, t⟩
  cases call <;> rfl

def Event.step (r : BitmapReceiver) (e : Event) (r' : BitmapReceiver) : Prop :=
  ∃ o, e.run r = .ok o ∧ o.rx = r'

/-- A call, with the registers it finds. -/
structure Poll where
  call : Call
  regs : Registers
  timeMs : ℤ

/-- The driver as the call finds it. -/
def Poll.sees (p : Poll) (h : Hub75) : Hub75 := { h with regs := p.regs }

def Poll.run (p : Poll) (r : BitmapReceiver) (h : Hub75) : Except Panic Outcome :=
  (⟨p.call, { h with regs := p.regs }, p.timeMs⟩ : Event).run r

def Poll.judging (p : Poll) (r : BitmapReceiver) (h : Hub75) (judge : Judge) :
    Except Panic Outcome :=
  (⟨p.call, { h with regs := p.regs }, p.timeMs⟩ : Event).judging r judge

lemma Poll.judging_present (p : Poll) (r : BitmapReceiver) (h : Hub75) :
    p.judging r h presentAt = p.run r h := Event.judging_present _ r

/-- A receiver that calls have led to from power-up. -/
def Reachable (r : BitmapReceiver) : Prop := ∃ es, Run Event.step {} es r

namespace BitmapReceiver

/-- What every call keeps. -/
structure Kept (r : BitmapReceiver) : Prop where
  palette : r.PaletteFits
  total_lt : r.progress.total < 65536
  idle : r.progress.total = 0 → r.progress.received = 0 ∧ r.progress.mask = ChunkMask.empty

lemma kept_new : Kept {} := ⟨Nat.zero_le _, by decide, fun _ => ⟨rfl, rfl⟩⟩

lemma Kept.of_progress {r s : BitmapReceiver} {q : Progress} (hr : Kept r) (hp : s.PaletteFits)
    (hq : s.progress = q) (ht : q.total = r.progress.total)
    (hv : q.received = r.progress.received) (hm : q.mask = r.progress.mask) : Kept s := by
  subst hq
  refine ⟨hp, ht.trans_lt hr.total_lt, ?_⟩
  rw [ht, hv, hm]
  exact hr.idle

abbrev Keeps (x : Except Panic Outcome) : Prop := Ensures (fun o => Kept o.rx) x

section Calls

variable {r : BitmapReceiver} {p : PixelHeader} {ppc : ℕ} {indexed presented : Bool} {data : Slice}

lemma present_keeps (hr : Kept r) (h : Hub75) (t : ℤ) : Keeps (r.present h t) := by
  by_cases hn : r.progress.Countable
  · obtain ⟨r', h', he, ⟨c, hp, -⟩, hf, -⟩ := r.present_ok h t hr.palette hn
    rw [he]
    apply Ensures.ok
    simp only [Progress.presented] at hp
    split at hp
    · exact hr.of_progress hf hp rfl rfl rfl
    · refine ⟨hf, ?_, fun _ => ⟨congrArg Progress.received hp, congrArg Progress.mask hp⟩⟩
      rw [hp]
      exact Nat.zero_lt_succ _
  · rw [r.present_error h t hn hr.total_lt]
    exact .error _ _

lemma complete_keeps (hr : Kept r) (h : Hub75) (t : ℤ) (presented : Bool) :
    Keeps (r.complete h t presented) := by
  simp only [complete]
  split
  · exact (present_keeps hr h t).bind fun o ho => .ok ho
  · exact .ok hr

lemma storeChunk_keeps (hr : Kept r) (h : Hub75) (t : ℤ) (hz : r.progress.total ≠ 0)
    (hi : p.chunkIndex < MAX_CHUNKS) (hd : p.hdrLen ≤ data.bytes.length) :
    Keeps (r.storeChunk h p ppc indexed data t presented) := by
  cases hm : r.chunkMask.has p.chunkIndex with
  | true =>
    obtain ⟨r', he, hp, hf⟩ := storeChunk_duplicate h ppc indexed t presented data hi hm
    rw [he]
    apply Ensures.ok
    exact hr.of_progress (hf.mpr hr.palette) hp rfl rfl rfl
  | false =>
    obtain ⟨r', h', he, ht, hf, -⟩ := storeChunk_new h ppc indexed t presented hi hd hm
    have ht : r'.progress.total = r.progress.total := ht
    rw [he]
    apply complete_keeps
    refine ⟨hf.mpr hr.palette, ht.trans_lt hr.total_lt, fun h₀ => ?_⟩
    exact absurd (ht.symm.trans h₀) hz

lemma pixelPacket_keeps (hr : Kept r) (h : Hub75) (indexed wide : Bool) (t : ℤ)
    (hlen : HEADER_SIZE ≤ data.bytes.length) : Keeps (r.pixelPacket h indexed wide data t) := by
  obtain ⟨r₀, h₀, hp, hf, -, hcase⟩ := r.pixelPacket_cases h indexed wide data t hlen
  have hr₀ : Kept r₀ := hr.of_progress (hf.mpr hr.palette) hp rfl rfl rfl
  have hidx (ha : Accepts r.progress h.glass indexed wide data.bytes) :
      (headerOf data.bytes wide).chunkIndex < MAX_CHUNKS :=
    ha.valid.index_lt.trans_le ha.valid.total_le
  have hhdr (ha : Accepts r.progress h.glass indexed wide data.bytes) :
      (headerOf data.bytes wide).hdrLen ≤ data.bytes.length := by
    rw [headerOf_hdrLen]
    exact ha.long
  cases hcase with
  | refused _ he =>
    rw [he]
    exact .ok hr₀
  | stored ha hc he =>
    rw [he]
    apply storeChunk_keeps hr₀ h₀ t _ (hidx ha) (hhdr ha)
    rw [hp]
    exact fun hz => ha.valid.total_ne (hc.2.trans hz)
  | flushed ha _ he =>
    rw [he]
    refine (present_keeps hr₀ h₀ t).bind fun o ho => ?_
    have hb : Kept (o.rx.beginFrame (headerOf data.bytes wide)) :=
      ⟨ho.palette, ha.valid.total_le.trans_lt (by decide), fun hz => absurd hz ha.valid.total_ne⟩
    exact storeChunk_keeps hb o.hub t ha.valid.total_ne (hidx ha) (hhdr ha)

lemma processPacket_keeps (hr : Kept r) (h : Hub75) (data : Slice) (t : ℤ) :
    Keeps (r.processPacket h data t) := by
  rcases r.processPacket_cases h data t hr.palette with
    ⟨indexed, wide, r₀, hlen, -, -, -, hp, hf, he⟩ | ⟨-, r', h', he, hf, -, hp⟩
  · rw [he]
    exact pixelPacket_keeps (hr.of_progress hf hp rfl rfl rfl) h indexed wide t hlen
  · rw [he]
    apply Ensures.ok
    rcases hp with hp | ⟨-, hp⟩
    · exact hr.of_progress hf hp rfl rfl rfl
    · exact hr.of_progress hf hp rfl rfl rfl

end Calls

/-- `present_done_frame` takes the finished frame over from the snapshot. -/
def AdoptsSnapshot (r : BitmapReceiver) (h : Hub75) : Prop :=
  h.dmaEnable = true ∧ h.regs.doneSeqAfter = h.regs.doneSeq ∧ h.regs.totalChunksDone.toNat ≠ 0 ∧
    h.regs.doneSeq.toNat ≠ r.lastDoneSeq ∧ r.cpuSawPacket = false

instance (r : BitmapReceiver) (h : Hub75) : Decidable (r.AdoptsSnapshot h) := by
  unfold AdoptsSnapshot
  infer_instance

lemma takeSnapshot_progress (r : BitmapReceiver) (h : Hub75) (words : Vector Word 16)
    (fid total : ℕ) (indexed : Bool) (t : ℤ) :
    let s := r.takeSnapshot h words fid total indexed t
    s.1.progress.total = total ∧ s.1.progress.frameId = fid ∧
      s.1.progress.sawPacket = r.progress.sawPacket ∧
      s.1.progress.hwFilter = r.progress.hwFilter ∧ (s.1.PaletteFits ↔ r.PaletteFits) ∧
      s.2.regs = h.regs ∧ s.2.dmaEnable = h.dmaEnable := by
  simp only [takeSnapshot, applyMode]
  split <;> exact ⟨rfl, rfl, rfl, rfl, Iff.rfl, rfl, rfl⟩

lemma takeIdentity_progress (r : BitmapReceiver) (h : Hub75) (fid total : ℕ) (indexed : Bool)
    (t : ℤ) :
    let s := r.takeIdentity h fid total indexed t
    s.1.progress.total = total ∧ (s.1.PaletteFits ↔ r.PaletteFits) := by
  simp only [takeIdentity, applyMode]
  split <;> exact ⟨rfl, Iff.rfl⟩

def snapshotTaken (r : BitmapReceiver) (h : Hub75) (t : ℤ) : BitmapReceiver × Hub75 :=
  takeSnapshot { r with lastDoneSeq := h.regs.doneSeq.toNat } h h.regs.done
    h.regs.frameIdDone.toNat h.regs.totalChunksDone.toNat h.regs.indexedDone t

lemma presentDoneFrameWith_adopts {r : BitmapReceiver} {h : Hub75} (judge : Judge) (t : ℤ)
    (ha : r.AdoptsSnapshot h) : r.presentDoneFrameWith judge h t =
      judge ((r.snapshotTaken h t).1, (r.snapshotTaken h t).2, t) := by
  obtain ⟨hd, hq, hz, hn, hw⟩ := ha
  have hc : ¬ (h.regs.totalChunksDone.toNat = 0 ∨ h.regs.doneSeq.toNat = r.lastDoneSeq) :=
    not_or.mpr ⟨hz, hn⟩
  have hs : ¬ r.cpuSawPacket = true := Bool.eq_false_iff.mp hw
  simp only [presentDoneFrameWith, Hub75.dmaDoneFrame, hd, if_true, hq, ne_eq, not_true_eq_false,
    if_false, if_neg hc, if_neg hs]
  rfl

lemma presentDoneFrame_adopts {r : BitmapReceiver} {h : Hub75} (t : ℤ) (ha : r.AdoptsSnapshot h) :
    r.presentDoneFrame h t = (r.snapshotTaken h t).1.present (r.snapshotTaken h t).2 t :=
  presentDoneFrameWith_adopts presentAt t ha

lemma presentDoneFrameWith_skips {r : BitmapReceiver} {h : Hub75} (t : ℤ)
    (hn : ¬ r.AdoptsSnapshot h) : ∃ seq, ∀ judge,
      r.presentDoneFrameWith judge h t = .ok ⟨false, { r with lastDoneSeq := seq }, h⟩ := by
  by_cases hd : h.dmaEnable = true
  · by_cases hq : h.regs.doneSeqAfter = h.regs.doneSeq
    · by_cases hz : h.regs.totalChunksDone.toNat = 0 ∨ h.regs.doneSeq.toNat = r.lastDoneSeq
      · refine ⟨r.lastDoneSeq, ?_⟩
        intro judge
        simp only [presentDoneFrameWith, Hub75.dmaDoneFrame, hd, if_true, hq, ne_eq, not_true_eq_false,
          if_false, if_pos hz]
        rfl
      · have hw : r.cpuSawPacket = true := by
          by_contra hw
          exact hn ⟨hd, hq, (not_or.mp hz).1, (not_or.mp hz).2, Bool.eq_false_iff.mpr hw⟩
        refine ⟨h.regs.doneSeq.toNat, ?_⟩
        intro judge
        simp only [presentDoneFrameWith, Hub75.dmaDoneFrame, hd, if_true, hq, ne_eq, not_true_eq_false,
          if_false, if_neg hz, if_pos hw]
        rfl
    · refine ⟨r.lastDoneSeq, ?_⟩
      intro judge
      simp only [presentDoneFrameWith, Hub75.dmaDoneFrame, hd, if_true, ne_eq, hq, not_false_eq_true]
      rfl
  · refine ⟨r.lastDoneSeq, ?_⟩
    intro judge
    simp only [presentDoneFrameWith, Hub75.dmaDoneFrame, if_neg hd]
    rfl

lemma presentDoneFrame_skips {r : BitmapReceiver} {h : Hub75} (t : ℤ) (hn : ¬ r.AdoptsSnapshot h) :
    ∃ seq, r.presentDoneFrame h t = .ok ⟨false, { r with lastDoneSeq := seq }, h⟩ := by
  obtain ⟨seq, he⟩ := presentDoneFrameWith_skips t hn
  exact ⟨seq, he presentAt⟩

lemma tickPalette_ok {r : BitmapReceiver} (hf : r.PaletteFits) (h : Hub75) (t : ℤ) :
    ∃ r' h', r.tickPalette h t = .ok (r', h') ∧ r'.progress = r.progress ∧ r'.PaletteFits ∧
      h'.glass = h.glass := by
  simp only [tickPalette]
  split
  · exact r.applyPendingPalette_ok h hf
  · exact ⟨r, h, rfl, rfl, hf, rfl⟩

section Ticks

variable {r : BitmapReceiver}

lemma presentDoneFrame_keeps (hr : Kept r) (h : Hub75) (t : ℤ) :
    Keeps (r.presentDoneFrame h t) := by
  by_cases ha : r.AdoptsSnapshot h
  · obtain ⟨ht, -, -, -, hf, -⟩ := takeSnapshot_progress
      { r with lastDoneSeq := h.regs.doneSeq.toNat } h h.regs.done h.regs.frameIdDone.toNat
      h.regs.totalChunksDone.toNat h.regs.indexedDone t
    rw [presentDoneFrame_adopts t ha]
    apply present_keeps
    refine ⟨hf.mpr hr.palette, ht.trans_lt h.regs.totalChunksDone.isLt, fun hz => ?_⟩
    exact absurd (ht.symm.trans hz) ha.2.2.1
  · obtain ⟨seq, he⟩ := presentDoneFrame_skips t ha
    rw [he]
    exact .ok ⟨hr.palette, hr.total_lt, hr.idle⟩

lemma adoptDmaFrame_keeps (hr : Kept r) (h : Hub75) (t : ℤ) : Keeps (r.adoptDmaFrame h t) := by
  by_cases hd : h.dmaEnable = true
  · simp only [adoptDmaFrame, Hub75.dmaFrameIdentity, if_pos hd]
    split
    · exact .ok hr
    · rename_i hz
      split
      · exact .ok hr
      · split
        · exact .ok hr
        · refine (present_keeps hr h t).bind fun o ho => ?_
          obtain ⟨ht, hf⟩ := takeIdentity_progress o.rx o.hub h.regs.frameId.toNat
            h.regs.totalChunks.toNat h.regs.indexed t
          apply Ensures.ok
          refine ⟨hf.mpr ho.palette, ht.trans_lt h.regs.totalChunks.isLt, fun h₀ => ?_⟩
          exact absurd (ht.symm.trans h₀) hz
  · simp only [adoptDmaFrame, Hub75.dmaFrameIdentity, if_neg hd]
    exact .ok hr

lemma tickFrame_keeps (hr : Kept r) (h : Hub75) (t : ℤ) (presented : Bool)
    (hz : r.progress.total ≠ 0) : Keeps (r.tickFrame h t presented) := by
  obtain ⟨ht, -, hf⟩ := r.mergeDmaArrival_total h t
  have hm : Kept (r.mergeDmaArrival h t) :=
    ⟨hf.mpr hr.palette, ht.trans_lt hr.total_lt, fun h₀ => absurd (ht.symm.trans h₀) hz⟩
  simp only [tickFrame]
  split
  · exact (present_keeps hm h t).bind fun o ho => .ok ho
  · split
    · exact .ok hm
    · split
      · exact .ok hm
      · have hs : Kept (r.mergeDmaArrival h t).countStale := ⟨hm.palette, hm.total_lt, hm.idle⟩
        exact (present_keeps hs h t).bind fun o ho => .ok ho

lemma tick_keeps (hr : Kept r) (h : Hub75) (t : ℤ) : Keeps (r.tick h t) := by
  obtain ⟨r₁, h₁, he₁, hp₁, hf₁, -⟩ := tickPalette_ok hr.palette h t
  have hr₁ : Kept r₁ := hr.of_progress hf₁ hp₁ rfl rfl rfl
  simp only [tick, he₁]
  refine (presentDoneFrame_keeps hr₁ h₁ t).bind fun o ho => ?_
  split
  · exact .ok ho
  · refine (adoptDmaFrame_keeps ho o.hub t).bind fun o₂ ho₂ => ?_
    split
    · exact .ok ho₂
    · rename_i hz
      exact tickFrame_keeps ho₂ o₂.hub t _ hz

end Ticks

end BitmapReceiver

open BitmapReceiver

lemma Event.run_keeps {r : BitmapReceiver} (hr : Kept r) (e : Event) : Keeps (e.run r) := by
  rcases e with ⟨call, hub, t⟩
  cases call with
  | processPacket data => exact processPacket_keeps hr hub data t
  | tick => exact tick_keeps hr hub t
  | presentDoneNow =>
    simp only [run, presentDoneNow]
    split
    · exact .ok hr
    · exact presentDoneFrame_keeps hr hub t
  | setHold on => exact .ok ⟨hr.palette, hr.total_lt, hr.idle⟩
  | setCpuPixels on =>
    apply Ensures.ok
    cases on
    · exact ⟨hr.palette, Nat.zero_lt_succ _, fun _ => ⟨rfl, rfl⟩⟩
    · exact ⟨hr.palette, hr.total_lt, hr.idle⟩
  | setHwFilter on => exact .ok ⟨hr.palette, hr.total_lt, hr.idle⟩
  | forgetFrame => exact .ok ⟨hr.palette, Nat.zero_lt_succ _, fun _ => ⟨rfl, rfl⟩⟩
  | invalidateModeCache => exact .ok ⟨hr.palette, hr.total_lt, hr.idle⟩

theorem Reachable.kept {r : BitmapReceiver} (hr : Reachable r) : Kept r := by
  obtain ⟨es, h⟩ := hr
  apply h.invariant (C := fun _ _ => True) (I := Kept) _ kept_new
  · exact Always.of_forall fun _ _ => trivial
  · rintro s e u hs - ⟨o, ho, rfl⟩
    exact Event.run_keeps hs e o ho

end Ledwall.Receiver
