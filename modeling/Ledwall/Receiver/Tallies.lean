import Ledwall.Receiver.DmaEvidence

/-! What `present` takes for missing, when chunks are counted by the gateware. -/

namespace Ledwall.Receiver

open Ledwall.Library.Callees Ledwall.Library.Outcomes Ledwall.Library.Runs Ledwall.Wire

namespace BitmapReceiver

/-- What `present` takes for missing is what the mask lacks. -/
def Exact (r : BitmapReceiver) : Prop :=
  r.totalChunks % 65536 - r.received =
    Nat.count (fun i => r.chunkMask.has i = false) r.totalChunks

instance (r : BitmapReceiver) : Decidable r.Exact := Nat.decEq _ _

/-- The mask is of the frame in progress, and `received` counts it. -/
structure Tallied (r : BitmapReceiver) : Prop where
  palette : r.PaletteFits
  total_le : r.progress.total ≤ MAX_CHUNKS
  below : r.progress.mask.Below r.progress.total
  received : r.progress.received = r.progress.mask.count

variable {r : BitmapReceiver} {h : Hub75} {t : ℤ} {p : PixelHeader} {ppc : ℕ}
  {indexed wide presented : Bool} {data : Slice}

lemma tallied_new : Tallied {} :=
  ⟨Nat.zero_le _, Nat.zero_le _, ChunkMask.below_empty _, ChunkMask.count_empty.symm⟩

lemma Tallied.exact (hr : Tallied r) : r.Exact := by
  have hmax : MAX_CHUNKS = 512 := rfl
  have hlack := hr.below.count_add_lacking hr.total_le
  have htotal := hr.total_le
  have hreceived := hr.received
  change r.totalChunks ≤ _ at htotal
  change r.received = r.chunkMask.count at hreceived
  change r.chunkMask.count + Nat.count (fun i => r.chunkMask.has i = false) r.totalChunks =
    r.totalChunks at hlack
  rw [Exact, Nat.mod_eq_of_lt (by omega)]
  omega

lemma Tallied.of_progress {s : BitmapReceiver} (hr : Tallied r) (hp : s.PaletteFits)
    (ht : s.progress.total = r.progress.total) (hm : s.progress.mask = r.progress.mask)
    (hv : s.progress.received = r.progress.received) : Tallied s := by
  refine ⟨hp, ?_, ?_, ?_⟩
  · rw [ht]
    exact hr.total_le
  · rw [ht, hm]
    exact hr.below
  · rw [hv, hm]
    exact hr.received

lemma Tallied.idle (hr : Tallied r) (hz : r.progress.total = 0) :
    (∀ i, r.progress.mask.has i = false) ∧ r.received = 0 := by
  have hbelow := hr.below
  have htotal := hr.total_le
  rw [hz] at hbelow htotal
  refine ⟨fun i => Bool.eq_false_iff.mpr fun hi => absurd (hbelow i hi) (Nat.not_lt_zero i), ?_⟩
  exact Nat.le_zero.mp (hr.received.trans_le (hbelow.count_le htotal))

/-- Wherever the computation calls `present`, the receiver has counted exactly; so has the one it
leaves. -/
abbrev Tallies (f : Judge → Except Panic Outcome) : Prop :=
  Within presentAt (fun s => s.1.Exact) (fun o => Tallied o.rx) f

/-- What `present` leaves: no frame in progress, the registers as they were. -/
structure Judged (h : Hub75) (o : Outcome) : Prop where
  tallied : Tallied o.rx
  idle : o.rx.progress.total = 0
  regs : o.hub.regs = h.regs
  dma : o.hub.dmaEnable = h.dmaEnable

lemma present_judged (hr : Tallied r) (h : Hub75) (t : ℤ) :
    Ensures (Judged h) (r.present h t) := by
  obtain ⟨r', h', he, ⟨c, hp, -⟩, hf, hregs, ⟨hdma, -⟩, -⟩ := r.present_ok h t hr.palette (.inl hr.total_le)
  rw [he]
  apply Ensures.ok
  rw [Progress.presented] at hp
  split at hp
  · rename_i hz
    refine ⟨hr.of_progress hf ?_ ?_ ?_, ?_, hregs, hdma⟩
    · rw [hp]
    · rw [hp]
    · rw [hp]
    · exact (congrArg Progress.total hp).trans hz
  · refine ⟨⟨hf, ?_, ?_, ?_⟩, congrArg Progress.total hp, hregs, hdma⟩
    · rw [hp]
      exact Nat.zero_le _
    · rw [hp]
      exact ChunkMask.below_empty _
    · rw [hp]
      exact ChunkMask.count_empty.symm

lemma judge_tallies (hr : Tallied r) (h : Hub75) (t : ℤ) :
    Within presentAt (fun s => s.1.Exact) (Judged h) fun judge => judge (r, h, t) :=
  .call hr.exact (present_judged hr h t)

lemma completeWith_tallies (hr : Tallied r) (h : Hub75) (t : ℤ) (presented : Bool) :
    Tallies fun judge => r.completeWith judge h t presented := by
  unfold completeWith
  refine .ite (fun _ => ?_) fun _ => .ok hr
  refine (judge_tallies hr h t).bind fun o ho => ?_
  exact .ok ho.tallied

/-- The arrival registers are of the frame in progress. -/
def Arrives (r : BitmapReceiver) (h : Hub75) : Prop :=
  h.dmaEnable = true ∧ h.regs.arrivalFrameId.toNat = r.currentFrameId

lemma mergeDmaArrival_tallied (hr : Tallied r) (t : ℤ)
    (hb : r.Arrives h → (ChunkMask.ofWords h.regs.arrival).Below r.totalChunks) :
    Tallied (r.mergeDmaArrival h t) := by
  simp only [mergeDmaArrival, Hub75.dmaArrival]
  split
  · exact hr
  · rename_i words fid he
    split at he
    · rename_i hd
      cases he
      split
      · exact hr
      · rename_i hid
        have hbelow : (r.chunkMask.union (ChunkMask.ofWords h.regs.arrival)).Below r.totalChunks := by
          apply ChunkMask.Below.union hr.below
          exact hb ⟨hd, not_not.mp hid⟩
        refine ⟨hr.palette, hr.total_le, hbelow, ?_⟩
        have hmax : MAX_CHUNKS = 512 := rfl
        have hcount := hbelow.count_le hr.total_le
        have htotal : r.totalChunks ≤ MAX_CHUNKS := hr.total_le
        change min _ r.totalChunks % 65536 =
          (r.chunkMask.union (ChunkMask.ofWords h.regs.arrival)).count
        rw [min_eq_left hcount, Nat.mod_eq_of_lt (by omega)]
    · cases he

lemma countChunk_tallied (hr : Tallied r) (t : ℤ) (hi : p.chunkIndex < r.totalChunks)
    (hn : r.chunkMask.has p.chunkIndex = false) :
    Tallied (r.countChunk (r.chunkMask.add p.chunkIndex) t) := by
  have hmax : MAX_CHUNKS = 512 := rfl
  have htotal : r.totalChunks ≤ MAX_CHUNKS := hr.total_le
  have hm : p.chunkIndex < MAX_CHUNKS := hi.trans_le htotal
  have hreceived : r.received = r.chunkMask.count := hr.received
  have hbelow : (r.chunkMask.add p.chunkIndex).Below r.totalChunks := ChunkMask.Below.add hr.below hi hm
  refine ⟨hr.palette, hr.total_le, hbelow, ?_⟩
  change (r.received + 1) % 65536 = (r.chunkMask.add p.chunkIndex).count
  have hcount := ChunkMask.count_add r.chunkMask hm hn
  have hle := hbelow.count_le hr.total_le
  rw [hcount, hreceived, Nat.mod_eq_of_lt (by omega)]

lemma storeChunkWith_tallies (hr : Tallied r) (hi : p.chunkIndex < r.totalChunks)
    (hd : p.hdrLen ≤ data.bytes.length)
    (hb : r.Arrives h → r.totalChunks ≤ r.received + 2 →
      (ChunkMask.ofWords h.regs.arrival).Below r.totalChunks) :
    Tallies fun judge => r.storeChunkWith judge h p ppc indexed data t presented := by
  have hmax : MAX_CHUNKS = 512 := rfl
  have htotal : r.totalChunks ≤ MAX_CHUNKS := hr.total_le
  have hm : p.chunkIndex < MAX_CHUNKS := hi.trans_le htotal
  simp only [storeChunkWith, r.chunkMask.test_eq hm, r.chunkMask.insert_eq hm]
  refine Within.bind (R := fun b => b = r.chunkMask.has p.chunkIndex) (.ok rfl) ?_
  rintro b rfl
  refine .ite (fun _ => .ok ?_) fun hn => ?_
  · exact ⟨hr.palette, hr.total_le, hr.below, hr.received⟩
  · have hn : r.chunkMask.has p.chunkIndex = false := Bool.eq_false_iff.mpr hn
    have hdraw : Ensures (fun h' : Hub75 => r.Arrives h' → h' = h)
        (drawChunk h p ppc indexed data) := by
      obtain ⟨h', he, -, hg⟩ := drawChunk_ok h p ppc indexed data hd
      rw [he]
      apply Ensures.ok
      intro ha
      cases hon : h.dmaEnable with
      | true =>
        rw [drawChunk, if_pos hon] at he
        cases he
        rfl
      | false =>
        have hoff : h'.dmaEnable = false := (congrArg Glass.dmaEnable (hg hon)).trans hon
        exact absurd ha.1 (Bool.eq_false_iff.mp hoff)
    refine (Within.const hdraw).bind fun h' hh => ?_
    refine Within.bind (R := fun m => m = r.chunkMask.add p.chunkIndex) (.ok rfl) ?_
    rintro mask rfl
    have hc := countChunk_tallied hr t hi hn
    apply completeWith_tallies
    split
    · rename_i hask
      apply mergeDmaArrival_tallied hc
      intro ha
      have ha : r.Arrives h' := ha
      obtain rfl := hh ha
      apply hb ha
      have hrec : r.received = r.chunkMask.count := hr.received
      have hle := ChunkMask.Below.count_le hr.below htotal
      change r.totalChunks % 65536 ≤ ((r.received + 1) % 65536 + 1) % 65536 at hask
      omega
    · exact hc

lemma pixelPacketWith_tallies (hr : Tallied r) (hlen : HEADER_SIZE ≤ data.bytes.length)
    (hb : h.dmaEnable = true → h.regs.arrivalFrameId.toNat = (headerOf data.bytes wide).frameId →
      (headerOf data.bytes wide).totalChunks ≤
        (if (headerOf data.bytes wide).Continues r.progress then r.received else 0) + 2 →
      (ChunkMask.ofWords h.regs.arrival).Below (headerOf data.bytes wide).totalChunks) :
    Tallies fun judge => r.pixelPacketWith judge h indexed wide data t := by
  obtain ⟨r₀, h₀, hp, hf, hg, hpath⟩ := r.pixelPacket_paths h indexed wide data t hlen
  have hr₀ : Tallied r₀ := by
    refine hr.of_progress ((fits_of_account hf).mpr hr.palette) ?_ ?_ ?_
    · rw [hp]
      rfl
    · rw [hp]
      rfl
    · rw [hp]
      rfl
  have hregs : h₀.regs = h.regs := (congrArg Glass.regs hg).trans (Glass.latch_regs _ _ _)
  have hdma : h₀.dmaEnable = h.dmaEnable :=
    (congrArg Glass.dmaEnable hg).trans (Glass.latch_dmaEnable _ _ _)
  cases hpath with
  | refused _ he =>
    refine Within.of_eq ?_ he
    exact .ok hr₀
  | stored ha hc he =>
    refine Within.of_eq ?_ he
    have hid : r₀.currentFrameId = r.progress.frameId := congrArg Progress.frameId hp
    have htotal : r₀.totalChunks = r.progress.total := congrArg Progress.total hp
    have hreceived : r₀.received = r.received := congrArg Progress.received hp
    rw [if_pos hc] at hb
    apply storeChunkWith_tallies hr₀
    · rw [htotal, ← hc.2]
      exact ha.valid.index_lt
    · rw [headerOf_hdrLen]
      exact ha.long
    · rintro ⟨hd, hid'⟩ hask
      rw [hregs, hid, ← hc.1] at hid'
      rw [htotal, ← hc.2, hreceived] at hask
      rw [hregs, htotal, ← hc.2]
      exact hb (hdma.symm.trans hd) hid' hask
  | flushed ha hc he =>
    refine Within.of_eq ?_ he
    rw [if_neg hc] at hb
    refine (judge_tallies hr₀ h₀ t).bind fun o ho => ?_
    obtain ⟨hnone, hreceived⟩ := ho.tallied.idle ho.idle
    apply storeChunkWith_tallies
    · refine ⟨ho.tallied.palette, ha.valid.total_le, ?_, ho.tallied.received⟩
      intro i hi
      exact absurd hi (Bool.eq_false_iff.mp (hnone i))
    · exact ha.valid.index_lt
    · rw [headerOf_hdrLen]
      exact ha.long
    · rintro ⟨hd, hid⟩ hask
      rw [ho.regs, hregs] at hid ⊢
      apply hb (hdma.symm.trans (ho.dma.symm.trans hd)) hid
      change _ ≤ o.rx.received + 2 at hask
      rw [hreceived] at hask
      exact hask

lemma processPacketWith_tallies (hr : Tallied r)
    (hb : ∀ indexed wide, pixelMagic data.bytes = some (indexed, wide) → h.dmaEnable = true →
      h.regs.arrivalFrameId.toNat = (headerOf data.bytes wide).frameId →
      (headerOf data.bytes wide).totalChunks ≤
        (if (headerOf data.bytes wide).Continues r.progress then r.received else 0) + 2 →
      (ChunkMask.ofWords h.regs.arrival).Below (headerOf data.bytes wide).totalChunks) :
    Tallies fun judge => r.processPacketWith judge h data t := by
  rcases r.processPacket_paths h data t hr.palette with
    ⟨indexed, wide, hlen, hmagic, -, -, he⟩ | ⟨-, r', h', he, hf, -, hp, -⟩
  · refine Within.of_eq ?_ he
    apply pixelPacketWith_tallies _ hlen
    · exact hb indexed wide hmagic
    · exact hr.of_progress hr.palette rfl rfl rfl
  · refine Within.of_eq ?_ he
    apply Within.ok
    rcases hp with hp | ⟨-, hp⟩
    · refine hr.of_progress hf ?_ ?_ ?_ <;> rw [hp]
    · refine hr.of_progress hf ?_ ?_ ?_ <;> rw [hp] <;> rfl

lemma snapshotTaken_tallied (hr : Tallied r) (t : ℤ)
    (hmax : h.regs.totalChunksDone.toNat ≤ MAX_CHUNKS)
    (hb : (ChunkMask.ofWords h.regs.done).Below h.regs.totalChunksDone.toNat) :
    Tallied (r.snapshotTaken h t).1 := by
  have hcount := hb.count_le hmax
  simp only [snapshotTaken, takeSnapshot, applyMode]
  split <;> exact ⟨hr.palette, hmax, hb, min_eq_left hcount⟩

/-- What `present_done_frame` leaves. -/
structure Done (r : BitmapReceiver) (h : Hub75) (o : Outcome) : Prop where
  tallied : Tallied o.rx
  total : o.rx.totalChunks = if r.AdoptsSnapshot h then 0 else r.totalChunks
  snapshot : SnapshotOutcome r h o

lemma presentDoneFrameWith_tallies (hr : Tallied r) (t : ℤ)
    (hmax : h.regs.totalChunksDone.toNat ≤ MAX_CHUNKS)
    (hb : r.AdoptsSnapshot h →
      (ChunkMask.ofWords h.regs.done).Below h.regs.totalChunksDone.toNat) :
    Within presentAt (fun s => s.1.Exact) (Done r h) fun judge =>
      r.presentDoneFrameWith judge h t := by
  obtain ⟨o, he, hout⟩ := presentDoneFrame_sound ⟨hr.palette, hr.total_le⟩ h t fun _ => hmax
  by_cases ha : r.AdoptsSnapshot h
  · have hs := snapshotTaken_tallied hr t hmax (hb ha)
    refine Within.of_eq ?_ fun judge => presentDoneFrameWith_adopts judge t ha
    rw [presentDoneFrame_adopts t ha] at he
    refine .call hs.exact fun o' ho' => ?_
    have hj := present_judged hs (r.snapshotTaken h t).2 t o' ho'
    cases he.symm.trans ho'
    refine ⟨hj.tallied, ?_, hout⟩
    rw [if_pos ha]
    exact hj.idle
  · obtain ⟨seq, hw⟩ := presentDoneFrameWith_skips t ha
    refine Within.of_eq ?_ hw
    cases he.symm.trans (hw presentAt)
    refine .ok ⟨hr.of_progress hr.palette rfl rfl rfl, ?_, hout⟩
    rw [if_neg ha]

lemma takeIdentity_tallied (hr : Tallied r) (fid total : ℕ) (hmax : total ≤ MAX_CHUNKS) :
    Tallied (r.takeIdentity h fid total indexed t).1 := by
  simp only [takeIdentity, applyMode]
  split <;>
    exact ⟨hr.palette, hmax, ChunkMask.below_empty _, ChunkMask.count_empty.symm⟩

/-- `adopt_dma_frame` takes the live frame over. -/
def TakesLive (r : BitmapReceiver) (h : Hub75) : Prop :=
  h.dmaEnable = true ∧ h.regs.totalChunks.toNat ≠ 0 ∧ h.regs.frameId.toNat ≠ r.currentFrameId ∧
    r.cpuSawPacket = false

/-- What `adopt_dma_frame` leaves. -/
structure Adopted (r : BitmapReceiver) (h : Hub75) (o : Outcome) : Prop where
  tallied : Tallied o.rx
  live : r.TakesLive h → o.rx.totalChunks = h.regs.totalChunks.toNat ∧
    o.rx.currentFrameId = h.regs.frameId.toNat
  own : ¬ r.TakesLive h → o.rx.totalChunks = r.totalChunks ∧ o.rx.currentFrameId = r.currentFrameId
  regs : o.hub.regs = h.regs
  dma : o.hub.dmaEnable = h.dmaEnable

lemma adoptDmaFrameWith_tallies (hr : Tallied r) (t : ℤ)
    (hmax : h.regs.totalChunks.toNat ≤ MAX_CHUNKS) :
    Within presentAt (fun s => s.1.Exact) (Adopted r h) fun judge =>
      r.adoptDmaFrameWith judge h t := by
  have hown (hn : ¬ r.TakesLive h) : Adopted r h ⟨false, r, h⟩ :=
    ⟨hr, fun hl => absurd hl hn, fun _ => ⟨rfl, rfl⟩, rfl, rfl⟩
  by_cases hd : h.dmaEnable = true
  · simp only [adoptDmaFrameWith, Hub75.dmaFrameIdentity, if_pos hd]
    refine .ite (fun hz => .ok (hown fun hl => hl.2.1 hz)) fun hz => ?_
    refine .ite (fun hid => .ok (hown fun hl => hl.2.2.1 hid)) fun hid => ?_
    refine .ite (fun hw => .ok (hown fun hl => ?_)) fun hw => ?_
    · exact Bool.eq_false_iff.mp hl.2.2.2 hw
    · refine (judge_tallies hr h t).bind fun o ho => ?_
      apply Within.ok
      have hl : r.TakesLive h := ⟨hd, hz, hid, Bool.eq_false_iff.mpr hw⟩
      refine ⟨takeIdentity_tallied ho.tallied _ _ hmax, fun _ => ?_, fun hn => absurd hl hn, ?_, ?_⟩
      · simp only [takeIdentity, applyMode]
        split <;> exact ⟨rfl, rfl⟩
      · simp only [takeIdentity, applyMode]
        split <;> exact ho.regs
      · simp only [takeIdentity, applyMode]
        split <;> exact ho.dma
  · simp only [adoptDmaFrameWith, Hub75.dmaFrameIdentity, if_neg hd]
    exact .ok (hown fun hl => hd hl.1)

lemma tickFrameWith_tallies (hr : Tallied r) (t : ℤ) (presented : Bool)
    (hb : r.Arrives h → (ChunkMask.ofWords h.regs.arrival).Below r.totalChunks) :
    Tallies fun judge => r.tickFrameWith judge h t presented := by
  have hm := mergeDmaArrival_tallied hr t hb
  simp only [tickFrameWith]
  refine .ite (fun _ => ?_) fun _ => .ite (fun _ => .ok hm) fun _ => .ite (fun _ => .ok hm) fun _ => ?_
  · exact (judge_tallies hm h t).bind fun o ho => .ok ho.tallied
  · have hs : Tallied (r.mergeDmaArrival h t).countStale := hm.of_progress hm.palette rfl rfl rfl
    exact (judge_tallies hs h t).bind fun o ho => .ok ho.tallied

instance (r : BitmapReceiver) (h : Hub75) : Decidable (r.AdoptsIdentity h) := by
  unfold AdoptsIdentity
  infer_instance

/-- The frame a `tick` counts in: its id and its chunks. -/
def ticked (r : BitmapReceiver) (h : Hub75) : ℕ × ℕ :=
  if r.AdoptsIdentity h ∧ h.regs.totalChunks.toNat ≠ 0 then
    (h.regs.frameId.toNat, h.regs.totalChunks.toNat)
  else if r.AdoptsSnapshot h then (h.regs.frameIdDone.toNat, 0)
  else (r.currentFrameId, r.totalChunks)

lemma tickWith_tallies (hr : Tallied r) (t : ℤ)
    (hdone : h.regs.totalChunksDone.toNat ≤ MAX_CHUNKS)
    (hlive : h.regs.totalChunks.toNat ≤ MAX_CHUNKS)
    (hbdone : r.AdoptsSnapshot h →
      (ChunkMask.ofWords h.regs.done).Below h.regs.totalChunksDone.toNat)
    (hb : r.hwFilterOn = false → h.dmaEnable = true →
      h.regs.arrivalFrameId.toNat = (r.ticked h).1 → (r.ticked h).2 ≠ 0 →
      (ChunkMask.ofWords h.regs.arrival).Below (r.ticked h).2) :
    Tallies fun judge => r.tickWith judge h t := by
  obtain ⟨r₁, h₁, he₁, hr₁, hf₁, hg₁⟩ := tickPalette_ok hr.palette h t
  have hs₁ : Tallied r₁ := by
    refine hr.of_progress hf₁ ?_ ?_ ?_ <;> rw [hr₁]
  have hregs : h₁.regs = h.regs := congrArg Glass.regs hg₁
  have hdma : h₁.dmaEnable = h.dmaEnable := congrArg Glass.dmaEnable hg₁
  have hfilter : r₁.hwFilterOn = r.hwFilterOn := congrArg Progress.hwFilter hr₁
  have hsaw : r₁.cpuSawPacket = r.cpuSawPacket := congrArg Progress.sawPacket hr₁
  have hcur : r₁.currentFrameId = r.currentFrameId := congrArg Progress.frameId hr₁
  have htotal : r₁.totalChunks = r.totalChunks := congrArg Progress.total hr₁
  have hseq : r₁.lastDoneSeq = r.lastDoneSeq := congrArg Progress.doneSeq hr₁
  have hsnap : r₁.AdoptsSnapshot h₁ ↔ r.AdoptsSnapshot h := by
    rw [AdoptsSnapshot, AdoptsSnapshot, hdma, hseq, hsaw, hregs]
  simp only [tickWith, he₁]
  refine Within.bind (R := fun s => s = (r₁, h₁)) (.ok rfl) ?_
  rintro _ rfl
  refine Within.bind (presentDoneFrameWith_tallies hs₁ t (hregs ▸ hdone) ?_) fun o ho => ?_
  · rw [hsnap, hregs]
    exact hbdone
  refine .ite (fun _ => .ok ho.tallied) fun hoff => ?_
  have hoff : r.hwFilterOn = false :=
    (hfilter.symm.trans ho.snapshot.filter.symm).trans (Bool.eq_false_iff.mpr hoff)
  have hregs₂ : o.hub.regs = h.regs := ho.snapshot.regs.trans hregs
  have hdma₂ : o.hub.dmaEnable = h.dmaEnable := ho.snapshot.dma.trans hdma
  have hid₂ := ho.snapshot.frameId
  have htotal₂ := ho.total
  simp only [hsnap, hregs, hcur, htotal] at hid₂ htotal₂
  have htakes : o.rx.TakesLive o.hub ↔ r.AdoptsIdentity h ∧ h.regs.totalChunks.toNat ≠ 0 := by
    rw [TakesLive, AdoptsIdentity, hregs₂, hdma₂, hid₂, ho.snapshot.saw, hsaw]
    tauto
  refine Within.bind (adoptDmaFrameWith_tallies ho.tallied t (hregs₂ ▸ hlive)) fun o₂ ho₂ => ?_
  refine .ite (fun _ => .ok ho₂.tallied) fun hz => ?_
  have hticked : (o₂.rx.currentFrameId, o₂.rx.totalChunks) = r.ticked h := by
    by_cases hl : o.rx.TakesLive o.hub
    · obtain ⟨h₁, h₂⟩ := ho₂.live hl
      rw [ticked, if_pos (htakes.mp hl), h₁, h₂, hregs₂]
    · obtain ⟨h₁, h₂⟩ := ho₂.own hl
      rw [ticked, if_neg (fun hc => hl (htakes.mpr hc)), h₁, h₂, hid₂, htotal₂]
      split <;> rfl
  apply tickFrameWith_tallies ho₂.tallied
  rintro ⟨hd, hid⟩
  have hfid : o₂.rx.currentFrameId = (r.ticked h).1 := congrArg Prod.fst hticked
  have hchunks : o₂.rx.totalChunks = (r.ticked h).2 := congrArg Prod.snd hticked
  rw [ho₂.regs, hregs₂] at hid ⊢
  rw [hchunks] at hz ⊢
  rw [hfid] at hid
  exact hb hoff (hdma₂.symm.trans (ho₂.dma.symm.trans hd)) hid hz

end BitmapReceiver

namespace Event

open BitmapReceiver

/-- The frames the registers report fit the arrival mask. -/
def FramesFit (e : Event) : Prop :=
  e.hub.regs.totalChunks.toNat ≤ MAX_CHUNKS ∧ e.hub.regs.totalChunksDone.toNat ≤ MAX_CHUNKS

instance (e : Event) : Decidable e.FramesFit := by
  unfold FramesFit
  infer_instance

/-- No bit beyond the frame's last chunk in a mask the call takes over from the registers. -/
def BitsBelow (r : BitmapReceiver) (e : Event) : Prop :=
  let regs := e.hub.regs
  let done := r.AdoptsSnapshot e.hub →
    (ChunkMask.ofWords regs.done).Below regs.totalChunksDone.toNat
  match e.call with
  | .processPacket data => ∀ indexed wide, pixelMagic data.bytes = some (indexed, wide) →
      let p := headerOf data.bytes wide
      e.hub.dmaEnable = true → regs.arrivalFrameId.toNat = p.frameId →
        p.totalChunks ≤ (if p.Continues r.progress then r.received else 0) + 2 →
        (ChunkMask.ofWords regs.arrival).Below p.totalChunks
  | .tick => done ∧ (r.hwFilterOn = false → e.hub.dmaEnable = true →
      regs.arrivalFrameId.toNat = (r.ticked e.hub).1 → (r.ticked e.hub).2 ≠ 0 →
      (ChunkMask.ofWords regs.arrival).Below (r.ticked e.hub).2)
  | .presentDoneNow => r.hwFilterOn = true → done
  | _ => True

lemma judging_tallies {r : BitmapReceiver} {e : Event} (hr : Tallied r) (hf : e.FramesFit)
    (hb : e.BitsBelow r) : Tallies (e.judging r) := by
  rcases e with ⟨call, hub, t⟩
  cases call with
  | processPacket data => exact processPacketWith_tallies hr hb
  | tick => exact tickWith_tallies hr t hf.2 hf.1 hb.1 hb.2
  | presentDoneNow =>
    refine .ite (fun _ => .ok hr) fun hon => ?_
    have hw := presentDoneFrameWith_tallies hr t hf.2 (hb (not_not.mp hon))
    exact ⟨hw.calls, hw.ends.mono fun o ho => ho.tallied⟩
  | setHold on => exact .ok (hr.of_progress hr.palette rfl rfl rfl)
  | setCpuPixels on =>
    apply Within.ok
    cases on
    · exact ⟨hr.palette, Nat.zero_le _, ChunkMask.below_empty _, ChunkMask.count_empty.symm⟩
    · exact hr.of_progress hr.palette rfl rfl rfl
  | setHwFilter on => exact .ok (hr.of_progress hr.palette rfl rfl rfl)
  | forgetFrame =>
    exact .ok ⟨hr.palette, Nat.zero_le _, ChunkMask.below_empty _, ChunkMask.count_empty.symm⟩
  | invalidateModeCache => exact .ok (hr.of_progress hr.palette rfl rfl rfl)

/-- In a run in which every mask taken over is within its frame, `present` always counts exactly. -/
theorem calls_exact {es : List Event} (hf : ∀ e ∈ es, e.FramesFit)
    (hb : Always step (fun r e => e.BitsBelow r) {} es) :
    Always step (fun r e => CallsOnly presentAt (fun s => s.1.Exact) (e.judging r)) {} es := by
  have hc : Always step (fun _ e => e.FramesFit) {} es := Always.of_mem fun e he _ => hf e he
  apply Always.of_safe (I := Tallied) _ _ tallied_new (hc.and hb)
  · rintro r e r' hr ⟨hf, hb⟩ ⟨o, ho, rfl⟩
    have hends := (judging_tallies hr hf hb).ends
    rw [judging_present] at hends
    exact hends o ho
  · rintro r e hr ⟨hf, hb⟩
    exact (judging_tallies hr hf hb).calls

/-- A finished frame of two chunks, with the arrival bits of `word` among the first 32. -/
def twoFinished (word : Word) : Hub75 :=
  { finished 2 with regs := { (finished 2).regs with done := (Vector.replicate 16 0).set 0 word } }

theorem calls_exact_two : Always step
    (fun r e => CallsOnly presentAt (fun s => s.1.Exact) (e.judging r)) {}
    [⟨.tick, twoFinished 0b11, 0⟩] := by
  apply calls_exact
  · intro e he
    rw [List.mem_singleton.mp he]
    decide
  · refine ⟨⟨fun _ => by decide +kernel, fun _ _ _ hz => absurd rfl hz⟩, fun _ _ => trivial⟩

/-- The bit of a sixth chunk stands in for the second. -/
theorem sixth_stands_in : FramesFit ⟨.tick, twoFinished 0b100001, 0⟩ ∧ ¬ Always step
    (fun r e => CallsOnly presentAt (fun s => s.1.Exact) (e.judging r)) {}
    [⟨.tick, twoFinished 0b100001, 0⟩] := by
  refine ⟨by decide, ?_⟩
  rintro ⟨hcalls, -⟩
  have hsame := hcalls (fun s => if s.1.Exact then presentAt s else .error .indexOutOfBounds)
    fun s hs => if_pos hs
  have hpass := congrArg (passes fun _ => true) hsame
  revert hpass
  decide +kernel

end Event

end Ledwall.Receiver
