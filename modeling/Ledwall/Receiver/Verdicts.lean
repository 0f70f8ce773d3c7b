import Ledwall.Receiver.Coverage
import Ledwall.Receiver.FrameReception

/-! How often the receiver judges one frame. -/

namespace Ledwall.Receiver

open BitmapReceiver Ledwall.Library.Callees Ledwall.Library.Outcomes Ledwall.Library.Runs Ledwall.Wire

namespace BitmapReceiver

/-- The verdicts counted, on a `u32`. -/
def tally (r : BitmapReceiver) : ℕ :=
  (r.stats.framesCompleted + r.stats.framesPartial + r.stats.framesDropped) % 2 ^ 32

def inProgress (r : BitmapReceiver) : Option ℕ :=
  if r.totalChunks = 0 then none else some r.currentFrameId

variable {r s : BitmapReceiver} {h : Hub75} {t : ℤ}

lemma tally_eq (hv : s.verdicts = r.verdicts) : s.tally = r.tally := by
  obtain ⟨h₁, h₂⟩ := Prod.mk.inj hv
  obtain ⟨h₂, h₃⟩ := Prod.mk.inj h₂
  rw [tally, tally, h₁, h₂, h₃]

lemma inProgress_eq (hz : r.totalChunks ≠ 0) : r.inProgress = some r.currentFrameId := if_neg hz

lemma inProgress_idle (hz : r.totalChunks = 0) : r.inProgress = none := if_pos hz

lemma localiseDamage_verdicts (r : BitmapReceiver) (expected missing : ℕ) :
    Ensures (fun s => s.verdicts = r.verdicts) (r.localiseDamage expected missing) := by
  unfold localiseDamage
  dsimp only
  split
  · refine Ensures.bind (P := fun _ => True) (fun _ _ => trivial) fun b _ => ?_
    exact .ok rfl
  · exact .ok rfl

lemma repairMissing_verdicts (r : BitmapReceiver) (h : Hub75) (expected : ℕ) :
    Ensures (fun s => s.1.verdicts = r.verdicts) (r.repairMissing h expected) := by
  refine Ensures.foldlM (Q := fun s : BitmapReceiver × Hub75 => s.1.verdicts = r.verdicts) rfl ?_
  intro s hs idx _
  refine Ensures.bind (P := fun _ => True) (fun _ _ => trivial) fun b _ => ?_
  split
  · exact .ok hs
  · dsimp only
    split
    · exact .ok hs
    · refine Ensures.bind (P := fun _ => True) (fun _ _ => trivial) fun h' _ => ?_
      exact .ok hs

lemma repairOrComplete_tally (r : BitmapReceiver) (h : Hub75) (expected missing : ℕ) :
    Ensures (fun s => s.1.tally = (r.tally + 1) % 2 ^ 32)
      (r.repairOrComplete h expected missing) := by
  unfold repairOrComplete
  split
  · refine (repairMissing_verdicts r h expected).bind fun s hs => ?_
    apply Ensures.ok
    rw [← tally_eq hs]
    simp only [tally, inc32]
    omega
  · apply Ensures.ok
    simp only [tally, inc32]
    omega

lemma flip_verdicts (r : BitmapReceiver) (h : Hub75) : (r.flip h).1.verdicts = r.verdicts := by
  simp only [BitmapReceiver.flip]
  split
  · split <;> split <;> rfl
  · rfl

lemma updateTiming_verdicts (r : BitmapReceiver) (t : ℤ) :
    (r.updateTiming t).verdicts = r.verdicts := by
  simp only [updateTiming]
  split <;> rfl

lemma resetFrame_verdicts (r : BitmapReceiver) : r.resetFrame.verdicts = r.verdicts := rfl

lemma present_tally (hz : r.totalChunks ≠ 0) (t : ℤ) :
    Ensures (fun o => o.rx.tally = (r.tally + 1) % 2 ^ 32) (r.present h t) := by
  unfold present
  rw [if_neg hz]
  refine (localiseDamage_verdicts r _ _).bind fun r₁ hv₁ => ?_
  rw [← tally_eq hv₁]
  split
  · apply Ensures.ok
    simp only [tally, resetFrame, inc32]
    omega
  · refine (repairOrComplete_tally r₁ h _ _).bind ?_
    rintro ⟨r₂, h₂⟩ ht₂
    dsimp only at ht₂ ⊢
    refine (applyPendingPalette_verdicts r₂ h₂).bind ?_
    rintro ⟨r₃, h₃⟩ hv₃
    apply Ensures.ok
    rw [← ht₂]
    apply tally_eq
    rw [resetFrame_verdicts, updateTiming_verdicts, flip_verdicts]
    exact hv₃

/-- What `present` does to a frame in progress while the CPU draws and swaps. -/
structure Sentenced (r : BitmapReceiver) (h : Hub75) (o : Outcome) : Prop extends Rested h o where
  tally : o.rx.tally = (r.tally + if r.totalChunks = 0 then 0 else 1) % 2 ^ 32
  flips : o.hub.flips.length ≤ h.flips.length + if r.totalChunks = 0 then 0 else 1
  swap : o.hub.autoSwap = false

lemma present_sentenced (hr : Tallied r) (hoff : h.dmaEnable = false) (hswap : h.autoSwap = false)
    (t : ℤ) : Ensures (Sentenced r h) (r.present h t) := by
  intro o ho
  have hrest := present_rested hr hoff t o ho
  obtain ⟨r', h', he, -, -, -, -, hg⟩ := r.present_ok h t hr.palette (.inl hr.total_le)
  have hg := hg hswap
  by_cases hz : r.totalChunks = 0
  · have hsame : r.present h t = .ok ⟨false, r, h⟩ := by
      rw [present, if_pos hz]
      rfl
    cases hsame.symm.trans ho
    refine ⟨hrest, ?_, ?_, hswap⟩
    · rw [if_pos hz, Nat.add_zero, tally, Nat.mod_mod]
    · exact Nat.le_add_right _ _
  · have htally := present_tally hz t o ho
    cases he.symm.trans ho
    refine ⟨hrest, ?_, ?_, ?_⟩
    · rw [if_neg hz]
      exact htally
    · have hflips : h'.flips = (h.glass.presented r.progress).flips := congrArg Glass.flips hg
      rw [if_neg hz, hflips, Glass.presented]
      split
      · exact (List.length_append).le
      · exact Nat.le_succ _
    · have hauto : h'.autoSwap = (h.glass.presented r.progress).autoSwap :=
        congrArg Glass.autoSwap hg
      rw [hauto, Glass.presented]
      split <;> exact hswap

end BitmapReceiver

/-- The receiver and its driver; `judged` is history: the ids of the frames judged, oldest first. -/
structure Docket where
  rx : BitmapReceiver
  hub : Hub75
  judged : List ℕ

namespace Docket

variable {b b' : Docket} {p : Poll}

/-- The frames the call judges: the one in progress, when another begins or when a tick gives it up,
and the one the call itself completes. -/
def verdicts (b : Docket) (p : Poll) (o : Outcome) : List ℕ :=
  match p.call with
  | .processPacket data =>
    match b.rx.accepted (p.sees b.hub) data.bytes with
    | some d =>
      (if d.header.Continues b.rx.progress then [] else b.rx.inProgress.toList) ++
        if o.rx.totalChunks = 0 then [d.header.frameId] else []
    | none => []
  | .tick => if o.rx.totalChunks = 0 then b.rx.inProgress.toList else []
  | _ => []

def Step (b : Docket) (p : Poll) (b' : Docket) : Prop :=
  ∃ o, p.run b.rx b.hub = .ok o ∧ b' = ⟨o.rx, o.hub, b.judged ++ b.verdicts p o⟩

/-- No packet of a frame already judged is accepted. -/
def Fresh (b : Docket) (p : Poll) : Prop :=
  match p.call with
  | .processPacket data => ∀ d, b.rx.accepted (p.sees b.hub) data.bytes = some d →
      d.header.frameId ∉ b.judged
  | _ => True

/-- A packet of a frame already judged changes neither what is on the glass nor the verdicts counted
nor the palette that waits. -/
def SparesLate (b : Docket) (p : Poll) (b' : Docket) : Prop :=
  match p.call with
  | .processPacket data => ∀ indexed wide, pixelMagic data.bytes = some (indexed, wide) →
      (headerOf data.bytes wide).frameId ∈ b.judged →
        b'.hub.displayBuffer = b.hub.displayBuffer ∧ b'.rx.account = b.rx.account
  | _ => True

/-- Only frames sent are judged, none twice; each verdict is counted once and swaps at most once. -/
structure OneVerdict (frames : List Frame) (b : Docket) (p : Poll) (b' : Docket) : Prop where
  sent : ∀ id ∈ b'.judged, ∃ f ∈ frames, f.id = id
  once : b'.judged.Nodup
  counted : b'.rx.tally = (b.rx.tally + (b'.judged.length - b.judged.length)) % 2 ^ 32
  swaps : b'.hub.flips.length ≤ b.hub.flips.length + (b'.judged.length - b.judged.length)
  late : b.SparesLate p b'

end Docket

/-- Every pixel packet of the call is a chunk of one of the frames. -/
def Poll.Carries (p : Poll) (frames : List Frame) : Prop :=
  match p.call with
  | .processPacket data => pixelMagic data.bytes ≠ none →
      ∃ f ∈ frames, ∃ i < f.total, data.bytes = f.datagram i
  | _ => True

namespace BitmapReceiver

/-- From one receiver and driver to another with `n` verdicts. -/
structure Rules (r : BitmapReceiver) (h : Hub75) (n : ℕ) (r' : BitmapReceiver) (h' : Hub75) :
    Prop where
  tallied : Tallied r'
  off : h'.dmaEnable = false
  swap : h'.autoSwap = false
  tally : r'.tally = (r.tally + n) % 2 ^ 32
  flips : h'.flips.length ≤ h.flips.length + n

variable {r s r' : BitmapReceiver} {h k h' : Hub75} {m n : ℕ} {t : ℤ} {d : PixelPacket} {data : Slice}

lemma Rules.trans (h₁ : Rules r h m s k) (h₂ : Rules s k n r' h') : Rules r h (m + n) r' h' := by
  refine ⟨h₂.tallied, h₂.off, h₂.swap, ?_, ?_⟩
  · rw [h₂.tally, h₁.tally]
    omega
  · have hm := h₁.flips
    have hn := h₂.flips
    omega

lemma Rules.of_same (hr : Tallied r') (hoff : h'.dmaEnable = false) (hswap : h'.autoSwap = false)
    (hv : r'.verdicts = r.verdicts) (hflips : h'.flips = h.flips) : Rules r h 0 r' h' := by
  refine ⟨hr, hoff, hswap, ?_, ?_⟩
  · have htally : r'.tally = r.tally := tally_eq hv
    rw [htally, Nat.add_zero, BitmapReceiver.tally, Nat.mod_mod]
  · rw [hflips]
    exact Nat.le_refl _

lemma Rules.of_undisturbed (k : Hub75) (hr : Tallied r) (hoff : k.dmaEnable = false)
    (hswap : k.autoSwap = false) (hflips : k.flips = h.flips) (hu : Undisturbed r k r' h') :
    Rules r h 0 r' h' := by
  obtain ⟨b, hg⟩ := hu.glass
  apply Rules.of_same
  · exact hr.of_progress hu.palette hu.total hu.mask hu.received
  · exact (congrArg Glass.dmaEnable hg).trans hoff
  · exact (congrArg Glass.autoSwap hg).trans hswap
  · exact hu.verdicts
  · exact (congrArg Glass.flips hg).trans hflips

lemma inProgress_length (r : BitmapReceiver) :
    r.inProgress.toList.length = if r.totalChunks = 0 then 0 else 1 := by
  unfold inProgress
  split <;> rfl

lemma inProgress_congr (hid : s.progress.frameId = r.progress.frameId)
    (ht : s.progress.total = r.progress.total) : s.inProgress = r.inProgress := by
  have hid : s.currentFrameId = r.currentFrameId := hid
  have ht : s.totalChunks = r.totalChunks := ht
  rw [inProgress, inProgress, hid, ht]

lemma present_rules (hr : Tallied r) (hoff : h.dmaEnable = false) (hswap : h.autoSwap = false)
    (t : ℤ) : Ensures (fun o => Rules r h r.inProgress.toList.length o.rx o.hub ∧
      o.rx.totalChunks = 0) (r.present h t) := by
  rw [inProgress_length]
  refine (present_sentenced hr hoff hswap t).mono fun o ho => ?_
  exact ⟨⟨ho.tallied, ho.dma, ho.swap, ho.tally, ho.flips⟩, ho.idle⟩

lemma storeChunk_rules (hr : Tallied r) (hoff : h.dmaEnable = false) (hswap : h.autoSwap = false)
    (hlong : headerLen d.wide ≤ data.bytes.length) (hi : d.header.chunkIndex < r.progress.total)
    (t : ℤ) (presented : Bool) :
    Ensures (fun o => Rules r h (if o.rx.totalChunks = 0 then 1 else 0) o.rx o.hub ∧
        (o.rx.totalChunks ≠ 0 → o.rx.inProgress = r.inProgress ∧ o.rx.totalChunks = r.totalChunks))
      (r.storeChunkWith presentAt h d.header d.stride d.indexed data t presented) := by
  have hz : r.totalChunks ≠ 0 := Nat.ne_zero_of_lt hi
  have hmax : d.header.chunkIndex < MAX_CHUNKS := hi.trans_le hr.total_le
  cases hm : r.chunkMask.has d.header.chunkIndex with
  | true =>
    obtain ⟨r', he, hp, ha⟩ := storeChunkWith_duplicate hmax hm
    rw [he]
    apply Ensures.ok
    have ht : r'.totalChunks = r.totalChunks := congrArg Progress.total hp
    have hid : r'.currentFrameId = r.currentFrameId := congrArg Progress.frameId hp
    have hr' : Tallied r' := by
      refine hr.of_progress ((fits_of_account ha).mpr hr.palette) ?_ ?_ ?_ <;> rw [hp] <;> rfl
    refine ⟨?_, fun _ => ⟨inProgress_congr hid ht, ht⟩⟩
    dsimp only
    rw [ht, if_neg hz]
    exact .of_same hr' hoff hswap (congrArg Account.verdicts ha) rfl
  | false =>
    obtain ⟨r', h', he, hp, ha, hg⟩ := storeChunkWith_new d.stride d.indexed t
      presented hoff hmax ((headerOf_hdrLen _ _).trans_le hlong) hm
    have ht : r'.totalChunks = r.totalChunks := congrArg Progress.total hp
    have hid : r'.currentFrameId = r.currentFrameId := congrArg Progress.frameId hp
    have hr' : Tallied r' := by
      have hcount := countChunk_tallied hr t hi hm
      refine hcount.of_progress ((fits_of_account ha).mpr hr.palette) ?_ ?_ ?_ <;> rw [hp] <;> rfl
    have hsame : Rules r h 0 r' h' := by
      apply Rules.of_same hr'
      · exact (congrArg Glass.dmaEnable hg).trans hoff
      · exact (congrArg Glass.autoSwap hg).trans hswap
      · exact congrArg Account.verdicts ha
      · exact congrArg Glass.flips hg
    rw [he]
    unfold completeWith
    split
    · refine (present_rules hr' hsame.off hsame.swap t).bind fun o ho => ?_
      apply Ensures.ok
      rw [inProgress_length, ht, if_neg hz] at ho
      obtain ⟨hrules, hidle⟩ := ho
      refine ⟨?_, fun hne => absurd hidle hne⟩
      dsimp only
      rw [if_pos hidle]
      exact (Nat.zero_add 1) ▸ hsame.trans hrules
    · apply Ensures.ok
      refine ⟨?_, fun _ => ⟨inProgress_congr hid ht, ht⟩⟩
      dsimp only
      rw [ht, if_neg hz]
      exact hsame

end BitmapReceiver

namespace Docket

variable {b b' : Docket} {p : Poll} {frames : List Frame}

/-- What every call keeps. -/
structure Sworn (frames : List Frame) (b : Docket) : Prop where
  tallied : Tallied b.rx
  off : b.hub.dmaEnable = false
  swap : b.hub.autoSwap = false
  once : b.judged.Nodup
  sent : ∀ id ∈ b.judged, ∃ f ∈ frames, f.id = id
  pending : ∀ id, b.rx.inProgress = some id →
    id ∉ b.judged ∧ ∃ f ∈ frames, f.id = id ∧ f.total = b.rx.totalChunks

/-- What a call that returns has done. -/
structure Ruling (frames : List Frame) (b : Docket) (p : Poll) (o : Outcome) : Prop where
  rules : Rules b.rx b.hub (b.verdicts p o).length o.rx o.hub
  sent : ∀ id ∈ b.verdicts p o, ∃ f ∈ frames, f.id = id
  fresh : (b.judged ++ b.verdicts p o).Nodup
  pending : ∀ id, o.rx.inProgress = some id → id ∉ b.judged ++ b.verdicts p o ∧
    ∃ f ∈ frames, f.id = id ∧ f.total = o.rx.totalChunks
  late : b.SparesLate p ⟨o.rx, o.hub, b.judged ++ b.verdicts p o⟩

lemma mem_inProgress {r : BitmapReceiver} {id : ℕ} : id ∈ r.inProgress.toList ↔
    r.inProgress = some id := Option.mem_toList

lemma Ruling.of_nothing {o : Outcome} (hb : Sworn frames b) (hv : b.verdicts p o = [])
    (hu : Rules b.rx b.hub 0 o.rx o.hub)
    (hp : ∀ id, o.rx.inProgress = some id →
      b.rx.inProgress = some id ∧ o.rx.totalChunks = b.rx.totalChunks)
    (hl : b.SparesLate p ⟨o.rx, o.hub, b.judged ++ b.verdicts p o⟩) : Ruling frames b p o := by
  refine ⟨?_, ?_, ?_, ?_, hl⟩
  · rw [hv]
    exact hu
  · rw [hv]
    intro id hid
    cases hid
  · rw [hv, List.append_nil]
    exact hb.once
  · rw [hv, List.append_nil]
    intro id hid
    obtain ⟨hid, ht⟩ := hp id hid
    rw [ht]
    exact hb.pending id hid

lemma ruling_tick (hb : Sworn frames b) (hcall : p.call = .tick) :
    Ensures (Ruling frames b p) (b.rx.tick (p.sees b.hub) p.timeMs) := by
  have hl (b' : Docket) : b.SparesLate p b' := by
    simp only [SparesLate, hcall]
  obtain ⟨r', h', hu, he | ⟨hz, presented, he⟩⟩ := tick_off (h := p.sees b.hub) hb.tallied.palette
    p.timeMs hb.off
  · have hrules : Rules b.rx b.hub 0 r' h' :=
      .of_undisturbed (p.sees b.hub) hb.tallied hb.off hb.swap rfl hu
    have ht : r'.totalChunks = b.rx.totalChunks := hu.total
    have hin : r'.inProgress = b.rx.inProgress := inProgress_congr hu.frameId hu.total
    have hrun := he presentAt
    change b.rx.tick (p.sees b.hub) p.timeMs = _ at hrun
    rw [hrun]
    apply Ensures.ok
    apply Ruling.of_nothing hb
    · simp only [verdicts, hcall, ht]
      split
      · rename_i hz
        rw [inProgress_idle hz]
        rfl
      · rfl
    · exact hrules
    · intro id hid
      exact ⟨hin.symm.trans hid, ht⟩
    · exact hl _
  · have hrules : Rules b.rx b.hub 0 r' h' :=
      .of_undisturbed (p.sees b.hub) hb.tallied hb.off hb.swap rfl hu
    have hin : r'.inProgress = b.rx.inProgress := inProgress_congr hu.frameId hu.total
    have hrun := he presentAt
    change b.rx.tick (p.sees b.hub) p.timeMs = _ at hrun
    rw [hrun]
    refine (present_rules hrules.tallied hrules.off hrules.swap p.timeMs).bind fun o ho => ?_
    obtain ⟨hjudge, hidle⟩ := ho
    rw [hin] at hjudge
    apply Ensures.ok
    have hv (presented : Bool) : b.verdicts p ⟨presented, o.rx, o.hub⟩ = [b.rx.currentFrameId] := by
      simp only [verdicts, hcall, if_pos hidle, inProgress_eq hz]
      rfl
    obtain ⟨hnew, hmem⟩ := hb.pending _ (inProgress_eq hz)
    refine ⟨?_, ?_, ?_, ?_, hl _⟩
    · rw [hv]
      rw [inProgress_eq hz] at hjudge
      exact hrules.trans hjudge
    · rw [hv]
      intro id hid
      obtain ⟨f, hf, hid', -⟩ := hmem
      rw [List.mem_singleton.mp hid]
      exact ⟨f, hf, hid'⟩
    · rw [hv]
      apply List.Nodup.append hb.once (List.nodup_singleton _)
      exact List.disjoint_singleton.mpr hnew
    · intro id hid
      dsimp only at hid
      rw [inProgress_idle hidle] at hid
      cases hid

lemma Ruling.of_accepted {data : Slice} {d : PixelPacket} {f : Frame} {o : Outcome}
    (hb : Sworn frames b) (hcall : p.call = .processPacket data)
    (ha : b.rx.accepted (p.sees b.hub) data.bytes = some d) (hf : f ∈ frames)
    (hid : d.header.frameId = f.id) (ht : d.header.totalChunks = f.total)
    (hids : ∀ f ∈ frames, ∀ g ∈ frames, f.id = g.id → f = g) (hnew : f.id ∉ b.judged)
    (hrules : Rules b.rx b.hub
      ((if d.header.Continues b.rx.progress then 0 else b.rx.inProgress.toList.length) +
        if o.rx.totalChunks = 0 then 1 else 0) o.rx o.hub)
    (hopen : o.rx.totalChunks ≠ 0 →
      o.rx.inProgress = some f.id ∧ o.rx.totalChunks = f.total) : Ruling frames b p o := by
  have hv : b.verdicts p o =
      (if d.header.Continues b.rx.progress then [] else b.rx.inProgress.toList) ++
        if o.rx.totalChunks = 0 then [f.id] else [] := by
    simp only [verdicts, hcall, ha, hid]
  have hmem : ∀ id ∈ (if d.header.Continues b.rx.progress then [] else b.rx.inProgress.toList),
      id ∉ b.judged ∧ id ≠ f.id ∧ ∃ f ∈ frames, f.id = id := by
    intro id hin
    split at hin
    · cases hin
    · rename_i hc
      obtain ⟨hold, g, hg, hgid, hgt⟩ := hb.pending id (mem_inProgress.mp hin)
      refine ⟨hold, ?_, g, hg, hgid⟩
      rintro rfl
      obtain rfl : g = f := hids g hg f hf hgid
      refine hc ⟨hid.trans ?_, ht.trans hgt⟩
      have hcur := mem_inProgress.mp hin
      unfold inProgress at hcur
      split at hcur
      · cases hcur
      · exact (Option.some.inj hcur).symm
  refine ⟨?_, ?_, ?_, ?_, ?_⟩
  · have hlen : (b.verdicts p o).length =
        (if d.header.Continues b.rx.progress then 0 else b.rx.inProgress.toList.length) +
          if o.rx.totalChunks = 0 then 1 else 0 := by
      rw [hv, List.length_append]
      congr 1 <;> split <;> rfl
    rw [hlen]
    exact hrules
  · rw [hv]
    intro id hin
    rcases List.mem_append.mp hin with hin | hin
    · exact (hmem id hin).2.2
    · split at hin
      · rw [List.mem_singleton.mp hin]
        exact ⟨f, hf, rfl⟩
      · cases hin
  · rw [hv]
    apply List.Nodup.append hb.once
    · apply List.Nodup.append
      · split
        · exact List.nodup_nil
        · unfold inProgress
          split <;> simp
      · split
        · exact List.nodup_singleton _
        · exact List.nodup_nil
      · intro id h₁ h₂
        split at h₂
        · exact (hmem id h₁).2.1 (List.mem_singleton.mp h₂)
        · cases h₂
    · intro id h₁ h₂
      rcases List.mem_append.mp h₂ with h₂ | h₂
      · exact (hmem id h₂).1 h₁
      · split at h₂
        · rw [List.mem_singleton.mp h₂] at h₁
          exact hnew h₁
        · cases h₂
  · intro id hin
    have hz : o.rx.totalChunks ≠ 0 := by
      intro hz
      rw [inProgress_idle hz] at hin
      cases hin
    obtain ⟨hin', htotal⟩ := hopen hz
    obtain rfl : f.id = id := Option.some.inj (hin'.symm.trans hin)
    refine ⟨?_, f, hf, rfl, htotal.symm⟩
    rw [hv, if_neg hz, List.append_nil]
    intro hj
    rcases List.mem_append.mp hj with hj | hj
    · exact hnew hj
    · exact (hmem _ hj).2.1 rfl
  · simp only [SparesLate, hcall]
    intro indexed wide hm hlate
    obtain ⟨hm', hbytes, -⟩ := accepted_iff.mp ha
    obtain ⟨rfl, rfl⟩ := Prod.mk.inj (Option.some.inj (hm.symm.trans hm'))
    have hsame : (headerOf data.bytes d.wide).frameId = f.id := by
      rw [← hbytes]
      exact hid
    rw [hsame] at hlate
    exact absurd hlate hnew

lemma ruling_packet {data : Slice} (hs : ∀ f ∈ frames, f.Sendable)
    (hids : ∀ f ∈ frames, ∀ g ∈ frames, f.id = g.id → f = g) (hb : Sworn frames b)
    (hcall : p.call = .processPacket data) (hp : p.Carries frames) (hf : b.Fresh p) :
    Ensures (Ruling frames b p)
      (b.rx.processPacketWith presentAt (p.sees b.hub) data p.timeMs) := by
  cases ha : b.rx.accepted (p.sees b.hub) data.bytes with
  | none =>
    obtain ⟨r', h', he, hu, hsame⟩ := processPacket_ignored hb.tallied.palette p.timeMs ha
    have ht : r'.totalChunks = b.rx.totalChunks := hu.total
    have hin : r'.inProgress = b.rx.inProgress := inProgress_congr hu.frameId hu.total
    rw [he]
    apply Ensures.ok
    apply Ruling.of_nothing hb
    · simp only [verdicts, hcall, ha]
    · exact .of_undisturbed (p.sees b.hub) hb.tallied hb.off hb.swap rfl hu
    · intro id hid
      exact ⟨hin.symm.trans hid, ht⟩
    · simp only [SparesLate, hcall]
      intro indexed wide hm _
      obtain ⟨i, hg⟩ := hu.glass
      refine ⟨congrArg Glass.front hg, hsame ?_⟩
      rw [hm]
      exact Option.some_ne_none _
  | some d =>
    obtain ⟨hm, hbytes, -, -, -, hacc⟩ := accepted_iff.mp ha
    obtain ⟨f, hmem, i, hi, hdata⟩ : ∃ f ∈ frames, ∃ i < f.total, data.bytes = f.datagram i := by
      simp only [Poll.Carries, hcall] at hp
      apply hp
      rw [hm]
      exact Option.some_ne_none _
    have hwide : d.wide = f.format.isWide := by
      rw [hdata, pixelMagic_datagram] at hm
      exact (Prod.mk.inj (Option.some.inj hm)).2.symm
    have hheader : d.header = ⟨f.id, i, f.total, f.width, f.height, headerLen f.format.isWide⟩ := by
      rw [PixelPacket.header, hbytes, hdata, hwide, headerOf_datagram (hs f hmem) hi]
    have hid : d.header.frameId = f.id := congrArg PixelHeader.frameId hheader
    have htotal : d.header.totalChunks = f.total := congrArg PixelHeader.totalChunks hheader
    have hnew : f.id ∉ b.judged := by
      simp only [Fresh, hcall] at hf
      rw [← hid]
      exact hf d ha
    have hlong : headerLen d.wide ≤ data.bytes.length := by
      rw [← hbytes]
      exact hacc.long
    obtain ⟨r₀, h₀, hp₀, ha₀, hg₀, he⟩ := processPacket_accepted hb.tallied.palette p.timeMs ha
    have hu : Undisturbed b.rx (p.sees b.hub) r₀ h₀ := .of_latch hb.tallied.palette hp₀ ha₀ hg₀
    have hrules : Rules b.rx b.hub 0 r₀ h₀ :=
      .of_undisturbed (p.sees b.hub) hb.tallied hb.off hb.swap rfl hu
    rw [he]
    split
    · rename_i hc
      have hi₀ : d.header.chunkIndex < r₀.progress.total := by
        rw [hu.total, ← hc.2]
        exact hacc.valid.index_lt
      have hcur : r₀.inProgress = some f.id := by
        rw [inProgress_eq (Nat.ne_zero_of_lt hi₀), ← hid, hc.1]
        exact congrArg some hu.frameId
      have hcount : r₀.totalChunks = f.total := by
        rw [← htotal, hc.2]
        exact hu.total
      refine (storeChunk_rules hrules.tallied hrules.off hrules.swap hlong hi₀ p.timeMs
        false).mono fun o ho => ?_
      apply Ruling.of_accepted hb hcall ha hmem hid htotal hids hnew
      · rw [if_pos hc]
        exact hrules.trans ho.1
      · intro hz
        rw [← hcur, ← hcount]
        exact ho.2 hz
    · rename_i hc
      have hin : r₀.inProgress = b.rx.inProgress := inProgress_congr hu.frameId hu.total
      refine Ensures.bind (present_rules hrules.tallied hrules.off hrules.swap p.timeMs) ?_
      rintro o₁ ⟨hjudge, hidle⟩
      obtain ⟨hnone, hreceived⟩ := hjudge.tallied.idle hidle
      have hbegun : Tallied (o₁.rx.beginFrame d.header) := by
        refine ⟨hjudge.tallied.palette, hacc.valid.total_le, ?_, hjudge.tallied.received⟩
        intro i hi
        exact absurd hi (Bool.eq_false_iff.mp (hnone i))
      have hstart : Rules o₁.rx o₁.hub 0 (o₁.rx.beginFrame d.header) o₁.hub :=
        .of_same hbegun hjudge.off hjudge.swap rfl rfl
      refine (storeChunk_rules hbegun hjudge.off hjudge.swap hlong hacc.valid.index_lt p.timeMs
        o₁.presented).mono fun o ho => ?_
      apply Ruling.of_accepted hb hcall ha hmem hid htotal hids hnew
      · rw [if_neg hc]
        rw [hin] at hjudge
        have hall := (hrules.trans hjudge).trans (hstart.trans ho.1)
        rwa [Nat.zero_add, Nat.zero_add] at hall
      · intro hz
        obtain ⟨h₁, h₂⟩ := ho.2 hz
        rw [h₁, h₂]
        refine ⟨?_, htotal⟩
        rw [inProgress_eq hacc.valid.total_ne]
        exact congrArg some hid

lemma run_ruling (hs : ∀ f ∈ frames, f.Sendable)
    (hids : ∀ f ∈ frames, ∀ g ∈ frames, f.id = g.id → f = g) (hb : Sworn frames b)
    (hp : p.Carries frames) (hf : b.Fresh p) :
    Ensures (Ruling frames b p) (p.run b.rx b.hub) := by
  rcases p with ⟨call, regs, t⟩
  have hkeep (r : BitmapReceiver) (hr : r.PaletteFits) (hv : r.verdicts = b.rx.verdicts)
      (hq : r.progress.total = b.rx.progress.total ∧ r.progress.mask = b.rx.progress.mask ∧
        r.progress.received = b.rx.progress.received ∧
        r.progress.frameId = b.rx.progress.frameId)
      (h₀ : b.verdicts ⟨call, regs, t⟩ ⟨false, r, { b.hub with regs := regs }⟩ = [])
      (hl : ∀ b', b.SparesLate ⟨call, regs, t⟩ b') :
      Ruling frames b ⟨call, regs, t⟩ ⟨false, r, { b.hub with regs := regs }⟩ := by
    obtain ⟨htotal, hmask, hreceived, hid⟩ := hq
    refine .of_nothing hb h₀ ?_ ?_ (hl _)
    · exact .of_same (hb.tallied.of_progress hr htotal hmask hreceived) hb.off hb.swap hv rfl
    · intro id hin
      exact ⟨(inProgress_congr hid htotal).symm.trans hin, htotal⟩
  have hforget (r : BitmapReceiver) (hr : r.PaletteFits) (hv : r.verdicts = b.rx.verdicts)
      (hz : r.progress.total = 0) (hm : r.progress.mask = ChunkMask.empty)
      (hq : r.progress.received = 0)
      (h₀ : b.verdicts ⟨call, regs, t⟩ ⟨false, r, { b.hub with regs := regs }⟩ = [])
      (hl : ∀ b', b.SparesLate ⟨call, regs, t⟩ b') :
      Ruling frames b ⟨call, regs, t⟩ ⟨false, r, { b.hub with regs := regs }⟩ := by
    refine .of_nothing hb h₀ ?_ ?_ (hl _)
    · refine .of_same ⟨hr, hz.trans_le (Nat.zero_le _), ?_, ?_⟩ hb.off hb.swap hv rfl
      · rw [hm]
        exact ChunkMask.below_empty _
      · rw [hm, hq]
        exact ChunkMask.count_empty.symm
    · intro id hin
      rw [inProgress_idle hz] at hin
      cases hin
  cases call with
  | processPacket data => exact ruling_packet hs hids hb rfl hp hf
  | tick => exact ruling_tick hb rfl
  | presentDoneNow =>
    have hoff : ((⟨.presentDoneNow, regs, t⟩ : Poll).sees b.hub).dmaEnable = false := hb.off
    have he : (⟨.presentDoneNow, regs, t⟩ : Poll).judging b.rx b.hub presentAt =
        .ok ⟨false, b.rx, { b.hub with regs := regs }⟩ := presentDoneNow_off hoff t presentAt
    rw [← Poll.judging_present, he]
    apply Ensures.ok
    exact hkeep b.rx hb.tallied.palette rfl ⟨rfl, rfl, rfl, rfl⟩ rfl fun _ => trivial
  | setHold on =>
    apply Ensures.ok
    exact hkeep _ hb.tallied.palette rfl ⟨rfl, rfl, rfl, rfl⟩ rfl fun _ => trivial
  | setCpuPixels on =>
    apply Ensures.ok
    cases on
    · exact hforget _ hb.tallied.palette rfl rfl rfl rfl rfl fun _ => trivial
    · exact hkeep _ hb.tallied.palette rfl ⟨rfl, rfl, rfl, rfl⟩ rfl fun _ => trivial
  | setHwFilter on =>
    apply Ensures.ok
    exact hkeep _ hb.tallied.palette rfl ⟨rfl, rfl, rfl, rfl⟩ rfl fun _ => trivial
  | forgetFrame =>
    apply Ensures.ok
    exact hforget _ hb.tallied.palette rfl rfl rfl rfl rfl fun _ => trivial
  | invalidateModeCache =>
    apply Ensures.ok
    exact hkeep _ hb.tallied.palette rfl ⟨rfl, rfl, rfl, rfl⟩ rfl fun _ => trivial

/-- The sender's frames have ids of their own. From power-up, with the DMA and the auto-swap off: if no
packet of a frame already judged is accepted, each frame is judged once at most. -/
theorem one_verdict {frames : List Frame} (hs : ∀ f ∈ frames, f.Sendable)
    (hids : ∀ f ∈ frames, ∀ g ∈ frames, f.id = g.id → f = g) (h : Hub75)
    (hoff : h.dmaEnable = false) (hswap : h.autoSwap = false) {ps : List Poll}
    (hsent : ∀ p ∈ ps, p.Carries frames) (hf : Always Step Fresh ⟨{}, h, []⟩ ps) :
    Always Step (fun b p => ∀ b', b.Step p b' → b.OneVerdict frames p b') ⟨{}, h, []⟩ ps := by
  have hc : Always Step (fun _ p => p.Carries frames) ⟨{}, h, []⟩ ps :=
    Always.of_mem fun p hp _ => hsent p hp
  apply Always.of_safe (I := Sworn frames) _ _ _ (hc.and hf)
  · rintro b p b' hb ⟨hp, hf⟩ ⟨o, ho, rfl⟩
    have hruling := run_ruling hs hids hb hp hf o ho
    refine ⟨hruling.rules.tallied, hruling.rules.off, hruling.rules.swap, hruling.fresh, ?_,
      hruling.pending⟩
    intro id hid
    rcases List.mem_append.mp hid with hid | hid
    · exact hb.sent id hid
    · exact hruling.sent id hid
  · rintro b p hb ⟨hp, hf⟩ b' ⟨o, ho, rfl⟩
    have hruling := run_ruling hs hids hb hp hf o ho
    have hmore : (b.judged ++ b.verdicts p o).length - b.judged.length =
        (b.verdicts p o).length := by
      rw [List.length_append, Nat.add_sub_cancel_left]
    refine ⟨?_, hruling.fresh, ?_, ?_, hruling.late⟩
    · intro id hid
      rcases List.mem_append.mp hid with hid | hid
      · exact hb.sent id hid
      · exact hruling.sent id hid
    · rw [hmore]
      exact hruling.rules.tally
    · rw [hmore]
      exact hruling.rules.flips
  · refine ⟨tallied_new, hoff, hswap, List.nodup_nil, ?_, ?_⟩
    · intro id hid
      cases hid
    · intro id hid
      cases hid

/-- One white pixel, as a frame of its own. -/
def onePixel : Frame := ⟨1, .rgb [255, 255, 255], 1, 1⟩

def deliver (f : Frame) (i : ℕ) : Poll :=
  ⟨.processPacket ⟨0, f.datagram i⟩, Registers.reset, 0⟩

lemma onePixel_sendable : ∀ f ∈ [onePixel], f.Sendable := by
  intro f hf
  rw [List.mem_singleton.mp hf]
  exact ⟨by decide, by decide, by decide, by decide, by decide⟩

lemma deliver_carries {f : Frame} {i : ℕ} (hi : i < f.total) : (deliver f i).Carries [f] := by
  intro _
  exact ⟨f, List.mem_singleton_self f, i, hi, rfl⟩

theorem one_verdict_pixel : Always Step
    (fun b p => ∀ b', b.Step p b' → b.OneVerdict [onePixel] p b')
    ⟨{}, (Canvas.dark 1 1).hub, []⟩ [deliver onePixel 0] := by
  apply one_verdict onePixel_sendable
  · intro f hf g hg _
    rw [List.mem_singleton.mp hf, List.mem_singleton.mp hg]
  · rfl
  · rfl
  · intro p hp
    rw [List.mem_singleton.mp hp]
    apply deliver_carries
    decide
  · refine ⟨?_, fun _ _ => trivial⟩
    intro d _ hd
    cases hd

/-- A second copy of a frame's last chunk judges the frame again. -/
theorem copy_judged_again : (∀ f ∈ [onePixel], f.Sendable) ∧
    (∀ p ∈ [deliver onePixel 0, deliver onePixel 0], p.Carries [onePixel]) ∧
    ¬ Always Step (fun b p => ∀ b', b.Step p b' → b.OneVerdict [onePixel] p b')
      ⟨{}, (Canvas.dark 1 1).hub, []⟩ [deliver onePixel 0, deliver onePixel 0] := by
  refine ⟨onePixel_sendable, ?_, ?_⟩
  · intro p hp
    rw [List.mem_pair.mp hp |>.elim id id]
    apply deliver_carries
    decide
  · rintro ⟨-, hsecond⟩
    let b : Docket := ⟨{}, (Canvas.dark 1 1).hub, []⟩
    have hruns : passes (fun o₁ : Outcome => passes (fun o₂ : Outcome =>
        decide (b.verdicts (deliver onePixel 0) o₁ ++
          (⟨o₁.rx, o₁.hub, b.verdicts (deliver onePixel 0) o₁⟩ : Docket).verdicts
            (deliver onePixel 0) o₂ = [1, 1]))
        ((deliver onePixel 0).run o₁.rx o₁.hub)) ((deliver onePixel 0).run b.rx b.hub) = true := by
      decide +kernel
    obtain ⟨o₁, ho₁, hruns⟩ := exists_of_passes hruns
    obtain ⟨o₂, ho₂, hruns⟩ := exists_of_passes hruns
    obtain ⟨hv, -⟩ := hsecond _ ⟨o₁, ho₁, rfl⟩
    have honce := (hv _ ⟨o₂, ho₂, rfl⟩).once
    have htwice := of_decide_eq_true hruns
    change ([] ++ b.verdicts _ o₁ ++ _ : List ℕ).Nodup at honce
    rw [List.nil_append, htwice] at honce
    exact absurd honce (by decide)

end Docket

end Ledwall.Receiver
