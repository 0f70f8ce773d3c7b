import Ledwall.Gateware.PixelVerdict
import Ledwall.Library.Packets
import Ledwall.Library.Runs

/-! The classifier and the invalidator on the CPU's branch, frame after frame. -/

namespace Ledwall.Gateware

open Ledwall.Library.Packets Ledwall.Library.Runs Ledwall.Wire

/-- The CPU's branch, with the filter on. -/
structure CpuBranch where
  classifier : SmolEthPixelClassifier := {}
  invalidator : SmolEthInvalidator := {}

namespace CpuBranch

def LENGTH : ℕ := 9

variable (s : CpuBranch) (port : BitVec 16) (sink : Option PhyBeat) (ready : Bool)

def taken : Option PhyBeat := s.invalidator.taken sink ready

/-- The beat that the MAC takes. -/
def accepted : Option PhyBeat := if ready then s.invalidator.source sink else none

def next : CpuBranch where
  classifier := match s.taken sink ready with
    | none => s.classifier
    | some b => s.classifier.take true port b
  invalidator := s.invalidator.next LENGTH (s.classifier.invalid true) sink ready

end CpuBranch

/-- One cycle: whether the splitter offers its next beat, and whether the MAC is ready. -/
structure Cycle where
  offer : Bool
  ready : Bool

/-- The branch between the beats still to come and those that the MAC has taken. -/
structure Feed where
  branch : CpuBranch := {}
  pending : List PhyBeat
  outs : List PhyBeat := []

namespace Feed

variable (w : Feed) (i : Cycle)

def sink : Option PhyBeat := if i.offer then w.pending.head? else none

def next (port : BitVec 16) : Feed where
  branch := w.branch.next port (w.sink i) i.ready
  pending := if (w.branch.taken (w.sink i) i.ready).isSome then w.pending.tail else w.pending
  outs := w.outs ++ (w.branch.accepted (w.sink i) i.ready).toList

def Step (port : BitVec 16) (w : Feed) (i : Cycle) (w' : Feed) : Prop := w' = w.next i port

def after (port : BitVec 16) (w : Feed) (is : List Cycle) : Feed := is.foldl (fun w i => w.next i port) w

/-- The frames waiting, back to back. -/
def of (frames : List (List Byte)) : Feed := { pending := frames.flatMap frameBeats }

end Feed

/-- What the MAC is to see of a frame: the frame, or one errored frame that starts like it. -/
def Treated (port : BitVec 16) (f : List Byte) (p : List PhyBeat) : Prop :=
  if isPixel f port then
    ∃ q, q <+: frameBeats f ∧ q ≠ frameBeats f ∧ p = q ++ [SmolEthInvalidator.terminator]
  else p = frameBeats f

/-- The packets that the MAC has seen are the frames so far, treated; the one it is seeing starts
like the next frame. Nothing is left out at the end. -/
def Feed.Filters (w : Feed) (port : BitVec 16) (frames : List (List Byte)) : Prop :=
  ∃ done rest, frames = done ++ rest ∧
    List.Forall₂ (Treated port) done (cut PhyBeat.last w.outs).packets ∧
    (cut PhyBeat.last w.outs).rest <+: rest.head?.elim [] frameBeats ∧
    (w.pending = [] → rest = [])

/-- The beat counter goes round in the frame, and what then stands where the header was before passes
for one. -/
def Misread (f : List Byte) (port : BitVec 16) : Prop :=
  268 ≤ beatCount f ∧ toPortAgain f port = true ∧ paletteAt f 1024 = false

structure IsFrame (f : List Byte) : Prop where
  sixty_le : 60 ≤ f.length
  le_max : f.length ≤ 1518

namespace IsFrame

variable {f : List Byte}

lemma fifteen_le (h : IsFrame f) : 15 ≤ beatCount f := by
  have := h.sixty_le
  rw [beatCount]
  omega

lemma count_le (h : IsFrame f) : beatCount f ≤ 380 := by
  have := h.le_max
  rw [beatCount]
  omega

end IsFrame

/-- Where the branch is: between frames, in the frame `f` of which `k` beats have been taken, or at the
end of a frame that it has killed. -/
inductive Stage (port : BitVec 16) (rest : List (List Byte)) (pending : List PhyBeat)
    (seen : List PhyBeat) (s : CpuBranch) : Prop
  | idle (hs : s.invalidator.fsm = .idle) (hj : ∃ killed, s.classifier = { killed := killed })
    (hp : pending = rest.flatMap frameBeats) (hseen : seen = [])
  | copy {f fs k} (hr : rest = f :: fs) (hs : s.invalidator.fsm = .copy)
    (hk : 1 ≤ k ∧ k < beatCount f) (hc : s.invalidator.lengthCounter = BitVec.ofNat 11 k)
    (hj : Judged f port k s.classifier) (hle : isPixel f port = true → k ≤ 11)
    (hp : pending = (frameBeats f).drop k ++ fs.flatMap frameBeats)
    (hseen : seen = (frameBeats f).take k)
  | invalidate {f fs k j} (hr : rest = f :: fs) (hs : s.invalidator.fsm = .invalidate)
    (hk : k < beatCount f) (hj : j < beatCount f) (hpix : isPixel f port = true)
    (hp : pending = (frameBeats f).drop k ++ fs.flatMap frameBeats)
    (hseen : seen = (frameBeats f).take j)
  | wait {f k} (hs : s.invalidator.fsm = .waitTillDone) (hk : k < beatCount f)
    (hp : pending = (frameBeats f).drop k ++ rest.flatMap frameBeats) (hseen : seen = [])

namespace Feed

/-- The invariant of a run. -/
def Inv (w : Feed) (port : BitVec 16) (frames : List (List Byte)) : Prop :=
  ∃ done rest, frames = done ++ rest ∧
    List.Forall₂ (Treated port) done (cut PhyBeat.last w.outs).packets ∧
    Stage port rest w.pending (cut PhyBeat.last w.outs).rest w.branch

variable {w : Feed} {i : Cycle} {port : BitVec 16} {frames done rest : List (List Byte)}
  {f : List Byte} {k : ℕ}

lemma Inv.start (port : BitVec 16) (frames : List (List Byte)) : (of frames).Inv port frames :=
  ⟨[], frames, rfl, .nil, .idle rfl ⟨0, rfl⟩ rfl rfl⟩

lemma sink_cases {more : List PhyBeat} (hk : k < beatCount f)
    (hp : w.pending = (frameBeats f).drop k ++ more) (i : Cycle) :
    w.sink i = none ∨ w.sink i = some (beatAt f k) ∧
      w.pending.tail = (frameBeats f).drop (k + 1) ++ more := by
  rw [sink, hp, drop_frameBeats hk]
  split
  · exact .inr ⟨rfl, rfl⟩
  · exact .inl rfl

lemma cut_none (h : w.branch.accepted (w.sink i) i.ready = none) :
    (w.next i port).outs = w.outs := by
  rw [next, h]
  exact List.append_nil _

lemma cut_some {b : PhyBeat} (h : w.branch.accepted (w.sink i) i.ready = some b) :
    cut PhyBeat.last (w.next i port).outs = (cut PhyBeat.last w.outs).push PhyBeat.last b := by
  rw [next, h]
  exact cut_snoc _ _

lemma pending_none (h : w.branch.taken (w.sink i) i.ready = none) :
    (w.next i port).pending = w.pending := by
  rw [next, h]
  rfl

lemma pending_some {b : PhyBeat} (h : w.branch.taken (w.sink i) i.ready = some b) :
    (w.next i port).pending = w.pending.tail := by
  rw [next, h]
  rfl

lemma classifier_none (h : w.branch.taken (w.sink i) i.ready = none) :
    (w.next i port).branch.classifier = w.branch.classifier := by
  simp only [next, CpuBranch.next, h]

lemma classifier_some {b : PhyBeat} (h : w.branch.taken (w.sink i) i.ready = some b) :
    (w.next i port).branch.classifier = w.branch.classifier.take true port b := by
  simp only [next, CpuBranch.next, h]

lemma invalidator_next (w : Feed) (i : Cycle) (port : BitVec 16) :
    (w.next i port).branch.invalidator = w.branch.invalidator.next CpuBranch.LENGTH
      (w.branch.classifier.invalid true) (w.sink i) i.ready := rfl

lemma taken_copying (hs : w.branch.invalidator.fsm = .idle ∨ w.branch.invalidator.fsm = .copy)
    (i : Cycle) :
    w.branch.taken (w.sink i) i.ready = (if i.ready then w.sink i else none) ∧
      w.branch.accepted (w.sink i) i.ready = if i.ready then w.sink i else none := by
  rcases hs with hs | hs <;>
    simp only [CpuBranch.taken, SmolEthInvalidator.taken, SmolEthInvalidator.sinkReady, hs,
      CpuBranch.accepted, SmolEthInvalidator.source, and_self]

lemma take_last {c : SmolEthPixelClassifier} {b : PhyBeat} (h : b.last = true) :
    ∃ killed, c.take true port b = { killed := killed } :=
  ⟨_, by rw [SmolEthPixelClassifier.take, if_pos h]⟩

lemma take_mid {c : SmolEthPixelClassifier} {b : PhyBeat} (h : b.last = false) :
    c.take true port b = c.observe port b := by
  rw [SmolEthPixelClassifier.take, if_neg (by simp [h])]

lemma step_idle (hf : ∀ g ∈ rest, IsFrame g) (hs : w.branch.invalidator.fsm = .idle)
    (hj : ∃ killed, w.branch.classifier = { killed := killed })
    (hp : w.pending = rest.flatMap frameBeats)
    (hseen : (cut PhyBeat.last w.outs).rest = [])
    (hdone : List.Forall₂ (Treated port) done (cut PhyBeat.last w.outs).packets) :
    (w.next i port).Inv port (done ++ rest) := by
  obtain ⟨htaken, haccepted⟩ := taken_copying (.inl hs) i
  cases hb : (if i.ready then w.sink i else none) with
  | none =>
    rw [hb] at htaken haccepted
    refine ⟨done, rest, rfl, ?_, .idle ?_ ?_ ?_ ?_⟩
    · rw [cut_none haccepted]
      exact hdone
    · rw [invalidator_next, SmolEthInvalidator.next, hs]
      simp only [show w.branch.invalidator.taken (w.sink i) i.ready = none from htaken,
        Option.isSome_none, Bool.false_eq_true, if_false]
    · rw [classifier_none htaken]
      exact hj
    · rw [pending_none htaken]
      exact hp
    · rw [cut_none haccepted]
      exact hseen
  | some b =>
    rw [hb] at htaken haccepted
    cases rest with
    | nil =>
      have hnone : w.sink i = none := by simp [sink, hp]
      simp [hnone] at hb
    | cons f fs =>
      have hframe := hf f List.mem_cons_self
      have h₁₅ := hframe.fifteen_le
      obtain hn | ⟨hsink, htail⟩ := sink_cases (k := 0) (f := f) (by omega) hp i
      · simp [hn] at hb
      · have hbeat : b = beatAt f 0 := by
          rw [hsink] at hb
          split at hb
          · exact (Option.some.inj hb).symm
          · cases hb
        subst hbeat
        have hlast : (beatAt f 0).last = false := decide_eq_false (by omega)
        have hpush : (cut PhyBeat.last (w.next i port).outs) =
            ⟨(cut PhyBeat.last w.outs).packets, [beatAt f 0]⟩ := by
          rw [cut_some haccepted, Cut.push_mid hlast, hseen]
          rfl
        refine ⟨done, f :: fs, rfl, ?_, .copy (k := 1) rfl ?_ ⟨le_rfl, by omega⟩ ?_ ?_ ?_ ?_ ?_⟩
        · rw [hpush]
          exact hdone
        · rw [invalidator_next, SmolEthInvalidator.next, hs]
          simp only [show w.branch.invalidator.taken (w.sink i) i.ready = _ from htaken,
            Option.isSome_some, if_true]
        · rw [invalidator_next, SmolEthInvalidator.next, hs]
          rfl
        · rw [classifier_some htaken, take_mid hlast]
          obtain ⟨killed, hk⟩ := hj
          rw [hk]
          exact (judged_fresh f port killed).next (by decide)
        · exact fun _ => by decide
        · rw [pending_some htaken, htail]
          rfl
        · rw [hpush, take_frameBeats (by omega)]
          rfl

lemma isPixel_of_matched {c : SmolEthPixelClassifier} (h : Judged f port k c)
    (hm : c.matched = true) (hk : k < beatCount f)
    (hc : isPixel f port = false → ¬ Misread f port) : isPixel f port = true := by
  by_contra hn
  have hn : isPixel f port = false := Bool.eq_false_iff.mpr hn
  rw [h.matched, hn] at hm
  split at hm
  · cases hm
  · split at hm
    · cases hm
    · simp only [Bool.false_or, Bool.and_eq_true, Bool.not_eq_true'] at hm
      exact hc hn ⟨by omega, hm.1, hm.2⟩

lemma matched_of_isPixel {c : SmolEthPixelClassifier} (h : Judged f port k c)
    (hp : isPixel f port = true) (hk : 11 ≤ k) : c.matched = true := by
  rw [h.matched, hp, if_neg (by omega)]
  split <;> rfl

lemma copy_cuts
    (hc : w.branch.invalidator.lengthCounter = BitVec.ofNat 11 k) (hk : k < 380)
    (hj : Judged f port k w.branch.classifier) :
    (w.branch.classifier.invalid true &&
        decide (CpuBranch.LENGTH < w.branch.invalidator.lengthCounter.toNat)) =
      w.branch.classifier.matched := by
  have hlen : w.branch.invalidator.lengthCounter.toNat = k := by
    rw [hc, BitVec.toNat_ofNat]
    omega
  rw [hlen, SmolEthPixelClassifier.invalid, Bool.and_true]
  by_cases hle : k ≤ 10
  · rw [hj.matched, if_pos hle, Bool.false_and]
  · rw [decide_eq_true (by rw [CpuBranch.LENGTH]; omega), Bool.and_true]

lemma step_copy {fs : List (List Byte)} (hframe : IsFrame f)
    (hcond : isPixel f port = false → ¬ Misread f port)
    (hs : w.branch.invalidator.fsm = .copy) (hk : 1 ≤ k ∧ k < beatCount f)
    (hc : w.branch.invalidator.lengthCounter = BitVec.ofNat 11 k)
    (hj : Judged f port k w.branch.classifier) (hle : isPixel f port = true → k ≤ 11)
    (hp : w.pending = (frameBeats f).drop k ++ fs.flatMap frameBeats)
    (hseen : (cut PhyBeat.last w.outs).rest = (frameBeats f).take k)
    (hdone : List.Forall₂ (Treated port) done (cut PhyBeat.last w.outs).packets) :
    (w.next i port).Inv port (done ++ f :: fs) := by
  obtain ⟨htaken, haccepted⟩ := taken_copying (.inr hs) i
  have h₁₅ := hframe.fifteen_le
  have hmax := hframe.count_le
  have hcuts := copy_cuts hc (by omega) hj
  have hinv := invalidator_next w i port
  rw [SmolEthInvalidator.next, hs] at hinv
  simp only [hcuts] at hinv
  cases hb : (if i.ready then w.sink i else none) with
  | none =>
    rw [hb] at htaken haccepted
    rw [show w.branch.invalidator.taken (w.sink i) i.ready = none from htaken] at hinv
    refine ⟨done, f :: fs, rfl, ?_, ?_⟩
    · rw [cut_none haccepted]
      exact hdone
    · rw [cut_none haccepted]
      cases hm : w.branch.classifier.matched with
      | true =>
        have hpix := isPixel_of_matched hj hm hk.2 hcond
        refine .invalidate (k := k) (j := k) rfl ?_ hk.2 hk.2 hpix ?_ hseen
        · rw [hinv, hm]
          rfl
        · rw [pending_none htaken]
          exact hp
      | false =>
        refine .copy rfl ?_ hk ?_ ?_ hle ?_ hseen
        · rw [hinv, hm]
          rfl
        · rw [hinv]
          exact hc
        · rw [classifier_none htaken]
          exact hj
        · rw [pending_none htaken]
          exact hp
  | some b =>
    rw [hb] at htaken haccepted
    rw [show w.branch.invalidator.taken (w.sink i) i.ready = some b from htaken] at hinv
    obtain hn | ⟨hsink, htail⟩ := sink_cases hk.2 hp i
    · simp [hn] at hb
    · have hbeat : b = beatAt f k := by
        rw [hsink] at hb
        split at hb
        · exact (Option.some.inj hb).symm
        · cases hb
      subst hbeat
      dsimp only at hinv
      by_cases hlast : k + 1 = beatCount f
      · have hl : (beatAt f k).last = true := decide_eq_true hlast
        -- A frame that is killed has left `COPY` long before its last beat.
        have hpix : isPixel f port = false := by
          by_contra hpix
          have := hle (Bool.not_eq_false _ ▸ hpix)
          omega
        have hwhole : (frameBeats f).take k ++ [beatAt f k] = frameBeats f := by
          rw [← take_frameBeats hk.2, hlast, ← frameBeats_length, List.take_length]
        have hpush : cut PhyBeat.last (w.next i port).outs =
            ⟨(cut PhyBeat.last w.outs).packets ++ [frameBeats f], []⟩ := by
          rw [cut_some haccepted, Cut.push_last hl, hseen, hwhole]
        refine ⟨done ++ [f], fs, by simp, ?_, .idle ?_ ?_ ?_ ?_⟩
        · rw [hpush]
          refine List.rel_append hdone (.cons ?_ .nil)
          rw [Treated, hpix]
          rfl
        · rw [hinv, hl]
          rfl
        · rw [classifier_some htaken]
          exact take_last hl
        · rw [pending_some htaken, htail, hlast, ← frameBeats_length, List.drop_length]
          rfl
        · rw [hpush]
      · have hl : (beatAt f k).last = false := decide_eq_false hlast
        have hk' : k + 1 < beatCount f := by omega
        have hpush : cut PhyBeat.last (w.next i port).outs =
            ⟨(cut PhyBeat.last w.outs).packets, (frameBeats f).take (k + 1)⟩ := by
          rw [cut_some haccepted, Cut.push_mid hl, hseen, ← take_frameBeats hk.2]
        refine ⟨done, f :: fs, rfl, ?_, ?_⟩
        · rw [hpush]
          exact hdone
        · rw [hpush]
          cases hm : w.branch.classifier.matched with
          | true =>
            have hpix := isPixel_of_matched hj hm hk.2 hcond
            refine .invalidate (k := k + 1) (j := k + 1) rfl ?_ hk' hk' hpix ?_ rfl
            · rw [hinv, hl, hm]
              rfl
            · rw [pending_some htaken, htail]
          | false =>
            refine .copy rfl ?_ ⟨Nat.le_add_left 1 k, hk'⟩ ?_ ?_ ?_ ?_ rfl
            · rw [hinv, hl, hm]
              rfl
            · rw [hinv]
              change w.branch.invalidator.lengthCounter + 1 = _
              rw [hc, BitVec.ofNat_add]
              rfl
            · rw [classifier_some htaken, take_mid hl]
              exact hj.next (by omega)
            · intro hpix
              by_contra hgt
              rw [matched_of_isPixel hj hpix (by omega)] at hm
              cases hm
            · rw [pending_some htaken, htail]

lemma pending_next {fs : List (List Byte)} (hk : k < beatCount f)
    (hp : w.pending = (frameBeats f).drop k ++ fs.flatMap frameBeats)
    (htaken : ∀ b, w.branch.taken (w.sink i) i.ready = some b → b.last = false) :
    ∃ k', k' < beatCount f ∧
      (w.next i port).pending = (frameBeats f).drop k' ++ fs.flatMap frameBeats := by
  cases hb : w.branch.taken (w.sink i) i.ready with
  | none => exact ⟨k, hk, (pending_none hb).trans hp⟩
  | some b =>
    have hsome : w.sink i = some b := by
      rw [CpuBranch.taken, SmolEthInvalidator.taken] at hb
      split at hb
      · exact hb
      · cases hb
    obtain hn | ⟨hsink, htail⟩ := sink_cases hk hp i
    · rw [hn] at hsome
      cases hsome
    · have hbeat : beatAt f k = b := Option.some.inj (hsink.symm.trans hsome)
      have hlast := htaken b hb
      rw [← hbeat, beatAt_last, decide_eq_false_iff_not] at hlast
      exact ⟨k + 1, by omega, (pending_some hb).trans htail⟩

lemma step_invalidate {fs : List (List Byte)} {j : ℕ} (hs : w.branch.invalidator.fsm = .invalidate)
    (hk : k < beatCount f) (hj : j < beatCount f) (hpix : isPixel f port = true)
    (hp : w.pending = (frameBeats f).drop k ++ fs.flatMap frameBeats)
    (hseen : (cut PhyBeat.last w.outs).rest = (frameBeats f).take j)
    (hdone : List.Forall₂ (Treated port) done (cut PhyBeat.last w.outs).packets) :
    (w.next i port).Inv port (done ++ f :: fs) := by
  have htaken (b : PhyBeat) (hb : w.branch.taken (w.sink i) i.ready = some b) : b.last = false := by
    rw [CpuBranch.taken, SmolEthInvalidator.taken, SmolEthInvalidator.sinkReady, hs] at hb
    cases hsink : w.sink i with
    | none => simp [hsink] at hb
    | some b' =>
      cases hl : b'.last with
      | true => simp [hsink, hl] at hb
      | false =>
        simp [hsink, hl] at hb
        exact hb ▸ hl
  obtain ⟨k', hk', hp'⟩ : ∃ k', k' < beatCount f ∧
      (w.next i port).pending = (frameBeats f).drop k' ++ fs.flatMap frameBeats :=
    pending_next hk hp htaken
  have hinv := invalidator_next w i port
  rw [SmolEthInvalidator.next, hs] at hinv
  dsimp only at hinv
  cases hr : i.ready with
  | false =>
    have haccepted : w.branch.accepted (w.sink i) i.ready = none := by
      rw [CpuBranch.accepted, hr]
      rfl
    refine ⟨done, f :: fs, rfl, ?_, .invalidate rfl ?_ hk' hj hpix hp' ?_⟩
    · rw [cut_none haccepted]
      exact hdone
    · rw [hinv, hr]
      rfl
    · rw [cut_none haccepted]
      exact hseen
  | true =>
    have haccepted : w.branch.accepted (w.sink i) i.ready =
        some SmolEthInvalidator.terminator := by
      rw [CpuBranch.accepted, SmolEthInvalidator.source, hs, hr]
      rfl
    have hpush : cut PhyBeat.last (w.next i port).outs =
        ⟨(cut PhyBeat.last w.outs).packets ++
          [(frameBeats f).take j ++ [SmolEthInvalidator.terminator]], []⟩ := by
      rw [cut_some haccepted, Cut.push_last rfl, hseen]
    refine ⟨done ++ [f], fs, by simp, ?_, .wait ?_ hk' hp' ?_⟩
    · rw [hpush]
      refine List.rel_append hdone (.cons ?_ .nil)
      rw [Treated, if_pos hpix]
      refine ⟨_, List.take_prefix _ _, fun he => ?_, rfl⟩
      have hlen := congrArg List.length he
      rw [List.length_take, frameBeats_length] at hlen
      omega
    · rw [hinv, hr]
      rfl
    · rw [hpush]

lemma step_wait (hs : w.branch.invalidator.fsm = .waitTillDone) (hk : k < beatCount f)
    (hp : w.pending = (frameBeats f).drop k ++ rest.flatMap frameBeats)
    (hseen : (cut PhyBeat.last w.outs).rest = [])
    (hdone : List.Forall₂ (Treated port) done (cut PhyBeat.last w.outs).packets) :
    (w.next i port).Inv port (done ++ rest) := by
  have haccepted : w.branch.accepted (w.sink i) i.ready = none := by
    rw [CpuBranch.accepted, SmolEthInvalidator.source, hs]
    split <;> rfl
  have htaken : w.branch.taken (w.sink i) i.ready = w.sink i := by
    rw [CpuBranch.taken, SmolEthInvalidator.taken, SmolEthInvalidator.sinkReady, hs]
    rfl
  have hinv := invalidator_next w i port
  rw [SmolEthInvalidator.next, hs] at hinv
  dsimp only at hinv
  refine ⟨done, rest, rfl, ?_, ?_⟩
  · rw [cut_none haccepted]
    exact hdone
  · rw [cut_none haccepted]
    cases hsink : w.sink i with
    | none =>
      have htaken' := htaken.trans hsink
      rw [hsink] at hinv
      refine .wait (f := f) ?_ hk ?_ hseen
      · rw [hinv]
        rfl
      · rw [pending_none htaken']
        exact hp
    | some b =>
      have htaken' := htaken.trans hsink
      rw [hsink] at hinv
      obtain hn | ⟨hsink', htail⟩ := sink_cases hk hp i
      · rw [hn] at hsink
        cases hsink
      · obtain rfl : beatAt f k = b := Option.some.inj (hsink'.symm.trans hsink)
        by_cases hlast : k + 1 = beatCount f
        · have hl : (beatAt f k).last = true := decide_eq_true hlast
          refine .idle ?_ ?_ ?_ hseen
          · rw [hinv, Option.any_some, hl]
            rfl
          · rw [classifier_some htaken']
            exact take_last hl
          · rw [pending_some htaken', htail, hlast, ← frameBeats_length, List.drop_length]
            rfl
        · have hl : (beatAt f k).last = false := decide_eq_false hlast
          refine .wait (f := f) (k := k + 1) ?_ (by omega) ?_ hseen
          · rw [hinv, Option.any_some, hl]
            rfl
          · rw [pending_some htaken', htail]

theorem Inv.next (hframes : ∀ f ∈ frames, IsFrame f)
    (hcond : ∀ f ∈ frames, isPixel f port = false → ¬ Misread f port) (h : w.Inv port frames)
    (i : Cycle) : (w.next i port).Inv port frames := by
  obtain ⟨done, rest, rfl, hdone, hstage⟩ := h
  have hrest (g : List Byte) (hg : g ∈ rest) := hframes g (List.mem_append_right _ hg)
  cases hstage with
  | idle hs hj hp hseen => exact step_idle hrest hs hj hp hseen hdone
  | @copy f fs k hr hs hk hc hj hle hp hseen =>
    subst hr
    have hmem : f ∈ done ++ f :: fs := List.mem_append_right done List.mem_cons_self
    exact step_copy (hframes _ hmem) (hcond _ hmem) hs hk hc hj hle hp hseen hdone
  | invalidate hr hs hk hj hpix hp hseen =>
    subst hr
    exact step_invalidate hs hk hj hpix hp hseen hdone
  | wait hs hk hp hseen => exact step_wait hs hk hp hseen hdone

lemma Inv.filters (hframes : ∀ f ∈ frames, IsFrame f) (h : w.Inv port frames) :
    w.Filters port frames := by
  obtain ⟨done, rest, rfl, hdone, hstage⟩ := h
  have hpos {g : List Byte} {k : ℕ} (hk : k < beatCount g) (more : List PhyBeat) :
      (frameBeats g).drop k ++ more ≠ [] := by
    rw [drop_frameBeats hk]
    exact List.cons_ne_nil _ _
  refine ⟨done, rest, rfl, hdone, ?_, ?_⟩
  · cases hstage with
    | idle hs hj hp hseen =>
      rw [hseen]
      exact List.nil_prefix
    | copy hr hs hk hc hj hle hp hseen =>
      rw [hseen, hr]
      exact List.take_prefix _ _
    | invalidate hr hs hk hj hpix hp hseen =>
      rw [hseen, hr]
      exact List.take_prefix _ _
    | wait hs hk hp hseen =>
      rw [hseen]
      exact List.nil_prefix
  · intro hempty
    cases hstage with
    | idle hs hj hp hseen =>
      cases rest with
      | nil => rfl
      | cons g gs =>
        have h₁₅ := (hframes g (by simp)).fifteen_le
        rw [hp, List.flatMap_cons] at hempty
        exact absurd hempty (hpos (g := g) (k := 0) (by omega) _)
    | copy hr hs hk hc hj hle hp hseen =>
      rw [hp] at hempty
      exact absurd hempty (hpos hk.2 _)
    | invalidate hr hs hk hj hpix hp hseen =>
      rw [hp] at hempty
      exact absurd hempty (hpos hk _)
    | wait hs hk hp hseen =>
      rw [hp] at hempty
      exact absurd hempty (hpos hk _)

/-- Frames in any number, the MAC ready when it likes: those that are not pixel traffic reach it
unchanged and of every other it sees one errored frame, as long as no frame to pass is misread. -/
theorem filters_of_not_misread (port : BitVec 16) (frames : List (List Byte))
    (hframes : ∀ f ∈ frames, IsFrame f)
    (hcond : ∀ f ∈ frames, isPixel f port = false → ¬ Misread f port) (is : List Cycle) :
    ((of frames).after port is).Filters port frames := by
  suffices h : ((of frames).after port is).Inv port frames from h.filters hframes
  have hinv : ∀ w : Feed, w.Inv port frames → (w.after port is).Inv port frames := by
    induction is with
    | nil => exact fun w hw => hw
    | cons i is ih => exact fun w hw => ih _ (hw.next hframes hcond i)
  exact hinv _ (Inv.start port frames)

/-- The header of a frame to `port`, with the first two bytes of its payload. -/
def udpHeader (port : BitVec 16) (a b : Byte) : List Byte :=
  List.replicate 12 0 ++ [0x08, 0x00, 0x45] ++ List.replicate 8 0 ++ [17] ++ List.replicate 12 0 ++
    [port.extractLsb' 8 8, port.extractLsb' 0 8] ++ List.replicate 4 0 ++ [a, b]

def arp : List Byte := List.replicate 60 0

def pixels : List Byte := udpHeader 7000 0x42 0x4D ++ List.replicate 20 0

theorem filters_of_not_misread_arp :
    ((of [arp, pixels, arp]).after 7000 (List.replicate 50 ⟨true, true⟩)).Filters 7000
      [arp, pixels, arp] := by
  have hall : ∀ f ∈ [arp, pixels, arp], IsFrame f ∧ ¬ 268 ≤ beatCount f := by
    simp only [List.mem_cons, List.not_mem_nil, or_false]
    rintro f (rfl | rfl | rfl) <;> exact ⟨⟨by decide, by decide⟩, by decide⟩
  exact filters_of_not_misread 7000 _ (fun f hf => (hall f hf).1)
    (fun f hf _ hm => (hall f hf).2 hm.1) _

/-- A frame to nowhere that carries, 1024 bytes into it, what looks like the header of another. -/
def nested : List Byte := List.replicate 1024 0 ++ udpHeader 7000 0 0 ++ List.replicate 12 0

theorem nested_killed : IsFrame nested ∧ isPixel nested 7000 = false ∧
    ¬ ((of [nested]).after 7000 (List.replicate 300 ⟨true, true⟩)).Filters 7000 [nested] := by
  have hpix : isPixel nested 7000 = false := by decide +kernel
  have hlast : ((cut PhyBeat.last
      ((of [nested]).after 7000 (List.replicate 300 ⟨true, true⟩)).outs).packets.map
        List.getLast?) = [some SmolEthInvalidator.terminator] := by decide +kernel
  have hframe : (frameBeats nested).getLast? ≠ some SmolEthInvalidator.terminator := by
    decide +kernel
  refine ⟨⟨by decide +kernel, by decide +kernel⟩, hpix, ?_⟩
  rintro ⟨done, rest, hsplit, hdone, -, -⟩
  generalize (cut PhyBeat.last
    ((of [nested]).after 7000 (List.replicate 300 ⟨true, true⟩)).outs).packets = ps at hlast hdone
  cases hdone with
  | nil => cases hlast
  | @cons f p fs ps hp hdone =>
    obtain ⟨rfl, -⟩ := List.cons.inj hsplit
    rw [Treated, if_neg (Bool.not_eq_true _ ▸ hpix)] at hp
    rw [← hp] at hframe
    exact hframe (List.cons.inj hlast).1

end Feed

end Ledwall.Gateware
