import Ledwall.Library.Runs
import Ledwall.Gateware.Icn1065PixelSource

/-! The palette bank follows the live base, the words on their way follow the base they were asked for
under: they agree as long as the live half changes only while no word is on its way. -/

namespace Ledwall.Gateware

open Ledwall.Library.Runs

lemma mem_nextQueue {a : FbAddress} {reads new : List FbAddress} {c : Bool}
    (h : a ∈ (if c then reads.tail else reads) ++ new) : a ∈ reads ∨ a ∈ new := by
  rcases List.mem_append.mp h with h | h
  · apply Or.inl
    split at h
    · exact List.mem_of_mem_tail h
    · exact h
  · exact Or.inr h

lemma headD_mem {reads : List FbAddress} (h : reads.isEmpty = false) : reads.headD {} ∈ reads := by
  cases reads with
  | nil => cases h
  | cons a reads => exact List.mem_cons_self

namespace RamToBufferReader

/-- Every address that has a word to come counts from a base of bank `b`. -/
structure Under (r : RamToBufferReader) (b : Bool) : Prop where
  reads : ∀ a ∈ r.reads, paletteBank a.base = b
  adr : r.ramAdr.valid = true → paletteBank r.ramAdr.adr.base = b

structure Matched (r : RamToBufferReader) : Prop where
  paletteData : r.paletteDataValid = true → r.paletteData.Matched
  gammaData : r.gammaDataValid = true → r.gammaData.Matched
  ports : ∀ k, (r.ports k).we = true → (r.ports k).datW.Matched

variable {z : PanelSize} {gamma : BitVec 8 → BitVec 8} {r : RamToBufferReader} {base : BitVec 20}
  {i : ScanInputs}

lemma Under.next (h : r.Under (paletteBank base)) :
    (r.next z gamma base i).Under (paletteBank base) where
  reads := by
    intro a ha
    rcases mem_nextQueue (show a ∈ r.nextReads i from ha) with ha | ha
    · exact h.reads a ha
    · split at ha
      · rename_i hacc
        obtain rfl := List.mem_singleton.mp ha
        rw [accepts, sinkValid, Bool.and_eq_true, Bool.and_eq_true] at hacc
        exact h.adr hacc.1.1
      · cases ha
  adr := by
    intro hv
    change paletteBank (ite _ _ _ : FbAddress).base = _
    change (ite _ _ _ : Bool) = true at hv
    split
    · rfl
    · rename_i hen
      rw [if_neg hen] at hv
      exact h.adr hv

lemma Matched.next (h : r.Matched) (hu : r.Under (paletteBank base)) :
    (r.next z gamma base i).Matched where
  paletteData := by
    intro hv
    have hv' : r.sourceValid i = true := hv
    rw [sourceValid, Bool.and_eq_true, Bool.not_eq_true'] at hv'
    exact (hu.reads r.head (headD_mem hv'.2)).symm
  gammaData := h.paletteData
  ports := by
    intro k hw
    change (r.nextPort z k).datW.Matched
    change (r.nextPort z k).we = true at hw
    rw [nextPort] at hw ⊢
    split
    · rename_i hv
      exact h.gammaData hv
    · rename_i hv
      rw [if_neg hv] at hw
      split
      · rename_i hd
        rw [if_pos hd] at hw
        exact h.ports k (Bool.and_eq_true _ _ ▸ hw).2
      · rename_i hd
        rw [if_neg hd] at hw
        exact h.ports k hw

end RamToBufferReader

namespace ScanOut

variable (z : PanelSize) (gamma : BitVec 8 → BitVec 8)

/-- The live half stays, or no word is left on its way: none asked for and none about to be. -/
def Still (s : ScanOut) (i : ScanInputs) : Prop :=
  paletteBank (nextFbBase s.fbBaseEff i.fbBase i.autoSwap i.swapReq) = paletteBank s.fbBaseEff ∨
    s.reader.nextReads i = [] ∧
      (if s.reader.ramAdr.en (i.sinkReady && !i.preventRead) then s.reader.ramAdr.configLookupValid
        else s.reader.ramAdr.valid) = false

instance (s : ScanOut) (i : ScanInputs) : Decidable (s.Still i) := inferInstanceAs (Decidable (_ ∨ _))

structure Steady (s : ScanOut) : Prop where
  under : s.reader.Under (paletteBank s.fbBaseEff)
  matched : s.reader.Matched

lemma steady_start : Steady {} where
  under := ⟨fun _ ha => (by cases ha), fun hv => (by cases hv)⟩
  matched := ⟨fun hv => (by cases hv), fun hv => (by cases hv), fun _ hv => (by cases hv)⟩

variable {z gamma} {s : ScanOut} {i : ScanInputs}

lemma Steady.next (h : s.Steady) (hs : s.Still i) : (s.next z gamma i).Steady where
  under := by
    change (s.reader.next z gamma s.fbBaseEff i).Under (paletteBank (nextFbBase _ _ _ _))
    rcases hs with hs | ⟨hreads, hvalid⟩
    · exact hs ▸ h.under.next
    · refine ⟨fun a ha => ?_, fun hv => ?_⟩
      · rw [show (s.reader.next z gamma s.fbBaseEff i).reads = [] from hreads] at ha
        cases ha
      · exact absurd (hv.symm.trans hvalid) (by decide)
  matched := h.matched.next h.under

end ScanOut

namespace PixelSource

/-- A block source's command address counts from a base of bank `b`, as does the next run's. -/
def Under (f : Fetch) (s : PixelSource) (b : Bool) : Prop :=
  match f with
  | .block .. => s.fsm = .issue → paletteBank s.adrQ.base = b ∧ paletteBank s.first1.base = b
  | _ => True

/-- No command address is held, and none is being formed. -/
def Parked (f : Fetch) (s : PixelSource) : Prop :=
  match f with
  | .block .. => s.fsm = .idle ∨ s.fsm = .mul
  | _ => True

instance (f : Fetch) (s : PixelSource) : Decidable (s.Parked f) :=
  match f with
  | .block .. => inferInstanceAs (Decidable (_ ∨ _))
  | .plain | .pipelined => .isTrue trivial

variable {f : Fetch} {groups : ℕ} {s : PixelSource} {base : BitVec 20} {width : BitVec 16}
  {groupConfig : ℕ → PanelConfig} {i : SourceInputs} {cmdAck memAck : Bool}

lemma Under.memAdr (h : s.Under f (paletteBank base)) (hr : s.memReq f groups = true) :
    paletteBank (s.memAdr f base width groupConfig i).base = paletteBank base := by
  cases f with
  | plain => rfl
  | pipelined => rfl
  | block k a0 a1 b0 b1 => exact (h (of_decide_eq_true hr)).1

lemma Under.next (h : s.Under f (paletteBank base)) :
    (s.next f groups base width groupConfig i cmdAck memAck).Under f (paletteBank base) := by
  cases f with
  | plain => trivial
  | pipelined => trivial
  | block k a0 a1 b0 b1 =>
    intro hf
    rw [PixelSource.next, nextBlock] at hf ⊢
    cases hs : s.fsm with
    | idle =>
      rw [hs] at hf
      dsimp only at hf
      split at hf
      · cases hf
      · exact absurd (hs.symm.trans hf) (by decide)
    | mul =>
      rw [hs] at hf
      cases hf
    | adr0 => exact ⟨rfl, rfl⟩
    | issue =>
      obtain ⟨hq, hfirst⟩ := h hs
      rw [hs] at hf
      dsimp only at hf ⊢
      cases cmdAck with
      | false => exact ⟨hq, rfl⟩
      | true =>
        rw [if_pos rfl] at hf ⊢
        split
        · split
          · rename_i hj hp
            rw [if_pos hj, if_pos hp] at hf
            cases hf
          · exact ⟨hfirst, rfl⟩
        · exact ⟨hq, rfl⟩

lemma Parked.next (h : s.Parked f) (b : Bool) :
    (s.next f groups base width groupConfig i cmdAck memAck).Under f b := by
  cases f with
  | plain => trivial
  | pipelined => trivial
  | block k a0 a1 b0 b1 =>
    intro hf
    rw [PixelSource.next, nextBlock] at hf
    rcases h with hs | hs
    · rw [hs] at hf
      dsimp only at hf
      split at hf
      · cases hf
      · exact absurd (hs.symm.trans hf) (by decide)
    · rw [hs] at hf
      cases hf

end PixelSource

namespace SpwmScanOut

variable {n : ℕ} (f : Fetch) (groups : ℕ)

/-- The live half stays, or no word is left on its way: none asked for, and no source about to ask at
an address of its own. -/
def Still (s : SpwmScanOut n) (i : SpwmInputs n) : Prop :=
  paletteBank (nextFbBase s.fbBaseEff i.fbBase i.autoSwap i.swapReq) = paletteBank s.fbBaseEff ∨
    s.nextReads f groups i = [] ∧ ∀ k, (s.source k).Parked f

instance (s : SpwmScanOut n) (i : SpwmInputs n) : Decidable (s.Still f groups i) :=
  inferInstanceAs (Decidable (_ ∨ _))

structure Steady (s : SpwmScanOut n) : Prop where
  reads : ∀ a ∈ s.reads, paletteBank a.base = paletteBank s.fbBaseEff
  source : ∀ k, (s.source k).Under f (paletteBank s.fbBaseEff)
  stage : s.stage.valid = true → s.stage.Matched

lemma steady_start : (({} : SpwmScanOut n)).Steady f where
  reads _ ha := by cases ha
  source k := by
    cases f with
    | plain => trivial
    | pipelined => trivial
    | block => intro hf; cases hf
  stage hv := by cases hv

variable {f groups} {s : SpwmScanOut n} {i : SpwmInputs n}

lemma Steady.asked (h : s.Steady f) {a : FbAddress} (ha : a ∈ s.nextReads f groups i) :
    paletteBank a.base = paletteBank s.fbBaseEff := by
  rcases mem_nextQueue ha with ha | ha
  · exact h.reads a ha
  · obtain ⟨k, hk, rfl⟩ := Option.map_eq_some_iff.mp (Option.mem_toList.mp ha)
    exact (h.source k).memAdr (Option.filter_eq_some_iff.mp hk).2

lemma Steady.next (h : s.Steady f) (hs : s.Still f groups i) : (s.next f groups i).Steady f where
  reads a ha := by
    change paletteBank a.base = paletteBank (nextFbBase _ _ _ _)
    rcases hs with hs | ⟨hreads, -⟩
    · exact (h.asked ha).trans hs.symm
    · rw [show (s.next f groups i).reads = [] from hreads] at ha
      cases ha
  source k := by
    change ((s.source k).next ..).Under f (paletteBank (nextFbBase _ _ _ _))
    rcases hs with hs | ⟨-, hparked⟩
    · exact hs ▸ (h.source k).next
    · exact (hparked k).next _
  stage hv := by
    have hv' : s.returns i = true := hv
    rw [returns, Bool.and_eq_true, Bool.not_eq_true'] at hv'
    exact (h.reads s.head (headD_mem hv'.2)).symm

end SpwmScanOut

/-- Along every run that changes the live half only while no word is on its way, under every memory
latency: what is written into a row buffer, and what the palette stage hands on, was looked up in the
bank of its own half. -/
theorem matched_of_still (z : PanelSize) (gamma : BitVec 8 → BitVec 8) (is : List ScanInputs) (n : ℕ)
    (f : Fetch) (groups : ℕ) (js : List (SpwmInputs n)) :
    (Always (fun s i t => t = ScanOut.next z gamma s i) ScanOut.Still {} is →
      ∀ k, ((ScanOut.after z gamma {} is).reader.ports k).we = true →
        ((ScanOut.after z gamma {} is).reader.ports k).datW.Matched) ∧
    (Always (fun s i t => t = SpwmScanOut.next f groups s i) (SpwmScanOut.Still f groups) {} js →
      (SpwmScanOut.after f groups {} js).stage.valid = true →
      (SpwmScanOut.after f groups {} js).stage.Matched) := by
  constructor
  · intro h
    have hrun := run_foldl (ScanOut.next z gamma) {} is
    have hs := hrun.invariant (fun s i t (hs : s.Steady) hc ht => ht ▸ hs.next hc)
      ScanOut.steady_start h
    exact hs.matched.ports
  · intro h
    have hrun := run_foldl (SpwmScanOut.next f groups) {} js
    have hs := hrun.invariant (fun s i t (hs : s.Steady f) hc ht => ht ▸ hs.next hc)
      (SpwmScanOut.steady_start f) h
    exact hs.stage

/-- A row of two pixels is fetched, the gateware swaps, and the next row's first pixel comes back. -/
def swapBetweenRows : List ScanInputs :=
  [{ start := true }, {}, {}, {}, { sourceValid := true }, { sourceValid := true },
    { autoSwap := true, swapReq := true }, { start := true }, {}, {}, { sourceValid := true }, {}, {}]

/-- The same with one pixel of an S-PWM output. -/
def spwmSwapBetween : List (SpwmInputs 1) :=
  [{ source := fun _ => { req := true } }, {}, { cmd := some 0 }, { rdataValid := true },
    { autoSwap := true, swapReq := true }, { cmd := some 0 }, { rdataValid := true }]

theorem matched_swapBetween :
    (∀ k, ((ScanOut.after ⟨1, 1, 0, 1⟩ id {} swapBetweenRows).reader.ports k).we = true →
      ((ScanOut.after ⟨1, 1, 0, 1⟩ id {} swapBetweenRows).reader.ports k).datW.Matched) ∧
    (SpwmScanOut.after .plain 2 {} spwmSwapBetween).stage.Matched :=
  (matched_of_still ⟨1, 1, 0, 1⟩ id swapBetweenRows 1 .plain 2 spwmSwapBetween).imp
    (fun h => h (by decide +kernel)) fun h => h (by decide +kernel) (by decide +kernel)

/-- A row's first read is accepted, the gateware swaps, the word comes back. -/
def swapUnderRead : List ScanInputs :=
  [{ start := true }, {}, {}, { autoSwap := true, swapReq := true }, { sourceValid := true }, {}, {}]

def spwmSwapUnderRead : List (SpwmInputs 1) :=
  [{ source := fun _ => { req := true } }, {}, { cmd := some 0 },
    { autoSwap := true, swapReq := true }, { rdataValid := true }]

theorem not_matched_swapUnderRead :
    (¬ ∀ (z : PanelSize) (gamma : BitVec 8 → BitVec 8) (is : List ScanInputs) (k : ℕ),
      ((ScanOut.after z gamma {} is).reader.ports k).we = true →
        ((ScanOut.after z gamma {} is).reader.ports k).datW.Matched) ∧
    ¬ ∀ (n : ℕ) (f : Fetch) (groups : ℕ) (is : List (SpwmInputs n)),
      (SpwmScanOut.after f groups {} is).stage.valid = true →
      (SpwmScanOut.after f groups {} is).stage.Matched := by
  constructor
  · intro h
    exact absurd (h ⟨96, 24, 0, 8⟩ id swapUnderRead 0 (by decide +kernel)) (by decide +kernel)
  · intro h
    exact absurd (h 1 .plain 2 spwmSwapUnderRead (by decide +kernel)) (by decide +kernel)

end Ledwall.Gateware
