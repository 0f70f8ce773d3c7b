import Ledwall.Gateware.PayloadTrace

/-! Where the pixel DMA writes: each word handed to the writer, over all runs of the pixel path. -/

namespace Ledwall.Gateware

open Ledwall.Library.Runs Ledwall.Wire

/-- The address lies in the half the chunk's header committed to, below the limit. -/
def Trace.Holds (t : Trace) (limit address : BitVec 24) : Prop :=
  t.base.toNat ≤ address.toNat ∧ address.toNat < t.base.toNat + limit.toNat

/-- The pixel's place in the image, as far as the 24 bits of the address tell. -/
def Trace.place (t : Trace) : ℕ := t.offset % 2 ^ 24

/-- The address of the pixel does not carry out of 24 bits, and the back half has not moved under the
chunk unless the pixel is below the limit anyway. -/
def Watched.StaysPut (w : Watched) (i : Inputs) : Prop :=
  w.trace.base.toNat + w.trace.place < 2 ^ 24 ∧
    (writeBase w.path.fbBaseEff = w.trace.base ∨ w.trace.place < i.limit.toNat)

lemma writeBase_cases (d : BitVec 20) :
    writeBase d = sdramOffset ∨ writeBase d = sdramOffset + halfWords := by
  rw [writeBase]
  split
  · exact .inr rfl
  · exact .inl rfl

lemma writeBaseNext_cases (s : Hub75UdpDma) (d : BitVec 20) (i : Inputs) :
    s.writeBaseNext d i = sdramOffset ∨ s.writeBaseNext d i = sdramOffset + halfWords := by
  rw [Hub75UdpDma.writeBaseNext]
  split
  · rw [otherBase]
    split
    · exact .inr rfl
    · exact .inl rfl
  · exact writeBase_cases d

/-- The invariant of a run. -/
structure Watched.Tracks (w : Watched) : Prop where
  reads : Reads w.path.dma w.trace
  base : w.trace.base = sdramOffset ∨ w.trace.base = sdramOffset + halfWords

variable {w : Watched} {i : Inputs} {a : BitVec 24} {x : BitVec 32}

lemma Watched.tracks_start : Watched.Tracks {} := ⟨.of_idle (.inl rfl) _, .inl rfl⟩

lemma Watched.Tracks.next (h : w.Tracks) (i : Inputs) : (w.next i).Tracks := by
  refine ⟨h.reads.next i, ?_⟩
  change (if w.path.dma.commits i then _ else _) = _ ∨ (if w.path.dma.commits i then _ else _) = _
  split
  · exact writeBaseNext_cases _ _ _
  · exact h.base

lemma write_inv (h : w.path.write i = some (a, x)) :
    w.path.dma.fsm = .pix ∧ a = w.path.dma.pixAdr ∧
      a.toNat < (writeBase w.path.fbBaseEff).toNat + i.limit.toNat := by
  rw [PixelPath.write] at h
  split at h
  · rename_i hw
    simp only [Hub75UdpDma.writes, Hub75UdpDma.progress, Hub75UdpDma.inRange, Bool.and_eq_true,
      beq_iff_eq, decide_eq_true_eq] at hw
    obtain ⟨b, -, he⟩ := Option.map_eq_some_iff.mp h
    obtain ⟨rfl, rfl⟩ := Prod.mk.inj he
    exact ⟨hw.1.1.1, rfl, hw.2⟩
  · cases h

lemma toNat_low : sdramOffset.toNat = 327680 := rfl

lemma toNat_high : (sdramOffset + halfWords).toNat = 655360 := rfl

lemma Watched.Tracks.holds_iff (h : w.Tracks) (hl : i.limit.toNat ≤ halfWords.toNat)
    (hw : w.path.write i = some (a, x)) : w.trace.Holds i.limit a ↔ w.StaysPut i := by
  obtain ⟨hs, ha, hlt⟩ := write_inv hw
  have hadr : a.toNat = (w.trace.base.toNat + w.trace.place) % 2 ^ 24 := by
    have hpix := (h.reads.inPixels hs).pixAdr
    rw [ha, show w.path.dma.pixAdr = _ from hpix, BitVec.toNat_add, BitVec.toNat_ofNat]
    rfl
  have hplace : w.trace.place < 2 ^ 24 := Nat.mod_lt _ (by decide)
  have hhalf : i.limit.toNat ≤ 327680 := hl
  rw [Trace.Holds, Watched.StaysPut, hadr]
  rw [hadr] at hlt
  rcases h.base with hb | hb <;> rcases writeBase_cases w.path.fbBaseEff with hw | hw <;>
    rw [hw, hb] at hlt ⊢
  · simp only [toNat_low, eq_self, true_or, and_true] at hlt ⊢
    omega
  · have hne : (sdramOffset + halfWords = sdramOffset) = False := by decide
    simp only [toNat_low, toNat_high, hne, false_or] at hlt ⊢
    omega
  · have hne : (sdramOffset = sdramOffset + halfWords) = False := by decide
    simp only [toNat_low, toNat_high, hne, false_or] at hlt ⊢
    omega
  · simp only [toNat_high, eq_self, true_or, and_true] at hlt ⊢
    omega

/-- Over every run from reset, with any bytes on the stream: a word handed to the writer has an
address in its half exactly when its pixel stays put. -/
theorem Watched.write_holds_iff (is : List Inputs)
    (hl : ∀ i ∈ is, i.limit.toNat ≤ halfWords.toNat) :
    Always Watched.Step (fun w i => ∀ a x, w.path.write i = some (a, x) →
      (w.trace.Holds i.limit a ↔ w.StaysPut i)) {} is := by
  have hall (w : Watched) : Always Watched.Step
      (fun _ i => i.limit.toNat ≤ halfWords.toNat) w is := by
    induction is generalizing w with
    | nil => trivial
    | cons i is ih =>
      refine ⟨hl i List.mem_cons_self, fun w' _ => ?_⟩
      exact ih (fun j hj => hl j (List.mem_cons_of_mem _ hj)) w'
  refine Always.of_safe (I := Watched.Tracks) ?_ ?_ Watched.tracks_start (hall {})
  · rintro w i _ h - rfl
    exact h.next i
  · intro w i h hl a x hw
    exact h.holds_iff hl hw

/-- A wide chunk far past the image, of one pixel. -/
def farChunk : List Byte :=
  [0x42, 0x57, 0, 0, 0x95, 0x81, 0xFF, 0xFF, 0, 0, 0, 0, 1, 2, 3]

theorem Watched.write_holds_iff_farChunk :
    Always Watched.Step (fun w i => ∀ a x, w.path.write i = some (a, x) →
      (w.trace.Holds i.limit a ↔ w.StaysPut i)) {} (feed 1 farChunk) :=
  Watched.write_holds_iff _ (by decide)

theorem Watched.farChunk_below :
    ¬ Always Watched.Step (fun w i => ∀ a x, w.path.write i = some (a, x) →
      w.trace.Holds i.limit a) {} (feed 1 farChunk) := by
  intro h
  have hlast := h.at_prefix (Watched.run_after {} ((feed 1 farChunk).take 14)) 222 0x030201
    (by decide)
  exact absurd hlast.1 (by decide)

end Ledwall.Gateware
