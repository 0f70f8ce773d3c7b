import Ledwall.Gateware.EthFrames

/-! What the pixel classifier makes of a frame, beat by beat. -/

namespace Ledwall.Gateware

open Ledwall.Wire

section Bytes

variable (f : List Byte) (port : BitVec 16) (o : ℕ)

/-- An EtherType of IPv4 and a header of 20 bytes, at `o` bytes into the frame. -/
def ipAt : Bool :=
  f.getD (o + 12) 0 == 0x08 && f.getD (o + 13) 0 == 0x00 && f.getD (o + 14) 0 == 0x45

def udpAt : Bool := f.getD (o + 23) 0 == 17

def portAt : Bool :=
  f.getD (o + 36) 0 == port.extractLsb' 8 8 && f.getD (o + 37) 0 == port.extractLsb' 0 8

def paletteAt : Bool := f.getD (o + 42) 0 == 0x42 && f.getD (o + 43) 0 == 0x50

/-- The frame's own header says UDP over IPv4 to the port. -/
def toPort : Bool := ipAt f 0 && udpAt f 0 && portAt f port 0

def isPixel : Bool := toPort f port && !paletteAt f 0

/-- What the classifier holds of the port once its beat counter has gone round. -/
def toPortAgain : Bool :=
  toPort f port || (ipAt f 1024 && udpAt f 1024 && portAt f port 1024)

end Bytes

/-- The classifier after the first `k` beats of a frame. -/
structure Judged (f : List Byte) (port : BitVec 16) (k : ℕ) (c : SmolEthPixelClassifier) : Prop where
  beat : c.beat = BitVec.ofNat 8 k
  isIp : c.isIp = if k ≤ 3 then false else if k ≤ 259 then ipAt f 0 else ipAt f 1024
  isUdp : c.isUdp = if k ≤ 5 then false else if k ≤ 261 then ipAt f 0 && udpAt f 0
    else if ipAt f 1024 then udpAt f 1024 else ipAt f 0 && udpAt f 0
  portOk : c.portOk = if k ≤ 9 then false else if k ≤ 265 then toPort f port
    else toPortAgain f port
  matched : c.matched = if k ≤ 10 then false else if k ≤ 266 then isPixel f port
    else isPixel f port || (toPortAgain f port && !paletteAt f 1024)

variable {f : List Byte} {port : BitVec 16} {k : ℕ} {c : SmolEthPixelClassifier}

lemma judged_fresh (f : List Byte) (port : BitVec 16) (killed : BitVec 32) :
    Judged f port 0 { killed := killed } := ⟨rfl, rfl, rfl, rfl, rfl⟩

lemma ofNat_eq_iff (hk : k < 380) {m : ℕ} (hm : m < 124) :
    BitVec.ofNat 8 k = BitVec.ofNat 8 m ↔ k = m ∨ k = m + 256 := by
  rw [← BitVec.toNat_inj, BitVec.toNat_ofNat, BitVec.toNat_ofNat]
  omega

lemma stage_succ {k a b : ℕ} (ha : k ≠ a) (hb : k ≠ b) {x y z : Bool} :
    (if k ≤ a then x else if k ≤ b then y else z) =
      if k + 1 ≤ a then x else if k + 1 ≤ b then y else z := by
  have h₁ : k ≤ a ↔ k + 1 ≤ a := by omega
  have h₂ : k ≤ b ↔ k + 1 ≤ b := by omega
  simp only [h₁, h₂]

namespace Judged

lemma beat_eq (h : Judged f port k c) (hk : k < 380) {m : ℕ} (hm : m < 124) :
    c.beat = BitVec.ofNat 8 m ↔ k = m ∨ k = m + 256 := by
  rw [h.beat]
  exact ofNat_eq_iff hk hm

lemma next_isIp (h : Judged f port k c) (hk : k < 380) :
    (c.observe port (beatAt f k)).isIp =
      if k + 1 ≤ 3 then false else if k + 1 ≤ 259 then ipAt f 0 else ipAt f 1024 := by
  have hb := h.beat_eq hk (m := 3) (by decide)
  simp only [SmolEthPixelClassifier.observe, beatAt_byte, Nat.ofNat_pos, Nat.one_lt_ofNat,
    Nat.lt_add_one, Nat.reduceLT]
  by_cases h₃ : c.beat = 3
  · rw [if_pos h₃]
    rcases hb.mp h₃ with rfl | rfl <;> rfl
  · have hne : ¬ (k = 3 ∨ k = 259) := fun he => h₃ (hb.mpr he)
    rw [if_neg h₃, h.isIp]
    exact stage_succ (by omega) (by omega)

lemma next_isUdp (h : Judged f port k c) (hk : k < 380) :
    (c.observe port (beatAt f k)).isUdp =
      if k + 1 ≤ 5 then false else if k + 1 ≤ 261 then ipAt f 0 && udpAt f 0
        else if ipAt f 1024 then udpAt f 1024 else ipAt f 0 && udpAt f 0 := by
  have hb := h.beat_eq hk (m := 5) (by decide)
  simp only [SmolEthPixelClassifier.observe, beatAt_byte, Nat.lt_add_one, Nat.reduceLT]
  by_cases h₅ : c.beat = 5
  · rcases hb.mp h₅ with rfl | rfl
    · have hi := h.isIp
      have hu := h.isUdp
      norm_num at hi hu ⊢
      rw [hi, hu]
      cases ipAt f 0
      · simp
      · simp [h₅, udpAt]
    · have hi := h.isIp
      have hu := h.isUdp
      norm_num at hi hu ⊢
      rw [hi, hu]
      cases ipAt f 1024
      · simp
      · simp [h₅, udpAt]
  · have hne : ¬ (k = 5 ∨ k = 261) := fun he => h₅ (hb.mpr he)
    rw [if_neg (fun hc => h₅ hc.1), h.isUdp]
    exact stage_succ (by omega) (by omega)

lemma next_portOk (h : Judged f port k c) (hk : k < 380) :
    (c.observe port (beatAt f k)).portOk =
      if k + 1 ≤ 9 then false else if k + 1 ≤ 265 then toPort f port else toPortAgain f port := by
  have hb := h.beat_eq hk (m := 9) (by decide)
  simp only [SmolEthPixelClassifier.observe, beatAt_byte, Nat.ofNat_pos, Nat.one_lt_ofNat]
  by_cases h₉ : c.beat = 9
  · rcases hb.mp h₉ with rfl | rfl
    · have hi := h.isIp
      have hu := h.isUdp
      have hp := h.portOk
      norm_num at hi hu hp ⊢
      rw [hi, hu, hp, h₉]
      simp [toPort, portAt, Bool.and_assoc]
    · have hi := h.isIp
      have hu := h.isUdp
      have hp := h.portOk
      norm_num at hi hu hp ⊢
      rw [hi, hu, hp, h₉]
      cases hw : ipAt f 1024 <;> simp [toPortAgain, portAt, hw, Bool.and_assoc]
  · have hne : ¬ (k = 9 ∨ k = 265) := fun he => h₉ (hb.mpr he)
    have h₉' : (c.beat == 9) = false := beq_eq_false_iff_ne.mpr h₉
    rw [h₉', h.portOk]
    simp only [Bool.false_and, Bool.or_false]
    exact stage_succ (by omega) (by omega)

lemma next_matched (h : Judged f port k c) (hk : k < 380) :
    (c.observe port (beatAt f k)).matched =
      if k + 1 ≤ 10 then false else if k + 1 ≤ 266 then isPixel f port
        else isPixel f port || (toPortAgain f port && !paletteAt f 1024) := by
  have hb := h.beat_eq hk (m := 10) (by decide)
  simp only [SmolEthPixelClassifier.observe, beatAt_byte, Nat.lt_add_one, Nat.reduceLT]
  by_cases h₁₀ : c.beat = 10
  · rcases hb.mp h₁₀ with rfl | rfl
    · have hp := h.portOk
      have hm := h.matched
      norm_num at hp hm ⊢
      rw [hp, hm, h₁₀]
      simp [isPixel, paletteAt]
    · have hp := h.portOk
      have hm := h.matched
      norm_num at hp hm ⊢
      rw [hp, hm, h₁₀]
      simp [paletteAt]
  · have hne : ¬ (k = 10 ∨ k = 266) := fun he => h₁₀ (hb.mpr he)
    have h₁₀' : (c.beat == 10) = false := beq_eq_false_iff_ne.mpr h₁₀
    rw [h₁₀', h.matched]
    simp only [Bool.false_and, Bool.or_false]
    exact stage_succ (by omega) (by omega)

/-- One more beat of the frame. -/
theorem next (h : Judged f port k c) (hk : k < 380) :
    Judged f port (k + 1) (c.observe port (beatAt f k)) := by
  refine ⟨?_, h.next_isIp hk, h.next_isUdp hk, h.next_portOk hk, h.next_matched hk⟩
  change c.beat + 1 = _
  rw [h.beat, BitVec.ofNat_add]
  rfl

end Judged

end Ledwall.Gateware
