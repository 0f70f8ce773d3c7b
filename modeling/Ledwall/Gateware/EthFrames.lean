import Ledwall.Gateware.SmolEth

/-! Ethernet frames as beats: the first byte of the wire in the low lane. -/

namespace Ledwall.Gateware

open Ledwall.Wire

def frameWord (f : List Byte) (k : ℕ) : BitVec 32 :=
  f.getD (4 * k + 3) 0 ++ f.getD (4 * k + 2) 0 ++ f.getD (4 * k + 1) 0 ++ f.getD (4 * k) 0

def beatCount (f : List Byte) : ℕ := (f.length + 3) / 4

def beatAt (f : List Byte) (k : ℕ) : PhyBeat where
  data := frameWord f k
  lastBe := if k + 1 = beatCount f then 1 <<< ((f.length - 1) % 4) else 0
  error := 0
  last := decide (k + 1 = beatCount f)

def frameBeats (f : List Byte) : List PhyBeat := (List.range (beatCount f)).map (beatAt f)

variable {f : List Byte} {k : ℕ}

lemma beatAt_byte (f : List Byte) (k : ℕ) {j : ℕ} (hj : j < 4) :
    (beatAt f k).byte j = f.getD (4 * k + j) 0 := by
  obtain rfl | rfl | rfl | rfl : j = 0 ∨ j = 1 ∨ j = 2 ∨ j = 3 := by omega
  all_goals
    ext i hi
    simp [PhyBeat.byte, beatAt, frameWord]
    grind

@[simp] lemma frameBeats_length (f : List Byte) : (frameBeats f).length = beatCount f := by
  rw [frameBeats, List.length_map, List.length_range]

lemma drop_frameBeats (h : k < beatCount f) :
    (frameBeats f).drop k = beatAt f k :: (frameBeats f).drop (k + 1) := by
  have hk : k < (frameBeats f).length := by rwa [frameBeats_length]
  rw [List.drop_eq_getElem_cons hk]
  simp [frameBeats]

lemma take_frameBeats (h : k < beatCount f) :
    (frameBeats f).take (k + 1) = (frameBeats f).take k ++ [beatAt f k] := by
  have hk : k < (frameBeats f).length := by rwa [frameBeats_length]
  rw [List.take_succ_eq_append_getElem hk]
  simp [frameBeats]

lemma beatAt_last : (beatAt f k).last = decide (k + 1 = beatCount f) := rfl

end Ledwall.Gateware
