import Ledwall.Receiver.Hub75Driver

/-! The word-wide pixel writes put down the same words as the bytewise ones. -/

namespace Ledwall.Receiver.Hub75

open Ledwall.Wire

lemma low_bits : ∀ i : Fin 32, (0xFF#32)[i.val] = decide (i.val < 8) := by decide

lemma masked_byte (w : Word) (k : ℕ) :
    (w >>> k) &&& 0xFF#32 = (w.extractLsb' k 8).setWidth 32 := by
  ext i hi
  simp only [BitVec.getElem_and, low_bits ⟨i, hi⟩]
  grind

lemma wordAt_byte (src : List Byte) (g j : ℕ) (hj : j < 4) :
    (wordAt src g >>> (8 * j)) &&& 0xFF#32 = indexedByte src (4 * g + j) := by
  rw [masked_byte, indexedByte]
  congr 1
  ext i hi
  obtain rfl | rfl | rfl | rfl : j = 0 ∨ j = 1 ∨ j = 2 ∨ j = 3 := by omega
  all_goals
    simp [wordAt]
    grind

lemma indexedGroup_eq (src : List Byte) (g : ℕ) :
    indexedGroup src g = (List.range' (g * 4) 4).map (indexedByte src) := by
  have h (j : ℕ) (hj : j < 4) := wordAt_byte src g j hj
  have h₀ := h 0 (by omega)
  simp only [Nat.mul_zero, BitVec.ushiftRight_zero] at h₀
  simp [indexedGroup, h₀, h 1 (by omega), h 2 (by omega), h 3 (by omega), List.range',
    Nat.mul_comm g 4]

lemma rgbGroup_eq (src : List Byte) (g : ℕ) :
    rgbGroup src g = (List.range' (g * 4) 4).map (rgbTriple src) := by
  have h (k j : ℕ) (hj : j < 4) := wordAt_byte src k j hj
  have h₀ (k : ℕ) := h k 0 (by omega)
  simp only [Nat.mul_zero, BitVec.ushiftRight_zero] at h₀
  have h₁ (k : ℕ) := h k 1 (by omega)
  have h₂ (k : ℕ) := h k 2 (by omega)
  have h₃ (k : ℕ) := h k 3 (by omega)
  simp only [Nat.mul_one, Nat.reduceMul] at h₁ h₂ h₃
  simp only [rgbGroup, h₀, h₁, h₂, h₃, List.range', List.map_cons, List.map_nil, rgbTriple, rgbWord,
    indexedByte]
  grind

lemma flatMap_fours {α : Type*} (f : ℕ → α) (g n : ℕ) (h : g * 4 ≤ n) :
    (List.range g).flatMap (fun k => (List.range' (k * 4) 4).map f) ++
      (List.range' (g * 4) (n - g * 4)).map f = (List.range n).map f := by
  induction g with
  | zero => simp [List.range_eq_range']
  | succ g ih =>
    rw [← ih (by omega), List.range_succ, List.flatMap_append, List.append_assoc]
    congr 1
    have hn : n - g * 4 = 4 + (n - (g + 1) * 4) := by omega
    have hs : (g + 1) * 4 = g * 4 + 4 := by omega
    rw [hn, hs, ← List.range'_append_1, List.map_append]
    simp

lemma indexedWords_eq (src : Slice) (n : ℕ) :
    indexedWords src n = (List.range n).map (indexedByte src.bytes) := by
  unfold indexedWords
  split
  · simp only [funext (indexedGroup_eq src.bytes)]
    exact flatMap_fours _ _ _ (by omega)
  · rfl

lemma rgbWords_eq (src : Slice) (n : ℕ) :
    rgbWords src n = (List.range n).map (rgbTriple src.bytes) := by
  unfold rgbWords
  split
  · simp only [funext (rgbGroup_eq src.bytes)]
    exact flatMap_fours _ _ _ (by omega)
  · rfl

end Ledwall.Receiver.Hub75
