import Mathlib.Data.Nat.Count
import Ledwall.Receiver.BitmapReceiver

/-! The arrival mask as a set of chunk indices below `MAX_CHUNKS`. -/

namespace Ledwall.Receiver.ChunkMask

/-- Bit `idx` of the mask; out of range reads as absent. -/
def has (m : ChunkMask) (idx : ℕ) : Bool :=
  if h : idx / 64 < MASK_WORDS then m[idx / 64].getLsbD (idx % 64) else false

lemma word_index (idx : ℕ) : idx >>> 6 = idx / 64 := Nat.shiftRight_eq_div_pow idx 6

lemma bit_index (idx : ℕ) : idx &&& 63 = idx % 64 := Nat.and_two_pow_sub_one_eq_mod idx 6

lemma word_index_lt_iff (idx : ℕ) : idx / 64 < MASK_WORDS ↔ idx < MAX_CHUNKS := by
  simp only [MASK_WORDS, MAX_CHUNKS]
  omega

lemma test_eq (m : ChunkMask) {idx : ℕ} (h : idx < MAX_CHUNKS) : m.test idx = .ok (m.has idx) := by
  have hw := (word_index_lt_iff idx).mpr h
  simp only [test, has, word_index, bit_index, hw, dif_pos]

lemma test_oob (m : ChunkMask) {idx : ℕ} (h : MAX_CHUNKS ≤ idx) :
    m.test idx = .error .indexOutOfBounds := by
  have hw : ¬ idx / 64 < MASK_WORDS := by rw [word_index_lt_iff]; omega
  simp only [test, word_index, hw, dif_neg, not_false_eq_true]

@[simp] lemma has_empty (idx : ℕ) : empty.has idx = false := by
  simp [has, empty]

/-- The mask with bit `idx` set. -/
def add (m : ChunkMask) (idx : ℕ) : ChunkMask :=
  if h : idx / 64 < MASK_WORDS then m.set (idx / 64) (m[idx / 64] ||| 1#64 <<< (idx % 64)) else m

lemma insert_eq (m : ChunkMask) {idx : ℕ} (h : idx < MAX_CHUNKS) :
    m.insert idx = .ok (m.add idx) := by
  have hw := (word_index_lt_iff idx).mpr h
  simp only [insert, add, word_index, bit_index, hw, dif_pos]

lemma has_add (m : ChunkMask) {idx : ℕ} (h : idx < MAX_CHUNKS) (j : ℕ) :
    (m.add idx).has j = (decide (j = idx) || m.has j) := by
  have hw := (word_index_lt_iff idx).mpr h
  rw [add, dif_pos hw]
  unfold has
  split
  · by_cases he : idx / 64 = j / 64
    · have hd : j = idx ↔ j % 64 = idx % 64 := by omega
      simp only [Vector.getElem_set, he, if_pos, BitVec.getLsbD_or, hd]
      simp only [BitVec.getLsbD_shiftLeft, BitVec.getLsbD_one]
      by_cases hs : j % 64 = idx % 64
      · simp [hs, Nat.mod_lt]
      · have : ¬ (j % 64 - idx % 64 = 0 ∧ idx % 64 ≤ j % 64) := by omega
        simp [hs]
        omega
    · have hne : j ≠ idx := by rintro rfl; exact he rfl
      simp [he, hne]
  · rename_i hj
    have hne : j ≠ idx := by rintro rfl; exact hj hw
    simp [hne]

section Counting

variable {p q : ℕ → Prop} [DecidablePred p] [DecidablePred q]

lemma count_congr {n : ℕ} (h : ∀ i < n, p i ↔ q i) : Nat.count p n = Nat.count q n := by
  apply le_antisymm
  · exact Nat.count_mono_left fun i hi => (h i hi).mp
  · exact Nat.count_mono_left fun i hi => (h i hi).mpr

end Counting

lemma countOnes_eq (w : BitVec 64) : countOnes w = Nat.count (fun i => w.getLsbD i = true) 64 := by
  rw [Nat.count_eq_card_filter_range, countOnes]
  simp [Finset.card, Finset.filter, Finset.range, Multiset.range]

/-- Bit `i` of the words in a row. -/
def bitAt (ws : List (BitVec 64)) (i : ℕ) : Bool := (ws.getD (i / 64) 0).getLsbD (i % 64)

lemma count_bitAt (ws : List (BitVec 64)) :
    (ws.map countOnes).sum = Nat.count (fun i => bitAt ws i = true) (64 * ws.length) := by
  induction ws with
  | nil => rfl
  | cons w ws ih =>
    have hlen : 64 * (w :: ws).length = 64 + 64 * ws.length := by
      rw [List.length_cons]
      ring
    have hhead : countOnes w = Nat.count (fun i => bitAt (w :: ws) i = true) 64 := by
      rw [countOnes_eq]
      apply count_congr
      intro i hi
      simp [bitAt, Nat.div_eq_of_lt hi, Nat.mod_eq_of_lt hi]
    have htail (i : ℕ) : bitAt (w :: ws) (64 + i) = bitAt ws i := by
      have hd : (64 + i) / 64 = i / 64 + 1 := by omega
      simp [bitAt, hd]
    rw [List.map_cons, List.sum_cons, ih, hlen, Nat.count_add, hhead]
    simp only [htail]

lemma has_eq_bitAt (m : ChunkMask) (i : ℕ) : m.has i = bitAt m.toList i := by
  rw [has, bitAt, List.getD_eq_getElem?_getD, Vector.getElem?_toList]
  split
  · rename_i h
    rw [Vector.getElem?_eq_getElem h]
    rfl
  · rename_i h
    rw [Vector.getElem?_eq_none (not_lt.mp h)]
    simp

lemma count_eq (m : ChunkMask) : m.count = Nat.count (fun i => m.has i = true) MAX_CHUNKS := by
  rw [count, count_bitAt, Vector.length_toList]
  simp only [has_eq_bitAt]
  rfl

lemma count_le (m : ChunkMask) : m.count ≤ MAX_CHUNKS := by
  rw [count_eq]
  exact Nat.count_le _

lemma has_of_le (m : ChunkMask) {i : ℕ} (h : MAX_CHUNKS ≤ i) : m.has i = false := by
  rw [has, dif_neg]
  rw [word_index_lt_iff]
  omega

@[simp] lemma count_empty : empty.count = 0 := by
  simp [count_eq]

lemma count_add (m : ChunkMask) {idx : ℕ} (h : idx < MAX_CHUNKS) (hn : m.has idx = false) :
    (m.add idx).count = m.count + 1 := by
  have hset : (Finset.range MAX_CHUNKS).filter (fun j => (m.add idx).has j = true) =
      Insert.insert idx ((Finset.range MAX_CHUNKS).filter fun j => m.has j = true) := by
    ext j
    simp only [Finset.mem_filter, Finset.mem_insert, Finset.mem_range, m.has_add h,
      Bool.or_eq_true, decide_eq_true_eq]
    constructor
    · rintro ⟨hj, he | he⟩
      · exact .inl he
      · exact .inr ⟨hj, he⟩
    · rintro (rfl | ⟨hj, he⟩)
      · exact ⟨h, .inl rfl⟩
      · exact ⟨hj, .inr he⟩
  rw [count_eq, count_eq, Nat.count_eq_card_filter_range, Nat.count_eq_card_filter_range, hset,
    Finset.card_insert_of_notMem]
  simp [hn]

lemma has_union (m n : ChunkMask) (i : ℕ) : (m.union n).has i = (m.has i || n.has i) := by
  simp only [has, union]
  split
  · rw [Vector.getElem_zipWith, BitVec.getLsbD_or]
  · rfl

/-- No bit of the mask is at `n` or beyond. -/
def Below (m : ChunkMask) (n : ℕ) : Prop := ∀ i, m.has i = true → i < n

lemma below_iff {m : ChunkMask} {n : ℕ} :
    m.Below n ↔ ∀ i < MAX_CHUNKS, m.has i = true → i < n := by
  constructor
  · intro h i _ hi
    exact h i hi
  · intro h i hi
    apply h i _ hi
    by_contra hle
    rw [m.has_of_le (not_lt.mp hle)] at hi
    cases hi

instance (m : ChunkMask) (n : ℕ) : Decidable (m.Below n) := decidable_of_iff _ below_iff.symm

lemma below_empty (n : ℕ) : empty.Below n := by
  intro i hi
  rw [has_empty] at hi
  cases hi

lemma Below.union {m m' : ChunkMask} {n : ℕ} (h : m.Below n) (h' : m'.Below n) :
    (m.union m').Below n := by
  intro i hi
  rw [has_union, Bool.or_eq_true] at hi
  rcases hi with hi | hi
  · exact h i hi
  · exact h' i hi

lemma Below.add {m : ChunkMask} {n idx : ℕ} (h : m.Below n) (hi : idx < n) (hm : idx < MAX_CHUNKS) :
    (m.add idx).Below n := by
  intro j hj
  rw [m.has_add hm, Bool.or_eq_true, decide_eq_true_eq] at hj
  rcases hj with rfl | hj
  · exact hi
  · exact h j hj

lemma Below.count_add_lacking {m : ChunkMask} {n : ℕ} (h : m.Below n) (hn : n ≤ MAX_CHUNKS) :
    m.count + Nat.count (fun i => m.has i = false) n = n := by
  have hcount : m.count = Nat.count (fun i => m.has i = true) n := by
    obtain ⟨k, hk⟩ := Nat.exists_eq_add_of_le hn
    have hz : Nat.count (fun i => m.has (n + i) = true) k = 0 := by
      rw [Nat.count_iff_forall_not]
      intro i _ hi
      have := h _ hi
      omega
    rw [count_eq, hk, Nat.count_add, hz, Nat.add_zero]
  rw [hcount]
  clear hcount hn h
  induction n with
  | zero => rfl
  | succ n ih =>
    rw [Nat.count_succ, Nat.count_succ]
    cases m.has n <;> simp <;> omega

lemma Below.count_le {m : ChunkMask} {n : ℕ} (h : m.Below n) (hn : n ≤ MAX_CHUNKS) :
    m.count ≤ n := by
  have := h.count_add_lacking hn
  omega

end Ledwall.Receiver.ChunkMask
