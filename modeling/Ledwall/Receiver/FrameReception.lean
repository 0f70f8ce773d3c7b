import Ledwall.Receiver.Packets
import Ledwall.Wire.Frames

/-! What the receiver reads out of a frame's datagrams. -/

namespace Ledwall.Receiver

open BitmapReceiver Ledwall.Library.Chunking Ledwall.Wire

/-- Pixel `p` of the frame as a framebuffer word. -/
def pixelOf (f : Frame) (p : ℕ) : Word := pixelWord f.format.isIndexed f.picture.body p

section Formats

variable (m : Format)

lemma strideOf_format : strideOf m.isIndexed m.isWide = m.pixelsPerChunk := by cases m <;> rfl

lemma headerLen_format : headerLen m.isWide = m.headerSize := by cases m <;> rfl

lemma pixelBytes_format : pixelBytes m.isIndexed = m.bytesPerPixel := by cases m <;> rfl

end Formats

lemma le16_toNat {n : ℕ} (h : n < 65536) :
    (BitVec.ofNat 8 n).toNat + 256 * (BitVec.ofNat 8 (n / 256)).toNat = n := by
  simp only [BitVec.toNat_ofNat]
  omega

lemma byte_toNat {n : ℕ} (h : n < 256) : (BitVec.ofNat 8 n).toNat = n := by
  simp only [BitVec.toNat_ofNat]
  omega

section Datagrams

variable {f : Frame} {i : ℕ}

lemma datagram_length (f : Frame) (i : ℕ) :
    (f.datagram i).length = f.format.headerSize + (piece f.format.bytesPerChunk i f.picture.body).length := by
  rw [Frame.datagram, List.length_append, Frame.header_length]

lemma headerSize_ge (m : Format) : HEADER_SIZE ≤ m.headerSize := by cases m <;> decide

lemma pixelMagic_datagram (f : Frame) (i : ℕ) :
    pixelMagic (f.datagram i) = some (f.format.isIndexed, f.format.isWide) := by
  simp only [Frame.datagram, Frame.header]
  cases f.format <;> rfl

lemma headerOf_datagram (hs : f.Sendable) (hi : i < f.total) :
    headerOf (f.datagram i) f.format.isWide =
      ⟨f.id, i, f.total, f.width, f.height, headerLen f.format.isWide⟩ := by
  have ht := hs.total_lt
  obtain ⟨b₀, b₁, hb⟩ : ∃ b₀ b₁, f.format.magic.bytes = [b₀, b₁] := by
    cases f.format <;> exact ⟨_, _, rfl⟩
  simp only [Frame.datagram, Frame.header, Frame.counters, hb]
  cases hw : f.format.isWide with
  | true =>
    simp only [hw, if_true] at ht
    simp only [headerOf, if_true]
    congr 1
    · exact le16_toNat hs.id_lt
    · exact le16_toNat (hi.trans ht)
    · exact le16_toNat ht
    · exact le16_toNat hs.width_lt
    · exact le16_toNat hs.height_lt
  | false =>
    simp only [hw, Bool.false_eq_true, if_false] at ht
    simp only [headerOf, Bool.false_eq_true, if_false]
    congr 1
    · exact le16_toNat hs.id_lt
    · exact byte_toNat (hi.trans ht)
    · exact byte_toNat ht
    · exact le16_toNat hs.width_lt
    · exact le16_toNat hs.height_lt

lemma payload_datagram (f : Frame) (i : ℕ) :
    (f.datagram i).drop f.format.headerSize = piece f.format.bytesPerChunk i f.picture.body := by
  rw [Frame.datagram, ← Frame.header_length f i, List.drop_left]

lemma payload_length (hs : f.Sendable) (i : ℕ) :
    (piece f.format.bytesPerChunk i f.picture.body).length =
      min f.format.pixelsPerChunk (f.pixels - i * f.format.pixelsPerChunk) *
        f.format.bytesPerPixel := by
  rw [piece_length, hs.body_length, Format.bytesPerChunk, min_mul_sub]

lemma pixelWord_piece (f : Frame) (i : ℕ) {j : ℕ} (hj : j < f.format.pixelsPerChunk) :
    pixelWord f.format.isIndexed (piece f.format.bytesPerChunk i f.picture.body) j =
      pixelOf f (i * f.format.pixelsPerChunk + j) := by
  rw [pixelOf]
  cases hx : f.format.isIndexed with
  | true =>
    have hk : f.format.bytesPerChunk = f.format.pixelsPerChunk := by
      cases hm : f.format <;> rw [hm] at hx <;> first | rfl | cases hx
    simp only [pixelWord, if_true, Hub75.indexedByte, hk, piece_getD hj]
  | false =>
    have hk : f.format.bytesPerChunk = f.format.pixelsPerChunk * 3 := by
      cases hm : f.format <;> rw [hm] at hx <;> first | rfl | cases hx
    have hb (c : ℕ) (hc : c < 3) :
        (piece f.format.bytesPerChunk i f.picture.body).getD (j * 3 + c) 0 =
          f.picture.body.getD ((i * f.format.pixelsPerChunk + j) * 3 + c) 0 := by
      rw [hk, piece_getD (by omega)]
      congr 1
      ring
    have h₀ := hb 0 (by decide)
    simp only [Nat.add_zero] at h₀
    simp only [pixelWord, Bool.false_eq_true, if_false, Hub75.rgbTriple, h₀, hb 1 (by decide),
      hb 2 (by decide)]

lemma chunkWords_datagram {g : Glass} (hs : f.Sendable) (hg : g.imgLen = f.pixels) (i : ℕ) :
    g.chunkWords f.format.isIndexed (i * f.format.pixelsPerChunk)
        ((f.datagram i).drop f.format.headerSize) =
      (List.range (min f.format.pixelsPerChunk (f.pixels - i * f.format.pixelsPerChunk))).map
        fun j => pixelOf f (i * f.format.pixelsPerChunk + j) := by
  have hcount : (piece f.format.bytesPerChunk i f.picture.body).length /
      pixelBytes f.format.isIndexed =
        min f.format.pixelsPerChunk (f.pixels - i * f.format.pixelsPerChunk) := by
    rw [payload_length hs, pixelBytes_format, Nat.mul_div_cancel _ f.format.bytesPerPixel_pos]
  rw [Glass.chunkWords, payload_datagram, hcount, hg, Nat.min_assoc, Nat.min_self]
  apply List.map_congr_left
  intro j hj
  apply pixelWord_piece
  exact (List.mem_range.mp hj).trans_le (min_le_left _ _)

lemma draw_datagram {g : Glass} (hs : f.Sendable) (hg : g.imgLen = f.pixels) (i p : ℕ) :
    (g.draw (i * f.format.pixelsPerChunk) (g.chunkWords f.format.isIndexed
        (i * f.format.pixelsPerChunk) ((f.datagram i).drop f.format.headerSize))).back p =
      if p < f.pixels ∧ p / f.format.pixelsPerChunk = i then pixelOf f p else g.back p := by
  rw [chunkWords_datagram hs hg, Glass.draw]
  have hp : i * f.format.pixelsPerChunk ≤ p ∧ p < i * f.format.pixelsPerChunk +
      min f.format.pixelsPerChunk (f.pixels - i * f.format.pixelsPerChunk) ↔
        p < f.pixels ∧ p / f.format.pixelsPerChunk = i := inPiece_iff f.format.pixelsPerChunk_pos
  simp only [List.length_map, List.length_range, ← hp]
  split
  · rename_i hc
    rw [List.getD_eq_getElem?_getD, List.getElem?_map, List.getElem?_range (by omega)]
    simp only [Option.map_some, Option.getD_some]
    congr 1
    omega
  · rfl

end Datagrams

end Ledwall.Receiver
