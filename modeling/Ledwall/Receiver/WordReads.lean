import Ledwall.Receiver.PixelWrites

/-! The loops of the pixel writes read by read: no raw word read leaves its slice, and the back
buffer is left as the bytes say. -/

namespace Ledwall.Receiver

open Ledwall.Wire

/-- A panic, or a raw word read that reaches past the end of its slice. -/
inductive Fault
  | panic (p : Panic)
  | strayRead

/-- `read_volatile(words.add(k))` -/
def readWord (src : Slice) (k : ℕ) : Except Fault Word :=
  if 4 * k + 4 ≤ src.bytes.length then .ok (Hub75.wordAt src.bytes k) else .error .strayRead

def readByte (src : Slice) (i : ℕ) : Except Fault Byte :=
  if i < src.bytes.length then .ok (src.bytes.getD i 0) else .error (.panic .indexOutOfBounds)

/-- `dst[i] = w` -/
def setPixel (dst : List Word) (i : ℕ) (w : Word) : Except Fault (List Word) :=
  if i < dst.length then .ok (dst.set i w) else .error (.panic .indexOutOfBounds)

def setPixels (dst : List Word) (i : ℕ) : List Word → Except Fault (List Word)
  | [] => .ok dst
  | w :: ws => do
    let dst ← setPixel dst i w
    setPixels dst (i + 1) ws

def cutIndexed (w : Word) : List Word :=
  [w &&& 0xFF#32, (w >>> 8) &&& 0xFF#32, (w >>> 16) &&& 0xFF#32, (w >>> 24) &&& 0xFF#32]

def cutRgb (w0 w1 w2 : Word) : List Word :=
  [((w0 >>> 16) &&& 0xFF#32) <<< 16 ||| ((w0 >>> 8) &&& 0xFF#32) <<< 8 ||| (w0 &&& 0xFF#32),
   ((w1 >>> 8) &&& 0xFF#32) <<< 16 ||| (w1 &&& 0xFF#32) <<< 8 ||| ((w0 >>> 24) &&& 0xFF#32),
   (w2 &&& 0xFF#32) <<< 16 ||| ((w1 >>> 24) &&& 0xFF#32) <<< 8 ||| ((w1 >>> 16) &&& 0xFF#32),
   ((w2 >>> 24) &&& 0xFF#32) <<< 16 ||| ((w2 >>> 16) &&& 0xFF#32) <<< 8 |||
     ((w2 >>> 8) &&& 0xFF#32)]

def indexedReads (src : Slice) (g : ℕ) : Except Fault (List Word) := do
  let w ← readWord src g
  return cutIndexed w

def indexedPixel (src : Slice) (i : ℕ) : Except Fault Word := do
  let b ← readByte src i
  return b.setWidth 32

def rgbReads (src : Slice) (g : ℕ) : Except Fault (List Word) := do
  let w0 ← readWord src (g * 3)
  let w1 ← readWord src (g * 3 + 1)
  let w2 ← readWord src (g * 3 + 2)
  return cutRgb w0 w1 w2

def rgbPixel (src : Slice) (i : ℕ) : Except Fault Word := do
  let c0 ← readByte src (i * 3)
  let c1 ← readByte src (i * 3 + 1)
  let c2 ← readByte src (i * 3 + 2)
  return Hub75.rgbWord c0 c1 c2

def groupStep (group : ℕ → Except Fault (List Word)) (dst : List Word) (g : ℕ) :
    Except Fault (List Word) := do
  let ws ← group g
  setPixels dst (g * 4) ws

def pixelStep (pixel : ℕ → Except Fault Word) (dst : List Word) (i : ℕ) :
    Except Fault (List Word) := do
  let w ← pixel i
  setPixel dst i w

/-- The loops both writes share: groups of four from aligned words, then one pixel at a time. -/
def pixelLoop (src : Slice) (group : ℕ → Except Fault (List Word)) (pixel : ℕ → Except Fault Word)
    (n : ℕ) (dst : List Word) : Except Fault (List Word) :=
  if src.addr % 4 = 0 then do
    let dst ← (List.range (n / 4)).foldlM (groupStep group) dst
    (List.range' (n / 4 * 4) (n - n / 4 * 4)).foldlM (pixelStep pixel) dst
  else (List.range' 0 n).foldlM (pixelStep pixel) dst

/-- How many pixels of a slice fit behind an offset. -/
def nPx (h : Hub75) (offset bytesPerPixel : ℕ) (src : Slice) : ℕ :=
  min (src.bytes.length / bytesPerPixel) (h.limit - offset)

/-- A pixel write, with the count it returns. -/
def drawPixels (h : Hub75) (offset bytesPerPixel : ℕ) (src : Slice)
    (group : ℕ → Except Fault (List Word)) (pixel : ℕ → Except Fault Word) :
    Except Fault (ℕ × Hub75) := do
  if h.limit ≤ offset then return (0, h)
  let n := nPx h offset bytesPerPixel src
  if n = 0 then return (0, h)
  if FB_HALF_WORDS < offset + n then throw (.panic .sliceOutOfBounds)
  let dst ← pixelLoop src group pixel n ((List.range' offset n).map h.hub75Data)
  return (n, h.store offset dst)

/-- `write_img_indexed` -/
def drawIndexed (h : Hub75) (offset : ℕ) (src : Slice) : Except Fault (ℕ × Hub75) :=
  drawPixels h offset 1 src (indexedReads src) (indexedPixel src)

/-- `write_img_rgb888` -/
def drawRgb888 (h : Hub75) (offset : ℕ) (src : Slice) : Except Fault (ℕ × Hub75) :=
  drawPixels h offset 3 src (rgbReads src) (rgbPixel src)

section Loops

variable {src : Slice} {group : ℕ → Except Fault (List Word)} {pixel : ℕ → Except Fault Word}
  {f : ℕ → Word} {dst : List Word} {n : ℕ}

lemma setPixels_append (front olds ws rest : List Word) (hlen : olds.length = ws.length) :
    setPixels (front ++ (olds ++ rest)) front.length ws = .ok (front ++ (ws ++ rest)) := by
  induction ws generalizing front olds with
  | nil =>
    rw [List.length_nil, List.length_eq_zero_iff] at hlen
    rw [hlen]
    rfl
  | cons w ws ih =>
    obtain ⟨old, olds, rfl⟩ := List.exists_cons_of_length_eq_add_one hlen
    have hset : setPixel (front ++ (old :: olds ++ rest)) front.length w =
        .ok (front ++ [w] ++ (olds ++ rest)) := by
      rw [setPixel, if_pos (by simp), List.set_append_right _ _ (le_refl _)]
      simp
    have hnext := ih (front ++ [w]) olds (by simpa using hlen)
    rw [List.length_append, List.length_singleton] at hnext
    rw [setPixels, hset]
    refine hnext.trans ?_
    simp

/-- What the loops have done after their first `k` pixels. -/
def done (f : ℕ → Word) (dst : List Word) (k : ℕ) : List Word :=
  (List.range k).map f ++ dst.drop k

lemma setPixels_done {k m : ℕ} (hk : k + m ≤ dst.length) :
    setPixels (done f dst k) k ((List.range' k m).map f) = .ok (done f dst (k + m)) := by
  have hold : dst.drop k = (dst.drop k).take m ++ dst.drop (k + m) := by
    rw [← List.drop_drop, List.take_append_drop]
  have hset := setPixels_append ((List.range k).map f) ((dst.drop k).take m)
    ((List.range' k m).map f) (dst.drop (k + m)) (by simp; omega)
  rw [List.length_map, List.length_range] at hset
  have hrange : List.range (k + m) = List.range k ++ List.range' k m := by
    rw [List.range_eq_range', List.range_eq_range', ← List.range'_append_1, Nat.zero_add]
  rw [done, hold, hset, done, hrange, List.map_append, List.append_assoc]

lemma groupStep_done (hgroup : ∀ g < n / 4, group g = .ok ((List.range' (g * 4) 4).map f))
    (hdst : dst.length = n) {g : ℕ} (hg : g < n / 4) :
    groupStep group (done f dst (g * 4)) g = .ok (done f dst ((g + 1) * 4)) := by
  rw [groupStep, hgroup g hg, Nat.add_mul, Nat.one_mul]
  exact setPixels_done (by omega)

lemma pixelStep_done (hpixel : ∀ i < n, pixel i = .ok (f i)) (hdst : dst.length = n) {i : ℕ}
    (hi : i < n) : pixelStep pixel (done f dst i) i = .ok (done f dst (i + 1)) := by
  have hone : setPixels (done f dst i) i ((List.range' i 1).map f) = .ok (done f dst (i + 1)) :=
    setPixels_done (by omega)
  rw [List.range'_one, List.map_singleton] at hone
  have hset : setPixels (done f dst i) i [f i] = setPixel (done f dst i) i (f i) := by
    rw [setPixels]
    cases setPixel (done f dst i) i (f i) <;> rfl
  rw [pixelStep, hpixel i hi, ← hone, hset]
  rfl

lemma groups_done (hgroup : ∀ g < n / 4, group g = .ok ((List.range' (g * 4) 4).map f))
    (hdst : dst.length = n) {k : ℕ} (hk : k ≤ n / 4) :
    (List.range k).foldlM (groupStep group) dst = .ok (done f dst (k * 4)) := by
  induction k with
  | zero => rfl
  | succ k ih =>
    rw [List.range_succ, List.foldlM_append, ih (by omega), ← groupStep_done hgroup hdst hk]
    exact bind_pure (groupStep group (done f dst (k * 4)) k)

lemma pixels_done (hpixel : ∀ i < n, pixel i = .ok (f i)) (hdst : dst.length = n) {k m : ℕ}
    (hkm : k + m ≤ n) :
    (List.range' k m).foldlM (pixelStep pixel) (done f dst k) = .ok (done f dst (k + m)) := by
  induction m generalizing k with
  | zero => rfl
  | succ m ih =>
    have hsum : k + (m + 1) = k + 1 + m := by omega
    rw [List.range'_succ, List.foldlM_cons, pixelStep_done hpixel hdst (by omega), hsum]
    exact ih (by omega)

/-- Both paths leave the pixels in order, whatever the address. -/
theorem pixelLoop_eq (hgroup : ∀ g < n / 4, group g = .ok ((List.range' (g * 4) 4).map f))
    (hpixel : ∀ i < n, pixel i = .ok (f i)) (hdst : dst.length = n) :
    pixelLoop src group pixel n dst = .ok ((List.range n).map f) := by
  have hall : done f dst n = (List.range n).map f := by
    rw [done, List.drop_eq_nil_of_le hdst.le, List.append_nil]
  rw [pixelLoop, ← hall]
  split
  · have hrest := pixels_done hpixel hdst (k := n / 4 * 4) (m := n - n / 4 * 4) (by omega)
    have hsum : n / 4 * 4 + (n - n / 4 * 4) = n := by omega
    rw [hsum] at hrest
    rw [groups_done hgroup hdst (le_refl _), ← hrest]
    rfl
  · have hwhole := pixels_done hpixel hdst (k := 0) (m := n) (by omega)
    rw [Nat.zero_add] at hwhole
    exact hwhole

end Loops

section Reads

variable {src : Slice} {n : ℕ}

lemma indexedReads_ok (hn : n ≤ src.bytes.length) (g : ℕ) (hg : g < n / 4) :
    indexedReads src g = .ok ((List.range' (g * 4) 4).map (Hub75.indexedByte src.bytes)) := by
  rw [indexedReads, readWord, if_pos (by omega), ← Hub75.indexedGroup_eq]
  rfl

lemma indexedPixel_ok (hn : n ≤ src.bytes.length) (i : ℕ) (hi : i < n) :
    indexedPixel src i = .ok (Hub75.indexedByte src.bytes i) := by
  rw [indexedPixel, readByte, if_pos (by omega)]
  rfl

lemma rgbReads_ok (hn : n * 3 ≤ src.bytes.length) (g : ℕ) (hg : g < n / 4) :
    rgbReads src g = .ok ((List.range' (g * 4) 4).map (Hub75.rgbTriple src.bytes)) := by
  rw [rgbReads, readWord, readWord, readWord, if_pos (by omega), if_pos (by omega),
    if_pos (by omega), ← Hub75.rgbGroup_eq]
  rfl

lemma rgbPixel_ok (hn : n * 3 ≤ src.bytes.length) (i : ℕ) (hi : i < n) :
    rgbPixel src i = .ok (Hub75.rgbTriple src.bytes i) := by
  rw [rgbPixel, readByte, readByte, readByte, if_pos (by omega), if_pos (by omega),
    if_pos (by omega)]
  rfl

end Reads

lemma store_nil (h : Hub75) (offset : ℕ) : h.store offset [] = h := by
  have hdata : (fun p => if offset ≤ p ∧ p < offset + 0 then ([] : List Word).getD (p - offset) 0
      else h.hub75Data p) = h.hub75Data := by
    funext p
    exact if_neg (by omega)
  simp only [Hub75.store, List.length_nil, hdata, List.mapIdx_nil, List.append_nil]

lemma nPx_bytes_le (h : Hub75) (offset bytesPerPixel : ℕ) (src : Slice) :
    nPx h offset bytesPerPixel src * bytesPerPixel ≤ src.bytes.length :=
  (Nat.mul_le_mul_right _ (min_le_left _ _)).trans (Nat.div_mul_le_self _ _)

lemma store_none {h : Hub75} {offset bytesPerPixel : ℕ} {src : Slice} (f : ℕ → Word)
    (hzero : nPx h offset bytesPerPixel src = 0) :
    h.store offset ((List.range (nPx h offset bytesPerPixel src)).map f) = h := by
  rw [hzero, List.range_zero, List.map_nil, store_nil]

lemma drawPixels_eq (h : Hub75) (offset : ℕ) {bytesPerPixel : ℕ} {src : Slice}
    {group : ℕ → Except Fault (List Word)} {pixel : ℕ → Except Fault Word} {f : ℕ → Word}
    (hgroup : ∀ n, n * bytesPerPixel ≤ src.bytes.length →
      ∀ g < n / 4, group g = .ok ((List.range' (g * 4) 4).map f))
    (hpixel : ∀ n, n * bytesPerPixel ≤ src.bytes.length → ∀ i < n, pixel i = .ok (f i)) :
    drawPixels h offset bytesPerPixel src group pixel =
      .ok (nPx h offset bytesPerPixel src,
        h.store offset ((List.range (nPx h offset bytesPerPixel src)).map f)) := by
  have hempty (hzero : nPx h offset bytesPerPixel src = 0) :
      (.ok (0, h) : Except Fault (ℕ × Hub75)) = .ok (nPx h offset bytesPerPixel src,
        h.store offset ((List.range (nPx h offset bytesPerPixel src)).map f)) := by
    rw [store_none f hzero, hzero]
  have hlimit : h.limit ≤ FB_HALF_WORDS := min_le_right _ _
  rw [drawPixels]
  split
  · next hout => exact hempty (by rw [nPx, Nat.sub_eq_zero_of_le hout, Nat.min_zero])
  · next hin =>
    have hle : nPx h offset bytesPerPixel src ≤ h.limit - offset := min_le_right _ _
    have hsrc := nPx_bytes_le h offset bytesPerPixel src
    dsimp only
    split
    · next hzero => exact hempty hzero
    · have hloop : pixelLoop src group pixel (nPx h offset bytesPerPixel src)
          ((List.range' offset (nPx h offset bytesPerPixel src)).map h.hub75Data) =
          .ok ((List.range (nPx h offset bytesPerPixel src)).map f) :=
        pixelLoop_eq (hgroup _ hsrc) (hpixel _ hsrc) (by simp)
      rw [if_neg (by omega)]
      simp only [hloop]
      rfl

lemma drawIndexed_eq (h : Hub75) (offset : ℕ) (src : Slice) : drawIndexed h offset src =
    .ok (nPx h offset 1 src,
      h.store offset ((List.range (nPx h offset 1 src)).map (Hub75.indexedByte src.bytes))) :=
  drawPixels_eq h offset (fun n hn => indexedReads_ok (hn.trans' (Nat.mul_one n).ge))
    fun n hn => indexedPixel_ok (hn.trans' (Nat.mul_one n).ge)

lemma drawRgb888_eq (h : Hub75) (offset : ℕ) (src : Slice) : drawRgb888 h offset src =
    .ok (nPx h offset 3 src,
      h.store offset ((List.range (nPx h offset 3 src)).map (Hub75.rgbTriple src.bytes))) :=
  drawPixels_eq h offset (fun _ hn => rgbReads_ok hn) fun _ hn => rgbPixel_ok hn

lemma writePixels_eq (h : Hub75) (offset : ℕ) {bytesPerPixel : ℕ} {src : Slice}
    {words : ℕ → List Word} {f : ℕ → Word} (hwords : ∀ n, words n = (List.range n).map f) :
    h.writePixels offset bytesPerPixel src words =
      .ok (h.store offset ((List.range (nPx h offset bytesPerPixel src)).map f)) := by
  have hempty (hzero : nPx h offset bytesPerPixel src = 0) : (.ok h : Except Panic Hub75) =
      .ok (h.store offset ((List.range (nPx h offset bytesPerPixel src)).map f)) := by
    rw [store_none f hzero]
  have hlimit : h.limit ≤ FB_HALF_WORDS := min_le_right _ _
  rw [Hub75.writePixels]
  split
  · next hout => exact hempty (by rw [nPx, Nat.sub_eq_zero_of_le hout, Nat.min_zero])
  · next hin =>
    have hle : nPx h offset bytesPerPixel src ≤ h.limit - offset := min_le_right _ _
    have hsrc := nPx_bytes_le h offset bytesPerPixel src
    dsimp only
    split
    · next hzero => exact hempty hzero
    · change (checkSlice offset (offset + nPx h offset bytesPerPixel src) FB_HALF_WORDS >>= fun _ =>
        checkSlice 0 (nPx h offset bytesPerPixel src * bytesPerPixel) src.bytes.length >>= fun _ =>
          pure (h.store offset (words (nPx h offset bytesPerPixel src)))) = _
      rw [checkSlice, checkSlice, if_pos (by omega), if_pos (by omega), hwords]
      rfl

/-- The writes of the driver are these loops, with their reads and counts left out. -/
theorem draws_refine (h : Hub75) (offset : ℕ) (src : Slice) :
    (∃ n h', drawIndexed h offset src = .ok (n, h') ∧ h.writeImgIndexed offset src = .ok h') ∧
    ∃ n h', drawRgb888 h offset src = .ok (n, h') ∧ h.writeImgRgb888 offset src = .ok h' := by
  constructor
  · exact ⟨_, _, drawIndexed_eq h offset src, writePixels_eq h offset (Hub75.indexedWords_eq src)⟩
  · exact ⟨_, _, drawRgb888_eq h offset src, writePixels_eq h offset (Hub75.rgbWords_eq src)⟩

/-- Both writes, word-wide or not, return the count of the pixels that fit and store those pixels,
and no word they read leaves the slice. -/
theorem draws_agree (h : Hub75) (offset : ℕ) (src : Slice) :
    drawIndexed h offset src = .ok (min src.bytes.length (h.limit - offset),
      h.store offset ((List.range (min src.bytes.length (h.limit - offset))).map
        (Hub75.indexedByte src.bytes))) ∧
    drawRgb888 h offset src = .ok (min (src.bytes.length / 3) (h.limit - offset),
      h.store offset ((List.range (min (src.bytes.length / 3) (h.limit - offset))).map
        (Hub75.rgbTriple src.bytes))) := by
  constructor
  · have hdraw := drawIndexed_eq h offset src
    rwa [nPx, Nat.div_one] at hdraw
  · exact drawRgb888_eq h offset src

end Ledwall.Receiver
