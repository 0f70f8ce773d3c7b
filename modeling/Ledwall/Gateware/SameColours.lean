import Ledwall.Gateware.Agreement
import Ledwall.Receiver.ShownColours

/-! An image sent with a palette and the same image sent as RGB: the words the scan-out fetches. -/

namespace Ledwall.Gateware

open Ledwall.Library.Chunking Ledwall.Receiver Ledwall.Receiver.BitmapReceiver Ledwall.Wire Watched

/-- `program::rgb`, which every colour of an on-panel program goes through. -/
def Program.rgb (r g b : Byte) : Word :=
  b.setWidth 32 <<< 16 ||| g.setWidth 32 <<< 8 ||| r.setWidth 32

section Words

lemma setWidth_packed (a b c : Byte) :
    (a.setWidth 32 <<< 16 ||| b.setWidth 32 <<< 8 ||| c.setWidth 32).setWidth 24 = a ++ b ++ c := by
  have h : (a ++ b ++ c).setWidth 32 =
      a.setWidth 32 <<< (8 + 8) ||| b.setWidth 32 <<< 8 ||| c.setWidth 32 :=
    BitVec.setWidth_append_append_eq_shiftLeft_setWidth_or
  rw [show a.setWidth 32 <<< 16 ||| b.setWidth 32 <<< 8 ||| c.setWidth 32 = _ from h.symm,
    BitVec.setWidth_setWidth_of_le _ (by decide), BitVec.setWidth_eq]

lemma append_eq_iff {v w : ℕ} {a a' : BitVec v} {b b' : BitVec w} :
    a ++ b = a' ++ b' ↔ a = a' ∧ b = b' := by
  constructor
  · intro h
    have ha := congrArg (fun x : BitVec (v + w) => x.extractLsb' w v) h
    have hb := congrArg (fun x : BitVec (v + w) => x.extractLsb' 0 w) h
    simp only [BitVec.extractLsb'_append_eq_left] at ha
    simp only [BitVec.extractLsb'_append_eq_right] at hb
    exact ⟨ha, hb⟩
  · rintro ⟨rfl, rfl⟩
    rfl

/-- A palette entry without a hue. -/
def Grey (palette : List Byte) (i : Byte) : Prop :=
  palette.getD (i.toNat * 3) 0 = palette.getD (i.toNat * 3 + 1) 0 ∧
    palette.getD (i.toNat * 3 + 1) 0 = palette.getD (i.toNat * 3 + 2) 0

lemma paletteTriple_eq_rgb_iff (palette : List Byte) (i : Byte) :
    (paletteTriple palette i.toNat).setWidth 24 =
      (Program.rgb (palette.getD (i.toNat * 3) 0) (palette.getD (i.toNat * 3 + 1) 0)
        (palette.getD (i.toNat * 3 + 2) 0)).setWidth 24 ↔ Grey palette i := by
  rw [paletteTriple, Program.rgb, setWidth_packed, setWidth_packed, append_eq_iff, append_eq_iff,
    Grey]
  constructor
  · rintro ⟨⟨hgb, hrg⟩, -⟩
    exact ⟨hrg, hgb⟩
  · rintro ⟨hrg, hgb⟩
    exact ⟨⟨hgb, hrg⟩, hgb.symm.trans hrg.symm⟩

/-- The image expanded through the palette. -/
def expand (palette indices : List Byte) : List Byte :=
  indices.flatMap fun i =>
    [palette.getD (i.toNat * 3) 0, palette.getD (i.toNat * 3 + 1) 0, palette.getD (i.toNat * 3 + 2) 0]

lemma expand_length (palette indices : List Byte) :
    (expand palette indices).length = indices.length * 3 := by
  induction indices with
  | nil => rfl
  | cons i is ih =>
    rw [expand, List.flatMap_cons, List.length_append, ← expand, ih, List.length_cons]
    simp only [List.length_cons, List.length_nil]
    omega

lemma rgbTriple_expand (palette : List Byte) {indices : List Byte} {p : ℕ} (hp : p < indices.length) :
    Hub75.rgbTriple (expand palette indices) p =
      Program.rgb (palette.getD ((indices.getD p 0).toNat * 3) 0)
        (palette.getD ((indices.getD p 0).toNat * 3 + 1) 0)
        (palette.getD ((indices.getD p 0).toNat * 3 + 2) 0) := by
  induction indices generalizing p with
  | nil => cases hp
  | cons i is ih =>
    cases p with
    | zero => rfl
    | succ p =>
      have hstep (c : ℕ) : (expand palette (i :: is)).getD ((p + 1) * 3 + c) 0 =
          (expand palette is).getD (p * 3 + c) 0 := by
        have he : (p + 1) * 3 + c = p * 3 + c + 3 := by omega
        rw [he]
        rfl
      have h₀ := hstep 0
      simp only [Nat.add_zero] at h₀
      have hrec := ih (Nat.lt_of_succ_lt_succ hp)
      simp only [Hub75.rgbTriple] at hrec ⊢
      rw [h₀, hstep, hstep]
      exact hrec

end Words

section Dma

variable {width height : ℕ} {f : Wire.Frame} {i p : ℕ} {js is : List Inputs} {limit : BitVec 24}
  {word : Word}

lemma mem_dmaDraws_datagram (hs : Suits width height f) (ht : Receiver.Takes f) (hi : i < f.total)
    (hidle : (after {} js).path.dma.fsm = .idle) (hl : limit.toNat = width * height)
    (htk : Watched.Takes limit (after {} js) (beats (f.datagram i)) is)
    (hx : ((p : ℤ), word) ∈ dmaDraws (after {} js) is) : p < f.pixels ∧ word = pixelOf f p := by
  set h := blank (BitVec.ofNat 16 width) (BitVec.ofNat 16 height)
  have hw : (BitVec.ofNat 16 width).toNat = width := by
    rw [BitVec.toNat_ofNat, Nat.mod_eq_of_lt (hs.width ▸ hs.sendable.width_lt)]
  have hh : (BitVec.ofNat 16 height).toNat = height := by
    rw [BitVec.toNat_ofNat, Nat.mod_eq_of_lt (hs.height ▸ hs.sendable.height_lt)]
  have hready := ready_blank (BitVec.ofNat 16 width) (BitVec.ofNat 16 height)
  rw [hw, hh] at hready
  have hconf := hready.tracks.configured
  have ha := (hs.accepts_iff hi hconf).mpr ht
  have himg : h.imgLen = f.pixels := hs.imgLen ht hconf
  have hpay := payload_length hs.sendable i
  have hlen : (f.datagram i).length < 65536 := by
    rw [datagram_length, hpay]
    have hmin := min_le_left f.format.pixelsPerChunk (f.pixels - i * f.format.pixelsPerChunk)
    have hmul := Nat.mul_le_mul_right f.format.bytesPerPixel hmin
    have hmax : f.format.headerSize + f.format.pixelsPerChunk * f.format.bytesPerPixel < 65536 := by
      cases f.format <;> decide
    omega
  have hdraws := htk.draws_payload hidle
  have hbase := ((tracks_start.after js).after is).base_le
  rw [dmaDraws, Set.mem_ofPred_eq, show (after {} js).draws is = _ from hdraws] at hx
  obtain ⟨y, hy, he⟩ := (mem_draws_iff_of_accepts (pixelMagic_datagram f i) ha hlen hbase
    (hl.trans (hs.pixels.symm.trans himg.symm))).mpr hx
  obtain ⟨k, hk, rfl⟩ := mem_chunkCells.mp hy
  have hheader := headerOf_datagram hs.sendable hi
  have hdrop : (f.datagram i).drop (headerOf (f.datagram i) f.format.isWide).hdrLen =
      piece f.format.bytesPerChunk i f.picture.body := by
    rw [headerOf_hdrLen, headerLen_format, payload_datagram]
  rw [hdrop, hpay, pixelBytes_format, Nat.mul_div_cancel _ f.format.bytesPerPixel_pos] at hk
  have hindex : (headerOf (f.datagram i) f.format.isWide).chunkIndex = i := by rw [hheader]
  rw [hdrop, hindex, strideOf_format, pixelWord_piece f i (by omega)] at he
  obtain ⟨hp, hword⟩ := Prod.mk.inj he
  have hp : p = i * f.format.pixelsPerChunk + k := Nat.cast_inj.mp hp
  subst hp
  exact ⟨by omega, hword⟩

end Dma

/-- `words` is what the DMA wrote at the pixels of an image, taking each datagram of its send call
without a stall, whatever it did before. -/
structure DmaWrote (picture : Picture) (width height : ℕ) (words : ℕ → Word) : Prop where
  wrote : ∃ s : CardStream, ∀ p < width * height,
    ∃ d ∈ (s.send picture width height).datagrams, ∃ (js is : List Inputs) (limit : BitVec 24),
      (after {} js).path.dma.fsm = .idle ∧ limit.toNat = width * height ∧
      Watched.Takes limit (after {} js) (beats d) is ∧
      ((p : ℤ), words p) ∈ dmaDraws (after {} js) is

lemma DmaWrote.word {picture : Picture} {width height : ℕ} {words : ℕ → Word}
    (hw : DmaWrote picture width height words) (himage : width * height ≤ MAX_IMG_PIXELS)
    (htotal : ∀ s : CardStream, (s.nextFrame picture width height).total ≤ MAX_CHUNKS) {p : ℕ}
    (hp : p < width * height) : words p = pixelWord picture.format.isIndexed picture.body p := by
  obtain ⟨s, hs⟩ := hw.wrote
  obtain ⟨d, hd, js, is, limit, hidle, hl, ht, hx⟩ := hs p hp
  obtain ⟨hsend, i, hi, rfl⟩ := CardStream.mem_send hd
  have hsuits : Suits width height (s.nextFrame picture width height) := ⟨hsend, rfl, rfl⟩
  exact (mem_dmaDraws_datagram hsuits ⟨htotal s, hsuits.pixels.trans_le himage⟩ hi hidle hl ht hx).2

/-- A palette with an indexed image through it, and that image expanded, show the same words on
either path, and the words of the programs' `rgb`. -/
structure SameColours (palette indices : List Byte) (width height : ℕ) : Prop where
  cpu : ∀ h h', IndexedOnCpu palette indices width height h →
    RgbOnCpu (expand palette indices) width height h' →
    ∀ p < width * height, h.fetched p = h'.fetched p
  dma : ∀ h words words', AfterPalette palette h →
    DmaWrote (.indexed indices) width height words →
    DmaWrote (.rgb (expand palette indices)) width height words' →
    ∀ p < width * height, h.lookup (words p) = (words' p).setWidth 24
  program : ∀ h, IndexedOnCpu palette indices width height h → ∀ p < width * height,
    h.fetched p = (Program.rgb (palette.getD ((indices.getD p 0).toNat * 3) 0)
      (palette.getD ((indices.getD p 0).toNat * 3 + 1) 0)
      (palette.getD ((indices.getD p 0).toNat * 3 + 2) 0)).setWidth 24

section Colours

variable {palette indices : List Byte} {width height : ℕ}

lemma SameColours.of_grey (hp : palette.length = 768) (hi : indices.length = width * height)
    (hf : Fits width height) (hg : ∀ p < width * height, Grey palette (indices.getD p 0)) :
    SameColours palette indices width height := by
  have hbody : (expand palette indices).length = width * height * 3 := by
    rw [expand_length, hi]
  have hword {p : ℕ} (hlt : p < width * height) :=
    (paletteTriple_eq_rgb_iff palette (indices.getD p 0)).mpr (hg p hlt)
  have hexpand {p : ℕ} (hlt : p < width * height) := rgbTriple_expand palette (hlt.trans_eq hi.symm)
  constructor
  · intro h h' hidx hrgb p hlt
    rw [hidx.fetched hf hp hi hlt, hrgb.fetched hf hbody hlt, hexpand hlt]
    exact hword hlt
  · intro h words words' hpal hidx hrgb p hlt
    have hx : words p = (indices.getD p 0).setWidth 32 :=
      hidx.word hf.le_image (fun s => (hf.indexed_total hi s).le.trans (by decide)) hlt
    have hformat : (Picture.rgb (expand palette indices)).format.isIndexed = false := by
      simp only [Picture.format]
      split <;> rfl
    have hy := hrgb.word hf.le_image (hf.rgb_total hbody) hlt
    rw [hformat] at hy
    have hy : words' p = Hub75.rgbTriple (expand palette indices) p := hy
    have hlow : ((words p).setWidth 8).toNat = (indices.getD p 0).toNat := by
      rw [hx, BitVec.setWidth_setWidth_of_le _ (by decide), BitVec.setWidth_eq]
    rw [Hub75.lookup, hlow, hpal.onGlass hp _ (indices.getD p 0).isLt, hy, hexpand hlt]
    exact hword hlt
  · intro h hidx p hlt
    rw [hidx.fetched hf hp hi hlt]
    exact hword hlt

lemma SameColours.grey (hp : palette.length = 768) (hi : indices.length = width * height)
    (hf : Fits width height) (h : SameColours palette indices width height) {p : ℕ}
    (hlt : p < width * height) : Grey palette (indices.getD p 0) := by
  obtain ⟨g, hidx⟩ := exists_indexedOnCpu hf hp hi (Nat.zero_lt_of_lt hlt)
  rw [← paletteTriple_eq_rgb_iff, ← hidx.fetched hf hp hi hlt]
  exact h.program g hidx p hlt

/-- The two forms of an image show the same words exactly when every entry it uses is a grey. -/
theorem sameColours_iff (hp : palette.length = 768) (hi : indices.length = width * height)
    (hf : Fits width height) : SameColours palette indices width height ↔
      ∀ p < width * height, Grey palette (indices.getD p 0) :=
  ⟨fun h _ hlt => h.grey hp hi hf hlt, .of_grey hp hi hf⟩

end Colours

/-- A palette whose entries are all black but the first, which is red. -/
def redFirst : List Byte := 255 :: List.replicate 767 0

lemma redFirst_length : redFirst.length = 768 := by
  rw [redFirst, List.length_cons, List.length_replicate]

lemma fits_one : Fits 1 1 := ⟨by decide, by decide, by decide⟩

/-- The black entry shows black either way. -/
theorem sameColours_black : SameColours redFirst [1] 1 1 := by
  refine (sameColours_iff redFirst_length rfl fits_one).mpr fun p hp => ?_
  obtain rfl := Nat.lt_one_iff.mp hp
  exact ⟨rfl, rfl⟩

theorem not_sameColours_red : ¬ SameColours redFirst [0] 1 1 := by
  intro h
  have hgrey := h.grey redFirst_length rfl fits_one Nat.one_pos
  have hred : (255 : Byte) = 0 := hgrey.1
  exact absurd hred (by decide)

end Ledwall.Gateware
