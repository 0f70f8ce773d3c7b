import Ledwall.Receiver.Hub75Driver

/-! The test screen: one grid and one version banner for each panel of the wall, and the standard
palette of the programs. -/

namespace Ledwall.Layout

open Ledwall.Wire Ledwall.Receiver

def rgb (r g b : ℕ) : Word := Hub75.rgbWord (.ofNat 8 r) (.ofNat 8 g) (.ofNat 8 b)

/-- One pixel of the grid for a `w` by `h` drawing. -/
def gridPx (col row w h : ℕ) : Word :=
  let isHLine := row = 0 ∨ row = h / 4 ∨ row = h / 2 ∨ row = 3 * h / 4 ∨ row = h - 1
  if col = row * w / h then rgb 0 255 255
  else if col = w - 1 - row * w / h then rgb 255 0 255
  else if col = 0 then rgb 255 0 0
  else if col = w / 4 then rgb 0 255 0
  else if col = w / 2 then rgb 0 0 255
  else if col = 3 * w / 4 then rgb 255 255 0
  else if col = w - 1 then rgb 255 0 255
  else if isHLine then rgb 255 255 255
  else rgb 0 0 0

def gridTiled (width height tileW tileH : ℕ) : List Word :=
  let tw := max tileW 1
  let th := max tileH 1
  (List.range height).flatMap fun row =>
    (List.range width).map fun col => gridPx (col % tw) (row % th) tw th

def FONT_5X7 : List (List ℕ × Char) :=
  [([0b01110, 0b10001, 0b10011, 0b10101, 0b11001, 0b10001, 0b01110], '0'),
   ([0b00100, 0b01100, 0b00100, 0b00100, 0b00100, 0b00100, 0b01110], '1'),
   ([0b01110, 0b10001, 0b00001, 0b00010, 0b00100, 0b01000, 0b11111], '2'),
   ([0b11111, 0b00010, 0b00100, 0b00010, 0b00001, 0b10001, 0b01110], '3'),
   ([0b00010, 0b00110, 0b01010, 0b10010, 0b11111, 0b00010, 0b00010], '4'),
   ([0b11111, 0b10000, 0b11110, 0b00001, 0b00001, 0b10001, 0b01110], '5'),
   ([0b00110, 0b01000, 0b10000, 0b11110, 0b10001, 0b10001, 0b01110], '6'),
   ([0b11111, 0b00001, 0b00010, 0b00100, 0b01000, 0b01000, 0b01000], '7'),
   ([0b01110, 0b10001, 0b10001, 0b01110, 0b10001, 0b10001, 0b01110], '8'),
   ([0b01110, 0b10001, 0b10001, 0b01111, 0b00001, 0b00010, 0b01100], '9'),
   ([0b00000, 0b00000, 0b00000, 0b00000, 0b00000, 0b01100, 0b01100], '.'),
   ([0b00000, 0b00000, 0b10001, 0b10001, 0b10001, 0b01010, 0b00100], 'v')]

def VERSION_TEXT : List Char := "v3.9.0".toList
def VERSION_TEXT_HEIGHT : ℕ := 7

def versionTextWidth : ℕ := VERSION_TEXT.length * 6 - 1

def versionGlyphPixel (dx dy : ℕ) : Bool :=
  if VERSION_TEXT_HEIGHT ≤ dy ∨ 5 ≤ dx % 6 then false
  else
    match VERSION_TEXT[dx / 6]? with
    | none => false
    | some ch =>
      match FONT_5X7.find? fun g => g.2 == ch with
      | none => false
      | some g => (g.1.getD dy 0).testBit (4 - dx % 6)

def RAMP_WHITE : ℕ := 16
def RAMP_BRASS : ℕ := 32
def RAMP_SLATE : ℕ := 48
def RAINBOW : ℕ := 64
def RAINBOW_LEN : ℕ := 128
def RAMP_WATER : ℕ := 192

/-- Entry `i` of a ramp from black to `fg` that starts at `base`. -/
def rampEntry (base : ℕ) (fg : ℕ × ℕ × ℕ) (i : ℕ) : Word :=
  rgb (fg.1 * (i - base) / 15) (fg.2.1 * (i - base) / 15) (fg.2.2 * (i - base) / 15)

/-- Entry `t` of six linear segments round the hue circle. -/
def rainbowEntry (t : ℕ) : Word :=
  let f := t * 6 % RAINBOW_LEN * 255 / RAINBOW_LEN
  match t * 6 / RAINBOW_LEN with
  | 0 => rgb 255 f 0
  | 1 => rgb (255 - f) 255 0
  | 2 => rgb 0 255 f
  | 3 => rgb 0 (255 - f) 255
  | 4 => rgb f 0 255
  | _ => rgb 255 0 (255 - f)

def paletteDefault (i : ℕ) : Word :=
  if i = 0 then rgb 0 0 0
  else if i = 1 then rgb 95 127 176
  else if i = 2 then rgb 201 168 76
  else if i = 3 then rgb 220 40 40
  else if RAMP_WATER ≤ i ∧ i < RAMP_WATER + 16 then rampEntry RAMP_WATER (74, 159, 208) i
  else if RAMP_SLATE ≤ i ∧ i < RAMP_SLATE + 16 then rampEntry RAMP_SLATE (95, 127, 176) i
  else if RAMP_BRASS ≤ i ∧ i < RAMP_BRASS + 16 then rampEntry RAMP_BRASS (201, 168, 76) i
  else if RAMP_WHITE ≤ i ∧ i < RAMP_WHITE + 16 then rampEntry RAMP_WHITE (255, 255, 255) i
  else if RAINBOW ≤ i ∧ i < RAINBOW + RAINBOW_LEN then rainbowEntry (i - RAINBOW)
  else rgb 0 0 0

end Ledwall.Layout

namespace Ledwall.Receiver.Hub75

open Ledwall.Layout

def writeImgData (h : Hub75) (offset : ℕ) (data : List Word) : Hub75 :=
  if h.limit ≤ offset then h else h.store offset (data.take (h.limit - offset))

/-- The words of one banner with their places, in the order they are written. -/
def versionBanner (width x0 y0 tileW : ℕ) : List (ℕ × Word) :=
  let boxW := max (min (versionTextWidth + 2) (tileW - 2)) 1
  let boxX := max ((tileW - boxW) / 2) 1
  (List.range (VERSION_TEXT_HEIGHT + 2)).flatMap fun r =>
    (List.range boxW).map fun c =>
      (((y0 + 2 + r) * width + x0 + boxX + c) % 2 ^ 32,
        if 1 ≤ r ∧ 1 ≤ c ∧ versionGlyphPixel (c - 1) (r - 1) then 0x00FFFFFF else 0)

def drawVersionBannerIn (h : Hub75) (width x0 y0 tileW : ℕ) : Hub75 :=
  if width = 0 ∨ tileW = 0 then h
  else
    ((versionBanner width x0 y0 tileW).takeWhile fun p => p.1 < h.limit).foldl
      (fun h p => h.store p.1 [p.2]) h

def drawVersionBanners (h : Hub75) (width height tileW tileH : ℕ) : Hub75 :=
  if width = 0 ∨ height = 0 ∨ tileW = 0 ∨ tileH = 0 then h
  else
    (List.range ((height + tileH - 1) / tileH)).foldl
      (fun h y => (List.range ((width + tileW - 1) / tileW)).foldl
        (fun h x => h.drawVersionBannerIn width (x * tileW) (y * tileH) tileW) h) h

def setPaletteAll (h : Hub75) (offset : ℕ) (f : ℕ → Word) : Except Panic Hub75 := do
  let (n, h) ← h.stash offset ((List.range 256).map f)
  (List.range h.paletteBanks).foldlM (fun h bank => do
    let h ← h.writeBank bank offset n
    return { h with bankGen := fun b => if b = bank % 2 then h.paletteGen else h.bankGen b }) h

/-- The same image size and the same settings of the pixel DMA. -/
structure SameImage (h h' : Hub75) : Prop where
  width : h'.ctrlWidth = h.ctrlWidth
  length : h'.length = h.length
  limit : h'.dmaLimit = h.dmaLimit
  enable : h'.dmaEnable = h.dmaEnable

variable {h h' k : Hub75}

namespace SameImage

theorem refl (h : Hub75) : SameImage h h := ⟨rfl, rfl, rfl, rfl⟩

theorem trans (h₁ : SameImage h k) (h₂ : SameImage k h') : SameImage h h' :=
  ⟨h₂.width.trans h₁.width, h₂.length.trans h₁.length, h₂.limit.trans h₁.limit,
    h₂.enable.trans h₁.enable⟩

theorem foldl {α : Type*} {f : Hub75 → α → Hub75} (hf : ∀ h a, SameImage h (f h a)) (as : List α)
    (h : Hub75) : SameImage h (as.foldl f h) := by
  induction as generalizing h with
  | nil => exact refl h
  | cons a as ih => exact (hf h a).trans (ih (f h a))

end SameImage

theorem writeImgData_same (h : Hub75) (offset : ℕ) (data : List Word) :
    SameImage h (h.writeImgData offset data) := by
  rw [writeImgData]
  split
  · exact .refl h
  · exact ⟨rfl, rfl, rfl, rfl⟩

theorem drawVersionBannerIn_same (h : Hub75) (width x0 y0 tileW : ℕ) :
    SameImage h (h.drawVersionBannerIn width x0 y0 tileW) := by
  rw [drawVersionBannerIn]
  split
  · exact .refl h
  · apply SameImage.foldl
    intro h p
    exact ⟨rfl, rfl, rfl, rfl⟩

theorem drawVersionBanners_same (h : Hub75) (width height tileW tileH : ℕ) :
    SameImage h (h.drawVersionBanners width height tileW tileH) := by
  rw [drawVersionBanners]
  split
  · exact .refl h
  · apply SameImage.foldl
    intro h y
    apply SameImage.foldl
    intro h x
    exact drawVersionBannerIn_same h _ _ _ _

theorem setPaletteBank_same (h : Hub75) (bank offset : ℕ) (data : List Word) :
    ∃ h', h.setPaletteBank bank offset data = .ok h' ∧ SameImage h h' := by
  rw [setPaletteBank]
  dsimp only
  split
  · exact ⟨h, rfl, .refl h⟩
  · next hbase =>
    rw [checkSlice, if_pos]
    · exact ⟨_, rfl, ⟨rfl, rfl, rfl, rfl⟩⟩
    · have := List.length_take_le (256 * h.paletteBanks - (bank * 256 + offset)) data
      omega

theorem writeBank_same (h : Hub75) (bank n : ℕ) :
    ∃ h', h.writeBank bank 0 n = .ok h' ∧ SameImage h h' := by
  rw [writeBank, checkSlice, if_pos (by omega)]
  exact setPaletteBank_same h bank 0 _

theorem stash_same (h : Hub75) (f : ℕ → Word) :
    ∃ n h', h.stash 0 ((List.range 256).map f) = .ok (n, h') ∧ SameImage h h' := by
  rw [stash, checkSlice, if_pos (by simp)]
  refine ⟨_, _, rfl, ?_⟩
  split <;> exact ⟨rfl, rfl, rfl, rfl⟩

/-- Writing a whole palette never panics and leaves the image alone. -/
theorem setPaletteAll_same (h : Hub75) (f : ℕ → Word) :
    ∃ h', h.setPaletteAll 0 f = .ok h' ∧ SameImage h h' := by
  have hbanks (n : ℕ) (banks : List ℕ) (k : Hub75) (hk : SameImage h k) :
      ∃ h', banks.foldlM (fun h bank => do
        let h ← h.writeBank bank 0 n
        return { h with bankGen := fun b => if b = bank % 2 then h.paletteGen else h.bankGen b }) k
          = (.ok h' : Except Panic Hub75) ∧ SameImage h h' := by
    induction banks generalizing k with
    | nil => exact ⟨k, rfl, hk⟩
    | cons bank banks ih =>
      obtain ⟨k', hk', hs⟩ := writeBank_same k bank n
      rw [List.foldlM_cons, hk']
      apply ih
      exact (hk.trans hs).trans ⟨rfl, rfl, rfl, rfl⟩
  obtain ⟨n, k, hstash, hs⟩ := stash_same h f
  rw [setPaletteAll, hstash]
  exact hbanks n _ k hs

end Ledwall.Receiver.Hub75
