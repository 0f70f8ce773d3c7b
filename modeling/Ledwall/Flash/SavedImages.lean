import Ledwall.Flash.StoredImage
import Mathlib.Data.List.GetD

/-! What saving the image leaves in the flash, and what loading makes of it. -/

namespace Ledwall.Flash

open Ledwall.Wire Ledwall.Receiver Ledwall.Layout

lemma address_of_lt {addr : ℕ} (h : addr < FLASH_SIZE) : Chip.address addr = addr := by
  rw [FLASH_SIZE] at h
  rw [Chip.address, FLASH_SIZE]
  omega

/-- The stored-image region in pages. -/
def IMG_PAGES : ℕ := 4096

section Pages

variable {k : ℕ} {page : List Byte}

lemma page_address (hk : k < IMG_PAGES) {i : ℕ} (hi : i < PAGE) :
    Chip.address (IMG_OFFSET + (k * PAGE + i)) = IMG_OFFSET + (k * PAGE + i) := by
  apply address_of_lt
  rw [IMG_PAGES] at hk
  rw [IMG_OFFSET, FLASH_SIZE, PAGE] at *
  omega

lemma program_base (hk : k < IMG_PAGES) :
    (FlashOp.programPage (IMG_OFFSET + k * PAGE) page).base = IMG_OFFSET + k * PAGE := by
  have haddr := page_address hk (i := 0) (by decide)
  rw [Nat.add_zero] at haddr
  rw [FlashOp.base, haddr, IMG_OFFSET, FLASH_SIZE, PAGE]
  omega

lemma erase_base (hk : k < IMG_PAGES) (hmod : k % 16 = 0) :
    (FlashOp.eraseSector (IMG_OFFSET + (k * PAGE + 255))).base = IMG_OFFSET + k * PAGE := by
  rw [FlashOp.base, page_address hk (by decide), IMG_OFFSET, FLASH_SIZE, PAGE, SECTOR]
  omega

lemma program_run (hk : k < IMG_PAGES) (hlen : page.length = PAGE) (mem : ℕ → Byte) (a : ℕ) :
    (FlashOp.programPage (IMG_OFFSET + k * PAGE) page).run mem a =
      if IMG_OFFSET + k * PAGE ≤ a ∧ a < IMG_OFFSET + k * PAGE + PAGE then
        mem a &&& page.getD (a - (IMG_OFFSET + k * PAGE)) 0xFF
      else mem a := by
  have hbase := @program_base k page hk
  have haddr := page_address hk (i := 0) (by decide)
  rw [Nat.add_zero] at haddr
  rw [FlashOp.base] at hbase
  rw [FlashOp.run, Chip.pageProgram, hbase, haddr, hlen]
  by_cases hin : IMG_OFFSET + k * PAGE ≤ a ∧ a < IMG_OFFSET + k * PAGE + PAGE
  · have hi : (a - (IMG_OFFSET + k * PAGE) + PAGE - (IMG_OFFSET + k * PAGE) % PAGE) % PAGE =
        a - (IMG_OFFSET + k * PAGE) := by
      rw [IMG_OFFSET, FLASH_SIZE, PAGE] at *
      omega
    rw [hi, if_pos hin, if_pos]
    omega
  · rw [if_neg hin, if_neg]
    intro h
    exact hin ⟨h.1, h.2.1⟩

lemma erase_run (hk : k < IMG_PAGES) (hmod : k % 16 = 0) (mem : ℕ → Byte) (a : ℕ) :
    (FlashOp.eraseSector (IMG_OFFSET + (k * PAGE + 255))).run mem a =
      if IMG_OFFSET + k * PAGE ≤ a ∧ a < IMG_OFFSET + k * PAGE + SECTOR then 0xFF else mem a := by
  have hbase := erase_base hk hmod
  rw [FlashOp.base] at hbase
  rw [FlashOp.run, Chip.sectorErase, hbase]

end Pages

lemma imagePage_length (data : List Byte) (k : ℕ) : (imagePage data k).length = PAGE := by
  rw [imagePage, List.length_append, List.length_take, List.length_drop, List.length_replicate]
  omega

lemma imagePage_getD (data : List Byte) (k : ℕ) {j : ℕ} (hj : j < PAGE) :
    (imagePage data k).getD j 0xFF = data.getD (k * PAGE + j) 0 := by
  by_cases hin : k * PAGE + j < data.length
  · rw [imagePage, List.getD_append _ _ _ _ (by simp; omega), List.getD_eq_getElem _ _ (by simp; omega),
      List.getD_eq_getElem _ _ hin]
    simp
  · rw [imagePage, List.getD_append_right _ _ _ _ (by simp; omega), List.getD_eq_default data _ (by omega)]
    apply List.getD_replicate
    rw [List.length_take, List.length_drop]
    omega

/-- What the first `n` pages of the data have sent. -/
def pagesOps (data : List Byte) (n : ℕ) : List FlashOp :=
  (List.range n).flatMap fun k => PageWriter.pageOps (k * PAGE + 255) (imagePage data k)

lemma pagesOps_succ (data : List Byte) (n : ℕ) : pagesOps data (n + 1) =
    pagesOps data n ++ ((if n % 16 = 0 then [.eraseSector (IMG_OFFSET + (n * PAGE + 255))] else []) ++
      [.programPage (IMG_OFFSET + n * PAGE) (imagePage data n)]) := by
  rw [pagesOps, List.range_succ, List.flatMap_append, ← pagesOps, List.flatMap_singleton,
    pageOps_page]

lemma runOps_append (ops ops' : List FlashOp) (mem : ℕ → Byte) :
    runOps (ops ++ ops') mem = runOps ops' (runOps ops mem) := by
  rw [runOps, List.foldl_append, ← runOps, ← runOps]

lemma first_page {n i : ℕ} (hmod : n % 16 = 0) : i < (n + 16) / 16 * SECTOR ↔ i < n * PAGE + SECTOR := by
  rw [PAGE, SECTOR]
  omega

lemma later_page {n : ℕ} (hmod : n % 16 ≠ 0) : (n + 16) / 16 = (n + 15) / 16 := by
  omega

lemma page_in_erased (n : ℕ) : n * PAGE + PAGE ≤ (n + 16) / 16 * SECTOR := by
  rw [PAGE, SECTOR]
  omega

/-- The pages sent hold the data, and the rest of the last sector begun is blank. -/
structure Written (data : List Byte) (n : ℕ) (mem : ℕ → Byte) : Prop where
  bytes : ∀ i, i < n * PAGE → mem (IMG_OFFSET + i) = data.getD i 0
  blank : ∀ i, n * PAGE ≤ i → i < (n + 15) / 16 * SECTOR → mem (IMG_OFFSET + i) = 0xFF

lemma written_pages (data : List Byte) (mem : ℕ → Byte) (n : ℕ) (hn : n ≤ IMG_PAGES) :
    Written data n (runOps (pagesOps data n) mem) := by
  induction n with
  | zero =>
    constructor
    · intro i hi
      omega
    · intro i _ hi
      omega
  | succ n ih =>
    have hw := ih (by omega)
    rw [pagesOps_succ, runOps_append, runOps_append]
    set mem₀ := runOps (pagesOps data n) mem
    -- with the sector's erase, where the page is the first of its sector
    have herased : ∀ i, (i < n * PAGE →
        runOps (if n % 16 = 0 then [.eraseSector (IMG_OFFSET + (n * PAGE + 255))] else []) mem₀
          (IMG_OFFSET + i) = data.getD i 0) ∧
        (n * PAGE ≤ i → i < (n + 16) / 16 * SECTOR →
          runOps (if n % 16 = 0 then [.eraseSector (IMG_OFFSET + (n * PAGE + 255))] else []) mem₀
            (IMG_OFFSET + i) = 0xFF) := by
      intro i
      split
      · next hmod =>
        rw [runOps, List.foldl_cons, List.foldl_nil, erase_run (by omega) hmod]
        constructor
        · intro hi
          rw [if_neg (by omega)]
          exact hw.bytes i hi
        · intro hlo hhi
          rw [first_page hmod] at hhi
          rw [if_pos (by omega)]
      · next hmod =>
        refine ⟨hw.bytes i, ?_⟩
        intro hlo hhi
        rw [later_page hmod] at hhi
        exact hw.blank i hlo hhi
    rw [runOps, List.foldl_cons, List.foldl_nil]
    have hrun := @program_run n (imagePage data n) (by omega) (imagePage_length data n)
    constructor
    · intro i hi
      rw [hrun]
      by_cases hold : i < n * PAGE
      · rw [if_neg (by omega)]
        exact (herased i).1 hold
      · have hin : i < n * PAGE + PAGE := by rwa [← Nat.succ_mul]
        rw [if_pos (by omega), (herased i).2 (by omega) (hin.trans_le (page_in_erased n)),
          imagePage_getD data n (by omega), show n * PAGE + (IMG_OFFSET + i -
            (IMG_OFFSET + n * PAGE)) = i by omega]
        exact BitVec.allOnes_and
    · intro i hlo hhi
      rw [Nat.succ_mul] at hlo
      rw [hrun, if_neg (by omega)]
      exact (herased i).2 (by omega) hhi

lemma readImage_length (mem : ℕ → Byte) : (readImage mem).length = FLASH_SIZE - IMG_OFFSET := by
  rw [readImage, List.length_map, List.length_range]

lemma prefix_readImage {data : List Byte} (hne : data ≠ []) (h : data.length < FLASH_SIZE - IMG_OFFSET)
    (mem : ℕ → Byte) : data <+: readImage (runOps (writeImage data) mem) := by
  have hpages : data.length / PAGE + 1 ≤ IMG_PAGES := by
    rw [IMG_OFFSET, FLASH_SIZE] at h
    rw [PAGE, IMG_PAGES]
    omega
  have hw := written_pages data mem _ hpages
  rw [writeImage_eq hne, ← pagesOps]
  rw [List.prefix_iff_eq_take]
  apply List.ext_getElem
  · rw [List.length_take, readImage_length]
    omega
  · intro i hi _
    rw [List.getElem_take]
    simp only [readImage, List.getElem_map, List.getElem_range]
    have hin : i < (data.length / PAGE + 1) * PAGE := by
      rw [PAGE]
      omega
    rw [hw.bytes i hin, List.getD_eq_getElem _ _ hi]

/-! ### The file -/

lemma chunksOfFour_words (words : List Word) (rest : List Byte) :
    (chunksOfFour (words.flatMap toLeBytes ++ rest)).map fromLeBytes =
      words.map some ++ (chunksOfFour rest).map fromLeBytes := by
  induction words with
  | nil => rfl
  | cons w words ih =>
    have hcut : (w :: words).flatMap toLeBytes ++ rest =
        w.setWidth 8 :: (w >>> 8).setWidth 8 :: (w >>> 16).setWidth 8 :: (w >>> 24).setWidth 8 ::
          (words.flatMap toLeBytes ++ rest) := rfl
    rw [hcut, chunksOfFour, List.map_cons, ih]
    have hw := fromLeBytes_toLeBytes w
    rw [toLeBytes] at hw
    rw [hw]
    rfl

lemma flatMap_toLeBytes_length (words : List Word) :
    (words.flatMap toLeBytes).length = 4 * words.length := by
  induction words with
  | nil => rfl
  | cons w words ih =>
    rw [List.flatMap_cons, List.length_append, ih, toLeBytes]
    simp
    omega

/-- What follows the four words that `load_image` passes over. -/
def headerTail (panelParams : List Word) : List Word :=
  (panelParams ++ List.replicate 64 0).take 60

variable {width : BitVec 16} {length : BitVec 32} {panelParams imgData : List Word}

lemma imageFile_eq (himg : imgData.length = length.toNat) :
    imageFile width length panelParams imgData =
      (width.setWidth 32 :: length :: 0xD1581A40#32 :: 0xDA5A0001#32 :: headerTail panelParams).flatMap
        toLeBytes ++ imgData.flatMap toLeBytes := by
  rw [imageFile, ← himg, List.take_length, List.flatMap_append]
  rfl

lemma headerTail_length (panelParams : List Word) : (headerTail panelParams).length = 60 := by
  rw [headerTail, List.length_take, List.length_append, List.length_replicate]
  omega

lemma imageFile_length (himg : imgData.length = length.toNat) :
    (imageFile width length panelParams imgData).length = 256 + 4 * length.toNat := by
  rw [imageFile_eq himg, List.length_append, flatMap_toLeBytes_length, flatMap_toLeBytes_length, himg]
  simp only [List.length_cons, headerTail_length]

lemma loadImage_header {data : List Byte} {start length : Word} {header : List (Option Word)}
    (h : ¬ data.length < 256)
    (hheader : (chunksOfFour (data.take 256)).map fromLeBytes = some start :: some length :: header) :
    loadImage data =
      if start.msb = true ∨ (start.setWidth 16 = 0#16 ∨ length = 0 ∨ MAX_IMG_PIXELS < length.toNat) ∨
          length.toNat < (start.setWidth 16).toNat then
        .error .refused
      else .ok ⟨start.setWidth 16, length, header.drop 2,
        ((chunksOfFour (data.drop 256)).map fromLeBytes).take length.toNat⟩ := by
  rw [loadImage, if_neg h, hheader]
  simp only [nextWord, bind, Except.bind, pure, Except.pure, throw, throwThe, MonadExceptOf.throw]
  simp only [ite_or]
  rfl

lemma loadImage_file (himg : imgData.length = length.toNat) (rest : List Byte) :
    loadImage (imageFile width length panelParams imgData ++ rest) =
      if (width = 0 ∨ length = 0 ∨ MAX_IMG_PIXELS < length.toNat) ∨ length.toNat < width.toNat then
        .error .refused
      else .ok ⟨width, length, (headerTail panelParams).map some, imgData.map some⟩ := by
  have hlen : ((width.setWidth 32 :: length :: 0xD1581A40#32 :: 0xDA5A0001#32 ::
      headerTail panelParams).flatMap toLeBytes).length = 256 := by
    rw [flatMap_toLeBytes_length]
    simp only [List.length_cons, headerTail_length]
  have hwhole : ¬ (imageFile width length panelParams imgData ++ rest).length < 256 := by
    rw [List.length_append, imageFile_length himg]
    omega
  have hmsb : (width.setWidth 32).msb = false := by
    rw [BitVec.msb_setWidth]
    simp
  have hwidth : (width.setWidth 32).setWidth 16 = width := by
    simp
  have hheader := chunksOfFour_words (width.setWidth 32 :: length :: 0xD1581A40#32 ::
    0xDA5A0001#32 :: headerTail panelParams) []
  rw [chunksOfFour, List.map_nil, List.append_nil, List.append_nil] at hheader
  have htake : (imgData.map some ++ (chunksOfFour rest).map fromLeBytes).take length.toNat =
      imgData.map some := List.take_left' (by rw [List.length_map, himg])
  have hfirst : (chunksOfFour ((imageFile width length panelParams imgData ++ rest).take 256)).map
      fromLeBytes = some (width.setWidth 32) :: some length :: some 0xD1581A40#32 ::
        some 0xDA5A0001#32 :: (headerTail panelParams).map some := by
    rw [imageFile_eq himg, List.append_assoc, List.take_left' hlen, hheader]
    rfl
  rw [loadImage_header hwhole hfirst, imageFile_eq himg, List.append_assoc, List.drop_left' hlen,
    chunksOfFour_words, htake, hwidth, hmsb]
  simp

/-- The iterators of a loaded image never panic. -/
def LoadedImage.Total (img : LoadedImage) : Prop :=
  (∀ w ∈ img.panelParams, w ≠ none) ∧ ∀ w ∈ img.imgData, w ≠ none

/-- Loading ends with an image whose words can all be taken, or with none. -/
def NeverPanics (r : Except LoadError LoadedImage) : Prop :=
  r = .error .refused ∨ ∃ img, r = .ok img ∧ img.Total

lemma chunksOfFour_total (n : ℕ) (data : List Byte) (h : data.length = 4 * n) :
    ((chunksOfFour data).map fromLeBytes).length = n ∧
      ∀ w ∈ (chunksOfFour data).map fromLeBytes, w ≠ none := by
  induction n generalizing data with
  | zero =>
    rw [List.length_eq_zero_iff.mp h]
    simp [chunksOfFour]
  | succ n ih =>
    match data, h with
    | a :: b :: c :: d :: rest, h =>
      have hrest := ih rest (by simp only [List.length_cons] at h; omega)
      rw [chunksOfFour, List.map_cons, List.length_cons, hrest.1]
      refine ⟨rfl, ?_⟩
      intro w hw
      rcases List.mem_cons.mp hw with rfl | hw
      · exact Option.some_ne_none _
      · exact hrest.2 w hw

lemma exists_word {words : List (Option Word)} (hne : words ≠ []) (h : ∀ w ∈ words, w ≠ none) :
    ∃ w rest, words = some w :: rest := by
  match words, hne with
  | none :: rest, _ => exact absurd rfl (h none List.mem_cons_self)
  | some w :: rest, _ => exact ⟨w, rest, rfl⟩

lemma loadImage_total {data : List Byte} (hlong : 256 ≤ data.length) (hwords : data.length % 4 = 0) :
    NeverPanics (loadImage data) := by
  have hwhole : ¬ data.length < 256 := by omega
  obtain ⟨hcount, hheader⟩ := chunksOfFour_total 64 (data.take 256) (by
    rw [List.length_take]
    omega)
  obtain ⟨-, hdata⟩ := chunksOfFour_total (data.length / 4 - 64) (data.drop 256) (by
    rw [List.length_drop]
    omega)
  obtain ⟨start, rest, hstart⟩ := exists_word (by
    intro hnil
    rw [hnil] at hcount
    cases hcount) hheader
  rw [hstart] at hcount hheader
  obtain ⟨length, rest, rfl⟩ := exists_word (by
    rintro rfl
    cases hcount) fun w hw => hheader w (List.mem_cons_of_mem _ hw)
  rw [loadImage_header hwhole hstart]
  split
  · exact .inl rfl
  · refine .inr ⟨_, rfl, ?_, ?_⟩
    · intro w hw
      exact hheader w (List.mem_cons_of_mem _ (List.mem_cons_of_mem _ (List.mem_of_mem_drop hw)))
    · intro w hw
      exact hdata w (List.mem_of_mem_take hw)

lemma readImage_total (mem : ℕ → Byte) : NeverPanics (loadImage (readImage mem)) := by
  have hlen := readImage_length mem
  have hlong : 256 ≤ FLASH_SIZE - IMG_OFFSET := by decide
  have hwords : (FLASH_SIZE - IMG_OFFSET) % 4 = 0 := by decide
  exact loadImage_total (hlen ▸ hlong) (hlen ▸ hwords)

/-! ### Saving -/

/-- The commands change nothing below the stored-image region, erase a sector ahead of its pages and
program a page once. -/
structure SafeWrites (ops : List FlashOp) : Prop where
  region : ∀ op ∈ ops, IMG_OFFSET ≤ op.base
  erased : ∀ before addr data after, ops = before ++ .programPage addr data :: after →
    ∃ op ∈ before, op.page? = none ∧ op.sector = (FlashOp.programPage addr data).sector
  once : (ops.filterMap FlashOp.page?).Nodup

lemma mem_pagesOps {data : List Byte} {n : ℕ} {op : FlashOp} (h : op ∈ pagesOps data n) :
    ∃ k, k < n ∧ (op = .programPage (IMG_OFFSET + k * PAGE) (imagePage data k) ∨
      k % 16 = 0 ∧ op = .eraseSector (IMG_OFFSET + (k * PAGE + 255))) := by
  obtain ⟨k, hk, hop⟩ := List.mem_flatMap.mp h
  refine ⟨k, List.mem_range.mp hk, ?_⟩
  rw [pageOps_page] at hop
  rcases List.mem_append.mp hop with hop | hop
  · split at hop
    · next hmod => exact .inr ⟨hmod, List.mem_singleton.mp hop⟩
    · cases hop
  · exact .inl (List.mem_singleton.mp hop)

lemma erase_mem {data : List Byte} {n k : ℕ} (hk : k < n) (hmod : k % 16 = 0) :
    .eraseSector (IMG_OFFSET + (k * PAGE + 255)) ∈ pagesOps data n := by
  apply List.mem_flatMap.mpr
  refine ⟨k, List.mem_range.mpr hk, ?_⟩
  rw [pageOps_page, if_pos hmod]
  exact List.mem_append_left _ List.mem_cons_self

lemma program_mem {data : List Byte} {n k : ℕ} (hk : k < n) :
    .programPage (IMG_OFFSET + k * PAGE) (imagePage data k) ∈ pagesOps data n := by
  apply List.mem_flatMap.mpr
  refine ⟨k, List.mem_range.mpr hk, ?_⟩
  rw [pageOps_page]
  exact List.mem_append_right _ List.mem_cons_self

lemma pagesOps_pages (data : List Byte) (n : ℕ) (hn : n ≤ IMG_PAGES) :
    (pagesOps data n).filterMap FlashOp.page? =
      (List.range n).map fun k => IMG_OFFSET + k * PAGE := by
  induction n with
  | zero => rfl
  | succ n ih =>
    have hbase := @program_base n (imagePage data n) (by omega)
    have herase : (if n % 16 = 0 then [FlashOp.eraseSector (IMG_OFFSET + (n * PAGE + 255))]
        else []).filterMap FlashOp.page? = [] := by
      split <;> rfl
    rw [pagesOps_succ, List.filterMap_append, List.filterMap_append, ih (by omega), herase,
      List.range_succ, List.map_append]
    simp [FlashOp.page?, hbase]

lemma sector_erased {data : List Byte} {n : ℕ} {before : List FlashOp} (hn : n < IMG_PAGES)
    (hold : ∀ op ∈ pagesOps data n, op ∈ before)
    (hnew : n % 16 = 0 → .eraseSector (IMG_OFFSET + (n * PAGE + 255)) ∈ before) :
    ∃ op ∈ before, op.page? = none ∧
      op.sector = (FlashOp.programPage (IMG_OFFSET + n * PAGE) (imagePage data n)).sector := by
  refine ⟨.eraseSector (IMG_OFFSET + (n / 16 * 16 * PAGE + 255)), ?_, rfl, ?_⟩
  · by_cases hmod : n % 16 = 0
    · rw [show n / 16 * 16 = n by omega]
      exact hnew hmod
    · exact hold _ (erase_mem (by omega) (by omega))
  · rw [FlashOp.sector, FlashOp.sector, erase_base (by omega) (by omega), program_base hn,
      IMG_OFFSET, FLASH_SIZE, PAGE, SECTOR]
    omega

lemma pagesOps_erased (data : List Byte) (n : ℕ) (hn : n ≤ IMG_PAGES) : ∀ before addr page after,
    pagesOps data n = before ++ .programPage addr page :: after →
    ∃ op ∈ before, op.page? = none ∧ op.sector = (FlashOp.programPage addr page).sector := by
  induction n with
  | zero =>
    intro before addr page after h
    cases before <;> cases h
  | succ n ih =>
    intro before addr page after h
    rw [pagesOps_succ] at h
    rcases List.append_eq_append_iff.mp h with ⟨mid, hbefore, hnew⟩ | ⟨mid, hold, hnew⟩
    · -- the page is among the last ones
      have hlast : .programPage addr page =
          FlashOp.programPage (IMG_OFFSET + n * PAGE) (imagePage data n) ∧
          (n % 16 = 0 → .eraseSector (IMG_OFFSET + (n * PAGE + 255)) ∈ mid) := by
        split at hnew
        · next hmod =>
          rcases mid with _ | ⟨op, _ | ⟨op', mid⟩⟩
          · cases hnew
          · cases hnew
            exact ⟨rfl, fun _ => List.mem_singleton_self _⟩
          · simp at hnew
        · next hmod =>
          rcases mid with _ | ⟨op, mid⟩
          · cases hnew
            exact ⟨rfl, fun h => absurd h hmod⟩
          · simp at hnew
      rw [hlast.1, hbefore]
      apply sector_erased (by omega)
      · intro op hop
        exact List.mem_append_left _ hop
      · intro hmod
        exact List.mem_append_right _ (hlast.2 hmod)
    · rcases mid with _ | ⟨op, mid⟩
      · rw [List.append_nil] at hold
        rw [List.nil_append] at hnew
        split at hnew
        · cases hnew
        · next hmod =>
          cases hnew
          apply sector_erased (by omega)
          · intro op hop
            rwa [← hold]
          · intro h
            exact absurd h hmod
      · rw [List.cons_append] at hnew
        obtain ⟨rfl, -⟩ := List.cons.inj hnew
        exact ih (by omega) before addr page mid hold

lemma safeWrites_iff {data : List Byte} (hne : data ≠ []) :
    SafeWrites (writeImage data) ↔ data.length < FLASH_SIZE - IMG_OFFSET := by
  rw [writeImage_eq hne, ← pagesOps]
  constructor
  · intro h
    by_contra hlong
    have hk : IMG_PAGES < data.length / PAGE + 1 := by
      rw [IMG_OFFSET, FLASH_SIZE] at hlong
      rw [IMG_PAGES, PAGE]
      omega
    -- the page behind the region is the first of the part
    have hlow := h.region _ (program_mem hk)
    have hbase : (FlashOp.programPage (IMG_OFFSET + IMG_PAGES * PAGE)
        (imagePage data IMG_PAGES)).base = 0 := rfl
    rw [hbase] at hlow
    exact absurd hlow (by decide)
  · intro hfits
    have hn : data.length / PAGE + 1 ≤ IMG_PAGES := by
      rw [IMG_OFFSET, FLASH_SIZE] at hfits
      rw [IMG_PAGES, PAGE]
      omega
    refine ⟨?_, pagesOps_erased data _ hn, ?_⟩
    · intro op hop
      obtain ⟨k, hk, rfl | ⟨hmod, rfl⟩⟩ := mem_pagesOps hop
      · rw [program_base (by omega)]
        exact Nat.le_add_right _ _
      · rw [erase_base (by omega) hmod]
        exact Nat.le_add_right _ _
    · rw [pagesOps_pages data _ hn]
      apply List.Nodup.map _ List.nodup_range
      intro k k' h
      dsimp only at h
      rw [PAGE] at h
      omega

/-- The image is the one that was saved, its parameters for as many panel registers as there are. -/
structure LoadedImage.Holds (img : LoadedImage) (hub : Hub75) (b : Bitstream) (regs : ℕ → Word) :
    Prop where
  width : img.width.toNat = hub.getImgParam.1
  length : img.length.toNat = hub.getImgParam.2
  params : ∃ params, img.panelParams = params.map some ∧
    ∀ regs', getPanelParams b (setPanelParams b regs' params) = getPanelParams b regs
  pixels : img.imgData = (readImgData hub).map some

/-- Loading the region after the commands gives the image back, whatever the part held before. -/
def Lossless (ops : List FlashOp) (hub : Hub75) (b : Bitstream) (regs : ℕ → Word) : Prop :=
  ∀ mem, ∃ img, loadImage (readImage (runOps ops mem)) = .ok img ∧ img.Holds hub b regs

lemma params_restored (b : Bitstream) (regs regs' : ℕ → Word) :
    getPanelParams b (setPanelParams b regs' (headerTail (getPanelParams b regs))) =
      getPanelParams b regs := by
  have hcount := b.panelCsrCount_le
  rw [OUTPUTS] at hcount
  apply List.map_congr_left
  intro i hi
  have hi := List.mem_range.mp hi
  rw [setPanelParams, if_pos hi, headerTail, getPanelParams, List.getD_eq_getElem?_getD,
    List.getElem?_take_of_lt (by omega), List.getElem?_append_left (by simpa using hi)]
  simp [hi]

section Saving

variable (hub : Hub75) (b : Bitstream) (regs : ℕ → Word) (width : BitVec 16) {length : BitVec 32}

lemma readImgData_length (hl : length.toNat ≤ MAX_IMG_PIXELS) :
    (readImgData (hub.setImgParam width length)).length = length.toNat := by
  rw [readImgData, List.length_map, List.length_range]
  exact Nat.min_eq_left hl

lemma saveSpiImage_eq (length : BitVec 32) : saveSpiImage (hub.setImgParam width length) b regs =
    writeImage (imageFile width length (getPanelParams b regs)
      (readImgData (hub.setImgParam width length))) := by
  rw [saveSpiImage, show (hub.setImgParam width length).getImgParam = (width.toNat, length.toNat)
    from rfl, BitVec.ofNat_toNat, BitVec.ofNat_toNat, BitVec.setWidth_eq, BitVec.setWidth_eq]

lemma savedFile_length (hl : length.toNat ≤ MAX_IMG_PIXELS) :
    imageFile width length (getPanelParams b regs)
        (readImgData (hub.setImgParam width length)) ≠ [] ∧
      (imageFile width length (getPanelParams b regs)
        (readImgData (hub.setImgParam width length))).length = 256 + 4 * length.toNat := by
  have hlen := @imageFile_length width length (getPanelParams b regs) _
    (readImgData_length hub width hl)
  refine ⟨?_, hlen⟩
  intro h
  rw [h, List.length_nil] at hlen
  omega

end Saving

/-- Saving writes only to the stored-image region and loading gives the image back, and loading never
panics, for the images that fit the region and have at least a row. -/
theorem saved_image_iff (hub : Hub75) (b : Bitstream) (regs : ℕ → Word) (width : BitVec 16)
    (length : BitVec 32) (hw : 0 < width.toNat) (hl : length.toNat ≤ MAX_IMG_PIXELS) :
    (SafeWrites (saveSpiImage (hub.setImgParam width length) b regs) ∧
      Lossless (saveSpiImage (hub.setImgParam width length) b regs) (hub.setImgParam width length) b
        regs ∧
      ∀ mem, NeverPanics (loadImage (readImage mem))) ↔
    width.toNat ≤ length.toNat ∧ 256 + 4 * length.toNat < FLASH_SIZE - IMG_OFFSET := by
  have himg := readImgData_length hub width hl
  have hsave := saveSpiImage_eq hub b regs width length
  obtain ⟨hne, hlen⟩ := savedFile_length hub b regs width hl
  have hload (hfits : 256 + 4 * length.toNat < FLASH_SIZE - IMG_OFFSET) (mem : ℕ → Byte) :
      loadImage (readImage (runOps (saveSpiImage (hub.setImgParam width length) b regs) mem)) =
        if (width = 0 ∨ length = 0 ∨ MAX_IMG_PIXELS < length.toNat) ∨ length.toNat < width.toNat then
          .error .refused
        else .ok ⟨width, length, (headerTail (getPanelParams b regs)).map some,
          (readImgData (hub.setImgParam width length)).map some⟩ := by
    obtain ⟨rest, hrest⟩ := prefix_readImage hne (hlen ▸ hfits) mem
    rw [hsave, ← hrest]
    exact loadImage_file himg rest
  constructor
  · rintro ⟨hsafe, hlossless, -⟩
    rw [hsave, safeWrites_iff hne, hlen] at hsafe
    refine ⟨?_, hsafe⟩
    obtain ⟨img, himg', -⟩ := hlossless fun _ => 0
    rw [hload hsafe] at himg'
    by_contra hshort
    rw [if_pos (.inr (by omega))] at himg'
    cases himg'
  · rintro ⟨hrow, hfits⟩
    refine ⟨?_, ?_, ?_⟩
    · rw [hsave, safeWrites_iff hne, hlen]
      exact hfits
    · intro mem
      refine ⟨⟨width, length, (headerTail (getPanelParams b regs)).map some,
        (readImgData (hub.setImgParam width length)).map some⟩, ?_, rfl, rfl,
        ⟨_, rfl, params_restored b regs⟩, rfl⟩
      rw [hload hfits, if_neg]
      rintro ((h | h | h) | h)
      · rw [h] at hw
        exact absurd hw (by decide)
      · rw [h] at hrow
        change width.toNat ≤ 0 at hrow
        omega
      · omega
      · omega
    · intro mem
      exact readImage_total mem

/-- A blank frame buffer, and the bitstream of a card with four connectors. -/
def blankHub : Hub75 := Hub75.new (fun _ => 0) Registers.reset

def fourOutputs : Bitstream := ⟨false, 128, 64, 0x4020, 0, false⟩

theorem saved_module :
    (SafeWrites (saveSpiImage (blankHub.setImgParam 128 8192) fourOutputs fun _ => 0) ∧
      Lossless (saveSpiImage (blankHub.setImgParam 128 8192) fourOutputs fun _ => 0)
        (blankHub.setImgParam 128 8192) fourOutputs (fun _ => 0) ∧
      ∀ mem, NeverPanics (loadImage (readImage mem))) ↔
    (128 : BitVec 16).toNat ≤ (8192 : BitVec 32).toNat ∧
      256 + 4 * (8192 : BitVec 32).toNat < FLASH_SIZE - IMG_OFFSET :=
  saved_image_iff blankHub fourOutputs (fun _ => 0) 128 8192 (by decide) (by decide)

/-- A wall of 768 by 384 pixels, which the frame buffer is sized for, is saved over the start of the
part. -/
theorem wall_saved_over_gateware :
    .eraseSector (IMG_OFFSET + (IMG_PAGES * PAGE + 255)) ∈
        saveSpiImage (blankHub.setImgParam 768 294912) fourOutputs (fun _ => 0) ∧
      (FlashOp.eraseSector (IMG_OFFSET + (IMG_PAGES * PAGE + 255))).base = APP_BASE ∧
      ¬ SafeWrites (saveSpiImage (blankHub.setImgParam 768 294912) fourOutputs fun _ => 0) := by
  have hl : (294912 : BitVec 32).toNat ≤ MAX_IMG_PIXELS := by decide
  obtain ⟨hne, hlen⟩ := savedFile_length blankHub fourOutputs (fun _ => 0) 768 hl
  rw [saveSpiImage_eq, safeWrites_iff hne, hlen]
  refine ⟨?_, rfl, by decide⟩
  rw [writeImage_eq hne, ← pagesOps, hlen]
  exact erase_mem (by decide) rfl

end Ledwall.Flash
