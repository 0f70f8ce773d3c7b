import Ledwall.Flash.FlashWrite
import Ledwall.Layout.OutputStage
import Ledwall.Library.Chunking
import Ledwall.Receiver.Hub75Driver

/-! The image in the top quarter of the flash: what `save_spi_image` sends to the part and what
`load_image` makes of it. -/

namespace Ledwall.Flash

open Ledwall.Wire Ledwall.Receiver Ledwall.Layout

/-- A command sent to the part. -/
inductive FlashOp
  | eraseSector (addr : ℕ)
  | programPage (addr : ℕ) (data : List Byte)

namespace FlashOp

def run : FlashOp → (ℕ → Byte) → ℕ → Byte
  | eraseSector addr => Chip.sectorErase addr
  | programPage addr data => Chip.pageProgram addr data

/-- The first address of the sector or of the page it changes. -/
def base : FlashOp → ℕ
  | eraseSector addr => Chip.address addr / SECTOR * SECTOR
  | programPage addr _ => Chip.address addr / PAGE * PAGE

def sector (op : FlashOp) : ℕ := op.base / SECTOR

def page? : FlashOp → Option ℕ
  | eraseSector _ => none
  | programPage addr data => some (programPage addr data).base

end FlashOp

def runOps (ops : List FlashOp) (mem : ℕ → Byte) : ℕ → Byte :=
  ops.foldl (fun mem op => op.run mem) mem

def IMG_OFFSET : ℕ := FLASH_SIZE / 4 * 3

/-- The enumerated iterator and the variables of the loop in `write_image`. -/
structure PageWriter where
  data : List Byte
  next : ℕ := 0
  count : ℕ := 0
  finished : Bool := false

namespace PageWriter

def byte (w : PageWriter) : Byte × PageWriter :=
  match w.data with
  | b :: data => (b, { w with data := data, next := w.next + 1, count := w.next })
  | [] => (0, { w with count := w.count + 1, finished := true })

def bytes : ℕ → PageWriter → List Byte × PageWriter
  | 0, w => ([], w)
  | n + 1, w =>
    let first := w.byte
    let rest := bytes n first.2
    (first.1 :: rest.1, rest.2)

lemma bytes_data (n : ℕ) (w : PageWriter) : (bytes n w).1 =
    w.data.take n ++ List.replicate (n - w.data.length) 0 ∧
      (bytes n w).2.data = w.data.drop n ∧ (bytes n w).2.next = w.next + min n w.data.length := by
  induction n generalizing w with
  | zero => simp [bytes]
  | succ n ih =>
    obtain ⟨hbytes, hdata, hnext⟩ := ih w.byte.2
    rw [bytes]
    dsimp only
    rw [hbytes, hdata, hnext]
    cases hw : w.data with
    | nil => simp [byte, hw, List.replicate_succ]
    | cons b data =>
      simp [byte, hw]
      omega

lemma bytes_finished (n : ℕ) (w : PageWriter) :
    (bytes n w).2.finished = (w.finished || decide (w.data.length < n)) := by
  induction n generalizing w with
  | zero => simp [bytes]
  | succ n ih =>
    rw [bytes]
    dsimp only
    rw [ih]
    cases hw : w.data with
    | nil => simp [byte, hw]
    | cons b data => simp [byte, hw]

lemma bytes_nil (n : ℕ) (w : PageWriter) (h : w.data = []) :
    (bytes n w).2.count = w.count + n := by
  induction n generalizing w with
  | zero => rfl
  | succ n ih =>
    rw [bytes]
    dsimp only
    rw [ih] <;> simp [byte, h]
    omega

lemma bytes_count (n : ℕ) (w : PageWriter) (h : w.data = [] → w.count + 1 = w.next) :
    (bytes (n + 1) w).2.count = w.next + n := by
  induction n generalizing w with
  | zero =>
    cases hw : w.data with
    | nil => simpa [bytes, byte, hw] using h hw
    | cons b data => simp [bytes, byte, hw]
  | succ n ih =>
    cases hw : w.data with
    | nil =>
      have hcount := h hw
      rw [bytes_nil _ _ hw]
      omega
    | cons b data =>
      rw [bytes]
      dsimp only
      rw [ih] <;> simp [byte, hw]
      omega

/-- The inner loop. -/
@[irreducible] def page (w : PageWriter) : List Byte × PageWriter := bytes PAGE w

lemma page_data (w : PageWriter) : w.page.1 =
    w.data.take PAGE ++ List.replicate (PAGE - w.data.length) 0 ∧
      w.page.2.data = w.data.drop PAGE ∧ w.page.2.next = w.next + min PAGE w.data.length := by
  rw [page]
  exact bytes_data PAGE w

lemma page_finished (w : PageWriter) :
    w.page.2.finished = (w.finished || decide (w.data.length < PAGE)) := by
  rw [page]
  exact bytes_finished PAGE w

lemma page_count (w : PageWriter) (h : w.data = [] → w.count + 1 = w.next) :
    w.page.2.count = w.next + 255 := by
  rw [page]
  exact bytes_count 255 w h

/-- The commands for one page, given the loop's variables behind it. -/
def pageOps (count : ℕ) (page : List Byte) : List FlashOp :=
  -- `count & !0xFF`
  let offset := count / 256 * 256
  (if offset % SECTOR = 0 then [.eraseSector (IMG_OFFSET + count)] else []) ++
    [.programPage (IMG_OFFSET + offset) page]

lemma bytes_shrink {w : PageWriter} (h : ¬ w.page.2.finished = true) :
    w.page.2.data.length < w.data.length := by
  rw [page_finished] at h
  rw [(page_data w).2.1, List.length_drop]
  simp at h
  rw [PAGE] at *
  omega

/-- The `while` loop of `write_image`. -/
def ops (w : PageWriter) : List FlashOp :=
  if w.page.2.finished then pageOps w.page.2.count w.page.1
  else pageOps w.page.2.count w.page.1 ++ ops w.page.2
termination_by w.data.length
decreasing_by exact bytes_shrink ‹_›

end PageWriter

def writeImage (data : List Byte) : List FlashOp := PageWriter.ops { data := data }

/-- Page `k` of the data, padded. -/
def imagePage (data : List Byte) (k : ℕ) : List Byte :=
  (data.drop (k * PAGE)).take PAGE ++ List.replicate (PAGE - (data.length - k * PAGE)) 0

lemma PageWriter.ops_eq (data : List Byte) (n : ℕ) : ∀ (k : ℕ) (w : PageWriter),
    data.length / PAGE = k + n → w.data = data.drop (k * PAGE) → w.next = k * PAGE →
    w.finished = false → (w.data = [] → w.count + 1 = w.next) →
    w.ops = (List.range' k (n + 1)).flatMap fun j => pageOps (j * PAGE + 255) (imagePage data j) := by
  induction n with
  | zero =>
    intro k w hk hdata hnext hf hcount
    have hlen : w.data.length < PAGE := by
      rw [hdata, List.length_drop]
      rw [PAGE] at *
      omega
    have hdone : w.page.2.finished = true := by simp [page_finished, hlen]
    have hpage : w.page.1 = imagePage data k := by
      rw [(page_data w).1, hdata, List.length_drop, imagePage]
    rw [ops, if_pos hdone, hpage, page_count w hcount, hnext]
    simp
  | succ n ih =>
    intro k w hk hdata hnext hf hcount
    have hlen : PAGE ≤ w.data.length := by
      rw [hdata, List.length_drop]
      rw [PAGE] at *
      omega
    have hdone : w.page.2.finished = false := by
      rw [page_finished, hf]
      simpa using hlen
    obtain ⟨hbytes, hrest, hstep⟩ := page_data w
    have hpage : w.page.1 = imagePage data k := by
      rw [hbytes, hdata, List.length_drop, imagePage]
    have hcount' : w.page.2.count = k * PAGE + 255 := by
      rw [page_count w hcount, hnext]
    have hnext' : w.page.2.next = (k + 1) * PAGE := by
      rw [hstep, Nat.min_eq_left hlen, hnext, Nat.succ_mul]
    have hrest' : w.page.2.data = data.drop ((k + 1) * PAGE) := by
      rw [hrest, hdata, List.drop_drop, Nat.succ_mul]
    have hlag : w.page.2.count + 1 = w.page.2.next := by
      rw [hcount', hnext', Nat.succ_mul, PAGE]
    have htail := ih (k + 1) w.page.2 (by omega) hrest' hnext' hdone fun _ => hlag
    rw [ops, hdone, if_neg Bool.false_ne_true, hcount', hpage, List.range'_succ, List.flatMap_cons,
      htail]

theorem writeImage_eq {data : List Byte} (h : data ≠ []) :
    writeImage data = (List.range (data.length / PAGE + 1)).flatMap fun k =>
      PageWriter.pageOps (k * PAGE + 255) (imagePage data k) := by
  rw [List.range_eq_range']
  have hstart : ({ data := data } : PageWriter).data = data.drop (0 * PAGE) := by
    rw [Nat.zero_mul, List.drop_zero]
  apply PageWriter.ops_eq data (data.length / PAGE) 0 _ (Nat.zero_add _).symm hstart
    (Nat.zero_mul _).symm rfl
  intro hnil
  exact absurd hnil h

lemma pageOps_page (k : ℕ) (page : List Byte) : PageWriter.pageOps (k * PAGE + 255) page =
    (if k % 16 = 0 then [.eraseSector (IMG_OFFSET + (k * PAGE + 255))] else []) ++
      [.programPage (IMG_OFFSET + k * PAGE) page] := by
  have hoffset : (k * PAGE + 255) / 256 * 256 = k * PAGE := by
    rw [PAGE]
    omega
  have hsector : k * PAGE % SECTOR = 0 ↔ k % 16 = 0 := by
    rw [PAGE, SECTOR]
    omega
  simp only [PageWriter.pageOps, hoffset, hsector]

/-! ### The file -/

def toLeBytes (w : Word) : List Byte :=
  [w.setWidth 8, (w >>> 8).setWidth 8, (w >>> 16).setWidth 8, (w >>> 24).setWidth 8]

/-- `u32::from_le_bytes(x.try_into().unwrap())`: `none` is the panic. -/
def fromLeBytes : List Byte → Option Word
  | [a, b, c, d] => some (d ++ c ++ b ++ a)
  | _ => none

lemma fromLeBytes_toLeBytes (w : Word) : fromLeBytes (toLeBytes w) = some w := by
  rw [toLeBytes, fromLeBytes]
  congr 1
  ext i hi
  simp only [BitVec.getElem_append, BitVec.getElem_setWidth, BitVec.getLsbD_ushiftRight]
  grind

/-- `chunks(4)` -/
def chunksOfFour : List Byte → List (List Byte)
  | a :: b :: c :: d :: rest => [a, b, c, d] :: chunksOfFour rest
  | [] => []
  | short => [short]

/-- The iterator `img::write_image` returns. -/
def imageFile (width : BitVec 16) (length : BitVec 32) (panelParams imgData : List Word) : List Byte :=
  let header := [width.setWidth 32, length, 0xD1581A40#32, 0xDA5A0001#32]
  let words := (header ++ panelParams ++ List.replicate 64 0).take (256 / 4) ++
    imgData.take length.toNat
  words.flatMap toLeBytes

/-- How `load_image` fails: with `Err(())`, or by a panic. -/
inductive LoadError
  | refused
  | panicked

/-- The two iterators yield `none` where taking the next word from them would panic. -/
structure LoadedImage where
  width : BitVec 16
  length : BitVec 32
  panelParams : List (Option Word)
  imgData : List (Option Word)

/-- `header.next().unwrap()` -/
def nextWord : List (Option Word) → Except LoadError (Word × List (Option Word))
  | some w :: words => .ok (w, words)
  | _ => .error .panicked

def loadImage (data : List Byte) : Except LoadError LoadedImage := do
  if data.length < 256 then throw .refused
  let header := (chunksOfFour (data.take 256)).map fromLeBytes
  let data := (chunksOfFour (data.drop 256)).map fromLeBytes
  let (headerStart, header) ← nextWord header
  if headerStart.msb then throw .refused
  let width : BitVec 16 := headerStart.setWidth 16
  let (length, header) ← nextWord header
  if width = 0 ∨ length = 0 ∨ MAX_IMG_PIXELS < length.toNat then throw .refused
  if length.toNat < width.toNat then throw .refused
  return ⟨width, length, header.drop 2, data.take length.toNat⟩

/-- The slice `read_image` hands out. -/
def readImage (mem : ℕ → Byte) : List Byte :=
  (List.range (FLASH_SIZE - IMG_OFFSET)).map fun i => mem (IMG_OFFSET + i)

/-! ### Saving -/

/-- The words of the panel registers, `panel_csr_count` of them. -/
def getPanelParams (b : Bitstream) (regs : ℕ → Word) : List Word :=
  (List.range b.panelCsrCount).map regs

def setPanelParams (b : Bitstream) (regs : ℕ → Word) (params : List Word) : ℕ → Word := fun i =>
  if i < b.panelCsrCount then params.getD i (regs i) else regs i

def readImgData (hub : Hub75) : List Word :=
  (List.range (min hub.length FB_HALF_WORDS)).map hub.displayBuffer

def saveSpiImage (hub : Hub75) (b : Bitstream) (regs : ℕ → Word) : List FlashOp :=
  let param := hub.getImgParam
  writeImage (imageFile (BitVec.ofNat 16 param.1) (BitVec.ofNat 32 param.2)
    (getPanelParams b regs) (readImgData hub))

end Ledwall.Flash
