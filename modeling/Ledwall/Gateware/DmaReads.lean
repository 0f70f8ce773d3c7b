import Ledwall.Gateware.WholeFrames

/-! The CPU's reads of the DMA's registers, while the DMA goes on. -/

namespace Ledwall.Gateware

open Ledwall.Wire

/-- The registers as the CPU meets them: the cycles gone by since reset, those that will go by before
each of its next accesses, and `bitmap_sel`. -/
structure Bus where
  seen : List Inputs
  gaps : List (List Inputs)
  bitmapSel : BitVec 4 := 0

abbrev Cpu : Type → Type := StateM Bus

namespace Bus

variable (b : Bus)

def pixdma : Hub75UdpDma := (Watched.after {} b.seen).path.dma

/-- The next `n` accesses have come. -/
def skip (n : ℕ) : Bus :=
  { b with seen := b.seen ++ (b.gaps.take n).flatten, gaps := b.gaps.drop n }

def select (i : BitVec 4) : Bus := { b with bitmapSel := i }

def enable : Bool := b.seen.getLast?.any Inputs.enable

/-- The window onto a bitmap. -/
def window (bitmap : BitVec 512) : BitVec 32 := bitmap.extractLsb' (32 * b.bitmapSel.toNat) 32

def bitmapArrival : BitVec 32 := b.window b.pixdma.arrival

def bitmapDone : BitVec 32 := b.window b.pixdma.done.arrival

end Bus

def read {α : Type} (register : Bus → α) : Cpu α := fun b => (register (b.skip 1), b.skip 1)

def writeBitmapSel (i : BitVec 4) : Cpu Unit := fun b => ((), (b.skip 1).select i)

def dmaEnabled : Cpu Bool := read Bus.enable

/-- The words of a bitmap, each selected and then read. -/
def readWords (register : Bus → BitVec 32) : List ℕ → Cpu (List (BitVec 32))
  | [] => pure []
  | i :: is => do
    writeBitmapSel (BitVec.ofNat 4 i)
    let w ← read register
    let ws ← readWords register is
    return w :: ws

def dmaArrival : Cpu (Option (List (BitVec 32) × BitVec 16)) := do
  if !(← dmaEnabled) then return none
  let frameId ← read fun b => b.pixdma.status.frameId
  let words ← readWords Bus.bitmapArrival (List.range 16)
  return some (words, frameId)

/-- What was read between two reads of `done_seq`. -/
def bracketed {α : Type} (seq0 seq1 : BitVec 16) (a : α) : Option α :=
  if seq1 ≠ seq0 then none else some a

def dmaDoneFrame : Cpu (Option (List (BitVec 32) × FrameStatus × BitVec 16)) := do
  if !(← dmaEnabled) then return none
  let seq0 ← read fun b => b.pixdma.done.seq
  let words ← readWords Bus.bitmapDone (List.range 16)
  let fid ← read fun b => b.pixdma.done.status.frameId
  let tot ← read fun b => b.pixdma.done.status.totalChunks
  let idx ← read fun b => b.pixdma.done.status.indexed
  let seq1 ← read fun b => b.pixdma.done.seq
  return bracketed seq0 seq1 (words, ⟨fid, tot, idx⟩, seq0)

def dmaFrameIdentity : Cpu (Option FrameStatus) := do
  if !(← dmaEnabled) then return none
  let fid ← read fun b => b.pixdma.status.frameId
  let tot ← read fun b => b.pixdma.status.totalChunks
  let idx ← read fun b => b.pixdma.status.indexed
  return some ⟨fid, tot, idx⟩

def chunkBit (words : List (BitVec 32)) (k : ℕ) : Bool := (words.getD (k / 32) 0).getLsbD (k % 32)

/-- One frame of the run so far: `holds` of its identity, and each of its chunks in the mask was
written to its end. -/
def Describes (seen : List Inputs) (words : List (BitVec 32)) (holds : FrameStatus → Prop) : Prop :=
  ∃ p, p <+: seen ∧ holds (Watched.after {} p).path.dma.status ∧
    ∀ k < 512, chunkBit words k = true → (Watched.after {} p).Written k

namespace Watched

/-- The frame changes along a run. -/
def changes : Watched → List Inputs → ℕ
  | _, [] => 0
  | w, i :: is => (if w.path.dma.frameChange i then 1 else 0) + (w.next i).changes is

end Watched

namespace Bus

/-- The frame changes after the CPU's next `m` accesses and before its next `n` have all come. -/
def changesBetween (b : Bus) (m n : ℕ) : ℕ :=
  (Watched.after {} (b.skip m).seen).changes ((b.gaps.drop m).take (n - m)).flatten

lemma skip_zero (b : Bus) : b.skip 0 = b := by
  rw [skip, List.take_zero, List.flatten_nil, List.append_nil, List.drop_zero]

lemma skip_skip (b : Bus) (m n : ℕ) : (b.skip m).skip n = b.skip (m + n) := by
  simp only [skip, List.take_add, List.flatten_append, List.append_assoc, List.drop_drop]

lemma seen_skip (b : Bus) {m n : ℕ} (h : m ≤ n) :
    (b.skip n).seen = (b.skip m).seen ++ ((b.gaps.drop m).take (n - m)).flatten := by
  obtain ⟨k, rfl⟩ := Nat.exists_eq_add_of_le h
  rw [← skip_skip, Nat.add_sub_cancel_left]
  rfl

end Bus

lemma readWords_run (bitmap : Hub75UdpDma → BitVec 512) (is : List ℕ) (b : Bus) :
    ∃ sel, readWords (fun b => b.window (bitmap b.pixdma)) is b =
      (is.mapIdx fun j i =>
        (bitmap (b.skip (2 * j + 2)).pixdma).extractLsb' (32 * (BitVec.ofNat 4 i).toNat) 32,
      (b.skip (2 * is.length)).select sel) := by
  induction is generalizing b with
  | nil =>
    refine ⟨b.bitmapSel, ?_⟩
    rw [List.length_nil, Nat.mul_zero, Bus.skip_zero]
    rfl
  | cons i is ih =>
    obtain ⟨sel, hsel⟩ := ih ((b.skip 2).select (BitVec.ofNat 4 i))
    have hskip (n : ℕ) : ((b.skip 2).select (BitVec.ofNat 4 i)).skip n =
        (b.skip (2 + n)).select (BitVec.ofNat 4 i) := by
      rw [← Bus.skip_skip]
      rfl
    have hfirst : readWords (fun b => b.window (bitmap b.pixdma)) (i :: is) b =
        let r := readWords (fun b => b.window (bitmap b.pixdma)) is
          ((b.skip 2).select (BitVec.ofNat 4 i))
        ((bitmap (b.skip 2).pixdma).extractLsb' (32 * (BitVec.ofNat 4 i).toNat) 32 :: r.1, r.2) := by
      rw [← Bus.skip_skip b 1 1]
      rfl
    refine ⟨sel, ?_⟩
    rw [hfirst, hsel, List.mapIdx_cons, List.length_cons,
      show 2 * (is.length + 1) = 2 + 2 * is.length by omega]
    simp only [hskip]
    refine Prod.ext (congrArg (_ :: ·) (congrFun (congrArg List.mapIdx ?_) is)) rfl
    funext j i'
    rw [show 2 * (j + 1) + 2 = 2 + (2 * j + 2) by omega]
    rfl

lemma chunkBit_words (bitmap : ℕ → BitVec 512) {k : ℕ} (hk : k < 512) :
    chunkBit ((List.range 16).mapIdx fun j i =>
      (bitmap j).extractLsb' (32 * (BitVec.ofNat 4 i).toNat) 32) k =
      (bitmap (k / 32)).getLsbD k := by
  have hword : k / 32 < 16 := by omega
  have hsel : (BitVec.ofNat 4 (k / 32)).toNat = k / 32 := by
    rw [BitVec.toNat_ofNat]
    omega
  have hget : ((List.range 16).mapIdx fun j i =>
      (bitmap j).extractLsb' (32 * (BitVec.ofNat 4 i).toNat) 32).getD (k / 32) 0 =
      (bitmap (k / 32)).extractLsb' (32 * (k / 32)) 32 := by
    rw [List.getD_eq_getElem?_getD, List.getElem?_mapIdx, List.getElem?_range hword, Option.map_some,
      Option.getD_some, hsel]
  rw [chunkBit, hget, BitVec.getLsbD_extractLsb', decide_eq_true (Nat.mod_lt k (by decide)),
    Bool.true_and, Nat.div_add_mod]

/-- The words of a bitmap that `n` accesses come before. -/
def wordsAt (bitmap : Hub75UdpDma → BitVec 512) (b : Bus) (n : ℕ) : List (BitVec 32) :=
  (List.range 16).mapIdx fun j i =>
    (bitmap (b.skip (n + (2 * j + 2))).pixdma).extractLsb' (32 * (BitVec.ofNat 4 i).toNat) 32

lemma readWords_skip (bitmap : Hub75UdpDma → BitVec 512) (b : Bus) (n : ℕ) :
    ∃ sel, readWords (fun b => b.window (bitmap b.pixdma)) (List.range 16) (b.skip n) =
      (wordsAt bitmap b n, (b.skip (n + 32)).select sel) := by
  obtain ⟨sel, hsel⟩ := readWords_run bitmap (List.range 16) (b.skip n)
  refine ⟨sel, hsel.trans ?_⟩
  simp only [Bus.skip_skip]
  rfl

section Steps

variable {α β : Type} (b : Bus)

lemma cpu_bind (x : Cpu α) (k : α → Cpu β) : (x >>= k) b = k (x b).1 (x b).2 := rfl

lemma cpu_pure (a : α) : (pure a : Cpu α) b = (a, b) := rfl

lemma read_run (register : Bus → α) : read register b = (register (b.skip 1), b.skip 1) := rfl

end Steps

lemma dmaArrival_run (b : Bus) : ∃ sel, dmaArrival b =
    if (b.skip 1).enable then
      (some (wordsAt Hub75UdpDma.arrival b 2, (b.skip 2).pixdma.status.frameId),
        (b.skip 34).select sel)
    else (none, b.skip 1) := by
  obtain ⟨sel, hwords⟩ := readWords_skip Hub75UdpDma.arrival b 2
  refine ⟨sel, ?_⟩
  have hstep : dmaArrival b = if (b.skip 1).enable then
      let r := readWords Bus.bitmapArrival (List.range 16) ((b.skip 1).skip 1)
      (some (r.1, ((b.skip 1).skip 1).pixdma.status.frameId), r.2)
    else (none, b.skip 1) := by
    rw [dmaArrival, dmaEnabled, cpu_bind, read_run]
    cases (b.skip 1).enable with
    | false => rfl
    | true => rfl
  rw [hstep, Bus.skip_skip]
  have hwords' : readWords Bus.bitmapArrival (List.range 16) (b.skip (1 + 1)) = _ := hwords
  rw [hwords']

lemma skip_select (b : Bus) (i : BitVec 4) (m n : ℕ) :
    ((b.skip m).select i).skip n = (b.skip (m + n)).select i := by
  rw [← Bus.skip_skip]
  rfl

lemma pixdma_select (b : Bus) (i : BitVec 4) : (b.select i).pixdma = b.pixdma := rfl

lemma dmaDoneFrame_run (b : Bus) : ∃ sel, dmaDoneFrame b =
    if (b.skip 1).enable then
      (bracketed (b.skip 2).pixdma.done.seq (b.skip 38).pixdma.done.seq
        (wordsAt (fun s => s.done.arrival) b 2,
          ⟨(b.skip 35).pixdma.done.status.frameId, (b.skip 36).pixdma.done.status.totalChunks,
            (b.skip 37).pixdma.done.status.indexed⟩, (b.skip 2).pixdma.done.seq),
        (b.skip 38).select sel)
    else (none, b.skip 1) := by
  obtain ⟨sel, hwords⟩ := readWords_skip (fun s => s.done.arrival) b 2
  refine ⟨sel, ?_⟩
  have hstep : dmaDoneFrame b = if (b.skip 1).enable then
      let r := readWords Bus.bitmapDone (List.range 16) ((b.skip 1).skip 1)
      let s₁ := r.2.skip 1
      let s₂ := s₁.skip 1
      let s₃ := s₂.skip 1
      let s₄ := s₃.skip 1
      (bracketed ((b.skip 1).skip 1).pixdma.done.seq s₄.pixdma.done.seq
        (r.1, ⟨s₁.pixdma.done.status.frameId, s₂.pixdma.done.status.totalChunks,
          s₃.pixdma.done.status.indexed⟩, ((b.skip 1).skip 1).pixdma.done.seq), s₄)
    else (none, b.skip 1) := by
    rw [dmaDoneFrame, dmaEnabled, cpu_bind, read_run]
    cases (b.skip 1).enable with
    | false => rfl
    | true => simp only [Bool.not_true, Bool.false_eq_true, if_false, if_true, cpu_bind, read_run, cpu_pure]
  have hwords' : readWords Bus.bitmapDone (List.range 16) (b.skip (1 + 1)) = _ := hwords
  rw [hstep, Bus.skip_skip, hwords']
  simp only [skip_select, pixdma_select, Nat.reduceAdd]

lemma dmaFrameIdentity_run (b : Bus) : dmaFrameIdentity b =
    if (b.skip 1).enable then
      (some ⟨(b.skip 2).pixdma.status.frameId, (b.skip 3).pixdma.status.totalChunks,
        (b.skip 4).pixdma.status.indexed⟩, b.skip 4)
    else (none, b.skip 1) := by
  rw [← Bus.skip_skip b 3 1, ← Bus.skip_skip b 2 1, ← Bus.skip_skip b 1 1, dmaFrameIdentity,
    dmaEnabled, cpu_bind, read_run]
  cases (b.skip 1).enable with
  | false => rfl
  | true => rfl

end Ledwall.Gateware
