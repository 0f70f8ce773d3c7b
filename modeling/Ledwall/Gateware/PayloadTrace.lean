import Ledwall.Gateware.Hub75UdpDma
import Ledwall.Library.Runs
import Mathlib.Data.List.GetD

/-! The bytes the DMA has taken of a payload, and what its registers then hold. -/

namespace Ledwall.Gateware

open Ledwall.Wire

namespace Header

def magics : List Byte := [0x4D, 0x57, 0x49]

/-- The header of a payload, from its bytes. -/
def ofBytes (p : List Byte) : Header :=
  let wide := p.getD 1 0 == 0x57
  { indexed := p.getD 1 0 == 0x49
    wide := wide
    frameId := p.getD 3 0 ++ p.getD 2 0
    chunkIndex := if wide then p.getD 5 0 ++ p.getD 4 0 else (p.getD 4 0).setWidth 16
    totalChunks := if wide then p.getD 7 0 ++ p.getD 6 0 else (p.getD 5 0).setWidth 16 }

def length (h : Header) : ℕ := if h.wide then 12 else 10

def stride (h : Header) : ℕ :=
  if h.indexed then 3 * PIXELS_PER_CHUNK
  else if h.wide then PIXELS_PER_CHUNK - 1 else PIXELS_PER_CHUNK

def bytesPerPixel (h : Header) : ℕ := if h.indexed then 1 else 3

/-- Header bytes taken one after another, from byte `k` on. -/
def load (h : Header) (k : ℕ) : List Byte → Header
  | [] => h
  | d :: ds => (h.take k d).load (k + 1) ds

lemma chunkPixels_eq (h : Header) :
    h.chunkPixels = BitVec.ofNat 24 (h.chunkIndex.toNat * h.stride) := by
  have hmul (n : ℕ) :
      h.chunkIndex.setWidth 24 * BitVec.ofNat 24 n = BitVec.ofNat 24 (h.chunkIndex.toNat * n) := by
    rw [BitVec.ofNat_mul, BitVec.ofNat_toNat]
  simp only [chunkPixels, stride]
  split
  · exact hmul _
  · split
    · exact hmul _
    · exact hmul _

lemma counters_le (h : Header) : (if h.wide then 8 else 6) + 2 ≤ h.length := by
  rw [length]
  split <;> decide

lemma load_append (h : Header) (k : ℕ) (ds es : List Byte) :
    h.load k (ds ++ es) = (h.load k ds).load (k + ds.length) es := by
  induction ds generalizing h k with
  | nil => rfl
  | cons d ds ih =>
    have hk : k + 1 + ds.length = k + (d :: ds).length := by
      rw [List.length_cons]
      omega
    rw [List.cons_append, load, ih, hk, load]

lemma load_concat (h : Header) (k : ℕ) (ds : List Byte) (d : Byte) :
    h.load k (ds ++ [d]) = (h.load k ds).take (k + ds.length) d := load_append h k ds [d]

lemma take_wide (h : Header) {k : ℕ} (hk : 2 ≤ k) (d : Byte) : (h.take k d).wide = h.wide := by
  simp only [take]
  split
  · omega
  all_goals rfl

lemma load_wide (h : Header) {k : ℕ} (hk : 2 ≤ k) (ds : List Byte) :
    (h.load k ds).wide = h.wide := by
  induction ds generalizing h k with
  | nil => rfl
  | cons d ds ih =>
    rw [load, ih _ (Nat.le_succ_of_le hk), take_wide h hk]

lemma take_rest (h : Header) {k : ℕ} (hk : (if h.wide then 8 else 6) ≤ k) (d : Byte) :
    h.take k d = h := by
  have h₆ : 6 ≤ k := by
    split at hk
    · omega
    · exact hk
  simp only [take]
  split
  · omega
  · omega
  · omega
  · omega
  · omega
  · omega
  · omega
  · rename_i hw
    rw [hw, if_pos rfl] at hk
    omega
  · rename_i hw
    rw [hw, if_pos rfl] at hk
    omega
  · rfl

lemma load_rest (h : Header) {k : ℕ} (hk : (if h.wide then 8 else 6) ≤ k) (ds : List Byte) :
    h.load k ds = h := by
  induction ds generalizing k with
  | nil => rfl
  | cons d ds ih => rw [load, take_rest h hk, ih (Nat.le_succ_of_le hk)]

lemma setHigh_setLow (x : BitVec 16) (d₀ d₁ : Byte) : setHigh (setLow x d₀) d₁ = d₁ ++ d₀ := by
  rw [setHigh, setLow, BitVec.extractLsb'_append_eq_right]

lemma eq_cons_of_lt_length {ds : List Byte} {n : ℕ} (h : n < ds.length) :
    ∃ d ds', ds = d :: ds' ∧ n ≤ ds'.length := by
  cases ds with
  | nil => cases h
  | cons d ds => exact ⟨d, ds, rfl, Nat.le_of_lt_succ h⟩

lemma load_complete (h₀ : Header) {m : Byte} (hm : m ∈ magics) {ds : List Byte}
    (hl : ds.length + 2 = (h₀.load 1 (m :: ds)).length) :
    h₀.load 1 (m :: ds) = ofBytes (0x42 :: m :: ds) := by
  have hwide : (h₀.load 1 (m :: ds)).wide = (h₀.take 1 m).wide := load_wide _ le_rfl ds
  rw [length, hwide] at hl
  have h₄ : 3 < ds.length := by
    split at hl <;> omega
  obtain ⟨d₂, ds, rfl, h₃⟩ := eq_cons_of_lt_length h₄
  obtain ⟨d₃, ds, rfl, h₂⟩ := eq_cons_of_lt_length h₃
  obtain ⟨d₄, ds, rfl, h₁⟩ := eq_cons_of_lt_length h₂
  obtain ⟨d₅, ds, rfl, -⟩ := eq_cons_of_lt_length h₁
  have hshort (hw : (h₀.take 1 m).wide = false) :
      h₀.load 1 ([m, d₂, d₃, d₄, d₅] ++ ds) = h₀.load 1 [m, d₂, d₃, d₄, d₅] := by
    rw [load_append]
    apply load_rest
    rw [load, load_wide _ le_rfl, hw]
    exact le_rfl
  simp only [magics, List.mem_cons, List.not_mem_nil, or_false] at hm
  rcases hm with rfl | rfl | rfl
  · refine (hshort rfl).trans ?_
    simp [load, take, ofBytes, setHigh_setLow]
  · rw [show (h₀.take 1 0x57).wide = true from rfl, if_pos rfl] at hl
    have hrest : 1 < ds.length := by
      simp only [List.length_cons] at hl
      omega
    obtain ⟨d₆, ds, rfl, hone⟩ := eq_cons_of_lt_length hrest
    obtain ⟨d₇, ds, rfl, -⟩ := eq_cons_of_lt_length hone
    have hlong : h₀.load 1 ([0x57, d₂, d₃, d₄, d₅, d₆, d₇] ++ ds) =
        h₀.load 1 [0x57, d₂, d₃, d₄, d₅, d₆, d₇] := by
      rw [load_append]
      apply load_rest
      rw [load, load_wide _ le_rfl]
      exact le_rfl
    refine hlong.trans ?_
    simp [load, take, ofBytes, setHigh_setLow]
  · refine (hshort rfl).trans ?_
    simp [load, take, ofBytes, setHigh_setLow]

end Header

/-- What has gone by: the header and the pixel bytes taken of the payload on the stream, the half its
header committed to, and what was written to its end since the last frame change, each chunk with its
`frame_id`. -/
structure Trace where
  head : List Byte := []
  body : List Byte := []
  base : BitVec 24 := sdramOffset
  written : Finset (BitVec 16 × ℕ) := ∅

namespace Trace

variable (t : Trace) (p : PixelPath) (i : Inputs)

def header : Header := .ofBytes t.head

def pixels : ℕ := t.body.length / t.header.bytesPerPixel

/-- Where in the image the next pixel belongs. -/
def offset : ℕ := t.header.chunkIndex.toNat * t.header.stride + t.pixels

def take (b : Beat) : Trace :=
  match p.dma.fsm with
  | .idle => if i.enable then { t with head := [b.data], body := [] } else t
  | .hdr => { t with head := t.head ++ [b.data], body := [] }
  | .pix =>
    { t with
      body := t.body ++ [b.data]
      written :=
        if b.last then insert (t.header.frameId, t.header.chunkIndex.toNat) t.written
        else t.written }
  | .drop => t

def next : Trace :=
  let u := match p.dma.taken i with
    | none => t
    | some b => t.take p i b
  { u with
    base := if p.dma.commits i then p.dma.writeBaseNext p.fbBaseEff i else t.base
    written := if p.dma.frameChange i then ∅ else u.written }

end Trace

section Edges

/-- The registers the FSM works on, its state aside. -/
structure Parse where
  hdrIdx : BitVec 4
  header : Header
  pixAdr : BitVec 24
  sub : BitVec 2
  r : Byte
  g : Byte

def Hub75UdpDma.parse (s : Hub75UdpDma) : Parse := ⟨s.hdrIdx, s.header, s.pixAdr, s.sub, s.r, s.g⟩

/-- Where a state that goes on to `f` goes when the beat is the payload's last. -/
def Beat.upTo (b : Beat) (f : Fsm) : Fsm := if b.last then .idle else f

/-- All that one clock edge can do to the FSM. -/
inductive Edge (s : Hub75UdpDma) (d : BitVec 20) (i : Inputs) (t : Hub75UdpDma) : Prop
  | quiet (hs : s.fsm ≠ .pix) (hk : s.taken i = none) (hf : t.fsm = s.fsm) (hp : t.parse = s.parse)
  | ignored (b : Beat) (hs : s.fsm = .idle) (hk : s.taken i = some b) (he : i.enable = false)
    (hf : t.fsm = .idle) (hp : t.parse = s.parse)
  | start (b : Beat) (hs : s.fsm = .idle) (hk : s.taken i = some b) (he : i.enable = true)
    (hb : b.data = 0x42) (hf : t.fsm = .hdr) (hp : t.parse = { s.parse with hdrIdx := 1 })
  | refused (b : Beat) (hs : s.fsm = .idle) (hk : s.taken i = some b) (he : i.enable = true)
    (hb : b.data ≠ 0x42) (hf : t.fsm = b.upTo .drop)
  | magic (b : Beat) (hs : s.fsm = .hdr) (hk : s.taken i = some b) (hi : s.hdrIdx = 1)
    (hm : b.data ∈ Header.magics) (hf : t.fsm = b.upTo .hdr)
    (hp : t.parse = { s.parse with hdrIdx := 2, header := s.header.take 1 b.data })
  | rejected (b : Beat) (hs : s.fsm = .hdr) (hk : s.taken i = some b) (hi : s.hdrIdx = 1)
    (hm : b.data ∉ Header.magics) (hf : t.fsm = b.upTo .drop)
  | field (b : Beat) (hs : s.fsm = .hdr) (hk : s.taken i = some b) (hi : s.hdrIdx ≠ 1)
    (hl : s.hdrIdx ≠ s.header.hdrLast) (hf : t.fsm = b.upTo .hdr)
    (hp : t.parse = { s.parse with
      hdrIdx := s.hdrIdx + 1, header := s.header.take s.hdrIdx.toNat b.data })
  | commit (b : Beat) (hs : s.fsm = .hdr) (hk : s.taken i = some b)
    (hl : s.hdrIdx = s.header.hdrLast) (hf : t.fsm = b.upTo .pix)
    (hp : t.parse = { s.parse with
      hdrIdx := s.hdrIdx + 1, pixAdr := s.writeBaseNext d i + s.header.chunkPixels, sub := 0 })
  | blocked (hs : s.fsm = .pix) (hk : s.taken i = none)
    (hf : t.fsm = if s.stall = STALL_LIMIT then .drop else .pix) (hp : t.parse = s.parse)
  | colour (b : Beat) (hs : s.fsm = .pix) (hk : s.taken i = some b) (he : s.emits = false)
    (hf : t.fsm = b.upTo (if s.stall = STALL_LIMIT then .drop else .pix))
    (hp : t.parse = { s.parse with
      sub := s.sub + 1
      r := if s.sub = 0 then b.data else s.r
      g := if s.sub = 0 then s.g else b.data })
  | pixel (b : Beat) (hs : s.fsm = .pix) (hk : s.taken i = some b) (he : s.emits = true)
    (hf : t.fsm = b.upTo (if s.stall = STALL_LIMIT then .drop else .pix))
    (hp : t.parse = { s.parse with sub := 0, pixAdr := s.pixAdr + 1 })
  | skipped (b : Beat) (hs : s.fsm = .drop) (hk : s.taken i = some b) (hf : t.fsm = b.upTo .drop)

variable {s : Hub75UdpDma} {d : BitVec 20} {i : Inputs} {b : Beat}

lemma next_fsm (s : Hub75UdpDma) (d : BitVec 20) (i : Inputs) :
    (s.next d i).fsm = (s.act d i).fsm := rfl

lemma next_parse (s : Hub75UdpDma) (d : BitVec 20) (i : Inputs) :
    (s.next d i).parse = (s.act d i).parse := rfl

lemma sinkReady_of_ne (hs : s.fsm ≠ .pix) (i : Inputs) : s.sinkReady i = true := by
  simp only [Hub75UdpDma.sinkReady]

lemma taken_of_ne (hs : s.fsm ≠ .pix) (i : Inputs) : s.taken i = i.sink := by
  rw [Hub75UdpDma.taken, if_pos (sinkReady_of_ne hs i)]

lemma act_idle (hs : s.fsm = .idle) (d : BitVec 20) (i : Inputs) : s.act d i = s.actIdle i := by
  simp only [Hub75UdpDma.act, hs]

lemma act_hdr (hs : s.fsm = .hdr) (d : BitVec 20) (i : Inputs) : s.act d i = s.actHdr d i := by
  simp only [Hub75UdpDma.act, hs]

lemma act_pix (hs : s.fsm = .pix) (d : BitVec 20) (i : Inputs) : s.act d i = s.actPix d i := by
  simp only [Hub75UdpDma.act, hs]

lemma act_drop (hs : s.fsm = .drop) (d : BitVec 20) (i : Inputs) : s.act d i = s.actDrop i := by
  simp only [Hub75UdpDma.act, hs]

lemma edge_idle (hs : s.fsm = .idle) : Edge s d i (s.next d i) := by
  have hne : s.fsm ≠ .pix := hs.trans_ne (by decide)
  have hk := taken_of_ne hne i
  cases hi : i.sink with
  | none =>
    refine .quiet hne (hk.trans hi) ?_ ?_
    · simp only [next_fsm, act_idle hs, Hub75UdpDma.actIdle, hi]
    · simp only [next_parse, act_idle hs, Hub75UdpDma.actIdle, hi]
  | some b =>
    cases he : i.enable with
    | false =>
      refine .ignored b hs (hk.trans hi) he ?_ ?_
      · simp only [next_fsm, act_idle hs, Hub75UdpDma.actIdle, hi, he, Bool.false_eq_true,
          if_false, hs]
      · simp only [next_parse, act_idle hs, Hub75UdpDma.actIdle, hi, he, Bool.false_eq_true,
          if_false]
    | true =>
      by_cases hb : b.data = 0x42
      · refine .start b hs (hk.trans hi) he hb ?_ ?_
        · simp only [next_fsm, act_idle hs, Hub75UdpDma.actIdle, hi, he, hb, if_true]
        · simp only [next_parse, act_idle hs, Hub75UdpDma.actIdle, hi, he, hb, if_true]
          rfl
      · refine .refused b hs (hk.trans hi) he hb ?_
        simp only [next_fsm, act_idle hs, Hub75UdpDma.actIdle, hi, he, hb, if_true, if_false,
          Beat.upTo]

lemma mem_magics_iff {m : Byte} : m ∈ Header.magics ↔ m = 0x4D ∨ m = 0x57 ∨ m = 0x49 := by
  simp only [Header.magics, List.mem_cons, List.not_mem_nil, or_false]

lemma hdrLast_ne_one (h : Header) : h.hdrLast ≠ 1 := by
  simp only [Header.hdrLast]
  split <;> decide

lemma actHdr_fsm (hi : i.sink = some b) (d : BitVec 20) :
    (s.actHdr d i).fsm = b.upTo (s.hdrByte d i b.data).fsm := by
  rw [Hub75UdpDma.actHdr, hi]
  rfl

lemma actHdr_parse (hi : i.sink = some b) (d : BitVec 20) :
    (s.actHdr d i).parse = { (s.hdrByte d i b.data).parse with
      hdrIdx := s.hdrIdx + 1, header := s.header.take s.hdrIdx.toNat b.data } := by
  rw [Hub75UdpDma.actHdr, hi]
  rfl

lemma hdrCommit_parse (s : Hub75UdpDma) (d : BitVec 20) (i : Inputs) :
    (s.hdrCommit d i).parse = { s.parse with
      pixAdr := s.writeBaseNext d i + s.header.chunkPixels, sub := 0 } := by
  rw [Hub75UdpDma.hdrCommit]
  split <;> rfl

lemma edge_hdr (hs : s.fsm = .hdr) : Edge s d i (s.next d i) := by
  have hne : s.fsm ≠ .pix := hs.trans_ne (by decide)
  have hk := taken_of_ne hne i
  cases hi : i.sink with
  | none =>
    refine .quiet hne (hk.trans hi) ?_ ?_
    · simp only [next_fsm, act_hdr hs, Hub75UdpDma.actHdr, hi]
    · simp only [next_parse, act_hdr hs, Hub75UdpDma.actHdr, hi]
  | some b =>
    have hf : (s.next d i).fsm = b.upTo (s.hdrByte d i b.data).fsm := by
      rw [next_fsm, act_hdr hs, actHdr_fsm hi]
    have hp : (s.next d i).parse = { (s.hdrByte d i b.data).parse with
        hdrIdx := s.hdrIdx + 1, header := s.header.take s.hdrIdx.toNat b.data } := by
      rw [next_parse, act_hdr hs, actHdr_parse hi]
    by_cases h₁ : s.hdrIdx = 1
    · rw [Hub75UdpDma.hdrByte, if_pos h₁] at hf hp
      by_cases hm : b.data ∈ Header.magics
      · rw [Hub75UdpDma.hdrReject, if_pos (mem_magics_iff.mp hm)] at hf hp
        rw [h₁] at hp
        exact .magic b hs (hk.trans hi) h₁ hm (by rw [hf, hs]) hp
      · have hrej : (s.hdrReject b.data).fsm = .drop := by
          rw [Hub75UdpDma.hdrReject, if_neg (mt mem_magics_iff.mpr hm)]
          split <;> rfl
        rw [hrej] at hf
        exact .rejected b hs (hk.trans hi) h₁ hm hf
    · by_cases hl : s.hdrIdx = s.header.hdrLast
      · rw [Hub75UdpDma.hdrByte, if_neg h₁, if_pos hl] at hf hp
        have hrest : s.header.take s.hdrIdx.toNat b.data = s.header := by
          apply Header.take_rest
          rw [hl, Header.hdrLast]
          split <;> decide
        rw [hdrCommit_parse, hrest] at hp
        exact .commit b hs (hk.trans hi) hl hf hp
      · rw [Hub75UdpDma.hdrByte, if_neg h₁, if_neg hl] at hf hp
        have hsame : ∀ t : Hub75UdpDma, t = (if s.hdrIdx = 4 then
            { s with counters.lastChunk := b.data } else s) → t.fsm = s.fsm ∧ t.parse = s.parse := by
          rintro t rfl
          split <;> exact ⟨rfl, rfl⟩
        obtain ⟨hsf, hsp⟩ := hsame _ rfl
        rw [hsf, hs] at hf
        rw [hsp] at hp
        exact .field b hs (hk.trans hi) h₁ hl hf hp

lemma actPix_parse (hk : s.taken i = some b) (d : BitVec 20) :
    (s.actPix d i).parse = (s.pixByte d i b.data).parse := by
  rw [Hub75UdpDma.actPix, hk]
  rfl

lemma pixByte_emits (he : s.emits = true) (d : BitVec 20) (i : Inputs) (x : Byte) :
    (s.pixByte d i x).parse = { s.parse with sub := 0, pixAdr := s.pixAdr + 1 } := by
  rw [Hub75UdpDma.pixByte, if_pos he]
  rfl

lemma pixByte_colour (he : s.emits = false) (d : BitVec 20) (i : Inputs) (x : Byte) :
    (s.pixByte d i x).parse = { s.parse with
      sub := s.sub + 1, r := if s.sub = 0 then x else s.r, g := if s.sub = 0 then s.g else x } := by
  rw [Hub75UdpDma.pixByte, if_neg (Bool.not_eq_true _ ▸ he)]
  by_cases h₀ : s.sub = 0
  · rw [if_pos h₀, if_pos h₀, if_pos h₀]
    rfl
  · rw [if_neg h₀, if_neg h₀, if_neg h₀]
    rfl

lemma edge_pix (hs : s.fsm = .pix) : Edge s d i (s.next d i) := by
  cases hk : s.taken i with
  | none =>
    have hset : s.setArrival i = false := by
      simp only [Hub75UdpDma.setArrival, hk, Option.any_none, Bool.and_false]
    refine .blocked hs hk ?_ ?_
    · simp only [next_fsm, act_pix hs, Hub75UdpDma.actPix, hset, Bool.false_eq_true, if_false,
        beq_iff_eq]
    · rw [next_parse, act_pix hs, Hub75UdpDma.actPix, hk]
      rfl
  | some b =>
    have hset : s.setArrival i = b.last := by
      simp only [Hub75UdpDma.setArrival, hk, hs, beq_self_eq_true, Bool.true_and, Option.any_some]
    have hf : (s.next d i).fsm = b.upTo (if s.stall = STALL_LIMIT then .drop else .pix) := by
      simp only [next_fsm, act_pix hs, Hub75UdpDma.actPix, hset, beq_iff_eq, Beat.upTo]
    have hp := (next_parse s d i).trans ((congrArg _ (act_pix hs d i)).trans (actPix_parse hk d))
    cases he : s.emits with
    | false => exact .colour b hs hk he hf (hp.trans (pixByte_colour he d i _))
    | true => exact .pixel b hs hk he hf (hp.trans (pixByte_emits he d i _))

lemma edge_drop (hs : s.fsm = .drop) : Edge s d i (s.next d i) := by
  have hne : s.fsm ≠ .pix := hs.trans_ne (by decide)
  have hk := taken_of_ne hne i
  cases hi : i.sink with
  | none =>
    refine .quiet hne (hk.trans hi) ?_ ?_
    · simp only [next_fsm, act_drop hs, Hub75UdpDma.actDrop, hi]
    · simp only [next_parse, act_drop hs, Hub75UdpDma.actDrop, hi]
  | some b =>
    refine .skipped b hs (hk.trans hi) ?_
    simp only [next_fsm, act_drop hs, Hub75UdpDma.actDrop, hi, Beat.upTo]

theorem edge (s : Hub75UdpDma) (d : BitVec 20) (i : Inputs) : Edge s d i (s.next d i) := by
  cases hs : s.fsm with
  | idle => exact edge_idle hs
  | hdr => exact edge_hdr hs
  | pix => exact edge_pix hs
  | drop => exact edge_drop hs

end Edges

/-- The registers while a header is taken. -/
structure InHeader (q : Parse) (head : List Byte) : Prop where
  bytes : ∃ ds, head = 0x42 :: ds ∧ (∃ h₀ : Header, q.header = h₀.load 1 ds) ∧
    ∀ m ∈ ds.head?, m ∈ Header.magics
  idx : q.hdrIdx.toNat = head.length
  idx_le : q.hdrIdx.toNat ≤ q.header.hdrLast.toNat

/-- The registers while the pixels are taken. -/
structure InPixels (q : Parse) (t : Trace) : Prop where
  magic : ∃ m ∈ Header.magics, ∃ ds, t.head = 0x42 :: m :: ds
  length : t.head.length = t.header.length
  header : q.header = t.header
  pixAdr : q.pixAdr = t.base + BitVec.ofNat 24 t.offset
  sub : q.sub.toNat = if t.header.indexed then 0 else t.body.length % 3
  red : q.sub ≠ 0 → q.r = t.body.getD (t.body.length / 3 * 3) 0
  green : q.sub = 2 → q.g = t.body.getD (t.body.length / 3 * 3 + 1) 0

/-- The registers of the DMA say what the payload so far says. -/
def Reads (s : Hub75UdpDma) (t : Trace) : Prop :=
  match s.fsm with
  | .hdr => InHeader s.parse t.head
  | .pix => InPixels s.parse t
  | _ => True

section Reading

variable {t : Trace} {p : PixelPath} {i : Inputs} {b : Beat} {q : Parse}

lemma Reads.of_idle {s : Hub75UdpDma} (hs : s.fsm = .idle ∨ s.fsm = .drop) (t : Trace) :
    Reads s t := by
  rcases hs with hs | hs <;> simp only [Reads, hs]

lemma Reads.inHeader {s : Hub75UdpDma} (h : Reads s t) (hs : s.fsm = .hdr) :
    InHeader s.parse t.head := by
  simpa only [Reads, hs] using h

lemma Reads.inPixels {s : Hub75UdpDma} (h : Reads s t) (hs : s.fsm = .pix) :
    InPixels s.parse t := by
  simpa only [Reads, hs] using h

lemma InPixels.congr {u : Trace} (h : InPixels q t) (hh : u.head = t.head) (hb : u.body = t.body)
    (hbase : u.base = t.base) : InPixels q u := by
  have hheader : u.header = t.header := by rw [Trace.header, hh, Trace.header]
  have hoffset : u.offset = t.offset := by
    rw [Trace.offset, Trace.offset, Trace.pixels, Trace.pixels, hheader, hb]
  refine ⟨hh ▸ h.magic, ?_, ?_, ?_, ?_, ?_, ?_⟩
  · rw [hh, hheader]
    exact h.length
  · rw [hheader]
    exact h.header
  · rw [hbase, hoffset]
    exact h.pixAdr
  · rw [hheader, hb]
    exact h.sub
  · rw [hb]
    exact h.red
  · rw [hb]
    exact h.green

lemma Trace.next_none (hk : p.dma.taken i = none) :
    (t.next p i).head = t.head ∧ (t.next p i).body = t.body := by
  simp only [Trace.next, hk, and_self]

lemma Trace.next_some (hk : p.dma.taken i = some b) :
    (t.next p i).head = (t.take p i b).head ∧ (t.next p i).body = (t.take p i b).body := by
  simp only [Trace.next, hk, and_self]

lemma Trace.next_base (h : p.dma.commits i = false) : (t.next p i).base = t.base := by
  simp only [Trace.next, h, Bool.false_eq_true, if_false]

lemma not_commits_pix (hs : p.dma.fsm = .pix) : p.dma.commits i = false := by
  rw [Hub75UdpDma.commits, hs]
  rfl

lemma InHeader.start (q : Parse) : InHeader { q with hdrIdx := 1 } [0x42] := by
  refine ⟨⟨[], rfl, ⟨q.header, rfl⟩, fun m hm => by cases hm⟩, rfl, ?_⟩
  simp only [Header.hdrLast]
  split <;> decide

lemma InHeader.take {head : List Byte} (h : InHeader q head) {d : Byte}
    (hd : q.hdrIdx = 1 → d ∈ Header.magics) (hl : q.hdrIdx ≠ q.header.hdrLast) :
    InHeader { q with hdrIdx := q.hdrIdx + 1, header := q.header.take q.hdrIdx.toNat d }
      (head ++ [d]) := by
  obtain ⟨ds, rfl, ⟨h₀, hload⟩, hm⟩ := h.bytes
  have hidx := h.idx
  have hle := h.idx_le
  have hlast : q.header.hdrLast.toNat ≤ 11 ∧ 9 ≤ q.header.hdrLast.toNat := by
    rw [Header.hdrLast]
    split <;> decide
  have hlt : q.hdrIdx.toNat < q.header.hdrLast.toNat :=
    lt_of_le_of_ne hle fun he => hl (BitVec.eq_of_toNat_eq he)
  have hsucc : (q.hdrIdx + 1).toNat = q.hdrIdx.toNat + 1 := by
    rw [BitVec.toNat_add]
    change (q.hdrIdx.toNat + 1) % 16 = _
    omega
  refine ⟨⟨ds ++ [d], rfl, ⟨h₀, ?_⟩, ?_⟩, ?_, ?_⟩
  · rw [Header.load_concat, ← hload, hidx, List.length_cons, Nat.add_comm]
  · cases ds with
    | nil =>
      intro m hm
      cases hm
      exact hd (BitVec.eq_of_toNat_eq hidx)
    | cons e ds => exact hm
  · rw [hsucc, hidx, List.length_append]
    rfl
  · rw [hsucc]
    by_cases h₁ : q.hdrIdx.toNat = 1
    · rw [h₁]
      simp only [Header.hdrLast]
      split <;> decide
    · have hpos : q.hdrIdx.toNat ≠ 0 := by
        rw [hidx]
        exact Nat.succ_ne_zero _
      have hwide := q.header.take_wide (k := q.hdrIdx.toNat) (by omega) d
      simp only [Header.hdrLast, hwide] at hlt ⊢
      exact hlt

lemma length_of_hdrLast (h : Header) : h.hdrLast.toNat + 1 = h.length := by
  simp only [Header.hdrLast, Header.length]
  split <;> rfl

lemma InHeader.commit {head : List Byte} (h : InHeader q head)
    (hl : q.hdrIdx = q.header.hdrLast) (d : Byte) (base : BitVec 24) {u : Trace}
    (hh : u.head = head ++ [d]) (hb : u.body = []) (hbase : u.base = base) :
    InPixels { q with
      hdrIdx := q.hdrIdx + 1, pixAdr := base + q.header.chunkPixels, sub := 0 } u := by
  obtain ⟨ds, rfl, ⟨h₀, hload⟩, hm⟩ := h.bytes
  have hidx := h.idx
  have hlast := length_of_hdrLast q.header
  rw [← hl, hidx, List.length_cons] at hlast
  have hnine : 9 ≤ q.hdrIdx.toNat := by
    rw [hl, Header.hdrLast]
    split <;> decide
  cases ds with
  | nil =>
    rw [hidx] at hnine
    exact absurd hnine (by decide)
  | cons m ds =>
    have hmagic : m ∈ Header.magics := hm m rfl
    have hrest : q.header = h₀.load 1 (m :: (ds ++ [d])) := by
      rw [← List.cons_append, Header.load_concat, ← hload]
      refine (Header.take_rest _ ?_ d).symm
      have hle := q.header.counters_le
      omega
    have hlength : (ds ++ [d]).length + 2 = (h₀.load 1 (m :: (ds ++ [d]))).length := by
      rw [← hrest, ← hlast]
      simp only [List.length_append, List.length_cons, List.length_nil]
    have hcomplete := Header.load_complete h₀ hmagic hlength
    have hheader : q.header = u.header := by
      rw [hrest, hcomplete, Trace.header, hh]
      rfl
    refine ⟨⟨m, hmagic, ds ++ [d], hh⟩, ?_, hheader, ?_, ?_, ?_, ?_⟩
    · rw [hh, ← hheader, ← hlast]
      simp only [List.length_append, List.length_cons, List.length_nil]
    · rw [hbase, Trace.offset, Trace.pixels, hb, List.length_nil, Nat.zero_div, Nat.add_zero,
        ← hheader]
      exact congrArg (base + ·) q.header.chunkPixels_eq
    · rw [hb]
      split <;> rfl
    · intro hn
      exact absurd rfl hn
    · intro hn
      change (0 : BitVec 2) = 2 at hn
      exact absurd hn (by decide)

lemma InPixels.colour (h : InPixels q t) (he : q.header.indexed = false) (h₂ : q.sub ≠ 2) (d : Byte)
    {u : Trace} (hh : u.head = t.head) (hb : u.body = t.body ++ [d]) (hbase : u.base = t.base) :
    InPixels { q with
      sub := q.sub + 1, r := if q.sub = 0 then d else q.r, g := if q.sub = 0 then q.g else d } u := by
  have hheader : u.header = t.header := by rw [Trace.header, hh, Trace.header]
  have hrgb : t.header.indexed = false := h.header ▸ he
  have hsub := h.sub
  rw [hrgb, if_neg Bool.false_ne_true] at hsub
  have hbpp : t.header.bytesPerPixel = 3 := by rw [Header.bytesPerPixel, hrgb]; rfl
  have hlen : u.body.length = t.body.length + 1 := by
    rw [hb, List.length_append]
    rfl
  have hne : t.body.length % 3 ≠ 2 := by
    intro he
    exact h₂ (BitVec.eq_of_toNat_eq (hsub.trans he))
  have hdiv : (t.body.length + 1) / 3 = t.body.length / 3 := by omega
  have hsucc : (q.sub + 1).toNat = t.body.length % 3 + 1 := by
    rw [BitVec.toNat_add, hsub]
    change (_ + 1) % 4 = _
    omega
  have hcase : q.sub = 0 ∧ t.body.length % 3 = 0 ∨ q.sub ≠ 0 ∧ t.body.length % 3 = 1 := by
    by_cases h₀ : q.sub = 0
    · left
      rw [h₀] at hsub
      exact ⟨h₀, hsub.symm⟩
    · right
      have : q.sub.toNat ≠ 0 := fun hz => h₀ (BitVec.eq_of_toNat_eq hz)
      exact ⟨h₀, by omega⟩
  refine ⟨hh ▸ h.magic, ?_, ?_, ?_, ?_, ?_, ?_⟩
  · rw [hh, hheader]
    exact h.length
  · rw [hheader]
    exact h.header
  · rw [hbase, h.pixAdr, Trace.offset, Trace.offset, Trace.pixels, Trace.pixels, hheader, hbpp, hlen,
      hdiv]
  · rw [hheader, hrgb, if_neg Bool.false_ne_true, hlen]
    exact hsucc.trans (by omega)
  · intro _
    change (if q.sub = 0 then d else q.r) = _
    rw [hlen, hdiv, hb]
    rcases hcase with ⟨h₀, hm⟩ | ⟨h₀, hm⟩
    · have hend : t.body.length / 3 * 3 = t.body.length := by omega
      rw [if_pos h₀, hend, List.getD_append_right _ _ _ _ le_rfl, Nat.sub_self]
      rfl
    · rw [if_neg h₀, h.red h₀, List.getD_append _ _ _ _ (by omega)]
  · intro htwo
    change q.sub + 1 = 2 at htwo
    change (if q.sub = 0 then q.g else d) = _
    rw [hlen, hdiv, hb]
    rcases hcase with ⟨h₀, hm⟩ | ⟨h₀, hm⟩
    · rw [h₀] at htwo
      exact absurd htwo (by decide)
    · have hend : t.body.length / 3 * 3 + 1 = t.body.length := by omega
      rw [if_neg h₀, hend, List.getD_append_right _ _ _ _ le_rfl, Nat.sub_self]
      rfl

lemma InPixels.pixels_succ (h : InPixels q t) (he : q.header.indexed = true ∨ q.sub = 2) :
    (t.body.length + 1) / t.header.bytesPerPixel = t.pixels + 1 ∧
      (t.header.indexed = false → t.body.length % 3 = 2) := by
  have hsub := h.sub
  rw [h.header] at he
  rw [Trace.pixels, Header.bytesPerPixel]
  cases hi : t.header.indexed with
  | true =>
    simp only [if_true, Nat.div_one, true_and]
    intro hf
    cases hf
  | false =>
    rw [hi, if_neg Bool.false_ne_true] at hsub
    have htwo : q.sub = 2 := he.resolve_left (by simp only [hi, Bool.false_eq_true, not_false_eq_true])
    rw [htwo] at hsub
    have hmod : t.body.length % 3 = 2 := hsub.symm
    simp only [Bool.false_eq_true, if_false]
    exact ⟨by omega, fun _ => hmod⟩

lemma InPixels.pixel (h : InPixels q t) (he : q.header.indexed = true ∨ q.sub = 2) (d : Byte)
    {u : Trace} (hh : u.head = t.head) (hb : u.body = t.body ++ [d]) (hbase : u.base = t.base) :
    InPixels { q with sub := 0, pixAdr := q.pixAdr + 1 } u := by
  have hheader : u.header = t.header := by rw [Trace.header, hh, Trace.header]
  obtain ⟨hpixels, hmod⟩ := h.pixels_succ he
  have hlen : u.body.length = t.body.length + 1 := by
    rw [hb, List.length_append]
    rfl
  refine ⟨hh ▸ h.magic, ?_, ?_, ?_, ?_, ?_, ?_⟩
  · rw [hh, hheader]
    exact h.length
  · rw [hheader]
    exact h.header
  · have hoffset : u.offset = t.offset + 1 := by
      rw [Trace.offset, Trace.pixels, hheader, hlen, hpixels, Trace.offset, Nat.add_assoc]
    change q.pixAdr + 1 = _
    rw [hbase, hoffset, h.pixAdr, BitVec.ofNat_add, BitVec.add_assoc]
    rfl
  · rw [hheader, hlen]
    split
    · rfl
    · rename_i hi
      have := hmod (by simpa using hi)
      change 0 = _
      omega
  · intro hn
    exact absurd rfl hn
  · intro hn
    change (0 : BitVec 2) = 2 at hn
    exact absurd hn (by decide)

lemma Reads.upTo {s : Hub75UdpDma} {f : Fsm} (hf : s.fsm = b.upTo f) (h : s.fsm = f → Reads s t) :
    Reads s t := by
  rw [Beat.upTo] at hf
  split at hf
  · exact .of_idle (.inl hf) t
  · exact h hf

lemma Trace.take_hdr (hs : p.dma.fsm = .hdr) (t : Trace) (i : Inputs) (b : Beat) :
    (t.take p i b).head = t.head ++ [b.data] ∧ (t.take p i b).body = [] := by
  simp only [Trace.take, hs, and_self]

lemma Trace.take_pix (hs : p.dma.fsm = .pix) (t : Trace) (i : Inputs) (b : Beat) :
    (t.take p i b).head = t.head ∧ (t.take p i b).body = t.body ++ [b.data] := by
  simp only [Trace.take, hs, and_self]

lemma emits_iff (s : Hub75UdpDma) :
    s.emits = true ↔ s.parse.header.indexed = true ∨ s.parse.sub = 2 := by
  simp only [Hub75UdpDma.emits, Bool.or_eq_true, beq_iff_eq]
  rfl

/-- The registers keep saying what the payload says. -/
theorem Reads.next (hr : Reads p.dma t) (i : Inputs) :
    Reads (p.dma.next p.fbBaseEff i) (t.next p i) := by
  cases edge p.dma p.fbBaseEff i with
  | quiet hs hk hf hp =>
    obtain ⟨hh, -⟩ := Trace.next_none (t := t) hk
    simp only [Reads, hf, hp, hh] at hr ⊢
    split at hr
    · exact hr
    · rename_i hpix
      exact absurd hpix hs
    · trivial
  | ignored b hs hk he hf hp => exact .of_idle (.inl hf) _
  | start b hs hk he hb hf hp =>
    obtain ⟨hh, -⟩ := Trace.next_some (t := t) hk
    simp only [Reads, hf, hp, hh, Trace.take, hs, he, if_true, hb]
    exact .start _
  | refused b hs hk he hb hf => exact .upTo hf fun hf => .of_idle (.inr hf) _
  | magic b hs hk hi hm hf hp =>
    refine .upTo hf fun hf => ?_
    obtain ⟨hh, -⟩ := Trace.next_some (t := t) hk
    have hin := (hr.inHeader hs).take (d := b.data) (fun _ => hm) (hi.trans_ne (hdrLast_ne_one _).symm)
    simp only [Reads, hf, hp, hh, (Trace.take_hdr hs t i b).1]
    have hi : p.dma.parse.hdrIdx = 1 := hi
    rw [hi] at hin
    exact hin
  | rejected b hs hk hi hm hf => exact .upTo hf fun hf => .of_idle (.inr hf) _
  | field b hs hk hi hl hf hp =>
    refine .upTo hf fun hf => ?_
    obtain ⟨hh, -⟩ := Trace.next_some (t := t) hk
    simp only [Reads, hf, hp, hh, (Trace.take_hdr hs t i b).1]
    exact (hr.inHeader hs).take (fun h => absurd h hi) hl
  | commit b hs hk hl hf hp =>
    refine .upTo hf fun hf => ?_
    obtain ⟨hh, hb⟩ := Trace.next_some (t := t) hk
    obtain ⟨hh', hb'⟩ := Trace.take_hdr hs t i b
    have hcommits : p.dma.commits i = true := by
      rw [taken_of_ne (hs.trans_ne (by decide))] at hk
      simp only [Hub75UdpDma.commits, hs, hk, hl, Option.isSome_some, BEq.rfl, Bool.and_self]
    simp only [Reads, hf, hp]
    refine (hr.inHeader hs).commit hl b.data _ (hh.trans hh') (hb.trans hb') ?_
    simp only [Trace.next, hcommits, if_true]
  | blocked hs hk hf hp =>
    obtain ⟨hh, hb⟩ := Trace.next_none (t := t) hk
    split at hf
    · exact .of_idle (.inr hf) _
    · simp only [Reads, hf, hp]
      exact (hr.inPixels hs).congr hh hb (Trace.next_base (not_commits_pix hs))
  | colour b hs hk he hf hp =>
    refine .upTo hf fun hf => ?_
    split at hf
    · exact .of_idle (.inr hf) _
    · obtain ⟨hh, hb⟩ := Trace.next_some (t := t) hk
      obtain ⟨hh', hb'⟩ := Trace.take_pix hs t i b
      have hne : ¬ (p.dma.parse.header.indexed = true ∨ p.dma.parse.sub = 2) := by
        rw [← emits_iff, he]
        exact Bool.false_ne_true
      simp only [Reads, hf, hp]
      refine (hr.inPixels hs).colour ?_ (fun h => hne (.inr h)) b.data (hh.trans hh') (hb.trans hb')
        (Trace.next_base (not_commits_pix hs))
      exact Bool.not_eq_true _ ▸ fun h => hne (.inl h)
  | pixel b hs hk he hf hp =>
    refine .upTo hf fun hf => ?_
    split at hf
    · exact .of_idle (.inr hf) _
    · obtain ⟨hh, hb⟩ := Trace.next_some (t := t) hk
      obtain ⟨hh', hb'⟩ := Trace.take_pix hs t i b
      simp only [Reads, hf, hp]
      exact (hr.inPixels hs).pixel ((emits_iff _).mp he) b.data (hh.trans hh') (hb.trans hb')
        (Trace.next_base (not_commits_pix hs))
  | skipped b hs hk hf => exact .upTo hf fun hf => .of_idle (.inr hf) _

end Reading

/-- The pixel path with what has gone by. -/
structure Watched where
  path : PixelPath := {}
  trace : Trace := {}

namespace Watched

open Ledwall.Library.Runs

def next (w : Watched) (i : Inputs) : Watched := ⟨w.path.next i, w.trace.next w.path i⟩

def Step (w : Watched) (i : Inputs) (w' : Watched) : Prop := w' = w.next i

def after (w : Watched) (is : List Inputs) : Watched := is.foldl next w

lemma run_after (w : Watched) (is : List Inputs) : Run Step w is (w.after is) := by
  induction is generalizing w with
  | nil => exact .nil w
  | cons i is ih => exact .cons rfl (ih (w.next i))

end Watched

def beats : List Byte → List Beat
  | [] => []
  | d :: ds => ⟨d, ds.isEmpty⟩ :: beats ds

/-- A payload at one byte a cycle, the writer always ready. -/
def feed (limit : BitVec 24) (payload : List Byte) : List Inputs :=
  (beats payload).map fun b => ⟨some b, true, true, limit, 0, true, false, false, none⟩

end Ledwall.Gateware
