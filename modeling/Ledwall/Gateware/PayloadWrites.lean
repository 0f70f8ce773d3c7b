import Ledwall.Gateware.Framing

/-! What the DMA writes of one payload that is never stalled. -/

namespace Ledwall.Gateware

open Ledwall.Wire

/-- A pixel payload with its header complete. -/
def IsPixels (p : List Byte) : Prop :=
  p.getD 0 0 = 0x42 ∧ p.getD 1 0 ∈ Header.magics ∧ (Header.ofBytes p).length ≤ p.length

local instance : LawfulBEq Byte := inferInstance

instance (p : List Byte) : Decidable (IsPixels p) :=
  inferInstanceAs (Decidable (p.getD 0 0 = 0x42 ∧ p.getD 1 0 ∈ Header.magics ∧
    (Header.ofBytes p).length ≤ p.length))

/-- The pixels a payload holds whole. -/
def pixelCount (p : List Byte) : ℕ :=
  if IsPixels p then (p.length - (Header.ofBytes p).length) / (Header.ofBytes p).bytesPerPixel else 0

def Header.wordAt (h : Header) (body : List Byte) (k : ℕ) : BitVec 32 :=
  if h.indexed then (body.getD k 0).setWidth 32
  else (body.getD (k * 3 + 2) 0 ++ body.getD (k * 3 + 1) 0 ++ body.getD (k * 3) 0).setWidth 32

/-- The address of pixel `k` of a payload whose header committed to `base`. -/
def pixelAddress (p : List Byte) (base : BitVec 24) (k : ℕ) : ℕ :=
  (base.toNat + ((Header.ofBytes p).chunkIndex.toNat * (Header.ofBytes p).stride + k)) % 2 ^ 24

/-- Pixel `k` as it is written, unless it is out of range: its distance from the base, its word. -/
def cell (p : List Byte) (base limit : BitVec 24) (k : ℕ) : Option (ℤ × BitVec 32) :=
  if pixelAddress p base k < base.toNat + limit.toNat then
    some ((pixelAddress p base k : ℤ) - base.toNat,
      (Header.ofBytes p).wordAt (p.drop (Header.ofBytes p).length) k)
  else none

namespace Watched

/-- The words written along the inputs, each with its distance from the base of its chunk. -/
def draws : Watched → List Inputs → List (ℤ × BitVec 32)
  | _, [] => []
  | w, i :: is =>
    ((w.path.write i).map fun x => ((x.1.toNat : ℤ) - w.trace.base.toNat, x.2)).toList ++
      (w.next i).draws is

/-- A cycle of a payload that is never stalled: the DMA is on, and the CPU leaves its half alone. -/
structure Calm (limit : BitVec 24) (w : Watched) (i : Inputs) : Prop where
  enable : i.enable = true
  limit_eq : i.limit = limit
  fbBase : i.fbBase = none
  stall : w.path.dma.stall ≠ STALL_LIMIT

/-- The beats go in along the cycles, the writer as slow as it likes. -/
inductive Takes (limit : BitVec 24) : Watched → List Beat → List Inputs → Prop
  | done (w) : Takes limit w [] []
  | wait {w bs i is} (hc : Calm limit w i) (hk : w.path.dma.taken i = none)
    (h : Takes limit (w.next i) bs is) : Takes limit w bs (i :: is)
  | beat {w b bs i is} (hc : Calm limit w i) (hk : w.path.dma.taken i = some b)
    (h : Takes limit (w.next i) bs is) : Takes limit w (b :: bs) (i :: is)

variable {limit : BitVec 24} {w : Watched} {b : Beat} {bs : List Beat} {i : Inputs}
  {is : List Inputs} {ds : List Byte}

lemma write_of_ne (hs : w.path.dma.fsm ≠ .pix) (i : Inputs) : w.path.write i = none := by
  rw [PixelPath.write, Hub75UdpDma.writes, Hub75UdpDma.progress, beq_eq_false_iff_ne.mpr hs]
  rfl

lemma write_of_none (hk : w.path.dma.taken i = none) : w.path.write i = none := by
  rw [PixelPath.write, hk]
  split <;> rfl

lemma draws_cons_none (hw : w.path.write i = none) : w.draws (i :: is) = (w.next i).draws is := by
  rw [draws, hw]
  rfl

lemma Calm.wait (hc : Calm limit w i) (hk : w.path.dma.taken i = none) :
    (w.next i).path.dma.fsm = w.path.dma.fsm := by
  have hg := next_goes w.path.dma w.path.fbBaseEff i
  rw [Hub75UdpDma.goes, hk] at hg
  refine hg.trans (if_neg ?_)
  rintro ⟨-, hs⟩
  exact hc.stall hs

lemma next_base_of_not_commits (hn : w.path.dma.commits i = false) :
    (w.next i).trace.base = w.trace.base := Trace.next_base hn

lemma commits_of_none (hs : w.path.dma.fsm ≠ .pix) (hk : w.path.dma.taken i = none) :
    w.path.dma.commits i = false := by
  rw [taken_of_ne hs] at hk
  rw [Hub75UdpDma.commits, hk, Option.isSome_none, Bool.and_false, Bool.false_and]

lemma Takes.none_left (h : Takes limit w bs is) (hb : bs = []) (hs : w.path.dma.fsm ≠ .pix) :
    w.draws is = [] ∧ (w.after is).trace.base = w.trace.base := by
  induction h with
  | done w => exact ⟨rfl, rfl⟩
  | wait hc hk h ih =>
    obtain ⟨hd, hbase⟩ := ih hb ((hc.wait hk).trans_ne hs)
    refine ⟨(draws_cons_none (write_of_none hk)).trans hd, hbase.trans ?_⟩
    exact next_base_of_not_commits (commits_of_none hs hk)
  | beat hc hk h ih => cases hb

lemma upTo_ne {f g : Fsm} (hf : f ≠ g) (hg : g ≠ .idle) : b.upTo f ≠ g := by
  rw [Beat.upTo]
  split
  · exact hg.symm
  · exact hf

lemma goes_of_some (hk : w.path.dma.taken i = some b) (hs : w.path.dma.fsm = .drop) :
    (w.next i).path.dma.fsm = b.upTo .drop := by
  have hg := next_goes w.path.dma w.path.fbBaseEff i
  simp only [Hub75UdpDma.goes, hk, hs] at hg
  exact hg

lemma Takes.dropped (h : Takes limit w bs is) (hb : bs = beats ds) (hs : w.path.dma.fsm = .drop) :
    w.draws is = [] := by
  induction h generalizing ds with
  | done w => rfl
  | wait hc hk h ih =>
    rw [draws_cons_none (write_of_none hk)]
    exact ih hb ((hc.wait hk).trans hs)
  | @beat w b bs i is hc hk h ih =>
    rw [draws_cons_none (write_of_ne (hs.trans_ne (by decide)) _)]
    have hg := goes_of_some hk hs
    cases ds with
    | nil => cases hb
    | cons d ds =>
      obtain ⟨rfl, rfl⟩ := List.cons.inj hb
      cases ds with
      | nil => exact (h.none_left rfl (hg.trans_ne (upTo_ne (by decide) (by decide)))).1
      | cons e ds => exact ih rfl hg

/-- Taking the pixels of a payload, in the half its header committed to. -/
structure Drawing (w : Watched) : Prop where
  fsm : w.path.dma.fsm = .pix
  pixels : InPixels w.path.dma.parse w.trace
  base : writeBase w.path.fbBaseEff = w.trace.base

lemma Drawing.next_path_base (h : Drawing w) (hc : Calm limit w i) :
    (w.next i).path.fbBaseEff = w.path.fbBaseEff := by
  change w.path.nextBase i = _
  rw [PixelPath.nextBase, hc.fbBase, Hub75UdpDma.swapReq,
    not_frameChange (not_commits_pix h.fsm), Bool.false_and, Bool.and_false]
  rfl

lemma Drawing.next (h : Drawing w) (hc : Calm limit w i)
    (hs : (w.next i).path.dma.fsm = .pix) : Drawing (w.next i) := by
  refine ⟨hs, ?_, ?_⟩
  · have hr : Reads w.path.dma w.trace := by
      simp only [Reads, h.fsm]
      exact h.pixels
    exact (hr.next i).inPixels hs
  · rw [h.next_path_base hc, h.base]
    exact (next_base_of_not_commits (not_commits_pix h.fsm)).symm

lemma Drawing.next_trace (h : Drawing w) (hk : w.path.dma.taken i = some b) :
    (w.next i).trace.head = w.trace.head ∧ (w.next i).trace.body = w.trace.body ++ [b.data] ∧
      (w.next i).trace.base = w.trace.base := by
  obtain ⟨hh, hb⟩ := Trace.next_some (t := w.trace) hk
  obtain ⟨hh', hb'⟩ := Trace.take_pix h.fsm w.trace i b
  exact ⟨hh.trans hh', hb.trans hb', next_base_of_not_commits (not_commits_pix h.fsm)⟩

lemma Drawing.next_fsm (h : Drawing w) (hc : Calm limit w i)
    (hk : w.path.dma.taken i = some b) : (w.next i).path.dma.fsm = b.upTo .pix := by
  have hg := next_goes w.path.dma w.path.fbBaseEff i
  simp only [Hub75UdpDma.goes, hk, h.fsm, if_neg hc.stall] at hg
  exact hg

lemma ofBytes_append {head : List Byte} (h : 8 ≤ head.length) (ds : List Byte) :
    Header.ofBytes (head ++ ds) = .ofBytes head := by
  have hget (k : ℕ) (hk : k < 8) : (head ++ ds).getD k 0 = head.getD k 0 :=
    List.getD_append _ _ _ _ (hk.trans_le h)
  simp only [Header.ofBytes, hget 1 (by decide), hget 2 (by decide), hget 3 (by decide),
    hget 4 (by decide), hget 5 (by decide), hget 6 (by decide), hget 7 (by decide)]

lemma eight_le_length (h : Header) : 8 ≤ h.length := by
  rw [Header.length]
  split <;> decide

lemma eight_le_head {q : Parse} {t : Trace} (h : InPixels q t) : 8 ≤ t.head.length :=
  (eight_le_length _).trans_eq h.length.symm

/-- The payload of which the trace has gone by and the rest is to come. -/
def full (w : Watched) (ds : List Byte) : List Byte := w.trace.head ++ (w.trace.body ++ ds)

lemma Drawing.header_full (h : Drawing w) (ds : List Byte) :
    Header.ofBytes (w.full ds) = w.trace.header := ofBytes_append (eight_le_head h.pixels) _

lemma Drawing.drop_full (h : Drawing w) (ds : List Byte) :
    (w.full ds).drop (Header.ofBytes (w.full ds)).length = w.trace.body ++ ds := by
  rw [h.header_full, ← h.pixels.length, full, List.drop_left]

lemma Drawing.pixAdr (h : Drawing w) (ds : List Byte) :
    w.path.dma.pixAdr.toNat = pixelAddress (w.full ds) w.trace.base w.trace.pixels := by
  rw [pixelAddress, h.header_full, show w.path.dma.pixAdr = _ from h.pixels.pixAdr,
    BitVec.toNat_add, BitVec.toNat_ofNat, Nat.add_mod_mod]
  rfl

lemma Drawing.word (h : Drawing w) (he : w.path.dma.emits = true) (d : Byte) (ds : List Byte) :
    w.path.dma.word d =
      (Header.ofBytes (w.full (d :: ds))).wordAt
        ((w.full (d :: ds)).drop (Header.ofBytes (w.full (d :: ds))).length) w.trace.pixels := by
  rw [h.drop_full, h.header_full]
  have hq : w.path.dma.header = w.trace.header := h.pixels.header
  obtain ⟨-, hmod⟩ := h.pixels.pixels_succ ((emits_iff _).mp he)
  rw [Hub75UdpDma.word, Header.wordAt, hq, Trace.pixels, Header.bytesPerPixel]
  cases hi : w.trace.header.indexed with
  | true =>
    simp only [if_true, Nat.div_one]
    rw [List.getD_append_right _ _ _ _ le_rfl, Nat.sub_self]
    rfl
  | false =>
    simp only [Bool.false_eq_true, if_false]
    have htwo : w.path.dma.parse.sub = 2 :=
      ((emits_iff _).mp he).resolve_left fun hx => by
        rw [show w.path.dma.parse.header = _ from hq, hi] at hx
        cases hx
    have hne : w.path.dma.parse.sub ≠ 0 := htwo.trans_ne (by decide)
    have hm := hmod hi
    have hr := h.pixels.red hne
    have hg := h.pixels.green htwo
    rw [List.getD_append _ _ _ (_ * 3) (by omega), List.getD_append _ _ _ (_ * 3 + 1) (by omega),
      List.getD_append_right _ _ _ (_ * 3 + 2) (by omega), ← hr, ← hg]
    have hend : w.trace.body.length / 3 * 3 + 2 - w.trace.body.length = 0 := by omega
    rw [hend]
    rfl

lemma Drawing.write (h : Drawing w) (hc : Calm limit w i) (hk : w.path.dma.taken i = some b)
    (ds : List Byte) :
    ((w.path.write i).map fun x => ((x.1.toNat : ℤ) - w.trace.base.toNat, x.2)).toList =
      (List.range' w.trace.pixels
        ((w.trace.body.length + 1) / w.trace.header.bytesPerPixel - w.trace.pixels)).filterMap
        (cell (w.full (b.data :: ds)) w.trace.base limit) := by
  have hprogress : w.path.dma.progress i = true := by
    rw [Hub75UdpDma.progress, h.fsm, hk]
    rfl
  rw [PixelPath.write, Hub75UdpDma.writes, hprogress, Bool.true_and, hk]
  cases he : w.path.dma.emits with
  | true =>
    obtain ⟨hsucc, -⟩ := h.pixels.pixels_succ ((emits_iff _).mp he)
    rw [hsucc, Nat.add_sub_cancel_left, List.range'_one, Bool.true_and, Hub75UdpDma.inRange, h.base,
      hc.limit_eq, h.pixAdr (b.data :: ds)]
    rw [List.filterMap_cons, cell, ← h.word he]
    by_cases hr : pixelAddress (w.full (b.data :: ds)) w.trace.base w.trace.pixels <
        w.trace.base.toNat + limit.toNat
    · simp only [decide_eq_true hr, if_true, if_pos hr, Option.map_some, Option.toList_some,
        List.filterMap_nil, h.pixAdr (b.data :: ds)]
    · simp only [decide_eq_false hr, Bool.false_eq_true, if_false, if_neg hr, Option.map_none,
        Option.toList_none, List.filterMap_nil]
  | false =>
    have hsame : (w.trace.body.length + 1) / w.trace.header.bytesPerPixel = w.trace.pixels := by
      have hne : ¬ (w.path.dma.parse.header.indexed = true ∨ w.path.dma.parse.sub = 2) := by
        rw [← emits_iff, he]
        exact Bool.false_ne_true
      have hq : w.path.dma.parse.header = w.trace.header := h.pixels.header
      have hi : w.trace.header.indexed = false := by
        rw [← hq]
        exact Bool.not_eq_true _ ▸ fun hx => hne (.inl hx)
      have hsub := h.pixels.sub
      rw [hi, if_neg Bool.false_ne_true] at hsub
      have hmod : w.trace.body.length % 3 ≠ 2 := fun hm =>
        hne (.inr (BitVec.eq_of_toNat_eq (hsub.trans hm)))
      rw [Trace.pixels, Header.bytesPerPixel, hi, if_neg Bool.false_ne_true]
      omega
    rw [hsame, Nat.sub_self]
    rfl

lemma range'_append_sub {p q n : ℕ} (hp : p ≤ q) (hq : q ≤ n) :
    List.range' p (q - p) ++ List.range' q (n - q) = List.range' p (n - p) := by
  have hstart : q = p + (q - p) := by omega
  have hlen : n - p = (q - p) + (n - q) := by omega
  rw [hlen, ← List.range'_append_1, ← hstart]

lemma Takes.drawn (h : Takes limit w bs is) (hb : bs = beats ds) (hds : ds ≠ [])
    (hd : Drawing w) :
    w.draws is = (List.range' w.trace.pixels
      ((w.trace.body.length + ds.length) / w.trace.header.bytesPerPixel - w.trace.pixels)).filterMap
        (cell (w.full ds) w.trace.base limit) ∧
    (w.after is).trace.base = w.trace.base := by
  induction h generalizing ds with
  | done w =>
    cases ds with
    | nil => exact absurd rfl hds
    | cons d ds => cases hb
  | @wait w bs i is hc hk h ih =>
    have hbase := next_base_of_not_commits (w := w) (i := i) (not_commits_pix hd.fsm)
    obtain ⟨hh, hbody⟩ := Trace.next_none (t := w.trace) hk
    obtain ⟨hdraws, hafter⟩ := ih hb hds (hd.next hc ((hc.wait hk).trans hd.fsm))
    refine ⟨?_, hafter.trans hbase⟩
    rw [draws_cons_none (write_of_none hk), hdraws, full, full, hbase, Trace.pixels, Trace.header]
    change _ = _ at hh hbody
    rw [show (w.next i).trace.head = _ from hh, show (w.next i).trace.body = _ from hbody]
    rfl
  | @beat w b bs i is hc hk h ih =>
    obtain ⟨hh, hbody, hbase⟩ := hd.next_trace hk
    cases ds with
    | nil => exact absurd rfl hds
    | cons d ds =>
      obtain ⟨rfl, rfl⟩ := List.cons.inj hb
      rw [draws, hd.write hc hk ds]
      have hf := hd.next_fsm hc hk
      cases ds with
      | nil =>
        obtain ⟨hdraws, hafter⟩ := h.none_left rfl (hf.trans_ne Fsm.noConfusion)
        exact ⟨by rw [hdraws, List.append_nil]; rfl, hafter.trans hbase⟩
      | cons e ds =>
        obtain ⟨hdraws, hafter⟩ := ih rfl (List.cons_ne_nil e ds) (hd.next hc hf)
        refine ⟨?_, hafter.trans hbase⟩
        have hheader : (w.next i).trace.header = w.trace.header := by
          rw [Trace.header, hh, Trace.header]
        have hfull : (w.next i).full (e :: ds) = w.full (d :: e :: ds) := by
          rw [full, full, hh, hbody, List.append_assoc]
          rfl
        have hlen : (w.next i).trace.body.length = w.trace.body.length + 1 := by
          rw [hbody, List.length_append]
          rfl
        have hpixels : (w.next i).trace.pixels =
            (w.trace.body.length + 1) / w.trace.header.bytesPerPixel := by
          rw [Trace.pixels, hheader, hlen]
        rw [hdraws, hfull, hbase, hheader, hlen, hpixels, ← List.filterMap_append]
        have hp : w.trace.pixels ≤ (w.trace.body.length + 1) / w.trace.header.bytesPerPixel :=
          Nat.div_le_div_right (Nat.le_succ _)
        have hq : (w.trace.body.length + 1) / w.trace.header.bytesPerPixel ≤
            (w.trace.body.length + 1 + (e :: ds).length) / w.trace.header.bytesPerPixel :=
          Nat.div_le_div_right (Nat.le_add_right _ _)
        have htotal : w.trace.body.length + 1 + (e :: ds).length =
            w.trace.body.length + (d :: e :: ds).length := by
          simp only [List.length_cons]
          omega
        rw [range'_append_sub hp hq, htotal]

/-- What a payload writes: its pixels in range, in order. -/
def Draws (w : Watched) (is : List Inputs) (limit : BitVec 24) (p : List Byte) : Prop :=
  w.draws is = (List.range (pixelCount p)).filterMap (cell p (w.after is).trace.base limit)

lemma draws_of_none (hd : w.draws is = []) {p : List Byte} (hp : pixelCount p = 0) :
    w.Draws is limit p := by
  rw [Draws, hd, hp]
  rfl

lemma Draws.cons {p : List Byte} (h : (w.next i).Draws is limit p) (hw : w.path.write i = none) :
    w.Draws (i :: is) limit p := (draws_cons_none hw).trans h

lemma pixelCount_of_le {p : List Byte} (h : p.length ≤ (Header.ofBytes p).length) :
    pixelCount p = 0 := by
  rw [pixelCount]
  split
  · rw [Nat.sub_eq_zero_of_le h, Nat.zero_div]
  · rfl

lemma short_of_inHeader {q : Parse} {head : List Byte} (h : InHeader q head) (hi : q.hdrIdx ≠ 1)
    (hl : q.hdrIdx ≠ q.header.hdrLast) (d : Byte) :
    (head ++ [d]).length < (Header.ofBytes (head ++ [d])).length := by
  have hlt : q.hdrIdx.toNat < q.header.hdrLast.toNat :=
    lt_of_le_of_ne h.idx_le fun he => hl (BitVec.eq_of_toNat_eq he)
  have hone : q.hdrIdx.toNat ≠ 1 := fun he => hi (BitVec.eq_of_toNat_eq he)
  have hpos : 0 < head.length := by
    obtain ⟨ds, rfl, -⟩ := h.bytes
    exact Nat.succ_pos _
  have hidx := h.idx
  have hwide : (Header.ofBytes (head ++ [d])).wide = q.header.wide := by
    rw [h.wide hi, ← List.getD_append head [d] 0 1 (by omega)]
    rfl
  have hlength : (Header.ofBytes (head ++ [d])).length = q.header.length := by
    rw [Header.length, hwide, Header.length]
  rw [hlength, ← length_of_hdrLast, List.length_append, List.length_singleton]
  omega

lemma Draws.of_last {p : List Byte} (h : Takes limit w (beats []) is)
    (hs : w.path.dma.fsm ≠ .pix) (hp : p.length ≤ (Header.ofBytes p).length) :
    w.Draws is limit p :=
  draws_of_none (h.none_left rfl hs).1 (pixelCount_of_le hp)

lemma writeBase_nextBase (hc : Calm limit w i) :
    writeBase (w.path.nextBase i) = w.path.dma.writeBaseNext w.path.fbBaseEff i := by
  have hlow (d : BitVec 20) : d.setWidth 24 = sdramOffset ↔ d = sdramOffset.setWidth 20 := by
    rw [← BitVec.toNat_inj, ← BitVec.toNat_inj, BitVec.toNat_setWidth,
      Nat.mod_eq_of_lt (d.isLt.trans (by decide))]
    exact Iff.rfl
  rw [PixelPath.nextBase, hc.fbBase, Hub75UdpDma.writeBaseNext, Bool.and_comm]
  dsimp only
  split
  · rw [otherBase]
    by_cases hd : w.path.fbBaseEff = sdramOffset.setWidth 20
    · rw [if_pos hd, writeBase, writeBase, if_pos ((hlow _).mpr hd)]
      decide
    · rw [if_neg hd, writeBase, writeBase, if_neg (mt (hlow _).mp hd)]
      decide
  · rfl

lemma drawing_of_commit (hc : Calm limit w i) (hs : w.path.dma.fsm = .hdr)
    (hr : Reads w.path.dma w.trace) (hk : w.path.dma.taken i = some b)
    (hl : w.path.dma.hdrIdx = w.path.dma.header.hdrLast)
    (hf : (w.next i).path.dma.fsm = .pix) : Drawing (w.next i) := by
  refine ⟨hf, (hr.next i).inPixels hf, (writeBase_nextBase hc).trans ?_⟩
  have hcommits : w.path.dma.commits i = true := by
    rw [taken_of_ne (hs.trans_ne (by decide))] at hk
    simp only [Hub75UdpDma.commits, hs, hk, hl, Option.isSome_some, BEq.rfl, Bool.and_self]
  change _ = if w.path.dma.commits i then _ else _
  rw [if_pos hcommits]

lemma Drawing.draws (h : Drawing w) (ht : Takes limit w (beats ds) is) (hds : ds ≠ [])
    (hb : w.trace.body = []) : w.Draws is limit (w.trace.head ++ ds) := by
  have hfull : w.full ds = w.trace.head ++ ds := by rw [full, hb, List.nil_append]
  obtain ⟨hdraws, hbase⟩ := ht.drawn rfl hds h
  have hpixels : IsPixels (w.full ds) := by
    obtain ⟨m, hm, rest, hhead⟩ := h.pixels.magic
    refine ⟨?_, ?_, ?_⟩
    · rw [full, hhead]
      rfl
    · rw [full, hhead]
      exact hm
    · rw [h.header_full, ← h.pixels.length, full, List.length_append]
      exact Nat.le_add_right _ _
  have hcount : pixelCount (w.full ds) = ds.length / w.trace.header.bytesPerPixel := by
    have hlen := congrArg List.length (h.drop_full ds)
    rw [List.length_drop, hb, List.nil_append] at hlen
    rw [pixelCount, if_pos hpixels, hlen, h.header_full]
  rw [Draws, hdraws, ← hfull, hbase, hcount, Trace.pixels, hb, List.length_nil, Nat.zero_div,
    Nat.zero_add, Nat.sub_zero, List.range_eq_range']

lemma Takes.parsed (h : Takes limit w bs is) (hb : bs = beats ds) (hds : ds ≠ [])
    (hs : w.path.dma.fsm = .hdr) (hh : InHeader w.path.dma.parse w.trace.head) :
    w.Draws is limit (w.trace.head ++ ds) := by
  induction h generalizing ds with
  | done w =>
    cases ds with
    | nil => exact absurd rfl hds
    | cons d ds => cases hb
  | @wait w bs i is hc hk h ih =>
    have hs' := (hc.wait hk).trans hs
    have hr : Reads w.path.dma w.trace := by
      simp only [Reads, hs]
      exact hh
    have hhead : (w.next i).trace.head = w.trace.head := (Trace.next_none hk).1
    have hd := ih hb hds hs' ((hr.next i).inHeader hs')
    rw [hhead] at hd
    exact hd.cons (write_of_none hk)
  | @beat w b bs i is hc hk h ih =>
    have hwrite : w.path.write i = none := write_of_ne (hs.trans_ne (by decide)) i
    have hr : Reads w.path.dma w.trace := by
      simp only [Reads, hs]
      exact hh
    have hhead : (w.next i).trace.head = w.trace.head ++ [b.data] :=
      (Trace.next_some hk).1.trans (Trace.take_hdr hs w.trace i b).1
    have hg := next_goes w.path.dma w.path.fbBaseEff i
    simp only [Hub75UdpDma.goes, hk, hs] at hg
    cases ds with
    | nil => exact absurd rfl hds
    | cons d ds =>
      obtain ⟨rfl, rfl⟩ := List.cons.inj hb
      refine Draws.cons ?_ hwrite
      have hhead' : w.trace.head ++ d :: ds = (w.next i).trace.head ++ ds := by
        rw [hhead, List.append_assoc]
        rfl
      rw [hhead']
      -- One more byte of the header, and the next one after it.
      have hon (hf : (w.next i).path.dma.fsm = (⟨d, ds.isEmpty⟩ : Beat).upTo .hdr)
          (hshort : (w.next i).trace.head.length ≤
            (Header.ofBytes (w.next i).trace.head).length) :
          (w.next i).Draws is limit ((w.next i).trace.head ++ ds) := by
        cases ds with
        | nil =>
          rw [List.append_nil]
          exact .of_last h (hf.trans_ne Fsm.noConfusion) hshort
        | cons e ds => exact ih rfl (List.cons_ne_nil e ds) hf ((hr.next i).inHeader hf)
      by_cases hone : w.path.dma.hdrIdx = 1
      · have hfirst : w.trace.head = [0x42] := by
          obtain ⟨rest, hrest, -⟩ := hh.bytes
          have hidx := hh.idx
          rw [show w.path.dma.parse.hdrIdx = 1 from hone, hrest] at hidx
          rw [hrest, List.length_eq_zero_iff.mp (Nat.succ.inj hidx).symm]
        rw [if_pos hone] at hg
        by_cases hm : d ∈ Header.magics
        · rw [if_pos hm] at hg
          refine hon hg (le_trans ?_ (eight_le_length _))
          rw [hhead, hfirst, List.length_append, List.length_singleton, List.length_singleton]
          decide
        · rw [if_neg hm] at hg
          refine draws_of_none ?_ (if_neg fun hp => hm ?_)
          · cases ds with
            | nil => exact (h.none_left rfl (hg.trans_ne Fsm.noConfusion)).1
            | cons e ds => exact h.dropped rfl hg
          · have hmagic := hp.2.1
            rw [hhead, hfirst] at hmagic
            exact hmagic
      · rw [if_neg hone] at hg
        by_cases hl : w.path.dma.hdrIdx = w.path.dma.header.hdrLast
        · rw [if_pos hl] at hg
          cases ds with
          | nil =>
            rw [List.append_nil]
            refine .of_last h (hg.trans_ne Fsm.noConfusion) ?_
            have hdone := hh.commit hl d sdramOffset (u := { head := w.trace.head ++ [d] }) rfl rfl rfl
            rw [hhead]
            exact hdone.length.le
          | cons e ds =>
            have hbody : (w.next i).trace.body = [] :=
              (Trace.next_some hk).2.trans (Trace.take_hdr hs w.trace i _).2
            exact (drawing_of_commit hc hs hr hk hl hg).draws h (List.cons_ne_nil e ds) hbody
        · rw [if_neg hl] at hg
          refine hon hg ?_
          rw [hhead]
          exact (short_of_inHeader hh hone hl d).le

/-- A payload that the DMA takes whole, never stalled: exactly its whole pixels in range are
written, whatever came before. -/
theorem Takes.draws_payload (h : Takes limit w (beats ds) is) (hs : w.path.dma.fsm = .idle) :
    w.Draws is limit ds := by
  generalize hb : beats ds = bs at h
  induction h generalizing ds with
  | done w =>
    cases ds with
    | nil => exact draws_of_none rfl (pixelCount_of_le (Nat.zero_le _))
    | cons d ds => cases hb
  | @wait w bs i is hc hk h ih =>
    exact (ih ((hc.wait hk).trans hs) hb).cons (write_of_none hk)
  | @beat w b bs i is hc hk h ih =>
    cases ds with
    | nil => cases hb
    | cons d ds =>
      obtain ⟨rfl, rfl⟩ := List.cons.inj hb
      refine Draws.cons ?_ (write_of_ne (hs.trans_ne (by decide)) i)
      have hg := next_goes w.path.dma w.path.fbBaseEff i
      simp only [Hub75UdpDma.goes, hk, hs, hc.enable, if_true] at hg
      by_cases hm : d = 0x42
      · rw [if_pos hm] at hg
        have hhead : (w.next i).trace.head = [d] := by
          refine (Trace.next_some hk).1.trans ?_
          simp only [Trace.take, hs, hc.enable, if_true]
        cases ds with
        | nil =>
          exact .of_last h (hg.trans_ne Fsm.noConfusion)
            (le_trans (Nat.succ_le_succ (Nat.zero_le 7)) (eight_le_length _))
        | cons e ds =>
          have hr : Reads w.path.dma w.trace := .of_idle (.inl hs) _
          have hd := h.parsed rfl (List.cons_ne_nil e ds) hg ((hr.next i).inHeader hg)
          rw [hhead] at hd
          exact hd
      · rw [if_neg hm] at hg
        refine draws_of_none ?_ (if_neg fun hp => hm hp.1)
        cases ds with
        | nil => exact (h.none_left rfl (hg.trans_ne Fsm.noConfusion)).1
        | cons e ds => exact h.dropped rfl hg

end Watched

end Ledwall.Gateware
