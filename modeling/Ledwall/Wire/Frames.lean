import Ledwall.Library.Chunking
import Ledwall.Wire.Protocol

/-! A frame as the card should see it, and that the sender's datagrams are its chunks. -/

namespace Ledwall.Wire

open Ledwall.Library.Chunking

inductive Format
  | narrow
  | wide
  | indexed
  deriving DecidableEq, Repr

namespace Format

def isIndexed : Format → Bool
  | indexed => true
  | _ => false

def isWide : Format → Bool
  | wide => true
  | _ => false

def magic : Format → Magic
  | narrow => .rgb
  | wide => .wide
  | indexed => .indexed

def pixelsPerChunk : Format → ℕ
  | narrow => PIXELS_PER_CHUNK
  | wide => PIXELS_PER_CHUNK_WIDE
  | indexed => PIXELS_PER_CHUNK_INDEXED

def bytesPerPixel : Format → ℕ
  | indexed => 1
  | _ => 3

def bytesPerChunk (f : Format) : ℕ := f.pixelsPerChunk * f.bytesPerPixel

def headerSize : Format → ℕ
  | wide => 12
  | _ => 10

lemma pixelsPerChunk_pos (f : Format) : 0 < f.pixelsPerChunk := by cases f <;> decide

lemma bytesPerPixel_pos (f : Format) : 0 < f.bytesPerPixel := by cases f <;> decide

end Format

/-- An image handed to one of the two send calls. -/
inductive Picture
  | rgb (body : List Byte)
  | indexed (body : List Byte)
  deriving DecidableEq, Repr

def Picture.body : Picture → List Byte
  | rgb body | indexed body => body

/-- RGB goes wide past 255 narrow chunks; an indexed frame has no wide form. -/
def Picture.format : Picture → Format
  | rgb body => if MAX_CHUNKS_NARROW < chunkTotal body.length BYTES_PER_CHUNK then .wide else .narrow
  | indexed _ => .indexed

structure Frame where
  id : ℕ
  picture : Picture
  width : ℕ
  height : ℕ
  deriving DecidableEq, Repr

def le16 (n : ℕ) : List Byte := [BitVec.ofNat 8 n, BitVec.ofNat 8 (n / 256)]

namespace Frame

def format (f : Frame) : Format := f.picture.format

def pixels (f : Frame) : ℕ := f.width * f.height

def total (f : Frame) : ℕ := chunkTotal f.picture.body.length f.format.bytesPerChunk

def counters (f : Frame) (i : ℕ) : List Byte :=
  if f.format.isWide then le16 i ++ le16 f.total
  else [BitVec.ofNat 8 i, BitVec.ofNat 8 f.total]

def header (f : Frame) (i : ℕ) : List Byte :=
  f.format.magic.bytes ++ le16 f.id ++ f.counters i ++ le16 f.width ++ le16 f.height

def datagram (f : Frame) (i : ℕ) : Datagram :=
  f.header i ++ piece f.format.bytesPerChunk i f.picture.body

/-- What `_send_chunked` needs of a frame to put it on the wire. -/
structure Sendable (f : Frame) : Prop where
  id_lt : f.id < 65536
  width_lt : f.width < 65536
  height_lt : f.height < 65536
  body_length : f.picture.body.length = f.pixels * f.format.bytesPerPixel
  total_lt : f.total < if f.format.isWide then 65536 else 256

lemma total_eq_count {f : Frame} (h : f.picture.body.length = f.pixels * f.format.bytesPerPixel) :
    f.total = count f.format.pixelsPerChunk f.pixels := by
  rw [total, h]
  exact count_mul f.format.pixelsPerChunk_pos f.format.bytesPerPixel_pos

@[simp] lemma counters_length (f : Frame) (i : ℕ) :
    (f.counters i).length = if f.format.isWide then 4 else 2 := by
  unfold counters
  split <;> rfl

lemma header_length (f : Frame) (i : ℕ) : (f.header i).length = f.format.headerSize := by
  have hm : f.format.magic.bytes.length = 2 := by cases f.format <;> rfl
  simp only [header, List.length_append, hm, counters_length, le16, List.length_cons,
    List.length_nil]
  cases f.format <;> rfl

end Frame

/-- The frame a send call on `s` puts on the wire. -/
def CardStream.nextFrame (s : CardStream) (picture : Picture) (width height : ℕ) : Frame :=
  ⟨(s.frameId + 1) % 65536, picture, width, height⟩

def CardStream.send (s : CardStream) (picture : Picture) (width height : ℕ) : Sent :=
  match picture with
  | .rgb body => s.sendFrame body width height
  | .indexed body => s.sendFrameIndexed body width height

lemma bodySlice_eq (body : List Byte) (k i : ℕ) :
    bodySlice body (i * k) ((i + 1) * k) = piece k i body := by
  rw [bodySlice, piece, Nat.add_one_mul, Nat.add_sub_cancel_left]

section SendLoop

variable {header : ℕ → Except PyError (List Byte)} {body : List Byte} {k total : ℕ}

lemma sendLoop_ok {hdr : ℕ → List Byte} (h : ∀ i < total, header i = .ok (hdr i)) (hpos : 0 < total)
    (s : CardStream) (out : List Datagram) (ns : List ℕ) :
    (sendLoop header body k total s out ns).datagrams =
      out ++ ns.map fun n => hdr (n % total) ++ piece k (n % total) body := by
  induction ns generalizing s out with
  | nil => simp [sendLoop]
  | cons n ns ih =>
    simp only [sendLoop, h _ (Nat.mod_lt n hpos)]
    rw [ih, bodySlice_eq]
    simp

lemma sendLoop_error {e : PyError} (h : ∀ i < total, header i = .error e) (hpos : 0 < total)
    (s : CardStream) (out : List Datagram) (ns : List ℕ) :
    (sendLoop header body k total s out ns).datagrams = out := by
  cases ns with
  | nil => rfl
  | cons n ns => simp only [sendLoop, h _ (Nat.mod_lt n hpos)]

lemma sendLoop_returns {hdr : ℕ → List Byte} (h : ∀ i < total, header i = .ok (hdr i))
    (hpos : 0 < total) (s : CardStream) (out : List Datagram) (ns : List ℕ) :
    (sendLoop header body k total s out ns).result = .ok () := by
  induction ns generalizing s out with
  | nil => rfl
  | cons n ns ih =>
    simp only [sendLoop, h _ (Nat.mod_lt n hpos)]
    exact ih _ _

lemma sendLoop_raises {e : PyError} (h : ∀ i < total, header i = .error e) (hpos : 0 < total)
    (s : CardStream) (out : List Datagram) {ns : List ℕ} (hns : ns ≠ []) :
    (sendLoop header body k total s out ns).result = .error e := by
  cases ns with
  | nil => exact absurd rfl hns
  | cons n ns => simp only [sendLoop, h _ (Nat.mod_lt n hpos)]

end SendLoop

lemma packB_ok {n : ℕ} (h : n < 256) : packB n = .ok [BitVec.ofNat 8 n] := if_pos h

lemma packH_ok {n : ℕ} (h : n < 65536) : packH n = .ok (le16 n) := if_pos h

lemma packH_error {n : ℕ} (h : ¬ n < 65536) :
    packH n = .error (.structError "ushort format requires 0 <= number <= 65535") := if_neg h

section PackHeader

variable {magic : Magic} {id i total w h : ℕ}

lemma packHeader_ok (hid : id < 65536) (hi : i < 256) (ht : total < 256) (hw : w < 65536)
    (hh : h < 65536) : packHeader magic id i total w h =
      .ok (magic.bytes ++ le16 id ++ [BitVec.ofNat 8 i, BitVec.ofNat 8 total] ++ le16 w ++ le16 h) := by
  simp only [packHeader, packH_ok hid, packB_ok hi, packB_ok ht, packH_ok hw, packH_ok hh, bind,
    Except.bind, pure, Except.pure, List.append_assoc, List.cons_append, List.nil_append]

lemma packHeaderWide_ok (hid : id < 65536) (hi : i < 65536) (ht : total < 65536) (hw : w < 65536)
    (hh : h < 65536) : packHeaderWide magic id i total w h =
      .ok (magic.bytes ++ le16 id ++ (le16 i ++ le16 total) ++ le16 w ++ le16 h) := by
  simp only [packHeaderWide, packH_ok hid, packH_ok hi, packH_ok ht, packH_ok hw, packH_ok hh, bind,
    Except.bind, pure, Except.pure, List.append_assoc]

lemma packHeader_error (hid : id < 65536) (hi : i < 256) (ht : total < 256)
    (hn : ¬ (w < 65536 ∧ h < 65536)) : packHeader magic id i total w h =
      .error (.structError "ushort format requires 0 <= number <= 65535") := by
  by_cases hw : w < 65536
  · have hh : ¬ h < 65536 := fun hh => hn ⟨hw, hh⟩
    simp only [packHeader, packH_ok hid, packB_ok hi, packB_ok ht, packH_ok hw, packH_error hh, bind,
      Except.bind]
  · simp only [packHeader, packH_ok hid, packB_ok hi, packB_ok ht, packH_error hw, bind, Except.bind]

lemma packHeaderWide_error (hid : id < 65536) (hi : i < 65536) (ht : total < 65536)
    (hn : ¬ (w < 65536 ∧ h < 65536)) : packHeaderWide magic id i total w h =
      .error (.structError "ushort format requires 0 <= number <= 65535") := by
  by_cases hw : w < 65536
  · have hh : ¬ h < 65536 := fun hh => hn ⟨hw, hh⟩
    simp only [packHeaderWide, packH_ok hid, packH_ok hi, packH_ok ht, packH_ok hw, packH_error hh,
      bind, Except.bind]
  · simp only [packHeaderWide, packH_ok hid, packH_ok hi, packH_ok ht, packH_error hw, bind,
      Except.bind]

end PackHeader

/-- The header `_send_chunked` builds for chunk `i` of a frame. -/
def Frame.packedHeader (f : Frame) (i : ℕ) : Except PyError (List Byte) :=
  if f.format.isWide then packHeaderWide f.format.magic f.id i f.total f.width f.height
  else packHeader f.format.magic f.id i f.total f.width f.height

lemma Frame.packedHeader_ok {f : Frame} (h : f.Sendable) {i : ℕ} (hi : i < f.total) :
    f.packedHeader i = .ok (f.header i) := by
  have ht := h.total_lt
  cases hwide : f.format.isWide
  · rw [hwide] at ht
    simp only [Bool.false_eq_true, if_false] at ht
    simp only [packedHeader, hwide, Bool.false_eq_true, if_false, header, counters,
      packHeader_ok h.id_lt (hi.trans ht) ht h.width_lt h.height_lt]
  · rw [hwide] at ht
    simp only [if_true] at ht
    simp only [packedHeader, hwide, if_true, header, counters,
      packHeaderWide_ok h.id_lt (hi.trans ht) ht h.width_lt h.height_lt]

lemma Frame.packedHeader_error {f : Frame} (hid : f.id < 65536)
    (ht : f.total < if f.format.isWide then 65536 else 256)
    (hn : ¬ (f.width < 65536 ∧ f.height < 65536)) {i : ℕ} (hi : i < f.total) :
    f.packedHeader i = .error (.structError "ushort format requires 0 <= number <= 65535") := by
  cases hwide : f.format.isWide
  · rw [hwide] at ht
    simp only [Bool.false_eq_true, if_false] at ht
    simp only [packedHeader, hwide, Bool.false_eq_true, if_false]
    exact packHeader_error hid (hi.trans ht) ht hn
  · rw [hwide] at ht
    simp only [if_true] at ht
    simp only [packedHeader, hwide, if_true]
    exact packHeaderWide_error hid (hi.trans ht) ht hn

/-- The chunks of a frame in order, the whole frame `copies` times over; nothing at all when the
frame cannot be put on the wire. -/
def Frame.Sends (f : Frame) (copies : ℕ) (out : List Datagram) : Prop :=
  (f.Sendable → out = (List.range (f.total * copies)).map fun n => f.datagram (n % f.total)) ∧
    (¬ f.Sendable → out = [])

lemma Frame.Sends.nothing {f : Frame} (h : ¬ f.Sendable) (copies : ℕ) : f.Sends copies [] :=
  ⟨fun hs => absurd hs h, fun _ => rfl⟩

lemma sendLoop_sends (f : Frame) (s : CardStream) (copies : ℕ) (hid : f.id < 65536)
    (hbody : f.picture.body.length = f.pixels * f.format.bytesPerPixel)
    (ht : f.total < if f.format.isWide then 65536 else 256) :
    f.Sends copies (sendLoop f.packedHeader f.picture.body f.format.bytesPerChunk f.total s []
      (List.range (f.total * copies))).datagrams := by
  rcases Nat.eq_zero_or_pos f.total with hz | hpos
  · simp only [Frame.Sends, hz, Nat.zero_mul, List.range_zero]
    exact ⟨fun _ => rfl, fun _ => rfl⟩
  constructor
  · intro hs
    exact (sendLoop_ok (fun i hi => Frame.packedHeader_ok hs hi) hpos s [] _).trans (List.nil_append _)
  · intro hn
    have hdim : ¬ (f.width < 65536 ∧ f.height < 65536) := fun hd => hn ⟨hid, hd.1, hd.2, hbody, ht⟩
    exact sendLoop_error (fun i hi => Frame.packedHeader_error hid ht hdim hi) hpos s [] _

/-- The stream with the counter of the frame being sent. -/
def CardStream.bump (s : CardStream) : CardStream := { s with frameId := (s.frameId + 1) % 65536 }

def CardStream.copies (s : CardStream) : ℕ := (max 1 s.redundantCopies).toNat

lemma CardStream.copies_pos (s : CardStream) : 0 < s.copies := by
  simp only [copies]
  omega

lemma CardStream.sendChunked_narrow {s : CardStream} {magic : Magic} {body : List Byte} {k w h : ℕ}
    (hn : ¬ MAX_CHUNKS_NARROW < chunkTotal body.length k) :
    s.sendChunked magic body k w h =
      sendLoop (fun i => packHeader magic s.bump.frameId i (chunkTotal body.length k) w h) body k
        (chunkTotal body.length k) s.bump [] (List.range (chunkTotal body.length k * s.copies)) := by
  have hmax : ¬ 65535 < chunkTotal body.length k := by
    simp only [MAX_CHUNKS_NARROW] at hn
    omega
  simp only [sendChunked, hn, decide_false, Bool.false_eq_true, false_and, if_false, if_neg hmax]
  rfl

lemma CardStream.sendChunked_wide {s : CardStream} {body : List Byte} {k w h : ℕ}
    (hw : MAX_CHUNKS_NARROW < chunkTotal body.length k) :
    s.sendChunked .rgb body k w h =
      if 65535 < chunkTotal body.length BYTES_PER_CHUNK_WIDE then
        ⟨s.bump, [], .error (.valueError (toString (chunkTotal body.length BYTES_PER_CHUNK_WIDE) ++
          " chunks exceeds even the u16 chunk_index"))⟩
      else sendLoop (fun i => packHeaderWide .wide s.bump.frameId i
          (chunkTotal body.length BYTES_PER_CHUNK_WIDE) w h) body BYTES_PER_CHUNK_WIDE
        (chunkTotal body.length BYTES_PER_CHUNK_WIDE) s.bump []
        (List.range (chunkTotal body.length BYTES_PER_CHUNK_WIDE * s.copies)) := by
  simp only [sendChunked, hw, decide_true, ne_eq, not_true_eq_false, and_false, if_false, if_true]
  rfl

lemma CardStream.sendChunked_error {s : CardStream} {magic : Magic} {body : List Byte} {k w h : ℕ}
    (hm : magic ≠ .rgb) (hw : MAX_CHUNKS_NARROW < chunkTotal body.length k) :
    (s.sendChunked magic body k w h).datagrams = [] := by
  simp only [sendChunked, hw, decide_true, true_and, if_pos hm]

section Calls

variable (s : CardStream)

lemma CardStream.sendFrame_eq (body : List Byte) (width height : ℕ)
    (hbody : body.length = width * height * 3)
    (ht : (s.nextFrame (.rgb body) width height).total < 65536) :
    s.send (.rgb body) width height =
      sendLoop (s.nextFrame (.rgb body) width height).packedHeader body
        (s.nextFrame (.rgb body) width height).format.bytesPerChunk
        (s.nextFrame (.rgb body) width height).total s.bump []
        (List.range ((s.nextFrame (.rgb body) width height).total * s.copies)) := by
  simp only [send, sendFrame, hbody, ne_eq, not_true_eq_false, if_false]
  by_cases hw : MAX_CHUNKS_NARROW < chunkTotal body.length BYTES_PER_CHUNK
  · have hm : (s.nextFrame (.rgb body) width height).format = .wide := if_pos hw
    have hk : (s.nextFrame (.rgb body) width height).format.bytesPerChunk = BYTES_PER_CHUNK_WIDE :=
      congrArg _ hm
    have hn : (s.nextFrame (.rgb body) width height).total =
        chunkTotal body.length BYTES_PER_CHUNK_WIDE := congrArg _ hk
    have hh : (s.nextFrame (.rgb body) width height).packedHeader = fun i =>
        packHeaderWide .wide s.bump.frameId i
          (s.nextFrame (.rgb body) width height).total width height := by
      funext i
      simp only [Frame.packedHeader, hm]
      rfl
    have hmax : ¬ 65535 < (s.nextFrame (.rgb body) width height).total := by omega
    rw [sendChunked_wide hw, ← hn, if_neg hmax, hh, hk]
  · have hm : (s.nextFrame (.rgb body) width height).format = .narrow := if_neg hw
    have hk : (s.nextFrame (.rgb body) width height).format.bytesPerChunk = BYTES_PER_CHUNK :=
      congrArg _ hm
    have hn : (s.nextFrame (.rgb body) width height).total =
        chunkTotal body.length BYTES_PER_CHUNK := congrArg _ hk
    have hh : (s.nextFrame (.rgb body) width height).packedHeader = fun i =>
        packHeader .rgb s.bump.frameId i
          (s.nextFrame (.rgb body) width height).total width height := by
      funext i
      simp only [Frame.packedHeader, hm]
      rfl
    rw [sendChunked_narrow hw, ← hn, hh, hk]

lemma CardStream.sendFrameIndexed_eq (body : List Byte) (width height : ℕ)
    (hbody : body.length = width * height)
    (ht : (s.nextFrame (.indexed body) width height).total < 256) :
    s.send (.indexed body) width height =
      sendLoop (s.nextFrame (.indexed body) width height).packedHeader body
        (s.nextFrame (.indexed body) width height).format.bytesPerChunk
        (s.nextFrame (.indexed body) width height).total s.bump []
        (List.range ((s.nextFrame (.indexed body) width height).total * s.copies)) := by
  have hw : ¬ MAX_CHUNKS_NARROW < chunkTotal body.length PIXELS_PER_CHUNK_INDEXED :=
    not_lt.mpr (Nat.le_of_lt_succ ht)
  simp only [send, sendFrameIndexed, hbody, ne_eq, not_true_eq_false, if_false]
  rw [sendChunked_narrow hw]
  rfl

lemma CardStream.send_eq (picture : Picture) (width height : ℕ)
    (hbody : picture.body.length = width * height * picture.format.bytesPerPixel)
    (ht : (s.nextFrame picture width height).total <
      if picture.format.isWide then 65536 else 256) :
    s.send picture width height =
      sendLoop (s.nextFrame picture width height).packedHeader picture.body
        (s.nextFrame picture width height).format.bytesPerChunk
        (s.nextFrame picture width height).total s.bump []
        (List.range ((s.nextFrame picture width height).total * s.copies)) := by
  cases picture with
  | rgb body =>
    have hp : (Picture.rgb body).format.bytesPerPixel = 3 := by
      simp only [Picture.format]
      split <;> rfl
    rw [hp] at hbody
    apply s.sendFrame_eq body width height hbody
    split at ht
    · exact ht
    · exact ht.trans (by decide)
  | indexed body => exact s.sendFrameIndexed_eq body width height (hbody.trans (Nat.mul_one _)) ht

lemma CardStream.send_nothing (picture : Picture) (width height : ℕ)
    (hn : ¬ (picture.body.length = width * height * picture.format.bytesPerPixel ∧
      (s.nextFrame picture width height).total <
        if picture.format.isWide then 65536 else 256)) :
    (s.send picture width height).datagrams = [] := by
  cases picture with
  | rgb body =>
    have hp : (Picture.rgb body).format.bytesPerPixel = 3 := by
      simp only [Picture.format]
      split <;> rfl
    rw [hp] at hn
    simp only [send, sendFrame]
    split
    · rfl
    rename_i hlen
    have hlen : body.length = width * height * 3 := not_not.mp hlen
    have ht : ¬ (s.nextFrame (.rgb body) width height).total <
        if (Picture.rgb body).format.isWide then 65536 else 256 := fun ht => hn ⟨hlen, ht⟩
    by_cases hw : MAX_CHUNKS_NARROW < chunkTotal body.length BYTES_PER_CHUNK
    · have hm : (Picture.rgb body).format = .wide := if_pos hw
      have hk : (s.nextFrame (.rgb body) width height).total =
          chunkTotal body.length BYTES_PER_CHUNK_WIDE :=
        congrArg (fun m : Format => chunkTotal body.length m.bytesPerChunk) hm
      rw [hm, hk] at ht
      have hmax : 65535 < chunkTotal body.length BYTES_PER_CHUNK_WIDE := by
        simp only [Format.isWide, if_true] at ht
        omega
      rw [sendChunked_wide hw, if_pos hmax]
    · have hm : (Picture.rgb body).format = .narrow := if_neg hw
      have hk : (s.nextFrame (.rgb body) width height).total =
          chunkTotal body.length BYTES_PER_CHUNK :=
        congrArg (fun m : Format => chunkTotal body.length m.bytesPerChunk) hm
      rw [hm, hk] at ht
      exact absurd (Nat.lt_succ_of_le (not_lt.mp hw)) ht
  | indexed body =>
    simp only [send, sendFrameIndexed]
    split
    · rfl
    rename_i hlen
    apply sendChunked_error (by decide)
    by_contra hw
    exact hn ⟨(not_not.mp hlen).trans (Nat.mul_one _).symm, Nat.lt_succ_of_le (not_lt.mp hw)⟩

/-- What a send call hands to the socket. -/
theorem CardStream.send_sends (picture : Picture) (width height : ℕ) :
    (s.nextFrame picture width height).Sends s.copies (s.send picture width height).datagrams := by
  by_cases hc : picture.body.length = width * height * picture.format.bytesPerPixel ∧
      (s.nextFrame picture width height).total < if picture.format.isWide then 65536 else 256
  · rw [s.send_eq picture width height hc.1 hc.2]
    exact sendLoop_sends (s.nextFrame picture width height) s.bump s.copies
      (Nat.mod_lt _ (by decide)) hc.1 hc.2
  · rw [s.send_nothing picture width height hc]
    exact .nothing (fun hs => hc ⟨hs.body_length, hs.total_lt⟩) _

section Results

variable {s} {picture : Picture} {width height : ℕ}

lemma CardStream.send_returns_iff
    (hbody : picture.body.length = width * height * picture.format.bytesPerPixel)
    (ht : (s.nextFrame picture width height).total < if picture.format.isWide then 65536 else 256)
    (hpos : 0 < (s.nextFrame picture width height).total) :
    (s.send picture width height).result = .ok () ↔ width < 65536 ∧ height < 65536 := by
  have hid : (s.nextFrame picture width height).id < 65536 := Nat.mod_lt _ (by decide)
  rw [s.send_eq picture width height hbody ht]
  constructor
  · intro hok
    by_contra hn
    have hns : List.range ((s.nextFrame picture width height).total * s.copies) ≠ [] := by
      simp only [ne_eq, List.range_eq_nil]
      exact (Nat.mul_pos hpos s.copies_pos).ne'
    rw [sendLoop_raises (fun i hi => Frame.packedHeader_error hid ht hn hi) hpos _ _ hns] at hok
    cases hok
  · rintro ⟨hw, hh⟩
    exact sendLoop_returns (fun i hi => Frame.packedHeader_ok ⟨hid, hw, hh, hbody, ht⟩ hi) hpos _ _ _

end Results

end Calls

section Emission

variable {s : CardStream} {picture : Picture} {width height : ℕ} {d : Datagram}

lemma CardStream.mem_send (h : d ∈ (s.send picture width height).datagrams) :
    (s.nextFrame picture width height).Sendable ∧
      ∃ i < (s.nextFrame picture width height).total,
        d = (s.nextFrame picture width height).datagram i := by
  obtain ⟨hsends, hnothing⟩ := s.send_sends picture width height
  by_cases hs : (s.nextFrame picture width height).Sendable
  · refine ⟨hs, ?_⟩
    rw [hsends hs] at h
    obtain ⟨n, hn, rfl⟩ := List.mem_map.mp h
    have hpos : 0 < (s.nextFrame picture width height).total := by
      by_contra hz
      rw [Nat.eq_zero_of_not_pos hz, Nat.zero_mul] at hn
      cases hn
    exact ⟨_, Nat.mod_lt n hpos, rfl⟩
  · rw [hnothing hs] at h
    cases h

lemma CardStream.datagram_mem_send (hs : (s.nextFrame picture width height).Sendable) {i : ℕ}
    (hi : i < (s.nextFrame picture width height).total) :
    (s.nextFrame picture width height).datagram i ∈ (s.send picture width height).datagrams := by
  rw [(s.send_sends picture width height).1 hs]
  refine List.mem_map.mpr ⟨i, List.mem_range.mpr ?_, by rw [Nat.mod_eq_of_lt hi]⟩
  exact hi.trans_le (Nat.le_mul_of_pos_right _ s.copies_pos)

end Emission

end Ledwall.Wire
