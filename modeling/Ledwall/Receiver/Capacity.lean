import Ledwall.Receiver.Rejections
import Ledwall.Receiver.RoundTrip

/-! Which images of the framebuffer's size the sender and the card can pass between them. -/

namespace Ledwall.Receiver

open BitmapReceiver Ledwall.Library.Chunking Ledwall.Library.Outcomes Ledwall.Wire

/-- The pixels the arrival mask covers in wide chunks: 512 of 486. -/
def maskPixels : ℕ := MAX_CHUNKS * Wire.PIXELS_PER_CHUNK_WIDE

/-- The images the arrival mask has room for: every indexed one, RGB ones up to `maskPixels`. -/
def Streams (picture : Picture) (pixels : ℕ) : Prop :=
  picture.format.isIndexed = true ∨ pixels ≤ maskPixels

section Totals

variable {s : CardStream} {picture : Picture} {width height : ℕ}

lemma nextFrame_total (hbody : picture.body.length = width * height * picture.format.bytesPerPixel) :
    (s.nextFrame picture width height).total =
      count picture.format.pixelsPerChunk (width * height) :=
  Frame.total_eq_count (f := s.nextFrame picture width height) hbody

lemma rgb_format {body : List Byte} (hbody : body.length = width * height * 3) :
    (Picture.rgb body).format =
      if Wire.MAX_CHUNKS_NARROW < count Wire.PIXELS_PER_CHUNK (width * height) then .wide else .narrow := by
  have hc : chunkTotal body.length BYTES_PER_CHUNK = count Wire.PIXELS_PER_CHUNK (width * height) := by
    rw [hbody]
    exact count_mul (by decide) (by decide)
  rw [Picture.format, hc]

lemma rgb_length {body : List Byte}
    (hbody : (Picture.rgb body).body.length =
      width * height * (Picture.rgb body).format.bytesPerPixel) :
    body.length = width * height * 3 := by
  have hp : (Picture.rgb body).format.bytesPerPixel = 3 := by
    simp only [Picture.format]
    split <;> rfl
  rwa [hp] at hbody

lemma nextFrame_total_lt (hmax : width * height ≤ MAX_IMG_PIXELS)
    (hbody : picture.body.length = width * height * picture.format.bytesPerPixel) :
    (s.nextFrame picture width height).total <
      if picture.format.isWide then 65536 else 256 := by
  have hword : MAX_IMG_PIXELS = 327680 := rfl
  rw [nextFrame_total hbody]
  cases picture with
  | rgb body =>
    rw [rgb_format (rgb_length hbody)]
    split
    · have hstride : Format.wide.pixelsPerChunk = 486 := rfl
      refine Nat.lt_succ_of_le ((count_le_iff (Format.pixelsPerChunk_pos _)).mpr ?_)
      omega
    · rename_i hw
      exact Nat.lt_succ_of_le (not_lt.mp hw)
  | indexed body =>
    have hstride : (Picture.indexed body).format.pixelsPerChunk = 1461 := rfl
    refine Nat.lt_succ_of_le ((count_le_iff (Format.pixelsPerChunk_pos _)).mpr ?_)
    omega

lemma nextFrame_sendable (hw : width < 65536) (hh : height < 65536)
    (hmax : width * height ≤ MAX_IMG_PIXELS)
    (hbody : picture.body.length = width * height * picture.format.bytesPerPixel) :
    (s.nextFrame picture width height).Sendable :=
  ⟨Nat.mod_lt _ (by decide), hw, hh, hbody, nextFrame_total_lt hmax hbody⟩

lemma nextFrame_total_le_iff (hmax : width * height ≤ MAX_IMG_PIXELS)
    (hbody : picture.body.length = width * height * picture.format.bytesPerPixel) :
    (s.nextFrame picture width height).total ≤ MAX_CHUNKS ↔ Streams picture (width * height) := by
  have hword : MAX_IMG_PIXELS = 327680 := rfl
  rw [nextFrame_total hbody, Streams]
  cases picture with
  | rgb body =>
    rw [rgb_format (rgb_length hbody)]
    have hpos : 0 < Wire.PIXELS_PER_CHUNK := by decide
    split
    · rename_i hw
      simp only [Format.isIndexed, Bool.false_eq_true, false_or]
      exact count_le_iff (Format.pixelsPerChunk_pos _)
    · rename_i hw
      have hn : width * height ≤ Wire.MAX_CHUNKS_NARROW * Wire.PIXELS_PER_CHUNK :=
        (count_le_iff hpos).mp (not_lt.mp hw)
      simp only [Format.isIndexed, Bool.false_eq_true, false_or]
      refine iff_of_true ?_ ?_
      · exact (not_lt.mp hw).trans (by decide)
      · exact hn.trans (by decide)
  | indexed body =>
    have hstride : (Picture.indexed body).format.pixelsPerChunk = 1461 := rfl
    have hmask : MAX_CHUNKS = 512 := rfl
    refine iff_of_true ((count_le_iff (Format.pixelsPerChunk_pos _)).mpr ?_) (.inl rfl)
    rw [hstride, hmask]
    omega

end Totals

section Packets

variable {s : CardStream} {picture : Picture} {width height : ℕ} {r : BitmapReceiver} {h : Hub75}
  {data : Slice}

lemma send_suits {d : Datagram} (hd : d ∈ (s.send picture width height).datagrams) :
    Suits width height (s.nextFrame picture width height) :=
  ⟨(CardStream.mem_send hd).1, rfl, rfl⟩

lemma processPacket_takes (himage : h.getImgParam = (width, width * height))
    (ht : Takes (s.nextFrame picture width height))
    (hd : data.bytes ∈ (s.send picture width height).datagrams) (t : ℤ) :
    Ensures (fun o => o.rx.refusals = r.refusals) (r.processPacket h data t) := by
  obtain ⟨-, i, hi, hbytes⟩ := CardStream.mem_send hd
  obtain ⟨hw, hl⟩ := Prod.mk.inj himage
  have hlen : HEADER_SIZE ≤ data.bytes.length := by
    rw [hbytes, datagram_length]
    exact (headerSize_ge _).trans (Nat.le_add_right _ _)
  have hmagic := pixelMagic_datagram (s.nextFrame picture width height) i
  rw [← hbytes] at hmagic
  by_cases hlive : r.hold = false ∧ r.cpuPixels = true
  · have ha := (send_suits hd).accepts_of_image (q := (r.countPacket data).progress) (g := h.glass)
      hi ht hw hl
    rw [← hbytes] at ha
    rw [processPacket_pixel hlive.1 hlive.2 hlen hmagic]
    exact (pixelPacket_accepted ha).mono fun o ho => ho
  · exact processPacket_deaf hlive hlen hmagic

lemma processPacket_oversize (hhold : r.hold = false) (hcpu : r.cpuPixels = true)
    (hmax : MAX_CHUNKS < (s.nextFrame picture width height).total)
    (hd : data.bytes ∈ (s.send picture width height).datagrams) (t : ℤ) :
    ∃ o, r.processPacket h data t = .ok o ∧ o.presented = false ∧
      o.rx.stats.packetsBadHeader = inc32 r.stats.packetsBadHeader := by
  obtain ⟨hs, i, hi, hbytes⟩ := CardStream.mem_send hd
  have hlong : headerLen (s.nextFrame picture width height).format.isWide ≤ data.bytes.length := by
    rw [hbytes, headerLen_format, datagram_length]
    exact Nat.le_add_right _ _
  have hlen : HEADER_SIZE ≤ data.bytes.length := by
    rw [headerLen_format] at hlong
    exact (headerSize_ge _).trans hlong
  have hmagic := pixelMagic_datagram (s.nextFrame picture width height) i
  have hheader := headerOf_datagram hs hi
  rw [← hbytes] at hmagic hheader
  have htotal : MAX_CHUNKS < (headerOf data.bytes
      (s.nextFrame picture width height).format.isWide).totalChunks := by
    rw [hheader]
    exact hmax
  rw [processPacket_pixel hhold hcpu hlen hmagic, pixelPacket_oversize hlong htotal]
  refine ⟨_, rfl, rfl, ?_⟩
  have hkeep := latched_refusals (r.countPacket data) h
    (s.nextFrame picture width height).format.isIndexed
    (s.nextFrame picture width height).format.isWide
  exact congrArg (fun c : ℕ × ℕ × ℕ => inc32 c.2.1) hkeep

/-- An image that fits the framebuffer is sent without an error if its dimensions fit their 16-bit
fields. It is streamed, and completes, if it is indexed or the arrival mask covers it; else every
datagram of it is counted as a bad header. -/
theorem capacity (hpos : 0 < width * height) (hmax : width * height ≤ MAX_IMG_PIXELS)
    (s : CardStream) (picture : Picture)
    (hbody : picture.body.length = width * height * picture.format.bytesPerPixel) :
    ((s.send picture width height).result = .ok () ↔ width < 65536 ∧ height < 65536) ∧
    (Streams picture (width * height) →
      (∀ (r : BitmapReceiver) (h : Hub75), h.getImgParam = (width, width * height) →
        ∀ d : Slice, d.bytes ∈ (s.send picture width height).datagrams → ∀ t,
          Ensures (fun o => o.rx.refusals = r.refusals) (r.processPacket h d t)) ∧
      ∀ (r : BitmapReceiver) (h : Hub75), Ready width height r h → ∀ ds last,
        Delivery (s.send picture width height).datagrams ds last →
        ∃ r' h', r.deliver h (ds ++ [last]) = .ok (ds.map (fun _ => false) ++ [true], r', h') ∧
          ∀ i < width * height, h'.displayBuffer i = picture.word i) ∧
    (¬ Streams picture (width * height) →
      ∀ (r : BitmapReceiver) (h : Hub75), r.hold = false → r.cpuPixels = true →
        ∀ d : Slice, d.bytes ∈ (s.send picture width height).datagrams → ∀ t,
          ∃ o, r.processPacket h d t = .ok o ∧ o.presented = false ∧
            o.rx.stats.packetsBadHeader = inc32 r.stats.packetsBadHeader) := by
  have hroom := nextFrame_total_le_iff (s := s) hmax hbody
  refine ⟨?_, fun hs => ⟨fun r h himage d hd t => ?_, fun r h hr ds last hdel => ?_⟩,
    fun hs r h hhold hcpu d hd t => ?_⟩
  · apply CardStream.send_returns_iff hbody (nextFrame_total_lt hmax hbody)
    rw [nextFrame_total hbody]
    exact (count_pos_iff picture.format.pixelsPerChunk_pos).mpr hpos
  · exact processPacket_takes himage ⟨hroom.mpr hs, hmax⟩ hd t
  · obtain ⟨r', h', he, -, hpicture, -⟩ := hdel.shown hr (hroom.mpr hs) hmax
    exact ⟨r', h', he, hpicture⟩
  · exact processPacket_oversize hhold hcpu (not_le.mp fun ht => hs (hroom.mp ht)) hd t

end Packets

/-- The wall of three by three modules the framebuffer is sized for, black. -/
def wall : Picture := .rgb (List.replicate (768 * 384 * 3) 0)

lemma wall_length : wall.body.length = 768 * 384 * wall.format.bytesPerPixel := by
  have hp : wall.format.bytesPerPixel = 3 := by
    simp only [wall, Picture.format]
    split <;> rfl
  rw [hp]
  exact List.length_replicate

/-- A fresh receiver set up for the wall refuses what it is sent. -/
theorem wall_refused : 0 < 768 * 384 ∧ 768 * 384 ≤ MAX_IMG_PIXELS ∧
    ∃ d ∈ ((⟨0, 0, 0, 1⟩ : CardStream).send wall 768 384).datagrams,
      ∃ o, ({} : BitmapReceiver).processPacket (blank 768 384) ⟨0, d⟩ 0 = .ok o ∧
        o.rx.stats.packetsBadHeader = 1 := by
  have hmax : 768 * 384 ≤ MAX_IMG_PIXELS := by decide
  have hroom := nextFrame_total_le_iff (s := ⟨0, 0, 0, 1⟩) hmax wall_length
  have hbig : ¬ Streams wall (768 * 384) := by
    rintro (hi | hp)
    · simp only [wall, Picture.format] at hi
      split at hi <;> cases hi
    · exact absurd hp (by decide)
  have hlarge : MAX_CHUNKS < ((⟨0, 0, 0, 1⟩ : CardStream).nextFrame wall 768 384).total :=
    not_le.mp fun ht => hbig (hroom.mp ht)
  have hs := nextFrame_sendable (s := ⟨0, 0, 0, 1⟩) (by decide) (by decide) hmax wall_length
  have hd := CardStream.datagram_mem_send hs (i := 0) (Nat.zero_lt_of_lt hlarge)
  have hslice : (⟨0, _⟩ : Slice).bytes ∈ (CardStream.send _ wall 768 384).datagrams := hd
  obtain ⟨o, ho, -, hbad⟩ := processPacket_oversize (r := {}) (h := blank 768 384) rfl rfl hlarge
    hslice 0
  exact ⟨by decide, hmax, _, hd, o, ho, hbad⟩

theorem capacity_wall : ((⟨0, 0, 0, 1⟩ : CardStream).send wall 768 384).result = .ok () :=
  (capacity (by decide) (by decide) ⟨0, 0, 0, 1⟩ wall
    wall_length).1.mpr ⟨by decide, by decide⟩

end Ledwall.Receiver
