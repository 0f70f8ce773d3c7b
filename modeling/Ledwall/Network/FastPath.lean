import Ledwall.Network.Smoltcp
import Ledwall.Receiver.PaletteBanks

/-! Bitmap datagrams taken straight from the frame, against what the network stack would deliver. -/

namespace Ledwall.Network

open Ledwall.Receiver Ledwall.Wire

def ihl (frame : List Byte) : ℕ := (frame.getD 14 0 &&& 0x0F#8).toNat

def isBitmapUdp (frame : List Byte) : Bool :=
  if frame.length < 52 then false
  else if frame.getD 12 0 ≠ 0x08 ∨ frame.getD 13 0 ≠ 0x00 then false
  else if ihl frame < 5 then false
  else
    let udpOffset := 14 + ihl frame * 4
    if frame.length < udpOffset + 18 then false
    else if frame.getD 23 0 ≠ 17 then false
    else readU16 frame (udpOffset + 2) == 7000

/-- The slice of the frame that `process_raw_bitmap` hands over. -/
def rawPayload (frame : Slice) : Except Panic Slice := do
  let versionIhl ← frame.get 14
  frame.from (14 + (versionIhl &&& 0x0F#8).toNat * 4 + 8)

/-- A frame taken straight hands over what the socket would receive. -/
def HandsPayload (i : Iface) (frame : Slice) : Prop :=
  isBitmapUdp frame.bytes = true → ∃ data, rawPayload frame = .ok data ∧
    i.processEthernet 7000 frame.bytes = .ok (some data.bytes)

/-- The frame brings the interface a whole datagram, and no byte after it. -/
structure Exact (i : Iface) (frame : List Byte) : Prop where
  receives : i.Receives frame
  ip : Ipv4Packet.Sound (frame.drop 14)
  udp : UdpPacket.Sound (Ipv4Packet.payload (frame.drop 14)) (Ipv4Packet.srcAddr (frame.drop 14))
    (Ipv4Packet.dstAddr (frame.drop 14))
  ends : 14 + ihl frame * 4 + UdpPacket.len (frame.drop (14 + ihl frame * 4)) = frame.length

section Comparing

variable {i : Iface} {frame : List Byte}

lemma readU16_drop (data : List Byte) (n k : ℕ) : readU16 (data.drop n) k = readU16 data (n + k) := by
  simp only [readU16, List.getD_eq_getElem?_getD, List.getElem?_drop, Nat.add_assoc]

lemma readU16_take {data : List Byte} {n k : ℕ} (h : k + 1 < n) :
    readU16 (data.take n) k = readU16 data k := by
  simp only [readU16, List.getD_eq_getElem?_getD, List.getElem?_take_of_lt h,
    List.getElem?_take_of_lt (Nat.lt_of_succ_lt h)]

/-- What `is_bitmap_udp` looks at. -/
structure Looks (frame : List Byte) : Prop where
  ethertype : readU16 frame 12 = 0x0800
  header : 5 ≤ ihl frame
  room : 14 + ihl frame * 4 + 18 ≤ frame.length
  protocol : Ipv4Packet.protocol (frame.drop 14) = PROTOCOL_UDP
  port : readU16 frame (14 + ihl frame * 4 + 2) = 7000

lemma looks_of_isBitmapUdp (h : isBitmapUdp frame = true) : Looks frame := by
  unfold isBitmapUdp at h
  dsimp only at h
  split_ifs at h with h₁ h₂ h₃ h₄ h₅
  obtain ⟨ha, hb⟩ := not_or.mp h₂
  refine ⟨?_, Nat.le_of_not_lt h₃, Nat.le_of_not_lt h₄, ?_, beq_iff_eq.mp h⟩
  · rw [readU16, not_not.mp ha, not_not.mp hb]
    rfl
  · have hbyte : Ipv4Packet.protocol (frame.drop 14) = frame.getD 23 0 := by
      simp only [Ipv4Packet.protocol, List.getD_eq_getElem?_getD, List.getElem?_drop]
    rw [hbyte]
    exact not_not.mp h₅

lemma headerLen_eq (frame : List Byte) : Ipv4Packet.headerLen (frame.drop 14) = ihl frame * 4 := by
  simp only [Ipv4Packet.headerLen, ihl, List.getD_eq_getElem?_getD, List.getElem?_drop, Nat.add_zero]

lemma rawPayload_ok {s : Slice} (h : Looks s.bytes) :
    rawPayload s = .ok ⟨s.addr + (14 + ihl s.bytes * 4 + 8),
      s.bytes.drop (14 + ihl s.bytes * 4 + 8)⟩ := by
  have hroom := h.room
  simp only [rawPayload, s.get_ok (show 14 < s.bytes.length by omega), bind, Except.bind]
  exact s.from_ok (show 14 + ihl s.bytes * 4 + 8 ≤ s.bytes.length by omega)

lemma udp_eq :
    Ipv4Packet.payload (frame.drop 14) = (frame.drop (14 + ihl frame * 4)).take
      (Ipv4Packet.totalLen (frame.drop 14) - ihl frame * 4) := by
  rw [Ipv4Packet.payload, headerLen_eq, List.drop_take, List.drop_drop]

lemma udp_reads (hudp : UdpPacket.Sound (Ipv4Packet.payload (frame.drop 14))
    (Ipv4Packet.srcAddr (frame.drop 14)) (Ipv4Packet.dstAddr (frame.drop 14))) :
    UdpPacket.len (Ipv4Packet.payload (frame.drop 14)) =
        UdpPacket.len (frame.drop (14 + ihl frame * 4)) ∧
      UdpPacket.dstPort (Ipv4Packet.payload (frame.drop 14)) =
        readU16 frame (14 + ihl frame * 4 + 2) ∧
      UdpPacket.len (frame.drop (14 + ihl frame * 4)) ≤
        Ipv4Packet.totalLen (frame.drop 14) - ihl frame * 4 ∧
      8 ≤ UdpPacket.len (frame.drop (14 + ihl frame * 4)) := by
  have hlong : 8 ≤ UdpPacket.len (Ipv4Packet.payload (frame.drop 14)) := hudp.long
  have hle := hudp.len_le
  have hcut : (Ipv4Packet.payload (frame.drop 14)).length ≤
      Ipv4Packet.totalLen (frame.drop 14) - ihl frame * 4 := by
    rw [udp_eq]
    exact List.length_take_le _ _
  have hlen : UdpPacket.len (Ipv4Packet.payload (frame.drop 14)) =
      UdpPacket.len (frame.drop (14 + ihl frame * 4)) := by
    rw [UdpPacket.len, UdpPacket.len, udp_eq, readU16_take (by omega)]
  have hport : UdpPacket.dstPort (Ipv4Packet.payload (frame.drop 14)) =
      readU16 frame (14 + ihl frame * 4 + 2) := by
    rw [UdpPacket.dstPort, udp_eq, readU16_take (by omega), readU16_drop]
  exact ⟨hlen, hport, hlen ▸ hle.trans hcut, hlen ▸ hlong⟩

/-- A frame taken straight hands over exactly the payload if and only if it is a whole datagram for
the card that reaches to the end of the frame. -/
theorem handsPayload_iff (i : Iface) (frame : Slice) :
    HandsPayload i frame ↔ (isBitmapUdp frame.bytes = true → Exact i frame.bytes) := by
  unfold HandsPayload
  apply imp_congr_right
  intro h
  obtain ⟨addr, frame⟩ := frame
  have hl := looks_of_isBitmapUdp h
  have hroom := hl.room
  dsimp only at h hl hroom ⊢
  rw [rawPayload_ok hl]
  have hlen : (frame.drop (14 + ihl frame * 4)).length = frame.length - (14 + ihl frame * 4) :=
    List.length_drop
  constructor
  · rintro ⟨_, ⟨⟩, hsock⟩
    obtain ⟨-, -, hrec, hip, -, hudp, -, hd⟩ := (processEthernet_iff (by decide)).mp hsock
    obtain ⟨hudplen, -, -, hlong⟩ := udp_reads hudp
    refine ⟨hrec, hip, hudp, ?_⟩
    have hcount := congrArg List.length hd
    have hle := hudp.len_le
    simp only [UdpPacket.payload, List.length_drop, List.length_take, UdpPacket.HEADER_LEN] at hcount
    omega
  · rintro ⟨hrec, hip, hudp, hend⟩
    obtain ⟨hudplen, hport, hcut, hlong⟩ := udp_reads hudp
    have hwhole : Ipv4Packet.payload (frame.drop 14) = frame.drop (14 + ihl frame * 4) := by
      rw [udp_eq]
      apply List.take_of_length_le
      omega
    refine ⟨_, rfl, (processEthernet_iff (by decide)).mpr ?_⟩
    refine ⟨by omega, hl.ethertype, hrec, hip, hl.protocol, hudp, hport.trans hl.port, ?_⟩
    have hall : (frame.drop (14 + ihl frame * 4)).length ≤
        UdpPacket.len (frame.drop (14 + ihl frame * 4)) := by omega
    rw [hwhole, UdpPacket.payload, List.take_of_length_le hall, List.drop_drop]
    rfl

/-- A card at 192.168.1.45. -/
def card : Iface := ⟨#v[0x02, 0, 0, 0, 0, 0x2D], [⟨#v[192, 168, 1, 45], 24⟩]⟩

/-- A palette of one entry, in a frame padded to the least Ethernet length. -/
def paddedPalette : List Byte :=
  [0x02, 0, 0, 0, 0, 0x2D, 0x02, 0, 0, 0, 0, 1, 0x08, 0,
    0x45, 0, 0, 41, 0, 0, 0, 0, 64, 17, 0xF7, 0x45, 192, 168, 1, 1, 192, 168, 1, 45,
    0x1B, 0x58, 0x1B, 0x58, 0, 21, 0, 0,
    0x42, 0x50, 0, 0, 7, 1, 0, 0, 0, 0, 255, 255, 255, 0, 0, 0, 0, 0]

/-- The same bytes as a fragment that is not the first. -/
def laterFragment : List Byte := (paddedPalette.set 21 1).set 25 0x44

/-- The padding goes over with the palette, and the fragment as a datagram. -/
theorem padding_handed_over :
    ¬ HandsPayload card ⟨0, paddedPalette⟩ ∧ ¬ HandsPayload card ⟨0, laterFragment⟩ := by
  constructor
  · intro h
    obtain ⟨data, hraw, hsock⟩ := h (by decide +kernel)
    have hlong : (rawPayload ⟨0, paddedPalette⟩).map (fun s => s.bytes.length) = .ok 18 := rfl
    have hshort : (card.processEthernet 7000 paddedPalette).map (Option.map List.length) =
        .ok (some 13) := by decide +kernel
    rw [hraw] at hlong
    rw [hsock] at hshort
    have h₁ : data.bytes.length = 18 := Except.ok.inj hlong
    have h₂ : data.bytes.length = 13 := Option.some.inj (Except.ok.inj hshort)
    omega
  · intro h
    obtain ⟨data, -, hsock⟩ := h (by decide +kernel)
    have herror : (card.processEthernet 7000 laterFragment).map (Option.map List.length) =
        .error .fragmented := by decide +kernel
    rw [hsock] at herror
    cases herror

end Comparing

end Ledwall.Network
