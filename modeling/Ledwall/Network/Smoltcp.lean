import Ledwall.Wire.Protocol

/-! The vendored network stack, from an Ethernet frame to the payload a UDP socket receives. -/

namespace Ledwall.Network

open Ledwall.Wire

inductive StackError
  | truncated
  | malformed
  | checksum
  | fragmented
  | unrecognized
  deriving DecidableEq, Repr

def readU16 (data : List Byte) (k : ℕ) : ℕ :=
  (data.getD k 0).toNat * 256 + (data.getD (k + 1) 0).toNat

abbrev Ipv4Address : Type := Vector Byte 4

abbrev EthernetAddress : Type := Vector Byte 6

def fromBytes {n : ℕ} (data : List Byte) (k : ℕ) : Vector Byte n :=
  Vector.ofFn fun i => data.getD (k + i) 0

namespace Checksum

/-- The 16-bit words summed up, an odd last byte as a high one. -/
def accum : List Byte → ℕ
  | a :: b :: rest => a.toNat * 256 + b.toNat + accum rest
  | [a] => a.toNat * 256
  | [] => 0

def propagateCarries (word : ℕ) : ℕ :=
  let sum := word / 65536 + word % 65536
  sum / 65536 + sum % 65536

def data (d : List Byte) : ℕ := propagateCarries (accum d)

def combine (checksums : List ℕ) : ℕ := propagateCarries checksums.sum

def pseudoHeader (src dst : Ipv4Address) (protocol : Byte) (length : ℕ) : ℕ :=
  combine [data src.toList, data dst.toList,
    data [0, protocol, BitVec.ofNat 8 (length / 256), BitVec.ofNat 8 length]]

end Checksum

def PROTOCOL_UDP : Byte := 17

namespace EthernetAddress

variable (a : EthernetAddress)

def isMulticast : Bool := a[0] &&& 0x01 != 0

def isUnicast : Bool := !(a == Vector.replicate 6 0xFF || isMulticast a)

end EthernetAddress

namespace Ipv4Address

variable (a : Ipv4Address)

def toU32 : BitVec 32 := a.get 0 ++ a.get 1 ++ a.get 2 ++ a.get 3

def isBroadcast : Bool := a == Vector.replicate 4 255

def isMulticast : Bool := a[0] &&& 0xF0 == 224

def isUnspecified : Bool := a[0] == 0

def isUnicast : Bool := !(isBroadcast a || isMulticast a || isUnspecified a)

end Ipv4Address

structure Cidr where
  address : Ipv4Address
  prefixLen : ℕ
  deriving DecidableEq

namespace Cidr

def netmask (c : Cidr) : BitVec 32 := if c.prefixLen = 0 then 0 else 0xffffffff#32 <<< (32 - c.prefixLen)

def broadcast (c : Cidr) : Option (BitVec 32) :=
  if c.prefixLen = 31 ∨ c.prefixLen = 32 then none
  else some ((Ipv4Address.toU32 c.address &&& c.netmask) ||| 0xffffffff#32 >>> c.prefixLen)

end Cidr

/-- An IPv4 packet, as bytes. -/
abbrev Ipv4Packet : Type := List Byte

namespace Ipv4Packet

variable (p : Ipv4Packet)

def HEADER_LEN : ℕ := 20

def version : ℕ := (p.getD 0 0).toNat / 16

def headerLen : ℕ := (p.getD 0 0 &&& 0x0F#8).toNat * 4

def totalLen : ℕ := readU16 p 2

def moreFrags : Bool := decide (readU16 p 6 / 0x2000 % 2 ≠ 0)

def fragOffset : ℕ := readU16 p 6 * 8 % 65536

def protocol : Byte := p.getD 9 0

def srcAddr : Ipv4Address := fromBytes p 12

def dstAddr : Ipv4Address := fromBytes p 16

def checkLen : Except StackError Unit :=
  if p.length < HEADER_LEN then .error .truncated
  else if p.length < headerLen p then .error .truncated
  else if totalLen p < headerLen p then .error .malformed
  else if p.length < totalLen p then .error .truncated
  else .ok ()

def verifyChecksum : Bool := Checksum.data (p.take (headerLen p)) == 65535

def payload : List Byte := (p.take (totalLen p)).drop (headerLen p)

/-- The checks of `Ipv4Repr::parse`. -/
def parse : Except StackError Unit :=
  if version p ≠ 4 then .error .malformed
  else if verifyChecksum p = false then .error .checksum
  else if moreFrags p = true ∨ fragOffset p ≠ 0 then .error .fragmented
  else if (payload p).length < totalLen p - headerLen p then .error .truncated
  else .ok ()

end Ipv4Packet

/-- A UDP packet, as bytes. -/
abbrev UdpPacket : Type := List Byte

namespace UdpPacket

variable (p : UdpPacket)

def HEADER_LEN : ℕ := 8

def srcPort : ℕ := readU16 p 0

def dstPort : ℕ := readU16 p 2

def len : ℕ := readU16 p 4

def checksum : ℕ := readU16 p 6

def checkLen : Except StackError Unit :=
  if p.length < HEADER_LEN then .error .truncated
  else if p.length < len p then .error .truncated
  else if len p < HEADER_LEN then .error .malformed
  else .ok ()

def verifyChecksum (src dst : Ipv4Address) : Bool :=
  Checksum.combine [Checksum.pseudoHeader src dst PROTOCOL_UDP (len p),
    Checksum.data (p.take (len p))] == 65535

def payload : List Byte := (p.take (len p)).drop HEADER_LEN

/-- The checks of `UdpRepr::parse`: over IPv4 the checksum may be left out. -/
def parse (src dst : Ipv4Address) : Except StackError Unit :=
  if dstPort p = 0 then .error .malformed
  else if verifyChecksum p src dst = false ∧ checksum p ≠ 0 then .error .checksum
  else .ok ()

end UdpPacket

structure Iface where
  hardwareAddr : EthernetAddress
  ipAddrs : List Cidr

namespace Iface

variable (i : Iface)

def hasIpAddr (a : Ipv4Address) : Bool := i.ipAddrs.any fun c => c.address == a

def isSubnetBroadcast (a : Ipv4Address) : Bool :=
  i.ipAddrs.any fun c => c.broadcast == some (Ipv4Address.toU32 a)

def isBroadcastV4 (a : Ipv4Address) : Bool := Ipv4Address.isBroadcast a || i.isSubnetBroadcast a

def isUnicastV4 (a : Ipv4Address) : Bool := Ipv4Address.isUnicast a && !i.isSubnetBroadcast a

/-- What the socket bound to `port` gets of a datagram, if anything. -/
def processUdp (port : ℕ) (src dst : Ipv4Address) (p : UdpPacket) :
    Except StackError (Option (List Byte)) :=
  p.checkLen.bind fun _ => (p.parse src dst).bind fun _ =>
    .ok (if p.dstPort = port then some p.payload else none)

/-- Other protocols bring a UDP socket nothing. -/
def processIpv4 (port : ℕ) (p : Ipv4Packet) : Except StackError (Option (List Byte)) :=
  p.parse.bind fun _ =>
    if i.isUnicastV4 p.srcAddr = false then .error .malformed
    else if p.protocol = PROTOCOL_UDP then
      (UdpPacket.checkLen p.payload).bind fun _ =>
        if UdpPacket.srcPort p.payload = 67 ∧ UdpPacket.dstPort p.payload = 68 then .ok none
        else if i.hasIpAddr p.dstAddr = false ∧ i.isBroadcastV4 p.dstAddr = false then .ok none
        else processUdp port p.srcAddr p.dstAddr p.payload
    else .ok none

def isForUs (a : EthernetAddress) : Bool :=
  a == Vector.replicate 6 0xFF || a[0] &&& 0x01 != 0 || a == i.hardwareAddr

/-- The payload that a frame brings the UDP socket bound to `port`. -/
def processEthernet (port : ℕ) (frame : List Byte) : Except StackError (Option (List Byte)) :=
  if frame.length < 14 then .error .truncated
  else if i.isForUs (fromBytes frame 0) = false then .ok none
  else if readU16 frame 12 = 0x0800 then
    (Ipv4Packet.checkLen (frame.drop 14)).bind fun _ => i.processIpv4 port (frame.drop 14)
  else if readU16 frame 12 = 0x0806 then .ok none
  else .error .unrecognized

end Iface

/-- A packet that is whole: the header is right, its lengths fit and it is no fragment. -/
structure Ipv4Packet.Sound (p : Ipv4Packet) : Prop where
  long : HEADER_LEN ≤ p.length
  header_le : p.headerLen ≤ p.totalLen
  total_le : p.totalLen ≤ p.length
  version : p.version = 4
  checksum : p.verifyChecksum = true
  last : p.moreFrags = false
  first : p.fragOffset = 0

structure UdpPacket.Sound (p : UdpPacket) (src dst : Ipv4Address) : Prop where
  long : HEADER_LEN ≤ p.len
  len_le : p.len ≤ p.length
  port : p.dstPort ≠ 0
  checksum : p.verifyChecksum src dst = true ∨ p.checksum = 0

/-- The addresses are those of a packet sent to the interface. -/
structure Iface.Receives (i : Iface) (frame : List Byte) : Prop where
  hardware : i.isForUs (fromBytes frame 0) = true
  src : i.isUnicastV4 (Ipv4Packet.srcAddr (frame.drop 14)) = true
  dst : i.hasIpAddr (Ipv4Packet.dstAddr (frame.drop 14)) = true ∨
    i.isBroadcastV4 (Ipv4Packet.dstAddr (frame.drop 14)) = true

section Accepting

variable {i : Iface} {port : ℕ} {src dst : Ipv4Address} {frame d : List Byte}

lemma Ipv4Packet.checks_iff {p : Ipv4Packet} : p.checkLen = .ok () ∧ p.parse = .ok () ↔ p.Sound := by
  unfold checkLen parse
  constructor
  · rintro ⟨hlen, hparse⟩
    split_ifs at hlen hparse with h₁ h₂ h₃ h₄ h₅ h₆ h₇ h₈
    refine ⟨Nat.le_of_not_lt h₁, Nat.le_of_not_lt h₃, Nat.le_of_not_lt h₄, not_not.mp h₅, ?_, ?_, ?_⟩
    · exact Bool.eq_true_of_not_eq_false h₆
    · exact Bool.eq_false_of_not_eq_true fun h => h₇ (.inl h)
    · exact not_not.mp fun h => h₇ (.inr h)
  · intro hp
    have h₁ := hp.long
    have h₂ := hp.header_le
    have h₃ := hp.total_le
    have h₄ : (payload p).length = totalLen p - headerLen p := by
      rw [payload, List.length_drop, List.length_take, min_eq_left h₃]
    rw [if_neg (by omega), if_neg (by omega), if_neg (by omega), if_neg (by omega),
      if_neg (not_not.mpr hp.version), hp.checksum, hp.last, hp.first, h₄]
    simp

lemma UdpPacket.checks_iff {p : UdpPacket} :
    p.checkLen = .ok () ∧ p.parse src dst = .ok () ↔ p.Sound src dst := by
  unfold checkLen parse
  constructor
  · rintro ⟨hlen, hparse⟩
    split_ifs at hlen hparse with h₁ h₂ h₃ h₄ h₅
    refine ⟨Nat.le_of_not_lt h₃, Nat.le_of_not_lt h₂, h₄, ?_⟩
    by_contra hc
    obtain ⟨h₆, h₇⟩ := not_or.mp hc
    exact h₅ ⟨Bool.eq_false_of_not_eq_true h₆, h₇⟩
  · intro hp
    have h₁ := hp.long
    have h₂ := hp.len_le
    have h₃ : ¬ (verifyChecksum p src dst = false ∧ checksum p ≠ 0) := by
      rintro ⟨hv, hc⟩
      rcases hp.checksum with h | h
      · exact Bool.false_ne_true (hv.symm.trans h)
      · exact hc h
    rw [if_neg (by omega), if_neg (by omega), if_neg (by omega), if_neg hp.port, if_neg h₃]
    exact ⟨rfl, rfl⟩

section Results

variable {ε α : Type*} {c : Prop} [Decidable c] {a : α}

lemma andThen_iff {x : Except ε Unit} {y : Except ε α} :
    (x.bind fun _ => y) = .ok a ↔ x = .ok () ∧ y = .ok a := by
  cases x with
  | error e =>
    constructor
    · intro h
      cases h
    · rintro ⟨h, -⟩
      cases h
  | ok u => exact ⟨fun h => ⟨rfl, h⟩, fun h => h.2⟩

lemma unless_iff {x y : Except ε α} (hy : y ≠ .ok a) :
    (if c then y else x) = .ok a ↔ ¬ c ∧ x = .ok a := by
  by_cases hc : c
  · rw [if_pos hc]
    exact ⟨fun h => absurd h hy, fun h => absurd hc h.1⟩
  · rw [if_neg hc]
    exact ⟨fun h => ⟨hc, h⟩, fun h => h.2⟩

lemma when_iff {x y : Except ε α} (hy : y ≠ .ok a) :
    (if c then x else y) = .ok a ↔ c ∧ x = .ok a := by
  by_cases hc : c
  · rw [if_pos hc]
    exact ⟨fun h => ⟨hc, h⟩, fun h => h.2⟩
  · rw [if_neg hc]
    exact ⟨fun h => absurd h hy, fun h => absurd h.1 hc⟩

end Results

lemma processUdp_iff {p : UdpPacket} : Iface.processUdp port src dst p = .ok (some d) ↔
    p.Sound src dst ∧ p.dstPort = port ∧ d = p.payload := by
  unfold Iface.processUdp
  rw [andThen_iff, andThen_iff, ← and_assoc, UdpPacket.checks_iff, and_congr_right_iff]
  intro _
  split
  · rename_i hport
    constructor
    · intro h
      cases h
      exact ⟨hport, rfl⟩
    · rintro ⟨-, rfl⟩
      rfl
  · rename_i hport
    constructor
    · intro h
      cases h
    · rintro ⟨h, -⟩
      exact absurd h hport

/-- The socket bound to `port` receives exactly the payloads of whole datagrams sent to it. -/
theorem processEthernet_iff (hport : port ≠ 68) : i.processEthernet port frame = .ok (some d) ↔
    14 ≤ frame.length ∧ readU16 frame 12 = 0x0800 ∧ i.Receives frame ∧
      Ipv4Packet.Sound (frame.drop 14) ∧ Ipv4Packet.protocol (frame.drop 14) = PROTOCOL_UDP ∧
      UdpPacket.Sound (Ipv4Packet.payload (frame.drop 14)) (Ipv4Packet.srcAddr (frame.drop 14))
        (Ipv4Packet.dstAddr (frame.drop 14)) ∧
      UdpPacket.dstPort (Ipv4Packet.payload (frame.drop 14)) = port ∧
      d = UdpPacket.payload (Ipv4Packet.payload (frame.drop 14)) := by
  have hnone : (Except.ok none : Except StackError (Option (List Byte))) ≠ .ok (some d) := by
    intro h
    cases h
  have herror (e : StackError) : (Except.error e : Except StackError _) ≠ .ok (some d) := by
    intro h
    cases h
  have hother : (if readU16 frame 12 = 0x0806 then .ok none
      else (.error .unrecognized : Except StackError (Option (List Byte)))) ≠ .ok (some d) := by
    split
    · exact hnone
    · exact herror _
  have hours : ¬ (i.hasIpAddr (Ipv4Packet.dstAddr (frame.drop 14)) = false ∧
      i.isBroadcastV4 (Ipv4Packet.dstAddr (frame.drop 14)) = false) ↔
      i.hasIpAddr (Ipv4Packet.dstAddr (frame.drop 14)) = true ∨
        i.isBroadcastV4 (Ipv4Packet.dstAddr (frame.drop 14)) = true := by
    rw [not_and_or, Bool.not_eq_false, Bool.not_eq_false]
  unfold Iface.processEthernet Iface.processIpv4
  rw [unless_iff (herror _), unless_iff hnone, when_iff hother, andThen_iff, andThen_iff,
    unless_iff (herror _), when_iff hnone, andThen_iff, unless_iff hnone, unless_iff hnone, hours,
    processUdp_iff, Nat.not_lt, Bool.not_eq_false, Bool.not_eq_false]
  constructor
  · rintro ⟨hlen, hhw, htype, hip₁, hip₂, hsrc, hproto, -, -, hdst, hudp, hp, hd⟩
    exact ⟨hlen, htype, ⟨hhw, hsrc, hdst⟩, Ipv4Packet.checks_iff.mp ⟨hip₁, hip₂⟩, hproto, hudp, hp, hd⟩
  · rintro ⟨hlen, htype, ⟨hhw, hsrc, hdst⟩, hip, hproto, hudp, hp, hd⟩
    obtain ⟨hip₁, hip₂⟩ := Ipv4Packet.checks_iff.mpr hip
    have hdhcp : ¬ (UdpPacket.srcPort (Ipv4Packet.payload (frame.drop 14)) = 67 ∧
        UdpPacket.dstPort (Ipv4Packet.payload (frame.drop 14)) = 68) := by
      rintro ⟨-, h68⟩
      exact hport (hp.symm.trans h68)
    exact ⟨hlen, hhw, htype, hip₁, hip₂, hsrc, hproto, (UdpPacket.checks_iff.mpr hudp).1, hdhcp,
      hdst, hudp, hp, hd⟩

end Accepting

end Ledwall.Network
