import Ledwall.Network.DhcpFallback
import Ledwall.Network.FastPath

/-! The filters in front of the network stack, against what the stack would do with the frames that
they drop. -/

namespace Ledwall.Network

open Ledwall.Wire

/-- What a frame brings a socket or the table of neighbors. -/
inductive Delivery
  | neighbor (protocolAddr : Ipv4Address) (hardwareAddr : EthernetAddress)
  | dhcp (p : UdpPacket)
  | udp (p : UdpPacket)
  | tcp (p : List Byte)
  | icmp (p : List Byte)
  deriving DecidableEq

def PROTOCOL_ICMP : Byte := 1

def PROTOCOL_TCP : Byte := 6

/-- An ARP packet, as bytes. -/
abbrev ArpPacket : Type := List Byte

namespace ArpPacket

variable (p : ArpPacket)

def hardwareLen : ℕ := (p.getD 4 0).toNat

def protocolLen : ℕ := (p.getD 5 0).toNat

def operation : ℕ := readU16 p 6

def sourceHardwareAddr : EthernetAddress := fromBytes p 8

def sourceProtocolAddr : Ipv4Address := fromBytes p 14

def targetProtocolAddr : Ipv4Address := fromBytes p 24

def checkLen : Except StackError Unit :=
  if p.length < 8 then .error .truncated
  else if p.length < 8 + 2 * (hardwareLen p + protocolLen p) then .error .truncated
  else .ok ()

/-- The checks of `ArpRepr::parse`. -/
def parse : Except StackError Unit :=
  if readU16 p 0 = 1 ∧ readU16 p 2 = 0x0800 ∧ hardwareLen p = 6 ∧ protocolLen p = 4 then .ok ()
  else .error .unrecognized

end ArpPacket

def Cidr.containsAddr (c : Cidr) (a : Ipv4Address) : Bool :=
  c.prefixLen == 0 ||
    Ipv4Address.toU32 c.address >>> (32 - c.prefixLen) == Ipv4Address.toU32 a >>> (32 - c.prefixLen)

namespace Iface

variable (i : Iface)

def inSameNetwork (a : Ipv4Address) : Bool := i.ipAddrs.any fun c => c.containsAddr a

def processArp (p : ArpPacket) : Except StackError (Option Delivery) :=
  p.checkLen.bind fun _ => p.parse.bind fun _ =>
    if i.hasIpAddr p.targetProtocolAddr = false then .ok none
    else if p.operation ≠ 1 ∧ p.operation ≠ 2 then .error .malformed
    else if Ipv4Address.isUnicast p.sourceProtocolAddr = false ∨
        EthernetAddress.isUnicast p.sourceHardwareAddr = false then .error .malformed
    else if i.inSameNetwork p.sourceProtocolAddr = false then .error .malformed
    else .ok (some (.neighbor p.sourceProtocolAddr p.sourceHardwareAddr))

/-- Datagrams for the DHCP client go to it wherever they are sent. -/
def dhcpFirst (p : Ipv4Packet) (rest : Except StackError (Option Delivery)) :
    Except StackError (Option Delivery) :=
  if p.protocol = PROTOCOL_UDP then
    (UdpPacket.checkLen p.payload).bind fun _ =>
      if UdpPacket.srcPort p.payload = 67 ∧ UdpPacket.dstPort p.payload = 68 then
        (UdpPacket.parse p.payload p.srcAddr p.dstAddr).bind fun _ => .ok (some (.dhcp p.payload))
      else rest
  else rest

/-- Packets of other protocols are answered with an ICMP error. -/
def deliverIpv4 (p : Ipv4Packet) : Except StackError (Option Delivery) :=
  p.parse.bind fun _ =>
    if i.isUnicastV4 p.srcAddr = false then .error .malformed
    else dhcpFirst p
      (if i.hasIpAddr p.dstAddr = false ∧ i.isBroadcastV4 p.dstAddr = false then .ok none
      else if p.protocol = PROTOCOL_ICMP then .ok (some (.icmp p.payload))
      else if p.protocol = PROTOCOL_UDP then
        (UdpPacket.checkLen p.payload).bind fun _ =>
          (UdpPacket.parse p.payload p.srcAddr p.dstAddr).bind fun _ => .ok (some (.udp p.payload))
      else if p.protocol = PROTOCOL_TCP then .ok (some (.tcp p.payload))
      else .ok none)

/-- What the stack makes of a frame. -/
def deliver (frame : List Byte) : Except StackError (Option Delivery) :=
  if frame.length < 14 then .error .truncated
  else if i.isForUs (fromBytes frame 0) = false then .ok none
  else if readU16 frame 12 = 0x0806 then i.processArp (frame.drop 14)
  else if readU16 frame 12 = 0x0800 then
    (Ipv4Packet.checkLen (frame.drop 14)).bind fun _ => i.deliverIpv4 (frame.drop 14)
  else .error .unrecognized

end Iface

def isForeignArp (ours : Ipv4Address) (frame : List Byte) : Bool :=
  if frame.length < 42 then false
  else if readU16 frame 12 ≠ 0x0806 then false
  else if ours = UNSPECIFIED then false
  else fromBytes frame 38 ≠ ours

def isMulticast (frame : List Byte) : Bool :=
  if frame.length < 6 then false
  else if frame.getD 0 0 &&& 0x01 = 0 then false
  else if frame.take 6 = List.replicate 6 0xFF then false
  else true

/-- The ports whose datagrams `is_unwanted_udp` lets through. -/
def keptPorts : List ℕ := [7000, 6454, 67, 68, 69, 6900, 6901]

def isUnwantedUdp (frame : List Byte) : Bool :=
  if frame.length < 44 then false
  else if frame.getD 12 0 ≠ 0x08 ∨ frame.getD 13 0 ≠ 0x00 then false
  else if frame.getD 23 0 ≠ 17 then false
  else if ihl frame < 5 then false
  else
    let udpOffset := 14 + ihl frame * 4
    if frame.length < udpOffset + 4 then false
    else readU16 frame (udpOffset + 2) ∉ keptPorts

/-- Where a frame goes. -/
inductive Verdict
  | raw
  | drop
  | stack
  deriving DecidableEq

/-- The match on the frame in `network_handler`. -/
def verdict (ours : Ipv4Address) (frame : List Byte) : Verdict :=
  if isBitmapUdp frame then .raw
  else if isForeignArp ours frame then .drop
  else if isMulticast frame then .drop
  else if isUnwantedUdp frame then .drop
  else .stack

/-- It concerns a socket that is bound, or the neighbors. -/
def Delivery.Wanted : Delivery → Prop
  | .udp p => p.dstPort ∈ [7000, 6454, 68, 69, 6900, 6901]
  | _ => True

/-- The interface of a card. -/
def NetworkState.iface (s : NetworkState) (mac : EthernetAddress) : Iface := ⟨mac, [s.ipAddrs]⟩

section Filters

variable {i : Iface} {frame : List Byte} {ours : Ipv4Address} {d : Delivery}

lemma fromBytes_drop {n : ℕ} (data : List Byte) (j k : ℕ) :
    (fromBytes (data.drop j) k : Vector Byte n) = fromBytes data (j + k) := by
  simp only [fromBytes, List.getD_eq_getElem?_getD, List.getElem?_drop, Nat.add_assoc]

lemma processArp_some {p : ArpPacket} (h : i.processArp p = .ok (some d)) :
    i.hasIpAddr p.targetProtocolAddr = true := by
  rw [Iface.processArp, andThen_iff, andThen_iff] at h
  obtain ⟨-, -, h⟩ := h
  split at h
  · cases h
  · next hours => exact Bool.eq_true_of_not_eq_false hours

lemma foreignArp_unwanted (hknows : ∀ a, i.hasIpAddr a = true → a = ours)
    (h : isForeignArp ours frame = true) : i.deliver frame ≠ .ok (some d) := by
  intro hdeliver
  unfold isForeignArp at h
  split_ifs at h with h₁ h₂ h₃
  rw [not_not] at h₂
  rw [Iface.deliver, if_neg (by omega), if_pos h₂] at hdeliver
  split at hdeliver
  · cases hdeliver
  · have htarget := hknows _ (processArp_some hdeliver)
    rw [ArpPacket.targetProtocolAddr, fromBytes_drop] at htarget
    exact of_decide_eq_true h htarget

lemma protocol_eq (frame : List Byte) :
    Ipv4Packet.protocol (frame.drop 14) = frame.getD 23 0 := by
  simp only [Ipv4Packet.protocol, List.getD_eq_getElem?_getD, List.getElem?_drop]

lemma dstPort_eq (h : UdpPacket.checkLen (Ipv4Packet.payload (frame.drop 14)) = .ok ()) :
    UdpPacket.dstPort (Ipv4Packet.payload (frame.drop 14)) =
      readU16 frame (14 + ihl frame * 4 + 2) := by
  have hlong : 8 ≤ (Ipv4Packet.payload (frame.drop 14)).length := by
    rw [UdpPacket.checkLen] at h
    split_ifs at h with h₁
    exact Nat.le_of_not_lt h₁
  rw [Ipv4Packet.payload, headerLen_eq, List.length_drop, List.length_take] at hlong
  rw [UdpPacket.dstPort, Ipv4Packet.payload, headerLen_eq, readU16_drop, readU16_take (by omega),
    readU16_drop, Nat.add_assoc]

lemma unwantedUdp_unwanted (h : isUnwantedUdp frame = true)
    (hdeliver : i.deliver frame = .ok (some d)) : ¬ d.Wanted := by
  unfold isUnwantedUdp at h
  dsimp only at h
  split_ifs at h with h₁ h₂ h₃ h₄ h₅
  have hport := of_decide_eq_true h
  have htype : readU16 frame 12 = 0x0800 := by
    obtain ⟨ha, hb⟩ := not_or.mp h₂
    rw [readU16, not_not.mp ha, not_not.mp hb]
    rfl
  have hudp : Ipv4Packet.protocol (frame.drop 14) = PROTOCOL_UDP :=
    (protocol_eq frame).trans (not_not.mp h₃)
  have hsome : (Except.ok none : Except StackError (Option Delivery)) ≠ .ok (some d) := by
    intro h
    cases h
  have herror (e : StackError) :
      (Except.error e : Except StackError (Option Delivery)) ≠ .ok (some d) := by
    intro h
    cases h
  rw [Iface.deliver, unless_iff (herror _), unless_iff hsome, htype, if_neg (by decide),
    if_pos rfl, andThen_iff, Iface.deliverIpv4, andThen_iff, unless_iff (herror _),
    Iface.dhcpFirst, if_pos hudp, andThen_iff] at hdeliver
  obtain ⟨-, -, -, -, -, hlen, hdeliver⟩ := hdeliver
  rw [← dstPort_eq hlen] at hport
  split at hdeliver
  · next hdhcp =>
    rw [hdhcp.2] at hport
    exact absurd hport (by decide)
  · rw [unless_iff hsome, hudp, if_neg (by decide), andThen_iff, andThen_iff] at hdeliver
    obtain ⟨-, -, -, hd⟩ := hdeliver
    cases hd
    intro hwanted
    have hkept : [7000, 6454, 68, 69, 6900, 6901] ⊆ keptPorts := by decide
    exact hport (hkept hwanted)

lemma processEthernet_deliver {port : ℕ} {data : List Byte} (hport : port ≠ 68) :
    i.processEthernet port frame = .ok (some data) ↔
      ∃ p, i.deliver frame = .ok (some (.udp p)) ∧ p.dstPort = port ∧ data = p.payload := by
  have hsome {d : Delivery} :
      (Except.ok none : Except StackError (Option Delivery)) ≠ .ok (some d) := by
    intro h
    cases h
  have herror {d : Delivery} (e : StackError) :
      (Except.error e : Except StackError (Option Delivery)) ≠ .ok (some d) := by
    intro h
    cases h
  rw [processEthernet_iff hport]
  constructor
  · rintro ⟨hlong, htype, hreceives, hip, hproto, hudp, hdst, rfl⟩
    refine ⟨_, ?_, hdst, rfl⟩
    obtain ⟨hip₁, hip₂⟩ := Ipv4Packet.checks_iff.mpr hip
    obtain ⟨hudp₁, hudp₂⟩ := UdpPacket.checks_iff.mpr hudp
    rw [Iface.deliver, unless_iff (herror _), unless_iff hsome, htype, if_neg (by decide),
      if_pos rfl, andThen_iff, Iface.deliverIpv4, andThen_iff, unless_iff (herror _),
      Iface.dhcpFirst, if_pos hproto, andThen_iff, if_neg, unless_iff hsome, hproto,
      if_neg (by decide), if_pos rfl, andThen_iff, andThen_iff]
    · have hours : ¬ (i.hasIpAddr (Ipv4Packet.dstAddr (frame.drop 14)) = false ∧
          i.isBroadcastV4 (Ipv4Packet.dstAddr (frame.drop 14)) = false) := by
        rw [not_and_or, Bool.not_eq_false, Bool.not_eq_false]
        exact hreceives.dst
      exact ⟨not_lt.mpr hlong, Bool.not_eq_false _ ▸ hreceives.hardware, hip₁, hip₂,
        Bool.not_eq_false _ ▸ hreceives.src, hudp₁, hours, hudp₁, hudp₂, rfl⟩
    · rintro ⟨-, h68⟩
      exact hport (hdst.symm.trans h68)
  · rintro ⟨p, hdeliver, hdst, rfl⟩
    rw [Iface.deliver, unless_iff (herror _), unless_iff hsome] at hdeliver
    obtain ⟨hlong, hhw, hdeliver⟩ := hdeliver
    split at hdeliver
    · rw [Iface.processArp, andThen_iff, andThen_iff] at hdeliver
      obtain ⟨-, -, hdeliver⟩ := hdeliver
      split_ifs at hdeliver <;> cases hdeliver
    rw [when_iff (herror _), andThen_iff, Iface.deliverIpv4, andThen_iff, unless_iff (herror _),
      Iface.dhcpFirst] at hdeliver
    obtain ⟨htype, hip₁, hip₂, hsrc, hdeliver⟩ := hdeliver
    by_cases hproto : Ipv4Packet.protocol (frame.drop 14) = PROTOCOL_UDP
    · rw [if_pos hproto, andThen_iff] at hdeliver
      obtain ⟨hudp₁, hdeliver⟩ := hdeliver
      split at hdeliver
      · rw [andThen_iff] at hdeliver
        cases hdeliver.2
      · rw [unless_iff hsome, hproto, if_neg (by decide), andThen_iff, andThen_iff] at hdeliver
        obtain ⟨hours, -, hudp₂, hp⟩ := hdeliver
        cases hp
        rw [not_and_or, Bool.not_eq_false, Bool.not_eq_false] at hours
        exact ⟨not_lt.mp hlong, htype, ⟨Bool.eq_true_of_not_eq_false hhw,
          Bool.eq_true_of_not_eq_false hsrc, hours⟩, Ipv4Packet.checks_iff.mp ⟨hip₁, hip₂⟩, hproto,
          UdpPacket.checks_iff.mp ⟨hudp₁, hudp₂⟩, hdst, rfl⟩
    · rw [if_neg hproto, unless_iff hsome, if_neg hproto] at hdeliver
      obtain ⟨-, hdeliver⟩ := hdeliver
      split_ifs at hdeliver <;> cases hdeliver

end Filters

namespace NetworkState

variable {mac : EthernetAddress} {s t : NetworkState}

/-- The filter of ARP has the address of the interface, if that has one. -/
def Current (s : NetworkState) : Prop :=
  s.ipAddrs.address ≠ UNSPECIFIED → s.ourIpv4 = s.ipAddrs.address

lemma Current.of_eq (h : s.Current) (haddr : t.ipAddrs = s.ipAddrs)
    (hours : t.ourIpv4 = s.ourIpv4) : t.Current := by
  rw [Current, haddr, hours]
  exact h

lemma configured_current (mac : EthernetAddress) (s : NetworkState) (config : Dhcpv4Config) :
    (s.configured mac config).Current := by
  intro _
  rw [configured, startTftp]
  dsimp only
  split <;> rfl

lemma Current.dhcpEvent (h : s.Current) (event : Option Dhcpv4Event) :
    (s.dhcpEvent mac event).Current := by
  match event with
  | some (.configured config) => exact configured_current mac s config
  | some .deconfigured => exact fun hne => absurd rfl hne
  | none => exact h

lemma Current.handleDhcp (h : s.Current) (timeMs : ℤ) (event : Option Dhcpv4Event) :
    (s.handleDhcp mac timeMs event).Current := by
  rw [NetworkState.handleDhcp]
  split
  · split
    · exact fun _ => rfl
    · exact h.dhcpEvent event
  · exact h.dhcpEvent event

lemma Current.handleTftp (h : s.Current) (around : Flash.BitstreamLoader.Around) :
    (s.handleTftp around).Current := by
  rw [NetworkState.handleTftp]
  split
  · exact h.of_eq rfl rfl
  · split
    · exact h.of_eq rfl rfl
    · exact h

lemma Current.networkHandler (h : s.Current) (c : HandlerCall) :
    (s.networkHandler mac c).Current := by
  have hreceived : (s.receive c.arrived).Current := by
    rw [receive]
    split
    · exact h.of_eq rfl rfl
    · exact h
  rw [NetworkState.networkHandler]
  split
  · exact (hreceived.handleDhcp c.around.timeMs c.event).handleTftp c.around
  · exact hreceived

lemma current_after (mac : EthernetAddress) (reset : BitVec 32) (calls : List HandlerCall) :
    (after mac reset calls).Current := by
  induction calls using List.reverseRecOn with
  | nil => exact fun hne => absurd rfl hne
  | append_singleton pre c ih =>
    rw [after_snoc]
    exact ih.networkHandler c

end NetworkState

/-- A frame that is dropped, other than one for a group, would have brought nothing to a socket that
is bound nor to the neighbors, in every state in which the filter's address, if any, is held. -/
theorem dropped_unwanted {mac : EthernetAddress} {reset : BitVec 32} {calls : List HandlerCall}
    {s : NetworkState} {frame : List Byte} {d : Delivery}
    (hreached : s = NetworkState.after mac reset calls)
    (haddr : s.ipAddrs.address ≠ UNSPECIFIED ∨ s.ourIpv4 = UNSPECIFIED)
    (hgroup : isMulticast frame = false) (hdrop : verdict s.ourIpv4 frame = .drop)
    (hdeliver : (s.iface mac).deliver frame = .ok (some d)) : ¬ d.Wanted := by
  unfold verdict at hdrop
  split_ifs at hdrop with hraw harp hmulti hudp
  · have hours : s.ourIpv4 = s.ipAddrs.address := by
      rcases haddr with haddr | hnone
      · rw [hreached] at haddr ⊢
        exact NetworkState.current_after mac reset calls haddr
      · rw [isForeignArp, hnone] at harp
        split_ifs at harp with h₁ h₂ h₃
        exact absurd rfl h₃
    refine absurd hdeliver (foreignArp_unwanted ?_ harp)
    intro a ha
    rw [NetworkState.iface, Iface.hasIpAddr, List.any_cons, List.any_nil, Bool.or_false] at ha
    rw [hours]
    exact (beq_iff_eq.mp ha).symm
  · rw [hgroup] at hmulti
    cases hmulti
  · exact unwantedUdp_unwanted hudp hdeliver

section Examples

/-- The call at ten seconds, without a lease. -/
def atTenSeconds : HandlerCall := { around := ⟨10000, true, true⟩ }

def aMac : EthernetAddress := card.hardwareAddr

/-- 10.11.6.1 asks for an address of its network. -/
def arpRequest (dst : List Byte) (last : Byte) : List Byte :=
  dst ++ [0x02, 0, 0, 0, 0, 1, 0x08, 0x06, 0, 1, 0x08, 0, 6, 4, 0, 1,
    0x02, 0, 0, 0, 0, 1, 10, 11, 6, 1, 0, 0, 0, 0, 0, 0, 10, 11, 6, last]

/-- A datagram for the name service of another system, to all. -/
def nameQuery : List Byte :=
  List.replicate 6 0xFF ++ [0x02, 0, 0, 0, 0, 1, 0x08, 0,
    0x45, 0, 0, 30, 0, 0, 0, 0, 64, 17, 0x59, 0xBA, 10, 11, 6, 1, 10, 11, 6, 255,
    0, 137, 0, 137, 0, 10, 0, 0, 0, 0]

/-- The datagram is dropped, and the stack would have handed it on. -/
theorem nameQuery_unwanted : ∃ d, ((NetworkState.after aMac 0 [atTenSeconds]).iface aMac).deliver
    nameQuery = .ok (some d) ∧ ¬ d.Wanted := by
  have hdeliver : ((NetworkState.after aMac 0 [atTenSeconds]).iface aMac).deliver nameQuery =
      .ok (some (.udp [0, 137, 0, 137, 0, 10, 0, 0, 0, 0])) := by decide +kernel
  exact ⟨_, hdeliver, dropped_unwanted rfl (Or.inl (by decide +kernel)) (by decide +kernel)
    (by decide +kernel) hdeliver⟩

/-- A request for the card's own address in a frame for a group is dropped. -/
theorem groupArp_dropped : ¬ ∀ (mac : EthernetAddress) (reset : BitVec 32)
    (calls : List HandlerCall) (s : NetworkState) (frame : List Byte) (d : Delivery),
    s = NetworkState.after mac reset calls → verdict s.ourIpv4 frame = .drop →
    (s.iface mac).deliver frame = .ok (some d) → ¬ d.Wanted := by
  intro hclaim
  exact hclaim aMac 0 [atTenSeconds] _ (arpRequest [0x01, 0, 0x5E, 0, 0, 1] 250)
    (.neighbor #v[10, 11, 6, 1] #v[0x02, 0, 0, 0, 0, 1]) rfl (by decide +kernel) (by decide +kernel)
    trivial

end Examples

end Ledwall.Network
