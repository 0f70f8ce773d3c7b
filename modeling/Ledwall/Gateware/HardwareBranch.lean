import Ledwall.Gateware.EthFrames
import Ledwall.Library.Packets
import Ledwall.Library.Streams

/-! The hardware branch of the receive path, from the gate to the stream of the pixel port. -/

namespace Ledwall.Gateware

open Ledwall.Library.Packets Ledwall.Library.Streams Ledwall.Wire

/-- What the gate hands on when nothing behind it refuses a beat. -/
def AlwaysReady.unrefused : AlwaysReady → List PhyBeat → List PhyBeat
  | _, [] => []
  | s, b :: bs =>
    (if s.sourceValid ⟨true, b, true⟩ then [s.sourceBeat ⟨true, b, true⟩] else []) ++
      (s.next ⟨true, b, true⟩).unrefused bs

def SmolEthGroupReject.stage : Stage SmolEthGroupReject PhyBeat PhyBeat where
  takes s b ready := ready || b.any s.killNow
  gives s b := b.filter fun b => !s.killNow b
  next s b ready := match b with
    | none => s
    | some b => if ready || s.killNow b then s.take b else s

/-- One beat of a byte-wide stream, with what else the endpoint carries. -/
structure ByteBeat (H : Type) where
  user : H
  data : Byte
  last : Bool
  deriving DecidableEq, Repr

structure Bytes32to8 where
  idx : BitVec 2 := 0
  data : BitVec 32 := 0
  lastBe : BitVec 4 := 0
  last : Bool := false
  loaded : Bool := false
  deriving DecidableEq, Repr

namespace Bytes32to8

variable (s : Bytes32to8)

def finalIdx : BitVec 2 :=
  if s.lastBe[3] then 3 else if s.lastBe[2] then 2 else if s.lastBe[1] then 1 else 0

def sourceLast : Bool := s.last && s.idx == s.finalIdx

def byte : Byte := s.data.extractLsb' (8 * s.idx.toNat) 8

def load (b : PhyBeat) : Bytes32to8 where
  idx := 0
  data := b.data
  lastBe := if b.last then b.lastBe else 0xF
  last := b.last
  loaded := true

def unload : Bytes32to8 :=
  if s.sourceLast || s.idx == 3 then { s with loaded := false } else { s with idx := s.idx + 1 }

def stage : Stage Bytes32to8 PhyBeat (ByteBeat Unit) where
  takes s _ _ := !s.loaded
  gives s _ := if s.loaded then some ⟨(), s.byte, s.sourceLast⟩ else none
  next s b ready :=
    if s.loaded then if ready then s.unload else s
    else match b with
      | none => s
      | some b => load b

end Bytes32to8

structure MacHeader where
  targetMac : BitVec 48
  ethernetType : BitVec 16
  deriving DecidableEq, Repr

structure IpHeader where
  version : BitVec 4
  ihl : BitVec 4
  protocol : BitVec 8
  targetIp : BitVec 32
  deriving DecidableEq, Repr

structure UdpHeader where
  dstPort : BitVec 16
  deriving DecidableEq, Repr

inductive FilterFsm
  | idle
  | receive
  | drop
  deriving DecidableEq, Repr

/-- The state machine of the three filters. The depacketizer in front holds the header for the
whole packet. -/
def headerFilter {H : Type} (pass : H → Bool) : Stage FilterFsm (ByteBeat H) (ByteBeat H) where
  takes s _ ready := match s with
    | .idle => false
    | .receive => ready
    | .drop => true
  gives s b := match s with
    | .receive => b
    | .idle | .drop => none
  next s b ready := match s, b with
    | s, none => s
    | .idle, some b => if pass b.user then .receive else .drop
    | .receive, some b => if ready && b.last then .idle else .receive
    | .drop, some b => if b.last then .idle else .drop

def ETHERNET_TYPE_IP : BitVec 16 := 0x800

def UDP_PROTOCOL : BitVec 8 := 17

def SmolEthMACFilter (macAddress : BitVec 48) : Stage FilterFsm (ByteBeat MacHeader) (ByteBeat MacHeader) :=
  headerFilter fun h => h.targetMac == macAddress && h.ethernetType == ETHERNET_TYPE_IP

def SmolEthIP (ipAddress : BitVec 32) (protocol : BitVec 8) :
    Stage FilterFsm (ByteBeat IpHeader) (ByteBeat IpHeader) :=
  headerFilter fun h =>
    h.targetIp == ipAddress && h.version == 0x4 && h.ihl == 0x5 && h.protocol == protocol

/-- The header comes with the `protocol` that the filter before it hands on. -/
def SmolEthUDP (udpPort : BitVec 16) :
    Stage FilterFsm (ByteBeat (BitVec 8 × UdpHeader)) (ByteBeat (BitVec 8 × UdpHeader)) :=
  headerFilter fun h => h.1 == UDP_PROTOCOL && h.2.dstPort == udpPort

/-- A packet's bytes as beats. -/
def byteBeats {H : Type} (user : H) (as : List Byte) : List (ByteBeat H) :=
  (List.range as.length).map fun k => ⟨user, as.getD k 0, decide (k + 1 = as.length)⟩

/-- A depacketizer: the header of a packet and what is behind it. -/
abbrev Depacketizer (H : Type) : Type := List Byte → H × List Byte

/-- The packets of a stream, depacketized, with what `keep` makes of the two headers. -/
def depacketize {H H' K : Type} (d : Depacketizer H') (keep : H → H' → K) (xs : List (ByteBeat H)) :
    List (ByteBeat K) :=
  (cut ByteBeat.last xs).packets.flatMap fun p => match p with
    | [] => []
    | b :: bs => let h := d ((b :: bs).map ByteBeat.data); byteBeats (keep b.user h.1) h.2

/-- The registers that a packet leaves behind and the values that the filters compare with. -/
structure HardwareBranch where
  gate : AlwaysReady := {}
  groupreject : SmolEthGroupReject := {}
  narrow : Bytes32to8 := {}
  macAddress : BitVec 48
  ipAddress : BitVec 32
  udpPort : BitVec 16

structure Depacketizers where
  mac : Depacketizer MacHeader
  ip : Depacketizer IpHeader
  udp : Depacketizer UdpHeader

/-- What comes out at the end for a stream of beats, when the gate drops nothing. -/
def HardwareBranch.Delivers (hw : HardwareBranch) (d : Depacketizers) (xs : List PhyBeat)
    (ys : List (ByteBeat (BitVec 8 × UdpHeader))) : Prop :=
  ∃ beats bytes macs ips,
    SmolEthGroupReject.stage.Makes hw.groupreject (hw.gate.unrefused xs) beats ∧
    Bytes32to8.stage.Makes hw.narrow beats bytes ∧
    (SmolEthMACFilter hw.macAddress).Makes .idle (depacketize d.mac (fun _ h => h) bytes) macs ∧
    (SmolEthIP hw.ipAddress UDP_PROTOCOL).Makes .idle (depacketize d.ip (fun _ h => h) macs) ips ∧
    (SmolEthUDP hw.udpPort).Makes .idle
      (depacketize d.udp (fun ip h => (ip.protocol, h)) ips) ys

end Ledwall.Gateware
