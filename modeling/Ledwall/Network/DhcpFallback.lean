import Ledwall.Network.TftpConfig
import Ledwall.Library.Runs

/-! The card's own address: DHCP events, the static fallback, and the copy in the hardware filter. -/

namespace Ledwall.Network

open Ledwall.Wire Ledwall.Flash Ledwall.Values Ledwall.Library.Runs
open Ledwall.Flash.BitstreamLoader (Around)

/-- The stack's DHCP client takes an acknowledgement of a unicast address only, and the interface
panics on any other. -/
structure Dhcpv4Config where
  address : Cidr
  router : Option Ipv4Address
  tftpServerName : Option Ipv4Address
  unicast : address.address.isUnicast = true

inductive Dhcpv4Event
  | configured (config : Dhcpv4Config)
  | deconfigured

inductive BootServerSource
  | option66
  | fallback
  deriving DecidableEq

def UNSPECIFIED : Ipv4Address := #v[0, 0, 0, 0]

/-- `ipAddrs` is the one address of the interface, `defaultRoute` its default route, `ipAddress` the
filter register of the Ethernet core, and `applied` the text of the last layout applied. -/
structure NetworkState where
  ipAddrs : Cidr := ⟨UNSPECIFIED, 0⟩
  defaultRoute : Option Ipv4Address := none
  ourIpv4 : Ipv4Address := UNSPECIFIED
  ipAddress : BitVec 32
  dhcpConfigured : Bool := false
  bootServer : Option (Ipv4Address × BootServerSource) := none
  tftpStarted : Bool := false
  tftpLoader : TftpConfigLoader := {}
  tftpSocket : UdpSocket := {}
  applied : Option (List Byte) := none

/-- What one call of `network_handler` finds: the clock, the datagrams and the kind of packets that
came, whether a bitstream is being fetched, and the DHCP socket's event. -/
structure HandlerCall where
  around : Around
  arrived : List Flash.Datagram := []
  hadSlowPath : Bool := true
  bsActive : Bool := false
  event : Option Dhcpv4Event := none

def HEX (n : Byte) : Byte := (ascii "0123456789abcdef").getD n.toNat 0

/-- The name of the configuration file, after the card's MAC. -/
def fname (mac : EthernetAddress) : List Byte :=
  [0x2D].intercalate (mac.toList.map fun b : Byte => [HEX (b >>> 4), HEX (b &&& 0xF)]) ++ ascii ".yml"

namespace NetworkState

variable (mac : EthernetAddress) (s : NetworkState)

def publishHwFilterIp (ip : Ipv4Address) : NetworkState :=
  { s with ourIpv4 := ip, ipAddress := ip.toU32 }

/-- The TFTP load of the boot configuration, started at most once. -/
def startTftp (config : Dhcpv4Config) : NetworkState :=
  if s.tftpStarted then s
  else
    let (server, source) := match config.tftpServerName with
      | some ip => (ip, BootServerSource.option66)
      | none => (#v[10, 11, 6, 65], BootServerSource.fallback)
    { s with
      bootServer := some (server, source)
      tftpLoader := s.tftpLoader.start server (fname mac)
      tftpStarted := true }

def configured (config : Dhcpv4Config) : NetworkState :=
  let s := { s with dhcpConfigured := true, ipAddrs := config.address }
  let s := s.publishHwFilterIp config.address.address
  let s := { s with defaultRoute := config.router <|> s.defaultRoute }
  s.startTftp mac config

/-- The filter keeps the address that the interface loses. -/
def deconfigured : NetworkState :=
  { s with dhcpConfigured := false, ipAddrs := ⟨UNSPECIFIED, 0⟩, defaultRoute := none }

def dhcpEvent : Option Dhcpv4Event → NetworkState
  | some (.configured config) => s.configured mac config
  | some .deconfigured => s.deconfigured
  | none => s

def FALLBACK : Cidr := ⟨#v[10, 11, 6, 250], 24⟩

def handleDhcp (timeMs : ℤ) (event : Option Dhcpv4Event) : NetworkState :=
  let s := s.dhcpEvent mac event
  if timeMs = 10000 then
    if s.ipAddrs.address = UNSPECIFIED then
      { s with ipAddrs := FALLBACK }.publishHwFilterIp FALLBACK.address
    else s
  else s

def handleTftp (around : Around) : NetworkState :=
  if s.tftpLoader.isDone then
    { s with tftpSocket := if s.tftpSocket.isOpen then s.tftpSocket.close else s.tftpSocket }
  else if s.tftpLoader.isActive then
    let p := s.tftpLoader.poll s.tftpSocket around
    { s with
      tftpLoader := p.loader
      tftpSocket := p.socket
      applied := if p.ready then p.loader.parseConfig <|> s.applied else s.applied }
  else s

/-- The stack hands the socket its datagrams before the handlers run. -/
def receive (arrived : List Flash.Datagram) : NetworkState :=
  if s.tftpSocket.isOpen then
    { s with tftpSocket := { s.tftpSocket with rx := s.tftpSocket.rx ++ arrived } }
  else s

/-- The branch of `network_handler` that runs `handle_dhcp`. -/
def dhcpDue (c : HandlerCall) : Bool :=
  c.hadSlowPath || (s.tftpStarted && !s.tftpLoader.isDone) || c.bsActive

def networkHandler (c : HandlerCall) : NetworkState :=
  let s := s.receive c.arrived
  if s.dhcpDue c then (s.handleDhcp mac c.around.timeMs c.event).handleTftp c.around else s

end NetworkState

section Histories

variable (mac : EthernetAddress) (reset : BitVec 32)

/-- The card after these calls, from `init` with its filter at the register's reset value. -/
def NetworkState.after (calls : List HandlerCall) : NetworkState :=
  calls.foldl (NetworkState.networkHandler mac) { ipAddress := reset }

/-- The calls in which `handle_dhcp` ran. -/
def handled : NetworkState → List HandlerCall → List HandlerCall
  | _, [] => []
  | s, c :: calls =>
    (if (s.receive c.arrived).dhcpDue c then [c] else []) ++ handled (s.networkHandler mac c) calls

def seen (calls : List HandlerCall) : List HandlerCall := handled mac { ipAddress := reset } calls

/-- The address last configured, unless the lease was lost. -/
def lease (calls : List HandlerCall) : Option Dhcpv4Config :=
  match (calls.filterMap HandlerCall.event).getLast? with
  | some (.configured config) => some config
  | _ => none

def NeverConfigured (calls : List HandlerCall) : Prop :=
  ∀ c ∈ calls, ∀ config, c.event ≠ some (.configured config)

def Unconfigured (calls : List HandlerCall) : Prop := lease calls = none

/-- After the calls `pre`, `c` is the first that runs `handle_dhcp` at ten seconds or later. -/
structure FirstLate (pre : List HandlerCall) (c : HandlerCall) : Prop where
  due : ((NetworkState.after mac reset pre).receive c.arrived).dhcpDue c = true
  late : 10000 ≤ c.around.timeMs
  first : ∀ d ∈ seen mac reset pre, d.around.timeMs < 10000

/-- The first late call with no address configured leaves the fallback address. -/
def FallsBack (without : List HandlerCall → Prop) (calls : List HandlerCall) : Prop :=
  ∀ pre c post, calls = pre ++ c :: post → FirstLate mac reset pre c →
    without (seen mac reset (pre ++ [c])) →
      (NetworkState.after mac reset (pre ++ [c])).ipAddrs = NetworkState.FALLBACK

/-- The first late call with no address configured reads ten seconds exactly. -/
def OnTheDot (without : List HandlerCall → Prop) (calls : List HandlerCall) : Prop :=
  ∀ pre c post, calls = pre ++ c :: post → FirstLate mac reset pre c →
    without (seen mac reset (pre ++ [c])) → c.around.timeMs = 10000

/-- After every call the filter has the address of the interface, if that has one. -/
def FilterKnows (calls : List HandlerCall) : Prop :=
  ∀ pre c post, calls = pre ++ c :: post →
    let s := NetworkState.after mac reset (pre ++ [c])
    s.ipAddrs.address ≠ UNSPECIFIED → s.ipAddress = s.ipAddrs.address.toU32

end Histories

namespace NetworkState

variable {mac : EthernetAddress} {s t : NetworkState} {timeMs : ℤ} {event : Option Dhcpv4Event}

/-- The two copies of the address. -/
def addresses (s : NetworkState) : Cidr × BitVec 32 := (s.ipAddrs, s.ipAddress)

/-- The filter has the address of the interface, if that has one. -/
def Knows (s : NetworkState) : Prop :=
  s.ipAddrs.address ≠ UNSPECIFIED → s.ipAddress = s.ipAddrs.address.toU32

lemma Knows.of_addresses (h : s.Knows) (heq : t.addresses = s.addresses) : t.Knows := by
  obtain ⟨haddr, hfilter⟩ := Prod.mk.inj heq
  rw [Knows, haddr, hfilter]
  exact h

lemma startTftp_addresses (config : Dhcpv4Config) :
    (s.startTftp mac config).addresses = s.addresses := by
  rw [startTftp]
  split <;> rfl

lemma handleTftp_addresses (around : Around) : (s.handleTftp around).addresses = s.addresses := by
  rw [handleTftp]
  split
  · rfl
  · split <;> rfl

lemma receive_addresses (arrived : List Flash.Datagram) :
    (s.receive arrived).addresses = s.addresses := by
  rw [receive]
  split <;> rfl

lemma configured_addresses (mac : EthernetAddress) (s : NetworkState) (config : Dhcpv4Config) :
    (s.configured mac config).addresses = (config.address, config.address.address.toU32) :=
  startTftp_addresses config

lemma Knows.dhcpEvent (h : s.Knows) : (s.dhcpEvent mac event).Knows := by
  match event with
  | some (.configured config) =>
    obtain ⟨haddr, hfilter⟩ := Prod.mk.inj (configured_addresses mac s config)
    rw [NetworkState.dhcpEvent, Knows, haddr, hfilter]
    exact fun _ => rfl
  | some .deconfigured => exact fun hne => absurd rfl hne
  | none => exact h

lemma handleDhcp_addresses (mac : EthernetAddress) (s : NetworkState) (timeMs : ℤ)
    (event : Option Dhcpv4Event) : (s.handleDhcp mac timeMs event).addresses =
    if timeMs = 10000 ∧ (s.dhcpEvent mac event).ipAddrs.address = UNSPECIFIED then
      (FALLBACK, FALLBACK.address.toU32)
    else (s.dhcpEvent mac event).addresses := by
  rw [handleDhcp, ite_and]
  split
  · split <;> rfl
  · rfl

lemma Knows.handleDhcp (h : s.Knows) : (s.handleDhcp mac timeMs event).Knows := by
  have heq := handleDhcp_addresses mac s timeMs event
  split at heq
  · obtain ⟨haddr, hfilter⟩ := Prod.mk.inj heq
    rw [Knows, haddr, hfilter]
    exact fun _ => rfl
  · exact h.dhcpEvent.of_addresses heq

lemma networkHandler_addresses (mac : EthernetAddress) (s : NetworkState) (c : HandlerCall) :
    (s.networkHandler mac c).addresses = if (s.receive c.arrived).dhcpDue c then
      ((s.receive c.arrived).handleDhcp mac c.around.timeMs c.event).addresses
    else s.addresses := by
  rw [networkHandler]
  split
  · exact handleTftp_addresses _
  · exact receive_addresses _

lemma Knows.networkHandler (h : s.Knows) (c : HandlerCall) : (s.networkHandler mac c).Knows := by
  have hreceived := h.of_addresses (receive_addresses c.arrived)
  have heq := networkHandler_addresses mac s c
  split at heq
  · exact hreceived.handleDhcp.of_addresses heq
  · exact h.of_addresses heq

end NetworkState

section Fallback

open NetworkState

variable {mac : EthernetAddress} {reset : BitVec 32} {pre calls : List HandlerCall} {c : HandlerCall}

lemma after_snoc (pre : List HandlerCall) (c : HandlerCall) : after mac reset (pre ++ [c]) =
    (after mac reset pre).networkHandler mac c := by
  rw [after, after, List.foldl_append]
  rfl

lemma handled_snoc (s : NetworkState) (pre : List HandlerCall) (c : HandlerCall) :
    handled mac s (pre ++ [c]) = handled mac s pre ++
      if ((pre.foldl (networkHandler mac) s).receive c.arrived).dhcpDue c then [c] else [] := by
  induction pre generalizing s with
  | nil => rw [List.nil_append, handled, handled, handled, List.append_nil, List.nil_append]; rfl
  | cons d pre ih => rw [List.cons_append, handled, handled, ih, List.append_assoc, List.foldl_cons]

lemma seen_snoc (pre : List HandlerCall) (c : HandlerCall) :
    seen mac reset (pre ++ [c]) = seen mac reset pre ++
      if ((after mac reset pre).receive c.arrived).dhcpDue c then [c] else [] :=
  handled_snoc _ pre c

lemma knows_after (calls : List HandlerCall) : (after mac reset calls).Knows := by
  induction calls using List.reverseRecOn with
  | nil => exact fun hne => absurd rfl hne
  | append_singleton pre c ih =>
    rw [after_snoc]
    exact ih.networkHandler c

lemma lease_snoc (calls : List HandlerCall) (c : HandlerCall) :
    lease (calls ++ [c]) = match c.event with
      | none => lease calls
      | some (.configured config) => some config
      | some .deconfigured => none := by
  rw [lease, List.filterMap_append]
  match hevent : c.event with
  | none => simp [hevent, lease]
  | some (.configured config) => simp [hevent]
  | some .deconfigured => simp [hevent]

/-- The address of a lease, none being the unspecified one. -/
def addressOf (lease : Option Dhcpv4Config) : Ipv4Address :=
  (lease.map fun config => config.address.address).getD UNSPECIFIED

lemma dhcpEvent_address (mac : EthernetAddress) (c : HandlerCall) {s : NetworkState}
    (h : s.ipAddrs.address = addressOf (lease calls)) :
    (s.dhcpEvent mac c.event).ipAddrs.address = addressOf (lease (calls ++ [c])) := by
  rw [lease_snoc]
  match c.event with
  | none => exact h
  | some (.configured config) =>
    have heq := congrArg Prod.fst (configured_addresses mac s config)
    exact congrArg Cidr.address heq
  | some .deconfigured => rfl

lemma address_early (calls : List HandlerCall)
    (hearly : ∀ d ∈ seen mac reset calls, d.around.timeMs < 10000) :
    (after mac reset calls).ipAddrs.address = addressOf (lease (seen mac reset calls)) := by
  induction calls using List.reverseRecOn with
  | nil => rfl
  | append_singleton pre c ih =>
    rw [seen_snoc] at hearly ⊢
    have hpre := ih fun d hd => hearly d (List.mem_append_left _ hd)
    have heq := congrArg (fun a => a.1.address)
      (networkHandler_addresses mac (after mac reset pre) c)
    rw [← after_snoc] at heq
    split at heq
    · next hdue =>
      rw [if_pos hdue] at hearly ⊢
      have htime : c.around.timeMs ≠ 10000 :=
        ne_of_lt (hearly c (List.mem_append_right _ (List.mem_singleton_self c)))
      rw [handleDhcp_addresses, if_neg fun h => htime h.1] at heq
      have hreceived := congrArg (fun a => a.1.address)
        (receive_addresses (s := after mac reset pre) c.arrived)
      exact heq.trans (dhcpEvent_address mac c (hreceived.trans hpre))
    · next hdue =>
      rw [if_neg hdue, List.append_nil]
      exact heq.trans hpre

lemma fallsBack_iff (h : FirstLate mac reset pre c)
    (hlease : Unconfigured (seen mac reset (pre ++ [c]))) :
    (after mac reset (pre ++ [c])).ipAddrs = FALLBACK ↔ c.around.timeMs = 10000 := by
  have hpre := address_early pre h.first
  have hreceived := congrArg (fun a => a.1.address)
    (receive_addresses (s := after mac reset pre) c.arrived)
  have hevent := dhcpEvent_address mac c (hreceived.trans hpre)
  rw [seen_snoc, if_pos h.due] at hlease
  rw [hlease] at hevent
  have heq := congrArg Prod.fst (networkHandler_addresses mac (after mac reset pre) c)
  rw [if_pos h.due, handleDhcp_addresses, ← after_snoc] at heq
  by_cases htime : c.around.timeMs = 10000
  · rw [if_pos ⟨htime, hevent⟩] at heq
    exact iff_of_true heq htime
  · rw [if_neg fun h => htime h.1] at heq
    refine iff_of_false (fun hfall => ?_) htime
    have haddr := congrArg Cidr.address (heq.symm.trans hfall)
    rw [show (((after mac reset pre).receive c.arrived).dhcpEvent mac c.event).addresses.1.address =
      UNSPECIFIED from hevent] at haddr
    exact absurd haddr (by decide)

lemma unconfigured_of_never (h : NeverConfigured calls) : Unconfigured calls := by
  rw [Unconfigured, lease]
  split
  · next config hlast =>
    obtain ⟨c, hc, hevent⟩ := List.mem_filterMap.mp (List.mem_of_getLast? hlast)
    exact absurd hevent (h c hc config)
  · rfl

lemma fallsBack_knows_iff {without : List HandlerCall → Prop}
    (hwithout : ∀ l, without l → Unconfigured l) :
    FallsBack mac reset without calls ∧ FilterKnows mac reset calls ↔
      OnTheDot mac reset without calls := by
  constructor
  · rintro ⟨hfall, -⟩ pre c post hsplit hfirst hnone
    exact (fallsBack_iff hfirst (hwithout _ hnone)).mp (hfall pre c post hsplit hfirst hnone)
  · intro hdot
    refine ⟨fun pre c post hsplit hfirst hnone => ?_, fun pre c post _ => knows_after _⟩
    exact (fallsBack_iff hfirst (hwithout _ hnone)).mpr (hdot pre c post hsplit hfirst hnone)

/-- The filter always knows the address. The fallback is installed, whether or not a lease that was
lost counts as configured, just when the first call that is due it reads ten seconds exactly. -/
theorem fallback_on_the_dot (mac : EthernetAddress) (reset : BitVec 32) (calls : List HandlerCall) :
    (FallsBack mac reset NeverConfigured calls ∧ FilterKnows mac reset calls ↔
        OnTheDot mac reset NeverConfigured calls) ∧
      (FallsBack mac reset Unconfigured calls ∧ FilterKnows mac reset calls ↔
        OnTheDot mac reset Unconfigured calls) :=
  ⟨fallsBack_knows_iff fun _ => unconfigured_of_never, fallsBack_knows_iff fun _ => id⟩

/-- A packet 3 ms after the mark, and none on it. -/
def lateCall : HandlerCall := { around := ⟨10003, true, true⟩ }

theorem fallback_skipped : ¬ ∀ (mac : EthernetAddress) (reset : BitVec 32) (calls : List HandlerCall),
    calls.Pairwise (fun c d => c.around.timeMs ≤ d.around.timeMs) →
      FallsBack mac reset NeverConfigured calls ∧ FilterKnows mac reset calls := by
  intro hclaim
  obtain ⟨hfall, -⟩ := hclaim (Vector.replicate 6 0) 0 [lateCall] (List.pairwise_singleton _ _)
  have hnever : NeverConfigured (seen (Vector.replicate 6 0) 0 ([] ++ [lateCall])) := by
    intro c hc config hevent
    obtain rfl := List.mem_singleton.mp hc
    cases hevent
  have haddr := hfall [] lateCall [] rfl ⟨rfl, by decide, by simp [seen, handled]⟩ hnever
  exact absurd (congrArg Cidr.address haddr) (by decide)

end Fallback

end Ledwall.Network
