import Nostalux.Library.BigEndian
import Nostalux.Library.CString
import Nostalux.Library.Memory
import Nostalux.Library.OnesComplement
import Mathlib.Tactic.Simps.Basic

/-!
# `kernel/net.c`: the state of the IPv4 stack

The record `net_stack`, the classes of addresses and the Internet checksum.

A received frame is memory that the stack reads through a pointer, together with the size of the
frame.  Frames are sent from the buffer `transmit_frame`.  The link is
the stream of answers that its function `send` will give.  A `NetStack` is a stack that `net_init`
has accepted, so that its `link.send` is present and its MAC address is a valid source.

A handler is the last thing the stack calls for a frame, so that what a handler does to the stack is
the same as a sequence of calls behind `net_input`; here it is recorded only.

The ghost fields are not part of the program: `events` records the frames handed to the link, the
calls of handlers and the packets that were queued, and every packet that waits for ARP has a ticket
that no other packet has.
-/

namespace Nostalux.Net

open BigEndian

/-! ### Constants -/

/-- `NET_ETHERNET_HEADER_SIZE`. -/
abbrev netEthernetHeaderSize : ℕ := 14

/-- `NET_ETHERNET_FRAME_MAX`. -/
abbrev netEthernetFrameMax : ℕ := 1514

/-- `NET_IPV4_HEADER_MIN_SIZE`. -/
abbrev netIpv4HeaderMinSize : ℕ := 20

/-- `NET_IPV4_PAYLOAD_MAX`. -/
abbrev netIpv4PayloadMax : ℕ := 1480

/-- `NET_UDP_PAYLOAD_MAX`. -/
abbrev netUdpPayloadMax : ℕ := 1472

/-- `NET_DNS_NAME_MAX`. -/
abbrev netDnsNameMax : ℕ := 253

/-- `NET_IPV4_PROTOCOL_ICMP`. -/
abbrev netIpv4ProtocolIcmp : UInt8 := 1

/-- `NET_IPV4_PROTOCOL_TCP`. -/
abbrev netIpv4ProtocolTcp : UInt8 := 6

/-- `NET_IPV4_PROTOCOL_UDP`. -/
abbrev netIpv4ProtocolUdp : UInt8 := 17

/-- `ETHERTYPE_IPV4`. -/
abbrev ethertypeIpv4 : UInt16 := 0x0800

/-- `ETHERTYPE_ARP`. -/
abbrev ethertypeArp : UInt16 := 0x0806

/-- `DHCP_CLIENT_PORT`. -/
abbrev dhcpClientPort : UInt16 := 68

/-- `DHCP_SERVER_PORT`. -/
abbrev dhcpServerPort : UInt16 := 67

/-- `DNS_SERVER_PORT`. -/
abbrev dnsServerPort : UInt16 := 53

/-- `UINT32_MAX`. -/
abbrev uint32Max : UInt32 := 0xFFFFFFFF

/-- `UINT64_MAX`. -/
abbrev uint64Max : UInt64 := 0xFFFFFFFFFFFFFFFF

/-! ### MAC addresses -/

/-- An Ethernet address. -/
abbrev Mac := Buffer 6

/-- The Ethernet address behind a pointer. -/
def macAt (m : Memory) : Mac := Buffer.ofFn m

/-- The broadcast address. -/
def macBroadcast : Mac := Buffer.ofFn fun _ => 0xFF

/-- `mac_is_broadcast`. -/
def macIsBroadcast (mac : Mac) : Bool := mac = macBroadcast

/-- `mac_is_zero`. -/
def macIsZero (mac : Mac) : Bool := mac = Buffer.zero

/-- `mac_is_valid_source`. -/
def macIsValidSource (mac : Mac) : Bool :=
  !macIsZero mac && !macIsBroadcast mac && mac.byte 0 &&& 1 == 0

/-! ### IPv4 addresses -/

/-- `ipv4_is_multicast`. -/
def ipv4IsMulticast (ip : UInt32) : Bool := ip &&& 0xF0000000 == 0xE0000000

/-- `ipv4_is_usable_unicast`. -/
def ipv4IsUsableUnicast (ip : UInt32) : Bool :=
  let firstOctet := ip >>> 24
  firstOctet != 0 && firstOctet != 127 && firstOctet < 224 && ip != uint32Max

/-- `ipv4_netmask_is_valid`. -/
def ipv4NetmaskIsValid (mask : UInt32) : Bool :=
  mask != 0 && ~~~mask &&& (~~~mask + 1) == 0

/-! ### The Internet checksum

The sums are of at most `65535` bytes, so that they do not overflow the 32 bits of the program. -/

/-- `checksum_add`. -/
def checksumAdd (sum : ℕ) (m : Memory) (size : ℕ) : ℕ :=
  sum + OnesComplement.wordSum (m.bytes size)

/-- `checksum_finish`. -/
def checksumFinish (sum : ℕ) : UInt16 := OnesComplement.complement sum

/-- `internet_checksum`. -/
def internetChecksum (m : Memory) (size : ℕ) : UInt16 := checksumFinish (checksumAdd 0 m size)

/-- The pseudo header of `transport_checksum`. -/
def pseudoHeader (sourceIp destinationIp : UInt32) (protocol : UInt8) (size : ℕ) : List UInt8 :=
  writeU32 sourceIp ++ writeU32 destinationIp ++ [0, protocol] ++ writeU16 (UInt16.ofNat size)

/-- `transport_checksum`. -/
def transportChecksum (sourceIp destinationIp : UInt32) (protocol : UInt8) (m : Memory)
    (size : ℕ) : UInt16 :=
  checksumFinish (checksumAdd
    (checksumAdd 0 (byteAt (pseudoHeader sourceIp destinationIp protocol size)) 12) m size)

/-! ### The records -/

/-- `struct net_ipv4_config`. -/
@[ext]
structure NetIpv4Config where
  address : UInt32
  netmask : UInt32
  gateway : UInt32
  dns : UInt32
  deriving DecidableEq, Inhabited

/-- `enum net_send_result`. -/
inductive NetSendResult
  | failed
  | sent
  | queued
  deriving DecidableEq

/-- `struct net_udp_datagram`. -/
structure NetUdpDatagram where
  sourceIp : UInt32
  destinationIp : UInt32
  sourcePort : UInt16
  destinationPort : UInt16
  data : List UInt8
  deriving DecidableEq

/-- `struct net_arp_entry`. -/
structure NetArpEntry where
  valid : Bool
  ip : UInt32
  mac : Mac
  refreshedMs : UInt64

instance : Inhabited NetArpEntry := ⟨⟨false, 0, Buffer.zero, 0⟩⟩

/-- A handler function and the context it is called with. -/
structure NetHandler where
  function : ℕ
  context : ℕ
  deriving DecidableEq

/-- `struct net_udp_binding`; no handler is the `NULL` handler. -/
structure NetUdpBinding where
  port : UInt16
  handler : Option NetHandler
  deriving DecidableEq, Inhabited

/-- `struct net_pending_ipv4`.  The first `payload_size` bytes of `payload` are a list here. -/
structure NetPendingIpv4 where
  valid : Bool
  destinationIp : UInt32
  nextHopIp : UInt32
  protocol : UInt8
  payload : List UInt8
  arpRequestedMs : UInt64
  arpAttempts : UInt32
  transmitAttempts : UInt32
  /-- Which of the packets queued so far this is. -/
  ticket : ℕ
  deriving Inhabited

/-- `enum net_dhcp_state`. -/
inductive NetDhcpState
  | off
  | discovering
  | requesting
  | bound
  | renewing
  | rebinding
  deriving DecidableEq, Inhabited

/-- `struct net_dhcp_client`. -/
structure NetDhcpClient where
  state : NetDhcpState
  transactionId : UInt32
  offeredIp : UInt32
  serverIp : UInt32
  offeredNetmask : UInt32
  offeredGateway : UInt32
  offeredDns : UInt32
  leaseSeconds : UInt32
  renewalSeconds : UInt32
  rebindSeconds : UInt32
  leaseStartedMs : UInt64
  nextActionMs : UInt64
  attempts : UInt32
  deriving Inhabited

/-- `enum net_dns_state`. -/
inductive NetDnsState
  | idle
  | pending
  | resolved
  | notFound
  | timedOut
  | malformedResponse
  | serverError
  deriving DecidableEq, Inhabited

/-- `struct net_dns_client`. -/
structure NetDnsClient where
  state : NetDnsState
  name : CString
  transactionId : UInt16
  sourcePort : UInt16
  resultAddress : UInt32
  ttlSeconds : UInt32
  responseCode : UInt8
  nextActionMs : UInt64
  attempts : UInt32
  deriving Inhabited

/-- `struct net_dns_cache_entry`. -/
structure NetDnsCacheEntry where
  valid : Bool
  negative : Bool
  name : CString
  address : UInt32
  responseCode : UInt8
  expiresMs : UInt64
  lastUsedMs : UInt64
  deriving Inhabited

/-- `struct net_echo_request`. -/
structure NetEchoRequest where
  pending : Bool
  destinationIp : UInt32
  identifier : UInt16
  sequence : UInt16
  sentMs : UInt64
  deriving Inhabited

/-- `struct net_icmp_echo_reply`. -/
structure NetIcmpEchoReply where
  valid : Bool
  sourceIp : UInt32
  identifier : UInt16
  sequence : UInt16
  roundTripMs : UInt64
  payloadSize : ℕ
  deriving Inhabited

/-- `struct net_stats`. -/
structure NetStats where
  framesReceived : UInt64
  framesTransmitted : UInt64
  framesDropped : UInt64
  arpRequestsSent : UInt64
  arpRepliesReceived : UInt64
  ipv4PacketsReceived : UInt64
  ipv4PacketsTransmitted : UInt64
  icmpEchoRequestsReceived : UInt64
  icmpEchoRepliesReceived : UInt64
  udpDatagramsReceived : UInt64
  udpDatagramsTransmitted : UInt64
  deriving Inhabited

/-- What a frame is sent for.  This is not part of the program. -/
inductive NetCause
  /-- The call itself. -/
  | direct
  /-- A packet that has waited for ARP, to the Ethernet address that was found for `nextHopIp`. -/
  | queued (ticket : ℕ) (nextHopIp : UInt32)
  /-- An ARP request on behalf of a packet that waits. -/
  | resolving (ticket : ℕ)
  deriving DecidableEq

/-- A packet as `net_ipv4_send` queues it.  This is not part of the program. -/
structure QueuedIpv4 where
  /-- The configuration of the interface when the packet was queued. -/
  sourceIp : UInt32
  netmask : UInt32
  gateway : UInt32
  destinationIp : UInt32
  nextHopIp : UInt32
  protocol : UInt8
  payload : List UInt8
  deriving DecidableEq

/-- A packet that an interface with this configuration sends.  This is not part of the program. -/
def NetIpv4Config.packet (config : NetIpv4Config) (destinationIp nextHopIp : UInt32)
    (protocol : UInt8) (payload : List UInt8) : QueuedIpv4 :=
  ⟨config.address, config.netmask, config.gateway, destinationIp, nextHopIp, protocol, payload⟩

/-- What the stack does to its surroundings.  This is not part of the program. -/
inductive NetEvent
  /-- A frame was handed to the link, which gave the answer `ok`. -/
  | transmit (frame : List UInt8) (ok : Bool) (cause : NetCause)
  /-- A packet was queued under a new ticket. -/
  | queue (ticket : ℕ) (packet : QueuedIpv4)
  /-- A handler was called with a datagram. -/
  | udp (handler : NetHandler) (datagram : NetUdpDatagram)
  /-- The TCP handler was called with a segment. -/
  | tcp (handler : NetHandler) (sourceIp destinationIp : UInt32) (payload : List UInt8)
  deriving DecidableEq

/-- `struct net_stack`. -/
structure NetStack where
  /-- The answers `link.send` will give. -/
  answers : ℕ → Bool
  mac : Mac
  mac_valid : macIsValidSource mac = true
  ipv4 : NetIpv4Config
  nextIpv4Id : UInt16
  currentTimeMs : UInt64
  arp : Fin 8 → NetArpEntry
  udpBindings : Fin 8 → NetUdpBinding
  pendingIpv4 : NetPendingIpv4
  dhcp : NetDhcpClient
  dns : NetDnsClient
  dnsCache : Fin 8 → NetDnsCacheEntry
  dnsCacheHits : UInt64
  dnsCacheMisses : UInt64
  dnsCacheEvictions : UInt64
  dnsCacheExpirations : UInt64
  tcpHandler : Option NetHandler
  echoRequest : NetEchoRequest
  echoReply : NetIcmpEchoReply
  stats : NetStats
  /-- The buffer that frames are built in; no access is beyond `NET_ETHERNET_FRAME_MAX`. -/
  transmitFrame : Memory
  /-- Newest first. -/
  events : List NetEvent
  /-- The number of packets queued so far. -/
  queued : ℕ

namespace NetStack

/-! ### Updates of one field -/

/-- The stack with another IPv4 configuration. -/
@[simps -fullyApplied]
def withIpv4 (s : NetStack) (ipv4 : NetIpv4Config) : NetStack := { s with ipv4 := ipv4 }

/-- The stack at another time. -/
@[simps -fullyApplied]
def withTime (s : NetStack) (nowMs : UInt64) : NetStack := { s with currentTimeMs := nowMs }

/-- The stack with another ARP table. -/
@[simps -fullyApplied]
def withArp (s : NetStack) (arp : Fin 8 → NetArpEntry) : NetStack := { s with arp := arp }

/-- The stack with another packet that waits for ARP. -/
@[simps -fullyApplied]
def withPending (s : NetStack) (pending : NetPendingIpv4) : NetStack :=
  { s with pendingIpv4 := pending }

/-- The stack with another DHCP client. -/
@[simps -fullyApplied]
def withDhcp (s : NetStack) (dhcp : NetDhcpClient) : NetStack := { s with dhcp := dhcp }

/-- The stack with another resolver. -/
@[simps -fullyApplied]
def withDns (s : NetStack) (dns : NetDnsClient) : NetStack := { s with dns := dns }

/-- The stack with another DNS cache. -/
@[simps -fullyApplied]
def withDnsCache (s : NetStack) (cache : Fin 8 → NetDnsCacheEntry) : NetStack :=
  { s with dnsCache := cache }

/-- The stack with its statistics updated. -/
@[simps -fullyApplied]
def count (s : NetStack) (update : NetStats → NetStats) : NetStack :=
  { s with stats := update s.stats }

/-- The stack after an event. -/
@[simps -fullyApplied]
def record (s : NetStack) (event : NetEvent) : NetStack := { s with events := event :: s.events }

end NetStack

theorem bytes_byteAt (l : List UInt8) : Memory.bytes (byteAt l) l.length = l := map_range_byteAt l

end Nostalux.Net
