import Nostalux.Net.Types

/-!
# `kernel/net.c`: the link, ARP and sending

All frames are built in place in `transmit_frame`.  What is sent may itself lie there: a UDP
datagram is written behind the space of the headers, and `net_ipv4_send` gets a pointer into the
buffer (`Pointer.transmit`).  `bytes_copy` copies overlapping ranges correctly, so that it copies
what the range holds before the copy.
-/

namespace Nostalux.Net

open BigEndian

/-- A pointer to data that is handed to the stack. -/
inductive Pointer
  | null
  /-- Memory outside of `transmit_frame`. -/
  | external (m : Memory)
  /-- An offset in `transmit_frame`. -/
  | transmit (off : ℕ)

namespace Pointer

/-- What a pointer points to. -/
def read (s : NetStack) : Pointer → Memory
  | .null => fun _ => 0
  | .external m => m
  | .transmit off => s.transmitFrame.shift off

/-- Whether the pointer is `NULL`. -/
def isNull : Pointer → Bool
  | .null => true
  | _ => false

end Pointer

namespace NetStack

/-! ### The transmit buffer and the link -/

/-- Store bytes at an offset of `transmit_frame`. -/
@[simps -fullyApplied]
def write (s : NetStack) (off : ℕ) (bytes : List UInt8) : NetStack :=
  { s with transmitFrame := s.transmitFrame.blit off (byteAt bytes) bytes.length }

/-- `bytes_copy` to an offset of `transmit_frame`. -/
@[simps -fullyApplied]
def copy (s : NetStack) (off : ℕ) (source : Pointer) (size : ℕ) : NetStack :=
  { s with transmitFrame := s.transmitFrame.blit off (source.read s) size }

/-- `link_transmit`. -/
def linkTransmit (s : NetStack) (cause : NetCause) (frameSize : ℕ) : Bool × NetStack :=
  if frameSize < netEthernetHeaderSize ∨ frameSize > netEthernetFrameMax then (false, s)
  else
    let handed := { s with answers := fun k => s.answers (k + 1) }.record
      (.transmit (s.transmitFrame.bytes frameSize) (s.answers 0) cause)
    if s.answers 0 then
      (true, handed.count fun stats =>
        { stats with framesTransmitted := stats.framesTransmitted + 1 })
    else (false, handed)

/-- `write_ethernet_header`. -/
def writeEthernetHeader (s : NetStack) (destination : Mac) (ethertype : UInt16) : NetStack :=
  ((s.write 0 (destination.bytes 0 6)).write 6 (s.mac.bytes 0 6)).write 12 (writeU16 ethertype)

/-! ### Classes of addresses -/

/-- `ipv4_is_subnet_broadcast`. -/
def ipv4IsSubnetBroadcast (s : NetStack) (ip : UInt32) : Bool :=
  let mask := s.ipv4.netmask
  if s.ipv4.address = 0 ∨ mask = 0 ∨ mask = uint32Max then false
  else ip = (s.ipv4.address &&& mask ||| ~~~mask)

/-- `ipv4_is_broadcast`. -/
def ipv4IsBroadcast (s : NetStack) (ip : UInt32) : Bool :=
  ip = uint32Max ∨ s.ipv4IsSubnetBroadcast ip

/-- `ipv4_is_on_link`. -/
def ipv4IsOnLink (s : NetStack) (ip : UInt32) : Bool :=
  if s.ipv4.address = 0 then false
  else s.ipv4.netmask = 0 ∨ s.ipv4.address &&& s.ipv4.netmask = ip &&& s.ipv4.netmask

/-- `ipv4_destination_is_local`. -/
def ipv4DestinationIsLocal (s : NetStack) (ip : UInt32) : Bool :=
  if ip = uint32Max ∨ s.ipv4IsSubnetBroadcast ip then true
  else s.ipv4.address ≠ 0 ∧ ip = s.ipv4.address

/-! ### ARP -/

/-- `arp_find`: the index of the entry. -/
def arpFind (s : NetStack) (ip : UInt32) : Option (Fin 8) :=
  (List.finRange 8).find? fun i => (s.arp i).valid && (s.arp i).ip == ip

/-- The loop of `arp_learn` over the entries that are left: the first free entry, or else the one
that was refreshed longest ago. -/
def arpSelect (arp : Fin 8 → NetArpEntry) : List (Fin 8) → Fin 8 → UInt64 → Fin 8
  | [], selected, _ => selected
  | i :: rest, selected, oldest =>
    if !(arp i).valid then i
    else if (arp i).refreshedMs < oldest then arpSelect arp rest i (arp i).refreshedMs
    else arpSelect arp rest selected oldest

/-- `arp_learn`. -/
def arpLearn (s : NetStack) (ip : UInt32) (mac : Mac) : NetStack :=
  if !ipv4IsUsableUnicast ip || !macIsValidSource mac then s
  else
    let i := (s.arpFind ip).getD (arpSelect s.arp (List.finRange 8) 0 uint64Max)
    s.withArp (Function.update s.arp i ⟨true, ip, mac, s.currentTimeMs⟩)

/-- `net_arp_lookup`. -/
def netArpLookup (s : NetStack) (ip : UInt32) : Option Mac :=
  (s.arpFind ip).map fun i => (s.arp i).mac

/-- The ARP packet that `net_arp_request` and `send_arp_reply` build behind the Ethernet header. -/
def arpPacket (s : NetStack) (operation : UInt16) (targetMac : Mac) (targetIp : UInt32) :
    List UInt8 :=
  writeU16 1 ++ writeU16 ethertypeIpv4 ++ [6, 4] ++ writeU16 operation ++ s.mac.bytes 0 6 ++
    writeU32 s.ipv4.address ++ targetMac.bytes 0 6 ++ writeU32 targetIp

/-- `net_arp_request`. -/
def netArpRequest (s : NetStack) (cause : NetCause) (ip : UInt32) : Bool × NetStack :=
  if s.ipv4.address = 0 ∨ !ipv4IsUsableUnicast ip then (false, s)
  else
    match linkTransmit ((s.writeEthernetHeader macBroadcast ethertypeArp).write 14
      (s.arpPacket 1 Buffer.zero ip)) cause 42 with
    | (false, s) => (false, s)
    | (true, s) =>
      (true, s.count fun stats => { stats with arpRequestsSent := stats.arpRequestsSent + 1 })

/-- `send_arp_reply`. -/
def sendArpReply (s : NetStack) (destinationMac : Mac) (destinationIp : UInt32) :
    Bool × NetStack :=
  linkTransmit ((s.writeEthernetHeader destinationMac ethertypeArp).write 14
    (s.arpPacket 2 destinationMac destinationIp)) .direct 42

/-! ### IPv4 -/

/-- The Ethernet address of an IPv4 multicast group. -/
def multicastMac (ip : UInt32) : Mac :=
  Buffer.ofFn (byteAt [0x01, 0x00, 0x5E, UInt8.ofNat (ip.toNat / 65536 % 128),
    UInt8.ofNat (ip.toNat / 256), UInt8.ofNat ip.toNat])

/-- What `route_ipv4` finds: the next hop, and its Ethernet address unless ARP is needed. -/
structure Route where
  nextHopIp : UInt32
  mac : Option Mac

/-- `route_ipv4`. -/
def routeIpv4 (s : NetStack) (destinationIp : UInt32) : Option Route :=
  if destinationIp = 0 then none
  else if s.ipv4IsBroadcast destinationIp then some ⟨destinationIp, some macBroadcast⟩
  else if ipv4IsMulticast destinationIp then
    some ⟨destinationIp, some (multicastMac destinationIp)⟩
  else if s.ipv4.address = 0 then none
  else
    let target :=
      if s.ipv4.netmask ≠ 0 ∧
          destinationIp &&& s.ipv4.netmask ≠ s.ipv4.address &&& s.ipv4.netmask then
        s.ipv4.gateway
      else destinationIp
    if !ipv4IsUsableUnicast target then none else some ⟨target, s.netArpLookup target⟩

/-- The IPv4 header that `send_ipv4_with_mac` writes, with the given checksum field. -/
def ipv4Header (identification : UInt16) (sourceIp destinationIp : UInt32) (protocol : UInt8)
    (payloadSize : ℕ) (checksum : UInt16) : List UInt8 :=
  [0x45, 0] ++ writeU16 (UInt16.ofNat (netIpv4HeaderMinSize + payloadSize)) ++
    writeU16 identification ++ writeU16 0x4000 ++ [64, protocol] ++ writeU16 checksum ++
    writeU32 sourceIp ++ writeU32 destinationIp

/-- The packet that `send_ipv4_with_mac` builds in the buffer.  The checksum of the header is
computed in place and stored before the payload is copied. -/
def buildIpv4 (s : NetStack) (destinationIp : UInt32) (protocol : UInt8) (payload : Pointer)
    (payloadSize : ℕ) (destinationMac : Mac) : NetStack :=
  let header := (s.writeEthernetHeader destinationMac ethertypeIpv4).write 14
    (ipv4Header s.nextIpv4Id s.ipv4.address destinationIp protocol payloadSize 0)
  let sealed := header.write 24
    (writeU16 (internetChecksum (header.transmitFrame.shift 14) netIpv4HeaderMinSize))
  { sealed.copy 34 payload payloadSize with nextIpv4Id := s.nextIpv4Id + 1 }

/-- `send_ipv4_with_mac`. -/
def sendIpv4WithMac (s : NetStack) (cause : NetCause) (destinationIp : UInt32) (protocol : UInt8)
    (payload : Pointer) (payloadSize : ℕ) (destinationMac : Mac) : Bool × NetStack :=
  if payloadSize > netIpv4PayloadMax ∨ (payloadSize ≠ 0 ∧ payload.isNull) then (false, s)
  else
    match linkTransmit (s.buildIpv4 destinationIp protocol payload payloadSize destinationMac) cause
      (34 + payloadSize) with
    | (false, s) => (false, s)
    | (true, s) =>
      (true, s.count fun stats =>
        { stats with ipv4PacketsTransmitted := stats.ipv4PacketsTransmitted + 1 })

/-- `flush_pending_ipv4`. -/
def flushPendingIpv4 (s : NetStack) : Bool × NetStack :=
  if !s.pendingIpv4.valid then (true, s)
  else
    match s.netArpLookup s.pendingIpv4.nextHopIp with
    | none => (false, s)
    | some mac =>
      match s.sendIpv4WithMac (.queued s.pendingIpv4.ticket s.pendingIpv4.nextHopIp)
        s.pendingIpv4.destinationIp s.pendingIpv4.protocol
        (.external (byteAt s.pendingIpv4.payload)) s.pendingIpv4.payload.length mac with
      | (false, s) =>
        (false, s.withPending { s.pendingIpv4 with
          arpRequestedMs := s.currentTimeMs
          transmitAttempts := s.pendingIpv4.transmitAttempts + 1 })
      | (true, s) =>
        let counted := s.count fun stats =>
          if s.pendingIpv4.protocol = netIpv4ProtocolUdp then
            { stats with udpDatagramsTransmitted := stats.udpDatagramsTransmitted + 1 }
          else stats
        (true, counted.withPending { s.pendingIpv4 with valid := false })

/-- The packet is copied to `pending_ipv4` and gets a new ticket. -/
def queueIpv4 (s : NetStack) (destinationIp nextHopIp : UInt32) (protocol : UInt8)
    (payload : Pointer) (payloadSize : ℕ) : NetStack :=
  let bytes := (payload.read s).bytes payloadSize
  let queued := s.withPending
    { valid := true
      destinationIp := destinationIp
      nextHopIp := nextHopIp
      protocol := protocol
      payload := bytes
      arpRequestedMs := s.currentTimeMs
      arpAttempts := 1
      transmitAttempts := 0
      ticket := s.queued }
  { queued with queued := s.queued + 1 }.record
    (.queue s.queued (s.ipv4.packet destinationIp nextHopIp protocol bytes))

/-- `net_ipv4_send`. -/
def netIpv4Send (s : NetStack) (destinationIp : UInt32) (protocol : UInt8) (payload : Pointer)
    (payloadSize : ℕ) : NetSendResult × NetStack :=
  if destinationIp = 0 ∨ payloadSize > netIpv4PayloadMax ∨
      (payloadSize ≠ 0 ∧ payload.isNull) then (.failed, s)
  else if s.ipv4.address = 0 ∧ destinationIp ≠ uint32Max then (.failed, s)
  else
    match s.routeIpv4 destinationIp with
    | none => (.failed, s)
    | some ⟨_, some mac⟩ =>
      match s.sendIpv4WithMac .direct destinationIp protocol payload payloadSize mac with
      | (true, s) => (.sent, s)
      | (false, s) => (.failed, s)
    | some ⟨nextHopIp, none⟩ =>
      if s.pendingIpv4.valid then (.failed, s)
      else
        (.queued, ((s.queueIpv4 destinationIp nextHopIp protocol payload payloadSize).netArpRequest
          (.resolving s.queued) nextHopIp).2)

/-! ### UDP and ICMP -/

/-- `udp_checksum_valid`. -/
def udpChecksumValid (sourceIp destinationIp : UInt32) (udp : Memory) (udpSize : ℕ) : Bool :=
  u16At udp 6 = 0 ∨ transportChecksum sourceIp destinationIp netIpv4ProtocolUdp udp udpSize = 0

/-- The UDP header that `net_udp_send` writes, with the given checksum field. -/
def udpHeader (sourcePort destinationPort : UInt16) (dataSize : ℕ) (checksum : UInt16) :
    List UInt8 :=
  writeU16 sourcePort ++ writeU16 destinationPort ++ writeU16 (UInt16.ofNat (8 + dataSize)) ++
    writeU16 checksum

/-- The datagram that `net_udp_send` builds in the buffer, behind the space of the other headers. -/
def buildUdp (s : NetStack) (destinationIp : UInt32) (destinationPort sourcePort : UInt16)
    (data : Pointer) (dataSize : ℕ) : NetStack :=
  let built := (s.write 34 (udpHeader sourcePort destinationPort dataSize 0)).copy 42 data dataSize
  let checksum := transportChecksum s.ipv4.address destinationIp netIpv4ProtocolUdp
    (built.transmitFrame.shift 34) (8 + dataSize)
  built.write 40 (writeU16 (if checksum = 0 then 0xFFFF else checksum))

/-- `net_udp_send`. -/
def netUdpSend (s : NetStack) (destinationIp : UInt32) (destinationPort sourcePort : UInt16)
    (data : Pointer) (dataSize : ℕ) : NetSendResult × NetStack :=
  if destinationPort = 0 ∨ sourcePort = 0 ∨ dataSize > netUdpPayloadMax ∨
      (dataSize ≠ 0 ∧ data.isNull) then (.failed, s)
  else
    match (s.buildUdp destinationIp destinationPort sourcePort data dataSize).netIpv4Send
      destinationIp netIpv4ProtocolUdp (.transmit 34) (8 + dataSize) with
    | (.sent, s) =>
      (.sent, s.count fun stats =>
        { stats with udpDatagramsTransmitted := stats.udpDatagramsTransmitted + 1 })
    | (result, s) => (result, s)

/-- `net_udp_bind`; no handler is the `NULL` handler. -/
def netUdpBind (s : NetStack) (port : UInt16) (handler : Option NetHandler) : Bool × NetStack :=
  if port = 0 ∨ handler = none ∨ port = dhcpClientPort then (false, s)
  else if (List.finRange 8).any fun i =>
      (s.udpBindings i).handler.isSome && (s.udpBindings i).port == port then (false, s)
  else
    match (List.finRange 8).find? fun i => (s.udpBindings i).handler.isNone with
    | none => (false, s)
    | some i => (true, { s with udpBindings := Function.update s.udpBindings i ⟨port, handler⟩ })

/-- `net_udp_unbind`. -/
def netUdpUnbind (s : NetStack) (port : UInt16) : NetStack :=
  { s with
    udpBindings := fun i =>
      if (s.udpBindings i).handler.isSome ∧ (s.udpBindings i).port = port then ⟨0, none⟩
      else s.udpBindings i }

/-- The message that `net_icmp_echo_request` builds in the buffer. -/
def buildEcho (s : NetStack) (identifier sequence : UInt16) (payload : Pointer)
    (payloadSize : ℕ) : NetStack :=
  let built := (s.write 34 ([8, 0] ++ writeU16 0 ++ writeU16 identifier ++
    writeU16 sequence)).copy 42 payload payloadSize
  built.write 36 (writeU16 (internetChecksum (built.transmitFrame.shift 34) (8 + payloadSize)))

/-- `net_icmp_echo_request`. -/
def netIcmpEchoRequest (s : NetStack) (destinationIp : UInt32) (identifier sequence : UInt16)
    (payload : Pointer) (payloadSize : ℕ) : NetSendResult × NetStack :=
  if payloadSize > netIpv4PayloadMax - 8 ∨ (payloadSize ≠ 0 ∧ payload.isNull) then (.failed, s)
  else
    match (s.buildEcho identifier sequence payload payloadSize).netIpv4Send destinationIp
      netIpv4ProtocolIcmp (.transmit 34) (8 + payloadSize) with
    | (.failed, s) => (.failed, s)
    | (result, s) =>
      (result, { s with
        echoRequest := ⟨true, destinationIp, identifier, sequence, s.currentTimeMs⟩
        echoReply := { s.echoReply with valid := false } })

end NetStack

end Nostalux.Net
