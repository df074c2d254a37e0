import Nostalux.Net.Send

/-!
# `kernel/net.c`: the IPv4 configuration and the DHCP client
-/

namespace Nostalux.Net

open BigEndian

/-- `saturating_add_u64`. -/
def saturatingAddU64 (value addition : UInt64) : UInt64 :=
  if addition > uint64Max - value then uint64Max else value + addition

/-- `seconds_to_ms`. -/
def secondsToMs (seconds : UInt32) : UInt64 := seconds.toUInt64 * 1000

namespace NetStack

/-! ### The configuration -/

/-- `net_dns_cache_clear`. -/
def netDnsCacheClear (s : NetStack) : NetStack := s.withDnsCache fun _ => default

/-- The flag `network_changed` of `net_configure_ipv4`. -/
def networkChanged (s : NetStack) (config : NetIpv4Config) : Bool :=
  s.ipv4.address ≠ config.address ∨ s.ipv4.netmask ≠ config.netmask ∨
    s.ipv4.gateway ≠ config.gateway

/-- The flag `resolver_changed` of `net_configure_ipv4`. -/
def resolverChanged (s : NetStack) (config : NetIpv4Config) : Bool := s.ipv4.dns ≠ config.dns

/-- `net_configure_ipv4`. -/
def netConfigureIpv4 (s : NetStack) (config : NetIpv4Config) : NetStack :=
  let configured := s.withIpv4 config
  let reset := if s.networkChanged config then
    (configured.withArp fun _ => default).withPending { s.pendingIpv4 with valid := false }
    else configured
  if s.networkChanged config || s.resolverChanged config then reset.netDnsCacheClear else reset

/-- `net_clear_ipv4`. -/
def netClearIpv4 (s : NetStack) : NetStack :=
  let cleared := (((s.withIpv4 ⟨0, 0, 0, 0⟩).withArp fun _ => default).withPending
    { s.pendingIpv4 with valid := false }).netDnsCacheClear
  if s.dns.state = .pending then cleared.withDns { s.dns with state := .timedOut } else cleared

end NetStack

/-! ### Messages of the client -/

/-- `DHCP_FIXED_SIZE`. -/
abbrev dhcpFixedSize : ℕ := 240

/-- `DHCP_PACKET_CAPACITY`. -/
abbrev dhcpPacketCapacity : ℕ := 576

/-- `DHCP_MAGIC_COOKIE`. -/
abbrev dhcpMagicCookie : UInt32 := 0x63825363

/-- `DHCP_MESSAGE_DISCOVER`. -/
abbrev dhcpMessageDiscover : UInt8 := 1

/-- `DHCP_MESSAGE_OFFER`. -/
abbrev dhcpMessageOffer : UInt8 := 2

/-- `DHCP_MESSAGE_REQUEST`. -/
abbrev dhcpMessageRequest : UInt8 := 3

/-- `DHCP_MESSAGE_ACK`. -/
abbrev dhcpMessageAck : UInt8 := 5

/-- `DHCP_MESSAGE_NAK`. -/
abbrev dhcpMessageNak : UInt8 := 6

/-- `dhcp_append_option` to the written front part of a packet. -/
def dhcpAppendOption (packet : List UInt8) (capacity : ℕ) (option : UInt8) (value : List UInt8) :
    Option (List UInt8) :=
  if packet.length > capacity ∨ value.length + 2 > capacity - packet.length then none
  else some (packet ++ [option, UInt8.ofNat value.length] ++ value)

/-- `dhcp_append_u32_option`. -/
def dhcpAppendU32Option (packet : List UInt8) (capacity : ℕ) (option : UInt8) (value : UInt32) :
    Option (List UInt8) :=
  dhcpAppendOption packet capacity option (writeU32 value)

/-- The number of attempts and the time of the next action. -/
def NetDhcpClient.schedule (dhcp : NetDhcpClient) (attempts : UInt32) (nextActionMs : UInt64) :
    NetDhcpClient :=
  { dhcp with attempts := attempts, nextActionMs := nextActionMs }

/-- `dhcp_retry_delay`. -/
def dhcpRetryDelay (attempts : UInt32) : UInt64 :=
  4000 <<< (if attempts > 4 then 4 else attempts).toUInt64

namespace NetStack

/-- The first `DHCP_FIXED_SIZE` bytes of a message of the client. -/
def dhcpFixedPart (s : NetStack) (usingActiveLease : Bool) : List UInt8 :=
  [1, 1, 6, 0] ++ writeU32 s.dhcp.transactionId ++ [0, 0] ++
    writeU16 (if !usingActiveLease ∨ s.dhcp.state = .rebinding then 0x8000 else 0) ++
    writeU32 (if usingActiveLease then s.ipv4.address else 0) ++ List.replicate 12 0 ++
    s.mac.bytes 0 6 ++ List.replicate 202 0 ++ writeU32 dhcpMagicCookie

/-- The options of a message of the client, up to and without the end marker. -/
def dhcpOptionsPart (s : NetStack) (messageType : UInt8) (usingActiveLease : Bool)
    (packet : List UInt8) : Option (List UInt8) := do
  let packet ← dhcpAppendOption packet dhcpPacketCapacity 53 [messageType]
  let packet ← dhcpAppendOption packet dhcpPacketCapacity 61 (1 :: s.mac.bytes 0 6)
  let packet ←
    if messageType = dhcpMessageRequest ∧ !usingActiveLease then do
      let packet ← dhcpAppendU32Option packet dhcpPacketCapacity 50 s.dhcp.offeredIp
      if s.dhcp.state ≠ .rebinding ∧ s.dhcp.serverIp ≠ 0 then
        dhcpAppendU32Option packet dhcpPacketCapacity 54 s.dhcp.serverIp
      else some packet
    else some packet
  let packet ← dhcpAppendOption packet dhcpPacketCapacity 55 [1, 3, 6, 51, 58, 59]
  dhcpAppendOption packet dhcpPacketCapacity 57 (writeU16 (UInt16.ofNat dhcpPacketCapacity))

/-- The destination of a message of the client. -/
def dhcpDestination (s : NetStack) : UInt32 :=
  if s.dhcp.state = .renewing ∧ s.dhcp.serverIp ≠ 0 then s.dhcp.serverIp else uint32Max

/-- A message of the client is counted, and the time of the next one is set. -/
def dhcpCountAttempt (s : NetStack) : NetStack :=
  s.withDhcp (s.dhcp.schedule (s.dhcp.attempts + 1)
    (saturatingAddU64 s.currentTimeMs (dhcpRetryDelay s.dhcp.attempts)))

/-- `dhcp_send_message`. -/
def dhcpSendMessage (s : NetStack) (messageType : UInt8) (usingActiveLease : Bool) :
    Bool × NetStack :=
  match s.dhcpOptionsPart messageType usingActiveLease (s.dhcpFixedPart usingActiveLease) with
  | none => (false, s)
  | some packet =>
    if packet.length ≥ dhcpPacketCapacity then (false, s)
    else
      let sent := s.netUdpSend s.dhcpDestination dhcpServerPort dhcpClientPort
        (.external (byteAt (packet ++ [255]))) (packet.length + 1)
      (sent.1 ≠ .failed, sent.2.dhcpCountAttempt)

/-- The transaction id that `net_dhcp_start` makes up from the MAC address and the time. -/
def dhcpTransactionId (s : NetStack) : UInt32 :=
  let hash := (s.mac.bytes 0 6).foldl (fun hash b => (hash ^^^ b.toUInt32) * 16777619) 2166136261
  let id := hash ^^^ s.currentTimeMs.toUInt32
  if id = 0 then 1 else id

/-- `net_dhcp_start`. -/
def netDhcpStart (s : NetStack) (transactionId : UInt32) : NetStack :=
  let transactionId := if transactionId = 0 then s.dhcpTransactionId else transactionId
  ((s.netClearIpv4.withDhcp { (default : NetDhcpClient) with
      state := .discovering
      transactionId := transactionId }).dhcpSendMessage dhcpMessageDiscover false).2

/-- `net_dhcp_stop`. -/
def netDhcpStop (s : NetStack) : NetStack := s.withDhcp default

/-- `dhcp_restart`. -/
def dhcpRestart (s : NetStack) : NetStack :=
  let transactionId := s.dhcp.transactionId + 1
  s.netDhcpStart (if transactionId = 0 then 1 else transactionId)

end NetStack

/-! ### Messages of a server -/

/-- `struct dhcp_options`; an absent option is `none`. -/
structure DhcpOptions where
  messageType : Option UInt8
  subnetMask : Option UInt32
  router : Option UInt32
  dns : Option UInt32
  serverIdentifier : Option UInt32
  leaseTime : Option UInt32
  renewalTime : Option UInt32
  rebindTime : Option UInt32
  deriving DecidableEq, Inhabited

/-- A value is kept if the option has an admissible length and was not seen before. -/
def keepFirst {α : Type} (old : Option α) (admissible : Bool) (value : α) : Option α :=
  if admissible && old.isNone then some value else old

/-- The `switch` of `parse_dhcp_options`. -/
def DhcpOptions.note (options : DhcpOptions) (code : UInt8) (length : ℕ) (value : Memory) :
    DhcpOptions :=
  match code with
  | 53 => { options with messageType := keepFirst options.messageType (length == 1) (value 0) }
  | 1 => { options with subnetMask := keepFirst options.subnetMask (length == 4) (u32At value 0) }
  | 3 => { options with router := keepFirst options.router (length ≥ 4) (u32At value 0) }
  | 6 => { options with dns := keepFirst options.dns (length ≥ 4) (u32At value 0) }
  | 54 =>
    { options with
      serverIdentifier := keepFirst options.serverIdentifier (length == 4) (u32At value 0) }
  | 51 => { options with leaseTime := keepFirst options.leaseTime (length == 4) (u32At value 0) }
  | 58 =>
    { options with renewalTime := keepFirst options.renewalTime (length == 4) (u32At value 0) }
  | 59 => { options with rebindTime := keepFirst options.rebindTime (length == 4) (u32At value 0) }
  | _ => options

/-- The loop of `parse_dhcp_options` from an offset on. -/
def parseDhcpOptionsFrom (packet : Memory) (packetSize : ℕ) (options : DhcpOptions) (offset : ℕ) :
    Option DhcpOptions :=
  if offset < packetSize then
    let code := packet offset
    if code = 0 then parseDhcpOptionsFrom packet packetSize options (offset + 1)
    else if code = 255 then if options.messageType.isSome then some options else none
    else if offset + 1 ≥ packetSize then none
    else
      let length := (packet (offset + 1)).toNat
      if length > packetSize - (offset + 2) then none
      else
        parseDhcpOptionsFrom packet packetSize
          (options.note code length (packet.shift (offset + 2))) (offset + 2 + length)
  else none
termination_by packetSize - offset

/-- `parse_dhcp_options`. -/
def parseDhcpOptions (packet : Memory) (packetSize : ℕ) : Option DhcpOptions :=
  if packetSize < dhcpFixedSize ∨ u32At packet 236 ≠ dhcpMagicCookie then none
  else parseDhcpOptionsFrom packet packetSize default dhcpFixedSize

/-- Seven eighths of a number of seconds. -/
def sevenEighths (seconds : UInt32) : UInt32 := (seconds.toUInt64 * 7 / 8).toUInt32

namespace NetStack

/-- An accepted offer. -/
def dhcpReceiveOffer (s : NetStack) (options : DhcpOptions) (offeredIp serverIp : UInt32) :
    NetStack :=
  let leaseSeconds := options.leaseTime.getD 3600
  ((s.withDhcp { s.dhcp with
      offeredIp := offeredIp
      serverIp := serverIp
      offeredNetmask := options.subnetMask.getD 0
      offeredGateway := options.router.getD 0
      offeredDns := options.dns.getD 0
      leaseSeconds := leaseSeconds
      renewalSeconds := options.renewalTime.getD (leaseSeconds / 2)
      rebindSeconds := options.rebindTime.getD (sevenEighths leaseSeconds)
      state := .requesting
      attempts := 0 }).dhcpSendMessage dhcpMessageRequest false).2

/-- The configuration of an ACK. -/
def dhcpConfiguration (s : NetStack) (options : DhcpOptions) (address : UInt32) : NetIpv4Config :=
  let netmask := options.subnetMask.getD s.dhcp.offeredNetmask
  let gateway := options.router.getD s.dhcp.offeredGateway
  let dns := options.dns.getD s.dhcp.offeredDns
  { address := address
    netmask := if ipv4NetmaskIsValid netmask then netmask else 0xFFFFFF00
    gateway := if ipv4IsUsableUnicast gateway then gateway else 0
    dns := if ipv4IsUsableUnicast dns then dns else 0 }

/-- The address of an ACK: its own, or else the current one, or else the offered one. -/
def dhcpAckAddress (s : NetStack) (offeredIp : UInt32) : UInt32 :=
  let address := if ipv4IsUsableUnicast offeredIp then offeredIp else s.ipv4.address
  if ipv4IsUsableUnicast address then address else s.dhcp.offeredIp

/-- The lease time of an ACK. -/
def dhcpAckLease (s : NetStack) (options : DhcpOptions) : UInt32 :=
  options.leaseTime.getD (if s.dhcp.leaseSeconds ≠ 0 then s.dhcp.leaseSeconds else 3600)

/-- The first fields that an ACK stores. -/
def dhcpStoreLease (s : NetStack) (serverIp leaseSeconds : UInt32) : NetStack :=
  s.withDhcp { s.dhcp with
    serverIp := if ipv4IsUsableUnicast serverIp then serverIp else s.dhcp.serverIp
    leaseSeconds := leaseSeconds }

/-- The renewal time of an ACK. -/
def dhcpAckRenewal (options : DhcpOptions) (leaseSeconds : UInt32) : UInt32 :=
  let renewalSeconds := options.renewalTime.getD (leaseSeconds / 2)
  if renewalSeconds ≥ leaseSeconds then leaseSeconds / 2 else renewalSeconds

/-- The rebind time of an ACK. -/
def dhcpAckRebind (options : DhcpOptions) (leaseSeconds renewalSeconds : UInt32) : UInt32 :=
  let rebindSeconds := options.rebindTime.getD (sevenEighths leaseSeconds)
  if rebindSeconds ≤ renewalSeconds ∨ rebindSeconds ≥ leaseSeconds then sevenEighths leaseSeconds
  else rebindSeconds

/-- The client is bound to a lease from now on. -/
def dhcpBind (s : NetStack) (renewalSeconds rebindSeconds : UInt32) : NetStack :=
  s.withDhcp ({ s.dhcp with
    renewalSeconds := renewalSeconds
    rebindSeconds := rebindSeconds
    state := .bound
    leaseStartedMs := s.currentTimeMs }.schedule 0
      (saturatingAddU64 s.currentTimeMs (secondsToMs renewalSeconds)))

/-- An ACK of the selected server.  The server and the lease time are stored before the lease time
is found to be zero. -/
def dhcpReceiveAck (s : NetStack) (options : DhcpOptions) (offeredIp serverIp : UInt32) :
    Bool × NetStack :=
  if !ipv4IsUsableUnicast (s.dhcpAckAddress offeredIp) then (false, s)
  else
    let configuration := s.dhcpConfiguration options (s.dhcpAckAddress offeredIp)
    let leaseSeconds := s.dhcpAckLease options
    let stored := s.dhcpStoreLease serverIp leaseSeconds
    if leaseSeconds = 0 then (false, stored)
    else
      let renewalSeconds := dhcpAckRenewal options leaseSeconds
      (true, (stored.netConfigureIpv4 configuration).dhcpBind renewalSeconds
        (dhcpAckRebind options leaseSeconds renewalSeconds))

/-- The client waits for an answer to its request. -/
def dhcpIsAsking (s : NetStack) : Bool :=
  s.dhcp.state = .requesting ∨ s.dhcp.state = .renewing ∨ s.dhcp.state = .rebinding

/-- A message of another server than the selected one. -/
def dhcpOtherServer (s : NetStack) (options : DhcpOptions) : Bool :=
  s.dhcp.serverIp ≠ 0 ∧ options.serverIdentifier.isSome ∧
    options.serverIdentifier ≠ some s.dhcp.serverIp ∧ s.dhcp.state ≠ .rebinding

/-- The part of `dhcp_receive` behind the options.  The message type is present in parsed
options. -/
def dhcpDispatch (s : NetStack) (options : DhcpOptions) (offeredIp serverIp : UInt32) :
    Bool × NetStack :=
  let messageType := options.messageType.getD 0
  if messageType = dhcpMessageOffer ∧ s.dhcp.state = .discovering ∧
      ipv4IsUsableUnicast offeredIp ∧ ipv4IsUsableUnicast serverIp then
    (true, s.dhcpReceiveOffer options offeredIp serverIp)
  else if messageType = dhcpMessageNak ∧ s.dhcpIsAsking then
    if s.dhcpOtherServer options then (false, s) else (true, s.dhcpRestart)
  else if messageType ≠ dhcpMessageAck ∨ !s.dhcpIsAsking then (false, s)
  else if s.dhcpOtherServer options then (false, s)
  else s.dhcpReceiveAck options offeredIp serverIp

/-- Whether `dhcp_receive` takes a message for a reply to the client. -/
def dhcpIsReply (s : NetStack) (packet : Memory) (packetSize : ℕ) : Bool :=
  s.dhcp.state ≠ .off ∧ packetSize ≥ dhcpFixedSize ∧ packet 0 = 2 ∧ packet 1 = 1 ∧ packet 2 = 6 ∧
    u32At packet 4 = s.dhcp.transactionId ∧ macAt (packet.shift 28) = s.mac

/-- `dhcp_receive`. -/
def dhcpReceive (s : NetStack) (sourceIp : UInt32) (packet : Memory) (packetSize : ℕ) :
    Bool × NetStack :=
  if !s.dhcpIsReply packet packetSize then (false, s)
  else
    match parseDhcpOptions packet packetSize with
    | none => (false, s)
    | some options =>
      s.dhcpDispatch options (u32At packet 16) (options.serverIdentifier.getD sourceIp)

end NetStack

end Nostalux.Net
