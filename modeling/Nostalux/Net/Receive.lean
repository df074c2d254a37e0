import Nostalux.Net.Dns

/-!
# `kernel/net.c`: received frames, the clock, and runs of the stack

The public functions of the stack are the calls of `NetCall`.  A run is a sequence of calls from a
stack that `net_init` has set up (`NetStack.after`).  `net_poll` is a sequence of `net_tick` and
`net_input`.
-/

namespace Nostalux.Net

open BigEndian

/-- `ARP_MAX_ATTEMPTS`. -/
abbrev arpMaxAttempts : UInt32 := 3

/-- `ARP_RETRY_INTERVAL_MS`. -/
abbrev arpRetryIntervalMs : UInt64 := 1000

/-- `ARP_ENTRY_LIFETIME_MS`. -/
abbrev arpEntryLifetimeMs : UInt64 := 120000

/-- `ICMP_ECHO_TIMEOUT_MS`. -/
abbrev icmpEchoTimeoutMs : UInt64 := 10000

namespace NetStack

/-! ### Received packets -/

/-- The reply that `receive_icmp` builds in the buffer. -/
def buildEchoReply (s : NetStack) (packet : Memory) (packetSize : ℕ) : NetStack :=
  let built := ((s.copy 34 (.external packet) packetSize).write 34 [0]).write 36 (writeU16 0)
  (built.write 36
    (writeU16 (internetChecksum (built.transmitFrame.shift 34) packetSize))).count fun stats =>
    { stats with icmpEchoRequestsReceived := stats.icmpEchoRequestsReceived + 1 }

/-- The answer of `receive_icmp` to an echo request. -/
def icmpEchoReply (s : NetStack) (sourceIp : UInt32) (packet : Memory) (packetSize : ℕ) :
    NetSendResult × NetStack :=
  (s.buildEchoReply packet packetSize).netIpv4Send sourceIp netIpv4ProtocolIcmp (.transmit 34)
    packetSize

/-- Whether `receive_icmp` answers a packet. -/
def isEchoRequest (s : NetStack) (destinationIp : UInt32) (packet : Memory) : Bool :=
  packet 0 = 8 ∧ packet 1 = 0 ∧ s.ipv4.address ≠ 0 ∧ destinationIp = s.ipv4.address

/-- `receive_icmp`. -/
def receiveIcmp (s : NetStack) (sourceIp destinationIp : UInt32) (packet : Memory)
    (packetSize : ℕ) : Bool × NetStack :=
  if packetSize < 8 ∨ internetChecksum packet packetSize ≠ 0 then (false, s)
  else if s.isEchoRequest destinationIp packet then
    let sent := s.icmpEchoReply sourceIp packet packetSize
    (sent.1 ≠ .failed, sent.2)
  else if packet 0 = 0 ∧ packet 1 = 0 ∧ s.echoRequest.pending ∧
      sourceIp = s.echoRequest.destinationIp ∧ u16At packet 4 = s.echoRequest.identifier ∧
      u16At packet 6 = s.echoRequest.sequence then
    let counted := s.count fun stats =>
      { stats with icmpEchoRepliesReceived := stats.icmpEchoRepliesReceived + 1 }
    (true, { counted with
      echoReply :=
        { valid := true
          sourceIp := sourceIp
          identifier := u16At packet 4
          sequence := u16At packet 6
          roundTripMs := if s.currentTimeMs ≥ s.echoRequest.sentMs then
            s.currentTimeMs - s.echoRequest.sentMs else 0
          payloadSize := packetSize - 8 }
      echoRequest := { s.echoRequest with pending := false } })
  else (false, s)

/-- The loop of `receive_udp` over the bindings. -/
def deliverUdp (s : NetStack) (datagram : NetUdpDatagram) : Bool × NetStack :=
  match (List.finRange 8).findSome? fun i =>
    if (s.udpBindings i).port = datagram.destinationPort then (s.udpBindings i).handler
    else none with
  | none => (false, s)
  | some handler => (true, s.record (.udp handler datagram))

/-- `receive_udp`. -/
def receiveUdp (s : NetStack) (sourceIp destinationIp : UInt32) (packet : Memory)
    (packetSize : ℕ) : Bool × NetStack :=
  if packetSize < 8 then (false, s)
  else
    let sourcePort := u16At packet 0
    let destinationPort := u16At packet 2
    let udpSize := (u16At packet 4).toNat
    if sourcePort = 0 ∨ destinationPort = 0 ∨ udpSize < 8 ∨ udpSize ≠ packetSize ∨
        !udpChecksumValid sourceIp destinationIp packet udpSize then (false, s)
    else
      let data := packet.shift 8
      let dataSize := udpSize - 8
      let s := s.count fun stats =>
        { stats with udpDatagramsReceived := stats.udpDatagramsReceived + 1 }
      if destinationPort = dhcpClientPort ∧ sourcePort = dhcpServerPort then
        s.dhcpReceive sourceIp data dataSize
      else if destinationPort = s.dns.sourcePort ∧ sourcePort = dnsServerPort then
        s.dnsReceive sourceIp sourcePort destinationPort data dataSize
      else s.deliverUdp ⟨sourceIp, destinationIp, sourcePort, destinationPort, data.bytes dataSize⟩

/-- The TCP branch of `receive_ipv4`. -/
def deliverTcp (s : NetStack) (sourceIp destinationIp : UInt32) (payload : List UInt8) :
    Bool × NetStack :=
  match s.tcpHandler with
  | none => (false, s)
  | some handler => (true, s.record (.tcp handler sourceIp destinationIp payload))

/-- The `switch` of `receive_ipv4`. -/
def receivePayload (s : NetStack) (protocol : UInt8) (sourceIp destinationIp : UInt32)
    (payload : Memory) (payloadSize : ℕ) : Bool × NetStack :=
  if protocol = netIpv4ProtocolIcmp then s.receiveIcmp sourceIp destinationIp payload payloadSize
  else if protocol = netIpv4ProtocolUdp then
    s.receiveUdp sourceIp destinationIp payload payloadSize
  else if protocol = netIpv4ProtocolTcp then
    s.deliverTcp sourceIp destinationIp (payload.bytes payloadSize)
  else (false, s)

/-- `arp_learn` and `flush_pending_ipv4`, as both receive functions do them. -/
def learnAndFlush (s : NetStack) (ip : UInt32) (mac : Mac) : NetStack :=
  (s.arpLearn ip mac).flushPendingIpv4.2

/-- The sender of an accepted packet is learned if it is on the link. -/
def learnSender (s : NetStack) (sourceIp : UInt32) (sourceMac : Mac) : NetStack :=
  if ipv4IsUsableUnicast sourceIp ∧ s.ipv4IsOnLink sourceIp then s.learnAndFlush sourceIp sourceMac
  else s

/-- Whether `receive_ipv4` takes a packet for its own. -/
def ipv4IsForStack (s : NetStack) (packet : Memory) (headerSize totalSize : ℕ) : Bool :=
  if s.ipv4DestinationIsLocal (u32At packet 16) then true
  else if s.ipv4.address = 0 ∧ s.dhcp.state ≠ .off ∧ packet 9 = netIpv4ProtocolUdp ∧
      totalSize ≥ headerSize + 8 then u16At packet (headerSize + 2) = dhcpClientPort
  else false

/-- The size of the header of an IPv4 packet. -/
def ipv4HeaderSize (packet : Memory) : ℕ := (packet 0).toNat % 16 * 4

/-- The checks of `receive_ipv4` on the header. -/
def ipv4HeaderIsValid (packet : Memory) (packetSize : ℕ) : Bool :=
  let headerSize := ipv4HeaderSize packet
  let totalSize := (u16At packet 2).toNat
  let fragment := u16At packet 6
  packetSize ≥ netIpv4HeaderMinSize ∧ (packet 0).toNat / 16 = 4 ∧
    headerSize ≥ netIpv4HeaderMinSize ∧ headerSize ≤ packetSize ∧ totalSize ≥ headerSize ∧
    totalSize ≤ packetSize ∧ packet 8 ≠ 0 ∧ internetChecksum packet headerSize = 0 ∧
    fragment &&& 0x8000 = 0 ∧ fragment &&& 0x3FFF = 0

/-- The part of `receive_ipv4` behind the checks. -/
def acceptIpv4 (s : NetStack) (sourceMac : Mac) (packet : Memory) : Bool × NetStack :=
  let headerSize := ipv4HeaderSize packet
  let totalSize := (u16At packet 2).toNat
  let counted := (s.learnSender (u32At packet 12) sourceMac).count fun stats =>
    { stats with ipv4PacketsReceived := stats.ipv4PacketsReceived + 1 }
  counted.receivePayload (packet 9) (u32At packet 12) (u32At packet 16) (packet.shift headerSize)
    (totalSize - headerSize)

/-- `receive_ipv4`. -/
def receiveIpv4 (s : NetStack) (sourceMac : Mac) (packet : Memory) (packetSize : ℕ) :
    Bool × NetStack :=
  if !ipv4HeaderIsValid packet packetSize then (false, s)
  else if !s.ipv4IsForStack packet (ipv4HeaderSize packet) (u16At packet 2).toNat then (false, s)
  else s.acceptIpv4 sourceMac packet

/-- The checks of `receive_arp` that both operations share. -/
def arpIsValid (ethernetSource : Mac) (packet : Memory) (packetSize : ℕ) : Bool :=
  packetSize ≥ 28 ∧ u16At packet 0 = 1 ∧ u16At packet 2 = ethertypeIpv4 ∧ packet 4 = 6 ∧
    packet 5 = 4 ∧ macAt (packet.shift 8) = ethernetSource ∧
      macIsValidSource (macAt (packet.shift 8)) ∧ ipv4IsUsableUnicast (u32At packet 14)

/-- `receive_arp`. -/
def receiveArp (s : NetStack) (ethernetSource : Mac) (packet : Memory) (packetSize : ℕ) :
    Bool × NetStack :=
  if !arpIsValid ethernetSource packet packetSize then (false, s)
  else
    let operation := u16At packet 6
    let senderMac := macAt (packet.shift 8)
    let senderIp := u32At packet 14
    let targetIp := u32At packet 24
    if operation = 1 then
      if s.ipv4.address = 0 ∨ targetIp ≠ s.ipv4.address then (false, s)
      else (s.learnAndFlush senderIp senderMac).sendArpReply senderMac senderIp
    else if operation = 2 then
      if targetIp ≠ s.ipv4.address ∨ macAt (packet.shift 18) ≠ s.mac then (false, s)
      else
        let counted := (s.arpLearn senderIp senderMac).count fun stats =>
          { stats with arpRepliesReceived := stats.arpRepliesReceived + 1 }
        (true, counted.flushPendingIpv4.2)
    else (false, s)

/-- A frame is dropped. -/
def countDropped (s : NetStack) : NetStack :=
  s.count fun stats => { stats with framesDropped := stats.framesDropped + 1 }

/-- The part of `net_input` that dispatches on the type of the frame. -/
def receiveFrame (s : NetStack) (frame : Memory) (frameSize : ℕ) : Bool × NetStack :=
  if u16At frame 12 = ethertypeArp then
    s.receiveArp (macAt (frame.shift 6)) (frame.shift 14) (frameSize - netEthernetHeaderSize)
  else if u16At frame 12 = ethertypeIpv4 then
    s.receiveIpv4 (macAt (frame.shift 6)) (frame.shift 14) (frameSize - netEthernetHeaderSize)
  else (false, s)

/-- `net_input`. -/
def netInput (s : NetStack) (frame : Memory) (frameSize : ℕ) : Bool × NetStack :=
  let s := s.count fun stats => { stats with framesReceived := stats.framesReceived + 1 }
  if frameSize < netEthernetHeaderSize ∨ frameSize > netEthernetFrameMax then
    (false, s.countDropped)
  else if (macAt frame ≠ s.mac ∧ !macIsBroadcast (macAt frame)) ∨
      !macIsValidSource (macAt (frame.shift 6)) then (false, s.countDropped)
  else
    match s.receiveFrame frame frameSize with
    | (true, s) => (true, s)
    | (false, s) => (false, s.countDropped)

/-! ### The clock -/

/-- `tick_pending_arp`. -/
def tickPendingArp (s : NetStack) : NetStack :=
  let pending := s.pendingIpv4
  if !pending.valid then s
  else if s.currentTimeMs < pending.arpRequestedMs ∨
      s.currentTimeMs - pending.arpRequestedMs < arpRetryIntervalMs then s
  else if (s.netArpLookup pending.nextHopIp).isSome then
    if pending.transmitAttempts ≥ arpMaxAttempts then
      s.withPending { pending with valid := false }
    else s.flushPendingIpv4.2
  else if pending.arpAttempts ≥ arpMaxAttempts then
    s.withPending { pending with valid := false }
  else
    ((s.withPending { pending with
        arpRequestedMs := s.currentTimeMs
        arpAttempts := pending.arpAttempts + 1 }).netArpRequest (.resolving pending.ticket)
      pending.nextHopIp).2

/-- The time since the lease started. -/
def leaseElapsed (s : NetStack) : UInt64 :=
  if s.currentTimeMs ≥ s.dhcp.leaseStartedMs then s.currentTimeMs - s.dhcp.leaseStartedMs else 0

/-- The client asks for its lease again, in the given state. -/
def dhcpRequestAgain (s : NetStack) (state : NetDhcpState) : NetStack :=
  ((s.withDhcp { s.dhcp with state := state, attempts := 0 }).dhcpSendMessage
    dhcpMessageRequest true).2

/-- The last part of `tick_dhcp`: the current message is sent again. -/
def dhcpRetry (s : NetStack) : NetStack :=
  if s.currentTimeMs < s.dhcp.nextActionMs then s
  else
    match s.dhcp.state with
    | .discovering => (s.dhcpSendMessage dhcpMessageDiscover false).2
    | .requesting => (s.dhcpSendMessage dhcpMessageRequest false).2
    | .renewing => (s.dhcpSendMessage dhcpMessageRequest true).2
    | .rebinding => (s.dhcpSendMessage dhcpMessageRequest true).2
    | _ => s

/-- `tick_dhcp`. -/
def tickDhcp (s : NetStack) : NetStack :=
  match s.dhcp.state with
  | .off => s
  | .bound =>
    if s.leaseElapsed ≥ secondsToMs s.dhcp.leaseSeconds then s.dhcpRestart
    else if s.leaseElapsed ≥ secondsToMs s.dhcp.renewalSeconds then s.dhcpRequestAgain .renewing
    else s
  | .renewing =>
    if s.leaseElapsed ≥ secondsToMs s.dhcp.leaseSeconds then s.dhcpRestart
    else if s.leaseElapsed ≥ secondsToMs s.dhcp.rebindSeconds then s.dhcpRequestAgain .rebinding
    else s.dhcpRetry
  | .rebinding =>
    if s.leaseElapsed ≥ secondsToMs s.dhcp.leaseSeconds then s.dhcpRestart else s.dhcpRetry
  | _ => s.dhcpRetry

/-- `tick_dns`. -/
def tickDns (s : NetStack) : NetStack :=
  if s.dns.state ≠ .pending ∨ s.currentTimeMs < s.dns.nextActionMs then s
  else if s.dns.attempts ≥ dnsMaxAttempts then s.dnsEnd .timedOut
  else s.dnsSendQuery.2

/-- The loop of `net_tick` over the ARP entries. -/
def arpExpire (s : NetStack) : NetStack :=
  s.withArp fun i =>
    if (s.arp i).valid ∧ (s.currentTimeMs < (s.arp i).refreshedMs ∨
        s.currentTimeMs - (s.arp i).refreshedMs ≥ arpEntryLifetimeMs) then
      { s.arp i with valid := false }
    else s.arp i

/-- The end of `net_tick`: an echo request that was not answered in time. -/
def tickEcho (s : NetStack) : NetStack :=
  if s.echoRequest.pending ∧ (s.currentTimeMs < s.echoRequest.sentMs ∨
      s.currentTimeMs - s.echoRequest.sentMs ≥ icmpEchoTimeoutMs) then
    { s with echoRequest := { s.echoRequest with pending := false } }
  else s

/-- `net_tick`. -/
def netTick (s : NetStack) (nowMs : UInt64) : NetStack :=
  (s.withTime nowMs).dnsCacheExpire.arpExpire.tickPendingArp.tickDhcp.tickDns.tickEcho

/-! ### Runs -/

/-- The stack that `net_init` sets up, with the answers the link will give and the time it tells. -/
def initial (answers : ℕ → Bool) (mac : Mac) (mac_valid : macIsValidSource mac = true)
    (nowMs : UInt64) : NetStack where
  answers := answers
  mac := mac
  mac_valid := mac_valid
  ipv4 := ⟨0, 0, 0, 0⟩
  nextIpv4Id := 1
  currentTimeMs := nowMs
  arp := fun _ => default
  udpBindings := fun _ => default
  pendingIpv4 := default
  dhcp := default
  dns := default
  dnsCache := fun _ => default
  dnsCacheHits := 0
  dnsCacheMisses := 0
  dnsCacheEvictions := 0
  dnsCacheExpirations := 0
  tcpHandler := none
  echoRequest := default
  echoReply := default
  stats := default
  transmitFrame := fun _ => 0
  events := []
  queued := 0

/-- `net_init`. -/
def netInit (answers : ℕ → Bool) (mac : Mac) (nowMs : UInt64) : Option NetStack :=
  if h : macIsValidSource mac = true then some (initial answers mac h nowMs) else none

/-- `net_set_tcp_handler`. -/
def netSetTcpHandler (s : NetStack) (handler : Option NetHandler) : NetStack :=
  { s with tcpHandler := handler }

/-- `net_icmp_clear_echo_reply`. -/
def netIcmpClearEchoReply (s : NetStack) : NetStack := { s with echoReply := default }

end NetStack

/-- A call of a public function of the stack.  The data that is sent lies outside of the stack. -/
inductive NetCall
  | configureIpv4 (config : NetIpv4Config)
  | clearIpv4
  | input (frame : Memory) (frameSize : ℕ)
  | tick (nowMs : UInt64)
  | ipv4Send (destinationIp : UInt32) (protocol : UInt8) (payload : Option Memory)
      (payloadSize : ℕ)
  | udpSend (destinationIp : UInt32) (destinationPort sourcePort : UInt16)
      (data : Option Memory) (dataSize : ℕ)
  | icmpEchoRequest (destinationIp : UInt32) (identifier sequence : UInt16)
      (payload : Option Memory) (payloadSize : ℕ)
  | arpRequest (ip : UInt32)
  | udpBind (port : UInt16) (handler : Option NetHandler)
  | udpUnbind (port : UInt16)
  | setTcpHandler (handler : Option NetHandler)
  | icmpClearEchoReply
  | dhcpStart (transactionId : UInt32)
  | dhcpStop
  | dnsQuery (name : Option CString) (transactionId : UInt16)
  | dnsCancel
  | dnsClearResult
  | dnsCacheClear

/-- A pointer of a caller; nothing is `NULL`. -/
def Pointer.ofCaller : Option Memory → Pointer
  | none => .null
  | some m => .external m

open NetStack in
/-- The stack after a call. -/
def NetCall.run (s : NetStack) : NetCall → NetStack
  | .configureIpv4 config => s.netConfigureIpv4 config
  | .clearIpv4 => s.netClearIpv4
  | .input frame frameSize => (s.netInput frame frameSize).2
  | .tick nowMs => s.netTick nowMs
  | .ipv4Send destinationIp protocol payload payloadSize =>
    (s.netIpv4Send destinationIp protocol (.ofCaller payload) payloadSize).2
  | .udpSend destinationIp destinationPort sourcePort data dataSize =>
    (s.netUdpSend destinationIp destinationPort sourcePort (.ofCaller data) dataSize).2
  | .icmpEchoRequest destinationIp identifier sequence payload payloadSize =>
    (s.netIcmpEchoRequest destinationIp identifier sequence (.ofCaller payload) payloadSize).2
  | .arpRequest ip => (s.netArpRequest .direct ip).2
  | .udpBind port handler => (s.netUdpBind port handler).2
  | .udpUnbind port => s.netUdpUnbind port
  | .setTcpHandler handler => s.netSetTcpHandler handler
  | .icmpClearEchoReply => s.netIcmpClearEchoReply
  | .dhcpStart transactionId => s.netDhcpStart transactionId
  | .dhcpStop => s.netDhcpStop
  | .dnsQuery name transactionId => (s.netDnsQuery name transactionId).2
  | .dnsCancel => s.netDnsCancel.2
  | .dnsClearResult => s.netDnsClearResult
  | .dnsCacheClear => s.netDnsCacheClear

/-- The stack after a sequence of calls. -/
def NetStack.after (s : NetStack) (calls : List NetCall) : NetStack := calls.foldl NetCall.run s

variable (s : NetStack)

@[simp] theorem NetStack.after_nil : s.after [] = s := rfl

@[simp] theorem NetStack.after_append (first second : List NetCall) :
    s.after (first ++ second) = (s.after first).after second :=
  List.foldl_append

@[simp] theorem NetStack.after_cons (call : NetCall) (calls : List NetCall) :
    s.after (call :: calls) = (call.run s).after calls := rfl

/-- The time after a call. -/
def NetCall.timeFrom (time : UInt64) : NetCall → UInt64
  | .tick nowMs => nowMs
  | _ => time

/-- The clock of the calls does not go back, from a time on. -/
def NetCall.ClockFrom : UInt64 → List NetCall → Prop
  | _, [] => True
  | time, call :: calls => time ≤ call.timeFrom time ∧ ClockFrom (call.timeFrom time) calls

instance NetCall.decidableClockFrom :
    ∀ (time : UInt64) (calls : List NetCall), Decidable (NetCall.ClockFrom time calls)
  | _, [] => inferInstanceAs (Decidable True)
  | time, call :: calls =>
    have := decidableClockFrom (call.timeFrom time) calls
    inferInstanceAs (Decidable (_ ∧ _))

/-- A stack that `net_init` has set up and that was then used through its public functions. -/
def NetStack.Reachable (s : NetStack) : Prop :=
  ∃ answers mac nowMs start calls, netInit answers mac nowMs = some start ∧ s = start.after calls

/-- The Ethernet address `02:00:00:00:00:02`. -/
def sampleMac : Mac := Buffer.ofFn (byteAt [2, 0, 0, 0, 0, 2])

/-- A stack with this address that was just set up. -/
def freshStack (nowMs : UInt64) : NetStack :=
  NetStack.initial (fun _ => true) sampleMac (by decide +kernel) nowMs

/-- The address `10.0.0.2`; the gateway and the resolver are at `10.0.0.1`. -/
def sampleConfig : NetIpv4Config := ⟨0x0A000002, 0xFFFFFF00, 0x0A000001, 0x0A000001⟩

/-- The stack with this configuration. -/
def sampleStack (nowMs : UInt64) : NetStack := (freshStack nowMs).withIpv4 sampleConfig

theorem netInit_freshStack (nowMs : UInt64) :
    NetStack.netInit (fun _ => true) sampleMac nowMs = some (freshStack nowMs) :=
  dif_pos _

end Nostalux.Net
