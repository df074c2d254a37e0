import Nostalux.Net.Receive

/-!
# What sending and receiving leave alone

Frames are built and sent in every corner of the stack.  The part of the state that decides what the
stack does next is its `control`; sending does not touch it.

* `control_netIpv4Send`, `control_netUdpSend`, `control_flushPendingIpv4`: sending;
* `control_dhcpSendMessage`, `control_dnsSendQuery`: the two clients count their attempts;
* `received_netInput`: a frame changes the ARP table only, unless it is a datagram for the DHCP
  client or for the resolver.
-/

namespace Nostalux.Net

open BigEndian

/-- The part of the stack that sending does not touch. -/
structure NetControl where
  mac : Mac
  ipv4 : NetIpv4Config
  currentTimeMs : UInt64
  arp : Fin 8 → NetArpEntry
  udpBindings : Fin 8 → NetUdpBinding
  dhcp : NetDhcpClient
  dns : NetDnsClient
  dnsCache : Fin 8 → NetDnsCacheEntry

/-- The resolver after the configuration was cleared. -/
def NetDnsClient.cutOff (dns : NetDnsClient) : NetDnsClient :=
  if dns.state = .pending then { dns with state := .timedOut } else dns

namespace NetStack

/-- The control part of a stack. -/
def control (s : NetStack) : NetControl where
  mac := s.mac
  ipv4 := s.ipv4
  currentTimeMs := s.currentTimeMs
  arp := s.arp
  udpBindings := s.udpBindings
  dhcp := s.dhcp
  dns := s.dns
  dnsCache := s.dnsCache

variable {s s' : NetStack}

section Fields

variable {c : NetControl}

section

variable (h : s.control = c)

include h

theorem mac_of_control : s.mac = c.mac := congrArg NetControl.mac h

theorem ipv4_of_control : s.ipv4 = c.ipv4 := congrArg NetControl.ipv4 h

theorem currentTimeMs_of_control : s.currentTimeMs = c.currentTimeMs :=
  congrArg NetControl.currentTimeMs h

theorem arp_of_control : s.arp = c.arp := congrArg NetControl.arp h

theorem dhcp_of_control : s.dhcp = c.dhcp := congrArg NetControl.dhcp h

theorem dns_of_control : s.dns = c.dns := congrArg NetControl.dns h

theorem dnsCache_of_control : s.dnsCache = c.dnsCache :=
  congrArg NetControl.dnsCache h

end

end Fields

/-! ### Updates -/

variable (s)

@[simp] theorem control_withIpv4 (ipv4 : NetIpv4Config) :
    (s.withIpv4 ipv4).control = { s.control with ipv4 := ipv4 } := rfl

@[simp] theorem control_withTime (nowMs : UInt64) :
    (s.withTime nowMs).control = { s.control with currentTimeMs := nowMs } := rfl

@[simp] theorem control_withArp (arp : Fin 8 → NetArpEntry) :
    (s.withArp arp).control = { s.control with arp := arp } := rfl

@[simp] theorem control_withPending (pending : NetPendingIpv4) :
    (s.withPending pending).control = s.control := rfl

@[simp] theorem control_withDhcp (dhcp : NetDhcpClient) :
    (s.withDhcp dhcp).control = { s.control with dhcp := dhcp } := rfl

@[simp] theorem control_withDns (dns : NetDnsClient) :
    (s.withDns dns).control = { s.control with dns := dns } := rfl

@[simp] theorem control_withDnsCache (cache : Fin 8 → NetDnsCacheEntry) :
    (s.withDnsCache cache).control = { s.control with dnsCache := cache } := rfl

@[simp] theorem control_count (update : NetStats → NetStats) :
    (s.count update).control = s.control := rfl

@[simp] theorem control_record (event : NetEvent) : (s.record event).control = s.control := rfl

/-! ### Sending -/

@[simp] theorem control_write (off : ℕ) (bytes : List UInt8) :
    (s.write off bytes).control = s.control := by
  simp only [write, control]

@[simp] theorem control_copy (off : ℕ) (source : Pointer) (size : ℕ) :
    (s.copy off source size).control = s.control := by
  simp only [copy, control]

@[simp] theorem control_writeEthernetHeader (destination : Mac) (ethertype : UInt16) :
    (s.writeEthernetHeader destination ethertype).control = s.control := by
  simp only [writeEthernetHeader, control_write]

@[simp] theorem control_linkTransmit (cause : NetCause) (frameSize : ℕ) :
    (s.linkTransmit cause frameSize).2.control = s.control := by
  simp only [linkTransmit]
  split_ifs
  · rfl
  · simp only [count, record, control]
  · simp only [record, control]

@[simp] theorem control_netArpRequest (cause : NetCause) (ip : UInt32) :
    (s.netArpRequest cause ip).2.control = s.control := by
  unfold netArpRequest
  split
  · rfl
  · have h := control_linkTransmit ((s.writeEthernetHeader macBroadcast ethertypeArp).write 14
      (s.arpPacket 1 Buffer.zero ip)) cause 42
    rw [control_write, control_writeEthernetHeader] at h
    split <;> rename_i s' hl <;> rw [hl] at h
    · exact h
    · rw [control_count]
      exact h

@[simp] theorem control_sendArpReply (mac : Mac) (ip : UInt32) :
    (s.sendArpReply mac ip).2.control = s.control := by
  rw [sendArpReply, control_linkTransmit, control_write, control_writeEthernetHeader]

@[simp] theorem control_buildIpv4 (destinationIp : UInt32) (protocol : UInt8)
    (payload : Pointer) (payloadSize : ℕ) (mac : Mac) :
    (s.buildIpv4 destinationIp protocol payload payloadSize mac).control = s.control := by
  simp only [buildIpv4, writeEthernetHeader, write, copy, control]

@[simp] theorem control_sendIpv4WithMac (cause : NetCause) (destinationIp : UInt32)
    (protocol : UInt8) (payload : Pointer) (payloadSize : ℕ) (mac : Mac) :
    (s.sendIpv4WithMac cause destinationIp protocol payload payloadSize mac).2.control =
      s.control := by
  unfold sendIpv4WithMac
  split
  · rfl
  · have h := control_linkTransmit
      (s.buildIpv4 destinationIp protocol payload payloadSize mac) cause (34 + payloadSize)
    rw [control_buildIpv4] at h
    split <;> rename_i s' hl <;> rw [hl] at h
    · exact h
    · rw [control_count]
      exact h

@[simp] theorem control_flushPendingIpv4 : s.flushPendingIpv4.2.control = s.control := by
  unfold flushPendingIpv4
  split
  · rfl
  · split
    · rfl
    · rename_i mac hm
      have h := control_sendIpv4WithMac s
        (.queued s.pendingIpv4.ticket s.pendingIpv4.nextHopIp) s.pendingIpv4.destinationIp
        s.pendingIpv4.protocol (.external (byteAt s.pendingIpv4.payload))
        s.pendingIpv4.payload.length mac
      split <;> rename_i s' hl <;> rw [hl] at h
      · rw [control_withPending]
        exact h
      · rw [control_withPending, control_count]
        exact h

theorem control_queueIpv4 (destinationIp nextHopIp : UInt32) (protocol : UInt8)
    (payload : Pointer) (payloadSize : ℕ) :
    (s.queueIpv4 destinationIp nextHopIp protocol payload payloadSize).control = s.control := by
  simp only [queueIpv4, record, withPending, control]

@[simp] theorem control_netIpv4Send (destinationIp : UInt32) (protocol : UInt8)
    (payload : Pointer) (payloadSize : ℕ) :
    (s.netIpv4Send destinationIp protocol payload payloadSize).2.control = s.control := by
  unfold netIpv4Send
  split
  · rfl
  split
  · rfl
  split
  · rfl
  · rename_i mac hr
    have h := control_sendIpv4WithMac s .direct destinationIp protocol payload payloadSize mac
    split <;> rename_i s' hl <;> rw [hl] at h <;> exact h
  · split
    · rfl
    · rw [control_netArpRequest, control_queueIpv4]

@[simp] theorem control_buildUdp (destinationIp : UInt32)
    (destinationPort sourcePort : UInt16) (data : Pointer) (dataSize : ℕ) :
    (s.buildUdp destinationIp destinationPort sourcePort data dataSize).control = s.control := by
  simp only [buildUdp, control_write, control_copy]

@[simp] theorem control_netUdpSend (destinationIp : UInt32)
    (destinationPort sourcePort : UInt16) (data : Pointer) (dataSize : ℕ) :
    (s.netUdpSend destinationIp destinationPort sourcePort data dataSize).2.control =
      s.control := by
  unfold netUdpSend
  split
  · rfl
  · have h := control_netIpv4Send
      (s.buildUdp destinationIp destinationPort sourcePort data dataSize) destinationIp
      netIpv4ProtocolUdp (.transmit 34) (8 + dataSize)
    rw [control_buildUdp] at h
    split <;> rename_i hl <;> rw [hl] at h
    · rw [control_count]
      exact h
    · exact h

@[simp] theorem control_netIcmpEchoRequest (destinationIp : UInt32)
    (identifier sequence : UInt16) (payload : Pointer) (payloadSize : ℕ) :
    (s.netIcmpEchoRequest destinationIp identifier sequence payload payloadSize).2.control =
      s.control := by
  unfold netIcmpEchoRequest
  split
  · rfl
  · have h := control_netIpv4Send (s.buildEcho identifier sequence payload payloadSize)
      destinationIp netIpv4ProtocolIcmp (.transmit 34) (8 + payloadSize)
    rw [buildEcho, control_write, control_copy, control_write] at h
    split <;> rename_i hl <;> rw [buildEcho] at hl <;> rw [hl] at h
    · exact h
    · simp only [control] at h ⊢
      exact h

@[simp] theorem control_icmpEchoReply (sourceIp : UInt32) (packet : Memory)
    (packetSize : ℕ) : (s.icmpEchoReply sourceIp packet packetSize).2.control = s.control := by
  simp only [icmpEchoReply, control_netIpv4Send, buildEchoReply, control_count, control_write,
    control_copy]

/-- The DHCP client counts its attempts. -/
theorem control_dhcpSendMessage (messageType : UInt8) (usingActiveLease : Bool) :
    ∃ attempts nextActionMs, (s.dhcpSendMessage messageType usingActiveLease).2.control =
      { s.control with dhcp := s.dhcp.schedule attempts nextActionMs } := by
  unfold dhcpSendMessage
  split
  · exact ⟨s.dhcp.attempts, s.dhcp.nextActionMs, rfl⟩
  split
  · exact ⟨s.dhcp.attempts, s.dhcp.nextActionMs, rfl⟩
  · rename_i packet _ _
    have h := control_netUdpSend s s.dhcpDestination dhcpServerPort dhcpClientPort
      (.external (byteAt (packet ++ [255]))) (packet.length + 1)
    refine ⟨s.dhcp.attempts + 1,
      saturatingAddU64 s.currentTimeMs (dhcpRetryDelay s.dhcp.attempts), ?_⟩
    simp only [dhcpCountAttempt, control_withDhcp, h, dhcp_of_control h,
      currentTimeMs_of_control h]
    rfl

/-- The resolver counts its attempts. -/
theorem control_dnsSendQuery : ∃ attempts nextActionMs, s.dnsSendQuery.2.control =
      { s.control with dns := s.dns.schedule attempts nextActionMs } := by
  unfold dnsSendQuery
  split
  · exact ⟨s.dns.attempts, s.dns.nextActionMs, rfl⟩
  split
  · exact ⟨s.dns.attempts, s.dns.nextActionMs, rfl⟩
  · rename_i name _ _
    have h := control_netUdpSend s s.ipv4.dns dnsServerPort s.dns.sourcePort
      (.external (byteAt (s.dnsQueryMessage name))) (dnsHeaderSize + name.length + 4)
    refine ⟨s.dns.attempts + 1, saturatingAddU64 s.currentTimeMs dnsRetryIntervalMs, ?_⟩
    simp only [dnsCountAttempt, control_withDns, h, dns_of_control h,
      currentTimeMs_of_control h]
    rfl

/-! ### The configuration -/

@[simp] theorem control_netDnsCacheClear :
    s.netDnsCacheClear.control = { s.control with dnsCache := fun _ => default } := by
  rw [netDnsCacheClear, control_withDnsCache]

/-- Clearing the configuration also clears what was learned under it. -/
theorem control_netClearIpv4 :
    s.netClearIpv4.control =
      { s.control with
        ipv4 := ⟨0, 0, 0, 0⟩
        arp := fun _ => default
        dnsCache := fun _ => default
        dns := s.dns.cutOff } := by
  unfold netClearIpv4 NetDnsClient.cutOff
  split
  · rw [control_withDns, control_netDnsCacheClear, control_withPending, control_withArp,
      control_withIpv4]
  · rw [control_netDnsCacheClear, control_withPending, control_withArp, control_withIpv4]
    rfl

theorem changed_iff (config : NetIpv4Config) :
    (s.networkChanged config || s.resolverChanged config) = true ↔ s.ipv4 ≠ config := by
  simp only [networkChanged, resolverChanged, Bool.or_eq_true, decide_eq_true_eq, ne_eq,
    NetIpv4Config.ext_iff]
  tauto

/-- A new configuration keeps the cache only if it is the old one. -/
theorem control_netConfigureIpv4 (config : NetIpv4Config) :
    ∃ arp, (s.netConfigureIpv4 config).control =
      { s.control with
        ipv4 := config
        arp := arp
        dnsCache := if s.ipv4 = config then s.dnsCache else fun _ => default } := by
  have hreset : ∃ arp, (if s.networkChanged config then
      ((s.withIpv4 config).withArp fun _ => default).withPending
        { s.pendingIpv4 with valid := false }
      else s.withIpv4 config).control = { s.control with ipv4 := config, arp := arp } := by
    split
    · exact ⟨fun _ => default, by rw [control_withPending, control_withArp, control_withIpv4]⟩
    · exact ⟨s.arp, by rw [control_withIpv4]; rfl⟩
  obtain ⟨arp, h⟩ := hreset
  refine ⟨arp, ?_⟩
  unfold netConfigureIpv4
  dsimp only
  split
  · rename_i hchanged
    rw [control_netDnsCacheClear, h, if_neg ((changed_iff s config).1 hchanged)]
  · rename_i hsame
    rw [h, if_pos (not_not.1 (mt (changed_iff s config).2 hsame))]
    rfl

/-! ### The DHCP client -/

/-- Starting the client clears the configuration. -/
theorem control_netDhcpStart (transactionId : UInt32) :
    ∃ id attempts nextActionMs, (s.netDhcpStart transactionId).control =
      { s.netClearIpv4.control with
        dhcp := { (default : NetDhcpClient) with
          state := .discovering
          transactionId := id }.schedule attempts nextActionMs } := by
  unfold netDhcpStart
  generalize (if transactionId = 0 then s.dhcpTransactionId else transactionId) = id
  obtain ⟨attempts, nextActionMs, h⟩ := control_dhcpSendMessage
    (s.netClearIpv4.withDhcp { (default : NetDhcpClient) with
      state := .discovering
      transactionId := id }) dhcpMessageDiscover false
  refine ⟨id, attempts, nextActionMs, ?_⟩
  rw [h, control_withDhcp, withDhcp_dhcp]

/-- An offer makes the client request the address. -/
theorem control_dhcpReceiveOffer (options : DhcpOptions) (offeredIp serverIp : UInt32) :
    ∃ dhcp, (s.dhcpReceiveOffer options offeredIp serverIp).control =
      { s.control with dhcp := dhcp } ∧
      dhcp.state = .requesting ∧ dhcp.leaseStartedMs = s.dhcp.leaseStartedMs := by
  unfold dhcpReceiveOffer
  dsimp only
  generalize hoffered : s.withDhcp _ = offered
  obtain ⟨attempts, nextActionMs, h⟩ := control_dhcpSendMessage offered dhcpMessageRequest false
  refine ⟨offered.dhcp.schedule attempts nextActionMs, h.trans ?_, ?_, ?_⟩
  · rw [← hoffered, control_withDhcp]
  · rw [← hoffered, withDhcp_dhcp]
    rfl
  · rw [← hoffered, withDhcp_dhcp]
    rfl

theorem control_dhcpRestart : ∃ id attempts nextActionMs, s.dhcpRestart.control =
      { s.netClearIpv4.control with
        dhcp := { (default : NetDhcpClient) with
          state := .discovering
          transactionId := id }.schedule attempts nextActionMs } :=
  control_netDhcpStart s _

variable {s}

/-! ### The resolver -/

/-- Nothing outside of the resolver and its cache differs in the control part. -/
def SameButResolver (s s' : NetStack) : Prop :=
  s'.control = { s.control with dns := s'.dns, dnsCache := s'.dnsCache }

theorem SameButResolver.of_control {dns : NetDnsClient} {cache : Fin 8 → NetDnsCacheEntry}
    (h : s'.control = { s.control with dns := dns, dnsCache := cache }) :
    s.SameButResolver s' := by
  have hdns : s'.dns = dns := dns_of_control h
  have hcache : s'.dnsCache = cache := dnsCache_of_control h
  rw [SameButResolver, h, hdns, hcache]

theorem SameButResolver.refl (s : NetStack) : s.SameButResolver s := by
  rw [SameButResolver, control]

theorem SameButResolver.trans {s₁ s₂ s₃ : NetStack} (h : s₁.SameButResolver s₂)
    (h' : s₂.SameButResolver s₃) : s₁.SameButResolver s₃ := by
  rw [SameButResolver] at *
  rw [h', h]

/-- The state of a pair whose other part was replaced. -/
theorem SameButResolver.of_snd {ok : Bool} {result : Bool × NetStack}
    (h : s.SameButResolver result.2) : s.SameButResolver (ok, result.2).2 := h

theorem SameButResolver.ipv4_eq (h : s.SameButResolver s') : s'.ipv4 = s.ipv4 :=
  ipv4_of_control h

theorem SameButResolver.currentTimeMs_eq (h : s.SameButResolver s') :
    s'.currentTimeMs = s.currentTimeMs :=
  currentTimeMs_of_control h

theorem SameButResolver.dhcp_eq (h : s.SameButResolver s') : s'.dhcp = s.dhcp :=
  dhcp_of_control h

variable (s)

theorem sameButResolver_withDns (dns : NetDnsClient) : s.SameButResolver (s.withDns dns) :=
  .of_control (control_withDns s dns)

theorem sameButResolver_withDnsCache (cache : Fin 8 → NetDnsCacheEntry) :
    s.SameButResolver (s.withDnsCache cache) :=
  .of_control (control_withDnsCache s cache)

theorem sameButResolver_dnsCacheExpire : s.SameButResolver s.dnsCacheExpire :=
  .of_control (control_withDnsCache _ _)

/-- Nothing outside of the resolver and its cache differs, and nothing is sent. -/
structure Resolves (s s' : NetStack) : Prop where
  same : s.SameButResolver s'
  events : s'.events = s.events
  pending : s'.pendingIpv4 = s.pendingIpv4
  queued : s'.queued = s.queued

theorem Resolves.refl : s.Resolves s := ⟨.refl s, rfl, rfl, rfl⟩

theorem Resolves.trans {s₁ s₂ s₃ : NetStack} (h : s₁.Resolves s₂) (h' : s₂.Resolves s₃) :
    s₁.Resolves s₃ :=
  ⟨h.same.trans h'.same, h'.events.trans h.events, h'.pending.trans h.pending,
    h'.queued.trans h.queued⟩

theorem resolves_withDns (dns : NetDnsClient) : s.Resolves (s.withDns dns) :=
  ⟨sameButResolver_withDns s dns, rfl, rfl, rfl⟩

theorem resolves_withDnsCache (cache : Fin 8 → NetDnsCacheEntry) :
    s.Resolves (s.withDnsCache cache) :=
  ⟨sameButResolver_withDnsCache s cache, rfl, rfl, rfl⟩

section

variable (name : CString) (negative : Bool) (address : UInt32) (responseCode : UInt8)
  (ttlSeconds : UInt32)

theorem resolves_dnsCacheInsert :
    s.Resolves (s.dnsCacheInsert name negative address responseCode ttlSeconds) := by
  unfold dnsCacheInsert
  split
  · exact resolves_withDnsCache s _
  split
  · exact .refl s
  · exact ⟨.of_control (control_withDnsCache _ _), rfl, rfl, rfl⟩

theorem resolves_dnsCacheStore :
    s.Resolves (s.dnsCacheStore name negative address responseCode ttlSeconds) := by
  unfold dnsCacheStore
  split
  · exact .refl s
  · have hexpire : s.Resolves s.dnsCacheExpire :=
      ⟨sameButResolver_dnsCacheExpire s, rfl, rfl, rfl⟩
    exact hexpire.trans (resolves_dnsCacheInsert _ _ _ _ _ _)

end

theorem resolves_dnsEnd (state : NetDnsState) : s.Resolves (s.dnsEnd state) :=
  resolves_withDns s _

theorem resolves_dnsEndNegative (ttlSeconds : UInt32) :
    s.Resolves (s.dnsEndNegative ttlSeconds) := by
  refine (resolves_withDns s { s.dns with ttlSeconds := ttlSeconds }).trans
    (.trans ?_ (resolves_dnsEnd _ .notFound))
  split
  · exact resolves_dnsCacheStore _ _ _ _ _ _
  · exact .refl _

theorem resolves_dnsEndPositive (address ttlSeconds : UInt32) :
    s.Resolves (s.dnsEndPositive address ttlSeconds) :=
  (resolves_withDns s _).trans (resolves_dnsCacheStore _ _ _ _ _ _)

theorem resolves_dnsReceiveValid (message : Memory)
    (messageSize answersOffset : ℕ) (answerCount : UInt16) (authorityOffset : ℕ)
    (authorityCount : UInt16) :
    s.Resolves (s.dnsReceiveValid message messageSize answersOffset answerCount
      authorityOffset authorityCount) := by
  unfold dnsReceiveValid
  split
  · exact resolves_dnsEnd s _
  split
  · exact resolves_dnsEnd s _
  · split
    · exact resolves_dnsEnd s _
    · exact resolves_dnsEndPositive s _ _
  · exact resolves_dnsEndNegative s _

theorem resolves_dnsReceiveRecords (message : Memory) (messageSize : ℕ) :
    s.Resolves (s.dnsReceiveRecords message messageSize) := by
  unfold dnsReceiveRecords
  dsimp only
  split
  · exact resolves_dnsEnd s _
  split
  · exact resolves_dnsEnd s _
  split
  · exact resolves_dnsEnd s _
  · exact resolves_dnsReceiveValid s _ _ _ _ _ _

theorem resolves_dnsReceive (sourceIp : UInt32)
    (sourcePort destinationPort : UInt16) (message : Memory) (messageSize : ℕ) :
    s.Resolves
      (s.dnsReceive sourceIp sourcePort destinationPort message messageSize).2 := by
  unfold dnsReceive
  split
  · exact .refl s
  dsimp only
  split
  · exact resolves_dnsEnd s _
  · exact (resolves_withDns s _).trans (resolves_dnsReceiveRecords _ _ _)

theorem sameButResolver_dnsSendQuery : s.SameButResolver s.dnsSendQuery.2 := by
  obtain ⟨attempts, nextActionMs, h⟩ := control_dnsSendQuery s
  exact .of_control h

theorem sameButResolver_dnsCountMiss : s.SameButResolver s.dnsCountMiss := by
  simp only [SameButResolver, dnsCountMiss, control]

theorem sameButResolver_dnsBeginQuery (name : CString) (transactionId : UInt16) :
    s.SameButResolver (s.dnsBeginQuery name transactionId).2 := by
  unfold dnsBeginQuery
  split
  · exact sameButResolver_dnsCountMiss s
  · exact .of_snd (((sameButResolver_dnsCountMiss s).trans (sameButResolver_withDns _ _)).trans
      (sameButResolver_dnsSendQuery _))

theorem sameButResolver_dnsAnswerCached (i : Fin 8) (name : CString)
    (remaining : UInt32) : s.SameButResolver (s.dnsAnswerCached i name remaining) :=
  .of_control (by simp only [dnsAnswerCached, control_withDns, control_withDnsCache]; rfl)

theorem sameButResolver_netDnsQuery (name : Option CString)
    (transactionId : UInt16) : s.SameButResolver (s.netDnsQuery name transactionId).2 := by
  unfold netDnsQuery
  split
  · exact .refl s
  refine (sameButResolver_dnsCacheExpire s).trans ?_
  unfold dnsLookUp
  split
  · exact sameButResolver_dnsBeginQuery _ _ _
  dsimp only
  split
  · exact sameButResolver_dnsAnswerCached _ _ _ _
  · exact sameButResolver_dnsBeginQuery _ _ _

theorem sameButResolver_netDnsCancel : s.SameButResolver s.netDnsCancel.2 := by
  unfold netDnsCancel
  split
  · exact .refl s
  dsimp only
  refine .trans ?_ (sameButResolver_withDns _ _)
  split
  · exact .of_control (control_withPending s default)
  · exact .refl s

theorem sameButResolver_tickDns : s.SameButResolver s.tickDns := by
  unfold tickDns
  split
  · exact .refl s
  split
  · exact sameButResolver_withDns s _
  · exact sameButResolver_dnsSendQuery s

variable {s}

/-! ### Receiving -/

/-- The ARP table is the only thing in the control part that may differ. -/
def SameButArp (s s' : NetStack) : Prop := s'.control = { s.control with arp := s'.arp }

theorem SameButArp.of_control (h : s'.control = s.control) : s.SameButArp s' := by
  rw [SameButArp, h, arp_of_control h, control]

theorem SameButArp.trans {s₁ s₂ s₃ : NetStack} (h : s₁.SameButArp s₂) (h' : s₂.SameButArp s₃) :
    s₁.SameButArp s₃ := by
  rw [SameButArp] at *
  rw [h', h]

section

variable (h : s.SameButArp s')

include h

theorem SameButArp.mac_eq : s'.mac = s.mac := mac_of_control h

theorem SameButArp.ipv4_eq : s'.ipv4 = s.ipv4 := ipv4_of_control h

theorem SameButArp.currentTimeMs_eq : s'.currentTimeMs = s.currentTimeMs :=
  currentTimeMs_of_control h

theorem SameButArp.dhcp_eq : s'.dhcp = s.dhcp := dhcp_of_control h

theorem SameButArp.dns_eq : s'.dns = s.dns := dns_of_control h

theorem SameButArp.dnsCache_eq : s'.dnsCache = s.dnsCache :=
  dnsCache_of_control h

end

variable (s)

theorem sameButArp_withArp (arp : Fin 8 → NetArpEntry) : s.SameButArp (s.withArp arp) := by
  rw [SameButArp, control_withArp, withArp_arp]

section

variable (ip : UInt32) (mac : Mac)

theorem sameButArp_arpLearn : s.SameButArp (s.arpLearn ip mac) := by
  unfold arpLearn
  split
  · exact .of_control rfl
  · exact sameButArp_withArp s _

theorem sameButArp_learnAndFlush : s.SameButArp (s.learnAndFlush ip mac) :=
  (sameButArp_arpLearn s ip mac).trans (.of_control (control_flushPendingIpv4 _))

theorem sameButArp_learnSender : s.SameButArp (s.learnSender ip mac) := by
  unfold learnSender
  split
  · exact sameButArp_learnAndFlush s ip mac
  · exact .of_control rfl

end

theorem control_receiveIcmp (sourceIp destinationIp : UInt32) (packet : Memory) (packetSize : ℕ) :
    (s.receiveIcmp sourceIp destinationIp packet packetSize).2.control = s.control := by
  unfold receiveIcmp
  split
  · rfl
  split
  · exact control_icmpEchoReply s sourceIp packet packetSize
  split
  · simp only [count, control]
  · rfl

theorem control_deliverUdp (datagram : NetUdpDatagram) :
    (s.deliverUdp datagram).2.control = s.control := by
  unfold deliverUdp
  split
  · rfl
  · rw [control_record]

theorem control_deliverTcp (sourceIp destinationIp : UInt32) (payload : List UInt8) :
    (s.deliverTcp sourceIp destinationIp payload).2.control = s.control := by
  unfold deliverTcp
  split
  · rfl
  · rw [control_record]

/-- A datagram either leaves the control part alone, or it is for one of the two clients. -/
theorem receiveUdp_cases (sourceIp destinationIp : UInt32) (packet : Memory) (packetSize : ℕ) :
    (s.receiveUdp sourceIp destinationIp packet packetSize).2.control = s.control ∨
    (u16At packet 0 = dhcpServerPort ∧ u16At packet 2 = dhcpClientPort ∧
      ∃ s₁ : NetStack, s₁.control = s.control ∧
        s.receiveUdp sourceIp destinationIp packet packetSize =
        s₁.dhcpReceive sourceIp (packet.shift 8) (packetSize - 8)) ∨
    (u16At packet 0 = dnsServerPort ∧ u16At packet 2 = s.dns.sourcePort ∧
      ∃ s₁ : NetStack, s₁.control = s.control ∧
        s.receiveUdp sourceIp destinationIp packet packetSize =
        s₁.dnsReceive sourceIp dnsServerPort s.dns.sourcePort (packet.shift 8)
          (packetSize - 8)) := by
  unfold receiveUdp
  split
  · exact .inl rfl
  dsimp only
  split
  · exact .inl rfl
  rename_i hv
  have hsize : (u16At packet 4).toNat = packetSize := by
    by_contra hne
    exact hv (.inr (.inr (.inr (.inl hne))))
  rw [hsize]
  split
  · rename_i hp
    exact .inr (.inl ⟨hp.2, hp.1, _, control_count s _, rfl⟩)
  split
  · rename_i hp
    rw [count_dns] at hp
    rw [hp.1, hp.2]
    exact .inr (.inr ⟨rfl, rfl, _, control_count s _, rfl⟩)
  · left
    rw [control_deliverUdp, control_count]

end NetStack

/-! ### Frames -/

/-- What the IPv4 header of a frame announces as its payload. -/
def framePayload (frame : Memory) : Memory :=
  (frame.shift 14).shift (NetStack.ipv4HeaderSize (frame.shift 14))

/-- The size of the payload. -/
def framePayloadSize (frame : Memory) : ℕ :=
  (u16At (frame.shift 14) 2).toNat - NetStack.ipv4HeaderSize (frame.shift 14)

/-- The address an IPv4 frame says it comes from. -/
def frameSourceIp (frame : Memory) : UInt32 := u32At (frame.shift 14) 12

/-- The frame holds a UDP datagram with the given ports. -/
def IsDatagram (frame : Memory) (sourcePort destinationPort : UInt16) : Prop :=
  u16At frame 12 = ethertypeIpv4 ∧ frame.shift 14 9 = netIpv4ProtocolUdp ∧
    u16At (framePayload frame) 0 = sourcePort ∧ u16At (framePayload frame) 2 = destinationPort

/-- The data of the datagram in a frame. -/
def datagramData (frame : Memory) : Memory := (framePayload frame).shift 8

/-- The size of the data. -/
def datagramDataSize (frame : Memory) : ℕ := framePayloadSize frame - 8

namespace NetStack

variable {s : NetStack}

/-- The state before one of the two clients gets the datagram of a frame, or at the end. -/
inductive Received (s : NetStack) (frame : Memory) : NetStack → Prop
  /-- The frame is not for the clients. -/
  | quiet {s' : NetStack} (same : s.SameButArp s') : Received s frame s'
  /-- A datagram for the DHCP client. -/
  | dhcp {s₁ s' : NetStack} (same : s.SameButArp s₁)
      (ports : IsDatagram frame dhcpServerPort dhcpClientPort)
      (control_eq : s'.control = (s₁.dhcpReceive (frameSourceIp frame) (datagramData frame)
        (datagramDataSize frame)).2.control) : Received s frame s'
  /-- A datagram for the resolver. -/
  | dns {s₁ s' : NetStack} (same : s.SameButArp s₁)
      (ports : IsDatagram frame dnsServerPort s.dns.sourcePort)
      (control_eq : s'.control = (s₁.dnsReceive (frameSourceIp frame) dnsServerPort
        s.dns.sourcePort (datagramData frame) (datagramDataSize frame)).2.control) :
      Received s frame s'

variable {frame : Memory}

theorem received_acceptIpv4 (s : NetStack) (sourceMac : Mac) (frame : Memory)
    (htype : u16At frame 12 = ethertypeIpv4) :
    s.Received frame (s.acceptIpv4 sourceMac (frame.shift 14)).2 := by
  unfold acceptIpv4
  dsimp only
  generalize hc : (s.learnSender (u32At (frame.shift 14) 12) sourceMac).count _ = counted
  have hs : s.SameButArp counted := by
    rw [← hc]
    exact (sameButArp_learnSender s _ _).trans (.of_control (control_count _ _))
  unfold receivePayload
  split
  · exact .quiet (hs.trans (.of_control (control_receiveIcmp counted _ _ _ _)))
  split
  · rename_i hp
    rcases receiveUdp_cases counted (u32At (frame.shift 14) 12) (u32At (frame.shift 14) 16)
      (framePayload frame) (framePayloadSize frame) with h | ⟨h0, h2, s₁, h₁, h⟩ |
        ⟨h0, h2, s₁, h₁, h⟩
    · exact .quiet (hs.trans (.of_control h))
    · exact .dhcp (hs.trans (.of_control h₁)) ⟨htype, hp, h0, h2⟩ (congrArg (·.2.control) h)
    · rw [hs.dns_eq] at h2 h
      exact .dns (hs.trans (.of_control h₁)) ⟨htype, hp, h0, h2⟩ (congrArg (·.2.control) h)
  split
  · exact .quiet (hs.trans (.of_control (control_deliverTcp counted _ _ _)))
  · exact .quiet hs

/-- Whether `net_input` looks behind the addresses of a frame. -/
def takesFrame (s : NetStack) (frame : Memory) (frameSize : ℕ) : Bool :=
  netEthernetHeaderSize ≤ frameSize ∧ frameSize ≤ netEthernetFrameMax ∧
    (macAt frame = s.mac ∨ macIsBroadcast (macAt frame)) ∧ macIsValidSource (macAt (frame.shift 6))

/-- Whether the frame holds an IPv4 packet that the stack accepts. -/
def takesIpv4 (s : NetStack) (frame : Memory) (frameSize : ℕ) : Bool :=
  s.takesFrame frame frameSize ∧ u16At frame 12 = ethertypeIpv4 ∧
    ipv4HeaderIsValid (frame.shift 14) (frameSize - netEthernetHeaderSize) ∧
    s.ipv4IsForStack (frame.shift 14) (ipv4HeaderSize (frame.shift 14))
      (u16At (frame.shift 14) 2).toNat

/-- Whether the frame holds an ARP request or an ARP reply to the stack. -/
def takesArp (s : NetStack) (frame : Memory) (frameSize : ℕ) : Bool :=
  let packet := frame.shift 14
  s.takesFrame frame frameSize ∧ u16At frame 12 = ethertypeArp ∧
    arpIsValid (macAt (frame.shift 6)) packet (frameSize - netEthernetHeaderSize) ∧
    u32At packet 24 = s.ipv4.address ∧
    (u16At packet 6 = 1 ∧ s.ipv4.address ≠ 0 ∨ u16At packet 6 = 2 ∧ macAt (packet.shift 18) = s.mac)

variable {frameSize : ℕ}

theorem takesFrame_iff : s.takesFrame frame frameSize = true ↔
      netEthernetHeaderSize ≤ frameSize ∧ frameSize ≤ netEthernetFrameMax ∧
      (macAt frame = s.mac ∨ macIsBroadcast (macAt frame) = true) ∧
      macIsValidSource (macAt (frame.shift 6)) = true :=
  decide_eq_true_iff

theorem takesIpv4_iff : s.takesIpv4 frame frameSize = true ↔
      s.takesFrame frame frameSize = true ∧ u16At frame 12 = ethertypeIpv4 ∧
      ipv4HeaderIsValid (frame.shift 14) (frameSize - netEthernetHeaderSize) = true ∧
      s.ipv4IsForStack (frame.shift 14) (ipv4HeaderSize (frame.shift 14))
        (u16At (frame.shift 14) 2).toNat = true :=
  decide_eq_true_iff

/-- The packet is an ARP request or an ARP reply to the stack. -/
def arpTells (s : NetStack) (source : Mac) (packet : Memory) (packetSize : ℕ) : Prop :=
  arpIsValid source packet packetSize = true ∧ u32At packet 24 = s.ipv4.address ∧
    (u16At packet 6 = 1 ∧ s.ipv4.address ≠ 0 ∨ u16At packet 6 = 2 ∧ macAt (packet.shift 18) = s.mac)

theorem takesArp_iff : s.takesArp frame frameSize = true ↔
      s.takesFrame frame frameSize = true ∧ u16At frame 12 = ethertypeArp ∧
      s.arpTells (macAt (frame.shift 6)) (frame.shift 14) (frameSize - netEthernetHeaderSize) :=
  decide_eq_true_iff

theorem receiveArp_of_not_tells {source : Mac} {packet : Memory} {packetSize : ℕ}
    (h : ¬s.arpTells source packet packetSize) :
    s.receiveArp source packet packetSize = (false, s) := by
  rw [receiveArp]
  by_cases hvalid : arpIsValid source packet packetSize = true
  · rw [if_neg (by simp [hvalid])]
    dsimp only
    by_cases hrequest : u16At packet 6 = 1
    · rw [if_pos hrequest, if_pos]
      by_contra hown
      push Not at hown
      exact h ⟨hvalid, hown.2, .inl ⟨hrequest, hown.1⟩⟩
    · rw [if_neg hrequest]
      by_cases hreply : u16At packet 6 = 2
      · rw [if_pos hreply, if_pos]
        by_contra hown
        push Not at hown
        exact h ⟨hvalid, hown.1, .inr ⟨hreply, hown.2⟩⟩
      · rw [if_neg hreply]
  · rw [if_pos (by simp [hvalid])]

/-- An ARP packet for the stack: the sender is learned, what waits is sent, and a request is
answered. -/
theorem receiveArp_of_tells {source : Mac} {packet : Memory} {packetSize : ℕ}
    (h : s.arpTells source packet packetSize) :
    (∃ mac ip, s.receiveArp source packet packetSize =
      (s.learnAndFlush (u32At packet 14) (macAt (packet.shift 8))).sendArpReply mac ip) ∨
    ∃ update, (s.receiveArp source packet packetSize).2 =
      ((s.arpLearn (u32At packet 14) (macAt (packet.shift 8))).count
        update).flushPendingIpv4.2 := by
  have hsnd (ok : Bool) (s' : NetStack) : (ok, s').2 = s' := rfl
  obtain ⟨hvalid, htarget, hoperation⟩ := h
  rw [receiveArp, if_neg (by simp [hvalid])]
  rcases hoperation with ⟨hrequest, haddress⟩ | ⟨hreply, hmac⟩
  · rw [if_pos hrequest, if_neg (by simp [haddress, htarget])]
    exact .inl ⟨_, _, rfl⟩
  · have hrequest : u16At packet 6 ≠ 1 := by
      rw [hreply]
      decide
    rw [if_neg hrequest, if_pos hreply, if_neg (by simp [htarget, hmac])]
    exact .inr ⟨_, hsnd true _⟩

theorem control_receiveArp_of_tells {source : Mac} {packet : Memory} {packetSize : ℕ}
    (h : s.arpTells source packet packetSize) :
    (s.receiveArp source packet packetSize).2.control =
      (s.arpLearn (u32At packet 14) (macAt (packet.shift 8))).control := by
  rcases receiveArp_of_tells h with ⟨mac, ip, heq⟩ | ⟨update, heq⟩
  · rw [heq, control_sendArpReply, learnAndFlush, control_flushPendingIpv4]
  · rw [heq, control_flushPendingIpv4, control_count]

theorem sameButArp_receiveArp {source : Mac} {packet : Memory} {packetSize : ℕ}
    (h : s.arpTells source packet packetSize) :
    s.SameButArp (s.receiveArp source packet packetSize).2 :=
  (sameButArp_arpLearn s _ _).trans (.of_control (control_receiveArp_of_tells h))

/-- What `net_input` makes of a frame, with some counting before and after. -/
inductive InputOutcome (s : NetStack) (frame : Memory) (frameSize : ℕ) : NetStack → Prop
  | dropped (arp : ¬s.takesArp frame frameSize = true) (ipv4 : ¬s.takesIpv4 frame frameSize = true)
      (update : NetStats → NetStats) : InputOutcome s frame frameSize (s.count update)
  | arp (arp : s.takesArp frame frameSize = true) (ipv4 : ¬s.takesIpv4 frame frameSize = true)
      (before after : NetStats → NetStats) : InputOutcome s frame frameSize
        (((s.count before).receiveArp (macAt (frame.shift 6)) (frame.shift 14)
          (frameSize - netEthernetHeaderSize)).2.count after)
  | ipv4 (arp : ¬s.takesArp frame frameSize = true) (ipv4 : s.takesIpv4 frame frameSize = true)
      (before after : NetStats → NetStats) : InputOutcome s frame frameSize
        (((s.count before).acceptIpv4 (macAt (frame.shift 6)) (frame.shift 14)).2.count after)

theorem receiveFrame_outcome
    (htakes : s.takesFrame frame frameSize = true) (before after : NetStats → NetStats) :
    s.InputOutcome frame frameSize
      (((s.count before).receiveFrame frame frameSize).2.count after) := by
  rw [receiveFrame]
  by_cases htype : u16At frame 12 = ethertypeArp
  · have hipv4 : ¬s.takesIpv4 frame frameSize = true := fun h =>
      absurd ((takesIpv4_iff.1 h).2.1.symm.trans htype) (by decide)
    rw [if_pos htype]
    by_cases harp : s.takesArp frame frameSize = true
    · exact .arp harp hipv4 before after
    · rw [receiveArp_of_not_tells (s := s.count before) fun h =>
        harp (takesArp_iff.2 ⟨htakes, htype, h⟩)]
      exact .dropped harp hipv4 fun stats => after (before stats)
  rw [if_neg htype]
  have harp : ¬s.takesArp frame frameSize = true := fun h => htype (takesArp_iff.1 h).2.1
  by_cases hipv4 : s.takesIpv4 frame frameSize = true
  · obtain ⟨-, htype', hvalid, hfor⟩ := takesIpv4_iff.1 hipv4
    have hfor' : (s.count before).ipv4IsForStack (frame.shift 14) (ipv4HeaderSize (frame.shift 14))
        (u16At (frame.shift 14) 2).toNat = true := hfor
    rw [if_pos htype', receiveIpv4, if_neg (by simp [hvalid]), if_neg (by simp [hfor'])]
    exact .ipv4 harp hipv4 before after
  · have hdropped := InputOutcome.dropped harp hipv4 fun stats => after (before stats)
    split
    · rename_i htype'
      rw [receiveIpv4]
      split
      · exact hdropped
      rename_i hvalid
      split
      · exact hdropped
      · rename_i hfor
        rw [Bool.not_eq_true, Bool.not_eq_false'] at hfor
        exact absurd (takesIpv4_iff.2 ⟨htakes, htype', by simpa using hvalid, hfor⟩) hipv4
    · exact hdropped

variable (s)

theorem netInput_outcome (frame : Memory) (frameSize : ℕ) :
    s.InputOutcome frame frameSize (s.netInput frame frameSize).2 := by
  have hdropped (before : NetStats → NetStats) (h : ¬s.takesFrame frame frameSize = true) :
      s.InputOutcome frame frameSize (s.count before).countDropped :=
    .dropped (fun harp => h (takesArp_iff.1 harp).1) (fun hipv4 => h (takesIpv4_iff.1 hipv4).1)
      fun stats => { before stats with framesDropped := (before stats).framesDropped + 1 }
  rw [netInput]
  split
  · exact hdropped _ fun h => by
      obtain ⟨hmin, hmax, -⟩ := takesFrame_iff.1 h
      omega
  split
  · rename_i hmac
    refine hdropped _ fun h => ?_
    obtain ⟨-, -, hdestination, hsource⟩ := takesFrame_iff.1 h
    rcases hmac with ⟨hother, hbroadcast⟩ | hinvalid
    · exact absurd (hdestination.resolve_left hother) (by simpa using hbroadcast)
    · exact absurd hsource (by simpa using hinvalid)
  rename_i hmac
  have htakes : s.takesFrame frame frameSize = true := by
    simp only [not_or, not_and, Bool.not_eq_true', Bool.not_eq_false, ne_eq] at hmac
    exact takesFrame_iff.2 ⟨by omega, by omega, or_iff_not_imp_left.2 hmac.1, hmac.2⟩
  have h := receiveFrame_outcome htakes
    fun stats => { stats with framesReceived := stats.framesReceived + 1 }
  split <;> rename_i s' heq <;> rw [heq] at h
  · exact h id
  · exact h fun stats => { stats with framesDropped := stats.framesDropped + 1 }

/-- A frame changes the ARP table only, unless it is a datagram for one of the clients. -/
theorem received_netInput (frame : Memory) (frameSize : ℕ) :
    s.Received frame (s.netInput frame frameSize).2 := by
  have h := netInput_outcome s frame frameSize
  generalize (s.netInput frame frameSize).2 = s' at h
  cases h with
  | dropped arp ipv4 update => exact .quiet (.of_control (control_count s update))
  | arp arp ipv4 before after =>
    exact .quiet (sameButArp_receiveArp (s := s.count before) (takesArp_iff.1 arp).2.2)
  | ipv4 arp ipv4 before after =>
    have htype := (takesIpv4_iff.1 ipv4).2.1
    rcases received_acceptIpv4 (s.count before) (macAt (frame.shift 6)) frame htype with
      same | ⟨same, ports, h⟩ | ⟨same, ports, h⟩
    · exact .quiet same
    · exact .dhcp same ports h
    · exact .dns same ports h

theorem control_netUdpBind (port : UInt16) (handler : Option NetHandler) :
    ∃ bindings, (s.netUdpBind port handler).2.control =
      { s.control with udpBindings := bindings } := by
  unfold netUdpBind
  split
  · exact ⟨s.udpBindings, rfl⟩
  split
  · exact ⟨s.udpBindings, rfl⟩
  split
  · exact ⟨s.udpBindings, rfl⟩
  · exact ⟨_, rfl⟩

/-! ### The clock -/

theorem control_tickPendingArp : s.tickPendingArp.control = s.control := by
  unfold tickPendingArp
  dsimp only
  split
  · rfl
  split
  · rfl
  split
  · split
    · rw [control_withPending]
    · rw [control_flushPendingIpv4]
  · split
    · rw [control_withPending]
    · rw [control_netArpRequest, control_withPending]

theorem control_tickEcho : s.tickEcho.control = s.control := by
  unfold tickEcho
  split
  · simp only [control]
  · rfl

end NetStack

end Nostalux.Net
