import Nostalux.Net.Control

/-!
# The DHCP client: rejected messages and leases

`dhcp_receive` commits the fields of an ACK while it still checks them.  A lease time of zero is
found too late: the message is rejected, but the client has already stored it.

* `dhcpReceive_rejected_iff`: a rejected message changes nothing, except for an ACK with a lease
  time of zero;
* `lease_safety`: over every run of the client, the interface has an address if and only if there is
  a lease, no lease is kept past a tick at its end, and only an ACK sets an address.
-/

namespace Nostalux.Net

open BigEndian NetDhcpClient NetIpv4Config NetDhcpState

/-- The client holds a lease. -/
def NetDhcpState.Leased (state : NetDhcpState) : Prop :=
  state = .bound ∨ state = .renewing ∨ state = .rebinding

instance (state : NetDhcpState) : Decidable state.Leased :=
  inferInstanceAs (Decidable (_ ∨ _ ∨ _))

theorem ne_zero_of_usable {ip : UInt32} (h : ipv4IsUsableUnicast ip = true) : ip ≠ 0 := by
  rintro rfl
  exact absurd h (by decide)

namespace NetStack

variable {s : NetStack}

/-! ### Messages -/

/-- A message for the client with the given options. -/
structure DhcpReply (s : NetStack) (packet : Memory) (packetSize : ℕ) (options : DhcpOptions) :
    Prop where
  reply : s.dhcpIsReply packet packetSize
  parsed : parseDhcpOptions packet packetSize = some options

/-- The server that a message names, or else its sender. -/
def dhcpServer (options : DhcpOptions) (sourceIp : UInt32) : UInt32 :=
  options.serverIdentifier.getD sourceIp

/-- An ACK that the client takes up. -/
structure TakesAck (s : NetStack) (packet : Memory) (packetSize : ℕ) (options : DhcpOptions) :
    Prop extends DhcpReply s packet packetSize options where
  type : options.messageType = some dhcpMessageAck
  asking : s.dhcpIsAsking
  server : s.dhcpOtherServer options = false

/-- A NAK that the client takes up. -/
structure TakesNak (s : NetStack) (packet : Memory) (packetSize : ℕ) (options : DhcpOptions) :
    Prop extends DhcpReply s packet packetSize options where
  type : options.messageType = some dhcpMessageNak
  asking : s.dhcpIsAsking

/-- What `dhcp_receive` can do. -/
inductive DhcpOutcome (s : NetStack) (sourceIp : UInt32) (packet : Memory) (packetSize : ℕ) :
    Bool → NetStack → Prop
  | rejected : DhcpOutcome s sourceIp packet packetSize false s
  | offer {options : DhcpOptions} (reply : s.DhcpReply packet packetSize options)
      (state : s.dhcp.state = .discovering) :
      DhcpOutcome s sourceIp packet packetSize true
        (s.dhcpReceiveOffer options (u32At packet 16) (dhcpServer options sourceIp))
  | nak {options : DhcpOptions} (takes : s.TakesNak packet packetSize options) :
      DhcpOutcome s sourceIp packet packetSize true s.dhcpRestart
  | ack {options : DhcpOptions} {ok : Bool} {s' : NetStack}
      (takes : s.TakesAck packet packetSize options)
      (eq : s.dhcpReceiveAck options (u32At packet 16) (dhcpServer options sourceIp) = (ok, s')) :
      DhcpOutcome s sourceIp packet packetSize ok s'

theorem eq_some_of_getD_eq {type : Option UInt8} {value : UInt8} (h : type.getD 0 = value)
    (hvalue : value ≠ 0) : type = some value := by
  cases type with
  | none => exact absurd h.symm hvalue
  | some _ => exact congrArg some h

variable {sourceIp : UInt32} {packet : Memory} {packetSize : ℕ} {s' : NetStack}

theorem dhcpReceive_outcome {ok : Bool} (h : s.dhcpReceive sourceIp packet packetSize = (ok, s')) :
    s.DhcpOutcome sourceIp packet packetSize ok s' := by
  unfold dhcpReceive at h
  split at h
  · cases h
    exact .rejected
  rename_i hreply
  split at h
  · cases h
    exact .rejected
  rename_i options hparsed
  have reply : s.DhcpReply packet packetSize options := ⟨by simpa using hreply, hparsed⟩
  unfold dhcpDispatch at h
  dsimp only at h
  split at h
  · rename_i hoffer
    cases h
    exact .offer reply hoffer.2.1
  split at h
  · rename_i hnak
    split at h
    · cases h
      exact .rejected
    · cases h
      exact .nak ⟨reply, eq_some_of_getD_eq hnak.1 (by decide), hnak.2⟩
  split at h
  · cases h
    exact .rejected
  rename_i hack
  obtain ⟨htype, hasking⟩ := not_or.1 hack
  split at h
  · cases h
    exact .rejected
  · rename_i hserver
    exact .ack ⟨reply, eq_some_of_getD_eq (not_not.1 htype) (by decide), by simpa using hasking,
      by simpa using hserver⟩ h

variable {options : DhcpOptions}

theorem dhcpReceive_eq_of_takesAck (h : s.TakesAck packet packetSize options) (sourceIp : UInt32) :
    s.dhcpReceive sourceIp packet packetSize =
      s.dhcpReceiveAck options (u32At packet 16) (dhcpServer options sourceIp) := by
  have hoffer : dhcpMessageAck ≠ dhcpMessageOffer := by decide
  have hnak : dhcpMessageAck ≠ dhcpMessageNak := by decide
  simp [dhcpReceive, dhcpDispatch, h.reply, h.parsed, h.type, h.asking, h.server, dhcpServer,
    hoffer, hnak]

/-! ### Rejected messages -/

variable (s)

theorem dhcpAckLease_eq_zero_iff (options : DhcpOptions) :
    s.dhcpAckLease options = 0 ↔ options.leaseTime = some 0 := by
  unfold dhcpAckLease
  cases options.leaseTime with
  | some lease => simp
  | none =>
    simp only [Option.getD_none, reduceCtorEq, iff_false]
    split
    · assumption
    · decide

theorem dhcpStoreLease_eq_self_iff (serverIp leaseSeconds : UInt32) :
    (s.dhcpStoreLease serverIp leaseSeconds).dhcp = s.dhcp ↔
      s.dhcp.leaseSeconds = leaseSeconds ∧
        (ipv4IsUsableUnicast serverIp → serverIp = s.dhcp.serverIp) := by
  constructor
  · intro h
    have hserver := congrArg NetDhcpClient.serverIp h
    refine ⟨(congrArg NetDhcpClient.leaseSeconds h).symm, fun husable => ?_⟩
    simpa [dhcpStoreLease, husable] using hserver
  · rintro ⟨hlease, hserver⟩
    rw [dhcpStoreLease, withDhcp_dhcp, ← hlease]
    split
    · rename_i husable
      rw [hserver husable]
    · rfl

variable {s}

/-- The client takes up an ACK whose lease time is zero, and storing it makes a difference. -/
def StoresZeroLease (s : NetStack) (sourceIp : UInt32) (packet : Memory) (packetSize : ℕ) : Prop :=
  ∃ options, s.TakesAck packet packetSize options ∧ options.leaseTime = some 0 ∧
    ipv4IsUsableUnicast (s.dhcpAckAddress (u32At packet 16)) = true ∧
    (s.dhcp.leaseSeconds ≠ 0 ∨ ipv4IsUsableUnicast (dhcpServer options sourceIp) = true ∧
      dhcpServer options sourceIp ≠ s.dhcp.serverIp)

/-- The client after an ACK with a lease. -/
def dhcpBound (s : NetStack) (options : DhcpOptions) (offeredIp serverIp : UInt32) : NetStack :=
  ((s.dhcpStoreLease serverIp (s.dhcpAckLease options)).netConfigureIpv4
    (s.dhcpConfiguration options (s.dhcpAckAddress offeredIp))).dhcpBind
      (dhcpAckRenewal options (s.dhcpAckLease options))
      (dhcpAckRebind options (s.dhcpAckLease options)
        (dhcpAckRenewal options (s.dhcpAckLease options)))

/-- What an ACK can do. -/
inductive AckOutcome (s : NetStack) (options : DhcpOptions) (offeredIp serverIp : UInt32) :
    Bool → NetStack → Prop
  | noAddress : AckOutcome s options offeredIp serverIp false s
  | noLease (usable : ipv4IsUsableUnicast (s.dhcpAckAddress offeredIp) = true)
      (zero : options.leaseTime = some 0) :
      AckOutcome s options offeredIp serverIp false (s.dhcpStoreLease serverIp 0)
  | bound (usable : ipv4IsUsableUnicast (s.dhcpAckAddress offeredIp) = true) :
      AckOutcome s options offeredIp serverIp true (s.dhcpBound options offeredIp serverIp)

theorem dhcpReceiveAck_outcome {offeredIp serverIp : UInt32} {ok : Bool}
    (h : s.dhcpReceiveAck options offeredIp serverIp = (ok, s')) :
    s.AckOutcome options offeredIp serverIp ok s' := by
  unfold dhcpReceiveAck at h
  split at h
  · cases h
    exact .noAddress
  rename_i husable
  replace husable : ipv4IsUsableUnicast (s.dhcpAckAddress offeredIp) = true := by
    simpa using husable
  dsimp only at h
  split at h
  · rename_i hzero
    rw [hzero] at h
    cases h
    exact .noLease husable ((dhcpAckLease_eq_zero_iff s options).1 hzero)
  · cases h
    exact .bound husable

theorem dhcpReceiveAck_of_zero {offeredIp : UInt32} (hzero : options.leaseTime = some 0)
    (husable : ipv4IsUsableUnicast (s.dhcpAckAddress offeredIp) = true) (serverIp : UInt32) :
    s.dhcpReceiveAck options offeredIp serverIp = (false, s.dhcpStoreLease serverIp 0) := by
  have hlease := (dhcpAckLease_eq_zero_iff s options).2 hzero
  simp [dhcpReceiveAck, husable, hlease]

theorem dhcpStoreLease_of_eq {serverIp leaseSeconds : UInt32}
    (h : (s.dhcpStoreLease serverIp leaseSeconds).dhcp = s.dhcp) :
    s.dhcpStoreLease serverIp leaseSeconds = s := by
  rw [dhcpStoreLease, withDhcp_dhcp] at h
  rw [dhcpStoreLease, h, withDhcp]

/-- A rejected message leaves the whole stack alone unless a lease time of zero is stored. -/
theorem dhcpReceive_rejected (hstores : ¬ s.StoresZeroLease sourceIp packet packetSize)
    (h : (s.dhcpReceive sourceIp packet packetSize).1 = false) :
    (s.dhcpReceive sourceIp packet packetSize).2 = s := by
  rcases hr : s.dhcpReceive sourceIp packet packetSize with ⟨ok, s'⟩
  rw [hr] at h
  cases dhcpReceive_outcome hr with
  | rejected => rfl
  | offer reply state => cases h
  | nak takes => cases h
  | @ack options _ _ takes eq =>
    cases dhcpReceiveAck_outcome eq with
    | noAddress => rfl
    | bound usable => cases h
    | noLease usable zero =>
      apply dhcpStoreLease_of_eq
      rw [dhcpStoreLease_eq_self_iff]
      by_contra hne
      refine hstores ⟨options, takes, zero, usable, ?_⟩
      tauto

/-- A rejected message changes nothing, unless it is an ACK with a lease time of zero: that is
stored before the message is rejected. -/
theorem dhcpReceive_rejected_iff (s : NetStack) (sourceIp : UInt32) (packet : Memory)
    (packetSize : ℕ) :
    (((s.dhcpReceive sourceIp packet packetSize).1 = false →
        (s.dhcpReceive sourceIp packet packetSize).2.dhcp = s.dhcp ∧
          (s.dhcpReceive sourceIp packet packetSize).2.ipv4 = s.ipv4) ↔
      ¬ s.StoresZeroLease sourceIp packet packetSize) ∧
    (¬ s.StoresZeroLease sourceIp packet packetSize →
      (s.dhcpReceive sourceIp packet packetSize).1 = false →
        ∀ nowMs, (s.dhcpReceive sourceIp packet packetSize).2.netTick nowMs =
          s.netTick nowMs) := by
  refine ⟨⟨?_, ?_⟩, ?_⟩
  · rintro h ⟨options, takes, zero, usable, hne⟩
    rw [dhcpReceive_eq_of_takesAck takes, dhcpReceiveAck_of_zero zero usable] at h
    have hsame := (dhcpStoreLease_eq_self_iff s (dhcpServer options sourceIp) 0).1 (h rfl).1
    tauto
  · intro hstores hrejected
    rw [dhcpReceive_rejected hstores hrejected]
    exact ⟨rfl, rfl⟩
  · intro hstores hrejected nowMs
    rw [dhcpReceive_rejected hstores hrejected]

/-- A message of a server to `02:00:00:00:00:02` that offers the address `10.0.0.2`. -/
def sampleMessage (options : List UInt8) : List UInt8 :=
  [2, 1, 6, 0] ++ writeU32 7 ++ List.replicate 8 0 ++ writeU32 0x0A000002 ++ List.replicate 8 0 ++
    [2, 0, 0, 0, 0, 2] ++ List.replicate 202 0 ++ writeU32 dhcpMagicCookie ++ options ++ [255]

/-- A client that renews a lease of an hour, half an hour after it began. -/
def renewingClient : NetStack :=
  (sampleStack 1800000).withDhcp
    { (default : NetDhcpClient) with
      state := .renewing
      transactionId := 7
      offeredIp := 0x0A000002
      serverIp := 0x0A000001
      leaseSeconds := 3600
      renewalSeconds := 1800
      rebindSeconds := 3150 }

/-- An ACK with a lease time of zero is rejected, and the lease is gone at the next tick. -/
theorem rejected_ack_drops_lease :
    let result := renewingClient.dhcpReceive 0x0A000001
      (byteAt (sampleMessage ([53, 1, 5] ++ [51, 4] ++ writeU32 0))) 250
    result.1 = false ∧ renewingClient.dhcp.leaseSeconds = 3600 ∧
      result.2.dhcp.leaseSeconds = 0 ∧ (renewingClient.netTick 1800001).ipv4.address = 0x0A000002 ∧
      (result.2.netTick 1800001).ipv4.address = 0 := by
  decide +kernel

/-! ### The clock of a lease -/

/-- The lease is over at a time. -/
def LeaseOver (s : NetStack) (nowMs : UInt64) : Prop :=
  1000 * s.dhcp.leaseSeconds.toNat ≤ nowMs.toNat - s.dhcp.leaseStartedMs.toNat

theorem secondsToMs_toNat (seconds : UInt32) :
    (secondsToMs seconds).toNat = 1000 * seconds.toNat := by
  have := seconds.toNat_lt
  simp only [secondsToMs, UInt64.toNat_mul, UInt32.toNat_toUInt64, UInt64.reduceToNat]
  omega

variable (s)

theorem leaseElapsed_toNat :
    s.leaseElapsed.toNat = s.currentTimeMs.toNat - s.dhcp.leaseStartedMs.toNat := by
  unfold leaseElapsed
  split
  · rename_i h
    exact UInt64.toNat_sub_of_le _ _ h
  · rename_i h
    have : s.currentTimeMs.toNat < s.dhcp.leaseStartedMs.toNat :=
      UInt64.lt_iff_toNat_lt.1 (UInt64.not_le.1 h)
    simp only [UInt64.toNat_zero]
    omega

theorem leaseOver_iff :
    s.leaseElapsed ≥ secondsToMs s.dhcp.leaseSeconds ↔ s.LeaseOver s.currentTimeMs := by
  rw [ge_iff_le, UInt64.le_iff_toNat_le, secondsToMs_toNat, leaseElapsed_toNat, LeaseOver]

/-- The message of the client is counted and scheduled, and the state may move on. -/
def Reschedules (s s' : NetStack) : Prop :=
  ∃ state attempts nextActionMs,
    s'.control =
      { s.control with dhcp := { s.dhcp with state := state }.schedule attempts nextActionMs } ∧
    (state.Leased ↔ s.dhcp.state.Leased)

theorem Reschedules.refl : s.Reschedules s :=
  ⟨s.dhcp.state, s.dhcp.attempts, s.dhcp.nextActionMs, rfl, Iff.rfl⟩

theorem reschedules_dhcpSendMessage (messageType : UInt8) (usingActiveLease : Bool) :
    s.Reschedules (s.dhcpSendMessage messageType usingActiveLease).2 := by
  obtain ⟨attempts, nextActionMs, h⟩ := control_dhcpSendMessage s messageType usingActiveLease
  exact ⟨s.dhcp.state, attempts, nextActionMs, h, Iff.rfl⟩

variable {s}

theorem reschedules_dhcpRequestAgain {state : NetDhcpState}
    (h : state.Leased ↔ s.dhcp.state.Leased) : s.Reschedules (s.dhcpRequestAgain state) := by
  obtain ⟨attempts, nextActionMs, hc⟩ := control_dhcpSendMessage
    (s.withDhcp { s.dhcp with state := state, attempts := 0 }) dhcpMessageRequest true
  refine ⟨state, attempts, nextActionMs, ?_, h⟩
  rw [dhcpRequestAgain, hc, control_withDhcp, withDhcp_dhcp]
  rfl

variable (s)

theorem reschedules_dhcpRetry : s.Reschedules s.dhcpRetry := by
  unfold dhcpRetry
  split
  · exact .refl s
  split
  · exact reschedules_dhcpSendMessage s _ _
  · exact reschedules_dhcpSendMessage s _ _
  · exact reschedules_dhcpSendMessage s _ _
  · exact reschedules_dhcpSendMessage s _ _
  · exact .refl s

/-- The client gives up a lease that is over, and otherwise keeps what it has. -/
theorem tickDhcp_cases :
    (s.dhcp.state.Leased ∧ s.LeaseOver s.currentTimeMs ∧ s.tickDhcp = s.dhcpRestart) ∨
    ((s.dhcp.state.Leased → ¬ s.LeaseOver s.currentTimeMs) ∧ s.Reschedules s.tickDhcp) := by
  have hover := leaseOver_iff s
  unfold tickDhcp
  split <;> rename_i hstate
  · exact .inr ⟨fun h => by simp [hstate, Leased] at h, .refl s⟩
  · split <;> rename_i h
    · exact .inl ⟨.inl hstate, hover.1 h, rfl⟩
    refine .inr ⟨fun _ => mt hover.2 h, ?_⟩
    split
    · exact reschedules_dhcpRequestAgain (by simp [hstate, Leased])
    · exact .refl s
  · split <;> rename_i h
    · exact .inl ⟨.inr (.inl hstate), hover.1 h, rfl⟩
    refine .inr ⟨fun _ => mt hover.2 h, ?_⟩
    split
    · exact reschedules_dhcpRequestAgain (by simp [hstate, Leased])
    · exact reschedules_dhcpRetry s
  · split <;> rename_i h
    · exact .inl ⟨.inr (.inr hstate), hover.1 h, rfl⟩
    · exact .inr ⟨fun _ => mt hover.2 h, reschedules_dhcpRetry s⟩
  · rename_i hoff hbound hrenewing
    refine .inr ⟨?_, reschedules_dhcpRetry s⟩
    rintro (h | h | h)
    · exact absurd h hbound
    · exact absurd h hrenewing
    · exact absurd h hstate

theorem dhcpRestart_lease :
    s.dhcpRestart.currentTimeMs = s.currentTimeMs ∧ s.dhcpRestart.ipv4 = ⟨0, 0, 0, 0⟩ ∧
      s.dhcpRestart.dhcp.state = .discovering ∧ s.dhcpRestart.dhcp.leaseStartedMs = 0 := by
  obtain ⟨id, attempts, next, hc⟩ := control_dhcpRestart s
  rw [control_netClearIpv4] at hc
  generalize s.dhcpRestart = s' at hc ⊢
  have hd : s'.dhcp = _ := dhcp_of_control hc
  exact ⟨currentTimeMs_of_control hc, ipv4_of_control hc,
    by rw [hd]; rfl, by rw [hd]; rfl⟩

/-- The part of `net_tick` before `tick_dhcp`. -/
theorem tick_before_dhcp (nowMs : UInt64) :
    ∃ arp cache, ((s.withTime nowMs).dnsCacheExpire.arpExpire.tickPendingArp).control =
      { s.control with currentTimeMs := nowMs, arp := arp, dnsCache := cache } := by
  have hcache := sameButResolver_dnsCacheExpire (s.withTime nowMs)
  have harp : (s.withTime nowMs).dnsCacheExpire.SameButArp
      (s.withTime nowMs).dnsCacheExpire.arpExpire := sameButArp_withArp _ _
  refine ⟨(s.withTime nowMs).dnsCacheExpire.arpExpire.arp,
    (s.withTime nowMs).dnsCacheExpire.dnsCache, ?_⟩
  rw [control_tickPendingArp, harp, hcache, control_withTime]
  rfl

/-- What a tick does to the lease. -/
inductive TickLease (s : NetStack) (nowMs : UInt64) (s' : NetStack) : Prop
  | expired (leased : s.dhcp.state.Leased) (ended : s.LeaseOver nowMs)
      (ipv4 : s'.ipv4 = ⟨0, 0, 0, 0⟩) (state : s'.dhcp.state = .discovering)
      (started : s'.dhcp.leaseStartedMs = 0)
  | kept {state : NetDhcpState} {attempts : UInt32} {nextActionMs : UInt64}
      (ended : s.dhcp.state.Leased → ¬ s.LeaseOver nowMs) (ipv4 : s'.ipv4 = s.ipv4)
      (dhcp : s'.dhcp = { s.dhcp with state := state }.schedule attempts nextActionMs)
      (leased : state.Leased ↔ s.dhcp.state.Leased)

theorem netTick_lease (nowMs : UInt64) :
    (s.netTick nowMs).currentTimeMs = nowMs ∧ s.TickLease nowMs (s.netTick nowMs) := by
  obtain ⟨arp, cache, hbefore⟩ := tick_before_dhcp s nowMs
  unfold netTick
  generalize (s.withTime nowMs).dnsCacheExpire.arpExpire.tickPendingArp = s₁ at hbefore
  have hdhcp : s₁.dhcp = s.dhcp := dhcp_of_control hbefore
  have hipv4 : s₁.ipv4 = s.ipv4 := ipv4_of_control hbefore
  have htime : s₁.currentTimeMs = nowMs := currentTimeMs_of_control hbefore
  -- what follows `tick_dhcp` leaves the client alone
  have hafter : ∀ s₂ : NetStack, s₂.tickDns.tickEcho.dhcp = s₂.dhcp ∧
      s₂.tickDns.tickEcho.ipv4 = s₂.ipv4 ∧
      s₂.tickDns.tickEcho.currentTimeMs = s₂.currentTimeMs := by
    intro s₂
    have hdns := sameButResolver_tickDns s₂
    have hecho := control_tickEcho s₂.tickDns
    exact ⟨(dhcp_of_control hecho).trans hdns.dhcp_eq,
      (ipv4_of_control hecho).trans hdns.ipv4_eq,
      (currentTimeMs_of_control hecho).trans hdns.currentTimeMs_eq⟩
  obtain ⟨h₁, h₂, h₃⟩ := hafter s₁.tickDhcp
  have hover : s₁.LeaseOver s₁.currentTimeMs ↔ s.LeaseOver nowMs := by
    rw [LeaseOver, LeaseOver, hdhcp, htime]
  rcases tickDhcp_cases s₁ with ⟨hleased, hends, hrestart⟩ | ⟨hends, state, attempts, next, hc, hl⟩
  · obtain ⟨ht, hi, hs, hl⟩ := dhcpRestart_lease s₁
    rw [← hrestart] at ht hi hs hl
    exact ⟨h₃.trans (ht.trans htime), .expired (hdhcp ▸ hleased) (hover.1 hends) (h₂.trans hi)
      (h₁ ▸ hs) (h₁ ▸ hl)⟩
  · have hd : s₁.tickDhcp.dhcp = _ := dhcp_of_control hc
    have hi : s₁.tickDhcp.ipv4 = s₁.ipv4 := ipv4_of_control hc
    have ht : s₁.tickDhcp.currentTimeMs = s₁.currentTimeMs := currentTimeMs_of_control hc
    rw [hdhcp, hover] at hends
    rw [hdhcp] at hd hl
    exact ⟨h₃.trans (ht.trans htime), .kept hends (h₂.trans (hi.trans hipv4)) (h₁.trans hd) hl⟩

/-! ### Received messages and the lease -/

/-- What a message does to the lease. -/
inductive MessageLease (s : NetStack) (packet : Memory) (packetSize : ℕ) (s' : NetStack) : Prop
  | kept (ipv4 : s'.ipv4 = s.ipv4) (leased : s'.dhcp.state.Leased ↔ s.dhcp.state.Leased)
      (started : s'.dhcp.leaseStartedMs = s.dhcp.leaseStartedMs)
  | nak {options : DhcpOptions} (takes : s.TakesNak packet packetSize options)
      (ipv4 : s'.ipv4 = ⟨0, 0, 0, 0⟩) (state : s'.dhcp.state = .discovering)
      (started : s'.dhcp.leaseStartedMs = 0)
  | ack {options : DhcpOptions} (takes : s.TakesAck packet packetSize options)
      (address : s'.ipv4.address ≠ 0) (state : s'.dhcp.state = .bound)
      (started : s'.dhcp.leaseStartedMs = s.currentTimeMs)

theorem control_dhcpBind (renewalSeconds rebindSeconds : UInt32) :
    ∃ dhcp, (s.dhcpBind renewalSeconds rebindSeconds).control = { s.control with dhcp := dhcp } ∧
      dhcp.state = .bound ∧ dhcp.leaseStartedMs = s.currentTimeMs := by
  unfold dhcpBind
  exact ⟨_, control_withDhcp s _, rfl, rfl⟩

theorem control_dhcpBound (options : DhcpOptions) (offeredIp serverIp : UInt32) :
    ∃ dhcp arp, (s.dhcpBound options offeredIp serverIp).control =
      { s.control with
        ipv4 := s.dhcpConfiguration options (s.dhcpAckAddress offeredIp)
        dhcp := dhcp
        arp := arp
        dnsCache := if s.ipv4 = s.dhcpConfiguration options (s.dhcpAckAddress offeredIp) then
          s.dnsCache else fun _ => default } ∧
      dhcp.state = .bound ∧ dhcp.leaseStartedMs = s.currentTimeMs := by
  unfold dhcpBound
  generalize s.dhcpConfiguration options (s.dhcpAckAddress offeredIp) = config
  generalize hstored : s.dhcpStoreLease serverIp (s.dhcpAckLease options) = stored
  have hstored : stored.control = { s.control with dhcp := stored.dhcp } := by
    rw [← hstored, dhcpStoreLease, control_withDhcp, withDhcp_dhcp]
  have hcache : stored.dnsCache = s.dnsCache := dnsCache_of_control hstored
  have hipv4 : stored.ipv4 = s.ipv4 := ipv4_of_control hstored
  have htime : stored.currentTimeMs = s.currentTimeMs := currentTimeMs_of_control hstored
  obtain ⟨arp, hconfig⟩ := control_netConfigureIpv4 stored config
  have htime' : (stored.netConfigureIpv4 config).currentTimeMs = s.currentTimeMs :=
    (currentTimeMs_of_control hconfig).trans htime
  generalize stored.netConfigureIpv4 config = configured at hconfig htime'
  rw [hstored, hcache, hipv4] at hconfig
  obtain ⟨dhcp, hbind, hstate, hstarted⟩ := control_dhcpBind configured
    (dhcpAckRenewal options (s.dhcpAckLease options))
    (dhcpAckRebind options (s.dhcpAckLease options)
      (dhcpAckRenewal options (s.dhcpAckLease options)))
  refine ⟨dhcp, arp, ?_, hstate, hstarted.trans htime'⟩
  rw [hbind, hconfig]

theorem dhcpStoreLease_lease (packet : Memory) (packetSize : ℕ) (serverIp leaseSeconds : UInt32) :
    (s.dhcpStoreLease serverIp leaseSeconds).currentTimeMs = s.currentTimeMs ∧
      s.MessageLease packet packetSize (s.dhcpStoreLease serverIp leaseSeconds) := by
  unfold dhcpStoreLease
  exact ⟨withDhcp_currentTimeMs s _, .kept (withDhcp_ipv4 s _) (by rw [withDhcp_dhcp])
    (by rw [withDhcp_dhcp])⟩

theorem dhcpReceiveOffer_lease (packet : Memory) (packetSize : ℕ)
    (hstate : s.dhcp.state = .discovering) (options : DhcpOptions) (offeredIp serverIp : UInt32) :
    (s.dhcpReceiveOffer options offeredIp serverIp).currentTimeMs = s.currentTimeMs ∧
      s.MessageLease packet packetSize (s.dhcpReceiveOffer options offeredIp serverIp) := by
  obtain ⟨dhcp, hc, hrequesting, hstarted⟩ :=
    control_dhcpReceiveOffer s options offeredIp serverIp
  generalize s.dhcpReceiveOffer options offeredIp serverIp = sent at hc ⊢
  have hd : sent.dhcp = dhcp := dhcp_of_control hc
  refine ⟨currentTimeMs_of_control hc, .kept (ipv4_of_control hc) ?_ (by rw [hd, hstarted])⟩
  rw [hd, hrequesting, hstate]
  decide

variable {s}

theorem dhcpBound_lease (takes : s.TakesAck packet packetSize options) {offeredIp : UInt32}
    (usable : ipv4IsUsableUnicast (s.dhcpAckAddress offeredIp) = true) (serverIp : UInt32) :
    (s.dhcpBound options offeredIp serverIp).currentTimeMs = s.currentTimeMs ∧
      s.MessageLease packet packetSize (s.dhcpBound options offeredIp serverIp) := by
  obtain ⟨dhcp, arp, hc, hstate, hstarted⟩ :=
    control_dhcpBound s options offeredIp serverIp
  generalize s.dhcpBound options offeredIp serverIp = s' at hc ⊢
  have hd : s'.dhcp = dhcp := dhcp_of_control hc
  have hi : s'.ipv4 = s.dhcpConfiguration options (s.dhcpAckAddress offeredIp) :=
    ipv4_of_control hc
  refine ⟨currentTimeMs_of_control hc, .ack takes ?_ (hd ▸ hstate) (hd ▸ hstarted)⟩
  rw [hi, dhcpConfiguration]
  exact ne_zero_of_usable usable

theorem dhcpReceive_lease {ok : Bool} (h : s.dhcpReceive sourceIp packet packetSize = (ok, s')) :
    s'.currentTimeMs = s.currentTimeMs ∧ s.MessageLease packet packetSize s' := by
  cases dhcpReceive_outcome h with
  | rejected => exact ⟨rfl, .kept rfl Iff.rfl rfl⟩
  | offer reply state => exact dhcpReceiveOffer_lease s packet packetSize state _ _ _
  | nak takes =>
    obtain ⟨htime, hipv4, hstate, hstarted⟩ := dhcpRestart_lease s
    exact ⟨htime, .nak takes hipv4 hstate hstarted⟩
  | ack takes eq =>
    cases dhcpReceiveAck_outcome eq with
    | noAddress => exact ⟨rfl, .kept rfl Iff.rfl rfl⟩
    | noLease usable zero => exact dhcpStoreLease_lease s packet packetSize _ _
    | bound usable => exact dhcpBound_lease takes usable _

section Congr

variable {s₁ : NetStack} {packet : Memory} {packetSize : ℕ} {options : DhcpOptions}

theorem DhcpReply.congr (h : s.SameButArp s₁) (reply : s₁.DhcpReply packet packetSize options) :
    s.DhcpReply packet packetSize options := by
  refine ⟨?_, reply.parsed⟩
  have := reply.reply
  rwa [dhcpIsReply, h.dhcp_eq, h.mac_eq, ← dhcpIsReply] at this

theorem TakesNak.congr (h : s.SameButArp s₁) (takes : s₁.TakesNak packet packetSize options) :
    s.TakesNak packet packetSize options := by
  refine ⟨takes.toDhcpReply.congr h, takes.type, ?_⟩
  have := takes.asking
  rwa [dhcpIsAsking, h.dhcp_eq, ← dhcpIsAsking] at this

theorem TakesAck.congr (h : s.SameButArp s₁) (takes : s₁.TakesAck packet packetSize options) :
    s.TakesAck packet packetSize options := by
  have hasking := takes.asking
  have hserver := takes.server
  rw [dhcpIsAsking, h.dhcp_eq, ← dhcpIsAsking] at hasking
  rw [dhcpOtherServer, h.dhcp_eq, ← dhcpOtherServer] at hserver
  exact ⟨takes.toDhcpReply.congr h, takes.type, hasking, hserver⟩

theorem MessageLease.congr {s₂ s' : NetStack} (h : s.SameButArp s₁)
    (hc : s'.control = s₂.control) (lease : s₁.MessageLease packet packetSize s₂) :
    s.MessageLease packet packetSize s' := by
  have hi := ipv4_of_control hc
  have hd := dhcp_of_control hc
  cases lease with
  | kept ipv4 leased started =>
    rw [h.dhcp_eq] at leased started
    exact .kept (hi.trans (ipv4.trans h.ipv4_eq)) (hd ▸ leased) (hd ▸ started)
  | nak takes ipv4 state started =>
    exact .nak (takes.congr h) (hi.trans ipv4) (hd ▸ state) (hd ▸ started)
  | ack takes address state started =>
    rw [h.currentTimeMs_eq] at started
    exact .ack (takes.congr h) (hi ▸ address) (hd ▸ state) (hd ▸ started)

end Congr

variable (s)

/-- A frame changes the lease only by a message for the client. -/
theorem netInput_lease (frame : Memory) (frameSize : ℕ) :
    (s.netInput frame frameSize).2.currentTimeMs = s.currentTimeMs ∧
    s.MessageLease (datagramData frame) (datagramDataSize frame)
      (s.netInput frame frameSize).2 ∧
    ((s.netInput frame frameSize).2.ipv4 = s.ipv4 ∨
      IsDatagram frame dhcpServerPort dhcpClientPort) := by
  have received := received_netInput s frame frameSize
  cases received with
  | quiet same =>
    exact ⟨same.currentTimeMs_eq, .kept same.ipv4_eq (by rw [same.dhcp_eq]) (by rw [same.dhcp_eq]),
      .inl same.ipv4_eq⟩
  | @dhcp s₁ _ same ports hc =>
    rcases hr : s₁.dhcpReceive (frameSourceIp frame) (datagramData frame)
      (datagramDataSize frame) with ⟨ok, s₂⟩
    rw [hr] at hc
    obtain ⟨htime, lease⟩ := dhcpReceive_lease hr
    exact ⟨(currentTimeMs_of_control hc).trans (htime.trans same.currentTimeMs_eq),
      lease.congr same hc, .inr ports⟩
  | @dns s₁ _ same ports hc =>
    have hdns := (resolves_dnsReceive s₁ (frameSourceIp frame) dnsServerPort s.dns.sourcePort
      (datagramData frame) (datagramDataSize frame)).same
    have hi := (ipv4_of_control hc).trans (hdns.ipv4_eq.trans same.ipv4_eq)
    have hd := (dhcp_of_control hc).trans (hdns.dhcp_eq.trans same.dhcp_eq)
    exact ⟨(currentTimeMs_of_control hc).trans
      (hdns.currentTimeMs_eq.trans same.currentTimeMs_eq),
      .kept hi (by rw [hd]) (by rw [hd]), .inl hi⟩

/-! ### Runs -/

theorem netDhcpStart_currentTimeMs (transactionId : UInt32) :
    (s.netDhcpStart transactionId).currentTimeMs = s.currentTimeMs := by
  obtain ⟨id, attempts, next, hc⟩ := control_netDhcpStart s transactionId
  rw [control_netClearIpv4] at hc
  exact currentTimeMs_of_control hc

end NetStack

/-- Calls that do not set the address or the client from outside. -/
def NetCall.LeavesLease : NetCall → Prop
  | .configureIpv4 _ | .clearIpv4 | .dhcpStart _ | .dhcpStop => False
  | _ => True

namespace NetStack

/-- The client, the configuration, the ARP table and the time are the same. -/
structure SameClient (s s' : NetStack) : Prop where
  arp_eq : s'.arp = s.arp
  ipv4_eq : s'.ipv4 = s.ipv4
  dhcp_eq : s'.dhcp = s.dhcp
  currentTimeMs_eq : s'.currentTimeMs = s.currentTimeMs

variable {s s' : NetStack}

theorem SameClient.of_control (h : s'.control = s.control) : s.SameClient s' :=
  ⟨arp_of_control h, ipv4_of_control h, dhcp_of_control h, currentTimeMs_of_control h⟩

theorem SameButResolver.sameClient (h : s.SameButResolver s') : s.SameClient s' :=
  ⟨arp_of_control h, h.ipv4_eq, h.dhcp_eq, h.currentTimeMs_eq⟩

variable (s)

/-- A call that neither receives a frame nor tells the time leaves the lease alone. -/
theorem sameClient_run (call : NetCall) (h : call.LeavesLease)
    (hinput : ∀ frame frameSize, call ≠ .input frame frameSize)
    (htick : ∀ nowMs, call ≠ .tick nowMs) : s.SameClient (call.run s) := by
  cases call with
  | configureIpv4 | clearIpv4 | dhcpStart | dhcpStop => exact h.elim
  | input frame frameSize => exact absurd rfl (hinput frame frameSize)
  | tick nowMs => exact absurd rfl (htick nowMs)
  | ipv4Send => exact .of_control (control_netIpv4Send s _ _ _ _)
  | udpSend => exact .of_control (control_netUdpSend s _ _ _ _ _)
  | icmpEchoRequest => exact .of_control (control_netIcmpEchoRequest s _ _ _ _ _)
  | arpRequest => exact .of_control (control_netArpRequest s _ _)
  | udpBind port handler =>
    obtain ⟨bindings, hc⟩ := control_netUdpBind s port handler
    exact ⟨arp_of_control hc, ipv4_of_control hc, dhcp_of_control hc, currentTimeMs_of_control hc⟩
  | udpUnbind => exact ⟨rfl, rfl, rfl, rfl⟩
  | setTcpHandler => exact ⟨rfl, rfl, rfl, rfl⟩
  | icmpClearEchoReply => exact ⟨rfl, rfl, rfl, rfl⟩
  | dnsQuery => exact (sameButResolver_netDnsQuery s _ _).sameClient
  | dnsCancel => exact (sameButResolver_netDnsCancel s).sameClient
  | dnsClearResult => exact (sameButResolver_withDns s _).sameClient
  | dnsCacheClear => exact (sameButResolver_withDnsCache s _).sameClient

theorem run_currentTimeMs (call : NetCall) :
    (call.run s).currentTimeMs = call.timeFrom s.currentTimeMs := by
  have hother (h : call.LeavesLease) (hinput : ∀ frame frameSize, call ≠ .input frame frameSize)
      (htick : ∀ nowMs, call ≠ .tick nowMs) : (call.run s).currentTimeMs = s.currentTimeMs :=
    (sameClient_run s call h hinput htick).currentTimeMs_eq
  cases call with
  | configureIpv4 config =>
    obtain ⟨arp, hc⟩ := control_netConfigureIpv4 s config
    exact currentTimeMs_of_control hc
  | clearIpv4 => exact currentTimeMs_of_control (control_netClearIpv4 s)
  | dhcpStart transactionId => exact netDhcpStart_currentTimeMs s transactionId
  | dhcpStop => exact withDhcp_currentTimeMs s default
  | input frame frameSize => exact (netInput_lease s frame frameSize).1
  | tick nowMs => exact (netTick_lease s nowMs).1
  | _ => exact hother trivial nofun nofun

/-- What holds at the start and through every timely call holds after every run. -/
theorem after_invariant {P : NetStack → Prop} (allowed : NetCall → Prop)
    (hstep : ∀ s call, P s → allowed call → s.currentTimeMs ≤ call.timeFrom s.currentTimeMs →
      P (call.run s)) {calls : List NetCall} {s : NetStack} (hs : P s)
    (hcalls : ∀ call ∈ calls, allowed call) (hclock : NetCall.ClockFrom s.currentTimeMs calls) :
    P (s.after calls) := by
  induction calls generalizing s with
  | nil => exact hs
  | cons call calls ih =>
    rw [after_cons]
    apply ih (hstep s call hs (hcalls call List.mem_cons_self) hclock.1)
    · exact fun c hc => hcalls c (List.mem_cons_of_mem call hc)
    · rw [run_currentTimeMs]
      exact hclock.2

/-- The interface has an address if and only if there is a lease, and the lease has started. -/
structure LeaseInvariant (s : NetStack) : Prop where
  address_iff : s.ipv4.address ≠ 0 ↔ s.dhcp.state.Leased
  started : s.dhcp.leaseStartedMs ≤ s.currentTimeMs

theorem LeaseInvariant.start (transactionId : UInt32) :
    (s.netDhcpStart transactionId).LeaseInvariant := by
  obtain ⟨id, attempts, next, hc⟩ := control_netDhcpStart s transactionId
  rw [control_netClearIpv4] at hc
  have hi := ipv4_of_control hc
  have hd := dhcp_of_control hc
  refine ⟨?_, ?_⟩
  · rw [hi, hd]
    exact iff_of_false (by simp) (by simp [schedule, Leased])
  · rw [hd]
    exact UInt64.zero_le

variable {s}

theorem LeaseInvariant.message {packet : Memory} {packetSize : ℕ}
    (h : s.LeaseInvariant) (htime : s'.currentTimeMs = s.currentTimeMs)
    (lease : s.MessageLease packet packetSize s') : s'.LeaseInvariant := by
  cases lease with
  | kept ipv4 leased started =>
    exact ⟨by rw [ipv4, leased]; exact h.address_iff, by rw [started, htime]; exact h.started⟩
  | nak takes ipv4 state started =>
    refine ⟨?_, ?_⟩
    · rw [ipv4, state]
      decide
    · rw [started]
      exact UInt64.zero_le
  | ack takes address state started =>
    refine ⟨?_, ?_⟩
    · rw [state]
      exact iff_of_true address (by decide)
    · rw [started, htime]
      exact UInt64.le_refl _

theorem LeaseInvariant.tick {nowMs : UInt64} (h : s.LeaseInvariant)
    (hclock : s.currentTimeMs ≤ nowMs) (htime : s'.currentTimeMs = nowMs)
    (lease : s.TickLease nowMs s') : s'.LeaseInvariant := by
  cases lease with
  | expired leased ended ipv4 state started =>
    refine ⟨?_, ?_⟩
    · rw [ipv4, state]
      decide
    · rw [started]
      exact UInt64.zero_le
  | kept ended ipv4 dhcp leased =>
    refine ⟨?_, ?_⟩
    · rw [ipv4, dhcp, schedule, leased]
      exact h.address_iff
    · rw [dhcp, schedule, htime]
      exact UInt64.le_trans h.started hclock

theorem LeaseInvariant.call {s : NetStack} (h : s.LeaseInvariant) {call : NetCall}
    (hcall : call.LeavesLease) (hclock : s.currentTimeMs ≤ call.timeFrom s.currentTimeMs) :
    (call.run s).LeaseInvariant := by
  by_cases hinput : ∃ frame frameSize, call = .input frame frameSize
  · obtain ⟨frame, frameSize, rfl⟩ := hinput
    obtain ⟨htime, lease, -⟩ := netInput_lease s frame frameSize
    exact h.message htime lease
  by_cases htick : ∃ nowMs, call = .tick nowMs
  · obtain ⟨nowMs, rfl⟩ := htick
    obtain ⟨htime, lease⟩ := netTick_lease s nowMs
    exact h.tick hclock htime lease
  · push Not at hinput htick
    have same := sameClient_run s call hcall hinput htick
    refine ⟨?_, ?_⟩
    · rw [same.ipv4_eq, same.dhcp_eq]
      exact h.address_iff
    · rw [same.dhcp_eq, same.currentTimeMs_eq]
      exact h.started

/-- A call that may change the address: an ACK for the client, or the address is lost by a NAK or at
the end of the lease. -/
inductive AddressChange (s : NetStack) (s' : NetStack) : NetCall → Prop
  | ack {frame : Memory} {frameSize : ℕ} {options : DhcpOptions}
      (ports : IsDatagram frame dhcpServerPort dhcpClientPort)
      (takes : s.TakesAck (datagramData frame) (datagramDataSize frame) options) :
      AddressChange s s' (.input frame frameSize)
  | nak {frame : Memory} {frameSize : ℕ} {options : DhcpOptions}
      (ports : IsDatagram frame dhcpServerPort dhcpClientPort)
      (takes : s.TakesNak (datagramData frame) (datagramDataSize frame) options)
      (zero : s'.ipv4.address = 0) : AddressChange s s' (.input frame frameSize)
  | expired {nowMs : UInt64} (leased : s.dhcp.state.Leased) (ended : s.LeaseOver nowMs)
      (zero : s'.ipv4.address = 0) : AddressChange s s' (.tick nowMs)

theorem addressChange_of_ne {s : NetStack} {call : NetCall} (hcall : call.LeavesLease)
    (h : (call.run s).ipv4.address ≠ s.ipv4.address) : s.AddressChange (call.run s) call := by
  by_cases hinput : ∃ frame frameSize, call = .input frame frameSize
  · obtain ⟨frame, frameSize, rfl⟩ := hinput
    obtain ⟨-, lease, hports⟩ := netInput_lease s frame frameSize
    have ports := hports.resolve_left fun hipv4 => h (congrArg address hipv4)
    cases lease with
    | kept ipv4 => exact absurd (congrArg address ipv4) h
    | nak takes ipv4 => exact .nak ports takes (congrArg address ipv4)
    | ack takes => exact .ack ports takes
  by_cases htick : ∃ nowMs, call = .tick nowMs
  · obtain ⟨nowMs, rfl⟩ := htick
    obtain ⟨-, lease⟩ := netTick_lease s nowMs
    cases lease with
    | kept ended ipv4 => exact absurd (congrArg address ipv4) h
    | expired leased ended ipv4 =>
      exact .expired leased ended (congrArg address ipv4)
  · push Not at hinput htick
    have same := sameClient_run s call hcall hinput htick
    exact absurd (congrArg address same.ipv4_eq) h

theorem LeaseInvariant.not_over_after_tick {s : NetStack} (h : s.LeaseInvariant) {nowMs : UInt64}
    (hclock : s.currentTimeMs ≤ nowMs) (hleased : (s.netTick nowMs).dhcp.state.Leased) :
    (s.netTick nowMs).dhcp.leaseStartedMs ≤ nowMs ∧ ¬ (s.netTick nowMs).LeaseOver nowMs := by
  obtain ⟨htime, lease⟩ := netTick_lease s nowMs
  have hstarted := (h.tick hclock htime lease).started
  rw [htime] at hstarted
  refine ⟨hstarted, ?_⟩
  cases lease with
  | expired leased ended ipv4 state started =>
    rw [state] at hleased
    exact absurd hleased (by decide)
  | kept ended ipv4 dhcp leased =>
    rw [dhcp, schedule] at hleased
    rw [LeaseOver, dhcp, schedule]
    exact ended (leased.1 hleased)

/-- **Lease safety.**  From `net_dhcp_start` on, and as long as nobody else sets the configuration,
the interface has an address exactly while there is a lease; a tick never leaves a lease behind that
is over; and the address changes by an ACK only, or is lost by a NAK or at the end of the lease. -/
theorem lease_safety (start s : NetStack) (transactionId : UInt32) (calls : List NetCall)
    (hcalls : ∀ call ∈ calls, call.LeavesLease)
    (hclock : NetCall.ClockFrom start.currentTimeMs calls)
    (hs : s = (start.netDhcpStart transactionId).after calls) :
    (s.ipv4.address ≠ 0 ↔ s.dhcp.state.Leased) ∧
    (∀ nowMs, s.currentTimeMs ≤ nowMs → (s.netTick nowMs).dhcp.state.Leased →
      (s.netTick nowMs).dhcp.leaseStartedMs ≤ nowMs ∧
        nowMs.toNat - (s.netTick nowMs).dhcp.leaseStartedMs.toNat <
          1000 * (s.netTick nowMs).dhcp.leaseSeconds.toNat) ∧
    (∀ call : NetCall, call.LeavesLease → (call.run s).ipv4.address ≠ s.ipv4.address →
      s.AddressChange (call.run s) call) := by
  have hinv : s.LeaseInvariant := by
    rw [hs]
    refine after_invariant NetCall.LeavesLease (fun s call h hcall hclock => h.call hcall hclock)
      (LeaseInvariant.start start transactionId) hcalls ?_
    rw [netDhcpStart_currentTimeMs]
    exact hclock
  refine ⟨hinv.address_iff, fun nowMs hnow hleased => ?_, fun call hcall h =>
    addressChange_of_ne hcall h⟩
  obtain ⟨hstarted, hover⟩ := hinv.not_over_after_tick hnow hleased
  exact ⟨hstarted, Nat.lt_of_not_le hover⟩

/-- The frame in which `10.0.0.1` broadcasts a message; it does not use the UDP checksum. -/
def sampleFrame (messageType : UInt8) : List UInt8 :=
  List.replicate 6 0xFF ++ [2, 0, 0, 0, 0, 1] ++ writeU16 ethertypeIpv4 ++
    ([0x45, 0] ++ writeU16 272 ++ writeU32 0 ++ [64, netIpv4ProtocolUdp] ++ writeU16 0x6FDD ++
      writeU32 0x0A000001 ++ writeU32 uint32Max) ++
    (writeU16 dhcpServerPort ++ writeU16 dhcpClientPort ++ writeU16 252 ++ writeU16 0) ++
    sampleMessage [53, 1, messageType]

/-- An offer, an ACK and a tick. -/
def sampleCalls : List NetCall :=
  [.input (byteAt (sampleFrame dhcpMessageOffer)) 286,
    .input (byteAt (sampleFrame dhcpMessageAck)) 286, .tick 5]

/-- A client that has seen them. -/
def boundClient : NetStack := ((sampleStack 0).netDhcpStart 7).after sampleCalls

theorem lease_safety_boundClient :
    boundClient.dhcp.state = .bound ∧ boundClient.ipv4.address ≠ 0 := by
  have hstate : boundClient.dhcp.state = .bound := by decide +kernel
  have h := lease_safety (sampleStack 0) boundClient 7 sampleCalls
    (by simp [sampleCalls, NetCall.LeavesLease]) (by decide +kernel) rfl
  exact ⟨hstate, h.1.2 (.inl hstate)⟩

end NetStack

end Nostalux.Net
