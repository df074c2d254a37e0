import Nostalux.Net.Traffic

/-!
# The packet that waits for ARP

Every run of the stack is a run of a mailbox with one place (`moves_after`), so that the invariant
of the mailbox holds of the events of the stack.

* `QueueIntegrity`: what is on record about the packets that were queued;
* `QueueDiscipline`: what one call can do to the packet that waits;
* `queued_packet_integrity`: both hold in every run, and a packet that no longer waits is never
  sent.
-/

namespace Nostalux.Net

open List Pointer NetEvent

namespace NetEvent

/-- The link took a packet that has waited. -/
def delivers (ticket : ℕ) : NetEvent → Bool
  | .transmit _ true (.queued t _) => t = ticket
  | _ => false

/-- The next hop of a packet was asked for. -/
def asksFor (ticket : ℕ) : NetEvent → Bool
  | .transmit _ _ (.resolving t) => t = ticket
  | _ => false

theorem isDelivery_logEntry (ticket : ℕ) (event : NetEvent) :
    event.logEntry.isDelivery ticket = event.delivers ticket := by
  cases event with
  | transmit frame ok cause => cases cause <;> cases ok <;> rfl
  | _ => rfl

theorem isRequest_logEntry (ticket : ℕ) (event : NetEvent) :
    event.logEntry.isRequest ticket = event.asksFor ticket := by
  cases event with
  | transmit frame ok cause => cases cause <;> rfl
  | _ => rfl

end NetEvent

namespace NetStack

variable {s s' : NetStack}

/-- What is on record about the packets that were queued. -/
structure QueueIntegrity (s : NetStack) : Prop where
  /-- A packet that has waited is taken by the link at most once. -/
  once : ∀ ticket, s.events.countP (·.delivers ticket) ≤ 1
  /-- A ticket stands for one packet. -/
  unique : ∀ ticket packet packet', .queue ticket packet ∈ s.events →
    .queue ticket packet' ∈ s.events → packet = packet'
  /-- What is sent for a ticket carries exactly the packet that was queued under it. -/
  carried : ∀ ticket frame ok nextHopIp,
    .transmit frame ok (.queued ticket nextHopIp) ∈ s.events → ∃ packet,
      .queue ticket packet ∈ s.events ∧ nextHopIp = packet.nextHopIp ∧ IsFrameOf packet frame
  /-- The packet that waits was queued with the current address, netmask and gateway. -/
  waits : s.pendingIpv4.valid = true → .queue s.pendingIpv4.ticket s.waitingPacket ∈ s.events
  /-- It has not been sent yet. -/
  unsent : s.pendingIpv4.valid = true → s.events.countP (·.delivers s.pendingIpv4.ticket) = 0
  /-- At most three requests are sent for a packet. -/
  requests : ∀ ticket, s.events.countP (·.asksFor ticket) ≤ 3
  attempts : s.pendingIpv4.valid = true →
    s.events.countP (·.asksFor s.pendingIpv4.ticket) ≤ s.pendingIpv4.arpAttempts.toNat ∧
      s.pendingIpv4.arpAttempts.toNat ≤ 3

/-- The mailbox of the stack is good for all packets. -/
abbrev MailboxGood (s : NetStack) : Prop :=
  Mailbox.Good (sendRules ⟨fun _ => True, fun _ _ => True⟩) s.mailbox

theorem countP_delivers (s : NetStack) (ticket : ℕ) :
    s.mailbox.log.countP (·.isDelivery ticket) = s.events.countP (·.delivers ticket) := by
  rw [mailbox, countP_map]
  exact countP_congr fun event _ => by
    rw [Function.comp_apply, isDelivery_logEntry]

theorem countP_asksFor (s : NetStack) (ticket : ℕ) :
    s.mailbox.log.countP (·.isRequest ticket) = s.events.countP (·.asksFor ticket) := by
  rw [mailbox, countP_map]
  exact countP_congr fun event _ => by
    rw [Function.comp_apply, isRequest_logEntry]

theorem mem_log_of_mem {event : NetEvent} (h : event ∈ s.events) :
    event.logEntry ∈ s.mailbox.log := mem_map_of_mem h

theorem event_mem_of_log {event : NetEvent} (h : event.logEntry ∈ s.mailbox.log) :
    event ∈ s.events :=
  (mem_map_of_injective logEntry_injective).1 h

theorem MailboxGood.queueIntegrity (h : s.MailboxGood) : s.QueueIntegrity where
  once ticket := by
    rw [← countP_delivers]
    exact h.once ticket
  unique ticket packet packet' hmem hmem' :=
    h.unique ticket packet packet' (mem_log_of_mem hmem) (mem_log_of_mem hmem')
  carried ticket frame ok nextHopIp hmem := by
    obtain ⟨packet, hqueue, hnext, mac, -, hframe⟩ := h.carried ticket (frame, nextHopIp) ok
      (mem_log_of_mem hmem)
    exact ⟨packet, event_mem_of_log hqueue, hnext, mac, hframe⟩
  waits hvalid := event_mem_of_log (h.slot_accepted _ (waiting_of_valid hvalid))
  unsent hvalid := by
    rw [← countP_delivers]
    exact h.slot_waits _ (waiting_of_valid hvalid)
  requests ticket := by
    rw [← countP_asksFor]
    exact h.bounded ticket
  attempts hvalid := by
    rw [← countP_asksFor]
    exact h.slot_requests _ (waiting_of_valid hvalid)

theorem mailboxGood_initial (answers : ℕ → Bool) (mac : Mac) (hmac : macIsValidSource mac = true)
    (nowMs : UInt64) : (initial answers mac hmac nowMs).MailboxGood :=
  Mailbox.good_empty

theorem Reachable.mailboxGood (h : s.Reachable) : s.MailboxGood := by
  obtain ⟨answers, mac, nowMs, start, calls, hinit, rfl⟩ := h
  unfold netInit at hinit
  split at hinit
  · rename_i hmac
    cases hinit
    exact (mailboxGood_initial answers mac hmac nowMs).steps (moves_after _ calls)
  · cases hinit

/-! ### One call -/

/-- The packet that waits stays as it is, and what would have to wait as well is refused. -/
def Undisturbed (s : NetStack) (destinationIp : UInt32) (result : NetSendResult × NetStack) :
    Prop :=
  result.2.pendingIpv4 = s.pendingIpv4 ∧ result.1 ≠ .queued ∧
    ∀ nextHopIp, s.routeIpv4 destinationIp = some ⟨nextHopIp, none⟩ →
      result.1 = .failed ∧ result.2.events = s.events

theorem SendOutcome.undisturbed {destinationIp : UInt32} {protocol : UInt8} {data : List UInt8}
    {result : NetSendResult} (h : s.SendOutcome destinationIp protocol data result s')
    (hvalid : s.pendingIpv4.valid = true) : s.Undisturbed destinationIp (result, s') := by
  cases h with
  | refused builds => exact ⟨builds.pending, nofun, fun _ _ => ⟨rfl, builds.events⟩⟩
  | @handed _ mac _ ok _ route hands =>
    refine ⟨hands.pending, ?_, fun nextHopIp hroute => ?_⟩
    · cases ok <;> nofun
    · rw [route] at hroute
      cases hroute
  | queued route free queues =>
    rw [hvalid] at free
    cases free

/-- What one call can do to the packet that waits. -/
structure QueueDiscipline (s : NetStack) : Prop where
  /-- A change of the address, the netmask or the gateway discards the packet. -/
  reconfigured : ∀ config, s.networkChanged config = true →
    (s.netConfigureIpv4 config).pendingIpv4.valid = false
  cleared : s.netClearIpv4.pendingIpv4.valid = false
  /-- A packet is queued in an empty place, with the arguments of the call. -/
  queues : ∀ destinationIp protocol payload payloadSize s',
    s.netIpv4Send destinationIp protocol (.ofCaller payload) payloadSize = (.queued, s') →
      s.pendingIpv4.valid = false ∧ s'.pendingIpv4.valid = true ∧
      s'.pendingIpv4.ticket = s.queued ∧ ∃ nextHopIp,
        s.routeIpv4 destinationIp = some ⟨nextHopIp, none⟩ ∧ s'.waitingPacket =
          s.ipv4.packet destinationIp nextHopIp protocol
            (((Pointer.ofCaller payload).read s).bytes payloadSize)
  ipv4Send : s.pendingIpv4.valid = true → ∀ destinationIp protocol payload payloadSize,
    s.Undisturbed destinationIp
      (s.netIpv4Send destinationIp protocol (.ofCaller payload) payloadSize)
  udpSend : s.pendingIpv4.valid = true → ∀ destinationIp destinationPort sourcePort data dataSize,
    s.Undisturbed destinationIp
      (s.netUdpSend destinationIp destinationPort sourcePort (.ofCaller data) dataSize)
  echoRequest : s.pendingIpv4.valid = true →
    ∀ destinationIp identifier sequence payload payloadSize, s.Undisturbed destinationIp
      (s.netIcmpEchoRequest destinationIp identifier sequence (.ofCaller payload) payloadSize)
  /-- After three requests the packet is dropped. -/
  dropped : s.netArpLookup s.pendingIpv4.nextHopIp = none →
    arpMaxAttempts ≤ s.pendingIpv4.arpAttempts → s.pendingIpv4.arpRequestedMs ≤ s.currentTimeMs →
    arpRetryIntervalMs ≤ s.currentTimeMs - s.pendingIpv4.arpRequestedMs →
    s.tickPendingArp.pendingIpv4.valid = false
  /-- What a call sends of a packet that has waited goes to the hardware address that the ARP table
  holds for its next hop at that moment. -/
  addressed : ∀ call, ∃ events, (call.run s).events = events ++ s.events ∧
    ∀ ticket frame ok nextHopIp, .transmit frame ok (.queued ticket nextHopIp) ∈ events →
      ∃ packet mac, packet.nextHopIp = nextHopIp ∧ IsFrameTo mac packet frame ∧
        (s.resolving call).netArpLookup nextHopIp = some mac

section

variable (s : NetStack)

theorem netConfigureIpv4_discards {config : NetIpv4Config}
    (hchanged : s.networkChanged config = true) :
    (s.netConfigureIpv4 config).pendingIpv4.valid = false := by
  unfold netConfigureIpv4
  dsimp only
  rw [if_pos hchanged, hchanged, Bool.true_or, if_pos rfl]
  rfl

theorem netClearIpv4_discards : s.netClearIpv4.pendingIpv4.valid = false := by
  unfold netClearIpv4
  split <;> rfl

theorem netIpv4Send_queues (destinationIp : UInt32) (protocol : UInt8)
    (payload : Option Memory) (payloadSize : ℕ)
    (h : s.netIpv4Send destinationIp protocol (.ofCaller payload) payloadSize = (.queued, s')) :
    s.pendingIpv4.valid = false ∧ s'.pendingIpv4.valid = true ∧
    s'.pendingIpv4.ticket = s.queued ∧ ∃ nextHopIp,
      s.routeIpv4 destinationIp = some ⟨nextHopIp, none⟩ ∧ s'.waitingPacket =
        s.ipv4.packet destinationIp nextHopIp protocol
          (((ofCaller payload).read s).bytes payloadSize) := by
  have houtcome := sendOutcome_netIpv4Send s destinationIp protocol
    (outside_ofCaller payload).behind payloadSize
  rw [h] at houtcome
  generalize hresult : NetSendResult.queued = result at houtcome
  cases houtcome with
  | refused builds => cases hresult
  | @handed _ mac _ ok _ route hands => cases ok <;> cases hresult
  | @queued nextHopIp _ route free queues =>
    have hpending : s'.pendingIpv4 = _ := queues.pending
    have hipv4 : s'.ipv4 = s.ipv4 := ipv4_of_control queues.control
    rw [waitingPacket, hpending, hipv4]
    exact ⟨free, rfl, rfl, nextHopIp, route, rfl⟩

theorem tickPendingArp_drops (hlookup : s.netArpLookup s.pendingIpv4.nextHopIp = none)
    (hattempts : arpMaxAttempts ≤ s.pendingIpv4.arpAttempts)
    (hclock : s.pendingIpv4.arpRequestedMs ≤ s.currentTimeMs)
    (hinterval : arpRetryIntervalMs ≤ s.currentTimeMs - s.pendingIpv4.arpRequestedMs) :
    s.tickPendingArp.pendingIpv4.valid = false := by
  unfold tickPendingArp
  dsimp only
  split
  · rename_i hvalid
    simpa using hvalid
  have hdue : ¬(s.currentTimeMs < s.pendingIpv4.arpRequestedMs ∨
      s.currentTimeMs - s.pendingIpv4.arpRequestedMs < arpRetryIntervalMs) := by
    rintro (h | h)
    · exact UInt64.not_lt.2 hclock h
    · exact UInt64.not_lt.2 hinterval h
  have hunknown : ¬(s.netArpLookup s.pendingIpv4.nextHopIp).isSome = true := by simp [hlookup]
  rw [if_neg hdue, if_neg hunknown]
  rfl

theorem run_addressed (call : NetCall) : ∃ events, (call.run s).events = events ++ s.events ∧
    ∀ ticket frame ok nextHopIp, .transmit frame ok (.queued ticket nextHopIp) ∈ events →
      ∃ packet mac, packet.nextHopIp = nextHopIp ∧ IsFrameTo mac packet frame ∧
        (s.resolving call).netArpLookup nextHopIp = some mac := by
  let policy : SendPolicy := ⟨fun _ => True, fun nextHopIp mac =>
    (s.resolving call).netArpLookup nextHopIp = some mac⟩
  have hmoves : Moves policy s (call.run s) := moves_run (fun _ => trivial) s call fun _ _ h => h
  obtain ⟨events, hevents, hallows⟩ := hmoves.allows fun _ _ _ => trivial
  refine ⟨events, hevents, fun ticket frame ok nextHopIp hmem => ?_⟩
  obtain ⟨packet, -, hnext, mac, hmac, hframe⟩ := hallows _ hmem
  cases hnext
  exact ⟨packet, mac, rfl, hframe, hmac⟩

theorem queueDiscipline : s.QueueDiscipline where
  reconfigured _ := netConfigureIpv4_discards s
  cleared := netClearIpv4_discards s
  queues destinationIp protocol payload payloadSize _ :=
    netIpv4Send_queues s destinationIp protocol payload payloadSize
  ipv4Send hvalid destinationIp protocol payload payloadSize :=
    (sendOutcome_netIpv4Send s destinationIp protocol
      (outside_ofCaller payload).behind payloadSize).undisturbed hvalid
  udpSend hvalid destinationIp destinationPort sourcePort data dataSize :=
    (sendOutcome_netUdpSend s destinationIp destinationPort sourcePort
      (outside_ofCaller data) dataSize).undisturbed hvalid
  echoRequest hvalid destinationIp identifier sequence payload payloadSize := by
    obtain ⟨data, h⟩ := sendOutcome_netIcmpEchoRequest s destinationIp identifier sequence
      (.ofCaller payload) payloadSize
    exact h.undisturbed hvalid
  dropped := tickPendingArp_drops s
  addressed := run_addressed s

end

/-! ### Runs -/

/-- A packet that no longer waits is not sent by any later call. -/
theorem transmit_mem_of_after (calls : List NetCall) {ticket : ℕ} {frame : List UInt8} {ok : Bool}
    {nextHopIp : UInt32} (hold : ticket < s.queued)
    (hgone : s.pendingIpv4.valid = true → s.pendingIpv4.ticket ≠ ticket)
    (hmem : .transmit frame ok (.queued ticket nextHopIp) ∈ (s.after calls).events) :
    .transmit frame ok (.queued ticket nextHopIp) ∈ s.events := by
  have hmoves := moves_after s calls
  have hlog : .attempt ticket (frame, nextHopIp) ok ∈ (s.after calls).mailbox.log :=
    mem_log_of_mem hmem
  rcases Mailbox.attempt_of_steps hmoves hlog hold with h | ⟨held, hslot, hticket, -⟩
  · exact event_mem_of_log h
  · obtain ⟨hvalid, rfl⟩ := slot_eq_some_iff.1 hslot
    exact absurd hticket (hgone hvalid)

/-- In every run at most one packet waits for ARP, and it is sent as it was queued, at most once, or
dropped. -/
theorem queued_packet_integrity (s : NetStack) (hs : s.Reachable) :
    s.QueueIntegrity ∧ s.QueueDiscipline ∧
    ∀ calls ticket frame ok nextHopIp, ticket < s.queued →
      (s.pendingIpv4.valid = true → s.pendingIpv4.ticket ≠ ticket) →
      .transmit frame ok (.queued ticket nextHopIp) ∈ (s.after calls).events →
      .transmit frame ok (.queued ticket nextHopIp) ∈ s.events :=
  ⟨hs.mailboxGood.queueIntegrity, queueDiscipline s,
    fun calls _ _ _ _ => transmit_mem_of_after calls⟩

end NetStack

/-- The stack asks for the gateway, and a datagram waits for the answer. -/
def waitingCalls : List NetCall :=
  [.configureIpv4 sampleConfig, .udpSend 0x0A000001 7 9 (some fun _ => 1) 3, .tick 1000]

theorem NetStack.queued_packet_integrity_waitingCalls :
    ((freshStack 0).after waitingCalls).pendingIpv4.valid = true ∧
    ((freshStack 0).after waitingCalls).QueueIntegrity :=
  ⟨by decide +kernel, (queued_packet_integrity _ ⟨_, _, _, _, waitingCalls, netInit_freshStack 0,
    rfl⟩).1⟩

end Nostalux.Net
