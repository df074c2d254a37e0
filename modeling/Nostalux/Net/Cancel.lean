import Nostalux.Net.Cache
import Nostalux.Net.Traffic

/-!
# Cancelling a DNS query

`net_dns_cancel` takes the datagram of the query out of `pending_ipv4`, but it looks for a datagram
to the current resolver.  If the resolver was changed alone while the datagram waits for ARP, the
datagram stays and is sent later (`cancelled_query_is_sent`).  Otherwise the cancellation is
complete (`netDnsCancel_complete`).
-/

namespace Nostalux.Net

open BigEndian

/-- The packet is a query with the given source port and transaction id. -/
def QueuedIpv4.IsQuery (sourcePort transactionId : UInt16) (packet : QueuedIpv4) : Prop :=
  packet.protocol = netIpv4ProtocolUdp ∧ 10 ≤ packet.payload.length ∧
    readU16 packet.payload 0 = sourcePort ∧ readU16 packet.payload 2 = dnsServerPort ∧
    readU16 packet.payload 8 = transactionId

/-- The frame carries a query with the given source port and transaction id. -/
def CarriesQuery (sourcePort transactionId : UInt16) (frame : List UInt8) : Prop :=
  IsDatagram (byteAt frame) sourcePort dnsServerPort ∧ 2 ≤ datagramDataSize (byteAt frame) ∧
    u16At (datagramData (byteAt frame)) 0 = transactionId

instance (sourcePort transactionId : UInt16) (frame : List UInt8) :
    Decidable (CarriesQuery sourcePort transactionId frame) := by
  unfold CarriesQuery IsDatagram
  infer_instance

theorem IsArpFrame.not_carriesQuery {sourcePort transactionId : UInt16} {frame : List UInt8}
    (h : IsArpFrame frame) : ¬CarriesQuery sourcePort transactionId frame := by
  obtain ⟨destination, source, payload, rfl⟩ := h
  rintro ⟨⟨htype, -⟩, -⟩
  rw [u16At_ethernetFrame] at htype
  exact absurd htype (by decide)

theorem IsFrameOf.isQuery {sourcePort transactionId : UInt16} {packet : QueuedIpv4}
    {frame : List UInt8} (h : IsFrameOf packet frame)
    (hquery : CarriesQuery sourcePort transactionId frame) :
    packet.IsQuery sourcePort transactionId := by
  obtain ⟨destination, source, identification, rfl⟩ := h
  obtain ⟨⟨-, hprotocol, hsource, hdestination⟩, hsize, hid⟩ := hquery
  have hpayload : framePayload (byteAt (ethernetFrame destination source ethertypeIpv4
      (ipv4Packet identification packet.sourceIp packet.destinationIp packet.protocol
        packet.payload))) = byteAt packet.payload := by
    rw [framePayload, shift_ethernetFrame, ipv4HeaderSize_ipv4Packet, shift_ipv4Packet]
  rw [datagramDataSize, framePayloadSize, shift_ethernetFrame, ipv4HeaderSize_ipv4Packet,
    totalSize_ipv4Packet, UInt16.toNat_ofNat'] at hsize
  rw [datagramData, hpayload] at hid
  rw [hpayload] at hsource hdestination
  rw [shift_ethernetFrame, protocol_ipv4Packet] at hprotocol
  exact ⟨hprotocol, by omega, hsource, hdestination, hid⟩

/-- The frames that were handed to the link, newest first. -/
def NetStack.sentFrames (s : NetStack) : List (List UInt8) :=
  s.events.filterMap fun
    | .transmit frame _ _ => some frame
    | _ => none

/-- A received frame or a tick of the clock. -/
def NetCall.isPassive : NetCall → Bool
  | .input _ _ => true
  | .tick _ => true
  | _ => false

namespace NetStack

variable {s s' : NetStack}

/-! ### What is sent -/

/-- A stack that does not send the query. -/
def noQuery (sourcePort transactionId : UInt16) : SendPolicy where
  packet := fun packet => ¬packet.IsQuery sourcePort transactionId
  address := fun _ _ => True

/-- Nothing but a query itself is a query. -/
theorem admitsDhcp_not_isQuery (sourcePort transactionId : UInt16) :
    AdmitsDhcp (noQuery sourcePort transactionId) := by
  rintro config destinationIp nextHopIp data ⟨-, -, -, hport, -⟩
  have h := destinationPort_udpPacket config.address destinationIp dhcpClientPort
    dhcpServerPort data
  exact absurd (h.symm.trans hport) (by decide)

theorem admitsEcho_not_isQuery (sourcePort transactionId : UInt16) (s : NetStack)
    (frame : Memory) : AdmitsEcho (noQuery sourcePort transactionId) s frame := by
  rintro - nextHopIp data ⟨hprotocol, -⟩
  exact absurd hprotocol (by decide : netIpv4ProtocolIcmp ≠ netIpv4ProtocolUdp)

/-- A run that admits no query sends none. -/
theorem Moves.not_carriesQuery {sourcePort transactionId : UInt16}
    (h : Moves (noQuery sourcePort transactionId) s s')
    (hwaiting : s.pendingIpv4.valid = true →
      ¬s.waitingPacket.IsQuery sourcePort transactionId) :
    ∃ frames, s'.sentFrames = frames ++ s.sentFrames ∧
      ∀ frame ∈ frames, ¬CarriesQuery sourcePort transactionId frame := by
  obtain ⟨events, hevents, hallows⟩ := h.allows fun hvalid _ _ => hwaiting hvalid
  refine ⟨_, (congrArg (List.filterMap _) hevents).trans List.filterMap_append,
    fun frame hmem => ?_⟩
  obtain ⟨event, hevent, hframe⟩ := List.mem_filterMap.1 hmem
  cases event with
  | transmit frame' ok cause =>
    cases hframe
    rcases NetEvent.emits_of_allows (hallows _ hevent) with harp | ⟨packet, hpacket, hframe⟩
    · exact harp.not_carriesQuery
    · exact fun hquery => hpacket (hframe.isQuery hquery)
  | _ => cases hframe

/-! ### The resolver -/

theorem NetDnsClient.cutOff_of_not_pending {dns : NetDnsClient} (h : dns.state ≠ .pending) :
    dns.cutOff = dns :=
  if_neg h

theorem CutsOff.dns_eq (h : s.CutsOff s') (hstate : s.dns.state ≠ .pending) : s'.dns = s.dns := by
  rcases h.dns with hd | hd
  · exact hd
  · rw [hd, NetDnsClient.cutOff_of_not_pending hstate]

/-- A resolver that waits for nothing is not changed by frames. -/
theorem netInput_dns (frame : Memory) (frameSize : ℕ) (hstate : s.dns.state ≠ .pending) :
    (s.netInput frame frameSize).2.dns = s.dns ∧
    (¬IsDatagram frame dhcpServerPort dhcpClientPort →
      (s.netInput frame frameSize).2.dnsCache = s.dnsCache) := by
  cases netInput_effect s frame frameSize with
  | same same => exact ⟨same.dns_eq, fun _ => same.dnsCache_eq⟩
  | cut ports cuts => exact ⟨cuts.dns_eq hstate, fun h => absurd ports h⟩
  | fails exchange => exact absurd exchange.2.pending hstate
  | answers exchange => exact absurd exchange.2.pending hstate

/-- The resolver when `tick_dns` begins. -/
theorem dns_before_tickDns (s : NetStack) (nowMs : UInt64) (hstate : s.dns.state ≠ .pending) :
    (s.withTime nowMs).dnsCacheExpire.arpExpire.tickPendingArp.tickDhcp.dns = s.dns := by
  generalize hexpired : (s.withTime nowMs).dnsCacheExpire.arpExpire = expired
  have hdns : expired.dns = s.dns := by
    rw [← hexpired]
    rfl
  have hpending : expired.tickPendingArp.dns = s.dns :=
    (dns_of_control (control_tickPendingArp expired)).trans hdns
  rcases tickDhcp_cases expired.tickPendingArp with ⟨-, -, h⟩ | ⟨-, state, attempts, next, h, -⟩
  · rw [h, (cutsOff_dhcpRestart _).dns_eq (by rw [hpending]; exact hstate), hpending]
  · exact (dns_of_control h).trans hpending

theorem netTick_dns (nowMs : UInt64) (hstate : s.dns.state ≠ .pending) :
    (s.netTick nowMs).dns = s.dns := by
  have hbefore := dns_before_tickDns s nowMs hstate
  unfold netTick
  generalize (s.withTime nowMs).dnsCacheExpire.arpExpire.tickPendingArp.tickDhcp = ticked
    at hbefore ⊢
  have hidle : ticked.tickDns = ticked := if_pos (.inl (by rw [hbefore]; exact hstate))
  rw [hidle]
  exact (dns_of_control (control_tickEcho ticked)).trans hbefore

/-! ### Runs of frames and ticks -/

section

variable {sourcePort transactionId : UInt16}

theorem passive_run {call : NetCall} (hcall : call.isPassive = true)
    (hstate : s.dns.state ≠ .pending) : (call.run s).dns = s.dns ∧
      Moves (noQuery sourcePort transactionId) s (call.run s) := by
  have hdhcp := admitsDhcp_not_isQuery sourcePort transactionId
  cases call with
  | input frame frameSize =>
    exact ⟨(netInput_dns frame frameSize hstate).1, moves_netInput hdhcp s frame frameSize
      (admitsEcho_not_isQuery sourcePort transactionId s frame) fun _ _ _ => trivial⟩
  | tick nowMs =>
    refine ⟨netTick_dns nowMs hstate, moves_netTick hdhcp s nowMs (fun s' hs' hpending => ?_)
      fun _ _ _ => trivial⟩
    rw [hs', dns_before_tickDns s nowMs hstate] at hpending
    exact absurd hpending hstate
  | _ => cases hcall

theorem passive_after (calls : List NetCall) (hcalls : ∀ call ∈ calls, call.isPassive = true)
    (hstate : s.dns.state ≠ .pending) : (s.after calls).dns = s.dns ∧
      Moves (noQuery sourcePort transactionId) s (s.after calls) := by
  induction calls generalizing s with
  | nil => exact ⟨rfl, .refl _ s⟩
  | cons call calls ih =>
    obtain ⟨hdns, hmoves⟩ := passive_run (hcalls call List.mem_cons_self) hstate
    obtain ⟨hdns', hmoves'⟩ := ih (s := call.run s)
      (fun call' hmem => hcalls call' (List.mem_cons_of_mem _ hmem)) (by rwa [hdns])
    exact ⟨hdns'.trans hdns, hmoves.trans hmoves'⟩

end

/-! ### Cancellation -/

/-- The packet that waits is the datagram of the query, but it is not for the current resolver. -/
def LeavesQuery (s : NetStack) : Prop :=
  s.pendingIpv4.valid = true ∧ s.pendingIpv4.destinationIp ≠ s.ipv4.dns ∧
    s.waitingPacket.IsQuery s.dns.sourcePort s.dns.transactionId

theorem netDnsCancel_waiting (hpending : s.dns.state = .pending) (hleaves : ¬s.LeavesQuery)
    (hvalid : s.netDnsCancel.2.pendingIpv4.valid = true) :
    ¬s.netDnsCancel.2.waitingPacket.IsQuery s.dns.sourcePort s.dns.transactionId := by
  unfold netDnsCancel at hvalid ⊢
  rw [if_neg (by simp [hpending])] at hvalid ⊢
  by_cases howns : s.dnsOwnsPending = true
  · rw [if_pos howns] at hvalid
    cases hvalid
  rw [if_neg howns] at hvalid ⊢
  rintro ⟨hprotocol, hlength, hsource, hdestination, hid⟩
  refine hleaves ⟨hvalid, fun hdns => howns ?_, hprotocol, hlength, hsource, hdestination, hid⟩
  exact decide_eq_true ⟨hvalid, hprotocol, hdns, hlength, hsource, hdestination, hid⟩

theorem netDnsCancel_events (s : NetStack) : s.netDnsCancel.2.events = s.events := by
  unfold netDnsCancel
  split
  · rfl
  · dsimp only
    split <;> rfl

theorem netDnsCancel_dns (hpending : s.dns.state = .pending) :
    s.netDnsCancel.1 = true ∧ s.netDnsCancel.2.dns.state = .idle := by
  unfold netDnsCancel
  rw [if_neg (by simp [hpending])]
  exact ⟨rfl, rfl⟩

/-- Unless the resolver was changed alone while the query waits for ARP, a cancelled query is never
sent, and the resolver stays idle whatever arrives. -/
theorem netDnsCancel_complete (s : NetStack) (hpending : s.dns.state = .pending)
    (hleaves : ¬s.LeavesQuery) (calls : List NetCall)
    (hcalls : ∀ call ∈ calls, call.isPassive = true) :
    s.netDnsCancel.1 = true ∧
    (∃ frames, (s.netDnsCancel.2.after calls).sentFrames = frames ++ s.sentFrames ∧
      ∀ frame ∈ frames, ¬CarriesQuery s.dns.sourcePort s.dns.transactionId frame) ∧
    (s.netDnsCancel.2.after calls).dns.state = .idle ∧
    ∀ frame frameSize, ¬IsDatagram frame dhcpServerPort dhcpClientPort →
      ((s.netDnsCancel.2.after calls).netInput frame frameSize).2.dnsCache =
        (s.netDnsCancel.2.after calls).dnsCache := by
  obtain ⟨hok, hidle⟩ := netDnsCancel_dns hpending
  have hwaiting := netDnsCancel_waiting hpending hleaves
  have hevents := netDnsCancel_events s
  generalize s.netDnsCancel.2 = cancelled at hidle hwaiting hevents ⊢
  obtain ⟨hdns, hmoves⟩ := passive_after calls hcalls (s := cancelled) (by rw [hidle]; exact nofun)
  have hstate : (cancelled.after calls).dns.state = .idle := by rw [hdns, hidle]
  obtain ⟨frames, hframes, hquery⟩ := hmoves.not_carriesQuery hwaiting
  refine ⟨hok, ⟨frames, ?_, hquery⟩, hstate, fun frame frameSize => ?_⟩
  · rw [hframes, sentFrames, sentFrames, hevents]
  · exact (netInput_dns frame frameSize (by rw [hstate]; exact nofun)).2

/-- A query waits for the address of the gateway. -/
def askingCalls : List NetCall :=
  [.configureIpv4 sampleConfig, .dnsQuery (some sampleName) 1]

theorem netDnsCancel_complete_askingCalls :
    ((freshStack 0).after askingCalls).dns.state = .pending ∧
    ((freshStack 0).after askingCalls).pendingIpv4.valid = true ∧
    (((freshStack 0).after askingCalls).netDnsCancel.2.after [.tick 1000]).dns.state = .idle := by
  have hpending : ((freshStack 0).after askingCalls).dns.state = .pending := by decide +kernel
  have hdns : ((freshStack 0).after askingCalls).pendingIpv4.destinationIp =
      ((freshStack 0).after askingCalls).ipv4.dns := by decide +kernel
  refine ⟨hpending, by decide +kernel, ?_⟩
  generalize (freshStack 0).after askingCalls = s at hpending hdns
  exact (netDnsCancel_complete s hpending (fun h => h.2.1 hdns) [.tick 1000] (by decide)).2.2.1

/-- The reply of the gateway to an ARP request of the stack. -/
def gatewayReply : List UInt8 :=
  [2, 0, 0, 0, 0, 2] ++ [2, 0, 0, 0, 0, 1] ++ writeU16 ethertypeArp ++
    (writeU16 1 ++ writeU16 ethertypeIpv4 ++ [6, 4] ++ writeU16 2 ++ [2, 0, 0, 0, 0, 1] ++
      writeU32 0x0A000001 ++ [2, 0, 0, 0, 0, 2] ++ writeU32 0x0A000002)

/-- The resolver is changed while the query waits, then the query is cancelled. -/
def cancelledCalls : List NetCall :=
  askingCalls ++ [.configureIpv4 { sampleConfig with dns := 0x0A000009 }, .dnsCancel]

/-- The query is sent when the address of the gateway is known. -/
theorem cancelled_query_is_sent :
    (((freshStack 0).after (askingCalls ++
      [.configureIpv4 { sampleConfig with dns := 0x0A000009 }])).netDnsCancel.1 = true) ∧
    (∀ frame ∈ ((freshStack 0).after cancelledCalls).sentFrames, ¬CarriesQuery 49153 1 frame) ∧
    ∃ frame ∈ (((freshStack 0).after cancelledCalls).after
      [.input (byteAt gatewayReply) 42]).sentFrames, CarriesQuery 49153 1 frame := by
  decide +kernel

end NetStack

end Nostalux.Net
