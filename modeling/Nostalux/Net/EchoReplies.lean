import Nostalux.Net.Traffic

/-!
# Which echo replies a received frame causes

An echo reply goes to the source address of the request, and `receive_icmp` does not look at that
address.  A received frame makes the stack hand over at most two echo replies: the packet that waits
for ARP, if the frame tells the address of its next hop, and the answer to the request in the frame.

* `echoReplies_netInput`: these are all of them;
* `echo_replies_are_unicast_iff`: what a frame and a stack have to be like for a reply to an address
  that is not that of a single host.
-/

open Memory

namespace Nostalux.Net

open BigEndian List Option Pointer

/-- The destination of an ICMP echo reply in a frame; nothing if the frame holds something else. -/
def echoReplyDestination (frame : List UInt8) : Option UInt32 :=
  let packet := Memory.shift (byteAt frame) 14
  let headerSize := NetStack.ipv4HeaderSize packet
  if u16At (byteAt frame) 12 = ethertypeIpv4 ∧ packet 9 = netIpv4ProtocolIcmp ∧
      14 + headerSize < frame.length ∧ packet headerSize = 0 then some (u32At packet 16)
  else none

/-- The destination of an echo reply that is handed to the link. -/
def NetEvent.echoReply : NetEvent → Option UInt32
  | .transmit frame _ _ => echoReplyDestination frame
  | _ => none

theorem echoReplyDestination_arp (destination source : Mac) (payload : List UInt8) :
    echoReplyDestination (ethernetFrame destination source ethertypeArp payload) = none := by
  rw [echoReplyDestination, u16At_ethernetFrame]
  exact if_neg fun h => absurd h.1 (by decide)

theorem echoReplyDestination_ipv4 (destination source : Mac) (identification : UInt16)
    (sourceIp destinationIp : UInt32) (protocol : UInt8) (data : List UInt8) :
    echoReplyDestination (ethernetFrame destination source ethertypeIpv4
      (ipv4Packet identification sourceIp destinationIp protocol data)) =
      if protocol = netIpv4ProtocolIcmp ∧ data.head? = some 0 then some destinationIp
        else none := by
  have htype : byteAt (ipv4Packet identification sourceIp destinationIp protocol data) 20 =
      byteAt data 0 :=
    congrFun (shift_ipv4Packet identification sourceIp destinationIp protocol data) 0
  have hlength : (ethernetFrame destination source ethertypeIpv4
      (ipv4Packet identification sourceIp destinationIp protocol data)).length =
      34 + data.length := by
    simp [ethernetFrame, ipv4Packet]
    omega
  rw [echoReplyDestination, shift_ethernetFrame, ipv4HeaderSize_ipv4Packet, u16At_ethernetFrame,
    protocol_ipv4Packet, destinationIp_ipv4Packet, htype, hlength]
  refine if_congr ?_ rfl rfl
  cases data with
  | nil => simp
  | cons b data => simp [byteAt]

namespace NetStack

variable {s s' : NetStack}

/-- The destinations of the echo replies that were handed to the link, newest first. -/
def echoReplies (s : NetStack) : List UInt32 := s.events.filterMap NetEvent.echoReply

theorem echoReplies_of_events (h : s'.events = s.events) : s'.echoReplies = s.echoReplies := by
  rw [echoReplies, echoReplies, h]

theorem echoReplies_of_mailbox (h : s'.mailbox = s.mailbox) : s'.echoReplies = s.echoReplies :=
  echoReplies_of_events (map_injective_iff.2 NetEvent.logEntry_injective
    (congrArg Mailbox.log h))

variable (s)

@[simp] theorem echoReplies_count (update : NetStats → NetStats) :
    (s.count update).echoReplies = s.echoReplies := rfl

@[simp] theorem echoReplies_withPending (pending : NetPendingIpv4) :
    (s.withPending pending).echoReplies = s.echoReplies := rfl

variable {s}

theorem echoReplies_of_cons {event : NetEvent} (h : s'.events = event :: s.events) :
    s'.echoReplies = event.echoReply.toList ++ s.echoReplies := by
  rw [echoReplies, echoReplies, h]
  cases hreply : event.echoReply with
  | none => rw [filterMap_cons_none hreply, toList_none, nil_append]
  | some ip => rw [filterMap_cons_some hreply, toList_some, singleton_append]

theorem Hands.echoReplies_eq {frame : List UInt8} {cause : NetCause} {result : Bool × NetStack}
    (h : s.Hands frame cause result) :
    result.2.echoReplies = (echoReplyDestination frame).toList ++ s.echoReplies :=
  echoReplies_of_cons h.events

/-! ### Packets that are no echo replies -/

/-- A stack that sends neither ICMP messages nor the packet that waits. -/
def noEcho : SendPolicy where
  packet := fun packet => packet.protocol ≠ netIpv4ProtocolIcmp
  address := fun _ _ => False

theorem Moves.echoReplies_eq (h : Moves noEcho s s') : s'.echoReplies = s.echoReplies := by
  obtain ⟨events, hevents, hallows⟩ := h.allows fun _ _ hmac => hmac.elim
  have hnone : events.filterMap NetEvent.echoReply = [] := by
    refine filterMap_eq_nil_iff.2 fun event hmem => ?_
    cases event with
    | transmit frame ok cause =>
      change echoReplyDestination frame = none
      rcases NetEvent.emits_of_allows (hallows _ hmem) with
        ⟨_, _, _, hframe⟩ | ⟨packet, hpacket, _, _, _, hframe⟩
      · rw [hframe, echoReplyDestination_arp]
      · rw [hframe, echoReplyDestination_ipv4, if_neg fun h => hpacket h.1]
    | _ => rfl
  rw [echoReplies, hevents, filterMap_append, hnone, nil_append, echoReplies]

theorem echoReplies_receiveUdp (s : NetStack) (sourceIp destinationIp : UInt32) (packet : Memory)
    (packetSize : ℕ) :
    (s.receiveUdp sourceIp destinationIp packet packetSize).2.echoReplies = s.echoReplies := by
  have hdhcp : AdmitsDhcp noEcho := fun _ _ _ _ =>
    show netIpv4ProtocolUdp ≠ netIpv4ProtocolIcmp by decide
  exact (moves_receiveUdp hdhcp s sourceIp destinationIp packet packetSize).echoReplies_eq

/-- A message whose next hop is not known is not sent at once. -/
theorem SendOutcome.echoReplies_eq {destinationIp : UInt32} {protocol : UInt8} {data : List UInt8}
    {result : NetSendResult} (h : s.SendOutcome destinationIp protocol data result s')
    (hroute : ∀ nextHopIp mac, s.routeIpv4 destinationIp ≠ some ⟨nextHopIp, some mac⟩) :
    s'.echoReplies = s.echoReplies := by
  cases h with
  | refused builds => exact echoReplies_of_events builds.events
  | handed route hands => exact absurd route (hroute _ _)
  | @queued nextHopIp _ route free queues =>
    have hqueued : (NetEvent.queue s.queued (s.ipv4.packet destinationIp nextHopIp protocol data) ::
        s.events).filterMap NetEvent.echoReply = s.echoReplies := filterMap_cons_none rfl
    rcases queues.events with hevents | ⟨ok, hevents⟩
    · rw [echoReplies, hevents, hqueued]
    · rw [echoReplies, hevents, filterMap_cons_none (by rw [NetEvent.echoReply, arpFrame,
        echoReplyDestination_arp]), hqueued]

variable (s)

/-! ### The packet that waits -/

/-- The destination of the packet that waits, if it is an echo reply and can be sent. -/
def waitingReply (s : NetStack) : Option UInt32 :=
  let pending := s.pendingIpv4
  if pending.valid ∧ (s.netArpLookup pending.nextHopIp).isSome ∧
      pending.payload.length ≤ netIpv4PayloadMax ∧ pending.protocol = netIpv4ProtocolIcmp ∧
      pending.payload.head? = some 0 then some pending.destinationIp
  else none

theorem waitingReply_count (update : NetStats → NetStats) :
    (s.count update).waitingReply = s.waitingReply := rfl

theorem echoReplies_flushPendingIpv4 :
    s.flushPendingIpv4.2.echoReplies = s.waitingReply.toList ++ s.echoReplies := by
  have hquiet (h : ¬(s.pendingIpv4.valid = true ∧
      (s.netArpLookup s.pendingIpv4.nextHopIp).isSome = true ∧
      s.pendingIpv4.payload.length ≤ netIpv4PayloadMax)) : s.waitingReply = none :=
    if_neg fun hreply => h ⟨hreply.1, hreply.2.1, hreply.2.2.1⟩
  have h := flushOutcome_flushPendingIpv4 s
  generalize s.flushPendingIpv4.2 = s' at h
  cases h with
  | quiet h =>
    rw [hquiet fun hreply => by simp [h hreply.1] at hreply]
    rfl
  | oversized hsize _ hs' =>
    rw [hquiet fun hreply => absurd hreply.2.2 (not_le.2 hsize), hs']
    rfl
  | handed valid lookup size hands _ hs' =>
    have hreply : s.waitingReply = if s.pendingIpv4.protocol = netIpv4ProtocolIcmp ∧
        s.pendingIpv4.payload.head? = some 0 then some s.pendingIpv4.destinationIp else none := by
      rw [waitingReply]
      refine if_congr ?_ rfl rfl
      simp_all
    have h := hands.echoReplies_eq
    rw [ipv4Frame, echoReplyDestination_ipv4, ← hreply] at h
    rw [hs', echoReplies_withPending, h]

theorem echoReplies_learnAndFlush (ip : UInt32) (mac : Mac) : (s.learnAndFlush ip mac).echoReplies =
      (s.arpLearn ip mac).waitingReply.toList ++ s.echoReplies := by
  rw [learnAndFlush, echoReplies_flushPendingIpv4,
    echoReplies_of_mailbox (mailbox_arpLearn s ip mac)]

variable {s}

/-! ### The answer to a request -/

/-- The destination of the answer of `receive_icmp` to a packet, if it is sent at once. -/
def requestReply (s : NetStack) (sourceIp destinationIp : UInt32) (packet : Memory)
    (packetSize : ℕ) : Option UInt32 :=
  if 8 ≤ packetSize ∧ internetChecksum packet packetSize = 0 ∧
      s.isEchoRequest destinationIp packet ∧ ((s.routeIpv4 sourceIp).bind Route.mac).isSome then
    some sourceIp
  else none

/-- A packet whose next hop is known is handed to the link. -/
theorem netIpv4Send_hands {destinationIp nextHopIp : UInt32} {mac : Mac}
    (hroute : s.routeIpv4 destinationIp = some ⟨nextHopIp, some mac⟩)
    (haddress : s.ipv4.address ≠ 0)
    (protocol : UInt8) {payload : Pointer} (hbehind : payload.Behind) {payloadSize : ℕ}
    (hsize : payloadSize ≤ netIpv4PayloadMax) (hnull : payload.isNull = false) :
    ∃ ok, s.Hands (s.ipv4Frame s.nextIpv4Id mac destinationIp protocol
      ((payload.read s).bytes payloadSize)) .direct
      (ok, (s.netIpv4Send destinationIp protocol payload payloadSize).2) := by
  have hzero : destinationIp ≠ 0 := by
    rintro rfl
    simp [routeIpv4] at hroute
  have h := sendIpv4WithMac_hands s .direct destinationIp protocol hbehind hsize (.inr hnull) mac
  rw [netIpv4Send, if_neg (by simp [hzero, hnull, hsize]), if_neg (by simp [haddress]), hroute]
  dsimp only
  split <;> rename_i s₁ heq <;> rw [heq] at h
  · exact ⟨true, h⟩
  · exact ⟨false, h⟩

variable (s)

/-- The type of the reply is stored over the type of the request. -/
theorem type_buildEchoReply (packet : Memory) (packetSize : ℕ) :
    (s.buildEchoReply packet packetSize).transmitFrame 34 = 0 := by
  unfold buildEchoReply
  generalize s.copy 34 (.external packet) packetSize = copied
  have hbuilt : ((copied.write 34 [0]).write 36 (writeU16 0)).transmitFrame 34 = 0 := by
    rw [write_transmitFrame, blit_of_not _ (.inl (by omega)), write_transmitFrame]
    exact blit_add (byteAt [0]) (k := 0) Nat.one_pos
  generalize (copied.write 34 [0]).write 36 (writeU16 0) = built at hbuilt ⊢
  rw [count_transmitFrame, write_transmitFrame, blit_of_not _ (.inl (by omega)), hbuilt]

theorem head?_bytes (m : Memory) {size : ℕ} (hsize : 0 < size) :
    (m.bytes size).head? = some (m 0) := by
  obtain ⟨rest, rfl⟩ : ∃ rest, size = 1 + rest := ⟨size - 1, by omega⟩
  rw [bytes_add]
  rfl

variable {packetSize : ℕ}

theorem echoReplies_receiveIcmp (sourceIp destinationIp : UInt32) (packet : Memory)
    (hsize : packetSize ≤ netIpv4PayloadMax) :
    (s.receiveIcmp sourceIp destinationIp packet packetSize).2.echoReplies =
      (s.requestReply sourceIp destinationIp packet packetSize).toList ++ s.echoReplies := by
  unfold receiveIcmp
  split
  · rename_i h
    rw [requestReply, if_neg (by rintro ⟨h8, hsum, -⟩; simp [hsum] at h; omega)]
    rfl
  rename_i hvalid
  push Not at hvalid
  split
  · rename_i hrequest
    have haddress : s.ipv4.address ≠ 0 := (of_decide_eq_true hrequest).2.2.1
    have hbuilds := builds_buildEchoReply s packet packetSize
    cases hroute : (s.routeIpv4 sourceIp).bind Route.mac with
    | none =>
      rw [requestReply, if_neg (by simp [hroute]),
        (sendOutcome_icmpEchoReply s sourceIp packet packetSize).echoReplies_eq]
      · rfl
      · intro nextHopIp mac h
        rw [h] at hroute
        cases hroute
    | some mac =>
      rw [requestReply, if_pos ⟨hvalid.1, hvalid.2, hrequest, by rw [hroute]; rfl⟩]
      obtain ⟨route, hsome, hmac⟩ := bind_eq_some_iff.1 hroute
      have hbuilt : (s.buildEchoReply packet packetSize).routeIpv4 sourceIp =
          some ⟨route.nextHopIp, some mac⟩ := by
        rw [routeIpv4_of_control hbuilds.control, hsome, ← hmac]
      obtain ⟨ok, hands⟩ := netIpv4Send_hands hbuilt
        (by rw [ipv4_of_control hbuilds.control]; exact haddress) netIpv4ProtocolIcmp
        (show Behind (.transmit 34) from le_refl 34) hsize rfl
      have hreplies := hands.echoReplies_eq
      rw [ipv4Frame, echoReplyDestination_ipv4,
        if_pos ⟨rfl, (head?_bytes _ (by omega)).trans
          (congrArg some (type_buildEchoReply s packet packetSize))⟩,
        echoReplies_of_events hbuilds.events] at hreplies
      exact hreplies
  · rename_i hrequest
    have hreply : s.requestReply sourceIp destinationIp packet packetSize = none :=
      if_neg fun h => hrequest h.2.2.1
    rw [hreply]
    split <;> exact echoReplies_of_events rfl

variable {s}

/-! ### Frames -/

/-- The sender whose Ethernet address a frame tells. -/
def toldSender (s : NetStack) (frame : Memory) (frameSize : ℕ) : Option (UInt32 × Mac) :=
  if s.takesArp frame frameSize then
    some (u32At (frame.shift 14) 14, macAt ((frame.shift 14).shift 8))
  else if s.takesIpv4 frame frameSize ∧ ipv4IsUsableUnicast (frameSourceIp frame) ∧
      s.ipv4IsOnLink (frameSourceIp frame) then some (frameSourceIp frame, macAt (frame.shift 6))
  else none

/-- The destination of an echo reply that waits until the frame comes. -/
def flushedReply (s : NetStack) (frame : Memory) (frameSize : ℕ) : Option UInt32 :=
  (s.toldSender frame frameSize).bind fun sender => (s.arpLearn sender.1 sender.2).waitingReply

/-- The destination of the answer to an echo request in the frame. -/
def answeredReply (s : NetStack) (frame : Memory) (frameSize : ℕ) : Option UInt32 :=
  if s.takesIpv4 frame frameSize ∧ frame.shift 14 9 = netIpv4ProtocolIcmp then
    (s.learnSender (frameSourceIp frame) (macAt (frame.shift 6))).requestReply (frameSourceIp frame)
      (u32At (frame.shift 14) 16) (framePayload frame) (framePayloadSize frame)
  else none

theorem requestReply_of_control (h : s'.control = s.control) (sourceIp destinationIp : UInt32)
    (packet : Memory) (packetSize : ℕ) :
    s'.requestReply sourceIp destinationIp packet packetSize =
      s.requestReply sourceIp destinationIp packet packetSize := by
  rw [requestReply, requestReply, routeIpv4_of_control h,
    isEchoRequest_congr (ipv4_of_control h : s'.ipv4 = s.ipv4)]

variable (s)

/-- Only the ARP table tells that a sender was learned. -/
theorem control_learnSender (ip : UInt32) (mac : Mac) : (s.learnSender ip mac).control =
      (if ipv4IsUsableUnicast ip ∧ s.ipv4IsOnLink ip then s.arpLearn ip mac else s).control := by
  unfold learnSender
  split
  · exact control_flushPendingIpv4 _
  · rfl

section

variable (update : NetStats → NetStats)

theorem arpLearn_count (ip : UInt32) (mac : Mac) :
    (s.count update).arpLearn ip mac = (s.arpLearn ip mac).count update := by
  unfold arpLearn
  split <;> rfl

theorem control_learnSender_count (ip : UInt32)
    (mac : Mac) : ((s.count update).learnSender ip mac).control =
      (s.learnSender ip mac).control := by
  rw [control_learnSender, control_learnSender, arpLearn_count]
  by_cases h : ipv4IsUsableUnicast ip ∧ s.ipv4IsOnLink ip
  · rw [if_pos h, if_pos (show _ ∧ (s.count update).ipv4IsOnLink ip = true from h), control_count]
  · rw [if_neg h, if_neg (show ¬(_ ∧ (s.count update).ipv4IsOnLink ip = true) from h),
      control_count]

theorem flushedReply_count (frame : Memory) (frameSize : ℕ) :
    (s.count update).flushedReply frame frameSize = s.flushedReply frame frameSize := by
  have htold : (s.count update).toldSender frame frameSize = s.toldSender frame frameSize := rfl
  rw [flushedReply, flushedReply, htold]
  simp only [arpLearn_count]
  rfl

theorem answeredReply_count (frame : Memory) (frameSize : ℕ) :
    (s.count update).answeredReply frame frameSize = s.answeredReply frame frameSize := by
  have htakes : (s.count update).takesIpv4 frame frameSize = s.takesIpv4 frame frameSize := rfl
  rw [answeredReply, answeredReply, htakes,
    requestReply_of_control (control_learnSender_count s update _ _)]

end

theorem echoReplies_learnSender (ip : UInt32) (mac : Mac) : (s.learnSender ip mac).echoReplies =
      (if ipv4IsUsableUnicast ip ∧ s.ipv4IsOnLink ip then (s.arpLearn ip mac).waitingReply
        else none).toList ++ s.echoReplies := by
  unfold learnSender
  split
  · exact echoReplies_learnAndFlush s ip mac
  · rfl

theorem echoReplies_acceptIpv4 (sourceMac : Mac) (frame : Memory)
    (hsize : framePayloadSize frame ≤ netIpv4PayloadMax) :
    (s.acceptIpv4 sourceMac (frame.shift 14)).2.echoReplies =
      (if frame.shift 14 9 = netIpv4ProtocolIcmp then
        (s.learnSender (frameSourceIp frame) sourceMac).requestReply (frameSourceIp frame)
          (u32At (frame.shift 14) 16) (framePayload frame) (framePayloadSize frame)
        else none).toList ++ (s.learnSender (frameSourceIp frame) sourceMac).echoReplies := by
  unfold acceptIpv4
  dsimp only
  rw [← frameSourceIp, ← framePayload, ← framePayloadSize]
  generalize s.learnSender (frameSourceIp frame) sourceMac = learned
  generalize hcount : learned.count _ = counted
  have hreply : counted.requestReply (frameSourceIp frame) (u32At (frame.shift 14) 16)
      (framePayload frame) (framePayloadSize frame) = learned.requestReply (frameSourceIp frame)
      (u32At (frame.shift 14) 16) (framePayload frame) (framePayloadSize frame) :=
    requestReply_of_control (by rw [← hcount, control_count]) _ _ _ _
  have hcounted : counted.echoReplies = learned.echoReplies := by rw [← hcount, echoReplies_count]
  rw [← hcounted, ← hreply]
  by_cases hicmp : frame.shift 14 9 = netIpv4ProtocolIcmp
  · rw [receivePayload, if_pos hicmp, if_pos hicmp]
    exact echoReplies_receiveIcmp counted _ _ _ hsize
  rw [receivePayload, if_neg hicmp, if_neg hicmp, toList_none, nil_append]
  by_cases hudp : frame.shift 14 9 = netIpv4ProtocolUdp
  · rw [if_pos hudp, echoReplies_receiveUdp]
  · rw [if_neg hudp]
    by_cases htcp : frame.shift 14 9 = netIpv4ProtocolTcp
    · rw [if_pos htcp, (moves_deliverTcp counted _ _ _).echoReplies_eq]
    · rw [if_neg htcp]

variable {s}

theorem echoReplies_receiveArp_of_tells {source : Mac} {packet : Memory}
    (h : s.arpTells source packet packetSize) :
    (s.receiveArp source packet packetSize).2.echoReplies =
      (s.arpLearn (u32At packet 14) (macAt (packet.shift 8))).waitingReply.toList ++
        s.echoReplies := by
  rcases receiveArp_of_tells h with ⟨mac, ip, heq⟩ | ⟨update, heq⟩
  · rw [heq, (sendArpReply_hands _ mac ip).echoReplies_eq, arpFrame, echoReplyDestination_arp,
      toList_none, nil_append, echoReplies_learnAndFlush]
  · rw [heq, echoReplies_flushPendingIpv4, waitingReply_count, echoReplies_count,
      echoReplies_of_mailbox (mailbox_arpLearn s _ _)]

variable {frame : Memory} {frameSize : ℕ}

theorem framePayloadSize_le
    (hvalid : ipv4HeaderIsValid (frame.shift 14) (frameSize - netEthernetHeaderSize) = true)
    (hsize : frameSize ≤ netEthernetFrameMax) : framePayloadSize frame ≤ netIpv4PayloadMax := by
  obtain ⟨-, -, hheader, -, -, htotal, -⟩ := of_decide_eq_true hvalid
  simp only [netEthernetHeaderSize, netEthernetFrameMax, netIpv4HeaderMinSize] at *
  rw [framePayloadSize, netIpv4PayloadMax]
  omega

theorem answeredReply_of_not_takesIpv4
    (h : ¬s.takesIpv4 frame frameSize = true) : s.answeredReply frame frameSize = none :=
  if_neg fun h' => h h'.1

theorem toldSender_of_not_takes
    (harp : ¬s.takesArp frame frameSize = true) (hipv4 : ¬s.takesIpv4 frame frameSize = true) :
    s.toldSender frame frameSize = none := by
  rw [toldSender, if_neg harp, if_neg fun h => hipv4 h.1]

variable (s)

/-- A frame causes the answer to its request and the reply that waits, and no other echo reply. -/
theorem echoReplies_netInput (frame : Memory) (frameSize : ℕ) :
    (s.netInput frame frameSize).2.echoReplies =
      (s.answeredReply frame frameSize).toList ++ (s.flushedReply frame frameSize).toList ++
        s.echoReplies := by
  have hsize : s.takesIpv4 frame frameSize = true → framePayloadSize frame ≤ netIpv4PayloadMax :=
    fun h => framePayloadSize_le (takesIpv4_iff.1 h).2.2.1
      (takesFrame_iff.1 (takesIpv4_iff.1 h).1).2.1
  have h := netInput_outcome s frame frameSize
  generalize (s.netInput frame frameSize).2 = s' at h ⊢
  cases h with
  | dropped arp ipv4 update =>
    rw [answeredReply_of_not_takesIpv4 ipv4, flushedReply, toldSender_of_not_takes arp ipv4,
      echoReplies_count, bind_none, toList_none, nil_append, nil_append]
  | arp arp ipv4 before after =>
    have htells : (s.count before).arpTells (macAt (frame.shift 6)) (frame.shift 14)
      (frameSize - netEthernetHeaderSize) := (takesArp_iff.1 arp).2.2
    rw [echoReplies_count, echoReplies_receiveArp_of_tells htells,
      answeredReply_of_not_takesIpv4 ipv4,
      toList_none, nil_append, ← flushedReply_count s before, flushedReply,
      show (s.count before).toldSender frame frameSize = _ from if_pos arp, bind_some,
      echoReplies_count]
  | ipv4 arp ipv4 before after =>
    rw [echoReplies_count, echoReplies_acceptIpv4 (s.count before) _ frame (hsize ipv4),
      echoReplies_learnSender, ← append_assoc, ← answeredReply_count s before,
      ← flushedReply_count s before, answeredReply, flushedReply, toldSender,
      if_neg (show ¬(s.count before).takesArp frame frameSize = true from arp), echoReplies_count]
    simp only [show (s.count before).takesIpv4 frame frameSize = true from ipv4, true_and]
    by_cases hlearn : ipv4IsUsableUnicast (frameSourceIp frame) ∧
        (s.count before).ipv4IsOnLink (frameSourceIp frame)
    · rw [if_pos hlearn, if_pos hlearn, bind_some]
    · rw [if_neg hlearn, if_neg hlearn, bind_none]

/-! ### Addresses of single hosts -/

/-- Whether an address can be that of a single host: no broadcast, no multicast, no special
range. -/
def isSingleHost (s : NetStack) (ip : UInt32) : Bool :=
  ipv4IsUsableUnicast ip && !s.ipv4IsSubnetBroadcast ip

/-- The destinations of the echo replies that a frame makes the stack hand to the link. -/
def repliesTo (s : NetStack) (frame : Memory) (frameSize : ℕ) : List UInt32 :=
  let replies := (s.netInput frame frameSize).2.echoReplies
  replies.take (replies.length - s.echoReplies.length)

theorem repliesTo_eq (frame : Memory) (frameSize : ℕ) : s.repliesTo frame frameSize =
      (s.answeredReply frame frameSize).toList ++ (s.flushedReply frame frameSize).toList := by
  rw [repliesTo, echoReplies_netInput, length_append, Nat.add_sub_cancel]
  exact take_left

variable {s}

/-- The frame holds an echo request that is answered at once, and its source is no single host. -/
def AnswersMany (s : NetStack) (frame : Memory) (frameSize : ℕ) : Prop :=
  s.takesIpv4 frame frameSize = true ∧ frame.shift 14 9 = netIpv4ProtocolIcmp ∧
    (s.requestReply (frameSourceIp frame) (u32At (frame.shift 14) 16) (framePayload frame)
      (framePayloadSize frame)).isSome = true ∧ s.isSingleHost (frameSourceIp frame) = false

/-- The frame lets an echo reply go that waits, and its destination is no single host. -/
def FlushesMany (s : NetStack) (frame : Memory) (frameSize : ℕ) : Prop :=
  ∃ ip, s.flushedReply frame frameSize = some ip ∧ s.isSingleHost ip = false

/-- Learning the sender does not change how it is answered if it is no single host. -/
theorem requestReply_learnSender {sourceIp : UInt32} (h : s.isSingleHost sourceIp = false)
    (sourceMac : Mac) (destinationIp : UInt32) (packet : Memory) (packetSize : ℕ) :
    (s.learnSender sourceIp sourceMac).requestReply sourceIp destinationIp packet packetSize =
      s.requestReply sourceIp destinationIp packet packetSize := by
  have hipv4 : (s.learnSender sourceIp sourceMac).ipv4 = s.ipv4 :=
    (sameButArp_learnSender s sourceIp sourceMac).ipv4_eq
  by_cases husable : ipv4IsUsableUnicast sourceIp = true
  · have hbroadcast : s.ipv4IsSubnetBroadcast sourceIp = true := by
      simpa [isSingleHost, husable] using h
    have hroute : (s.learnSender sourceIp sourceMac).routeIpv4 sourceIp = s.routeIpv4 sourceIp := by
      have hsubnet := ipv4IsSubnetBroadcast_congr hipv4 sourceIp
      simp only [routeIpv4, ipv4IsBroadcast, hsubnet, hbroadcast, or_true, decide_true, if_true]
    rw [requestReply, requestReply, hroute, isEchoRequest_congr hipv4]
  · rw [learnSender, if_neg fun hlearn => husable hlearn.1]

theorem requestReply_eq_some {sourceIp destinationIp ip : UInt32} {packet : Memory}
    (h : s.requestReply sourceIp destinationIp packet packetSize = some ip) :
    ip = sourceIp := by
  rw [requestReply] at h
  split at h
  · exact (some.inj h).symm
  · cases h

variable (s)

theorem answeredReply_not_single_iff (frame : Memory) (frameSize : ℕ) :
    (∃ ip, s.answeredReply frame frameSize = some ip ∧ s.isSingleHost ip = false) ↔
      s.AnswersMany frame frameSize := by
  constructor
  · rintro ⟨ip, hreply, hip⟩
    rw [answeredReply] at hreply
    split at hreply
    · rename_i htakes
      obtain rfl := requestReply_eq_some hreply
      rw [requestReply_learnSender hip] at hreply
      exact ⟨htakes.1, htakes.2, by rw [hreply]; rfl, hip⟩
    · cases hreply
  · rintro ⟨htakes, hicmp, hreply, hip⟩
    obtain ⟨ip, hsome⟩ := isSome_iff_exists.1 hreply
    obtain rfl := requestReply_eq_some hsome
    refine ⟨frameSourceIp frame, ?_, hip⟩
    rw [answeredReply, if_pos ⟨htakes, hicmp⟩, requestReply_learnSender hip, hsome]

/-- Every echo reply that a frame causes goes to a single host, unless the frame holds a request of
another source that is answered at once, or lets such a reply go that waits. -/
theorem echo_replies_are_unicast_iff (s : NetStack) (frame : Memory) (frameSize : ℕ) :
    (∀ ip ∈ s.repliesTo frame frameSize, s.isSingleHost ip = true) ↔
      ¬s.AnswersMany frame frameSize ∧ ¬s.FlushesMany frame frameSize := by
  rw [← answeredReply_not_single_iff, FlushesMany, repliesTo_eq]
  simp only [mem_append, mem_toList, or_imp, forall_and, not_exists, not_and, Bool.not_eq_false]

end NetStack

/-- An echo request to `10.0.0.2` that says it comes from `255.255.255.255`. -/
def broadcastRequest : List UInt8 :=
  ethernetFrame sampleMac (Buffer.ofFn (byteAt [2, 0, 0, 0, 0, 1])) ethertypeIpv4
    (ipv4Packet 1 uint32Max 0x0A000002 netIpv4ProtocolIcmp [8, 0, 0xF7, 0xFF, 0, 0, 0, 0])

/-- The stack answers to everybody on the link. -/
theorem NetStack.broadcast_request_is_answered :
    ipv4IsUsableUnicast (sampleStack 0).ipv4.address = true ∧
    (sampleStack 0).repliesTo (byteAt broadcastRequest) 42 = [uint32Max] ∧
    (sampleStack 0).isSingleHost uint32Max = false := by
  decide +kernel

end Nostalux.Net
