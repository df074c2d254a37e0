import Nostalux.Library.Mailbox
import Nostalux.Net.Wire

/-!
# What the stack sends

The packet that waits for ARP makes the stack a mailbox with one place (`NetStack.mailbox`), and
every call of a public function is a sequence of steps of the mailbox.  `Moves A` is this for a
stack that sends only what the policy `A` allows; for a frame and for the clock the lemmas say which
packets have to be in `A`, and which hardware addresses.

* `moves_netInput`, `moves_netTick`: received frames and the clock;
* `moves_run`: every call, for a property that all packets have.
-/

namespace Nostalux.Net

open BigEndian Mailbox NetIpv4Config NetEvent Pointer

/-- The frame is an IPv4 frame with the packet, for the given hardware address. -/
def IsFrameTo (destination : Mac) (packet : QueuedIpv4) (frame : List UInt8) : Prop :=
  ∃ source identification, frame = ethernetFrame destination source ethertypeIpv4
    (ipv4Packet identification packet.sourceIp packet.destinationIp packet.protocol packet.payload)

/-- The frame is an IPv4 frame with the packet. -/
def IsFrameOf (packet : QueuedIpv4) (frame : List UInt8) : Prop :=
  ∃ destination, IsFrameTo destination packet frame

/-- The frame is an ARP frame. -/
def IsArpFrame (frame : List UInt8) : Prop :=
  ∃ destination source payload, frame = ethernetFrame destination source ethertypeArp payload

/-- What a stack may send. -/
structure SendPolicy where
  packet : QueuedIpv4 → Prop
  /-- The hardware addresses for a packet that has waited, by its next hop. -/
  address : UInt32 → Mac → Prop

instance : CoeFun SendPolicy fun _ => QueuedIpv4 → Prop := ⟨SendPolicy.packet⟩

/-- What is sent or queued is allowed by `A`, unless it is an ARP frame. -/
def NetEvent.Emits (A : SendPolicy) : NetEvent → Prop
  | .transmit frame _ _ => IsArpFrame frame ∨ ∃ packet, A packet ∧ IsFrameOf packet frame
  | .queue _ packet => A packet
  | _ => True

/-- The rules of a stack that sends only what `A` allows. -/
def sendRules (A : SendPolicy) : Mailbox.Rules QueuedIpv4 (List UInt8 × UInt32) NetEvent where
  Admits := A
  Carries packet handed := handed.2 = packet.nextHopIp ∧
    ∃ mac, A.address packet.nextHopIp mac ∧ IsFrameTo mac packet handed.1
  limit := 3
  Foreign := NetEvent.Emits A

/-- What an event means for the mailbox. -/
def NetEvent.logEntry : NetEvent → Mailbox.Record QueuedIpv4 (List UInt8 × UInt32) NetEvent
  | .queue ticket packet => .accept ticket packet
  | .transmit frame ok (.queued ticket nextHopIp) => .attempt ticket (frame, nextHopIp) ok
  | .transmit frame ok (.resolving ticket) =>
    .request ticket (.transmit frame ok (.resolving ticket))
  | event => .other event

theorem NetEvent.logEntry_injective : Function.Injective logEntry := by
  intro event event' h
  cases event with
  | transmit frame ok cause =>
    cases event' with
    | transmit frame' ok' cause' => cases cause <;> cases cause' <;> cases h <;> rfl
    | _ => cases cause <;> cases h
  | _ =>
    cases event' with
    | transmit frame' ok' cause' => cases cause' <;> cases h
    | _ => cases h <;> rfl

theorem NetEvent.emits_of_allows {A : SendPolicy} {event : NetEvent}
    (h : (sendRules A).Allows event.logEntry) : event.Emits A := by
  cases event with
  | transmit frame ok cause =>
    cases cause with
    | direct => exact h
    | resolving ticket => exact h
    | queued ticket nextHopIp =>
      obtain ⟨packet, hA, -, mac, -, hframe⟩ := h
      exact .inr ⟨packet, hA, mac, hframe⟩
  | _ => exact h

namespace NetStack

/-- The packet that waits for ARP. -/
def waitingPacket (s : NetStack) : QueuedIpv4 :=
  s.ipv4.packet s.pendingIpv4.destinationIp s.pendingIpv4.nextHopIp s.pendingIpv4.protocol
    s.pendingIpv4.payload

/-- The place of the mailbox. -/
def waiting (s : NetStack) : Option (Mailbox.Held QueuedIpv4) :=
  if s.pendingIpv4.valid then
    some ⟨s.pendingIpv4.ticket, s.waitingPacket, s.pendingIpv4.arpAttempts.toNat⟩
  else none

/-- The stack as a mailbox. -/
def mailbox (s : NetStack) : Mailbox QueuedIpv4 (List UInt8 × UInt32) NetEvent :=
  ⟨s.waiting, s.queued, s.events.map NetEvent.logEntry⟩

/-- `A` allows the hardware addresses in the ARP table. -/
def Addresses (A : SendPolicy) (s : NetStack) : Prop :=
  ∀ nextHopIp mac, s.netArpLookup nextHopIp = some mac → A.address nextHopIp mac

variable {s s' s₁ s₂ s₃ : NetStack} {A : SendPolicy}

theorem Addresses.of_arp (h : Addresses A s) (harp : s'.arp = s.arp) : Addresses A s' := by
  intro nextHopIp mac hlookup
  rw [netArpLookup, arpFind, harp] at hlookup
  exact h nextHopIp mac hlookup

theorem waiting_of_valid (h : s.pendingIpv4.valid = true) :
    s.waiting = some ⟨s.pendingIpv4.ticket, s.waitingPacket, s.pendingIpv4.arpAttempts.toNat⟩ :=
  if_pos h

theorem waiting_of_not_valid (h : s.pendingIpv4.valid = false) : s.waiting = none :=
  if_neg (by simp [h])

section

variable (hpending : s'.pendingIpv4 = s.pendingIpv4) (hpacket : s'.ipv4.packet = s.ipv4.packet)
include hpending hpacket

theorem waiting_congr : s'.waiting = s.waiting := by
  rw [waiting, waiting, waitingPacket, waitingPacket, hpending, hpacket]

theorem mailbox_congr (hqueued : s'.queued = s.queued)
    (hevents : s'.events = s.events) : s'.mailbox = s.mailbox := by
  rw [mailbox, mailbox, waiting_congr hpending hpacket, hqueued, hevents]

end

/-! ### Parts of the stack that do not matter -/

theorem Resolves.mailbox_eq (h : s.Resolves s') : s'.mailbox = s.mailbox :=
  mailbox_congr h.pending (congrArg packet h.same.ipv4_eq) h.queued h.events

variable (s)

@[simp] theorem mailbox_withArp (arp : Fin 8 → NetArpEntry) :
    (s.withArp arp).mailbox = s.mailbox := rfl

@[simp] theorem mailbox_withDhcp (dhcp : NetDhcpClient) :
    (s.withDhcp dhcp).mailbox = s.mailbox := rfl

@[simp] theorem mailbox_withDns (dns : NetDnsClient) : (s.withDns dns).mailbox = s.mailbox := rfl

@[simp] theorem mailbox_withDnsCache (cache : Fin 8 → NetDnsCacheEntry) :
    (s.withDnsCache cache).mailbox = s.mailbox := rfl

@[simp] theorem mailbox_count (update : NetStats → NetStats) :
    (s.count update).mailbox = s.mailbox := rfl

@[simp] theorem mailbox_dnsCacheExpire : s.dnsCacheExpire.mailbox = s.mailbox := rfl

@[simp] theorem mailbox_dnsEnd (state : NetDnsState) : (s.dnsEnd state).mailbox = s.mailbox := rfl

@[simp] theorem mailbox_arpLearn (ip : UInt32) (mac : Mac) :
    (s.arpLearn ip mac).mailbox = s.mailbox := by
  unfold arpLearn
  split
  · rfl
  · rw [mailbox_withArp]

variable {s}

/-! ### Steps of the mailbox -/

/-- `s'` is reached by steps of the mailbox, and only what `A` allows is sent. -/
def Moves (A : SendPolicy) (s s' : NetStack) : Prop :=
  Mailbox.Steps (sendRules A) s.mailbox s'.mailbox

theorem Moves.of_eq (h : s'.mailbox = s.mailbox) : Moves A s s' := by
  rw [Moves, h]

theorem Moves.refl (A : SendPolicy) (s : NetStack) : Moves A s s := .of_eq rfl

theorem Moves.single (h : Step (sendRules A) s.mailbox s'.mailbox) : Moves A s s' :=
  Relation.ReflTransGen.single h

theorem Moves.trans (h : Moves A s₁ s₂) (h' : Moves A s₂ s₃) : Moves A s₁ s₃ :=
  Relation.ReflTransGen.trans h h'

variable {result : Bool × NetStack}

theorem Moves.of_count {update : NetStats → NetStats} (h : Moves A (s.count update) s') :
    Moves A s s' := h

theorem slot_eq_some_iff {held : Held QueuedIpv4} :
    s.mailbox.slot = some held ↔ s.pendingIpv4.valid = true ∧
      ⟨s.pendingIpv4.ticket, s.waitingPacket, s.pendingIpv4.arpAttempts.toNat⟩ = held := by
  rw [show s.mailbox.slot = s.waiting from rfl, waiting]
  split
  · rename_i hvalid
    simp [hvalid]
  · rename_i hvalid
    simp [hvalid]

/-- If the packet that waits is allowed or cannot be sent, then everything that is sent is
allowed. -/
theorem Moves.allows (h : Moves A s s') (hwaiting : s.pendingIpv4.valid = true →
      ∀ mac, A.address s.pendingIpv4.nextHopIp mac → A s.waitingPacket) :
    ∃ events, s'.events = events ++ s.events ∧
      ∀ event ∈ events, (sendRules A).Allows event.logEntry := by
  have hadmitted : Admitted (sendRules A) s.mailbox := by
    rintro held frame hslot ⟨-, mac, hmac, -⟩
    obtain ⟨hvalid, rfl⟩ := slot_eq_some_iff.1 hslot
    exact hwaiting hvalid mac hmac
  obtain ⟨-, log, hlog, hallows⟩ := allows_of_steps hadmitted h
  obtain ⟨events, older, hevents, rfl, holder⟩ := List.map_eq_append_iff.1 hlog
  rw [List.map_injective_iff.2 logEntry_injective holder] at hevents
  exact ⟨events, hevents, fun event hmem => hallows _ (List.mem_map_of_mem hmem)⟩

/-- The place is emptied. -/
theorem moves_drop (hvalid : s'.pendingIpv4.valid = false) (hqueued : s'.queued = s.queued)
    (hevents : s'.events = s.events) : Moves A s s' := by
  apply Moves.single
  have h : s'.mailbox = { s.mailbox with slot := none } := by
    rw [mailbox, mailbox, waiting_of_not_valid hvalid, hqueued, hevents]
  rw [h]
  exact .drop

theorem Builds.moves (h : s.Builds s') : Moves A s s' :=
  .of_eq (mailbox_congr h.pending (congrArg packet (ipv4_of_control h.control)) h.queued
    h.events)

/-- The mailbox after a frame was handed to the link. -/
theorem Hands.mailbox_eq {frame : List UInt8} {cause : NetCause}
    (h : s.Hands frame cause result) : result.2.mailbox =
      { s.mailbox with
        log := logEntry (.transmit frame result.1 cause) :: s.mailbox.log } := by
  rw [mailbox, mailbox, waiting_congr h.pending (congrArg packet (ipv4_of_control h.control)),
    h.queued, h.events, List.map_cons]

theorem Hands.moves {frame : List UInt8} (h : s.Hands frame .direct result)
    (hframe : IsArpFrame frame ∨ ∃ packet, A packet ∧ IsFrameOf packet frame) :
    Moves A s result.2 := by
  apply Moves.single
  rw [h.mailbox_eq]
  exact .other _ hframe

variable (s)

theorem isArpFrame_arpFrame (destination : Mac) (operation : UInt16)
    (targetMac : Mac) (targetIp : UInt32) :
    IsArpFrame (s.arpFrame destination operation targetMac targetIp) := ⟨_, _, _, rfl⟩

theorem isFrameTo_ipv4Frame (identification : UInt16) (destination : Mac)
    (destinationIp nextHopIp : UInt32) (protocol : UInt8) (data : List UInt8) :
    IsFrameTo destination (s.ipv4.packet destinationIp nextHopIp protocol data)
      (s.ipv4Frame identification destination destinationIp protocol data) := ⟨_, _, rfl⟩

theorem moves_netArpRequest (ip : UInt32) : Moves A s (s.netArpRequest .direct ip).2 := by
  rcases netArpRequest_cases s .direct ip with h | h
  · rw [h]
    exact .refl A s
  · exact h.moves (.inl (isArpFrame_arpFrame s _ _ _ _))

theorem moves_sendArpReply (mac : Mac) (ip : UInt32) : Moves A s (s.sendArpReply mac ip).2 :=
  (sendArpReply_hands s mac ip).moves (.inl (isArpFrame_arpFrame s _ _ _ _))

variable {s}

theorem FlushOutcome.moves (h : s.FlushOutcome s') (hA : Addresses A s) : Moves A s s' := by
  cases h with
  | quiet h => exact .refl A s
  | oversized hsize hpending hs' =>
    rw [hs', hpending]
    exact .of_eq rfl
  | @handed s₁ _ pending identification mac ok valid lookup _ hands hpending hs' =>
    have hslot : s.mailbox.slot = some ⟨s.pendingIpv4.ticket, s.waitingPacket, _⟩ :=
      waiting_of_valid valid
    have hcarries : (sendRules A).Carries s.waitingPacket
        (s.ipv4Frame identification mac s.pendingIpv4.destinationIp s.pendingIpv4.protocol
          s.pendingIpv4.payload, s.pendingIpv4.nextHopIp) :=
      ⟨rfl, mac, hA _ mac lookup, isFrameTo_ipv4Frame s _ _ _ _ _ _⟩
    have hmailbox := hands.mailbox_eq
    apply Moves.single
    rw [hs']
    cases ok with
    | true =>
      have h : (s₁.withPending pending).mailbox = { s₁.mailbox with slot := none } := by
        rw [mailbox, waiting_of_not_valid (by rw [hpending]; rfl)]
        rfl
      rw [h, hmailbox]
      exact .taken hslot hcarries
    | false =>
      have h : (s₁.withPending pending).mailbox = s₁.mailbox := by
        have hold : s₁.pendingIpv4 = s.pendingIpv4 := hands.pending
        rw [mailbox, mailbox, waiting, waiting, waitingPacket, waitingPacket,
          withPending_pendingIpv4, hpending, hold]
        rfl
      rw [h, hmailbox]
      exact .refused hslot hcarries

theorem moves_flushPendingIpv4 (hA : Addresses A s) : Moves A s s.flushPendingIpv4.2 :=
  (flushOutcome_flushPendingIpv4 s).moves hA

/-- Asking once more for the next hop of the packet that waits. -/
theorem moves_ask (hvalid : s.pendingIpv4.valid = true)
    (hlt : s.pendingIpv4.arpAttempts.toNat < 3) {pending : NetPendingIpv4}
    (hpending : ∃ arpRequestedMs, pending = { s.pendingIpv4 with
      arpRequestedMs := arpRequestedMs, arpAttempts := s.pendingIpv4.arpAttempts + 1 })
    (ip : UInt32) :
    Moves A s ((s.withPending pending).netArpRequest (.resolving s.pendingIpv4.ticket) ip).2 := by
  obtain ⟨arpRequestedMs, hpending⟩ := hpending
  have hslot : s.mailbox.slot = some ⟨s.pendingIpv4.ticket, s.waitingPacket, _⟩ :=
    waiting_of_valid hvalid
  have hmailbox : (s.withPending pending).mailbox =
      { s.mailbox with slot := some ⟨s.pendingIpv4.ticket, s.waitingPacket,
        s.pendingIpv4.arpAttempts.toNat + 1⟩ } := by
    have hattempts : pending.arpAttempts.toNat = s.pendingIpv4.arpAttempts.toNat + 1 := by
      rw [hpending]
      exact (UInt32.toNat_add _ _).trans (Nat.mod_eq_of_lt (by simp; omega))
    rw [mailbox, waiting_of_valid (by rw [withPending_pendingIpv4, hpending]; exact hvalid),
      withPending_pendingIpv4, hattempts, hpending]
    rfl
  apply Moves.single
  rcases netArpRequest_cases (s.withPending pending) (.resolving s.pendingIpv4.ticket) ip with h | h
  · rw [h, hmailbox]
    exact .forgo hslot hlt
  · rw [h.mailbox_eq, hmailbox]
    exact .request hslot hlt _ (.inl (isArpFrame_arpFrame _ _ _ _ _))

/-! ### Sending -/

theorem Queues.moves {packet : QueuedIpv4} (h : s.Queues packet s')
    (hfree : s.pendingIpv4.valid = false)
    (hpacket : packet = s.ipv4.packet packet.destinationIp packet.nextHopIp packet.protocol
      packet.payload) (hA : A packet) : Moves A s s' := by
  have haccept : Step (sendRules A) s.mailbox _ :=
    .accept packet (waiting_of_not_valid hfree) hA
  have hwaiting : s'.waiting = some ⟨s.queued, packet, 1⟩ := by
    have hipv4 : s'.ipv4 = s.ipv4 := ipv4_of_control h.control
    have hpending := h.pending
    rw [waiting_of_valid (by rw [hpending]), waitingPacket, hpending, hipv4, ← hpacket]
    rfl
  refine Relation.ReflTransGen.trans (.single haccept) (.single ?_)
  rcases h.events with hevents | ⟨ok, hevents⟩
  · have hmailbox : s'.mailbox = ⟨some ⟨s.queued, packet, 1⟩, s.queued + 1,
        .accept s.queued packet :: s.mailbox.log⟩ := by
      rw [mailbox, hwaiting, h.queued, hevents]
      rfl
    rw [hmailbox]
    exact @Step.forgo _ _ _ (sendRules A) _ ⟨s.queued, packet, 0⟩ rfl (Nat.succ_pos 2)
  · have hmailbox : s'.mailbox = ⟨some ⟨s.queued, packet, 1⟩, s.queued + 1,
        .request s.queued (.transmit (s.arpFrame macBroadcast 1 Buffer.zero packet.nextHopIp) ok
          (.resolving s.queued)) :: .accept s.queued packet :: s.mailbox.log⟩ := by
      rw [mailbox, hwaiting, h.queued, hevents]
      rfl
    rw [hmailbox]
    exact @Step.request _ _ _ (sendRules A) _ ⟨s.queued, packet, 0⟩ rfl (Nat.succ_pos 2) _
      (.inl (isArpFrame_arpFrame s _ _ _ _))

theorem SendOutcome.moves {destinationIp : UInt32} {protocol : UInt8} {data : List UInt8}
    {result : NetSendResult} (h : s.SendOutcome destinationIp protocol data result s')
    (hA : ∀ nextHopIp, A (s.ipv4.packet destinationIp nextHopIp protocol data)) :
    Moves A s s' := by
  cases h with
  | refused builds => exact builds.moves
  | handed route hands =>
    exact hands.moves (.inr ⟨_, hA destinationIp, _, isFrameTo_ipv4Frame s _ _ _ _ _ _⟩)
  | queued route free queues => exact queues.moves free rfl (hA _)

variable (s)

theorem moves_netIpv4Send (destinationIp : UInt32) (protocol : UInt8)
    {payload : Pointer} (hbehind : payload.Behind) (payloadSize : ℕ)
    (hA : ∀ nextHopIp data, A (s.ipv4.packet destinationIp nextHopIp protocol data)) :
    Moves A s (s.netIpv4Send destinationIp protocol payload payloadSize).2 :=
  (sendOutcome_netIpv4Send s destinationIp protocol hbehind payloadSize).moves fun _ => hA _ _

theorem moves_netUdpSend (destinationIp : UInt32)
    (destinationPort sourcePort : UInt16) {data : Pointer} (houtside : data.Outside)
    (dataSize : ℕ) (hA : ∀ nextHopIp data, A (s.ipv4.packet destinationIp nextHopIp
      netIpv4ProtocolUdp (udpPacket s.ipv4.address destinationIp sourcePort destinationPort
        data))) :
    Moves A s (s.netUdpSend destinationIp destinationPort sourcePort data dataSize).2 :=
  (sendOutcome_netUdpSend s destinationIp destinationPort sourcePort houtside dataSize).moves
    fun _ => hA _ _

theorem moves_netIcmpEchoRequest (destinationIp : UInt32)
    (identifier sequence : UInt16) (payload : Pointer) (payloadSize : ℕ)
    (hA : ∀ nextHopIp data, A (s.ipv4.packet destinationIp nextHopIp netIpv4ProtocolIcmp data)) :
    Moves A s (s.netIcmpEchoRequest destinationIp identifier sequence payload payloadSize).2 := by
  obtain ⟨data, h⟩ :=
    sendOutcome_netIcmpEchoRequest s destinationIp identifier sequence payload payloadSize
  exact h.moves fun nextHopIp => hA nextHopIp data

theorem builds_buildEchoReply (packet : Memory) (packetSize : ℕ) :
    s.Builds (s.buildEchoReply packet packetSize) := by
  unfold buildEchoReply
  dsimp only
  generalize hbuilt : ((s.copy 34 (.external packet) packetSize).write 34 [0]).write 36
    (writeU16 0) = built
  have hbuilds : s.Builds built := by
    rw [← hbuilt]
    exact ((builds_copy s _ _ _).trans (builds_write _ _ _)).trans (builds_write _ _ _)
  generalize internetChecksum (built.transmitFrame.shift 34) packetSize = checksum
  exact (hbuilds.trans (builds_write built 36 (writeU16 checksum))).trans (builds_count _ _)

theorem sendOutcome_icmpEchoReply (sourceIp : UInt32) (packet : Memory) (packetSize : ℕ) :
    s.SendOutcome sourceIp netIpv4ProtocolIcmp
      (((s.buildEchoReply packet packetSize).transmitFrame.shift 34).bytes packetSize)
      (s.icmpEchoReply sourceIp packet packetSize).1
      (s.icmpEchoReply sourceIp packet packetSize).2 :=
  (sendOutcome_netIpv4Send (s.buildEchoReply packet packetSize) sourceIp netIpv4ProtocolIcmp
    (show Behind (.transmit 34) from le_refl 34) packetSize).of_builds
    (builds_buildEchoReply s packet packetSize)

/-! ### The configuration and the clients -/

theorem moves_netClearIpv4 : Moves A s s.netClearIpv4 := by
  unfold netClearIpv4
  split
  · exact moves_drop rfl rfl rfl
  · exact moves_drop rfl rfl rfl

theorem moves_netConfigureIpv4 (config : NetIpv4Config) :
    Moves A s (s.netConfigureIpv4 config) := by
  unfold netConfigureIpv4
  dsimp only
  by_cases hchanged : s.networkChanged config = true
  · rw [if_pos hchanged, hchanged, Bool.true_or, if_pos rfl]
    exact moves_drop rfl rfl rfl
  · rw [if_neg hchanged]
    have hpacket : config.packet = s.ipv4.packet := by
      simp only [networkChanged, decide_eq_true_eq] at hchanged
      push Not at hchanged
      funext destinationIp nextHopIp protocol payload
      rw [packet, packet, hchanged.1, hchanged.2.1, hchanged.2.2]
    have h : Moves A s (s.withIpv4 config) := .of_eq (mailbox_congr rfl hpacket rfl rfl)
    split
    · exact h.trans (.of_eq (mailbox_withDnsCache _ _))
    · exact h

/-- `A` allows the messages of the DHCP client. -/
def AdmitsDhcp (A : SendPolicy) : Prop :=
  ∀ (config : NetIpv4Config) destinationIp nextHopIp data, A (config.packet destinationIp nextHopIp
    netIpv4ProtocolUdp
    (udpPacket config.address destinationIp dhcpClientPort dhcpServerPort data))

section

variable (hA : AdmitsDhcp A) (s : NetStack)
include hA

theorem moves_dhcpSendMessage (messageType : UInt8)
    (usingActiveLease : Bool) : Moves A s (s.dhcpSendMessage messageType usingActiveLease).2 := by
  unfold dhcpSendMessage
  split
  · exact .refl A s
  split
  · exact .refl A s
  · rename_i packet _ _
    have h := moves_netUdpSend (A := A) s s.dhcpDestination dhcpServerPort dhcpClientPort
      (show Outside (.external (byteAt (packet ++ [255]))) from trivial)
      (packet.length + 1) fun nextHopIp data => hA s.ipv4 _ nextHopIp data
    exact h.trans (.of_eq (mailbox_withDhcp _ _))

theorem moves_netDhcpStart (transactionId : UInt32) : Moves A s (s.netDhcpStart transactionId) := by
  unfold netDhcpStart
  refine (moves_netClearIpv4 s).trans (.trans ?_ (moves_dhcpSendMessage hA _ _ _))
  exact .of_eq (mailbox_withDhcp _ _)

theorem moves_dhcpRestart : Moves A s s.dhcpRestart := by
  unfold dhcpRestart
  exact moves_netDhcpStart hA s _

theorem moves_dhcpReceiveOffer (options : DhcpOptions)
    (offeredIp serverIp : UInt32) : Moves A s (s.dhcpReceiveOffer options offeredIp serverIp) := by
  unfold dhcpReceiveOffer
  exact .trans (.of_eq (mailbox_withDhcp s _)) (moves_dhcpSendMessage hA _ _ _)

theorem moves_dhcpReceive (sourceIp : UInt32) (packet : Memory)
    (packetSize : ℕ) : Moves A s (s.dhcpReceive sourceIp packet packetSize).2 := by
  unfold dhcpReceive
  split
  · exact .refl A s
  split
  · exact .refl A s
  rename_i options _
  unfold dhcpDispatch
  dsimp only
  split
  · dsimp only
    exact moves_dhcpReceiveOffer hA s _ _ _
  split
  · split
    · exact .refl A s
    · dsimp only
      exact moves_dhcpRestart hA s
  split
  · exact .refl A s
  split
  · exact .refl A s
  unfold dhcpReceiveAck
  dsimp only
  split
  · exact .refl A s
  have hstored : Moves A s (s.dhcpStoreLease (options.serverIdentifier.getD sourceIp)
      (s.dhcpAckLease options)) := .of_eq (mailbox_withDhcp s _)
  generalize s.dhcpStoreLease _ _ = stored at hstored ⊢
  split
  · exact hstored
  · exact hstored.trans ((moves_netConfigureIpv4 stored _).trans (.of_eq (mailbox_withDhcp _ _)))

end

/-- `A` allows the query of the resolver. -/
def AdmitsQuery (A : SendPolicy) (s : NetStack) : Prop :=
  ∀ nextHopIp data, A (s.ipv4.packet s.ipv4.dns nextHopIp netIpv4ProtocolUdp
    (udpPacket s.ipv4.address s.ipv4.dns s.dns.sourcePort dnsServerPort data))

theorem moves_dnsSendQuery (hA : AdmitsQuery A s) : Moves A s s.dnsSendQuery.2 := by
  unfold dnsSendQuery
  split
  · exact .refl A s
  split
  · exact .refl A s
  · rename_i name _ _
    have h := moves_netUdpSend (A := A) s s.ipv4.dns dnsServerPort s.dns.sourcePort
      (show Outside (.external (byteAt (s.dnsQueryMessage name))) from trivial)
      (dnsHeaderSize + name.length + 4) hA
    exact h.trans (.of_eq (mailbox_withDns _ _))

theorem moves_netDnsCancel : Moves A s s.netDnsCancel.2 := by
  unfold netDnsCancel
  split
  · exact .refl A s
  split
  · exact moves_drop rfl rfl rfl
  · exact .of_eq (mailbox_withDns _ _)

/-! ### Received frames -/

section

variable {ip : UInt32} {mac : Mac} (hA : Addresses A (s.arpLearn ip mac))
include hA

theorem moves_learnAndFlush : Moves A s (s.learnAndFlush ip mac) :=
  Moves.trans (.of_eq (mailbox_arpLearn s ip mac)) (moves_flushPendingIpv4 hA)

theorem moves_learnSender : Moves A s (s.learnSender ip mac) := by
  unfold learnSender
  split
  · exact moves_learnAndFlush s hA
  · exact .refl A s

end

theorem moves_receiveArp (source : Mac) (packet : Memory) (packetSize : ℕ)
    (hA : Addresses A (s.arpLearn (u32At packet 14) (macAt (packet.shift 8)))) :
    Moves A s (s.receiveArp source packet packetSize).2 := by
  by_cases htells : s.arpTells source packet packetSize
  · rcases receiveArp_of_tells htells with ⟨mac, ip, heq⟩ | ⟨update, heq⟩
    · rw [heq]
      exact (moves_learnAndFlush s hA).trans (moves_sendArpReply _ _ _)
    · rw [heq]
      have hlearn : Moves A s (s.arpLearn (u32At packet 14) (macAt (packet.shift 8))) :=
        .of_eq (mailbox_arpLearn s _ _)
      exact hlearn.trans (.of_count (moves_flushPendingIpv4 (hA.of_arp (count_arp _ update))))
  · rw [receiveArp_of_not_tells htells]
    exact .refl A s

theorem moves_receiveIcmp (sourceIp destinationIp : UInt32) (packet : Memory)
    (packetSize : ℕ) (hA : s.isEchoRequest destinationIp packet = true → ∀ nextHopIp data,
      A (s.ipv4.packet sourceIp nextHopIp netIpv4ProtocolIcmp data)) :
    Moves A s (s.receiveIcmp sourceIp destinationIp packet packetSize).2 := by
  unfold receiveIcmp
  split
  · exact .refl A s
  split
  · rename_i hrequest
    exact (sendOutcome_icmpEchoReply s sourceIp packet packetSize).moves
      fun nextHopIp => hA hrequest nextHopIp _
  split
  · exact .of_eq (mailbox_congr rfl rfl rfl rfl)
  · exact .refl A s

theorem moves_deliverUdp (datagram : NetUdpDatagram) : Moves A s (s.deliverUdp datagram).2 := by
  unfold deliverUdp
  split
  · exact .refl A s
  · rename_i handler _
    have h : Step (sendRules A) s.mailbox (s.record (.udp handler datagram)).mailbox :=
      .other (udp handler datagram) trivial
    exact .single h

theorem moves_deliverTcp (sourceIp destinationIp : UInt32) (payload : List UInt8) :
    Moves A s (s.deliverTcp sourceIp destinationIp payload).2 := by
  unfold deliverTcp
  split
  · exact .refl A s
  · rename_i handler _
    have h : Step (sendRules A) s.mailbox
        (s.record (.tcp handler sourceIp destinationIp payload)).mailbox :=
      .other (tcp handler sourceIp destinationIp payload) trivial
    exact .single h

variable {s}

theorem moves_receiveUdp (hA : AdmitsDhcp A) (s : NetStack) (sourceIp destinationIp : UInt32)
    (packet : Memory) (packetSize : ℕ) :
    Moves A s (s.receiveUdp sourceIp destinationIp packet packetSize).2 := by
  unfold receiveUdp
  split
  · exact .refl A s
  dsimp only
  split
  · exact .refl A s
  split
  · exact .of_count (moves_dhcpReceive hA _ _ _ _)
  split
  · exact .of_count (.of_eq (resolves_dnsReceive _ _ _ _ _ _).mailbox_eq)
  · exact .of_count (moves_deliverUdp _ _)

/-- `A` allows the answer to an echo request in the frame. -/
def AdmitsEcho (A : SendPolicy) (s : NetStack) (frame : Memory) : Prop :=
  s.isEchoRequest (u32At (frame.shift 14) 16) (framePayload frame) = true → ∀ nextHopIp data,
    A (s.ipv4.packet (frameSourceIp frame) nextHopIp netIpv4ProtocolIcmp data)

theorem isEchoRequest_congr (h : s'.ipv4 = s.ipv4) (destinationIp : UInt32) (packet : Memory) :
    s'.isEchoRequest destinationIp packet = s.isEchoRequest destinationIp packet := by
  rw [isEchoRequest, isEchoRequest, h]

theorem AdmitsEcho.congr {frame : Memory} (h : AdmitsEcho A s frame) (hipv4 : s'.ipv4 = s.ipv4) :
    AdmitsEcho A s' frame := by
  intro hrequest
  rw [isEchoRequest_congr hipv4] at hrequest
  rw [hipv4]
  exact h hrequest

theorem moves_acceptIpv4 (hdhcp : AdmitsDhcp A) (s : NetStack) (sourceMac : Mac) (frame : Memory)
    (hecho : AdmitsEcho A s frame) (hA : Addresses A (s.arpLearn (frameSourceIp frame) sourceMac)) :
    Moves A s (s.acceptIpv4 sourceMac (frame.shift 14)).2 := by
  unfold acceptIpv4
  dsimp only
  have hlearn := moves_learnSender s hA
  have hsame := sameButArp_learnSender s (frameSourceIp frame) sourceMac
  refine hlearn.trans ?_
  unfold receivePayload
  split
  · exact .of_count (moves_receiveIcmp _ _ _ _ _ (hecho.congr (by rw [count_ipv4, hsame.ipv4_eq])))
  split
  · exact .of_count (moves_receiveUdp hdhcp _ _ _ _ _)
  split
  · exact .of_count (moves_deliverTcp _ _ _ _)
  · exact .of_count (.refl A _)

/-- The stack once it has learned who sent the frame. -/
def senderLearned (s : NetStack) (frame : Memory) : NetStack :=
  if u16At frame 12 = ethertypeArp then
    s.arpLearn (u32At (frame.shift 14) 14) (macAt ((frame.shift 14).shift 8))
  else s.arpLearn (frameSourceIp frame) (macAt (frame.shift 6))

theorem Addresses.count {ip : UInt32} {mac : Mac} (h : Addresses A (s.arpLearn ip mac))
    (update : NetStats → NetStats) : Addresses A ((s.count update).arpLearn ip mac) := by
  refine h.of_arp ?_
  unfold arpLearn
  split <;> rfl

/-- Whatever a frame makes the stack send is a DHCP message, an answer to an echo request or the
packet that waits. -/
theorem moves_netInput (hdhcp : AdmitsDhcp A) (s : NetStack) (frame : Memory) (frameSize : ℕ)
    (hecho : AdmitsEcho A s frame) (hA : Addresses A (s.senderLearned frame)) :
    Moves A s (s.netInput frame frameSize).2 := by
  have hcount (s : NetStack) (update : NetStats → NetStats) : Moves A s (s.count update) :=
    .of_eq (mailbox_count s update)
  have h := netInput_outcome s frame frameSize
  generalize (s.netInput frame frameSize).2 = s' at h
  cases h with
  | dropped arp ipv4 update => exact hcount s update
  | arp arp ipv4 before after =>
    refine (hcount s before).trans (.trans ?_ (hcount _ after))
    rw [senderLearned, if_pos (takesArp_iff.1 arp).2.1] at hA
    exact moves_receiveArp (s.count before) _ _ _ (hA.count before)
  | ipv4 arp ipv4 before after =>
    refine (hcount s before).trans (.trans ?_ (hcount _ after))
    have htype : ¬u16At frame 12 = ethertypeArp := by
      rw [(takesIpv4_iff.1 ipv4).2.1]
      decide
    rw [senderLearned, if_neg htype] at hA
    exact moves_acceptIpv4 hdhcp (s.count before) _ frame (hecho.congr (count_ipv4 s before))
      (hA.count before)

/-! ### The clock -/

variable (s)

theorem moves_tickPendingArp (hA : Addresses A s) : Moves A s s.tickPendingArp := by
  unfold tickPendingArp
  dsimp only
  split
  · exact .refl A s
  rename_i hvalid
  split
  · exact .refl A s
  split
  · split
    · exact moves_drop rfl rfl rfl
    · exact moves_flushPendingIpv4 hA
  split
  · exact moves_drop rfl rfl rfl
  · rename_i hattempts
    have hlt : s.pendingIpv4.arpAttempts.toNat < 3 :=
      UInt32.lt_iff_toNat_lt.1 (UInt32.not_le.1 hattempts)
    exact moves_ask (by simpa using hvalid) hlt ⟨_, rfl⟩ _

theorem moves_dhcpRetry (hA : AdmitsDhcp A) (s : NetStack) : Moves A s s.dhcpRetry := by
  unfold dhcpRetry
  split
  · exact .refl A s
  split
  · exact moves_dhcpSendMessage hA s _ _
  · exact moves_dhcpSendMessage hA s _ _
  · exact moves_dhcpSendMessage hA s _ _
  · exact moves_dhcpSendMessage hA s _ _
  · exact .refl A s

theorem moves_tickDhcp (hA : AdmitsDhcp A) (s : NetStack) : Moves A s s.tickDhcp := by
  have hagain : ∀ state, Moves A s (s.dhcpRequestAgain state) := fun state =>
    Moves.trans (.of_eq (mailbox_withDhcp s _)) (moves_dhcpSendMessage hA _ _ _)
  unfold tickDhcp
  split
  · exact .refl A s
  · split
    · exact moves_dhcpRestart hA s
    split
    · exact hagain .renewing
    · exact .refl A s
  · split
    · exact moves_dhcpRestart hA s
    split
    · exact hagain .rebinding
    · exact moves_dhcpRetry hA s
  · split
    · exact moves_dhcpRestart hA s
    · exact moves_dhcpRetry hA s
  · exact moves_dhcpRetry hA s

theorem moves_tickDns (hA : s.dns.state = .pending → AdmitsQuery A s) : Moves A s s.tickDns := by
  unfold tickDns
  split
  · exact .refl A s
  rename_i hpending
  split
  · exact .of_eq (mailbox_dnsEnd s _)
  · exact moves_dnsSendQuery s (hA (by_contra fun h => hpending (.inl h)))

theorem mailbox_tickEcho : s.tickEcho.mailbox = s.mailbox := by
  unfold tickEcho
  split <;> rfl

/-- Whatever the clock makes the stack send is a DHCP message, a query of the resolver or the packet
that waits. -/
theorem moves_netTick (hdhcp : AdmitsDhcp A) (s : NetStack) (nowMs : UInt64)
    (hquery : ∀ s' : NetStack,
      s' = (s.withTime nowMs).dnsCacheExpire.arpExpire.tickPendingArp.tickDhcp →
      s'.dns.state = .pending → AdmitsQuery A s')
    (hA : Addresses A (s.withTime nowMs).dnsCacheExpire.arpExpire) :
    Moves A s (s.netTick nowMs) := by
  unfold netTick
  have hexpire : Moves A s (s.withTime nowMs).dnsCacheExpire.arpExpire := .of_eq rfl
  generalize (s.withTime nowMs).dnsCacheExpire.arpExpire = expired at hexpire hquery hA ⊢
  have hdhcp := (hexpire.trans (moves_tickPendingArp expired hA)).trans (moves_tickDhcp hdhcp _)
  generalize expired.tickPendingArp.tickDhcp = ticked at hdhcp hquery ⊢
  exact (hdhcp.trans (moves_tickDns ticked (hquery ticked rfl))).trans (.of_eq (mailbox_tickEcho _))

/-! ### Every call -/

theorem moves_netDnsQuery (hA : ∀ packet, A packet) (s : NetStack) (name : Option CString)
    (transactionId : UInt16) : Moves A s (s.netDnsQuery name transactionId).2 := by
  have hbegin : ∀ (s : NetStack) (name : CString),
      Moves A s (s.dnsBeginQuery name transactionId).2 := by
    intro s name
    unfold dnsBeginQuery
    split
    · exact .of_eq rfl
    · have hask : Moves A s (s.dnsCountMiss.dnsAsk name (s.dnsTransactionId transactionId)) :=
        .of_eq rfl
      exact hask.trans (moves_dnsSendQuery _ fun _ _ => hA _)
  unfold netDnsQuery
  split
  · exact .refl A s
  rename_i name _
  refine Moves.trans (.of_eq (mailbox_dnsCacheExpire s)) ?_
  generalize s.dnsCacheExpire = expired
  unfold dnsLookUp
  split
  · exact hbegin expired name
  dsimp only
  split
  · exact .of_eq rfl
  · exact hbegin expired name

theorem mailbox_netUdpBind (port : UInt16) (handler : Option NetHandler) :
    (s.netUdpBind port handler).2.mailbox = s.mailbox := by
  unfold netUdpBind
  split
  · rfl
  split
  · rfl
  split <;> rfl

/-- The stack whose ARP table tells where a packet that has waited goes during a call. -/
def resolving (s : NetStack) : NetCall → NetStack
  | .input frame _ => s.senderLearned frame
  | .tick nowMs => (s.withTime nowMs).dnsCacheExpire.arpExpire
  | _ => s

/-- Every call of a public function is a sequence of steps of the mailbox. -/
theorem moves_run (hA : ∀ packet, A packet) (s : NetStack) (call : NetCall)
    (haddresses : Addresses A (s.resolving call)) : Moves A s (call.run s) := by
  have hdhcp : AdmitsDhcp A := fun _ _ _ _ => hA _
  cases call with
  | configureIpv4 config => exact moves_netConfigureIpv4 s config
  | clearIpv4 => exact moves_netClearIpv4 s
  | input frame frameSize =>
    exact moves_netInput hdhcp s frame frameSize (fun _ _ _ => hA _) haddresses
  | tick nowMs => exact moves_netTick hdhcp s nowMs (fun _ _ _ _ _ => hA _) haddresses
  | ipv4Send destinationIp protocol payload payloadSize =>
    exact moves_netIpv4Send s destinationIp protocol (outside_ofCaller payload).behind
      payloadSize fun _ _ => hA _
  | udpSend destinationIp destinationPort sourcePort data dataSize =>
    exact moves_netUdpSend s destinationIp destinationPort sourcePort
      (outside_ofCaller data) dataSize fun _ _ => hA _
  | icmpEchoRequest destinationIp identifier sequence payload payloadSize =>
    exact moves_netIcmpEchoRequest s destinationIp identifier sequence _ payloadSize
      fun _ _ => hA _
  | arpRequest ip => exact moves_netArpRequest s ip
  | udpBind port handler => exact .of_eq (mailbox_netUdpBind s port handler)
  | udpUnbind port => exact .of_eq rfl
  | setTcpHandler handler => exact .of_eq rfl
  | icmpClearEchoReply => exact .of_eq rfl
  | dhcpStart transactionId => exact moves_netDhcpStart hdhcp s transactionId
  | dhcpStop => exact .of_eq (mailbox_withDhcp s _)
  | dnsQuery name transactionId => exact moves_netDnsQuery hA s name transactionId
  | dnsCancel => exact moves_netDnsCancel s
  | dnsClearResult => exact .of_eq (mailbox_withDns s _)
  | dnsCacheClear => exact .of_eq (mailbox_withDnsCache s _)

theorem moves_after (s : NetStack) (calls : List NetCall) :
    Moves ⟨fun _ => True, fun _ _ => True⟩ s (s.after calls) := by
  induction calls generalizing s with
  | nil => exact .refl _ s
  | cons call calls ih =>
    exact (moves_run (fun _ => trivial) s call fun _ _ _ => trivial).trans (ih _)

end NetStack

end Nostalux.Net
