import Nostalux.Tcp.Client

/-!
# What a call does to the receiving side of the TCP client

The receiving side of a client is its state, its endpoints, `receive_next`, the receive buffer and
the control segments of the peer that were processed (`Inbound`).  A few relations say all that can
happen to it:

* `Inbound.Local` for the calls of the kernel on a connection;
* `Inbound.Untaken` and `Inbound.deliver` for a received segment, depending on whether its data or
  FIN is taken (`TcpClient.Takes`).

`TcpCall.effect_run` puts them together for all calls.  Everything else about the client (timers,
retransmission, counters, the sending side) has no influence on the receiving side beyond these.
-/

namespace Nostalux.Tcp

open BigEndian

/-- Whether a record is about a control segment of the peer. -/
def TcpRecord.ofPeer : TcpRecord → Bool
  | .transmit _ _ => false
  | .peerSyn _ => true
  | .peerFin => true

/-- The addresses and ports of a connection. -/
structure Endpoints where
  localIp : UInt32
  remoteIp : UInt32
  localPort : UInt16
  remotePort : UInt16
  deriving DecidableEq

/-- The receiving side of a client. -/
structure Inbound where
  state : TcpClientState
  endpoints : Endpoints
  receiveNext : UInt32
  buffer : ReceiveBuffer
  peer : List TcpRecord

/-- The receiving side of a client. -/
def TcpClient.inbound (c : TcpClient) : Inbound where
  state := c.state
  endpoints := ⟨c.localIp, c.remoteIp, c.localPort, c.remotePort⟩
  receiveNext := c.receiveNext
  buffer := c.receive
  peer := c.history.filter TcpRecord.ofPeer

namespace Inbound

/-- The receiving side in another state. -/
def withState (i : Inbound) (state : TcpClientState) : Inbound := { i with state := state }

variable (i : Inbound)

@[simp] theorem withState_withState (s t : TcpClientState) :
    (i.withState s).withState t = i.withState t := rfl

variable (s : TcpClientState)

@[simp] theorem state_withState : (i.withState s).state = s := rfl

@[simp] theorem endpoints_withState :
    (i.withState s).endpoints = i.endpoints := rfl

@[simp] theorem receiveNext_withState :
    (i.withState s).receiveNext = i.receiveNext := rfl

@[simp] theorem buffer_withState : (i.withState s).buffer = i.buffer := rfl

@[simp] theorem peer_withState : (i.withState s).peer = i.peer := rfl

/-- A connection has been begun. -/
def connecting (i : Inbound) (remoteIp : UInt32) (remotePort : UInt16) : Inbound where
  state := .synSent
  endpoints := ⟨i.endpoints.localIp, remoteIp, i.endpoints.localPort, remotePort⟩
  receiveNext := 0
  buffer := i.buffer.clear
  peer := []

/-- The SYN+ACK of the peer has been accepted. -/
def accept (i : Inbound) (sequence : UInt32) : Inbound :=
  { i with
    state := .established
    receiveNext := sequence + 1
    peer := .peerSyn sequence :: i.peer }

/-- Data has been taken. -/
def take (i : Inbound) (data : List UInt8) (h : data.length ≤ i.buffer.remaining) : Inbound :=
  { i with
    buffer := i.buffer.append data h
    receiveNext := i.receiveNext + UInt32.ofNat data.length }

/-- The FIN of the peer has been processed. -/
def finish (i : Inbound) : Inbound :=
  { i with
    receiveNext := i.receiveNext + 1
    peer := .peerFin :: i.peer }

end Inbound

/-- The state a FIN leads to. -/
def TcpClientState.afterFin : TcpClientState → TcpClientState
  | .established => .closeWait
  | .finWait1 => .closing
  | .finWait2 => .closed
  | s => s

/-- The state the acknowledgment of the own FIN leads to. -/
def TcpClientState.afterFinAcked : TcpClientState → TcpClientState
  | .finWait1 => .finWait2
  | .closing => .closed
  | .lastAck => .closed
  | s => s

/-- Neither closed nor failed nor waiting for the SYN+ACK. -/
def TcpClientState.Connected (s : TcpClientState) : Prop :=
  s ≠ .closed ∧ s ≠ .failed ∧ s ≠ .synSent

instance (s : TcpClientState) : Decidable s.Connected :=
  inferInstanceAs (Decidable (_ ∧ _ ∧ _))

namespace Inbound

/-- What a call of the kernel can do to the receiving side of a connection. -/
inductive Local : Inbound → Inbound → Prop
  | stay (i : Inbound) : Local i i
  | fail (i : Inbound) : Local i (i.withState .failed)
  | shutdown (i : Inbound) (h : i.state = .established) : Local i (i.withState .finWait1)
  | lastAck (i : Inbound) (h : i.state = .closeWait) : Local i (i.withState .lastAck)

/-- What a segment whose data and FIN are not taken can do to the receiving side. -/
inductive Untaken (packet : List UInt8) : Inbound → Inbound → Prop
  | discard (i : Inbound) : Untaken packet i i
  | fail (i : Inbound) : Untaken packet i (i.withState .failed)
  | accept (i : Inbound) (h : i.state = .synSent) : Untaken packet i (i.accept (sequenceOf packet))
  | acceptFailed (i : Inbound) (h : i.state = .synSent) :
      Untaken packet i ((i.accept (sequenceOf packet)).withState .failed)
  | finAcked (i : Inbound) : Untaken packet i (i.withState i.state.afterFinAcked)

/-- The data and the FIN of a segment have been taken. -/
def deliver (i : Inbound) (packet : List UInt8) (h : (dataOf packet).length ≤ i.buffer.remaining) :
    Inbound :=
  if hasFlag packet tcpFlagFin then (i.take (dataOf packet) h).finish else i.take (dataOf packet) h

section Deliver

variable (i : Inbound) (packet : List UInt8) (h : (dataOf packet).length ≤ i.buffer.remaining)

@[simp] theorem buffer_deliver :
    (i.deliver packet h).buffer = i.buffer.append (dataOf packet) h := by
  unfold deliver
  split_ifs <;> rfl

@[simp] theorem endpoints_deliver : (i.deliver packet h).endpoints = i.endpoints := by
  unfold deliver
  split_ifs <;> rfl

theorem receiveNext_deliver : (i.deliver packet h).receiveNext =
    i.receiveNext + UInt32.ofNat (dataOf packet).length +
      if hasFlag packet tcpFlagFin then 1 else 0 := by
  unfold deliver
  split_ifs
  · rfl
  · exact (UInt32.add_zero _).symm

theorem peer_deliver : (i.deliver packet h).peer =
    if hasFlag packet tcpFlagFin then .peerFin :: i.peer else i.peer := by
  unfold deliver
  split_ifs <;> rfl

end Deliver

end Inbound

namespace TcpClient

/-! ### Sending leaves the receiving side alone -/

variable (c : TcpClient)

/-- A call did this to a side of the client, or failed after it. -/
def Ends {α : Type} (side : TcpClient → α) (done failed : α) (r : Bool × TcpClient) : Prop :=
  (r.1 = true ∧ side r.2 = done) ∨ (r.1 = false ∧ side r.2 = failed)

section

variable {α : Type} {side : TcpClient → α} {done failed : α} {r : Bool × TcpClient}
  (h : Ends side done failed r)
include h

theorem Ends.eq_or : side r.2 = done ∨ side r.2 = failed := h.imp And.right And.right

theorem Ends.eq_pair :
    (∃ d, r = (true, d) ∧ side d = done) ∨ ∃ d, r = (false, d) ∧ side d = failed :=
  h.imp (fun h => ⟨r.2, Prod.ext h.1 rfl, h.2⟩) fun h => ⟨r.2, Prod.ext h.1 rfl, h.2⟩

end

/-- A call that sends keeps the receiving side, or fails when the segment cannot be sent. -/
abbrev SendsOrFails (i : Inbound) : Bool × TcpClient → Prop :=
  Ends inbound i (i.withState .failed)

variable (env : TcpEnv)

theorem sendSegment_sendsOrFails (c : TcpClient) (sequence : UInt32)
    (flags : UInt8) (data : List UInt8) :
    SendsOrFails c.inbound (sendSegment env c sequence flags data) := by
  unfold sendSegment
  split_ifs with hlen hok
  · exact Or.inr ⟨rfl, rfl⟩
  · exact Or.inl ⟨rfl, rfl⟩
  · exact Or.inr ⟨rfl, rfl⟩

theorem sendAck_sendsOrFails (c : TcpClient) : SendsOrFails c.inbound (sendAck env c) :=
  sendSegment_sendsOrFails env c _ _ _

theorem startPendingSegment_sendsOrFails (c : TcpClient) (flags : UInt8)
    (data : List UInt8) : SendsOrFails c.inbound (startPendingSegment env c flags data) := by
  unfold startPendingSegment
  split
  · exact Or.inr ⟨rfl, rfl⟩
  · exact sendSegment_sendsOrFails env _ _ _ _

theorem retransmitPending_sendsOrFails (c : TcpClient) :
    SendsOrFails c.inbound (retransmitPending env c) := by
  unfold retransmitPending
  split_ifs with hactive hretries
  · exact Or.inl ⟨rfl, rfl⟩
  · exact Or.inr ⟨rfl, rfl⟩
  · exact sendSegment_sendsOrFails env _ _ _ _

@[simp] theorem inbound_completeIfReached : c.completeIfReached.inbound = c.inbound := by
  unfold completeIfReached
  split_ifs <;> rfl

@[simp] theorem inbound_rejectOperation (operation : TcpClientOperation)
    (error : TcpClientError) : (c.rejectOperation operation error).2.inbound = c.inbound := by
  unfold rejectOperation
  split_ifs <;> rfl

@[simp] theorem inbound_beginOperation (c : TcpClient)
    (operation : TcpClientOperation) : (beginOperation env c operation).inbound = c.inbound := rfl

@[simp] theorem inbound_refuseFailed (operation : TcpClientOperation) :
    (c.refuseFailed operation).2.inbound = c.inbound := rfl

@[simp] theorem inbound_finishBegin (started : Bool × TcpClient) :
    (finishBegin started).2.inbound = started.2.inbound := by
  unfold finishBegin
  split_ifs
  · exact inbound_completeIfReached _
  · rfl

@[simp] theorem inbound_noteClock (c : TcpClient) : (noteClock env c).2.inbound = c.inbound := by
  unfold noteClock
  split_ifs <;> rfl

end TcpClient

/-! ### The calls of the kernel -/

/-- The public functions of the client that act on a connection. -/
inductive TcpCall
  | setTimeouts (retransmitMs operationTimeoutMs maxRetries : UInt32)
  | beginConnect (remoteIp : UInt32) (remotePort : UInt16) (initialSequence : UInt32)
  | beginSend (dataIsNull : Bool) (data : List UInt8)
  | beginWaitForPeerClose
  | beginClose
  | service
  | receive (srcIp dstIp : UInt32) (segment : Option (List UInt8))

/-- The client after a call. -/
def TcpCall.run (env : TcpEnv) (c : TcpClient) : TcpCall → TcpClient
  | .setTimeouts retransmitMs operationTimeoutMs maxRetries =>
    (c.tcpClientSetTimeouts retransmitMs operationTimeoutMs maxRetries).2
  | .beginConnect remoteIp remotePort initialSequence =>
    (TcpClient.tcpClientBeginConnect env c remoteIp remotePort initialSequence).2
  | .beginSend dataIsNull data => (TcpClient.tcpClientBeginSend env c dataIsNull data).2
  | .beginWaitForPeerClose => (TcpClient.tcpClientBeginWaitForPeerClose env c).2
  | .beginClose => (TcpClient.tcpClientBeginClose env c).2
  | .service => (TcpClient.tcpClientService env c).2
  | .receive srcIp dstIp segment => (TcpClient.tcpClientReceive env c srcIp dstIp segment).2

namespace TcpClient

open Inbound

theorem local_of_sendsOrFails {i : Inbound} {r : Bool × TcpClient} (h : SendsOrFails i r) :
    Local i r.2.inbound := by
  obtain h | h := h.eq_or
  · rw [h]; exact .stay i
  · rw [h]; exact .fail i

variable (env : TcpEnv)

variable (c : TcpClient)

theorem local_tcpClientService :
    Local c.inbound (tcpClientService env c).2.inbound := by
  unfold tcpClientService
  split
  · exact .stay _
  split
  · exact .stay _
  split
  · rw [inbound_completeIfReached]; exact .stay _
  split
  · exact .fail _
  have hclock := inbound_noteClock env c
  revert hclock
  -- from here on the client is the one with the clock noted, which has the same receiving side
  rcases noteClock env c with ⟨_ | error, c'⟩
  · intro hclock
    rw [← hclock]
    simp only
    split
    · exact .fail _
    split
    · rw [inbound_finishBegin]
      exact local_of_sendsOrFails (retransmitPending_sendsOrFails env c')
    · rw [inbound_finishBegin]; exact .stay _
  · intro hclock
    rw [← hclock]
    exact .fail _

/-- A new connection is begun by a closed client only. -/
theorem inbound_tcpClientBeginConnect (remoteIp : UInt32)
    (remotePort : UInt16) (initialSequence : UInt32) :
    (tcpClientBeginConnect env c remoteIp remotePort initialSequence).2.inbound = c.inbound ∨
      c.state = .closed ∧
        ((tcpClientBeginConnect env c remoteIp remotePort initialSequence).2.inbound =
            c.inbound.connecting remoteIp remotePort ∨
          (tcpClientBeginConnect env c remoteIp remotePort initialSequence).2.inbound =
            (c.inbound.connecting remoteIp remotePort).withState .failed) := by
  unfold tcpClientBeginConnect
  split
  · exact Or.inl (inbound_rejectOperation _ _ _)
  split
  · exact Or.inl (inbound_rejectOperation _ _ _)
  split
  · exact Or.inl rfl
  split
  · exact Or.inl (inbound_rejectOperation _ _ _)
  rename_i hclosed
  rw [inbound_finishBegin]
  have hstart := startPendingSegment_sendsOrFails env
    { beginOperation env { c with
        remoteIp := remoteIp
        remotePort := remotePort
        receive := c.receive.clear
        sendUnacknowledged := initialSequence
        sendNext := initialSequence
        receiveNext := 0
        pendingActive := false
        badChecksumCount := 0
        malformedSegmentCount := 0
        history := [] } .connect with state := .synSent } tcpFlagSyn []
  exact Or.inr ⟨not_not.1 hclosed, hstart.eq_or⟩

theorem local_tcpClientBeginSend (dataIsNull : Bool)
    (data : List UInt8) : Local c.inbound (tcpClientBeginSend env c dataIsNull data).2.inbound := by
  unfold tcpClientBeginSend
  split
  · rw [inbound_rejectOperation]; exact .stay _
  split
  · rw [inbound_rejectOperation]; exact .stay _
  split
  · exact .stay _
  split
  · rw [inbound_rejectOperation]; exact .stay _
  split
  · rw [inbound_finishBegin]; exact .stay _
  · rw [inbound_finishBegin]
    exact local_of_sendsOrFails (startPendingSegment_sendsOrFails env
      (beginOperation env c .send) _ _)

theorem local_tcpClientBeginWaitForPeerClose :
    Local c.inbound (tcpClientBeginWaitForPeerClose env c).2.inbound := by
  have hsame : (tcpClientBeginWaitForPeerClose env c).2.inbound = c.inbound := by
    unfold tcpClientBeginWaitForPeerClose
    split_ifs <;> simp
  rw [hsame]
  exact .stay _

theorem local_tcpClientBeginClose :
    Local c.inbound (tcpClientBeginClose env c).2.inbound := by
  unfold tcpClientBeginClose
  split
  · rw [inbound_rejectOperation]; exact .stay _
  split
  · rw [inbound_rejectOperation]; exact .stay _
  split
  · rw [inbound_finishBegin]; exact .stay _
  split
  · exact .stay _
  split
  · rw [inbound_rejectOperation]; exact .stay _
  simp only
  split
  · -- the active close
    rename_i hstate
    rw [inbound_finishBegin]
    have hstart := startPendingSegment_sendsOrFails env
      { beginOperation env c .close with state := .finWait1 } (tcpFlagFin ||| tcpFlagAck) []
    obtain h | h := hstart.eq_or
    · rw [h]; exact .shutdown _ hstate
    · rw [h]; exact .fail _
  · -- the passive close
    rename_i hstate
    rw [inbound_finishBegin]
    have hstart := startPendingSegment_sendsOrFails env
      { beginOperation env c .close with state := .lastAck } (tcpFlagFin ||| tcpFlagAck) []
    obtain h | h := hstart.eq_or
    · rw [h]; exact .lastAck _ hstate
    · rw [h]; exact .fail _
  all_goals first | (rw [inbound_finishBegin]; exact .stay _) | exact .stay _

theorem local_tcpClientSetTimeouts (retransmitMs operationTimeoutMs maxRetries : UInt32) :
    Local c.inbound
      (c.tcpClientSetTimeouts retransmitMs operationTimeoutMs maxRetries).2.inbound := by
  unfold tcpClientSetTimeouts
  split_ifs <;> exact .stay _

end TcpClient

/-! ### Received segments -/

/-- The segment is one of the peer: it has the endpoints of the connection, a correct checksum and a
well-formed header. -/
structure FromPeer (e : Endpoints) (srcIp dstIp : UInt32) (packet : List UInt8) : Prop where
  srcIp_eq : srcIp = e.remoteIp
  dstIp_eq : dstIp = e.localIp
  length_ge : tcpHeaderLength ≤ packet.length
  length_le : packet.length ≤ 65535
  sourcePort_eq : sourcePort packet = e.remotePort
  destinationPort_eq : destinationPort packet = e.localPort
  checksum_eq : tcpClientChecksum srcIp dstIp packet = 0
  headerLength_ge : tcpHeaderLength ≤ headerLength packet
  headerLength_le : headerLength packet ≤ packet.length
  not_urgent : hasFlag packet tcpFlagUrg = false

namespace TcpClient

/-- The acknowledgment completes the pending FIN. -/
def AcksFin (c : TcpClient) (acknowledgment : UInt32) : Prop :=
  sequenceAfter acknowledgment c.sendNext = false ∧
    sequenceBefore acknowledgment c.sendUnacknowledged = false ∧ c.pendingActive = true ∧
    acknowledgment = c.pendingEnd ∧ c.pendingFlags &&& tcpFlagFin ≠ 0

instance (c : TcpClient) (acknowledgment : UInt32) : Decidable (c.AcksFin acknowledgment) :=
  inferInstanceAs (Decidable (_ ∧ _ ∧ _ ∧ _ ∧ _))

/-- The state in which the data of a segment with this acknowledgment is looked at. -/
def stateAfterAck (c : TcpClient) (acknowledgment : UInt32) : TcpClientState :=
  if c.AcksFin acknowledgment then c.state.afterFinAcked else c.state

/-- `acknowledge_pending` refuses what was never sent; otherwise it changes only the state, and only
when the pending FIN is acknowledged. -/
theorem inbound_acknowledgePending (c : TcpClient) (acknowledgment : UInt32) :
    (sequenceAfter acknowledgment c.sendNext = true ∧
      c.acknowledgePending acknowledgment = (false, c.countMalformed)) ∨
    (sequenceAfter acknowledgment c.sendNext = false ∧
      ∃ d, c.acknowledgePending acknowledgment = (true, d) ∧
        d.inbound = c.inbound.withState (c.stateAfterAck acknowledgment)) := by
  unfold acknowledgePending
  by_cases hafter : sequenceAfter acknowledgment c.sendNext = true
  · exact Or.inl ⟨hafter, by rw [if_pos hafter]⟩
  refine Or.inr ⟨by simpa using hafter, ?_⟩
  rw [if_neg hafter, stateAfterAck]
  by_cases hbefore : sequenceBefore acknowledgment c.sendUnacknowledged = true
  · rw [if_pos hbefore, if_neg fun h => by simp [h.2.1] at hbefore]
    exact ⟨_, rfl, rfl⟩
  rw [if_neg hbefore]
  by_cases hpending : (!c.pendingActive) = true ∨ acknowledgment ≠ c.pendingEnd
  · rw [if_pos hpending, if_neg]
    · exact ⟨_, rfl, rfl⟩
    · rintro ⟨-, -, hactive, hend, -⟩
      rcases hpending with h | h
      · simp [hactive] at h
      · exact h hend
  rw [if_neg hpending]
  rw [not_or, not_not] at hpending
  by_cases hfin : c.pendingFlags &&& tcpFlagFin ≠ 0
  · have hacks : c.AcksFin acknowledgment :=
      ⟨by simpa using hafter, by simpa using hbefore, by simpa using hpending.1, hpending.2, hfin⟩
    rw [if_pos hacks]
    simp only [if_pos hfin]
    cases hstate : c.state <;>
      exact ⟨_, rfl, by simp [inbound, Inbound.withState, TcpClientState.afterFinAcked, hstate]⟩
  · have hacks : ¬c.AcksFin acknowledgment := fun h => hfin h.2.2.2.2
    rw [if_neg hacks]
    rw [if_neg hfin]
    exact ⟨_, rfl, rfl⟩

/-- The data or the FIN of the segment is taken. -/
structure Takes (c : TcpClient) (packet : List UInt8) : Prop where
  connected : c.state.Connected
  not_rst : hasFlag packet tcpFlagRst = false
  not_syn : hasFlag packet tcpFlagSyn = false
  ack : hasFlag packet tcpFlagAck = true
  sequence_eq : sequenceOf packet = c.receiveNext
  ack_sent : sequenceAfter (acknowledgmentOf packet) c.sendNext = false
  not_closed : c.stateAfterAck (acknowledgmentOf packet) ≠ .closed
  fits : (dataOf packet).length ≤ c.inbound.buffer.remaining
  open_of_data : dataOf packet ≠ [] → c.stateAfterAck (acknowledgmentOf packet) ≠ .closeWait ∧
    c.stateAfterAck (acknowledgmentOf packet) ≠ .lastAck
  nonempty : dataOf packet ≠ [] ∨ hasFlag packet tcpFlagFin = true

variable (env : TcpEnv)

theorem inbound_receiveFin (c : TcpClient) :
    (receiveFin env c).2.inbound = c.inbound.finish.withState .failed ∨
      (receiveFin env c).2.inbound = c.inbound.finish.withState c.state.afterFin := by
  rcases (sendAck_sendsOrFails env { c with
      receiveNext := c.receiveNext + 1
      history := .peerFin :: c.history }).eq_pair with ⟨d, hr, hd⟩ | ⟨d, hr, hd⟩
  · right
    rw [receiveFin, hr]
    have hstate : d.state = c.state := congrArg Inbound.state hd
    have hfinish : d.inbound = c.inbound.finish := hd
    rw [← hstate, ← hfinish]
    cases hs : d.state <;>
      simp [inbound, Inbound.withState, TcpClientState.afterFin, hs]
  · left
    rw [receiveFin, hr]
    exact hd

/-- Data or FIN that can be taken is taken, and then the state is the one the FIN leads to, or the
acknowledgment could not be sent. -/
theorem inbound_receiveData_of_fits (c : TcpClient) (packet : List UInt8)
    (hfits : (dataOf packet).length ≤ c.inbound.buffer.remaining)
    (hopen : dataOf packet ≠ [] → c.state ≠ .closeWait ∧ c.state ≠ .lastAck)
    (hsome : dataOf packet ≠ [] ∨ hasFlag packet tcpFlagFin = true) :
    ∃ s, (s = .failed ∨ s = if hasFlag packet tcpFlagFin then c.state.afterFin else c.state) ∧
      (receiveData env c packet).2.inbound = (c.inbound.deliver packet hfits).withState s := by
  unfold receiveData Inbound.deliver
  by_cases hdata : (dataOf packet).length ≠ 0
  · have hne : dataOf packet ≠ [] := fun h => hdata (by rw [h]; rfl)
    have hstate : ¬(c.state = .closeWait ∨ c.state = .lastAck) := by
      rintro (h | h)
      · exact (hopen hne).1 h
      · exact (hopen hne).2 h
    have hfits' : (dataOf packet).length ≤ c.receive.remaining := hfits
    rw [if_pos hdata, dif_pos hfits', if_neg hstate]
    by_cases hfin : hasFlag packet tcpFlagFin = true
    · simp only [hfin, if_true]
      rcases inbound_receiveFin env
        { c with
          receive := c.receive.append (dataOf packet) hfits'
          receiveNext := c.receiveNext + UInt32.ofNat (dataOf packet).length } with h | h
      · exact ⟨.failed, Or.inl rfl, h⟩
      · exact ⟨_, Or.inr rfl, h⟩
    · simp only [hfin]
      rcases (sendAck_sendsOrFails env
        { c with
          receive := c.receive.append (dataOf packet) hfits'
          receiveNext :=
            c.receiveNext + UInt32.ofNat (dataOf packet).length }).eq_or with h | h
      · exact ⟨c.state, Or.inr rfl, h⟩
      · exact ⟨.failed, Or.inl rfl, h⟩
  · have hnil : dataOf packet = [] := List.length_eq_zero_iff.1 (not_not.1 hdata)
    have hfin : hasFlag packet tcpFlagFin = true := hsome.resolve_left (not_not.2 hnil)
    have htake : c.inbound.take (dataOf packet) hfits = c.inbound := by
      simp [Inbound.take, hnil]
    rw [if_neg hdata]
    simp only [hfin, if_true, htake]
    rcases inbound_receiveFin env c with h | h
    · exact ⟨.failed, Or.inl rfl, h⟩
    · exact ⟨_, Or.inr rfl, h⟩

/-- Data that does not fit fails the client; refused data and an empty segment change nothing. -/
theorem inbound_receiveData_of_not (c : TcpClient) (packet : List UInt8)
    (h : ¬((dataOf packet).length ≤ c.receive.remaining ∧
      (dataOf packet ≠ [] → c.state ≠ .closeWait ∧ c.state ≠ .lastAck) ∧
      (dataOf packet ≠ [] ∨ hasFlag packet tcpFlagFin = true))) :
    (receiveData env c packet).2.inbound = c.inbound ∨
      (receiveData env c packet).2.inbound = c.inbound.withState .failed := by
  unfold receiveData
  split
  · rename_i hdata
    have hne : dataOf packet ≠ [] := fun hnil => hdata (by rw [hnil]; rfl)
    split
    · rename_i hfits
      have hstate : c.state = .closeWait ∨ c.state = .lastAck := by
        by_contra hstate
        rw [not_or] at hstate
        exact h ⟨hfits, fun _ => hstate, Or.inl hne⟩
      rw [if_pos hstate]
      exact Or.inl rfl
    · exact Or.inr rfl
  · rename_i hdata
    have hnil : dataOf packet = [] := List.length_eq_zero_iff.1 (not_not.1 hdata)
    have hfin : ¬hasFlag packet tcpFlagFin = true := by
      intro hfin
      refine h ⟨?_, fun hne => absurd hnil hne, Or.inr hfin⟩
      rw [hnil]
      exact Nat.zero_le _
    rw [if_neg hfin]
    exact Or.inl rfl

variable {c : TcpClient} {packet : List UInt8}

/-- A segment at `receive_next` that acknowledges what was sent: its data is received in the state
after the acknowledgment. -/
theorem receiveValid_of_current (hconnected : c.state.Connected)
    (hrst : hasFlag packet tcpFlagRst = false) (hsyn : hasFlag packet tcpFlagSyn = false)
    (hack : hasFlag packet tcpFlagAck = true) (hsequence : sequenceOf packet = c.receiveNext)
    (hsent : sequenceAfter (acknowledgmentOf packet) c.sendNext = false)
    (hopen : c.stateAfterAck (acknowledgmentOf packet) ≠ .closed) :
    ∃ d : TcpClient, d.inbound = c.inbound.withState (c.stateAfterAck (acknowledgmentOf packet)) ∧
      receiveValid env c packet = receiveData env d packet := by
  rcases inbound_acknowledgePending c (acknowledgmentOf packet) with ⟨hafter, -⟩ | ⟨-, d, heq, hd⟩
  · rw [hsent] at hafter
    cases hafter
  · have hstate : ¬d.state = .closed := by
      rw [show d.state = _ from congrArg Inbound.state hd]
      exact hopen
    refine ⟨d, hd, ?_⟩
    rw [receiveValid, if_neg (by simp [hrst]), if_neg hconnected.2.2, receiveConnected,
      if_neg (by simp [hsyn]), if_neg (by simp [hack]), if_neg (not_not.2 hsequence), heq]
    exact if_neg hstate

/-- A segment that is taken is taken in the state after its acknowledgment. -/
theorem receiveValid_of_takes
    (h : c.Takes packet) (hfits : (dataOf packet).length ≤ c.inbound.buffer.remaining) :
    ∃ s, (s = .failed ∨
        s = if hasFlag packet tcpFlagFin then (c.stateAfterAck (acknowledgmentOf packet)).afterFin
          else c.stateAfterAck (acknowledgmentOf packet)) ∧
      (receiveValid env c packet).2.inbound = (c.inbound.deliver packet hfits).withState s := by
  obtain ⟨d, hd, heq⟩ := receiveValid_of_current env h.connected h.not_rst h.not_syn h.ack
    h.sequence_eq h.ack_sent h.not_closed
  have hstate : d.state = c.stateAfterAck (acknowledgmentOf packet) := congrArg Inbound.state hd
  have hbuffer : d.receive = c.receive := congrArg Inbound.buffer hd
  obtain ⟨s, hs, hdeliver⟩ := inbound_receiveData_of_fits env d packet
    (by show _ ≤ d.receive.remaining; rw [hbuffer]; exact hfits)
    (by rw [hstate]; exact h.open_of_data) h.nonempty
  refine ⟨s, by rwa [hstate] at hs, ?_⟩
  rw [heq, hdeliver]
  -- delivering does not look at the state
  have hd' : d.inbound = c.inbound.withState d.state := by rw [hstate]; exact hd
  simp only [Inbound.deliver, hd']
  split_ifs <;> rfl

theorem untaken_of_sendsOrFails {i : Inbound} {r : Bool × TcpClient}
    (h : SendsOrFails i r) : Inbound.Untaken packet i r.2.inbound := by
  rcases h.eq_or with heq | heq
  · rw [heq]; exact .discard i
  · rw [heq]; exact .fail i

theorem untaken_receiveReset (c : TcpClient) (packet : List UInt8) :
    Inbound.Untaken packet c.inbound (c.receiveReset packet).2.inbound := by
  unfold receiveReset
  generalize (if c.state = .synSent then _ else _ : Bool) = acceptable
  cases acceptable with
  | false => exact .discard _
  | true => exact .fail _

theorem untaken_receiveSynSent (h : c.state = .synSent) (packet : List UInt8) :
    Inbound.Untaken packet c.inbound (receiveSynSent env c packet).2.inbound := by
  unfold receiveSynSent
  split
  · exact .discard _
  · rcases (sendAck_sendsOrFails env
      { c with
        sendUnacknowledged := acknowledgmentOf packet
        pendingActive := false
        receiveNext := sequenceOf packet + 1
        state := .established
        history := .peerSyn (sequenceOf packet) :: c.history }).eq_or with heq | heq
    · rw [heq]; exact .accept _ h
    · rw [heq]; exact .acceptFailed _ h

/-- The part of `tcp_client_receive` behind the checks, for a segment that is not taken. -/
theorem receiveValid_of_not_takes
    (hclosed : c.state ≠ .closed) (hfailed : c.state ≠ .failed) (h : ¬c.Takes packet) :
    Inbound.Untaken packet c.inbound (receiveValid env c packet).2.inbound := by
  unfold receiveValid
  split
  · exact untaken_receiveReset c packet
  rename_i hrst
  split
  · rename_i hsynSent
    exact untaken_receiveSynSent env hsynSent packet
  rename_i hsynSent
  unfold receiveConnected
  split
  · exact untaken_of_sendsOrFails (sendAck_sendsOrFails env c.countMalformed)
  rename_i hsyn
  split
  · exact .discard _
  rename_i hack
  split
  · split
    · exact untaken_of_sendsOrFails (sendAck_sendsOrFails env c)
    · exact .discard _
  rename_i hseq
  rcases inbound_acknowledgePending c (acknowledgmentOf packet) with ⟨-, heq⟩ | ⟨hafter, d, heq, hd⟩
  · rw [heq]
    exact untaken_of_sendsOrFails (sendAck_sendsOrFails env c.countMalformed)
  · rw [heq]
    have hstate : d.state = c.stateAfterAck (acknowledgmentOf packet) := congrArg Inbound.state hd
    have hbuffer : d.receive = c.receive := congrArg Inbound.buffer hd
    have hmoved : Inbound.Untaken packet c.inbound d.inbound := by
      rw [hd, stateAfterAck]
      split_ifs
      · exact .finAcked _
      · exact .discard _
    dsimp only
    split
    · exact hmoved
    · -- all checks are passed, so that the segment would be taken if its data were
      rename_i hopen
      have hnot : ¬((dataOf packet).length ≤ d.receive.remaining ∧
          (dataOf packet ≠ [] → d.state ≠ .closeWait ∧ d.state ≠ .lastAck) ∧
          (dataOf packet ≠ [] ∨ hasFlag packet tcpFlagFin = true)) := by
        rintro ⟨hfits, hdata, hsome⟩
        rw [hbuffer] at hfits
        rw [hstate] at hdata hopen
        exact h ⟨⟨hclosed, hfailed, hsynSent⟩, by simpa using hrst, by simpa using hsyn,
          by simpa using hack, not_not.1 hseq, hafter, hopen, hfits, hdata, hsome⟩
      rcases inbound_receiveData_of_not env d packet hnot with heq | heq
      · rw [heq]; exact hmoved
      · rw [heq, hd, Inbound.withState_withState]; exact .fail _

/-! ### The checks in front -/

/-- A segment of the peer reaches the part behind the checks. -/
theorem tcpClientReceive_of_fromPeer {srcIp dstIp : UInt32} (hclosed : c.state ≠ .closed)
    (hfailed : c.state ≠ .failed)
    (h : FromPeer c.inbound.endpoints srcIp dstIp packet) :
    tcpClientReceive env c srcIp dstIp (some packet) = receiveValid env c packet := by
  have hsrc : srcIp = c.remoteIp := h.srcIp_eq
  have hdst : dstIp = c.localIp := h.dstIp_eq
  have hsource : sourcePort packet = c.remotePort := h.sourcePort_eq
  have hdestination : destinationPort packet = c.localPort := h.destinationPort_eq
  have hlength' := h.length_le
  have hheader := h.headerLength_ge
  have hheader' := h.headerLength_le
  rw [tcpClientReceive, if_neg (by simp [hclosed, hfailed, hsrc, hdst]), if_neg (by omega),
    if_neg (by simp [hsource, hdestination]), if_neg (not_not.2 h.checksum_eq), if_neg]
  rintro (hlt | hgt | hurgent)
  · omega
  · omega
  · rw [h.not_urgent] at hurgent
    cases hurgent

/-- Any other segment is at most counted. -/
theorem tcpClientReceive_of_not (c : TcpClient) (srcIp dstIp : UInt32)
    (segment : Option (List UInt8))
    (h : ∀ packet, segment = some packet → c.state ≠ .closed → c.state ≠ .failed →
      ¬FromPeer c.inbound.endpoints srcIp dstIp packet) :
    ∃ badChecksums malformed, (tcpClientReceive env c srcIp dstIp segment).2 =
      { c with
        badChecksumCount := badChecksums
        malformedSegmentCount := malformed } := by
  cases segment with
  | none => exact ⟨_, _, rfl⟩
  | some packet =>
    rw [tcpClientReceive]
    split
    · exact ⟨_, _, rfl⟩
    rename_i hstate
    split
    · exact ⟨_, _, rfl⟩
    rename_i hlength
    split
    · exact ⟨_, _, rfl⟩
    rename_i hports
    split
    · exact ⟨_, _, rfl⟩
    rename_i hchecksum
    split
    · exact ⟨_, _, rfl⟩
    rename_i hheader
    simp only [not_or, not_lt, not_not] at hstate hlength hports hheader
    refine absurd ?_ (h packet rfl hstate.1 hstate.2.1)
    exact ⟨hstate.2.2.1, hstate.2.2.2, hlength.1, hlength.2, hports.1, hports.2,
      not_not.1 hchecksum, hheader.1, hheader.2.1, by simpa using hheader.2.2⟩

end TcpClient

/-! ### All calls -/

/-- What one call can do to the receiving side. -/
inductive CallEffect (c : TcpClient) : TcpCall → Inbound → Prop
  | local {call : TcpCall} {i : Inbound} (h : c.inbound.Local i) : CallEffect c call i
  | connect {remoteIp : UInt32} {remotePort : UInt16} {initialSequence : UInt32} {i : Inbound}
      (hclosed : c.state = .closed)
      (h : i = c.inbound.connecting remoteIp remotePort ∨
        i = (c.inbound.connecting remoteIp remotePort).withState .failed) :
      CallEffect c (.beginConnect remoteIp remotePort initialSequence) i
  | untaken {srcIp dstIp : UInt32} {packet : List UInt8} {i : Inbound}
      (hpeer : FromPeer c.inbound.endpoints srcIp dstIp packet) (h : ¬c.Takes packet)
      (hi : c.inbound.Untaken packet i) : CallEffect c (.receive srcIp dstIp (some packet)) i
  | taken {srcIp dstIp : UInt32} {packet : List UInt8} {s : TcpClientState}
      (hpeer : FromPeer c.inbound.endpoints srcIp dstIp packet) (h : c.Takes packet)
      (hs : s = .failed ∨
        s = if hasFlag packet tcpFlagFin then (c.stateAfterAck (acknowledgmentOf packet)).afterFin
          else c.stateAfterAck (acknowledgmentOf packet)) :
      CallEffect c (.receive srcIp dstIp (some packet))
        ((c.inbound.deliver packet h.fits).withState s)

open TcpClient in
/-- **The effect of a call.** -/
theorem TcpCall.effect_run (env : TcpEnv) (c : TcpClient) (call : TcpCall) :
    CallEffect c call (call.run env c).inbound := by
  cases call with
  | setTimeouts retransmitMs operationTimeoutMs maxRetries =>
    exact .local (local_tcpClientSetTimeouts c _ _ _)
  | beginConnect remoteIp remotePort initialSequence =>
    rcases inbound_tcpClientBeginConnect env c remoteIp remotePort initialSequence with h | ⟨hc, h⟩
    · rw [TcpCall.run, h]
      exact .local (.stay _)
    · exact .connect hc h
  | beginSend dataIsNull data => exact .local (local_tcpClientBeginSend env c _ _)
  | beginWaitForPeerClose => exact .local (local_tcpClientBeginWaitForPeerClose env c)
  | beginClose => exact .local (local_tcpClientBeginClose env c)
  | service => exact .local (local_tcpClientService env c)
  | receive srcIp dstIp segment =>
    by_cases hpeer : ∃ packet, segment = some packet ∧ c.state ≠ .closed ∧ c.state ≠ .failed ∧
        FromPeer c.inbound.endpoints srcIp dstIp packet
    · obtain ⟨packet, rfl, hclosed, hfailed, hpeer⟩ := hpeer
      have hrun : (TcpCall.receive srcIp dstIp (some packet)).run env c =
          (receiveValid env c packet).2 := by
        rw [TcpCall.run, tcpClientReceive_of_fromPeer env hclosed hfailed hpeer]
      rw [hrun]
      by_cases htakes : c.Takes packet
      · obtain ⟨s, hs, heq⟩ := receiveValid_of_takes env htakes htakes.fits
        rw [heq]
        exact .taken hpeer htakes hs
      · exact .untaken hpeer htakes (receiveValid_of_not_takes env hclosed hfailed htakes)
    · obtain ⟨_, _, hcounted⟩ := tcpClientReceive_of_not env c srcIp dstIp segment
        fun packet hsegment hclosed hfailed hfrom =>
          hpeer ⟨packet, hsegment, hclosed, hfailed, hfrom⟩
      rw [TcpCall.run, hcounted]
      exact .local (.stay _)

end Nostalux.Tcp
