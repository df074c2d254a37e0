import Nostalux.Tcp.Inbound

/-!
# What a call does to the sending side of the TCP client

The sending side of a client is its state, the operation under way, the send sequence numbers, the
pending segment and everything that was handed to `send_ipv4` (`Outbound`).  All that can happen to
it:

* `Outbound.Rests`: nothing is sent, at most an operation begins, completes or is rejected;
* `TcpClient.opens`: a begin function is accepted and begins a segment (`Outbound.opened`);
* the pending segment is sent again, the peer is answered, or an acknowledgment is taken
  (`Outbound.acknowledge`).

`TcpCall.sending_run` puts them together for all calls.
-/

namespace Nostalux.Tcp

open BigEndian

/-- What a segment that is sent carries. -/
structure Transmission where
  sequence : UInt32
  flags : UInt8
  data : List UInt8
  deriving DecidableEq

/-- The transmission of a packet. -/
def transmissionOf (packet : List UInt8) : Transmission where
  sequence := sequenceOf packet
  flags := flagsOf packet
  data := dataOf packet

/-- The transmission that a record is about. -/
def TcpRecord.transmission : TcpRecord → Option Transmission
  | .transmit packet _ => some (transmissionOf packet)
  | .peerSyn _ => none
  | .peerFin => none

/-- The sending side of a client. -/
structure Outbound where
  state : TcpClientState
  operation : TcpClientOperation
  stepResult : TcpClientStepResult
  sendUnacknowledged : UInt32
  sendNext : UInt32
  pendingActive : Bool
  pendingFlags : UInt8
  pendingSequence : UInt32
  pendingEnd : UInt32
  pendingData : List UInt8
  pendingRetries : UInt32
  maxRetries : UInt32
  /-- What the connection has sent, newest first. -/
  wire : List Transmission

/-- The sending side of a client. -/
def TcpClient.outbound (c : TcpClient) : Outbound where
  state := c.state
  operation := c.operation
  stepResult := c.stepResult
  sendUnacknowledged := c.sendUnacknowledged
  sendNext := c.sendNext
  pendingActive := c.pendingActive
  pendingFlags := c.pendingFlags
  pendingSequence := c.pendingSequence
  pendingEnd := c.pendingEnd
  pendingData := c.pendingData
  pendingRetries := c.pendingRetries
  maxRetries := c.maxRetries
  wire := c.history.filterMap TcpRecord.transmission

/-- The sequence numbers that a segment takes. -/
def sequenceLength (flags : UInt8) (data : List UInt8) : ℕ :=
  data.length + (if flags &&& tcpFlagSyn ≠ 0 then 1 else 0) +
    if flags &&& tcpFlagFin ≠ 0 then 1 else 0

namespace Outbound

/-- `operation_is_busy`. -/
def Busy (o : Outbound) : Prop := o.operation ≠ .none ∧ o.stepResult = .pending

/-- `operation_goal_reached`. -/
def GoalReached (o : Outbound) : Prop :=
  match o.operation with
  | .none => True
  | .connect => o.state = .established
  | .send => o.pendingActive = false
  | .waitForPeerClose => o.state = .closeWait ∨ o.state = .closed
  | .close => o.state = .closed

/-- The client has failed. -/
def fail (o : Outbound) : Outbound :=
  { o with
    state := .failed
    pendingActive := false
    stepResult := .failed }

/-- A segment was handed to `send_ipv4`. -/
def transmit (o : Outbound) (t : Transmission) : Outbound := { o with wire := t :: o.wire }

/-- The peer was answered with a mere acknowledgment. -/
def answer (o : Outbound) : Outbound := o.transmit ⟨o.sendNext, tcpFlagAck, []⟩

/-- An operation has begun. -/
def begun (o : Outbound) (operation : TcpClientOperation) : Outbound :=
  { o with
    operation := operation
    stepResult := .pending }

/-- A new segment is pending, and it was sent. -/
def opened (o : Outbound) (flags : UInt8) (data : List UInt8) : Outbound :=
  { o with
    pendingActive := true
    pendingFlags := flags
    pendingSequence := o.sendNext
    pendingEnd := o.sendNext + UInt32.ofNat (sequenceLength flags data)
    pendingData := data
    pendingRetries := 0
    sendNext := o.sendNext + UInt32.ofNat (sequenceLength flags data)
    wire := ⟨o.sendNext, flags, data⟩ :: o.wire }

/-- The pending segment was sent again. -/
def resent (o : Outbound) : Outbound :=
  { o with
    pendingRetries := o.pendingRetries + 1
    wire := ⟨o.pendingSequence, o.pendingFlags, o.pendingData⟩ :: o.wire }

/-- `acknowledge_pending`. -/
def acknowledge (o : Outbound) (acknowledgment : UInt32) : Outbound :=
  if sequenceAfter acknowledgment o.sendNext ∨
      sequenceBefore acknowledgment o.sendUnacknowledged then o
  else if o.pendingActive = false ∨ acknowledgment ≠ o.pendingEnd then
    { o with sendUnacknowledged := acknowledgment }
  else
    { o with
      sendUnacknowledged := acknowledgment
      pendingActive := false
      state := if o.pendingFlags &&& tcpFlagFin ≠ 0 then o.state.afterFinAcked else o.state }

/-- The SYN+ACK of the peer was accepted. -/
def established (o : Outbound) : Outbound :=
  { o with
    sendUnacknowledged := o.pendingEnd
    pendingActive := false
    state := .established }

/-- A call that sends nothing. -/
inductive Rests (o : Outbound) : Outbound → Prop
  | stay : Rests o o
  | reject (operation : TcpClientOperation) (h : ¬o.Busy) :
      Rests o { o with operation := operation, stepResult := .failed }
  | refuse (operation : TcpClientOperation) (h : o.state = .failed) :
      Rests o { o with operation := operation, stepResult := .failed }
  | begin (operation : TcpClientOperation) (hbusy : ¬o.Busy) (hfailed : o.state ≠ .failed) :
      Rests o (o.begun operation)
  | beginComplete (operation : TcpClientOperation) (hbusy : ¬o.Busy) (hfailed : o.state ≠ .failed)
      (hgoal : (o.begun operation).GoalReached) :
      Rests o { o with operation := operation, stepResult := .complete }
  | complete (hfailed : o.state ≠ .failed) (hgoal : o.GoalReached) :
      Rests o { o with stepResult := .complete }
  | setRetries (maxRetries : UInt32) (h : o.state = .closed) :
      Rests o { o with maxRetries := maxRetries }

end Outbound

namespace TcpClient

variable (c : TcpClient)

theorem operationIsBusy_iff : c.operationIsBusy = true ↔ c.outbound.Busy := by
  simp [operationIsBusy, Outbound.Busy, outbound]

theorem operationGoalReached_iff : c.operationGoalReached = true ↔ c.outbound.GoalReached := by
  unfold operationGoalReached Outbound.GoalReached
  cases hoperation : c.operation <;> simp [outbound, hoperation]

/-! ### What is sent -/

theorem length_segmentHeader (sequence : UInt32) (flags : UInt8)
    (checksum : UInt16) : (c.segmentHeader sequence flags checksum).length = 20 := rfl

/-- A segment is read as it was built. -/
theorem transmissionOf_segmentPacket (sequence : UInt32) (flags : UInt8) (data : List UInt8) :
    transmissionOf (c.segmentPacket sequence flags data) = ⟨sequence, flags, data⟩ := by
  unfold segmentPacket
  generalize tcpClientChecksum c.localIp c.remoteIp (c.segmentHeader sequence flags 0 ++ data) =
    checksum
  have hsequence : sequenceOf (c.segmentHeader sequence flags checksum ++ data) = sequence := by
    have h := u32At_append_writeU32 (writeU16 c.localPort ++ writeU16 c.remotePort)
      (writeU32 (if flags &&& tcpFlagAck ≠ 0 then c.receiveNext else 0) ++ [0x50, flags] ++
        writeU16 (advertisedWindow c) ++ writeU16 checksum ++ [0, 0] ++ data) sequence
    rw [show (writeU16 c.localPort ++ writeU16 c.remotePort).length = 4 from rfl] at h
    simpa only [sequenceOf, readU32, segmentHeader, List.append_assoc] using h
  have hflags : flagsOf (c.segmentHeader sequence flags checksum ++ data) = flags := rfl
  have hdata : dataOf (c.segmentHeader sequence flags checksum ++ data) = data := by
    have hlength : headerLength (c.segmentHeader sequence flags checksum ++ data) =
        (c.segmentHeader sequence flags checksum).length := by
      rw [headerLength, show byteAt (c.segmentHeader sequence flags checksum ++ data) 12 =
        0x50 from rfl, length_segmentHeader]
      decide
    rw [dataOf, hlength, List.drop_left]
  rw [transmissionOf, hsequence, hflags, hdata]

/-- The call did this to the sending side, or failed after it. -/
abbrev Sends (o : Outbound) : Bool × TcpClient → Prop := Ends outbound o o.fail

variable (env : TcpEnv)

theorem sendSegment_sends (c : TcpClient) (sequence : UInt32) (flags : UInt8)
    {data : List UInt8} (hdata : data.length ≤ tcpClientMaxSegmentData) :
    Sends (c.outbound.transmit ⟨sequence, flags, data⟩)
      (sendSegment env c sequence flags data) := by
  have hpacket := transmissionOf_segmentPacket c sequence flags data
  unfold sendSegment
  rw [if_neg (by omega)]
  cases hok : env.sendOk with
  | true =>
    refine .inl ⟨rfl, ?_⟩
    simp [outbound, Outbound.transmit, TcpRecord.transmission, hpacket]
  | false =>
    refine .inr ⟨rfl, ?_⟩
    simp [outbound, Outbound.transmit, Outbound.fail, failClient, TcpRecord.transmission, hpacket]

theorem sendAck_sends (c : TcpClient) : Sends c.outbound.answer (sendAck env c) :=
  sendSegment_sends env c _ _ (Nat.zero_le _)

theorem startPendingSegment_sends {c : TcpClient} (flags : UInt8) {data : List UInt8}
    (hactive : c.pendingActive = false) (hdata : data.length ≤ tcpClientMaxSegmentData) :
    Sends (c.outbound.opened flags data) (startPendingSegment env c flags data) := by
  have hlength : UInt32.ofNat (sequenceLength flags data) =
      UInt32.ofNat data.length + (if flags &&& tcpFlagSyn ≠ 0 then 1 else 0) +
        (if flags &&& tcpFlagFin ≠ 0 then 1 else 0) := by
    unfold sequenceLength
    split_ifs <;> simp
  unfold startPendingSegment
  rw [if_neg (by rw [hactive]; simp; omega)]
  rw [← hlength]
  exact sendSegment_sends env _ _ _ hdata

theorem retransmitPending_sends {c : TcpClient} (hactive : c.pendingActive = true)
    (hretries : c.pendingRetries < c.maxRetries)
    (hdata : c.pendingData.length ≤ tcpClientMaxSegmentData) :
    Sends c.outbound.resent (retransmitPending env c) := by
  unfold retransmitPending
  rw [if_neg (by simp [hactive]), if_neg (UInt32.not_le.2 hretries)]
  exact sendSegment_sends env _ _ _ hdata

@[simp] theorem outbound_failClient (error : TcpClientError) :
    (c.failClient error).outbound = c.outbound.fail := rfl

theorem outbound_rejectOperation (operation : TcpClientOperation) (error : TcpClientError) :
    c.outbound.Rests (c.rejectOperation operation error).2.outbound := by
  unfold rejectOperation
  split
  · exact .stay
  · rename_i hbusy
    exact .reject operation fun h => hbusy ((operationIsBusy_iff c).2 h)

theorem outbound_completeIfReached {c : TcpClient} (hfailed : c.state ≠ .failed) :
    c.outbound.GoalReached ∧
        c.completeIfReached.outbound = { c.outbound with stepResult := .complete } ∨
      ¬c.outbound.GoalReached ∧ c.completeIfReached = c := by
  unfold completeIfReached
  rw [if_neg hfailed]
  by_cases hgoal : c.operationGoalReached = true
  · rw [if_pos hgoal]
    exact .inl ⟨(operationGoalReached_iff c).1 hgoal, rfl⟩
  · rw [if_neg hgoal]
    exact .inr ⟨fun h => hgoal ((operationGoalReached_iff c).2 h), rfl⟩

/-- An operation that is begun and needs nothing to be sent. -/
theorem rests_begin {env : TcpEnv} {c : TcpClient} {operation : TcpClientOperation}
    (hbusy : ¬c.operationIsBusy = true) (hfailed : c.state ≠ .failed) :
    c.outbound.Rests (finishBegin (true, beginOperation env c operation)).2.outbound := by
  have hbusy' : ¬c.outbound.Busy := fun h => hbusy ((operationIsBusy_iff c).2 h)
  have hfailed' : (beginOperation env c operation).state ≠ .failed := hfailed
  rw [finishBegin, if_pos rfl]
  rcases outbound_completeIfReached hfailed' with ⟨hgoal, h⟩ | ⟨-, h⟩
  · rw [h]
    exact .beginComplete operation hbusy' hfailed hgoal
  · rw [h]
    exact .begin operation hbusy' hfailed

/-- The end of a begin function whose goal is not reached by what it sent. -/
theorem Sends.finishBegin {o : Outbound} {r : Bool × TcpClient} (h : Sends o r)
    (hfailed : o.state ≠ .failed) (hgoal : ¬o.GoalReached) :
    (finishBegin r).2.outbound = o ∨ (finishBegin r).2.outbound = o.fail := by
  rcases h.eq_pair with ⟨d, rfl, hd⟩ | ⟨d, rfl, hd⟩
  · have hstate : d.state ≠ .failed := by
      intro hs
      exact hfailed (by rw [← hd]; exact hs)
    left
    rw [TcpClient.finishBegin, if_pos rfl]
    rcases outbound_completeIfReached hstate with ⟨hreached, -⟩ | ⟨-, hsame⟩
    · rw [hd] at hreached
      exact absurd hreached hgoal
    · rw [hsame]
      exact hd
  · exact .inr hd

end TcpClient

/-! ### The calls that begin a segment -/

namespace TcpClient

/-- `tcp_client_begin_connect` gets to its SYN. -/
def AcceptsConnect (c : TcpClient) (remoteIp : UInt32) (remotePort : UInt16) : Prop :=
  ¬(c.io.sendIpv4 = false ∨ c.io.nowMs = false ∨ c.localPort = 0 ∨
      (c.receive.isNull ∧ c.receive.capacity ≠ 0) ∨ remoteIp = 0 ∨ remotePort = 0) ∧
    ¬c.operationIsBusy = true ∧ c.state = .closed

/-- `tcp_client_begin_send` takes the buffer. -/
def AcceptsSend (c : TcpClient) (dataIsNull : Bool) (data : List UInt8) : Prop :=
  ¬((dataIsNull ∧ data.length ≠ 0) ∨ data.length > tcpClientMaxSegmentData) ∧
    ¬c.operationIsBusy = true ∧ c.state = .established

/-- `tcp_client_begin_close` gets to its FIN. -/
def AcceptsClose (c : TcpClient) : Prop :=
  ¬(c.io.sendIpv4 = false ∨ c.io.nowMs = false) ∧ ¬c.operationIsBusy = true ∧
    ¬c.pendingActive = true ∧ (c.state = .established ∨ c.state = .closeWait)

instance (c : TcpClient) (remoteIp : UInt32) (remotePort : UInt16) :
    Decidable (c.AcceptsConnect remoteIp remotePort) := inferInstanceAs (Decidable (_ ∧ _ ∧ _))

instance (c : TcpClient) (dataIsNull : Bool) (data : List UInt8) :
    Decidable (c.AcceptsSend dataIsNull data) := inferInstanceAs (Decidable (_ ∧ _ ∧ _))

instance (c : TcpClient) : Decidable c.AcceptsClose :=
  inferInstanceAs (Decidable (_ ∧ _ ∧ _ ∧ _))

/-- The sending side once a begin function has handed over the segment that it begins. -/
def opens (c : TcpClient) : TcpCall → Option Outbound
  | .beginConnect remoteIp remotePort initialSequence =>
    if c.AcceptsConnect remoteIp remotePort then
      some ({ c.outbound.begun .connect with
        state := .synSent
        sendUnacknowledged := initialSequence
        sendNext := initialSequence
        wire := [] }.opened tcpFlagSyn [])
    else none
  | .beginSend dataIsNull data =>
    if c.AcceptsSend dataIsNull data ∧ data ≠ [] then
      some ((c.outbound.begun .send).opened (tcpFlagAck ||| tcpFlagPsh) data)
    else none
  | .beginClose =>
    if c.AcceptsClose then
      some ({ c.outbound.begun .close with
        state := if c.state = TcpClientState.established then .finWait1 else .lastAck }.opened
          (tcpFlagFin ||| tcpFlagAck) [])
    else none
  | _ => none

variable {c : TcpClient}

/-- Who begins a segment: a client that is not busy, closed or with an open sending side. -/
theorem opens_cases {call : TcpCall} {j : Outbound} (h : c.opens call = some j) :
    ¬c.operationIsBusy = true ∧
      (c.state = .closed ∨ c.state = .established ∨ c.state = .closeWait) := by
  cases call with
  | beginConnect =>
    rw [opens] at h
    split at h
    · rename_i haccepts
      exact ⟨haccepts.2.1, .inl haccepts.2.2⟩
    · cases h
  | beginSend =>
    rw [opens] at h
    split at h
    · rename_i haccepts
      exact ⟨haccepts.1.2.1, .inr (.inl haccepts.1.2.2)⟩
    · cases h
  | beginClose =>
    rw [opens] at h
    split at h
    · rename_i haccepts
      exact ⟨haccepts.2.1, .inr haccepts.2.2.2⟩
    · cases h
  | setTimeouts => cases h
  | beginWaitForPeerClose => cases h
  | service => cases h
  | receive => cases h

/-- What the proofs below need to know: a segment is only pending while its operation is, and it has
the size of a segment. -/
structure Orderly (c : TcpClient) : Prop where
  busy : c.pendingActive = true → c.operationIsBusy = true
  size : c.pendingActive = true → c.pendingData.length ≤ tcpClientMaxSegmentData

/-- What a begin function does: it begins a segment, or it sends nothing. -/
def Begins (c : TcpClient) (call : TcpCall) (o : Outbound) : Prop :=
  (∃ j, c.opens call = some j ∧ (o = j ∨ o = j.fail)) ∨ (c.opens call = none ∧ c.outbound.Rests o)

variable (env : TcpEnv)

theorem begins_tcpClientBeginConnect (c : TcpClient) (remoteIp : UInt32)
    (remotePort : UInt16) (initialSequence : UInt32) :
    c.Begins (.beginConnect remoteIp remotePort initialSequence)
      (tcpClientBeginConnect env c remoteIp remotePort initialSequence).2.outbound := by
  unfold tcpClientBeginConnect
  split
  · rename_i harguments
    exact .inr ⟨if_neg fun h => h.1 harguments, outbound_rejectOperation ..⟩
  rename_i harguments
  split
  · rename_i hbusy
    exact .inr ⟨if_neg fun h => h.2.1 hbusy, outbound_rejectOperation ..⟩
  rename_i hbusy
  split
  · rename_i hfailed
    exact .inr ⟨if_neg fun h => absurd (hfailed.symm.trans h.2.2) (by nofun),
      .refuse .connect hfailed⟩
  split
  · rename_i hclosed
    exact .inr ⟨if_neg fun h => hclosed h.2.2, outbound_rejectOperation ..⟩
  rename_i hclosed
  have haccepts : c.AcceptsConnect remoteIp remotePort :=
    ⟨harguments, hbusy, not_not.1 hclosed⟩
  refine .inl ⟨_, if_pos haccepts, ?_⟩
  exact (startPendingSegment_sends env tcpFlagSyn rfl (Nat.zero_le _)).finishBegin (by nofun)
    (by nofun)

theorem begins_tcpClientBeginSend (horderly : c.Orderly) (dataIsNull : Bool) (data : List UInt8) :
    c.Begins (.beginSend dataIsNull data) (tcpClientBeginSend env c dataIsNull
      data).2.outbound := by
  unfold tcpClientBeginSend
  split
  · rename_i harguments
    exact .inr ⟨if_neg fun h => h.1.1 harguments, outbound_rejectOperation ..⟩
  rename_i harguments
  split
  · rename_i hbusy
    exact .inr ⟨if_neg fun h => h.1.2.1 hbusy, outbound_rejectOperation ..⟩
  rename_i hbusy
  split
  · rename_i hfailed
    exact .inr ⟨if_neg fun h => absurd (hfailed.symm.trans h.1.2.2) (by nofun),
      .refuse .send hfailed⟩
  rename_i hfailed
  split
  · rename_i hestablished
    exact .inr ⟨if_neg fun h => hestablished h.1.2.2, outbound_rejectOperation ..⟩
  rename_i hestablished
  split
  · rename_i hempty
    exact .inr ⟨if_neg fun h => h.2 (List.length_eq_zero_iff.1 hempty), rests_begin hbusy hfailed⟩
  · rename_i hsome
    have haccepts : c.AcceptsSend dataIsNull data ∧ data ≠ [] :=
      ⟨⟨harguments, hbusy, not_not.1 hestablished⟩, fun h => hsome (by rw [h]; rfl)⟩
    have hactive : c.pendingActive = false := by
      cases h : c.pendingActive with
      | false => rfl
      | true => exact absurd (horderly.busy h) hbusy
    refine .inl ⟨_, if_pos haccepts, ?_⟩
    refine (startPendingSegment_sends env (c := beginOperation env c .send)
      (tcpFlagAck ||| tcpFlagPsh) hactive ?_).finishBegin hfailed ?_
    · rw [not_or] at harguments
      omega
    · nofun

theorem begins_tcpClientBeginWaitForPeerClose (c : TcpClient) :
    c.Begins .beginWaitForPeerClose (tcpClientBeginWaitForPeerClose env c).2.outbound := by
  refine .inr ⟨rfl, ?_⟩
  unfold tcpClientBeginWaitForPeerClose
  split
  · exact outbound_rejectOperation ..
  split
  · exact outbound_rejectOperation ..
  rename_i hbusy
  split
  · rename_i hfailed
    exact .refuse .waitForPeerClose hfailed
  rename_i hfailed
  split
  · exact rests_begin hbusy hfailed
  split
  · exact outbound_rejectOperation ..
  · exact .begin .waitForPeerClose (fun h => hbusy ((operationIsBusy_iff c).2 h)) hfailed

theorem begins_tcpClientBeginClose (c : TcpClient) :
    c.Begins .beginClose (tcpClientBeginClose env c).2.outbound := by
  have hrefuses : c.state ≠ .established → c.state ≠ .closeWait → ¬c.AcceptsClose :=
    fun hestablished hcloseWait h => h.2.2.2.elim hestablished hcloseWait
  unfold tcpClientBeginClose
  split
  · rename_i harguments
    exact .inr ⟨if_neg fun h => h.1 harguments, outbound_rejectOperation ..⟩
  rename_i harguments
  split
  · rename_i hbusy
    exact .inr ⟨if_neg fun h => h.2.1 hbusy, outbound_rejectOperation ..⟩
  rename_i hbusy
  split
  · rename_i hclosed
    exact .inr ⟨if_neg (hrefuses (by simp [hclosed]) (by simp [hclosed])),
      rests_begin hbusy (by simp [hclosed])⟩
  split
  · rename_i hfailed
    exact .inr ⟨if_neg (hrefuses (by simp [hfailed]) (by simp [hfailed])), .refuse .close hfailed⟩
  rename_i hfailed
  split
  · rename_i hactive
    exact .inr ⟨if_neg fun h => h.2.2.1 hactive, outbound_rejectOperation ..⟩
  rename_i hactive
  have hactive' : c.pendingActive = false := by simpa using hactive
  -- the FIN is sent in one of two states, and a close that is under way sends nothing
  have hopens {state : TcpClientState} (hstate : c.state = .established ∨ c.state = .closeWait)
      (hnext : (if c.state = .established then .finWait1 else .lastAck) = state)
      (hne : state ≠ .failed) (hopen : state ≠ .closed) : c.Begins .beginClose (finishBegin
        (startPendingSegment env { beginOperation env c .close with state := state }
          (tcpFlagFin ||| tcpFlagAck) [])).2.outbound := by
    refine .inl ⟨_, if_pos ⟨harguments, hbusy, hactive, hstate⟩, ?_⟩
    rw [hnext]
    exact (startPendingSegment_sends env (c := { beginOperation env c .close with state := state })
      _ hactive' (Nat.zero_le _)).finishBegin hne hopen
  have hwaits {state : TcpClientState} (hstate : c.state = state)
    (hestablished : state ≠ .established)
      (hcloseWait : state ≠ .closeWait) :
      c.Begins .beginClose (finishBegin (true, beginOperation env c .close)).2.outbound :=
    .inr ⟨if_neg (hrefuses (hstate ▸ hestablished) (hstate ▸ hcloseWait)),
      rests_begin hbusy hfailed⟩
  dsimp only
  split
  · rename_i hstate
    exact hopens (.inl hstate) (if_pos hstate) (by nofun) (by nofun)
  · rename_i hstate
    have hstate' : c.state = .closeWait := hstate
    exact hopens (.inr hstate') (if_neg (by simp [hstate'])) (by nofun) (by nofun)
  · exact hwaits ‹c.state = .finWait1› (by nofun) (by nofun)
  · exact hwaits ‹c.state = .finWait2› (by nofun) (by nofun)
  · exact hwaits ‹c.state = .closing› (by nofun) (by nofun)
  · exact hwaits ‹c.state = .lastAck› (by nofun) (by nofun)
  · rename_i hestablished hcloseWait _ _ _ _
    exact .inr ⟨if_neg (hrefuses hestablished hcloseWait),
      .reject .close fun h => hbusy ((operationIsBusy_iff c).2 h)⟩

/-! ### Services -/

/-- What a service can do. -/
inductive Serves (c : TcpClient) : Outbound → Prop
  | rests {o : Outbound} (h : c.outbound.Rests o) : Serves c o
  | fails (h : c.state ≠ .failed) : Serves c c.outbound.fail
  | resends {o : Outbound} (hfailed : c.state ≠ .failed) (hactive : c.pendingActive = true)
      (hretries : c.pendingRetries < c.maxRetries)
      (ho : o = c.outbound.resent ∨ o = c.outbound.resent.fail) : Serves c o

theorem outbound_noteClock (c : TcpClient) : (noteClock env c).2.outbound = c.outbound := by
  unfold noteClock
  split_ifs <;> rfl

theorem serves_tcpClientService (horderly : c.Orderly) :
    c.Serves (tcpClientService env c).2.outbound := by
  unfold tcpClientService
  split
  · rename_i hfailed
    exact .rests (.refuse c.operation hfailed)
  rename_i hfailed
  split
  · exact .rests .stay
  have hgoal : c.completeIfReached.stepResult = .pending → ¬c.outbound.GoalReached := by
    intro hpending hreached
    rcases outbound_completeIfReached hfailed with ⟨-, h⟩ | ⟨h, -⟩
    · have := congrArg Outbound.stepResult h
      rw [show c.completeIfReached.outbound.stepResult = .pending from hpending] at this
      cases this
    · exact h hreached
  split
  · rcases outbound_completeIfReached hfailed with ⟨hreached, h⟩ | ⟨-, h⟩
    · rw [h]
      exact .rests (.complete hfailed hreached)
    · rw [h]
      exact .rests .stay
  rename_i hreached
  have hgoal := hgoal (not_not.1 hreached)
  split
  · exact .fails hfailed
  -- reading the clock leaves the sending side as it is
  have hnote := outbound_noteClock env c
  revert hnote
  rcases noteClock env c with ⟨_ | error, d⟩
  · intro hnote
    have hd : d.outbound = c.outbound := hnote
    have hstate : d.state = c.state := congrArg Outbound.state hd
    have hactive : d.pendingActive = c.pendingActive := congrArg Outbound.pendingActive hd
    have hretries : d.pendingRetries = c.pendingRetries := congrArg Outbound.pendingRetries hd
    have hlimit : d.maxRetries = c.maxRetries := congrArg Outbound.maxRetries hd
    have hdata : d.pendingData = c.pendingData := congrArg Outbound.pendingData hd
    have hfailed' : d.state ≠ .failed := by rwa [hstate]
    dsimp only
    split
    · rw [outbound_failClient, hd]
      exact .fails hfailed
    split
    · rename_i hdue
      rw [hactive] at hdue
      by_cases hmore : c.pendingRetries < c.maxRetries
      · have hsends := retransmitPending_sends env (hactive.trans hdue.1)
          (by rw [hretries, hlimit]; exact hmore) (by rw [hdata]; exact horderly.size hdue.1)
        rw [hd] at hsends
        exact .resends hfailed hdue.1 hmore (hsends.finishBegin hfailed hgoal)
      · have hexhausted : retransmitPending env d = (false, d.failClient .retriesExhausted) := by
          rw [retransmitPending, if_neg (by simp [hactive, hdue.1]),
            if_pos (by rw [hretries, hlimit]; exact UInt32.not_lt.1 hmore)]
        rw [hexhausted]
        have hfails : (finishBegin (false, d.failClient .retriesExhausted)).2.outbound =
            c.outbound.fail := by
          rw [← hd]
          rfl
        rw [hfails]
        exact .fails hfailed
    · rw [finishBegin, if_pos rfl]
      rcases outbound_completeIfReached hfailed' with ⟨hreached, -⟩ | ⟨-, h⟩
      · rw [hd] at hreached
        exact absurd hreached hgoal
      · rw [h, hd]
        exact .rests .stay
  · intro hnote
    have hd : d.outbound = c.outbound := hnote
    rw [outbound_failClient, hd]
    exact .fails hfailed

/-! ### Received segments -/

/-- The segment is acceptable and its acknowledgment is looked at. -/
structure Acknowledges (c : TcpClient) (srcIp dstIp : UInt32) (packet : List UInt8) : Prop where
  connected : c.state.Connected
  fromPeer : FromPeer c.inbound.endpoints srcIp dstIp packet
  not_rst : hasFlag packet tcpFlagRst = false
  not_syn : hasFlag packet tcpFlagSyn = false
  ack : hasFlag packet tcpFlagAck = true
  sequence_eq : sequenceOf packet = c.receiveNext

theorem outbound_acknowledgePending (c : TcpClient) (acknowledgment : UInt32) :
    (c.acknowledgePending acknowledgment).1 = !sequenceAfter acknowledgment c.sendNext ∧
      (c.acknowledgePending acknowledgment).2.outbound = c.outbound.acknowledge acknowledgment := by
  by_cases hafter : sequenceAfter acknowledgment c.sendNext = true
  · have hold : c.outbound.acknowledge acknowledgment = c.outbound := if_pos (.inl hafter)
    rw [acknowledgePending, if_pos hafter, hold, hafter]
    exact ⟨rfl, rfl⟩
  have hsent : sequenceAfter acknowledgment c.sendNext = false := by simpa using hafter
  by_cases hbefore : sequenceBefore acknowledgment c.sendUnacknowledged = true
  · have hold : c.outbound.acknowledge acknowledgment = c.outbound := if_pos (.inr hbefore)
    rw [acknowledgePending, if_neg hafter, if_pos hbefore, hold, hsent]
    exact ⟨rfl, rfl⟩
  have hnew : ¬(sequenceAfter acknowledgment c.outbound.sendNext = true ∨
      sequenceBefore acknowledgment c.outbound.sendUnacknowledged = true) :=
    fun h => h.elim hafter hbefore
  rw [acknowledgePending, if_neg hafter, if_neg hbefore, hsent]
  by_cases hother : c.pendingActive = false ∨ acknowledgment ≠ c.pendingEnd
  · have hpart : c.outbound.acknowledge acknowledgment =
        { c.outbound with sendUnacknowledged := acknowledgment } := by
      rw [Outbound.acknowledge, if_neg hnew]
      exact if_pos hother
    have hother' : (!c.pendingActive) = true ∨
        acknowledgment ≠ c.pendingEnd := by simpa using hother
    rw [hpart, if_pos hother']
    exact ⟨rfl, rfl⟩
  have hwhole : c.outbound.acknowledge acknowledgment =
      { c.outbound with
        sendUnacknowledged := acknowledgment
        pendingActive := false
        state :=
          if c.pendingFlags &&& tcpFlagFin ≠ 0 then c.state.afterFinAcked else c.state } := by
    rw [Outbound.acknowledge, if_neg hnew]
    exact if_neg hother
  have hother' : ¬((!c.pendingActive) = true ∨ acknowledgment ≠ c.pendingEnd) := by
    simpa using hother
  rw [hwhole, if_neg hother']
  by_cases hfin : c.pendingFlags &&& tcpFlagFin ≠ 0
  · rw [if_pos hfin, if_pos hfin]
    cases hstate : c.state <;>
      exact ⟨rfl, by simp [outbound, TcpClientState.afterFinAcked]⟩
  · rw [if_neg hfin, if_neg hfin]
    exact ⟨rfl, rfl⟩

end TcpClient

/-- What the data and the FIN of a segment do to the sending side: an answer is sent, and a FIN
changes the state. -/
inductive Outbound.Delivers (o : Outbound) : Outbound → Prop
  | nothing : Delivers o o
  | answer : Delivers o o.answer
  | finish : Delivers o { o.answer with state := o.state.afterFin }

namespace TcpClient

variable (env : TcpEnv)

theorem delivers_receiveFin (c : TcpClient) : ∃ j, c.outbound.Delivers j ∧
      ((receiveFin env c).2.outbound = j ∨ (receiveFin env c).2.outbound = j.fail) := by
  rcases (sendAck_sends env { c with
      receiveNext := c.receiveNext + 1
      history := .peerFin :: c.history }).eq_pair with ⟨d, hr, hd⟩ | ⟨d, hr, hd⟩
  · have hd' : d.outbound = c.outbound.answer := hd
    refine ⟨_, .finish, .inl ?_⟩
    have hstate : d.state = c.state := congrArg Outbound.state hd'
    rw [receiveFin, hr, ← hd', show c.outbound.state = d.state from hstate.symm]
    cases hs : d.state <;> simp [outbound, TcpClientState.afterFin, hs]
  · refine ⟨_, .answer, .inr ?_⟩
    rw [receiveFin, hr]
    exact hd

theorem delivers_receiveData (c : TcpClient) (packet : List UInt8) : ∃ j, c.outbound.Delivers j ∧
      ((receiveData env c packet).2.outbound = j ∨
        (receiveData env c packet).2.outbound = j.fail) := by
  unfold receiveData
  split
  · split
    · rename_i hfits
      split
      · exact ⟨_, .nothing, .inl rfl⟩
      split
      · exact delivers_receiveFin env { c with
          receive := c.receive.append (dataOf packet) hfits
          receiveNext := c.receiveNext + UInt32.ofNat (dataOf packet).length }
      · exact ⟨_, .answer, (sendAck_sends env { c with
          receive := c.receive.append (dataOf packet) hfits
          receiveNext := c.receiveNext + UInt32.ofNat (dataOf packet).length }).eq_or⟩
    · exact ⟨_, .nothing, .inr rfl⟩
  · split
    · exact delivers_receiveFin env c
    · exact ⟨_, .nothing, .inl rfl⟩

/-- What a received segment can do. -/
inductive Receives (c : TcpClient) (srcIp dstIp : UInt32) :
    Option (List UInt8) → Outbound → Prop
  | rests {segment : Option (List UInt8)}
      (h : ∀ packet, segment = some packet → ¬c.Acknowledges srcIp dstIp packet) :
      Receives c srcIp dstIp segment c.outbound
  | fails {segment : Option (List UInt8)} (hfailed : c.state ≠ .failed)
      (h : ∀ packet, segment = some packet → ¬c.Acknowledges srcIp dstIp packet) :
      Receives c srcIp dstIp segment c.outbound.fail
  | answers {segment : Option (List UInt8)} {o : Outbound} (hstate : c.state.Connected)
      (h : ∀ packet, segment = some packet → ¬c.Acknowledges srcIp dstIp packet)
      (ho : o = c.outbound.answer ∨ o = c.outbound.answer.fail) :
      Receives c srcIp dstIp segment o
  | establishes {packet : List UInt8} {o : Outbound} (hstate : c.state = .synSent)
      (hpeer : FromPeer c.inbound.endpoints srcIp dstIp packet) (hactive : c.pendingActive = true)
      (hack : acknowledgmentOf packet = c.pendingEnd)
      (ho : o = c.outbound.established.answer ∨ o = c.outbound.established.answer.fail) :
      Receives c srcIp dstIp (some packet) o
  | acknowledges {packet : List UInt8} {j o : Outbound} (h : c.Acknowledges srcIp dstIp packet)
      (hj : (c.outbound.acknowledge (acknowledgmentOf packet)).Delivers j)
      (ho : o = j ∨ o = j.fail) :
      Receives c srcIp dstIp (some packet) o

theorem receives_receiveConnected {c : TcpClient} {srcIp dstIp : UInt32}
    {packet : List UInt8} (hconnected : c.state.Connected)
    (hpeer : FromPeer c.inbound.endpoints srcIp dstIp packet)
    (hrst : hasFlag packet tcpFlagRst = false) :
    c.Receives srcIp dstIp (some packet) (receiveConnected env c packet).2.outbound := by
  unfold receiveConnected
  split
  · rename_i hsyn
    refine .answers hconnected ?_ (sendAck_sends env c.countMalformed).eq_or
    rintro _ ⟨⟩ h
    rw [h.not_syn] at hsyn
    cases hsyn
  rename_i hsyn
  split
  · rename_i hack
    refine .rests ?_
    rintro _ ⟨⟩ h
    rw [h.ack] at hack
    cases hack
  rename_i hack
  split
  · rename_i hsequence
    have hnot : ∀ p, some packet = some p → ¬c.Acknowledges srcIp dstIp p := by
      rintro _ ⟨⟩ h
      exact hsequence h.sequence_eq
    split
    · exact .answers hconnected hnot (sendAck_sends env c).eq_or
    · exact .rests hnot
  rename_i hsequence
  have hacknowledges : c.Acknowledges srcIp dstIp packet :=
    ⟨hconnected, hpeer, hrst, by simpa using hsyn, by simpa using hack, not_not.1 hsequence⟩
  obtain ⟨-, hd⟩ := outbound_acknowledgePending c (acknowledgmentOf packet)
  revert hd
  rcases c.acknowledgePending (acknowledgmentOf packet) with ⟨_ | _, d⟩ <;> intro hd
  · refine .acknowledges hacknowledges .answer ?_
    rw [← show d.outbound = c.outbound.acknowledge (acknowledgmentOf packet) from hd]
    exact (sendAck_sends env d).eq_or
  · have hd' : d.outbound = c.outbound.acknowledge (acknowledgmentOf packet) := hd
    dsimp only
    split
    · exact .acknowledges hacknowledges .nothing (.inl hd')
    · obtain ⟨j, hj, ho⟩ := delivers_receiveData env d packet
      rw [hd'] at hj
      exact .acknowledges hacknowledges hj ho

theorem receives_tcpClientReceive (c : TcpClient) (srcIp dstIp : UInt32)
    (segment : Option (List UInt8)) :
    c.Receives srcIp dstIp segment (tcpClientReceive env c srcIp dstIp segment).2.outbound := by
  by_cases hpeer : ∃ packet, segment = some packet ∧ c.state ≠ .closed ∧ c.state ≠ .failed ∧
      FromPeer c.inbound.endpoints srcIp dstIp packet
  · obtain ⟨packet, rfl, hclosed, hfailed, hpeer⟩ := hpeer
    rw [tcpClientReceive_of_fromPeer env hclosed hfailed hpeer, receiveValid]
    split
    · rename_i hrst
      have hnot : ∀ p, some packet = some p → ¬c.Acknowledges srcIp dstIp p := by
        rintro _ ⟨⟩ h
        rw [h.not_rst] at hrst
        cases hrst
      unfold receiveReset
      generalize (if c.state = .synSent then _ else _ : Bool) = acceptable
      cases acceptable with
      | false => exact .rests hnot
      | true => exact .fails hfailed hnot
    rename_i hrst
    split
    · rename_i hstate
      unfold receiveSynSent
      split
      · refine .rests ?_
        rintro _ ⟨⟩ h
        exact h.connected.2.2 hstate
      · rename_i hvalid
        simp only [not_or, not_not] at hvalid
        have hack : acknowledgmentOf packet = c.pendingEnd := hvalid.2.2.2.2
        refine .establishes hstate hpeer (by simpa using hvalid.2.2.2.1) hack ?_
        have hsends := (sendAck_sends env
          { c with
            sendUnacknowledged := acknowledgmentOf packet
            pendingActive := false
            receiveNext := sequenceOf packet + 1
            state := .established
            history := .peerSyn (sequenceOf packet) :: c.history }).eq_or
        rw [hack] at hsends ⊢
        exact hsends
    · rename_i hstate
      exact receives_receiveConnected env ⟨hclosed, hfailed, hstate⟩ hpeer (by simpa using hrst)
  · obtain ⟨_, _, hcounted⟩ := tcpClientReceive_of_not env c srcIp dstIp segment
      fun packet hsegment hclosed hfailed hfrom => hpeer ⟨packet, hsegment, hclosed, hfailed, hfrom⟩
    rw [hcounted]
    refine .rests ?_
    rintro packet rfl h
    exact hpeer ⟨packet, rfl, h.connected.1, h.connected.2.1, h.fromPeer⟩

end TcpClient

/-! ### All calls -/

/-- What one call can do to the sending side. -/
inductive Sending (c : TcpClient) : TcpCall → Outbound → Prop
  | opens {call : TcpCall} {j o : Outbound} (h : c.opens call = some j) (ho : o = j ∨ o = j.fail) :
      Sending c call o
  | rests {call : TcpCall} {o : Outbound} (hopens : c.opens call = none)
      (hcall : ∀ srcIp dstIp segment, call ≠ .receive srcIp dstIp segment)
      (h : c.outbound.Rests o) : Sending c call o
  | serves {o : Outbound} (h : c.Serves o) : Sending c .service o
  | receives {srcIp dstIp : UInt32} {segment : Option (List UInt8)} {o : Outbound}
      (h : c.Receives srcIp dstIp segment o) : Sending c (.receive srcIp dstIp segment) o

theorem TcpClient.Begins.sending {c : TcpClient} {call : TcpCall} {o : Outbound}
    (h : c.Begins call o) (hcall : ∀ srcIp dstIp segment, call ≠ .receive srcIp dstIp segment) :
    Sending c call o := by
  rcases h with ⟨j, hj, ho⟩ | ⟨hopens, hrests⟩
  · exact .opens hj ho
  · exact .rests hopens hcall hrests

open TcpClient in
/-- **The effect of a call on the sending side.** -/
theorem TcpCall.sending_run (env : TcpEnv) {c : TcpClient} (horderly : c.Orderly) (call : TcpCall) :
    Sending c call (call.run env c).outbound := by
  cases call with
  | setTimeouts retransmitMs operationTimeoutMs maxRetries =>
    refine .rests rfl (by simp) ?_
    rw [TcpCall.run, tcpClientSetTimeouts]
    split
    · exact .stay
    split
    · exact .stay
    · rename_i hclosed
      exact .setRetries maxRetries (not_not.1 hclosed)
  | beginConnect remoteIp remotePort initialSequence =>
    exact (begins_tcpClientBeginConnect env c _ _ _).sending (by simp)
  | beginSend dataIsNull data =>
    exact (begins_tcpClientBeginSend env horderly _ _).sending (by simp)
  | beginWaitForPeerClose => exact (begins_tcpClientBeginWaitForPeerClose env c).sending (by simp)
  | beginClose => exact (begins_tcpClientBeginClose env c).sending (by simp)
  | service => exact .serves (serves_tcpClientService env horderly)
  | receive srcIp dstIp segment => exact .receives (receives_tcpClientReceive env c _ _ _)

end Nostalux.Tcp
