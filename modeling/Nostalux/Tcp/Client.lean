import Nostalux.Library.BigEndian
import Nostalux.Library.Buffer
import Nostalux.Library.OnesComplement

/-!
# `kernel/tcp_client.c`: the TCP client

The record `tcp_client` and the functions that act on it.  A call of the client reads the clock at
most once and hands at most one segment to `send_ipv4`, so what a call learns from its surroundings
is one clock value and one answer (`TcpEnv`).

The receive buffer is a structure of its own: the received bytes never exceed the capacity
(`ReceiveBuffer.length_le`), and the only ways to change it are to empty it and to append bytes that
fit.  The field `history` is not part of the program: it records what the current connection has
sent and which control segments of the peer it has processed.
-/

namespace Nostalux.Tcp

open BigEndian

/-! ### Constants and enumerations -/

/-- `TCP_HEADER_LENGTH`. -/
abbrev tcpHeaderLength : ℕ := 20

/-- `TCP_CLIENT_MAX_SEGMENT_DATA`. -/
abbrev tcpClientMaxSegmentData : ℕ := 536

/-- `TCP_CLIENT_IPV4_PROTOCOL`. -/
abbrev tcpClientIpv4Protocol : ℕ := 6

/-- `TCP_CLIENT_CLOCK_STALL_SERVICE_LIMIT`. -/
abbrev tcpClientClockStallServiceLimit : UInt32 := 1000000

/-- `TCP_FLAG_FIN`. -/
abbrev tcpFlagFin : UInt8 := 0x01

/-- `TCP_FLAG_SYN`. -/
abbrev tcpFlagSyn : UInt8 := 0x02

/-- `TCP_FLAG_RST`. -/
abbrev tcpFlagRst : UInt8 := 0x04

/-- `TCP_FLAG_PSH`. -/
abbrev tcpFlagPsh : UInt8 := 0x08

/-- `TCP_FLAG_ACK`. -/
abbrev tcpFlagAck : UInt8 := 0x10

/-- `TCP_FLAG_URG`. -/
abbrev tcpFlagUrg : UInt8 := 0x20

/-- `enum tcp_client_state`. -/
inductive TcpClientState
  | closed
  | synSent
  | established
  | finWait1
  | finWait2
  | closing
  | closeWait
  | lastAck
  | failed
  deriving DecidableEq

/-- `enum tcp_client_error`. -/
inductive TcpClientError
  | none
  | invalidArgument
  | busy
  | notConnected
  | sendFailed
  | timeout
  | retriesExhausted
  | clockMovedBackward
  | clockStalled
  | reset
  | responseTooLarge
  | protocol
  deriving DecidableEq

/-- `enum tcp_client_receive_result`. -/
inductive TcpClientReceiveResult
  | ignored
  | accepted
  | badChecksum
  | malformed
  | responseTooLarge
  deriving DecidableEq

/-- `enum tcp_client_operation`. -/
inductive TcpClientOperation
  | none
  | connect
  | send
  | waitForPeerClose
  | close
  deriving DecidableEq

/-- `enum tcp_client_step_result`. -/
inductive TcpClientStepResult
  | pending
  | complete
  | failed
  deriving DecidableEq

/-! ### The receive buffer -/

/-- `receive_buffer`, `receive_capacity` and `receive_length`. -/
structure ReceiveBuffer where
  capacity : ℕ
  /-- Whether the pointer `receive_buffer` is `NULL`. -/
  isNull : Bool
  memory : Buffer capacity
  length : ℕ
  length_le : length ≤ capacity

namespace ReceiveBuffer

/-- The bytes `receive_buffer[0 .. receive_length)`. -/
def bytes (b : ReceiveBuffer) : List UInt8 := b.memory.bytes 0 b.length

variable (b : ReceiveBuffer)

@[simp] theorem length_bytes : b.bytes.length = b.length := by
  simp [bytes]

/-- The space that is left. -/
def remaining (b : ReceiveBuffer) : ℕ := b.capacity - b.length

/-- `receive_length = 0`. -/
def clear (b : ReceiveBuffer) : ReceiveBuffer :=
  { b with length := 0, length_le := Nat.zero_le _ }

/-- Copy data that fits behind the received bytes. -/
def append (b : ReceiveBuffer) (data : List UInt8) (h : data.length ≤ b.remaining) :
    ReceiveBuffer where
  capacity := b.capacity
  isNull := b.isNull
  memory := b.memory.blit b.length (byteAt data) data.length
  length := b.length + data.length
  length_le := by
    have hle := b.length_le
    rw [remaining] at h
    omega

@[simp] theorem length_append (data : List UInt8) (h) :
    (b.append data h).length = b.length + data.length := rfl

@[simp] theorem bytes_append (data : List UInt8) (h) :
    (b.append data h).bytes = b.bytes ++ data := by
  have hfit : b.length + data.length ≤ b.capacity := (b.append data h).length_le
  rw [bytes, bytes, length_append, append, Buffer.bytes_blit _ _ hfit, map_range_byteAt]

@[simp] theorem append_nil (h) : b.append [] h = b := by
  have hmemory : b.memory.blit b.length (byteAt []) 0 = b.memory := by
    refine Buffer.ext fun i _ => ?_
    rw [Buffer.byte_blit, if_neg (by omega)]
  cases b
  simpa [append] using hmemory

end ReceiveBuffer

/-! ### The client record -/

/-- Which callbacks of `struct tcp_client_io` are present. -/
structure TcpClientIo where
  sendIpv4 : Bool
  nowMs : Bool
  poll : Bool
  deriving DecidableEq

/-- What a connection has done so far.  This is not part of the program. -/
inductive TcpRecord
  /-- A segment was handed to `send_ipv4`, which gave the answer `ok`. -/
  | transmit (packet : List UInt8) (ok : Bool)
  /-- A SYN+ACK of the peer with this sequence number was accepted. -/
  | peerSyn (sequence : UInt32)
  /-- A FIN of the peer was processed. -/
  | peerFin
  deriving DecidableEq

/-- `struct tcp_client`.  The first `pending_length` bytes of `pending_data` are the list
`pendingData`; the others are never read. -/
structure TcpClient where
  io : TcpClientIo
  state : TcpClientState
  error : TcpClientError
  localIp : UInt32
  remoteIp : UInt32
  localPort : UInt16
  remotePort : UInt16
  sendUnacknowledged : UInt32
  sendNext : UInt32
  receiveNext : UInt32
  receive : ReceiveBuffer
  retransmitMs : UInt32
  operationTimeoutMs : UInt32
  maxRetries : UInt32
  operation : TcpClientOperation
  stepResult : TcpClientStepResult
  operationStartedAtMs : UInt64
  operationPreviousNowMs : UInt64
  operationStalledServices : UInt32
  pendingActive : Bool
  pendingFlags : UInt8
  pendingSequence : UInt32
  pendingEnd : UInt32
  pendingData : List UInt8
  pendingSentAtMs : UInt64
  pendingRetries : UInt32
  badChecksumCount : UInt32
  malformedSegmentCount : UInt32
  /-- Since the connection was begun, newest first. -/
  history : List TcpRecord

/-- What one call of the client learns from its callbacks. -/
structure TcpEnv where
  /-- The value of `now_ms`. -/
  now : UInt64
  /-- The answer of `send_ipv4`. -/
  sendOk : Bool

/-! ### Sequence numbers and the checksum -/

/-- `sequence_before`. -/
def sequenceBefore (left right : UInt32) : Bool := (left - right).toInt32 < 0

/-- `sequence_after`. -/
def sequenceAfter (left right : UInt32) : Bool := 0 < (left - right).toInt32

/-- `advertised_window`. -/
def advertisedWindow (c : TcpClient) : UInt16 := UInt16.ofNat (min c.receive.remaining 65535)

/-- The sum of the pseudo header that `tcp_client_checksum` starts from. -/
def pseudoHeaderSum (srcIp dstIp : UInt32) (segmentLength : ℕ) : ℕ :=
  srcIp.toNat / 65536 + srcIp.toNat % 65536 + (dstIp.toNat / 65536 + dstIp.toNat % 65536) +
    tcpClientIpv4Protocol + segmentLength

/-- `tcp_client_checksum`. -/
def tcpClientChecksum (srcIp dstIp : UInt32) (segment : List UInt8) : UInt16 :=
  if segment.length > 65535 then 0
  else
    OnesComplement.complement
      (pseudoHeaderSum srcIp dstIp segment.length + OnesComplement.wordSum segment)

namespace TcpClient

/-! ### Sending -/

/-- `fail_client`. -/
def failClient (c : TcpClient) (error : TcpClientError) : TcpClient :=
  { c with
    error := error
    state := .failed
    pendingActive := false
    stepResult := .failed }

/-- The header that `send_segment` builds, with the given checksum field. -/
def segmentHeader (c : TcpClient) (sequence : UInt32) (flags : UInt8) (checksum : UInt16) :
    List UInt8 :=
  writeU16 c.localPort ++ writeU16 c.remotePort ++ writeU32 sequence ++
    writeU32 (if flags &&& tcpFlagAck ≠ 0 then c.receiveNext else 0) ++ [0x50, flags] ++
    writeU16 (advertisedWindow c) ++ writeU16 checksum ++ [0, 0]

/-- The segment that `send_segment` hands to `send_ipv4`. -/
def segmentPacket (c : TcpClient) (sequence : UInt32) (flags : UInt8) (data : List UInt8) :
    List UInt8 :=
  c.segmentHeader sequence flags
    (tcpClientChecksum c.localIp c.remoteIp (c.segmentHeader sequence flags 0 ++ data)) ++ data

/-- `send_segment`. -/
def sendSegment (env : TcpEnv) (c : TcpClient) (sequence : UInt32) (flags : UInt8)
    (data : List UInt8) : Bool × TcpClient :=
  if data.length > tcpClientMaxSegmentData then (false, c.failClient .invalidArgument)
  else
    let sent := { c with
      history := .transmit (c.segmentPacket sequence flags data) env.sendOk :: c.history }
    if env.sendOk then (true, sent) else (false, sent.failClient .sendFailed)

/-- `send_ack`. -/
def sendAck (env : TcpEnv) (c : TcpClient) : Bool × TcpClient :=
  sendSegment env c c.sendNext tcpFlagAck []

/-- `start_pending_segment`. -/
def startPendingSegment (env : TcpEnv) (c : TcpClient) (flags : UInt8) (data : List UInt8) :
    Bool × TcpClient :=
  if c.pendingActive ∨ data.length > tcpClientMaxSegmentData then
    (false, c.failClient .protocol)
  else
    let sequenceLength : UInt32 := UInt32.ofNat data.length +
      (if flags &&& tcpFlagSyn ≠ 0 then 1 else 0) + (if flags &&& tcpFlagFin ≠ 0 then 1 else 0)
    sendSegment env
      { c with
        pendingActive := true
        pendingFlags := flags
        pendingSequence := c.sendNext
        pendingEnd := c.sendNext + sequenceLength
        pendingData := data
        pendingRetries := 0
        pendingSentAtMs := c.operationPreviousNowMs
        sendNext := c.sendNext + sequenceLength }
      c.sendNext flags data

/-- `retransmit_pending`. -/
def retransmitPending (env : TcpEnv) (c : TcpClient) : Bool × TcpClient :=
  if !c.pendingActive then (true, c)
  else if c.pendingRetries ≥ c.maxRetries then (false, c.failClient .retriesExhausted)
  else
    sendSegment env
      { c with
        pendingRetries := c.pendingRetries + 1
        pendingSentAtMs := env.now }
      c.pendingSequence c.pendingFlags c.pendingData

/-! ### Operations -/

/-- `operation_is_busy`. -/
def operationIsBusy (c : TcpClient) : Bool := c.operation ≠ .none ∧ c.stepResult = .pending

/-- `operation_goal_reached`. -/
def operationGoalReached (c : TcpClient) : Bool :=
  match c.operation with
  | .none => true
  | .connect => c.state = .established
  | .send => !c.pendingActive
  | .waitForPeerClose => c.state = .closeWait ∨ c.state = .closed
  | .close => c.state = .closed

/-- `complete_if_reached`; the result is the field `stepResult`. -/
def completeIfReached (c : TcpClient) : TcpClient :=
  if c.state = .failed then { c with stepResult := .failed }
  else if c.operationGoalReached then { c with stepResult := .complete, error := .none }
  else c

/-- `reject_operation`. -/
def rejectOperation (c : TcpClient) (operation : TcpClientOperation) (error : TcpClientError) :
    TcpClientStepResult × TcpClient :=
  if c.operationIsBusy then (.failed, { c with error := .busy })
  else (.failed, { c with operation := operation, stepResult := .failed, error := error })

/-- `begin_operation`. -/
def beginOperation (env : TcpEnv) (c : TcpClient) (operation : TcpClientOperation) : TcpClient :=
  { c with
    operation := operation
    stepResult := .pending
    operationStartedAtMs := env.now
    operationPreviousNowMs := env.now
    operationStalledServices := 0
    error := .none }

/-- A begun operation on a failed client: the operation is recorded and the error stays. -/
def refuseFailed (c : TcpClient) (operation : TcpClientOperation) :
    TcpClientStepResult × TcpClient :=
  (.failed, { c with operation := operation, stepResult := .failed })

/-- The common end of the begin functions: a failed start ends the call, otherwise the operation may
be complete at once. -/
def finishBegin (started : Bool × TcpClient) : TcpClientStepResult × TcpClient :=
  if started.1 then (started.2.completeIfReached.stepResult, started.2.completeIfReached)
  else (.failed, started.2)

/-- The clock checks of `tcp_client_service`: the error, if any, and the client with the clock
noted. -/
def noteClock (env : TcpEnv) (c : TcpClient) : Option TcpClientError × TcpClient :=
  if env.now < c.operationPreviousNowMs then (some .clockMovedBackward, c)
  else if env.now = c.operationPreviousNowMs then
    let c := { c with operationStalledServices := c.operationStalledServices + 1 }
    (if c.operationStalledServices ≥ tcpClientClockStallServiceLimit then some .clockStalled
      else none, c)
  else (none, { c with operationStalledServices := 0, operationPreviousNowMs := env.now })

/-- `tcp_client_service`. -/
def tcpClientService (env : TcpEnv) (c : TcpClient) : TcpClientStepResult × TcpClient :=
  if c.state = .failed then (.failed, { c with stepResult := .failed })
  else if c.stepResult ≠ .pending then (c.stepResult, c)
  else if c.completeIfReached.stepResult ≠ .pending then
    (c.completeIfReached.stepResult, c.completeIfReached)
  else if c.operation = .none ∨ c.io.nowMs = false then (.failed, c.failClient .invalidArgument)
  else
    match noteClock env c with
    | (some error, c) => (.failed, c.failClient error)
    | (none, c) =>
      if env.now - c.operationStartedAtMs ≥ c.operationTimeoutMs.toUInt64 then
        (.failed, c.failClient .timeout)
      else if c.pendingActive ∧ env.now - c.pendingSentAtMs ≥ c.retransmitMs.toUInt64 then
        finishBegin (retransmitPending env c)
      else finishBegin (true, c)

/-- `tcp_client_init`; `none` is a `NULL` pointer. -/
def tcpClientInit (io : Option TcpClientIo) (localIp : UInt32) (localPort : UInt16)
    (receiveBuffer : Option (ℕ → UInt8)) (receiveCapacity : ℕ) : TcpClient where
  io := io.getD ⟨false, false, false⟩
  state := .closed
  error :=
    if (receiveBuffer.isNone ∧ receiveCapacity ≠ 0) ∨ io.isNone ∨
        (io.getD ⟨false, false, false⟩).sendIpv4 = false ∨
        (io.getD ⟨false, false, false⟩).nowMs = false ∨ localPort = 0 then .invalidArgument
    else .none
  localIp := localIp
  remoteIp := 0
  localPort := localPort
  remotePort := 0
  sendUnacknowledged := 0
  sendNext := 0
  receiveNext := 0
  receive :=
    { capacity := receiveCapacity
      isNull := receiveBuffer.isNone
      memory := Buffer.ofFn (receiveBuffer.getD fun _ => 0)
      length := 0
      length_le := Nat.zero_le _ }
  retransmitMs := 250
  operationTimeoutMs := 5000
  maxRetries := 4
  operation := .none
  stepResult := .complete
  operationStartedAtMs := 0
  operationPreviousNowMs := 0
  operationStalledServices := 0
  pendingActive := false
  pendingFlags := 0
  pendingSequence := 0
  pendingEnd := 0
  pendingData := []
  pendingSentAtMs := 0
  pendingRetries := 0
  badChecksumCount := 0
  malformedSegmentCount := 0
  history := []

/-- `tcp_client_set_timeouts`. -/
def tcpClientSetTimeouts (c : TcpClient) (retransmitMs operationTimeoutMs maxRetries : UInt32) :
    Bool × TcpClient :=
  if retransmitMs = 0 ∨ operationTimeoutMs < retransmitMs then
    (false, { c with error := .invalidArgument })
  else if c.state ≠ .closed then (false, { c with error := .busy })
  else
    (true, { c with
      retransmitMs := retransmitMs
      operationTimeoutMs := operationTimeoutMs
      maxRetries := maxRetries
      error := .none })

/-- `tcp_client_begin_connect`. -/
def tcpClientBeginConnect (env : TcpEnv) (c : TcpClient) (remoteIp : UInt32) (remotePort : UInt16)
    (initialSequence : UInt32) : TcpClientStepResult × TcpClient :=
  if c.io.sendIpv4 = false ∨ c.io.nowMs = false ∨ c.localPort = 0 ∨
      (c.receive.isNull ∧ c.receive.capacity ≠ 0) ∨ remoteIp = 0 ∨ remotePort = 0 then
    c.rejectOperation .connect .invalidArgument
  else if c.operationIsBusy then c.rejectOperation .connect .busy
  else if c.state = .failed then c.refuseFailed .connect
  else if c.state ≠ .closed then c.rejectOperation .connect .busy
  else
    let c := { c with
      remoteIp := remoteIp
      remotePort := remotePort
      receive := c.receive.clear
      sendUnacknowledged := initialSequence
      sendNext := initialSequence
      receiveNext := 0
      pendingActive := false
      badChecksumCount := 0
      malformedSegmentCount := 0
      history := [] }
    finishBegin
      (startPendingSegment env { beginOperation env c .connect with state := .synSent }
        tcpFlagSyn [])

/-- `tcp_client_begin_send`. -/
def tcpClientBeginSend (env : TcpEnv) (c : TcpClient) (dataIsNull : Bool) (data : List UInt8) :
    TcpClientStepResult × TcpClient :=
  if (dataIsNull ∧ data.length ≠ 0) ∨ data.length > tcpClientMaxSegmentData then
    c.rejectOperation .send .invalidArgument
  else if c.operationIsBusy then c.rejectOperation .send .busy
  else if c.state = .failed then c.refuseFailed .send
  else if c.state ≠ .established then c.rejectOperation .send .notConnected
  else
    let c := beginOperation env c .send
    if data.length = 0 then finishBegin (true, c)
    else finishBegin (startPendingSegment env c (tcpFlagAck ||| tcpFlagPsh) data)

/-- `tcp_client_begin_wait_for_peer_close`. -/
def tcpClientBeginWaitForPeerClose (env : TcpEnv) (c : TcpClient) :
    TcpClientStepResult × TcpClient :=
  if c.io.nowMs = false then c.rejectOperation .waitForPeerClose .invalidArgument
  else if c.operationIsBusy then c.rejectOperation .waitForPeerClose .busy
  else if c.state = .failed then c.refuseFailed .waitForPeerClose
  else if c.state = .closeWait ∨ c.state = .closed then
    finishBegin (true, beginOperation env c .waitForPeerClose)
  else if c.state ≠ .established then c.rejectOperation .waitForPeerClose .notConnected
  else (.pending, beginOperation env c .waitForPeerClose)

/-- `tcp_client_begin_close`. -/
def tcpClientBeginClose (env : TcpEnv) (c : TcpClient) : TcpClientStepResult × TcpClient :=
  if c.io.sendIpv4 = false ∨ c.io.nowMs = false then c.rejectOperation .close .invalidArgument
  else if c.operationIsBusy then c.rejectOperation .close .busy
  else if c.state = .closed then finishBegin (true, beginOperation env c .close)
  else if c.state = .failed then c.refuseFailed .close
  else if c.pendingActive then c.rejectOperation .close .busy
  else
    let c := beginOperation env c .close
    match c.state with
    | .established =>
      finishBegin
        (startPendingSegment env { c with state := .finWait1 } (tcpFlagFin ||| tcpFlagAck) [])
    | .closeWait =>
      finishBegin
        (startPendingSegment env { c with state := .lastAck } (tcpFlagFin ||| tcpFlagAck) [])
    | .finWait1 | .finWait2 | .closing | .lastAck => finishBegin (true, c)
    | _ => (.failed, { c with stepResult := .failed, error := .notConnected })

/-! ### Receiving -/

/-- `client->malformed_segment_count++`. -/
def countMalformed (c : TcpClient) : TcpClient :=
  { c with malformedSegmentCount := c.malformedSegmentCount + 1 }

/-- `acknowledge_pending`. -/
def acknowledgePending (c : TcpClient) (acknowledgment : UInt32) : Bool × TcpClient :=
  if sequenceAfter acknowledgment c.sendNext then (false, c.countMalformed)
  else if sequenceBefore acknowledgment c.sendUnacknowledged then (true, c)
  else if !c.pendingActive ∨ acknowledgment ≠ c.pendingEnd then
    (true, { c with sendUnacknowledged := acknowledgment })
  else
    let c := { c with sendUnacknowledged := acknowledgment, pendingActive := false }
    if c.pendingFlags &&& tcpFlagFin ≠ 0 then
      match c.state with
      | .finWait1 => (true, { c with state := .finWait2 })
      | .closing | .lastAck => (true, { c with state := .closed })
      | _ => (true, c)
    else (true, c)

end TcpClient

/-! A received segment, by the offsets of the TCP header. -/

/-- Source port of a segment. -/
def sourcePort (packet : List UInt8) : UInt16 := readU16 packet 0

/-- Destination port of a segment. -/
def destinationPort (packet : List UInt8) : UInt16 := readU16 packet 2

/-- Sequence number of a segment. -/
def sequenceOf (packet : List UInt8) : UInt32 := readU32 packet 4

/-- Acknowledgment number of a segment. -/
def acknowledgmentOf (packet : List UInt8) : UInt32 := readU32 packet 8

/-- Header length of a segment, in bytes. -/
def headerLength (packet : List UInt8) : ℕ := (byteAt packet 12).toNat / 16 * 4

/-- Flags of a segment. -/
def flagsOf (packet : List UInt8) : UInt8 := byteAt packet 13

/-- Data of a segment. -/
def dataOf (packet : List UInt8) : List UInt8 := packet.drop (headerLength packet)

/-- Whether a segment carries a flag. -/
def hasFlag (packet : List UInt8) (flag : UInt8) : Bool := flagsOf packet &&& flag ≠ 0

namespace TcpClient

/-- The RST branch of `tcp_client_receive`. -/
def receiveReset (c : TcpClient) (packet : List UInt8) : TcpClientReceiveResult × TcpClient :=
  let acceptableReset : Bool :=
    if c.state = .synSent then
      hasFlag packet tcpFlagAck ∧ c.pendingActive ∧ acknowledgmentOf packet = c.pendingEnd
    else sequenceOf packet = c.receiveNext
  if acceptableReset then (.accepted, c.failClient .reset) else (.malformed, c.countMalformed)

/-- The `TCP_CLIENT_SYN_SENT` branch of `tcp_client_receive`. -/
def receiveSynSent (env : TcpEnv) (c : TcpClient) (packet : List UInt8) :
    TcpClientReceiveResult × TcpClient :=
  if flagsOf packet &&& (tcpFlagSyn ||| tcpFlagAck) ≠ tcpFlagSyn ||| tcpFlagAck ∨
      hasFlag packet tcpFlagFin ∨ dataOf packet ≠ [] ∨ c.pendingActive = false ∨
      acknowledgmentOf packet ≠ c.pendingEnd then
    (.malformed, c.countMalformed)
  else
    (.accepted, (sendAck env
      { c with
        sendUnacknowledged := acknowledgmentOf packet
        pendingActive := false
        receiveNext := sequenceOf packet + 1
        state := .established
        history := .peerSyn (sequenceOf packet) :: c.history }).2)

/-- The last part of `tcp_client_receive`: the FIN of a segment whose data was taken. -/
def receiveFin (env : TcpEnv) (c : TcpClient) : TcpClientReceiveResult × TcpClient :=
  match sendAck env
    { c with receiveNext := c.receiveNext + 1, history := .peerFin :: c.history } with
  | (false, c) => (.accepted, c)
  | (true, c) =>
    match c.state with
    | .established => (.accepted, { c with state := .closeWait })
    | .finWait1 => (.accepted, { c with state := .closing })
    | .finWait2 => (.accepted, { c with state := .closed })
    | _ => (.accepted, c)

/-- Data and FIN of a segment at `receive_next` whose acknowledgment was taken. -/
def receiveData (env : TcpEnv) (c : TcpClient) (packet : List UInt8) :
    TcpClientReceiveResult × TcpClient :=
  if (dataOf packet).length ≠ 0 then
    if hfit : (dataOf packet).length ≤ c.receive.remaining then
      -- TCP_CLIENT_CLOSING is not among the states that refuse data
      if c.state = .closeWait ∨ c.state = .lastAck then (.malformed, c.countMalformed)
      else
        let c := { c with
          receive := c.receive.append (dataOf packet) hfit
          receiveNext := c.receiveNext + UInt32.ofNat (dataOf packet).length }
        if hasFlag packet tcpFlagFin then receiveFin env c else (.accepted, (sendAck env c).2)
    else (.responseTooLarge, c.failClient .responseTooLarge)
  else if hasFlag packet tcpFlagFin then receiveFin env c
  else (.accepted, c)

/-- What `tcp_client_receive` does with a segment of a connected client once RST is excluded. -/
def receiveConnected (env : TcpEnv) (c : TcpClient) (packet : List UInt8) :
    TcpClientReceiveResult × TcpClient :=
  if hasFlag packet tcpFlagSyn then (.malformed, (sendAck env c.countMalformed).2)
  else if hasFlag packet tcpFlagAck = false then (.malformed, c.countMalformed)
  else if sequenceOf packet ≠ c.receiveNext then
    if dataOf packet ≠ [] ∨ hasFlag packet tcpFlagFin then (.accepted, (sendAck env c).2)
    else (.accepted, c)
  else
    match c.acknowledgePending (acknowledgmentOf packet) with
    | (false, c) => (.malformed, (sendAck env c).2)
    | (true, c) => if c.state = .closed then (.accepted, c) else receiveData env c packet

/-- A segment of the peer that passed the checks on addresses, ports, checksum and header. -/
def receiveValid (env : TcpEnv) (c : TcpClient) (packet : List UInt8) :
    TcpClientReceiveResult × TcpClient :=
  if hasFlag packet tcpFlagRst then c.receiveReset packet
  else if c.state = .synSent then receiveSynSent env c packet
  else receiveConnected env c packet

/-- `tcp_client_receive`; `none` is a `NULL` segment. -/
def tcpClientReceive (env : TcpEnv) (c : TcpClient) (srcIp dstIp : UInt32) :
    Option (List UInt8) → TcpClientReceiveResult × TcpClient
  | none => (.malformed, c)
  | some packet =>
    if c.state = .closed ∨ c.state = .failed ∨ srcIp ≠ c.remoteIp ∨ dstIp ≠ c.localIp then
      (.ignored, c)
    else if packet.length < tcpHeaderLength ∨ packet.length > 65535 then
      (.malformed, c.countMalformed)
    else if sourcePort packet ≠ c.remotePort ∨ destinationPort packet ≠ c.localPort then
      (.ignored, c)
    else if tcpClientChecksum srcIp dstIp packet ≠ 0 then
      (.badChecksum, { c with badChecksumCount := c.badChecksumCount + 1 })
    else if headerLength packet < tcpHeaderLength ∨ headerLength packet > packet.length ∨
        hasFlag packet tcpFlagUrg then
      (.malformed, c.countMalformed)
    else receiveValid env c packet

end TcpClient

end Nostalux.Tcp
