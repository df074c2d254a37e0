import Nostalux.Library.SequenceSpace
import Nostalux.Tcp.Inbound

/-!
# In-order delivery of the peer's stream

The peer of a connection sends the bytes of a stream, numbered from the number behind its SYN on.
The network may lose, duplicate and reorder its segments and mix in segments with a bad checksum and
segments of others, and the kernel may call the client in between in any order.

`Follows` is the invariant of such a connection.  It gives the main result: the received bytes are
at all times a front part of the stream, and a state that reports the end of the stream is only
reached with the whole stream in the buffer.  A stream that does not fit is therefore never reported
as closed; the in-order segment that exceeds the buffer fails the client.
-/

namespace Nostalux.Tcp

open BigEndian SequenceSpace TcpClientState TcpClient Inbound TcpCall List

namespace TcpClientState

/-- The states in which data of the peer is still expected. -/
def receiving : TcpClientState → Bool
  | .established | .finWait1 | .finWait2 => true
  | _ => false

/-- The connected states in which the FIN of the peer was processed. -/
def ended : TcpClientState → Bool
  | .closeWait | .closing | .lastAck => true
  | _ => false

theorem receiving_or_ended {s : TcpClientState} (h : s.Connected) :
    s.receiving = true ∨ s.ended = true := by
  obtain ⟨hclosed, hfailed, hsynSent⟩ := h
  cases s <;> simp_all [receiving, ended]

/-- The acknowledgment of the own FIN does not decide whether data is expected. -/
theorem receiving_afterFinAcked {s : TcpClientState} (h : s.receiving = true) :
    s.afterFinAcked.receiving = true := by
  cases s <;> simp_all [receiving, afterFinAcked]

end TcpClientState

variable {c : TcpClient}

theorem TcpClient.receiving_stateAfterAck (acknowledgment : UInt32)
    (h : c.state.receiving = true) : (c.stateAfterAck acknowledgment).receiving = true := by
  unfold stateAfterAck
  split_ifs
  · exact receiving_afterFinAcked h
  · exact h

/-! ### Runs -/

/-- The client after a sequence of calls. -/
def TcpClient.after (c : TcpClient) (steps : List (TcpEnv × TcpCall)) : TcpClient :=
  steps.foldl (fun c step => step.2.run step.1 c) c

/-- What every call keeps, every run keeps. -/
theorem TcpClient.after_induction {motive : TcpClient → Prop}
    {steps : List (TcpEnv × TcpCall)} (hstart : motive c)
    (hstep : ∀ d, ∀ step ∈ steps, motive d → motive (step.2.run step.1 d)) :
    motive (c.after steps) :=
  foldlRecOn steps _ hstart fun d hd step hmem => hstep d step hmem hd

/-- What the calls leave of a failed client: it has received and sent what it has, and reports no
other response that was too large. -/
structure StaysFailed (c d : TcpClient) : Prop where
  state : d.state = .failed
  receive : d.receive = c.receive
  history : d.history = c.history
  error : d.error = c.error ∨ d.error ≠ .responseTooLarge

theorem StaysFailed.run {d : TcpClient} (h : StaysFailed c d) (env : TcpEnv) (call : TcpCall) :
    StaysFailed c (call.run env d) := by
  have hreject (operation : TcpClientOperation) {error : TcpClientError}
      (hne : error ≠ .responseTooLarge) : StaysFailed c (d.rejectOperation operation error).2 := by
    unfold rejectOperation
    split_ifs
    · exact ⟨h.state, h.receive, h.history, .inr (by simp)⟩
    · exact ⟨h.state, h.receive, h.history, .inr hne⟩
  have hrefuse (operation : TcpClientOperation) : StaysFailed c (d.refuseFailed operation).2 :=
    ⟨h.state, h.receive, h.history, h.error⟩
  cases call with
  | setTimeouts retransmitMs operationTimeoutMs maxRetries =>
    have hopen : d.state ≠ .closed := by rw [h.state]; decide
    rw [TcpCall.run, tcpClientSetTimeouts, if_pos hopen]
    split_ifs <;> exact ⟨h.state, h.receive, h.history, .inr (by simp)⟩
  | beginConnect remoteIp remotePort initialSequence =>
    simp only [TcpCall.run, tcpClientBeginConnect, h.state]
    split_ifs
    · exact hreject _ (by decide)
    · exact hreject _ (by decide)
    · exact hrefuse _
  | beginSend dataIsNull data =>
    simp only [TcpCall.run, tcpClientBeginSend, h.state]
    split_ifs
    · exact hreject _ (by decide)
    · exact hreject _ (by decide)
    · exact hrefuse _
  | beginWaitForPeerClose =>
    simp only [TcpCall.run, tcpClientBeginWaitForPeerClose, h.state]
    split_ifs
    · exact hreject _ (by decide)
    · exact hreject _ (by decide)
    · exact hrefuse _
  | beginClose =>
    simp only [TcpCall.run, tcpClientBeginClose, h.state, reduceCtorEq, if_false, if_true]
    split_ifs
    · exact hreject _ (by decide)
    · exact hreject _ (by decide)
    · exact hrefuse _
  | service =>
    rw [TcpCall.run, tcpClientService, if_pos h.state]
    exact ⟨h.state, h.receive, h.history, h.error⟩
  | receive srcIp dstIp segment =>
    cases segment with
    | none => exact h
    | some packet =>
      simp only [TcpCall.run, tcpClientReceive, h.state]
      exact h

theorem TcpClient.after_of_failed (h : c.state = .failed) (steps : List (TcpEnv × TcpCall)) :
    StaysFailed c (c.after steps) :=
  after_induction ⟨h, rfl, rfl, .inl rfl⟩ fun _ step _ hd => hd.run step.1 step.2

/-! ### The invariant of a connection -/

/-- The receiving side follows the stream of the peer, whose first byte has the number `start`. -/
structure Follows (stream : List UInt8) (start : UInt32) (i : Inbound) : Prop where
  not_synSent : i.state ≠ .synSent
  isPrefix : i.buffer.bytes <+: stream
  next_of_receiving : i.state.receiving = true →
    i.receiveNext = start + UInt32.ofNat i.buffer.bytes.length
  next_of_ended : i.state.ended = true → i.receiveNext = start + UInt32.ofNat (stream.length + 1)
  complete : i.state.ended = true ∨ i.state = .closed → i.buffer.bytes = stream

namespace Follows

variable {stream : List UInt8} {start : UInt32} {i : Inbound}

/-- A change of the state alone, among the states that expect data or among those behind the end. -/
theorem withState (h : Follows stream start i) {s : TcpClientState} (hsyn : s ≠ .synSent)
    (hreceiving : s.receiving = true → i.state.receiving = true)
    (hended : s.ended = true → i.state.ended = true)
    (hclosed : s = .closed → i.state.ended = true ∨ i.state = .closed) :
    Follows stream start (i.withState s) where
  not_synSent := hsyn
  isPrefix := h.isPrefix
  next_of_receiving hs := h.next_of_receiving (hreceiving hs)
  next_of_ended hs := h.next_of_ended (hended hs)
  complete hs := h.complete (hs.elim (fun hs => Or.inl (hended hs)) hclosed)

theorem failed (h : Follows stream start i) : Follows stream start (i.withState .failed) :=
  h.withState nofun nofun nofun nofun

theorem «local» {j : Inbound} (h : Follows stream start i) (hlocal : i.Local j) :
    Follows stream start j := by
  cases hlocal with
  | stay => exact h
  | fail => exact h.failed
  | shutdown hstate => exact h.withState nofun (fun _ => by rw [hstate]; rfl) nofun nofun
  | lastAck hstate => exact h.withState nofun nofun (fun _ => by rw [hstate]; rfl) nofun

theorem untaken {j : Inbound} {packet : List UInt8} (h : Follows stream start i)
    (huntaken : i.Untaken packet j) : Follows stream start j := by
  cases huntaken with
  | discard => exact h
  | fail => exact h.failed
  | accept hstate => exact absurd hstate h.not_synSent
  | acceptFailed hstate => exact absurd hstate h.not_synSent
  | finAcked =>
    have hsyn := h.not_synSent
    apply h.withState
    all_goals
      revert hsyn
      cases i.state <;> simp [afterFinAcked, receiving, ended]

/-- A segment of the stream that is taken extends the received bytes by the next ones; behind the
end of the stream nothing is taken. -/
theorem taken {c : TcpClient} {packet : List UInt8} {s : TcpClientState}
    (h : Follows stream start c.inbound) (hlen : stream.length + 2 ≤ 2 ^ 32)
    (htakes : c.Takes packet)
    (hcarries : Carries stream start (sequenceOf packet) (dataOf packet)
      (hasFlag packet tcpFlagFin))
    (hs : s = .failed ∨
      s = if hasFlag packet tcpFlagFin then (c.stateAfterAck (acknowledgmentOf packet)).afterFin
        else c.stateAfterAck (acknowledgmentOf packet)) :
    Follows stream start ((c.inbound.deliver packet htakes.fits).withState s) := by
  have hseq : sequenceOf packet = c.inbound.receiveNext := htakes.sequence_eq
  rcases receiving_or_ended htakes.connected with hreceiving | hended
  · have hnext := h.next_of_receiving hreceiving
    obtain ⟨hfront, hwhole⟩ := hcarries.extends hlen h.isPrefix (hseq.trans hnext)
    have hbytes : (c.inbound.deliver packet htakes.fits).buffer.bytes =
        c.inbound.buffer.bytes ++ dataOf packet := by
      rw [buffer_deliver, ReceiveBuffer.bytes_append]
    have hafter := receiving_stateAfterAck (acknowledgmentOf packet) hreceiving
    revert hafter hs
    generalize c.stateAfterAck (acknowledgmentOf packet) = t
    intro hs hafter
    by_cases hfin : hasFlag packet tcpFlagFin = true
    · -- the FIN completes the stream and takes one more number
      have hstream := hwhole hfin
      have hnext' : (c.inbound.deliver packet htakes.fits).receiveNext =
          start + UInt32.ofNat (stream.length + 1) := by
        rw [receiveNext_deliver, if_pos hfin, hnext, ← hstream, length_append,
          UInt32.ofNat_add, UInt32.ofNat_add]
        simp only [UInt32.add_assoc]
        rfl
      rw [if_pos hfin] at hs
      constructor
      · rcases hs with rfl | rfl
        · nofun
        · revert hafter
          cases t <;> simp [receiving, afterFin]
      · rw [buffer_withState, hbytes]
        exact hfront
      · intro hs'
        rcases hs with rfl | rfl
        · cases hs'
        · revert hafter hs'
          cases t <;> simp [receiving, afterFin]
      · exact fun _ => hnext'
      · intro _
        rw [buffer_withState, hbytes, hstream]
    · have hnext' : (c.inbound.deliver packet htakes.fits).receiveNext =
          start + UInt32.ofNat (c.inbound.buffer.bytes ++ dataOf packet).length := by
        rw [receiveNext_deliver, if_neg hfin, hnext, length_append, UInt32.ofNat_add,
          UInt32.add_zero, UInt32.add_assoc]
      rw [if_neg hfin] at hs
      constructor
      · rcases hs with rfl | rfl
        · nofun
        · revert hafter
          cases s <;> simp [receiving]
      · rw [buffer_withState, hbytes]
        exact hfront
      · intro _
        rw [buffer_withState, hbytes]
        exact hnext'
      · intro hs'
        rcases hs with rfl | rfl
        · cases hs'
        · revert hafter hs'
          cases s <;> simp [receiving, ended]
      · intro hs'
        rcases hs with rfl | rfl
        · simp [ended] at hs'
        · revert hafter hs'
          cases s <;> simp [receiving, ended]
  · have hnil := hcarries.eq_nil_of_ended hlen (hseq.trans (h.next_of_ended hended))
    rcases htakes.nonempty with hdata | hfin
    · exact absurd hnil.1 hdata
    · rw [hnil.2] at hfin
      cases hfin

end Follows

/-! ### From the SYN+ACK on -/

/-- The client is in a state that some sequence of calls leads to from `tcp_client_init`. -/
def Reachable (c : TcpClient) : Prop :=
  ∃ (io : Option TcpClientIo) (localIp : UInt32) (localPort : UInt16)
    (receiveBuffer : Option (ℕ → UInt8)) (receiveCapacity : ℕ) (steps : List (TcpEnv × TcpCall)),
    c = (TcpClient.tcpClientInit io localIp localPort receiveBuffer receiveCapacity).after steps

variable {c : TcpClient}

/-- Before the SYN+ACK nothing of the peer has been taken. -/
theorem Reachable.fresh (h : Reachable c) (hstate : c.state = .synSent) :
    c.inbound.buffer.length = 0 ∧ c.inbound.peer = [] := by
  obtain ⟨io, localIp, localPort, receiveBuffer, receiveCapacity, steps, rfl⟩ := h
  suffices hinv : (after (tcpClientInit io localIp localPort receiveBuffer
      receiveCapacity) steps).inbound.state = .synSent → _ from hinv hstate
  refine after_induction (motive := fun d => d.inbound.state = .synSent →
    d.inbound.buffer.length = 0 ∧ d.inbound.peer = []) (fun h => by cases h) ?_
  rintro d ⟨env, call⟩ - ih
  have heffect := effect_run env d call
  generalize (call.run env d).inbound = i at heffect ⊢
  cases heffect with
  | «local» hlocal =>
    cases hlocal with
    | stay => exact ih
    | fail | shutdown | lastAck =>
      intro h
      cases h
  | connect _ hi =>
    rcases hi with rfl | rfl
    · exact fun _ => ⟨rfl, rfl⟩
    · intro h
      cases h
  | untaken _ _ huntaken =>
    cases huntaken with
    | discard => exact ih
    | fail | accept | acceptFailed =>
      intro h
      cases h
    | finAcked =>
      -- an acknowledged FIN does not lead back to a state before the connection
      intro hs
      refine ih ?_
      revert hs
      cases d.inbound.state <;> simp [afterFinAcked]
  | taken _ htakes hs =>
    intro hsyn
    have hconnected := htakes.connected
    exfalso
    revert hsyn
    rcases hs with rfl | rfl
    · intro h
      cases h
    · unfold stateAfterAck
      revert hconnected
      cases d.state <;> split_ifs <;>
        simp [Connected, afterFin, afterFinAcked]

/-- The client has just accepted a SYN+ACK of its peer with the sequence number `initial`. -/
inductive Accepted (initial : UInt32) : TcpClient → Prop
  | intro {c : TcpClient} (env : TcpEnv) (srcIp dstIp : UInt32) (segment : Option (List UInt8))
      (hreachable : Reachable c) (hstate : c.state = .synSent)
      (hsyn : TcpRecord.peerSyn initial ∈
        (TcpClient.tcpClientReceive env c srcIp dstIp segment).2.history) :
      Accepted initial (TcpClient.tcpClientReceive env c srcIp dstIp segment).2

variable {initial : UInt32}

/-- An accepted connection follows any stream that starts behind the SYN. -/
theorem Accepted.follows (h : Accepted initial c)
    (stream : List UInt8) : Follows stream (initial + 1) c.inbound := by
  obtain ⟨env, srcIp, dstIp, segment, hreachable, hstate, hsyn⟩ := h
  rename_i d
  obtain ⟨hlength, hpeer⟩ := hreachable.fresh hstate
  have hnil : d.inbound.buffer.bytes = [] := length_eq_zero_iff.1 (by simpa using hlength)
  have hmem : TcpRecord.peerSyn initial ∈
      (tcpClientReceive env d srcIp dstIp segment).2.inbound.peer :=
    mem_filter.2 ⟨hsyn, rfl⟩
  have haccept : ∀ sequence, Follows stream (sequence + 1) (d.inbound.accept sequence) := by
    intro sequence
    refine ⟨nofun, ?_, fun _ => ?_, nofun, nofun⟩
    · show d.inbound.buffer.bytes <+: stream
      rw [hnil]
      exact nil_prefix
    · show sequence + 1 = sequence + 1 + UInt32.ofNat d.inbound.buffer.bytes.length
      rw [hnil]
      exact (UInt32.add_zero _).symm
  have heffect := effect_run env d (.receive srcIp dstIp segment)
  rw [run] at heffect
  generalize (tcpClientReceive env d srcIp dstIp segment).2.inbound = i
    at heffect hmem ⊢
  cases heffect with
  | «local» hlocal =>
    have hsame : i.peer = d.inbound.peer := by cases hlocal <;> rfl
    rw [hsame, hpeer] at hmem
    cases hmem
  | untaken _ _ huntaken =>
    cases huntaken with
    | discard => rw [hpeer] at hmem; cases hmem
    | fail | finAcked => rw [peer_withState, hpeer] at hmem; cases hmem
    | @accept hs =>
      rw [show (d.inbound.accept _).peer = _ :: d.inbound.peer from rfl, hpeer,
        mem_singleton, TcpRecord.peerSyn.injEq] at hmem
      rw [hmem]
      exact haccept _
    | acceptFailed hs =>
      rw [peer_withState, show (d.inbound.accept _).peer = _ :: d.inbound.peer from rfl,
        hpeer, mem_singleton, TcpRecord.peerSyn.injEq] at hmem
      rw [hmem]
      exact (haccept _).failed
  | taken _ htakes _ => exact absurd hstate htakes.connected.2.2

/-- A call on a connection whose peer sends `stream` from `initial + 1` on: any call of the kernel
other than `tcp_client_begin_connect`, and any segment, where a segment of the peer that is neither
SYN nor RST carries a part of the stream. -/
def DuringStream (e : Endpoints) (stream : List UInt8) (initial : UInt32) : TcpCall → Prop
  | .beginConnect _ _ _ => False
  | .receive srcIp dstIp segment => ∀ packet, segment = some packet →
      FromPeer e srcIp dstIp packet → hasFlag packet tcpFlagRst = false →
      hasFlag packet tcpFlagSyn = false →
      Carries stream (initial + 1) (sequenceOf packet) (dataOf packet) (hasFlag packet tcpFlagFin)
  | _ => True

/-- One call keeps the endpoints and goes on following the stream. -/
theorem Follows.run {stream : List UInt8} {e : Endpoints}
    (h : Follows stream (initial + 1) c.inbound) (he : c.inbound.endpoints = e)
    (hlen : stream.length + 2 ≤ 2 ^ 32) (env : TcpEnv) {call : TcpCall}
    (hcall : DuringStream e stream initial call) :
    Follows stream (initial + 1) (call.run env c).inbound ∧
      (call.run env c).inbound.endpoints = e := by
  have heffect := effect_run env c call
  generalize (call.run env c).inbound = i at heffect ⊢
  cases heffect with
  | «local» hlocal =>
    refine ⟨h.local hlocal, ?_⟩
    rw [← he]
    cases hlocal <;> rfl
  | connect => exact absurd hcall id
  | untaken hpeer _ huntaken =>
    refine ⟨h.untaken huntaken, ?_⟩
    rw [← he]
    cases huntaken <;> rfl
  | taken hpeer htakes hs =>
    rw [he] at hpeer
    have hcarries := hcall _ rfl hpeer htakes.not_rst htakes.not_syn
    refine ⟨h.taken hlen htakes hcarries hs, ?_⟩
    rw [endpoints_withState, endpoints_deliver, he]

theorem Accepted.follows_after {stream : List UInt8}
    (h : Accepted initial c) (hlen : stream.length + 2 ≤ 2 ^ 32)
    {calls : List (TcpEnv × TcpCall)}
    (hcalls : ∀ step ∈ calls, DuringStream c.inbound.endpoints stream initial step.2) :
    Follows stream (initial + 1) (c.after calls).inbound :=
  (after_induction
    (motive := fun d => Follows stream (initial + 1) d.inbound ∧
      d.inbound.endpoints = c.inbound.endpoints)
    ⟨h.follows stream, rfl⟩ fun _ step hmem hd => hd.1.run hd.2 hlen step.1 (hcalls step hmem)).1

/-! ### Data beyond the buffer -/

/-- A segment of the peer at `receive_next` with more data than the buffer has room for. -/
structure Exceeds (c : TcpClient) (srcIp dstIp : UInt32) (packet : List UInt8) : Prop where
  fromPeer : FromPeer c.inbound.endpoints srcIp dstIp packet
  connected : c.state.Connected
  not_rst : hasFlag packet tcpFlagRst = false
  not_syn : hasFlag packet tcpFlagSyn = false
  ack : hasFlag packet tcpFlagAck = true
  sequence_eq : sequenceOf packet = c.receiveNext
  ack_sent : sequenceAfter (acknowledgmentOf packet) c.sendNext = false
  not_closed : c.stateAfterAck (acknowledgmentOf packet) ≠ .closed
  exceeds : c.receive.capacity < c.receive.length + (dataOf packet).length

/-- Data beyond the buffer fails the client and is not copied, not even in part. -/
theorem Exceeds.receive (env : TcpEnv) {srcIp dstIp : UInt32} {packet : List UInt8}
    (h : Exceeds c srcIp dstIp packet) :
    (tcpClientReceive env c srcIp dstIp (some packet)).1 = .responseTooLarge ∧
      (tcpClientReceive env c srcIp dstIp (some packet)).2.state = .failed ∧
      (tcpClientReceive env c srcIp dstIp (some packet)).2.error = .responseTooLarge ∧
      (tcpClientReceive env c srcIp dstIp (some packet)).2.receive = c.receive := by
  obtain ⟨d, hd, heq⟩ := receiveValid_of_current env h.connected h.not_rst h.not_syn h.ack
    h.sequence_eq h.ack_sent h.not_closed
  have hbuffer : d.receive = c.receive := congrArg buffer hd
  have hexceeds := h.exceeds
  have hle := c.receive.length_le
  have hdata : (dataOf packet).length ≠ 0 := by omega
  have hfits : ¬(dataOf packet).length ≤ d.receive.remaining := by
    rw [hbuffer, ReceiveBuffer.remaining]
    omega
  rw [tcpClientReceive_of_fromPeer env h.connected.1 h.connected.2.1 h.fromPeer, heq,
    receiveData, if_pos hdata, dif_neg hfits]
  exact ⟨rfl, rfl, rfl, hbuffer⟩

/-- **In-order delivery.**  At all times the received bytes are a front part of the peer's stream; a
state that reports the end of the stream is reached with the whole stream only; a stream that does
not fit leaves the client open or failed; an in-order segment beyond the buffer fails it at once;
and a failed client stays failed with the bytes it has. -/
theorem received_follows_stream {stream : List UInt8} {initial : UInt32} {c : TcpClient}
    (haccepted : Accepted initial c) (hlen : stream.length + 2 ≤ 2 ^ 32)
    (calls : List (TcpEnv × TcpCall))
    (hcalls : ∀ step ∈ calls, DuringStream c.inbound.endpoints stream initial step.2) :
    (c.after calls).receive.bytes <+: stream ∧
    ((c.after calls).state ∈
        [TcpClientState.closeWait, .closing, .lastAck, .closed] →
      (c.after calls).receive.length = stream.length) ∧
    ((c.after calls).receive.capacity < stream.length →
      (c.after calls).state ∈ [TcpClientState.established, .finWait1, .finWait2, .failed]) ∧
    (∀ env srcIp dstIp packet, Exceeds (c.after calls) srcIp dstIp packet →
      (TcpClient.tcpClientReceive env (c.after calls) srcIp dstIp (some packet)).1 =
          .responseTooLarge ∧
        (TcpClient.tcpClientReceive env (c.after calls) srcIp dstIp (some packet)).2.state =
          .failed ∧
        (TcpClient.tcpClientReceive env (c.after calls) srcIp dstIp (some packet)).2.error =
          .responseTooLarge ∧
        (TcpClient.tcpClientReceive env (c.after calls) srcIp dstIp (some packet)).2.receive =
          (c.after calls).receive) ∧
    ((c.after calls).state = .failed → ∀ more,
      ((c.after calls).after more).state = .failed ∧
        ((c.after calls).after more).receive = (c.after calls).receive) := by
  have hfollows := haccepted.follows_after hlen hcalls
  generalize c.after calls = d at hfollows
  have hwhole : d.state.ended = true ∨ d.state = .closed → d.receive.length = stream.length := by
    intro hs
    rw [← ReceiveBuffer.length_bytes, show d.receive.bytes = stream from hfollows.complete hs]
  refine ⟨hfollows.isPrefix, fun hs => hwhole ?_, fun hcapacity => ?_,
    fun env _ _ _ h => h.receive env, fun hs more =>
      ⟨(after_of_failed hs more).state, (after_of_failed hs more).receive⟩⟩
  · revert hs
    cases d.state <;> simp [ended]
  · -- the received bytes fit, so the stream has not ended
    have hle := d.receive.length_le
    have hopen : ¬(d.state.ended = true ∨ d.state = .closed) := by
      intro hs
      rw [hwhole hs] at hle
      omega
    have hsyn : d.state ≠ .synSent := hfollows.not_synSent
    revert hopen hsyn
    cases d.state <;> simp [ended]

/-! ### A connection with address 1, port 1 to address 2, port 2 -/

/-- The client after `tcp_client_begin_connect` with initial sequence number 0. -/
def sampleConnecting (capacity : ℕ) : TcpClient :=
  (TcpClient.tcpClientInit (some ⟨true, true, true⟩) 1 1 (some fun _ => 0) capacity).after
    [(⟨0, true⟩, .beginConnect 2 2 0)]

/-- The SYN+ACK of the peer, with sequence number 100. -/
def sampleSynAck : List UInt8 :=
  [0, 2, 0, 1, 0, 0, 0, 100, 0, 0, 0, 1, 80, 18, 0, 0, 175, 104, 0, 0]

/-- The client after the SYN+ACK. -/
def sampleConnected (capacity : ℕ) : TcpClient :=
  (TcpClient.tcpClientReceive ⟨0, true⟩ (sampleConnecting capacity) 2 1 (some sampleSynAck)).2

theorem reachable_sampleConnecting (capacity : ℕ) : Reachable (sampleConnecting capacity) :=
  ⟨_, _, _, _, _, _, rfl⟩

theorem accepted_sampleConnected_five : Accepted 100 (sampleConnected 5) :=
  .intro ⟨0, true⟩ 2 1 (some sampleSynAck) (reachable_sampleConnecting 5) (by decide +kernel)
    (by decide +kernel)

theorem accepted_sampleConnected_zero : Accepted 100 (sampleConnected 0) :=
  .intro ⟨0, true⟩ 2 1 (some sampleSynAck) (reachable_sampleConnecting 0) (by decide +kernel)
    (by decide +kernel)

/-- The first three bytes of a stream, at sequence number 101. -/
def sampleData : List UInt8 :=
  [0, 2, 0, 1, 0, 0, 0, 101, 0, 0, 0, 1, 80, 16, 0, 0, 159, 94, 0, 0, 7, 8, 9]

/-- The last two bytes, with the FIN. -/
def sampleRest : List UInt8 :=
  [0, 2, 0, 1, 0, 0, 0, 104, 0, 0, 0, 1, 80, 17, 0, 0, 165, 88, 0, 0, 10, 11]

/-- The rest arrives too early, and the first bytes arrive twice. -/
def sampleArrivals : List (TcpEnv × TcpCall) :=
  [sampleRest, sampleData, sampleData, sampleRest].map fun packet =>
    (⟨0, true⟩, .receive 2 1 (some packet))

theorem during_sampleArrivals :
    ∀ step ∈ sampleArrivals,
      DuringStream (sampleConnected 5).inbound.endpoints [7, 8, 9, 10, 11] 100 step.2 := by
  intro step hstep
  obtain ⟨packet, hpacket, rfl⟩ := mem_map.1 hstep
  have hcarries : Carries [7, 8, 9, 10, 11] (100 + 1) (sequenceOf packet) (dataOf packet)
      (hasFlag packet tcpFlagFin) := by
    have hrest : packet = sampleRest ∨ packet = sampleData := by
      simp only [mem_cons, not_mem_nil, or_false] at hpacket
      tauto
    rcases hrest with rfl | rfl
    · exact ⟨3, by decide, by decide +kernel, by decide +kernel, fun _ => by decide +kernel⟩
    · exact ⟨0, by decide, by decide +kernel, by decide +kernel, fun h =>
        absurd h (by decide +kernel)⟩
  rintro packet' hpacket' - - -
  cases hpacket'
  exact hcarries

theorem received_follows_stream_reordered :
    ((sampleConnected 5).after sampleArrivals).state = .closeWait ∧
      ((sampleConnected 5).after sampleArrivals).receive.bytes <+: [7, 8, 9, 10, 11] ∧
      ((sampleConnected 5).after sampleArrivals).receive.length = 5 := by
  have hstate : ((sampleConnected 5).after sampleArrivals).state = .closeWait := by decide +kernel
  have h := @received_follows_stream [7, 8, 9, 10, 11] 100 _ accepted_sampleConnected_five
    (by decide) sampleArrivals during_sampleArrivals
  exact ⟨hstate, h.1, h.2.1 (by rw [hstate]; decide)⟩

/-- The connect operation is completed and the kernel waits for the peer until the operation times
out; every segment is lost. -/
def sampleTimeout : List (TcpEnv × TcpCall) :=
  [(⟨0, true⟩, .service), (⟨0, true⟩, .beginWaitForPeerClose), (⟨5000, true⟩, .service)]

/-- A stream of one byte does not fit a buffer without space, and yet the client ends by the
timeout; no later call makes it report that the response was too large. -/
theorem oversized_stream_times_out :
    Accepted 100 (sampleConnected 0) ∧
      (sampleConnected 0).receive.capacity < ([7] : List UInt8).length ∧
      (∀ step ∈ sampleTimeout,
        DuringStream (sampleConnected 0).inbound.endpoints [7] 100 step.2) ∧
      ((sampleConnected 0).after sampleTimeout).error = .timeout ∧
      ∀ more, (((sampleConnected 0).after sampleTimeout).after more).state = .failed ∧
        (((sampleConnected 0).after sampleTimeout).after more).error ≠ .responseTooLarge := by
  have hstate : ((sampleConnected 0).after sampleTimeout).state = .failed := by decide +kernel
  have herror : ((sampleConnected 0).after sampleTimeout).error = .timeout := by decide +kernel
  refine ⟨accepted_sampleConnected_zero, by decide +kernel, ?_, herror, fun more =>
    ⟨(after_of_failed hstate more).state,
      (after_of_failed hstate more).error.elim (fun h => by rw [h, herror]; nofun) id⟩⟩
  intro step hstep
  simp only [sampleTimeout, mem_cons, not_mem_nil, or_false] at hstep
  rcases hstep with rfl | rfl | rfl <;> exact trivial

end Nostalux.Tcp
