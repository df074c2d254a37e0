import Nostalux.Tcp.Delivery
import Nostalux.Tcp.Outbound

/-!
# The send window of the TCP client

At most one segment is pending.  `Window` says where the acknowledged numbers stand in it, and which
segment can be pending in which state; every call keeps it (`window_after`), whatever sequence and
acknowledgment numbers arrive.

`send_window` is the result: the window in every connected state, what an acknowledgment needs to
change it, when a send operation completes, and when the own FIN changes the state.
-/

namespace Nostalux.Tcp

open SequenceSpace TcpClientState TcpCall Nat

namespace TcpClientState

/-- The flags of a segment that is pending in a state. -/
def pendingFlags : TcpClientState → Option UInt8
  | .synSent => some tcpFlagSyn
  | .established | .closeWait => some (tcpFlagAck ||| tcpFlagPsh)
  | .finWait1 | .closing | .lastAck => some (tcpFlagFin ||| tcpFlagAck)
  | .closed | .finWait2 | .failed => none

/-- The operation whose segment is pending in a state. -/
def pendingOperation : TcpClientState → TcpClientOperation
  | .synSent => .connect
  | .established | .closeWait => .send
  | .finWait1 | .closing | .lastAck => .close
  | .closed | .finWait2 | .failed => .none

/-- The states that last until the pending segment is acknowledged. -/
def awaits : TcpClientState → Bool
  | .synSent | .finWait1 | .closing | .lastAck => true
  | _ => false

/-- The states in which the own FIN is pending. -/
def finPending : TcpClientState → Bool
  | .finWait1 | .closing | .lastAck => true
  | _ => false

/-- The state when the pending segment is acknowledged. -/
def afterAcked (s : TcpClientState) (flags : UInt8) : TcpClientState :=
  if flags &&& tcpFlagFin ≠ 0 then s.afterFinAcked else s

theorem awaits_afterAcked {s : TcpClientState} {flags : UInt8} (h : s.pendingFlags = some flags)
    (hsyn : s ≠ .synSent) : (s.afterAcked flags).awaits = false ∧ s.afterAcked flags ≠ .failed := by
  cases s <;>
    simp only [pendingFlags, Option.some.injEq, reduceCtorEq, ne_eq, not_true] at h hsyn <;>
    subst h <;> decide

theorem awaits_of_finPending {s : TcpClientState} (h : s.finPending = true) : s.awaits = true := by
  cases s <;> simp_all [finPending, awaits]

end TcpClientState

/-- The window of the sending side. -/
structure Window (o : Outbound) : Prop where
  end_eq : o.pendingEnd = o.sendNext
  acked : o.state ≠ .failed → o.pendingActive = false → o.sendUnacknowledged = o.sendNext
  inside : o.pendingActive = true →
    (o.sendUnacknowledged - o.pendingSequence).toNat < (o.pendingEnd - o.pendingSequence).toNat
  length_le : o.pendingActive = true → (o.pendingEnd - o.pendingSequence).toNat ≤ 538
  operation_eq : o.pendingActive = true → o.operation = o.state.pendingOperation
  pending : o.pendingActive = true → o.stepResult = .pending
  size : o.pendingActive = true → o.pendingData.length ≤ tcpClientMaxSegmentData
  flags : o.pendingActive = true → o.state.pendingFlags = some o.pendingFlags
  awaits : o.state.awaits = true → o.pendingActive = true
  failed : o.state = .failed → o.stepResult = .failed

namespace Window

variable {o : Outbound}

section

variable (h : Window o) (hactive : o.pendingActive = true)
include h hactive

theorem not_failed : o.state ≠ .failed := by
  intro hstate
  have := h.flags hactive
  rw [hstate] at this
  cases this

theorem busy : o.Busy := by
  refine ⟨?_, h.pending hactive⟩
  have hflags := h.flags hactive
  rw [h.operation_eq hactive]
  revert hflags
  cases o.state <;> simp [pendingFlags, pendingOperation]

/-- An operation with a pending segment has not reached its goal. -/
theorem not_goalReached : ¬o.GoalReached := by
  have hflags := h.flags hactive
  have hoperation := h.operation_eq hactive
  rw [Outbound.GoalReached, hoperation]
  cases hstate : o.state <;>
    simp_all [pendingFlags, pendingOperation]

end

/-- Failing leaves nothing pending. -/
theorem fail (h : o.pendingEnd = o.sendNext) : Window o.fail where
  end_eq := h
  acked hstate := absurd rfl hstate
  inside := nofun
  length_le := nofun
  operation_eq := nofun
  pending := nofun
  size := nofun
  flags := nofun
  awaits := nofun
  failed _ := rfl

variable {j : Outbound}

theorem of_eq_or_fail (h : Window j) (ho : o = j ∨ o = j.fail) : Window o := by
  rcases ho with rfl | rfl
  · exact h
  · exact fail h.end_eq

/-- The operation may change while nothing is pending. -/
theorem withOperation (h : Window o) {operation : TcpClientOperation}
    {stepResult : TcpClientStepResult} (hactive : ¬o.pendingActive = true)
    (hfailed : o.state = .failed → stepResult = .failed) :
    Window { o with operation := operation, stepResult := stepResult } where
  end_eq := h.end_eq
  acked := h.acked
  inside := h.inside
  length_le := h.length_le
  operation_eq h' := absurd h' hactive
  pending h' := absurd h' hactive
  size := h.size
  flags := h.flags
  awaits := h.awaits
  failed := hfailed

theorem rests (h : Window o) (hrests : o.Rests j) : Window j := by
  cases hrests with
  | stay => exact h
  | reject operation hbusy =>
    exact h.withOperation (fun hactive => hbusy (h.busy hactive)) fun _ => rfl
  | refuse operation hfailed =>
    exact h.withOperation (fun hactive => h.not_failed hactive hfailed) fun _ => rfl
  | begin _ hbusy hfailed | beginComplete _ hbusy hfailed =>
    exact h.withOperation (fun hactive => hbusy (h.busy hactive)) fun hstate =>
      absurd hstate hfailed
  | complete hfailed hgoal =>
    exact h.withOperation (fun hactive => h.not_goalReached hactive hgoal)
      fun hstate => absurd hstate hfailed
  | setRetries maxRetries hclosed =>
    exact ⟨h.end_eq, h.acked, h.inside, h.length_le, h.operation_eq, h.pending, h.size, h.flags,
      h.awaits, h.failed⟩

/-- What was sent does not matter. -/
theorem transmit (h : Window o) (t : Transmission) : Window (o.transmit t) :=
  ⟨h.end_eq, h.acked, h.inside, h.length_le, h.operation_eq, h.pending, h.size, h.flags, h.awaits,
    h.failed⟩

theorem resent (h : Window o) : Window o.resent :=
  ⟨h.end_eq, h.acked, h.inside, h.length_le, h.operation_eq, h.pending, h.size, h.flags, h.awaits,
    h.failed⟩

/-- A segment is begun when everything is acknowledged. -/
theorem opened {flags : UInt8} {data : List UInt8} (hacked : o.sendUnacknowledged = o.sendNext)
    (hflags : o.state.pendingFlags = some flags)
    (hoperation : o.operation = o.state.pendingOperation) (hpending : o.stepResult = .pending)
    (hsize : data.length ≤ tcpClientMaxSegmentData) (hpositive : 0 < sequenceLength flags data) :
    Window (o.opened flags data) := by
  have hlength : (o.sendNext + UInt32.ofNat (sequenceLength flags data) - o.sendNext).toNat =
      sequenceLength flags data := by
    have hle : sequenceLength flags data ≤ 538 := by
      simp only [sequenceLength, tcpClientMaxSegmentData] at hsize ⊢
      split_ifs <;> omega
    rw [UInt32.add_comm, UInt32.add_sub_cancel, UInt32.toNat_ofNat', mod_eq_of_lt (by omega)]
  exact
    { end_eq := rfl
      acked := nofun
      inside := fun _ => by
        show (o.sendUnacknowledged - o.sendNext).toNat < _
        rw [hacked, UInt32.sub_self]
        show 0 < (o.sendNext + UInt32.ofNat (sequenceLength flags data) - o.sendNext).toNat
        rwa [hlength]
      length_le := fun _ => by
        show (o.sendNext + UInt32.ofNat (sequenceLength flags data) - o.sendNext).toNat ≤ 538
        rw [hlength]
        simp only [sequenceLength, tcpClientMaxSegmentData] at hsize ⊢
        split_ifs <;> omega
      operation_eq := fun _ => hoperation
      pending := fun _ => hpending
      size := fun _ => hsize
      flags := fun _ => hflags
      awaits := fun _ => rfl
      failed := fun hfailed => by
        rw [show o.state = .failed from hfailed] at hflags
        cases hflags }

section

variable (h : Window o)
include h

/-- The accepted acknowledgments. -/
theorem acceptable_iff (hstate : o.state ≠ .failed) (acknowledgment : UInt32) :
    ¬(sequenceAfter acknowledgment o.sendNext = true ∨
        sequenceBefore acknowledgment o.sendUnacknowledged = true) ↔
      (acknowledgment - o.sendUnacknowledged).toNat ≤
        (o.sendNext - o.sendUnacknowledged).toNat := by
  have hsmall : (o.sendNext - o.sendUnacknowledged).toNat < 2 ^ 31 := by
    cases hactive : o.pendingActive with
    | false => rw [h.acked hstate hactive, UInt32.sub_self]; decide
    | true =>
      have hinside := h.inside hactive
      have hlength := h.length_le hactive
      rw [h.end_eq] at hinside hlength
      have h2 := o.sendUnacknowledged.toNat_lt
      simp only [UInt32.toNat_sub] at hinside hlength ⊢
      omega
  rw [← between_iff hsmall]
  simp [sequenceAfter, sequenceBefore]

/-- The end of the pending segment is an acceptable acknowledgment. -/
theorem acceptable_end (hstate : o.state ≠ .failed) :
    ¬(sequenceAfter o.pendingEnd o.sendNext = true ∨
        sequenceBefore o.pendingEnd o.sendUnacknowledged = true) := by
  rw [h.acceptable_iff hstate, h.end_eq]

theorem acknowledge (hfailed : o.state ≠ .failed) (hsyn : o.state ≠ .synSent)
    (acknowledgment : UInt32) : Window (o.acknowledge acknowledgment) := by
  unfold Outbound.acknowledge
  split
  · exact h
  rename_i hacceptable
  have hwithin := (h.acceptable_iff hfailed acknowledgment).1 hacceptable
  split
  · rename_i hother
    refine ⟨h.end_eq, fun _ hactive => ?_, fun hactive => ?_, h.length_le, h.operation_eq,
      h.pending, h.size, h.flags, h.awaits, h.failed⟩
    · have hacked := h.acked hfailed hactive
      rw [hacked, UInt32.sub_self] at hwithin
      have hzero : (acknowledgment - o.sendNext).toNat = 0 := le_zero.1 hwithin
      show acknowledgment = o.sendNext
      have h1 := o.sendNext.toNat_lt
      have h2 := acknowledgment.toNat_lt
      rw [UInt32.toNat_sub] at hzero
      exact UInt32.toNat_inj.1 (by omega)
    · have hactive' : o.pendingActive = true := hactive
      have hne : acknowledgment ≠ o.sendNext := by
        rw [← h.end_eq]
        exact hother.resolve_left (by simp [hactive'])
      have hne' : acknowledgment.toNat ≠ o.sendNext.toNat := fun heq => hne (UInt32.toNat_inj.1 heq)
      have hinside := h.inside hactive'
      have hlength := h.length_le hactive'
      rw [h.end_eq] at hinside hlength ⊢
      have h1 := o.sendNext.toNat_lt
      have h2 := o.sendUnacknowledged.toNat_lt
      have h4 := acknowledgment.toNat_lt
      simp only [UInt32.toNat_sub] at hinside hlength hwithin ⊢
      omega
  · rename_i hwhole
    rw [not_or, not_not, Bool.not_eq_false] at hwhole
    obtain ⟨hactive, hend⟩ := hwhole
    have hafter := awaits_afterAcked (h.flags hactive) hsyn
    exact
      { end_eq := h.end_eq
        acked := fun _ _ => hend.trans h.end_eq
        inside := nofun
        length_le := nofun
        operation_eq := nofun
        pending := nofun
        size := nofun
        flags := nofun
        awaits := fun hawaits => absurd (hafter.1.symm.trans hawaits) Bool.false_ne_true
        failed := fun hstate => absurd hstate hafter.2 }

/-- A FIN of the peer changes the state, but not whether a segment is pending. -/
theorem delivers (hdelivers : o.Delivers j) : Window j := by
  cases hdelivers with
  | nothing => exact h
  | answer => exact h.transmit _
  | finish =>
    have hstates : (o.state.pendingFlags = none ∨
          o.state.afterFin.pendingFlags = o.state.pendingFlags ∧
            o.state.afterFin.pendingOperation = o.state.pendingOperation) ∧
        (o.state.afterFin.awaits = true → o.state.awaits = true) ∧
        (o.state.afterFin = .failed ↔ o.state = .failed) := by
      cases o.state <;> decide
    obtain ⟨hkept, hawaits, hfailed⟩ := hstates
    have hkept' : o.pendingActive = true → o.state.afterFin.pendingFlags = o.state.pendingFlags ∧
        o.state.afterFin.pendingOperation = o.state.pendingOperation := by
      intro hactive
      refine hkept.resolve_left fun hnone => ?_
      rw [h.flags hactive] at hnone
      cases hnone
    exact
      { end_eq := h.end_eq
        acked := fun hstate => h.acked fun hold => hstate (hfailed.2 hold)
        inside := h.inside
        length_le := h.length_le
        operation_eq := fun hactive => (h.operation_eq hactive).trans (hkept' hactive).2.symm
        pending := h.pending
        size := h.size
        flags := fun hactive => (hkept' hactive).1.trans (h.flags hactive)
        awaits := fun hstate => h.awaits (hawaits hstate)
        failed := fun hstate => h.failed (hfailed.1 hstate) }

theorem established : Window o.established where
  end_eq := h.end_eq
  acked _ _ := h.end_eq
  inside := nofun
  length_le := nofun
  operation_eq := nofun
  pending := nofun
  size := nofun
  flags := nofun
  awaits := nofun
  failed := nofun

end

variable {c : TcpClient}

/-- The window of a client gives what the calls need. -/
theorem orderly (h : Window c.outbound) : c.Orderly where
  busy hactive := (TcpClient.operationIsBusy_iff c).2 (h.busy hactive)
  size := h.size

theorem opens (h : Window c.outbound) {call : TcpCall} (hj : c.opens call = some j) : Window j := by
  cases call with
  | beginConnect remoteIp remotePort initialSequence =>
    rw [TcpClient.opens] at hj
    split at hj
    · cases hj
      exact opened rfl rfl rfl rfl (zero_le _) (by decide)
    · cases hj
  | beginSend dataIsNull data =>
    rw [TcpClient.opens] at hj
    split at hj
    · rename_i haccepts
      obtain ⟨⟨harguments, hbusy, hstate⟩, hdata⟩ := haccepts
      cases hj
      have hactive : c.pendingActive = false := by
        cases hactive : c.pendingActive with
        | false => rfl
        | true => exact absurd (h.orderly.busy hactive) hbusy
      have hstate' : c.outbound.state = .established := hstate
      refine opened (h.acked (by rw [hstate']; decide) hactive) ?_ ?_ rfl ?_ ?_
      · show c.outbound.state.pendingFlags = _
        rw [hstate']
        rfl
      · show _ = c.outbound.state.pendingOperation
        rw [hstate']
        rfl
      · rw [not_or] at harguments
        omega
      · have := List.length_pos_iff.2 hdata
        rw [sequenceLength]
        omega
    · cases hj
  | beginClose =>
    rw [TcpClient.opens] at hj
    split at hj
    · rename_i haccepts
      obtain ⟨-, -, hactive, hstate⟩ := haccepts
      cases hj
      have hfailed : c.outbound.state ≠ .failed := by
        show c.state ≠ .failed
        rcases hstate with hstate | hstate <;> rw [hstate] <;> decide
      have hactive' : c.pendingActive = false := by simpa using hactive
      have hacked := h.acked hfailed hactive'
      by_cases hestablished : c.state = .established
      · rw [if_pos hestablished]
        exact opened hacked rfl rfl rfl (zero_le _) (by decide)
      · rw [if_neg hestablished]
        exact opened hacked rfl rfl rfl (zero_le _) (by decide)
    · cases hj
  | setTimeouts => cases hj
  | beginWaitForPeerClose => cases hj
  | service => cases hj
  | receive => cases hj

/-- Every call keeps the window. -/
theorem sending (h : Window c.outbound) {call : TcpCall}
    (hsending : Sending c call o) : Window o := by
  cases hsending with
  | opens hj ho => exact (h.opens hj).of_eq_or_fail ho
  | rests _ _ hrests => exact h.rests hrests
  | serves hserves =>
    cases hserves with
    | rests hrests => exact h.rests hrests
    | fails => exact fail h.end_eq
    | resends _ _ _ ho => exact h.resent.of_eq_or_fail ho
  | receives hreceives =>
    cases hreceives with
    | rests => exact h
    | fails => exact fail h.end_eq
    | answers _ _ ho => exact (h.transmit _).of_eq_or_fail ho
    | establishes _ _ _ _ ho => exact (h.established.transmit _).of_eq_or_fail ho
    | acknowledges hacknowledges hj ho =>
      have hconnected := hacknowledges.connected
      exact ((h.acknowledge hconnected.2.1 hconnected.2.2 _).delivers hj).of_eq_or_fail ho

end Window

/-! ### Runs -/

theorem window_tcpClientInit (io : Option TcpClientIo) (localIp : UInt32) (localPort : UInt16)
    (receiveBuffer : Option (ℕ → UInt8)) (receiveCapacity : ℕ) :
    Window (TcpClient.tcpClientInit io localIp localPort receiveBuffer
      receiveCapacity).outbound where
  end_eq := rfl
  acked _ _ := rfl
  inside := nofun
  length_le := nofun
  operation_eq := nofun
  pending := nofun
  size := nofun
  flags := nofun
  awaits := nofun
  failed := nofun

variable {c : TcpClient}

/-- Every run keeps the window. -/
theorem window_after (h : Window c.outbound) (steps : List (TcpEnv × TcpCall)) :
    Window (c.after steps).outbound :=
  TcpClient.after_induction (motive := fun d => Window d.outbound) h fun _ step _ hd =>
    hd.sending (sending_run step.1 hd.orderly step.2)

/-! ### Acknowledgments -/

/-- What a received segment can do to the send state of a client: the numbers of the pending segment
stay, and the acknowledged number or (short of a failure) the pending segment changes only by an
acknowledgment between `send_unacknowledged` and `send_next`.  It comes on the segment of the peer
that is expected next, or it answers the SYN. -/
structure AcknowledgmentRule (c : TcpClient) (srcIp dstIp : UInt32) (segment : Option (List UInt8))
    (d : TcpClient) : Prop where
  sendNext_eq : d.sendNext = c.sendNext
  pendingFlags_eq : d.pendingFlags = c.pendingFlags
  pendingSequence_eq : d.pendingSequence = c.pendingSequence
  pendingEnd_eq : d.pendingEnd = c.pendingEnd
  pendingData_eq : d.pendingData = c.pendingData
  changes : d.sendUnacknowledged ≠ c.sendUnacknowledged ∨
      d.pendingActive ≠ c.pendingActive ∧ d.state ≠ .failed →
    ∃ packet, segment = some packet ∧ FromPeer c.inbound.endpoints srcIp dstIp packet ∧
      (acknowledgmentOf packet - c.sendUnacknowledged).toNat ≤
        (c.sendNext - c.sendUnacknowledged).toNat ∧
      (c.state ≠ .synSent → sequenceOf packet = c.receiveNext) ∧
      (c.state = .synSent → acknowledgmentOf packet = c.pendingEnd)

namespace Outbound

variable {o j : Outbound}

/-- The parts of the sending side that an acknowledgment and an answer leave alone. -/
def numbers (o : Outbound) : UInt32 × UInt8 × UInt32 × UInt32 × List UInt8 :=
  (o.sendNext, o.pendingFlags, o.pendingSequence, o.pendingEnd, o.pendingData)

theorem numbers_acknowledge (o : Outbound) (acknowledgment : UInt32) :
    (o.acknowledge acknowledgment).numbers = o.numbers := by
  unfold acknowledge
  split_ifs <;> rfl

theorem Delivers.same (h : o.Delivers j) :
    j.numbers = o.numbers ∧ j.sendUnacknowledged = o.sendUnacknowledged ∧
      j.pendingActive = o.pendingActive ∧ j.operation = o.operation ∧
        j.stepResult = o.stepResult := by
  cases h <;> exact ⟨rfl, rfl, rfl, rfl, rfl⟩

variable {i : Outbound}

theorem numbers_of_eq_or_fail (h : i = j ∨ i = j.fail) : i.numbers = j.numbers := by
  rcases h with rfl | rfl <;> rfl

theorem unacknowledged_of_eq_or_fail (h : i = j ∨ i = j.fail) :
    i.sendUnacknowledged = j.sendUnacknowledged := by
  rcases h with rfl | rfl <;> rfl

theorem active_of_eq_or_fail (h : i = j ∨ i = j.fail) (hstate : i.state ≠ .failed) :
    i.pendingActive = j.pendingActive := by
  rcases h with rfl | rfl
  · rfl
  · exact absurd rfl hstate

end Outbound

variable {srcIp dstIp : UInt32} {segment : Option (List UInt8)} {o : Outbound}

theorem numbers_of_receives
    (h : c.Receives srcIp dstIp segment o) : o.numbers = c.outbound.numbers := by
  cases h with
  | rests => rfl
  | fails => rfl
  | answers _ _ ho => exact (Outbound.numbers_of_eq_or_fail ho).trans rfl
  | establishes _ _ _ _ ho => exact (Outbound.numbers_of_eq_or_fail ho).trans rfl
  | acknowledges _ hj ho =>
    exact (Outbound.numbers_of_eq_or_fail ho).trans
      (hj.same.1.trans (Outbound.numbers_acknowledge _ _))

theorem acknowledgmentRule (hwindow : Window c.outbound) {d : TcpClient}
    (h : c.Receives srcIp dstIp segment d.outbound) :
    AcknowledgmentRule c srcIp dstIp segment d := by
  have hnumbers := numbers_of_receives h
  refine ⟨congrArg (·.1) hnumbers, congrArg (·.2.1) hnumbers, congrArg (·.2.2.1) hnumbers,
    congrArg (·.2.2.2.1) hnumbers, congrArg (·.2.2.2.2) hnumbers, fun hchanges => ?_⟩
  have hchanges' : d.outbound.sendUnacknowledged ≠ c.outbound.sendUnacknowledged ∨
      d.outbound.pendingActive ≠ c.outbound.pendingActive ∧ d.outbound.state ≠ .failed := hchanges
  generalize d.outbound = o at h hchanges'
  -- nothing changes by a failure or an answer
  have hkept : ∀ j : Outbound, j.sendUnacknowledged = c.outbound.sendUnacknowledged →
      j.pendingActive = c.outbound.pendingActive → (o = j ∨ o = j.fail) → False := by
    intro j hnumber hactive ho
    rcases hchanges' with hne | ⟨hne, hstate⟩
    · exact hne ((Outbound.unacknowledged_of_eq_or_fail ho).trans hnumber)
    · exact hne ((Outbound.active_of_eq_or_fail ho hstate).trans hactive)
  cases h with
  | rests => exact (hkept c.outbound rfl rfl (.inl rfl)).elim
  | fails => exact (hkept c.outbound rfl rfl (.inr rfl)).elim
  | answers _ _ ho => exact (hkept c.outbound.answer rfl rfl ho).elim
  | establishes hstate hpeer hactive hack ho =>
    refine ⟨_, rfl, hpeer, ?_, fun hne => absurd hstate hne, fun _ => hack⟩
    rw [hack, show c.pendingEnd = c.sendNext from hwindow.end_eq]
  | acknowledges hacknowledges hj ho =>
    refine ⟨_, rfl, hacknowledges.fromPeer, ?_, fun _ => hacknowledges.sequence_eq,
      fun hsyn => absurd hsyn hacknowledges.connected.2.2⟩
    by_contra houtside
    have hrefused := fun h => houtside ((hwindow.acceptable_iff hacknowledges.connected.2.1 _).1 h)
    have hsame := hj.same
    rw [show c.outbound.acknowledge _ = c.outbound from if_pos (not_not.1 hrefused)] at hsame
    exact hkept _ hsame.2.1 hsame.2.2.1 ho

/-! ### The completion of a send operation -/

/-- A send operation whose segment ends at the given number is under way. -/
structure SendPending (last : UInt32) (o : Outbound) : Prop where
  operation : o.operation = .send
  active : o.pendingActive = true
  end_eq : o.pendingEnd = last

namespace SendPending

variable {last : UInt32} {o : Outbound}

variable {j : Outbound}

theorem rests (h : SendPending last o) (hwindow : Window o) (hrests : o.Rests j) :
    SendPending last j := by
  cases hrests with
  | stay => exact h
  | reject _ hidle => exact absurd (hwindow.busy h.active) hidle
  | refuse _ hfailed => exact absurd hfailed (hwindow.not_failed h.active)
  | begin _ hidle => exact absurd (hwindow.busy h.active) hidle
  | beginComplete _ hidle => exact absurd (hwindow.busy h.active) hidle
  | complete _ hgoal => exact absurd hgoal (hwindow.not_goalReached h.active)
  | setRetries => exact ⟨h.operation, h.active, h.end_eq⟩

theorem acknowledge (h : SendPending last o) {acknowledgment : UInt32}
    (hpart : acknowledgment ≠ last) : SendPending last (o.acknowledge acknowledgment) := by
  have hother : o.pendingActive = false ∨ acknowledgment ≠ o.pendingEnd :=
    .inr (by rwa [h.end_eq])
  by_cases hold : sequenceAfter acknowledgment o.sendNext = true ∨
      sequenceBefore acknowledgment o.sendUnacknowledged = true
  · rw [Outbound.acknowledge, if_pos hold]
    exact h
  · rw [Outbound.acknowledge, if_neg hold, if_pos hother]
    exact ⟨h.operation, h.active, h.end_eq⟩

theorem delivers (h : SendPending last o) (hj : o.Delivers j) : SendPending last j := by
  cases hj <;> exact ⟨h.operation, h.active, h.end_eq⟩

theorem or_failed (h : SendPending last j) (ho : o = j ∨ o = j.fail) :
    SendPending last o ∨ o.state = .failed := by
  rcases ho with rfl | rfl
  · exact .inl h
  · exact .inr rfl

/-- As long as the end of its segment is not acknowledged, the operation stays under way, or the
client fails. -/
theorem sending {c : TcpClient} (h : SendPending last c.outbound) (hwindow : Window c.outbound)
    {call : TcpCall} (hsending : Sending c call o) :
    (SendPending last o ∨ o.state = .failed) ∨
      ∃ srcIp dstIp packet, call = .receive srcIp dstIp (some packet) ∧
        c.Acknowledges srcIp dstIp packet ∧ acknowledgmentOf packet = last := by
  cases hsending with
  | opens hj _ =>
    exact absurd (hwindow.orderly.busy h.active) (TcpClient.opens_cases hj).1
  | rests _ _ hrests => exact .inl (.inl (h.rests hwindow hrests))
  | serves hserves =>
    cases hserves with
    | rests hrests => exact .inl (.inl (h.rests hwindow hrests))
    | fails => exact .inl (.inr rfl)
    | resends _ _ _ ho =>
      have hresent : SendPending last c.outbound.resent := ⟨h.operation, h.active, h.end_eq⟩
      exact .inl (hresent.or_failed ho)
  | receives hreceives =>
    cases hreceives with
    | rests => exact .inl (.inl h)
    | fails => exact .inl (.inr rfl)
    | answers _ _ ho => exact .inl ((h.delivers .answer).or_failed ho)
    | establishes hstate =>
      have hoperation := hwindow.operation_eq h.active
      rw [h.operation, show c.outbound.state = .synSent from hstate] at hoperation
      cases hoperation
    | @acknowledges packet j _ hacknowledges hj ho =>
      by_cases hlast : acknowledgmentOf packet = last
      · exact .inr ⟨_, _, packet, rfl, hacknowledges, hlast⟩
      · exact .inl (((h.acknowledge hlast).delivers hj).or_failed ho)

end SendPending

/-- In a run in which a pending send operation completes, the end of its segment was
acknowledged. -/
theorem exists_acknowledgment {last : UInt32} (h : SendPending last c.outbound)
    (hwindow : Window c.outbound) {steps : List (TcpEnv × TcpCall)}
    (hcomplete : (c.after steps).stepResult = .complete) :
    ∃ before env srcIp dstIp packet rest,
      steps = before ++ (env, .receive srcIp dstIp (some packet)) :: rest ∧
        SendPending last (c.after before).outbound ∧
        (c.after before).Acknowledges srcIp dstIp packet ∧ acknowledgmentOf packet = last := by
  induction steps generalizing c with
  | nil =>
    have hpending : c.stepResult = .pending := hwindow.pending h.active
    rw [show (c.after []).stepResult = c.stepResult from rfl, hpending] at hcomplete
    cases hcomplete
  | cons step steps ih =>
    obtain ⟨env, call⟩ := step
    have hsending := sending_run env hwindow.orderly call
    rcases h.sending hwindow hsending with
      (hstill | hfailed) | ⟨srcIp, dstIp, packet, rfl, hack, hlast⟩
    · obtain ⟨before, env', srcIp, dstIp, packet, rest, rfl, hrest⟩ :=
        ih hstill (hwindow.sending hsending) hcomplete
      exact ⟨(env, call) :: before, env', srcIp, dstIp, packet, rest, rfl, hrest⟩
    · -- a failed client completes nothing
      have hstate := (TcpClient.after_of_failed hfailed steps).state
      have hresult : ((call.run env c).after steps).stepResult = .failed :=
        (window_after (hwindow.sending hsending) steps).failed hstate
      rw [show (c.after ((env, call) :: steps)).stepResult =
        ((call.run env c).after steps).stepResult from rfl, hresult] at hcomplete
      cases hcomplete
    · exact ⟨[], env, srcIp, dstIp, packet, steps, rfl, h, hack, hlast⟩

/-! ### The own FIN -/

namespace TcpClientState

/-- The states behind the acknowledgment of the own FIN. -/
def finDone (s : TcpClientState) : Prop := s = .finWait2 ∨ s = .closed

variable {s : TcpClientState}

theorem finDone_afterFinAcked (h : s.finPending = true) : s.afterFinAcked.finDone := by
  cases s <;> simp_all [finPending, afterFinAcked, finDone]

theorem finDone_afterFin (h : s.finDone) : s.afterFin.finDone := by
  rcases h with rfl | rfl
  · exact .inr rfl
  · exact .inr rfl

theorem finPending_afterFin (h : s.finPending = true) : s.afterFin.finPending = true := by
  cases s <;> simp_all [finPending, afterFin]

theorem not_finDone (h : s.finPending = true) : ¬s.finDone := by
  rintro (rfl | rfl) <;> cases h

theorem fin_of_finPending {flags : UInt8} (h : s.finPending = true)
    (hflags : s.pendingFlags = some flags) : flags &&& tcpFlagFin ≠ 0 := by
  cases s <;>
    simp only [finPending, pendingFlags, Option.some.injEq, Bool.false_eq_true] at h hflags <;>
    subst hflags <;> decide

end TcpClientState

theorem Outbound.Delivers.finDone {o j : Outbound} (h : o.Delivers j) (ho : o.state.finDone) :
    j.state.finDone := by
  cases h with
  | nothing => exact ho
  | answer => exact ho
  | finish => exact finDone_afterFin ho

theorem Outbound.Delivers.finPending {o j : Outbound} (h : o.Delivers j)
    (ho : o.state.finPending = true) : j.state.finPending = true := by
  cases h with
  | nothing => exact ho
  | answer => exact ho
  | finish => exact finPending_afterFin ho

/-- Where an acknowledgment leads while the own FIN is pending. -/
theorem Window.acknowledge_finPending (h : Window o)
    (hstate : o.state.finPending = true) (acknowledgment : UInt32) :
    acknowledgment = o.pendingEnd ∧ (o.acknowledge acknowledgment).state.finDone ∨
      acknowledgment ≠ o.pendingEnd ∧ (o.acknowledge acknowledgment).state.finPending = true := by
  have hactive := h.awaits (awaits_of_finPending hstate)
  have hfin := fin_of_finPending hstate (h.flags hactive)
  by_cases hend : acknowledgment = o.pendingEnd
  · have hwhole : ¬(o.pendingActive = false ∨ acknowledgment ≠ o.pendingEnd) := by
      rw [hactive]
      simp [hend]
    have hacceptable := h.acceptable_end (h.not_failed hactive)
    rw [← hend] at hacceptable
    refine .inl ⟨hend, ?_⟩
    rw [Outbound.acknowledge, if_neg hacceptable, if_neg hwhole, if_pos hfin]
    exact finDone_afterFinAcked hstate
  · refine .inr ⟨hend, ?_⟩
    by_cases hold : sequenceAfter acknowledgment o.sendNext = true ∨
        sequenceBefore acknowledgment o.sendUnacknowledged = true
    · rw [Outbound.acknowledge, if_pos hold]
      exact hstate
    · rw [Outbound.acknowledge, if_neg hold, if_pos (.inr hend)]
      exact hstate

/-- A state of the own FIN changes to one behind it exactly by the acknowledgment of the FIN, unless
the client fails. -/
theorem finDone_iff (hwindow : Window c.outbound)
    (hstate : c.state.finPending = true) (h : c.Receives srcIp dstIp segment o) :
    o.state.finDone ↔ o.state ≠ .failed ∧ ∃ packet, segment = some packet ∧
      c.Acknowledges srcIp dstIp packet ∧ acknowledgmentOf packet = c.pendingEnd := by
  have hfailed : ∀ j : Outbound, ¬j.fail.state.finDone := by
    rintro j (h | h) <;> cases h
  have hother : ∀ j : Outbound, j.state.finPending = true → (o = j ∨ o = j.fail) →
      (∀ packet, segment = some packet → ¬(c.Acknowledges srcIp dstIp packet ∧
        acknowledgmentOf packet = c.pendingEnd)) →
      (o.state.finDone ↔ o.state ≠ .failed ∧ ∃ packet, segment = some packet ∧
        c.Acknowledges srcIp dstIp packet ∧ acknowledgmentOf packet = c.pendingEnd) := by
    intro j hj ho hnot
    refine iff_of_false ?_ fun ⟨_, packet, hsegment, hacked⟩ => hnot packet hsegment hacked
    rcases ho with rfl | rfl
    · exact not_finDone hj
    · exact hfailed j
  cases h with
  | rests hnot => exact hother c.outbound hstate (.inl rfl) fun p hp hacked => hnot p hp hacked.1
  | fails _ hnot => exact hother c.outbound hstate (.inr rfl) fun p hp hacked => hnot p hp hacked.1
  | answers _ hnot ho =>
    exact hother c.outbound.answer hstate ho fun p hp hacked => hnot p hp hacked.1
  | establishes hsyn =>
    rw [hsyn] at hstate
    cases hstate
  | @acknowledges packet j _ hacknowledges hj ho =>
    rcases hwindow.acknowledge_finPending hstate (acknowledgmentOf packet) with
      ⟨hend, hdone⟩ | ⟨hend, hpending⟩
    · have hdone' := hj.finDone hdone
      rcases ho with rfl | rfl
      · refine iff_of_true hdone' ⟨?_, packet, rfl, hacknowledges, hend⟩
        rcases hdone' with h | h <;> rw [h] <;> nofun
      · exact iff_of_false (hfailed j) fun h => h.1 rfl
    · refine hother j (hj.finPending hpending) ho ?_
      rintro _ ⟨⟩ hacked
      exact hend hacked.2

theorem Outbound.Rests.state_eq {o j : Outbound} (h : o.Rests j) : j.state = o.state := by
  cases h <;> rfl

/-- A segment is begun in a state without a pending FIN. -/
theorem not_finPending_of_opens {call : TcpCall} {j : Outbound}
    (h : c.opens call = some j) : ¬c.state.finPending = true := by
  rcases (TcpClient.opens_cases h).2 with hstate | hstate | hstate <;> rw [hstate] <;> nofun

/-- No other call leaves a state of the own FIN, short of a failure. -/
theorem state_of_sending (hstate : c.state.finPending = true) {call : TcpCall}
    (hsending : Sending c call o)
    (hcall : ∀ srcIp dstIp segment, call ≠ .receive srcIp dstIp segment) :
    o.state = c.state ∨ o.state = .failed := by
  cases hsending with
  | opens hj => exact absurd hstate (not_finPending_of_opens hj)
  | rests _ _ hrests => exact .inl hrests.state_eq
  | serves hserves =>
    cases hserves with
    | rests hrests => exact .inl hrests.state_eq
    | fails => exact .inr rfl
    | resends _ _ _ ho =>
      rcases ho with rfl | rfl
      · exact .inl rfl
      · exact .inr rfl
  | receives => exact absurd rfl (hcall _ _ _)

/-! ### The result -/

/-- What holds of the sending side of a client, and of what can happen to it next. -/
structure SendWindow (c : TcpClient) : Prop where
  pending : c.state.Connected ∨ c.state = .synSent → c.pendingActive = true →
    c.pendingEnd = c.sendNext ∧ (c.sendUnacknowledged - c.pendingSequence).toNat <
      (c.pendingEnd - c.pendingSequence).toNat
  idle : c.state.Connected ∨ c.state = .synSent → c.pendingActive = false →
    c.sendUnacknowledged = c.sendNext
  acknowledgment : ∀ env srcIp dstIp segment, AcknowledgmentRule c srcIp dstIp segment
    (TcpClient.tcpClientReceive env c srcIp dstIp segment).2
  /-- A completed send operation has left nothing unacknowledged. -/
  sendCompleted : c.operation = .send → c.stepResult = .complete →
    c.pendingActive = false ∧ (c.state.Connected → c.sendUnacknowledged = c.pendingEnd)
  /-- A send operation with data completes only behind the acknowledgment of its end. -/
  sendCompletes : ∀ env dataIsNull data steps, c.AcceptsSend dataIsNull data → data ≠ [] →
    ((TcpClient.tcpClientBeginSend env c dataIsNull data).2.after steps).stepResult = .complete →
    ∃ before env' srcIp dstIp packet rest,
      steps = before ++ (env', .receive srcIp dstIp (some packet)) :: rest ∧
        SendPending (c.sendNext + UInt32.ofNat data.length)
          ((TcpClient.tcpClientBeginSend env c dataIsNull data).2.after before).outbound ∧
        ((TcpClient.tcpClientBeginSend env c dataIsNull data).2.after before).Acknowledges
          srcIp dstIp packet ∧
        acknowledgmentOf packet = c.sendNext + UInt32.ofNat data.length
  fin : c.state.finPending = true →
    c.pendingActive = true ∧ c.pendingFlags &&& tcpFlagFin ≠ 0
  finReceive : c.state.finPending = true → ∀ env srcIp dstIp segment,
    ((TcpClient.tcpClientReceive env c srcIp dstIp segment).2.state.finDone ↔
      (TcpClient.tcpClientReceive env c srcIp dstIp segment).2.state ≠ .failed ∧
        ∃ packet, segment = some packet ∧ c.Acknowledges srcIp dstIp packet ∧
          acknowledgmentOf packet = c.pendingEnd)
  finOther : c.state.finPending = true → ∀ env call,
    (∀ srcIp dstIp segment, call ≠ .receive srcIp dstIp segment) →
    (TcpCall.run env c call).state = c.state ∨ (TcpCall.run env c call).state = .failed

/-- An accepted send has its segment pending, or has failed. -/
theorem sendPending_tcpClientBeginSend (hwindow : Window c.outbound) (env : TcpEnv)
    {dataIsNull : Bool} {data : List UInt8} (haccepts : c.AcceptsSend dataIsNull data)
    (hdata : data ≠ []) :
    SendPending (c.sendNext + UInt32.ofNat data.length)
        (TcpClient.tcpClientBeginSend env c dataIsNull data).2.outbound ∨
      (TcpClient.tcpClientBeginSend env c dataIsNull data).2.state = .failed := by
  have hopens : c.opens (.beginSend dataIsNull data) =
      some ((c.outbound.begun .send).opened (tcpFlagAck ||| tcpFlagPsh) data) :=
    if_pos ⟨haccepts, hdata⟩
  rcases TcpClient.begins_tcpClientBeginSend env hwindow.orderly dataIsNull data with
    ⟨j, hj, ho⟩ | ⟨hnone, -⟩
  · rw [hopens] at hj
    cases hj
    have hlength : sequenceLength (tcpFlagAck ||| tcpFlagPsh) data = data.length := by
      rw [sequenceLength, if_neg (by decide), if_neg (by decide), Nat.add_zero]
    have hpending : SendPending (c.sendNext + UInt32.ofNat data.length)
        ((c.outbound.begun .send).opened (tcpFlagAck ||| tcpFlagPsh) data) := by
      refine ⟨rfl, rfl, ?_⟩
      show c.sendNext + UInt32.ofNat (sequenceLength (tcpFlagAck ||| tcpFlagPsh) data) = _
      rw [hlength]
    exact hpending.or_failed ho
  · rw [hopens] at hnone
    cases hnone

theorem sendWindow_of_window (hwindow : Window c.outbound) : SendWindow c where
  pending _ hactive := ⟨hwindow.end_eq, hwindow.inside hactive⟩
  idle hstate hactive := by
    refine hwindow.acked ?_ hactive
    rcases hstate with hstate | hstate
    · exact hstate.2.1
    · show c.state ≠ .failed
      rw [hstate]
      nofun
  acknowledgment env srcIp dstIp segment :=
    acknowledgmentRule hwindow (TcpClient.receives_tcpClientReceive env c srcIp dstIp segment)
  sendCompleted _ hcomplete := by
    have hactive : c.pendingActive = false := by
      cases hactive : c.pendingActive with
      | false => rfl
      | true => exact absurd (hcomplete.symm.trans (hwindow.pending hactive)) (by nofun)
    exact ⟨hactive, fun hstate => (hwindow.acked hstate.2.1 hactive).trans hwindow.end_eq.symm⟩
  sendCompletes env dataIsNull data steps haccepts hdata hcomplete := by
    have hnext : Window (TcpClient.tcpClientBeginSend env c dataIsNull data).2.outbound :=
      hwindow.sending (sending_run env hwindow.orderly (.beginSend dataIsNull data))
    rcases sendPending_tcpClientBeginSend hwindow env haccepts hdata with hpending | hfailed
    · exact exists_acknowledgment hpending hnext hcomplete
    · have hstate := (TcpClient.after_of_failed hfailed steps).state
      exact absurd (hcomplete.symm.trans ((window_after hnext steps).failed hstate)) (by nofun)
  fin hstate := by
    have hactive := hwindow.awaits (awaits_of_finPending hstate)
    exact ⟨hactive, fin_of_finPending hstate (hwindow.flags hactive)⟩
  finReceive hstate env srcIp dstIp segment :=
    finDone_iff hwindow hstate (TcpClient.receives_tcpClientReceive env c srcIp dstIp segment)
  finOther hstate env call hcall :=
    state_of_sending hstate (sending_run env hwindow.orderly call) hcall

/-- **The send window.** -/
theorem send_window (io : Option TcpClientIo) (localIp : UInt32) (localPort : UInt16)
    (receiveBuffer : Option (ℕ → UInt8)) (receiveCapacity : ℕ) (steps : List (TcpEnv × TcpCall)) :
    SendWindow
      ((TcpClient.tcpClientInit io localIp localPort receiveBuffer receiveCapacity).after steps) :=
  sendWindow_of_window (window_after (window_tcpClientInit ..) steps)

/-- The SYN+ACK at sequence number 100 changes the send state while `receive_next` is still 0. -/
theorem handshake_ignores_receiveNext :
    (sampleConnecting 0).state = .synSent ∧ (sampleConnecting 0).sendUnacknowledged = 0 ∧
      (sampleConnecting 0).receiveNext = 0 ∧ sequenceOf sampleSynAck = 100 ∧
      (TcpClient.tcpClientReceive ⟨0, true⟩ (sampleConnecting 0) 2 1 (some sampleSynAck)).2.state =
        .established ∧
      (TcpClient.tcpClientReceive ⟨0, true⟩ (sampleConnecting 0) 2 1
        (some sampleSynAck)).2.sendUnacknowledged = 1 := by
  decide +kernel

end Nostalux.Tcp
