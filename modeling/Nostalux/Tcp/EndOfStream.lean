import Nostalux.Tcp.Delivery

/-!
# The end of the peer's stream

`receive_next` counts what was received: the SYN of the peer, the bytes in the buffer and the FIN,
if it was processed.  Nothing of this is assumed of the peer here, which may send any segments.

The count is kept by every call except one: behind the FIN, a segment at `receive_next` is not
refused.  A second FIN is counted again in each of the three states behind the FIN, and in
`TCP_CLIENT_CLOSING`, which is missing from the states that refuse data, further data is appended to
the buffer.  `PastEnd` says exactly when this happens (`unchanged_iff_not_pastEnd`), and in every
run without such a segment the count is right and the end of the stream is final
(`endOfStream_final`).
-/

namespace Nostalux.Tcp

open BigEndian UInt32 TcpClient Inbound TcpRecord

/-! ### Segments behind the end -/

/-- The call hands a segment to a client that has processed the FIN of its peer, and the segment has
data or a FIN that the client takes. -/
def PastEnd (c : TcpClient) (call : TcpCall) : Prop :=
  ∃ srcIp dstIp packet, call = .receive srcIp dstIp (some packet) ∧ c.state.ended = true ∧
    FromPeer c.inbound.endpoints srcIp dstIp packet ∧ c.Takes packet

/-- No call of the run hands over a segment behind the end. -/
def NeverPastEnd : TcpClient → List (TcpEnv × TcpCall) → Prop
  | _, [] => True
  | c, step :: steps => ¬PastEnd c step.2 ∧ NeverPastEnd (step.2.run step.1 c) steps

/-- What every call that hands over no segment behind the end keeps, every such run keeps. -/
theorem NeverPastEnd.induction {motive : TcpClient → Prop} {c : TcpClient}
    {steps : List (TcpEnv × TcpCall)} (h : NeverPastEnd c steps) (hstart : motive c)
    (hstep : ∀ d env call, ¬PastEnd d call → motive d → motive (call.run env d)) :
    motive (c.after steps) := by
  induction steps generalizing c with
  | nil => exact hstart
  | cons step steps ih => exact ih h.2 (hstep c step.1 step.2 h.1 hstart)

/-! ### The count of received numbers -/

/-- `receive_next` counts the SYN, the received bytes and the FIN of the peer. -/
structure Counted (i : Inbound) : Prop where
  fresh : i.state = .synSent → i.buffer.length = 0 ∧ i.peer = []
  receiving : i.state.receiving = true → ∃ initial, i.peer = [.peerSyn initial] ∧
    i.receiveNext = initial + 1 + UInt32.ofNat i.buffer.length
  ended : i.state.ended = true → ∃ initial, i.peer = [.peerFin, .peerSyn initial] ∧
    i.receiveNext = initial + 1 + UInt32.ofNat i.buffer.length + 1

namespace Counted

variable {i j : Inbound}

theorem failed (i : Inbound) : Counted (i.withState .failed) := ⟨nofun, nofun, nofun⟩

variable {s : TcpClientState}

theorem withState (h : Counted i) (hsyn : s = .synSent → i.state = .synSent)
    (hreceiving : s.receiving = true → i.state.receiving = true)
    (hended : s.ended = true → i.state.ended = true) : Counted (i.withState s) where
  fresh hs := h.fresh (hsyn hs)
  receiving hs := h.receiving (hreceiving hs)
  ended hs := h.ended (hended hs)

theorem «local» (h : Counted i) (hlocal : i.Local j) : Counted j := by
  cases hlocal with
  | stay => exact h
  | fail => exact failed i
  | shutdown hstate => exact h.withState nofun (fun _ => by rw [hstate]; rfl) nofun
  | lastAck hstate => exact h.withState nofun nofun (fun _ => by rw [hstate]; rfl)

theorem accept (h : Counted i) (hstate : i.state = .synSent) (sequence : UInt32) :
    Counted (i.accept sequence) := by
  obtain ⟨hlength, hpeer⟩ := h.fresh hstate
  refine ⟨nofun, fun _ => ⟨sequence, ?_, ?_⟩, nofun⟩
  · show peerSyn sequence :: i.peer = _
    rw [hpeer]
  · show sequence + 1 = sequence + 1 + ofNat i.buffer.length
    rw [hlength]
    exact (UInt32.add_zero _).symm

theorem untaken {packet : List UInt8} (h : Counted i) (huntaken : i.Untaken packet j) :
    Counted j := by
  cases huntaken with
  | discard => exact h
  | fail => exact failed i
  | accept hstate => exact h.accept hstate _
  | acceptFailed => exact failed _
  | finAcked =>
    apply h.withState
    all_goals
      cases i.state <;> simp [TcpClientState.afterFinAcked, TcpClientState.receiving,
        TcpClientState.ended]

/-- Before the end the count has the SYN and the bytes. -/
theorem of_receiving {initial : UInt32} (hs : s.receiving = true)
    (hpeer : i.peer = [.peerSyn initial])
    (hnext : i.receiveNext = initial + 1 + ofNat i.buffer.length) :
    Counted (i.withState s) := by
  refine ⟨?_, fun _ => ⟨initial, hpeer, hnext⟩, ?_⟩
  all_goals
    revert hs
    cases s <;> simp [TcpClientState.receiving, TcpClientState.ended]

/-- At the end the count also has the FIN. -/
theorem of_finished {initial : UInt32} (hs : s.receiving = true)
    (hpeer : i.peer = [.peerFin, .peerSyn initial])
    (hnext : i.receiveNext = initial + 1 + ofNat i.buffer.length + 1) :
    Counted (i.withState s.afterFin) := by
  refine ⟨?_, ?_, fun _ => ⟨initial, hpeer, hnext⟩⟩
  all_goals
    revert hs
    cases s <;> simp [TcpClientState.receiving, TcpClientState.afterFin]

/-- A segment that is taken before the end is counted: its bytes, and its FIN once. -/
theorem taken {c : TcpClient} {packet : List UInt8} (h : Counted c.inbound)
    (htakes : c.Takes packet) (hreceiving : c.state.receiving = true)
    (hs : s = .failed ∨
      s = if hasFlag packet tcpFlagFin then (c.stateAfterAck (acknowledgmentOf packet)).afterFin
        else c.stateAfterAck (acknowledgmentOf packet)) :
    Counted ((c.inbound.deliver packet htakes.fits).withState s) := by
  have hafter := receiving_stateAfterAck (acknowledgmentOf packet) hreceiving
  obtain ⟨initial, hpeer, hnext⟩ := h.receiving hreceiving
  have hcount : (c.inbound.deliver packet htakes.fits).receiveNext =
      initial + 1 + ofNat (c.inbound.deliver packet htakes.fits).buffer.length +
        if hasFlag packet tcpFlagFin then 1 else 0 := by
    rw [receiveNext_deliver, buffer_deliver, ReceiveBuffer.length_append,
      UInt32.ofNat_add, hnext, UInt32.add_assoc (initial + 1)]
  have hrecords := peer_deliver c.inbound packet htakes.fits
  rw [hpeer] at hrecords
  rcases hs with rfl | rfl
  · exact failed _
  by_cases hfin : hasFlag packet tcpFlagFin = true
  · rw [if_pos hfin] at hcount hrecords ⊢
    exact of_finished hafter hrecords hcount
  · rw [if_neg hfin] at hcount hrecords ⊢
    exact of_receiving hafter hrecords (by rw [hcount, UInt32.add_zero])

/-- A call that hands over no segment behind the end keeps the count. -/
theorem run {c : TcpClient} (h : Counted c.inbound) (env : TcpEnv) {call : TcpCall}
    (hcall : ¬PastEnd c call) : Counted (call.run env c).inbound := by
  have heffect := TcpCall.effect_run env c call
  generalize (call.run env c).inbound = i at heffect ⊢
  cases heffect with
  | «local» hlocal => exact h.local hlocal
  | connect _ hi =>
    rcases hi with rfl | rfl
    · exact ⟨fun _ => ⟨rfl, rfl⟩, nofun, nofun⟩
    · exact failed _
  | untaken _ _ huntaken => exact h.untaken huntaken
  | taken hpeer htakes hs =>
    have hreceiving : c.state.receiving = true := by
      rcases TcpClientState.receiving_or_ended htakes.connected with hreceiving | hended
      · exact hreceiving
      · exact absurd ⟨_, _, _, rfl, hended, hpeer, htakes⟩ hcall
    exact h.taken htakes hreceiving hs

end Counted

/-! ### When the end is final -/

/-- The number of bytes and of a FIN that a segment adds never wraps around to zero. -/
theorem receiveNext_deliver_ne {i : Inbound} {packet : List UInt8}
    (h : (dataOf packet).length ≤ i.buffer.remaining) (hlength : packet.length ≤ 65535)
    (hsome : dataOf packet ≠ [] ∨ hasFlag packet tcpFlagFin = true) :
    (i.deliver packet h).receiveNext ≠ i.receiveNext := by
  have hle : (dataOf packet).length ≤ 65535 := by
    rw [dataOf, List.length_drop]
    omega
  have hpos : dataOf packet ≠ [] → 0 < (dataOf packet).length := List.length_pos_iff.2
  rw [receiveNext_deliver]
  intro heq
  have hnat := congrArg toNat heq
  rcases hsome with hdata | hfin
  · have hdata' := hpos hdata
    split_ifs at hnat <;>
      · simp only [UInt32.toNat_add, UInt32.toNat_ofNat', UInt32.toNat_zero, UInt32.toNat_one]
          at hnat
        omega
  · rw [if_pos hfin] at hnat
    simp only [UInt32.toNat_add, UInt32.toNat_ofNat', UInt32.toNat_one] at hnat
    omega

/-- Behind the FIN, a segment leaves the received bytes and `receive_next` alone exactly if nothing
of it is taken. -/
theorem unchanged_iff_not_pastEnd {c : TcpClient} (hended : c.state.ended = true) (env : TcpEnv)
    (srcIp dstIp : UInt32) (segment : Option (List UInt8)) :
    ((tcpClientReceive env c srcIp dstIp segment).2.receive.length = c.receive.length ∧
      (tcpClientReceive env c srcIp dstIp segment).2.receive.bytes = c.receive.bytes ∧
      (tcpClientReceive env c srcIp dstIp segment).2.receiveNext = c.receiveNext) ↔
    ¬PastEnd c (.receive srcIp dstIp segment) := by
  have hclosed : c.state ≠ .closed := by
    intro hs
    rw [hs] at hended
    cases hended
  have hfailed : c.state ≠ .failed := by
    intro hs
    rw [hs] at hended
    cases hended
  constructor
  · rintro ⟨-, -, hnext⟩ ⟨_, _, packet, hcall, -, hpeer, htakes⟩
    cases hcall
    rw [tcpClientReceive_of_fromPeer env hclosed hfailed hpeer] at hnext
    obtain ⟨s, -, hdeliver⟩ := receiveValid_of_takes env htakes htakes.fits
    have hnext' := congrArg Inbound.receiveNext hdeliver
    rw [receiveNext_withState] at hnext'
    exact receiveNext_deliver_ne htakes.fits hpeer.length_le htakes.nonempty
      (hnext'.symm.trans hnext)
  · intro hcall
    have heffect := TcpCall.effect_run env c (.receive srcIp dstIp segment)
    rw [TcpCall.run] at heffect
    -- all that can happen is a change of the state
    have hsame : ∃ s, (tcpClientReceive env c srcIp dstIp segment).2.inbound =
        c.inbound.withState s := by
      generalize (tcpClientReceive env c srcIp dstIp segment).2.inbound = i at heffect ⊢
      have hsynSent : ¬c.inbound.state = .synSent := by
        intro hs
        rw [show c.state = .synSent from hs] at hended
        cases hended
      cases heffect with
      | «local» hlocal =>
        cases hlocal with
        | stay => exact ⟨c.state, rfl⟩
        | fail => exact ⟨_, rfl⟩
        | shutdown => exact ⟨_, rfl⟩
        | lastAck => exact ⟨_, rfl⟩
      | untaken _ _ huntaken =>
        cases huntaken with
        | discard => exact ⟨c.state, rfl⟩
        | fail => exact ⟨_, rfl⟩
        | finAcked => exact ⟨_, rfl⟩
        | accept hs => exact absurd hs hsynSent
        | acceptFailed hs => exact absurd hs hsynSent
      | taken hpeer htakes _ => exact absurd ⟨_, _, _, rfl, hended, hpeer, htakes⟩ hcall
    obtain ⟨s, hs⟩ := hsame
    have hbuffer : (tcpClientReceive env c srcIp dstIp segment).2.receive = c.receive :=
      congrArg buffer hs
    rw [hbuffer]
    exact ⟨rfl, rfl, congrArg Inbound.receiveNext hs⟩

/-- **The end of the stream is final.**  In a run without a segment behind the end, `receive_next`
of a connected client counts the SYN, the received bytes and the FIN of the peer, and once the FIN
was processed a further segment changes neither the received bytes nor `receive_next`, exactly as
long as nothing behind the end is taken from it. -/
theorem endOfStream_final (io : Option TcpClientIo) (localIp : UInt32) (localPort : UInt16)
    (receiveBuffer : Option (ℕ → UInt8)) (receiveCapacity : ℕ) (steps : List (TcpEnv × TcpCall))
    (hsteps : NeverPastEnd
      (TcpClient.tcpClientInit io localIp localPort receiveBuffer receiveCapacity) steps)
    {c : TcpClient} (hc : c =
      (TcpClient.tcpClientInit io localIp localPort receiveBuffer receiveCapacity).after steps)
    (hconnected : c.state.Connected) :
    (∃ initial, (∀ n, TcpRecord.peerSyn n ∈ c.history ↔ n = initial) ∧
      c.receiveNext = initial + 1 + UInt32.ofNat c.receive.length +
        if TcpRecord.peerFin ∈ c.history then 1 else 0) ∧
    (TcpRecord.peerFin ∈ c.history ↔
      c.state ∈ [TcpClientState.closeWait, .closing, .lastAck]) ∧
    (TcpRecord.peerFin ∈ c.history → ∀ env srcIp dstIp segment,
      (((TcpClient.tcpClientReceive env c srcIp dstIp segment).2.receive.length =
          c.receive.length ∧
        (TcpClient.tcpClientReceive env c srcIp dstIp segment).2.receive.bytes =
          c.receive.bytes ∧
        (TcpClient.tcpClientReceive env c srcIp dstIp segment).2.receiveNext =
          c.receiveNext) ↔
      ¬PastEnd c (.receive srcIp dstIp segment))) := by
  have hcounted : Counted c.inbound := by
    rw [hc]
    refine hsteps.induction (motive := fun d => Counted d.inbound) ⟨nofun, nofun, nofun⟩ ?_
    intro d env call hcall hd
    exact hd.run env hcall
  have hmem : ∀ record : TcpRecord, record.ofPeer = true →
      (record ∈ c.history ↔ record ∈ c.inbound.peer) := by
    intro record hrecord
    rw [inbound, List.mem_filter, and_iff_left hrecord]
  have hfin := hmem .peerFin rfl
  rcases TcpClientState.receiving_or_ended hconnected with hreceiving | hended
  · obtain ⟨initial, hpeer, hnext⟩ := hcounted.receiving hreceiving
    have hnot : peerFin ∉ c.history := by
      rw [hfin, hpeer]
      simp
    refine ⟨⟨initial, fun n => ?_, ?_⟩, ⟨fun h => absurd h hnot, fun h => ?_⟩,
      fun h => absurd h hnot⟩
    · rw [hmem _ rfl, hpeer]
      simp
    · rw [if_neg hnot, UInt32.add_zero]
      exact hnext
    · revert hreceiving h
      cases c.state <;> simp [TcpClientState.receiving]
  · obtain ⟨initial, hpeer, hnext⟩ := hcounted.ended hended
    have hyes : peerFin ∈ c.history := by
      rw [hfin, hpeer]
      simp
    refine ⟨⟨initial, fun n => ?_, ?_⟩, ⟨fun _ => ?_, fun _ => hyes⟩,
      fun _ env srcIp dstIp segment => unchanged_iff_not_pastEnd hended env srcIp dstIp segment⟩
    · rw [hmem _ rfl, hpeer]
      simp
    · rw [if_pos hyes]
      exact hnext
    · revert hended
      cases c.state <;> simp [TcpClientState.ended]

/-- The FIN of the peer, at sequence number 101. -/
def sampleFin : List UInt8 :=
  [0, 2, 0, 1, 0, 0, 0, 101, 0, 0, 0, 1, 80, 17, 0, 0, 175, 104, 0, 0]

/-- A connection is begun and accepted, and the peer closes it without sending data. -/
def samplePeerClose : List (TcpEnv × TcpCall) :=
  [(⟨0, true⟩, .beginConnect 2 2 0), (⟨0, true⟩, .receive 2 1 (some sampleSynAck)),
    (⟨0, true⟩, .receive 2 1 (some sampleFin))]

/-- The client with room for one byte at address 1, port 1. -/
def sampleClient : TcpClient :=
  TcpClient.tcpClientInit (some ⟨true, true, true⟩) 1 1 (some fun _ => 0) 1

theorem neverPastEnd_samplePeerClose : NeverPastEnd sampleClient samplePeerClose := by
  refine ⟨?_, ?_, ?_, trivial⟩
  all_goals
    rintro ⟨_, _, _, -, hended, -⟩
    revert hended
    decide +kernel

theorem endOfStream_final_peerClose :
    (sampleClient.after samplePeerClose).state.Connected ∧
      TcpRecord.peerFin ∈ (sampleClient.after samplePeerClose).history ∧
      (sampleClient.after samplePeerClose).state ∈
        [TcpClientState.closeWait, .closing, .lastAck] := by
  have hconnected : (sampleClient.after samplePeerClose).state.Connected := by decide +kernel
  have hfin : peerFin ∈ (sampleClient.after samplePeerClose).history := by
    decide +kernel
  have h := endOfStream_final (some ⟨true, true, true⟩) 1 1 (some fun _ => 0) 1 samplePeerClose
    neverPastEnd_samplePeerClose rfl hconnected
  exact ⟨hconnected, hfin, h.2.1.1 hfin⟩

/-- A second FIN of the peer, at sequence number 102. -/
def sampleSecondFin : List UInt8 :=
  [0, 2, 0, 1, 0, 0, 0, 102, 0, 0, 0, 1, 80, 17, 0, 0, 175, 103, 0, 0]

/-- A byte of data behind the FIN, at sequence number 102. -/
def sampleLateData : List UInt8 :=
  [0, 2, 0, 1, 0, 0, 0, 102, 0, 0, 0, 1, 80, 16, 0, 0, 168, 103, 0, 0, 7]

/-- Both sides close at the same time. -/
def sampleSimultaneousClose : List (TcpEnv × TcpCall) :=
  [(⟨0, true⟩, .beginConnect 2 2 0), (⟨0, true⟩, .receive 2 1 (some sampleSynAck)),
    (⟨0, true⟩, .service), (⟨0, true⟩, .beginClose), (⟨0, true⟩, .receive 2 1 (some sampleFin))]

/-- A second FIN is counted again in `TCP_CLIENT_CLOSE_WAIT`, and in `TCP_CLIENT_CLOSING` data
behind the FIN is appended to the received bytes. -/
theorem endOfStream_not_final :
    (sampleClient.after samplePeerClose).state = .closeWait ∧
      (sampleClient.after samplePeerClose).receiveNext = 100 + 1 + 0 + 1 ∧
      ((TcpCall.receive 2 1 (some sampleSecondFin)).run ⟨0, true⟩
        (sampleClient.after samplePeerClose)).state = .closeWait ∧
      ((TcpCall.receive 2 1 (some sampleSecondFin)).run ⟨0, true⟩
        (sampleClient.after samplePeerClose)).receive.length = 0 ∧
      ((TcpCall.receive 2 1 (some sampleSecondFin)).run ⟨0, true⟩
        (sampleClient.after samplePeerClose)).receiveNext ≠ 100 + 1 + 0 + 1 ∧
      (sampleClient.after sampleSimultaneousClose).state = .closing ∧
      (sampleClient.after sampleSimultaneousClose).receive.bytes = [] ∧
      ((TcpCall.receive 2 1 (some sampleLateData)).run ⟨0, true⟩
        (sampleClient.after sampleSimultaneousClose)).receive.bytes = [7] := by
  decide +kernel

end Nostalux.Tcp
