import Nostalux.Tcp.SendWindow

/-!
# The retransmission discipline of the TCP client

What a connection sends, apart from mere acknowledgments, is determined by the accepted begin calls:
the SYN, a segment for each buffer, and the FIN, each numbered behind the one before it and repeated
a number of times (`transmissions`).

* `Connection` is the record of the accepted calls, kept beside a run (`TcpClient.connectionAfter`);
* `Ledger` ties the sending side to it, and every call keeps it (`Tracked.sending`);
* `retransmission_discipline`: what follows for the segments of a run, for the byte stream on the
  wire, and for a failed client.
-/

namespace Nostalux.Tcp

open SequenceSpace List TcpClient UInt32 Prod Nat

/-! ### Segments and their transmissions -/

/-- A segment that is sent until it is acknowledged. -/
structure Segment where
  flags : UInt8
  data : List UInt8
  deriving DecidableEq

/-- The sequence numbers that a segment takes. -/
def Segment.length (s : Segment) : ℕ := sequenceLength s.flags s.data

/-- The segment with the given sequence number. -/
def Segment.sentAt (s : Segment) (sequence : UInt32) : Transmission := ⟨sequence, s.flags, s.data⟩

/-- The sequence numbers that some segments take. -/
def totalLength (segments : List Segment) : ℕ := (segments.map Segment.length).sum

@[simp] theorem totalLength_append (a b : List Segment) :
    totalLength (a ++ b) = totalLength a + totalLength b := by
  simp [totalLength]

@[simp] theorem totalLength_cons (s : Segment) (b : List Segment) :
    totalLength (s :: b) = s.length + totalLength b := by
  simp [totalLength]

@[simp] theorem totalLength_nil : totalLength [] = 0 := rfl

/-- The transmissions of segments that follow each other from the offset `start` on, each of them
repeated the given number of times. -/
def transmissions (initial : UInt32) : ℕ → List (Segment × ℕ) → List Transmission
  | _, [] => []
  | start, (s, n) :: sent =>
    List.replicate n (s.sentAt (initial + UInt32.ofNat start)) ++
      transmissions initial (start + s.length) sent

theorem transmissions_append (initial : UInt32) (start : ℕ) (a b : List (Segment × ℕ)) :
    transmissions initial start (a ++ b) =
      transmissions initial start a ++
        transmissions initial (start + totalLength (a.map fst)) b := by
  induction a generalizing start with
  | nil => rfl
  | cons p a ih =>
    simp only [cons_append, transmissions, ih, map_cons, totalLength_cons, append_assoc, add_assoc]

/-- One repetition more of the last segment. -/
theorem transmissions_again (initial : UInt32) (front : List (Segment × ℕ)) (s : Segment) (n : ℕ) :
    transmissions initial 0 (front ++ [(s, n + 1)]) =
      transmissions initial 0 (front ++ [(s, n)]) ++
        [s.sentAt (initial + ofNat (totalLength (front.map fst)))] := by
  simp only [transmissions_append, transmissions, append_nil, append_assoc,
    replicate_succ', zero_add]

/-- A transmission is one of a segment behind all earlier ones. -/
theorem mem_transmissions {initial : UInt32} {start : ℕ} {sent : List (Segment × ℕ)}
    {t : Transmission} : t ∈ transmissions initial start sent ↔
      ∃ front s n back, sent = front ++ (s, n) :: back ∧ 0 < n ∧
        t = s.sentAt (initial + ofNat (start + totalLength (front.map fst))) := by
  constructor
  · intro h
    induction sent generalizing start with
    | nil => cases h
    | cons p sent ih =>
      rcases mem_append.1 h with h | h
      · obtain ⟨hn, rfl⟩ := mem_replicate.1 h
        exact ⟨[], p.1, p.2, sent, rfl, pos_of_ne_zero hn, rfl⟩
      · obtain ⟨front, s, n, back, rfl, hn, rfl⟩ := ih h
        exact ⟨p :: front, s, n, back, rfl, hn, by simp [add_assoc]⟩
  · rintro ⟨front, s, n, back, rfl, hn, rfl⟩
    rw [transmissions_append]
    refine mem_append_right _ (mem_append_left _ ?_)
    exact mem_replicate.2 ⟨hn.ne', rfl⟩

/-! ### The accepted calls of a connection -/

/-- What the begin functions of a connection accepted. -/
structure Connection where
  initialSequence : UInt32
  /-- `max_retries` when the connection was begun. -/
  maxRetries : UInt32
  /-- The buffers that `tcp_client_begin_send` took, oldest first. -/
  buffers : List (List UInt8)
  /-- Whether `tcp_client_begin_close` got to its FIN. -/
  closing : Bool

namespace Connection

/-- The SYN. -/
def syn : Segment := ⟨tcpFlagSyn, []⟩

/-- The segment of a buffer. -/
def push (data : List UInt8) : Segment := ⟨tcpFlagAck ||| tcpFlagPsh, data⟩

/-- The FIN. -/
def fin : Segment := ⟨tcpFlagFin ||| tcpFlagAck, []⟩

/-- The segments of a connection. -/
def segments (k : Connection) : List Segment :=
  syn :: ((k.buffers.filter (· ≠ [])).map push ++ if k.closing then [fin] else [])

/-- The byte stream of a connection. -/
def stream (k : Connection) : List UInt8 := k.buffers.flatten

end Connection

namespace TcpClient

/-- The record of the connection after a call. -/
def track (c : TcpClient) (k : Option Connection) : TcpCall → Option Connection
  | .beginConnect remoteIp remotePort initialSequence =>
    if c.AcceptsConnect remoteIp remotePort then some ⟨initialSequence, c.maxRetries, [], false⟩
    else k
  | .beginSend dataIsNull data =>
    if c.AcceptsSend dataIsNull data then k.map fun k => { k with buffers := k.buffers ++ [data] }
    else k
  | .beginClose => if c.AcceptsClose then k.map fun k => { k with closing := true } else k
  | _ => k

/-- The record of the connection after a run. -/
def connectionAfter (c : TcpClient) (k : Option Connection) :
    List (TcpEnv × TcpCall) → Option Connection
  | [] => k
  | step :: steps => connectionAfter (step.2.run step.1 c) (c.track k step.2) steps

/-- Everything that the connection has handed to `send_ipv4`, oldest first. -/
def transmitted (c : TcpClient) : List Transmission := c.outbound.wire.reverse

/-- What the connection has sent apart from mere acknowledgments. -/
def segmentsSent (c : TcpClient) : List Transmission :=
  c.transmitted.filter (·.flags ≠ tcpFlagAck)

end TcpClient

/-! ### The ledger -/

namespace Outbound

/-- What was sent apart from mere acknowledgments, oldest first. -/
def sent (o : Outbound) : List Transmission := o.wire.reverse.filter (·.flags ≠ tcpFlagAck)

/-- What the ledger depends on, besides the state and whether a segment is pending. -/
structure Books where
  sendNext : UInt32
  pendingFlags : UInt8
  pendingSequence : UInt32
  pendingData : List UInt8
  pendingRetries : UInt32
  maxRetries : UInt32
  sent : List Transmission

/-- What the ledger depends on, besides the state and whether a segment is pending. -/
def books (o : Outbound) : Books where
  sendNext := o.sendNext
  pendingFlags := o.pendingFlags
  pendingSequence := o.pendingSequence
  pendingData := o.pendingData
  pendingRetries := o.pendingRetries
  maxRetries := o.maxRetries
  sent := o.sent

variable (o : Outbound)

@[simp] theorem books_answer : o.answer.books = o.books := by
  simp [books, answer, transmit, sent]

@[simp] theorem books_acknowledge (acknowledgment : UInt32) :
    (o.acknowledge acknowledgment).books = o.books := by
  unfold acknowledge
  split_ifs <;> rfl

theorem Delivers.books_eq {o j : Outbound} (h : o.Delivers j) : j.books = o.books := by
  cases h with
  | nothing => rfl
  | answer => exact books_answer o
  | finish => exact books_answer o

end Outbound

/-- The states in which a buffer may still be accepted. -/
def TcpClientState.accepting : TcpClientState → Bool
  | .synSent | .established | .closeWait => true
  | _ => false

theorem TcpClientState.accepting_of_afterFin {s : TcpClientState} :
    s.afterFin.accepting = true → s.accepting = true := by
  cases s <;> decide

theorem TcpClientState.accepting_of_afterFinAcked {s : TcpClientState} :
    s.afterFinAcked.accepting = true → s.accepting = true := by
  cases s <;> decide

namespace Outbound

variable {o j : Outbound} {acknowledgment : UInt32}

theorem Delivers.accepting (h : o.Delivers j) (hj : j.state.accepting = true) :
    o.state.accepting = true := by
  cases h with
  | nothing => exact hj
  | answer => exact hj
  | finish => exact TcpClientState.accepting_of_afterFin hj

theorem active_of_acknowledge (h : (o.acknowledge acknowledgment).pendingActive = true) :
    o.pendingActive = true := by
  unfold acknowledge at h
  split_ifs at h <;> exact h

theorem accepting_of_acknowledge (h : (o.acknowledge acknowledgment).state.accepting = true) :
    o.state.accepting = true := by
  unfold acknowledge at h
  split_ifs at h
  · exact h
  · exact h
  · exact TcpClientState.accepting_of_afterFinAcked h
  · exact h

end Outbound

/-- A pending segment is not a mere acknowledgment. -/
theorem Window.flags_ne {o : Outbound} (h : Window o) (hactive : o.pendingActive = true) :
    o.pendingFlags ≠ tcpFlagAck := by
  have hflags := h.flags hactive
  intro hack
  rw [hack] at hflags
  revert hflags
  cases o.state <;> decide

/-- The sending side has done what the record says. -/
structure Ledger (k : Connection) (o : Outbound) : Prop where
  sendNext_eq : o.sendNext = k.initialSequence + UInt32.ofNat (totalLength k.segments)
  maxRetries_eq : o.state ≠ .closed → o.state ≠ .failed → o.maxRetries = k.maxRetries
  closing : o.state.accepting = true → k.closing = false
  exists_sent : ∃ sent : List (Segment × ℕ), sent.map Prod.fst = k.segments ∧
    (∀ p ∈ sent, 1 ≤ p.2 ∧ p.2 ≤ 1 + k.maxRetries.toNat) ∧
    o.sent = transmissions k.initialSequence 0 sent ∧
    (o.pendingActive = true → ∃ front,
      sent = front ++ [(⟨o.pendingFlags, o.pendingData⟩, o.pendingRetries.toNat + 1)] ∧
        o.pendingSequence =
          k.initialSequence + UInt32.ofNat (totalLength (front.map Prod.fst)))

namespace Ledger

variable {k : Connection} {o j : Outbound}

/-- The ledger is kept when the books are, and no pending segment appears. -/
theorem of_books (h : Ledger k o) (hbooks : j.books = o.books)
    (hactive : j.pendingActive = true → o.pendingActive = true)
    (hstate : j.state ≠ .closed → j.state ≠ .failed → o.state ≠ .closed ∧ o.state ≠ .failed)
    (haccepting : j.state.accepting = true → o.state.accepting = true) : Ledger k j := by
  have hnext : j.sendNext = o.sendNext := congrArg Outbound.Books.sendNext hbooks
  have hflags : j.pendingFlags = o.pendingFlags := congrArg Outbound.Books.pendingFlags hbooks
  have hsequence : j.pendingSequence = o.pendingSequence :=
    congrArg Outbound.Books.pendingSequence hbooks
  have hdata : j.pendingData = o.pendingData := congrArg Outbound.Books.pendingData hbooks
  have hretries : j.pendingRetries = o.pendingRetries :=
    congrArg Outbound.Books.pendingRetries hbooks
  have hmax : j.maxRetries = o.maxRetries := congrArg Outbound.Books.maxRetries hbooks
  have hsent : j.sent = o.sent := congrArg Outbound.Books.sent hbooks
  obtain ⟨sent, hsegments, hcounts, hwire, hpending⟩ := h.exists_sent
  refine ⟨hnext.trans h.sendNext_eq, fun hclosed hfailed => ?_, fun hs => h.closing (haccepting hs),
    sent, hsegments, hcounts, hsent.trans hwire, fun hj => ?_⟩
  · obtain ⟨hclosed', hfailed'⟩ := hstate hclosed hfailed
    exact hmax.trans (h.maxRetries_eq hclosed' hfailed')
  · rw [hflags, hdata, hretries, hsequence]
    exact hpending (hactive hj)

theorem fail (h : Ledger k o) : Ledger k o.fail :=
  h.of_books rfl nofun (fun _ hfailed => absurd rfl hfailed) nofun

theorem of_eq_or_fail (h : Ledger k j) (ho : o = j ∨ o = j.fail) : Ledger k o := by
  rcases ho with rfl | rfl
  · exact h
  · exact h.fail

theorem rests (h : Ledger k o) (hrests : o.Rests j) : Ledger k j := by
  cases hrests with
  | stay => exact h
  | reject | refuse | begin | beginComplete | complete =>
    exact h.of_books rfl id (fun h1 h2 => ⟨h1, h2⟩) id
  | setRetries maxRetries hclosed =>
    exact ⟨h.sendNext_eq, fun hopen => absurd hclosed hopen, h.closing, h.exists_sent⟩

/-- The pending segment is repeated at most as often as the client allows. -/
theorem resent (h : Ledger k o) (hwindow : Window o) (hactive : o.pendingActive = true)
    (hretries : o.pendingRetries < o.maxRetries) : Ledger k o.resent := by
  have hopen : o.state ≠ .closed ∧ o.state ≠ .failed := by
    have hflags := hwindow.flags hactive
    constructor <;> intro hstate <;> rw [hstate] at hflags <;> cases hflags
  have hmax := h.maxRetries_eq hopen.1 hopen.2
  rw [hmax, lt_iff_toNat_lt] at hretries
  have hsucc : (o.pendingRetries + 1).toNat = o.pendingRetries.toNat + 1 := by
    have := k.maxRetries.toNat_lt
    rw [UInt32.toNat_add, show (1 : UInt32).toNat = 1 from rfl]
    omega
  obtain ⟨sent, hsegments, hcounts, hwire, hpending⟩ := h.exists_sent
  obtain ⟨front, rfl, hsequence⟩ := hpending hactive
  refine ⟨h.sendNext_eq, h.maxRetries_eq, h.closing,
    front ++ [(⟨o.pendingFlags, o.pendingData⟩, o.pendingRetries.toNat + 2)], ?_, ?_, ?_, ?_⟩
  · rw [← hsegments]
    simp
  · intro p hp
    rcases mem_append.1 hp with hp | hp
    · exact hcounts p (mem_append_left _ hp)
    · rw [mem_singleton.1 hp]
      exact ⟨by omega, by omega⟩
  · have hsent : o.resent.sent =
        o.sent ++ [⟨o.pendingSequence, o.pendingFlags, o.pendingData⟩] := by
      simp [Outbound.sent, Outbound.resent, hwindow.flags_ne hactive]
    have hagain := transmissions_again k.initialSequence front ⟨o.pendingFlags, o.pendingData⟩
      (o.pendingRetries.toNat + 1)
    rw [← hsequence] at hagain
    rw [hsent, hwire]
    exact hagain.symm
  · intro _
    refine ⟨front, ?_, hsequence⟩
    show front ++ _ = front ++ [(_, (o.pendingRetries + 1).toNat + 1)]
    rw [hsucc]
    rfl

/-- A segment is begun behind the others. -/
theorem opened {k' : Connection} {s : Segment} (h : Ledger k o)
    (hsegments : k'.segments = k.segments ++ [s])
    (hinitial : k'.initialSequence = k.initialSequence) (hmax : k'.maxRetries = k.maxRetries)
    (hflags : s.flags ≠ tcpFlagAck) (hclosed : o.state ≠ .closed) (hfailed : o.state ≠ .failed)
    {i : Outbound} (hbooks : i.books = o.books)
    (hclosing : i.state.accepting = true → k'.closing = false) :
    Ledger k' (i.opened s.flags s.data) := by
  have hnext : i.sendNext = o.sendNext := congrArg Outbound.Books.sendNext hbooks
  have hlimit : i.maxRetries = o.maxRetries := congrArg Outbound.Books.maxRetries hbooks
  have hsame : i.sent = o.sent := congrArg Outbound.Books.sent hbooks
  obtain ⟨sent, hfst, hcounts, hwire, -⟩ := h.exists_sent
  have hstart : i.sendNext =
      k'.initialSequence + ofNat (totalLength (sent.map fst)) := by
    rw [hnext, hinitial, hfst]
    exact h.sendNext_eq
  have hone : transmissions k'.initialSequence 0 (sent ++ [(s, 1)]) =
      transmissions k'.initialSequence 0 sent ++ [s.sentAt i.sendNext] := by
    rw [transmissions_append, hstart]
    simp [transmissions]
  refine ⟨?_, fun _ _ => ?_, hclosing, sent ++ [(s, 1)], ?_, ?_, ?_, fun _ => ?_⟩
  · show i.sendNext + ofNat s.length = _
    rw [hstart, hsegments, hfst, totalLength_append, UInt32.add_assoc, ← UInt32.ofNat_add,
      totalLength_cons, totalLength_nil, add_zero]
  · rw [hmax]
    exact hlimit.trans (h.maxRetries_eq hclosed hfailed)
  · rw [hsegments, ← hfst]
    simp
  · intro p hp
    rw [hmax]
    rcases mem_append.1 hp with hp | hp
    · exact hcounts p hp
    · rw [mem_singleton.1 hp]
      exact ⟨le_rfl, le_add_right _ _⟩
  · have hsent : (i.opened s.flags s.data).sent = i.sent ++ [s.sentAt i.sendNext] := by
      simp [Outbound.sent, Outbound.opened, Segment.sentAt, hflags]
    rw [hone, hsent, hsame, hwire, hinitial]
  · exact ⟨sent, rfl, hstart⟩

/-- A connection begins with its SYN. -/
theorem connect (initialSequence : UInt32) {i : Outbound} (hnext : i.sendNext = initialSequence)
    (hwire : i.wire = []) :
    Ledger ⟨initialSequence, i.maxRetries, [], false⟩ (i.opened tcpFlagSyn []) := by
  refine ⟨?_, fun _ _ => rfl, fun _ => rfl, [(Connection.syn, 1)], rfl, ?_, ?_, fun _ => ?_⟩
  · show i.sendNext + _ = _
    rw [hnext]
    rfl
  · intro p hp
    rw [mem_singleton.1 hp]
    exact ⟨le_rfl, le_add_right _ _⟩
  · have hsent : (i.opened tcpFlagSyn []).sent = [Connection.syn.sentAt i.sendNext] := by
      rw [Outbound.sent]
      show (⟨i.sendNext, tcpFlagSyn, []⟩ :: i.wire).reverse.filter _ = _
      rw [hwire]
      rfl
    rw [hsent, hnext]
    simp [transmissions]
  · exact ⟨[], rfl, by show i.sendNext = _; rw [hnext]; simp⟩

end Ledger

/-! ### Calls -/

/-- The sending side fits the record of its connection, if there is one. -/
def Tracked (k : Option Connection) (o : Outbound) : Prop :=
  match k with
  | none => o.wire = [] ∧ (o.state = .closed ∨ o.state = .failed)
  | some k => Ledger k o

namespace Tracked

variable {k : Option Connection} {o : Outbound}

variable {j : Outbound}

theorem rests (h : Tracked k o) (hrests : o.Rests j) : Tracked k j := by
  cases k with
  | none =>
    have hwire : j.wire = o.wire := by cases hrests <;> rfl
    exact ⟨hwire.trans h.1, by rw [hrests.state_eq]; exact h.2⟩
  | some k => exact Ledger.rests h hrests

theorem fail (h : Tracked k o) : Tracked k o.fail := by
  cases k with
  | none => exact ⟨h.1, .inr rfl⟩
  | some k => exact Ledger.fail h

/-- A client that sends on has a connection. -/
theorem exists_ledger (h : Tracked k o) (hclosed : o.state ≠ .closed)
    (hfailed : o.state ≠ .failed) :
    ∃ k', k = some k' ∧ Ledger k' o := by
  cases k with
  | none => exact (h.2.elim hclosed hfailed).elim
  | some k => exact ⟨k, rfl, h⟩

variable {c : TcpClient}

theorem serves (h : Tracked k c.outbound) (hwindow : Window c.outbound)
    (hserves : c.Serves o) : Tracked k o := by
  cases hserves with
  | rests hrests => exact h.rests hrests
  | fails => exact h.fail
  | resends hfailed hactive hretries ho =>
    have hclosed : c.outbound.state ≠ .closed := by
      intro hstate
      have hflags := hwindow.flags hactive
      rw [hstate] at hflags
      cases hflags
    obtain ⟨k', rfl, hledger⟩ := h.exists_ledger hclosed hfailed
    exact (hledger.resent hwindow hactive hretries).of_eq_or_fail ho

theorem receives {srcIp dstIp : UInt32} {segment : Option (List UInt8)}
    (h : Tracked k c.outbound) (hreceives : c.Receives srcIp dstIp segment o) : Tracked k o := by
  cases hreceives with
  | rests => exact h
  | fails => exact h.fail
  | answers hstate _ ho =>
    obtain ⟨k', rfl, hledger⟩ := h.exists_ledger hstate.1 hstate.2.1
    exact (hledger.of_books (Outbound.books_answer _) id
      (fun h1 h2 => ⟨h1, h2⟩) id).of_eq_or_fail ho
  | establishes hstate _ _ _ ho =>
    have hstate' : c.outbound.state = .synSent := hstate
    have hopen : c.outbound.state ≠ .closed ∧ c.outbound.state ≠ .failed := by
      rw [hstate']
      exact ⟨nofun, nofun⟩
    obtain ⟨k', rfl, hledger⟩ := h.exists_ledger hopen.1 hopen.2
    have hestablished : Ledger k' c.outbound.established.answer := by
      refine hledger.of_books (Outbound.books_answer c.outbound.established)
        (fun hactive => absurd hactive Bool.false_ne_true) (fun _ _ => hopen) fun _ => ?_
      rw [hstate']
      rfl
    exact hestablished.of_eq_or_fail ho
  | acknowledges hacknowledges hj ho =>
    have hopen := hacknowledges.connected
    obtain ⟨k', rfl, hledger⟩ := h.exists_ledger hopen.1 hopen.2.1
    have hdelivered := hledger.of_books (hj.books_eq.trans (Outbound.books_acknowledge _ _))
      (fun hactive => Outbound.active_of_acknowledge (hj.same.2.2.1.symm.trans hactive))
      (fun _ _ => ⟨hopen.1, hopen.2.1⟩)
      (fun haccepting => Outbound.accepting_of_acknowledge (hj.accepting haccepting))
    exact hdelivered.of_eq_or_fail ho

variable {call : TcpCall}

/-- A call that begins a segment is recorded. -/
theorem opens (h : Tracked k c.outbound)
    (hj : c.opens call = some j) : Tracked (c.track k call) j := by
  cases call with
  | beginConnect remoteIp remotePort initialSequence =>
    rw [opens] at hj
    split at hj
    · rename_i haccepts
      cases hj
      rw [track, if_pos haccepts]
      exact Ledger.connect (i := { c.outbound.begun .connect with
        state := .synSent
        sendUnacknowledged := initialSequence
        sendNext := initialSequence
        wire := [] }) initialSequence rfl rfl
    · cases hj
  | beginSend dataIsNull data =>
    rw [opens] at hj
    split at hj
    · rename_i haccepts
      cases hj
      have hstate : c.outbound.state = .established := haccepts.1.2.2
      obtain ⟨k', rfl, hledger⟩ := h.exists_ledger (by rw [hstate]; decide) (by rw [hstate]; decide)
      have hclosing : k'.closing = false := hledger.closing (by rw [hstate]; rfl)
      rw [track, if_pos haccepts.1]
      -- the data are the last segment of the record, as the FIN is not in it yet
      have hsegments : ({ k' with buffers := k'.buffers ++ [data] } : Connection).segments =
          k'.segments ++ [Connection.push data] := by
        simp [Connection.segments, hclosing, haccepts.2]
      exact hledger.opened hsegments rfl rfl
        (show tcpFlagAck ||| tcpFlagPsh ≠ tcpFlagAck by decide) (by rw [hstate]; decide)
        (by rw [hstate]; decide) rfl fun _ => hclosing
    · cases hj
  | beginClose =>
    rw [opens] at hj
    split at hj
    · rename_i haccepts
      cases hj
      have hstate : c.outbound.state = .established ∨ c.outbound.state = .closeWait :=
        haccepts.2.2.2
      have hopen : c.outbound.state ≠ .closed ∧ c.outbound.state ≠ .failed := by
        rcases hstate with hstate | hstate <;> rw [hstate] <;> decide
      obtain ⟨k', rfl, hledger⟩ := h.exists_ledger hopen.1 hopen.2
      have hclosing : k'.closing = false := by
        refine hledger.closing ?_
        rcases hstate with hstate | hstate <;> rw [hstate] <;> rfl
      rw [track, if_pos haccepts]
      have hsegments : ({ k' with closing := true } : Connection).segments =
          k'.segments ++ [Connection.fin] := by
        simp [Connection.segments, hclosing]
      refine hledger.opened hsegments rfl rfl (by decide) hopen.1 hopen.2 rfl fun haccepting => ?_
      exfalso
      by_cases hestablished : c.state = .established
      · rw [if_pos hestablished] at haccepting
        cases haccepting
      · rw [if_neg hestablished] at haccepting
        cases haccepting
    · cases hj
  | setTimeouts => cases hj
  | beginWaitForPeerClose => cases hj
  | service => cases hj
  | receive => cases hj

/-- A call that begins no segment changes no segment of the record. -/
theorem track (h : Tracked k o) (hopens : c.opens call = none) : Tracked (c.track k call) o := by
  cases call with
  | beginConnect remoteIp remotePort initialSequence =>
    rw [TcpClient.opens] at hopens
    split at hopens
    · cases hopens
    · rename_i hrejects
      rw [track, if_neg hrejects]
      exact h
  | beginSend dataIsNull data =>
    rw [TcpClient.opens] at hopens
    split at hopens
    · cases hopens
    · rename_i hrejects
      rw [track]
      split
      · rename_i haccepts
        have hempty : data = [] := by
          by_contra hdata
          exact hrejects ⟨haccepts, hdata⟩
        cases k with
        | none => exact h
        | some k =>
          have hsegments : ({ k with buffers := k.buffers ++ [data] } : Connection).segments =
              k.segments := by
            simp [Connection.segments, hempty]
          have hledger : Ledger k o := h
          exact ⟨by rw [hsegments]; exact hledger.sendNext_eq, hledger.maxRetries_eq,
            hledger.closing, by rw [hsegments]; exact hledger.exists_sent⟩
      · exact h
  | beginClose =>
    rw [TcpClient.opens] at hopens
    split at hopens
    · cases hopens
    · rename_i hrejects
      rw [track, if_neg hrejects]
      exact h
  | setTimeouts => exact h
  | beginWaitForPeerClose => exact h
  | service => exact h
  | receive => exact h

theorem of_eq_or_fail (h : Tracked k j) (ho : o = j ∨ o = j.fail) : Tracked k o := by
  rcases ho with rfl | rfl
  · exact h
  · exact h.fail

/-- Every call keeps the ledger. -/
theorem sending (h : Tracked k c.outbound) (hwindow : Window c.outbound)
    (hsending : Sending c call o) : Tracked (c.track k call) o := by
  cases hsending with
  | opens hj ho => exact (h.opens hj).of_eq_or_fail ho
  | rests hopens _ hrests => exact (h.rests hrests).track hopens
  | serves hserves => exact h.serves hwindow hserves
  | receives hreceives => exact h.receives hreceives

end Tracked

variable {c : TcpClient}

/-- Every run keeps the ledger. -/
theorem tracked_after {k : Option Connection} (hwindow : Window c.outbound)
    (h : Tracked k c.outbound) (steps : List (TcpEnv × TcpCall)) :
    Tracked (c.connectionAfter k steps) (c.after steps).outbound := by
  induction steps generalizing c k with
  | nil => exact h
  | cons step steps ih =>
    have hsending := TcpCall.sending_run step.1 hwindow.orderly step.2
    exact ih (hwindow.sending hsending) (h.sending hwindow hsending)

/-! ### Mere acknowledgments -/

/-- What looks like a mere acknowledgment carries no data. -/
def PlainAcks (o : Outbound) : Prop := ∀ t ∈ o.wire, t.flags = tcpFlagAck → t.data = []

namespace PlainAcks

variable {o j : Outbound}

theorem transmit (h : PlainAcks o) {t : Transmission} (ht : t.flags = tcpFlagAck → t.data = []) :
    PlainAcks (o.transmit t) := by
  intro u hu
  rcases mem_cons.1 hu with rfl | hu
  · exact ht
  · exact h u hu

theorem of_wire (h : PlainAcks o) (hwire : j.wire = o.wire) : PlainAcks j := by
  intro t ht
  rw [hwire] at ht
  exact h t ht

theorem of_eq_or_fail (h : PlainAcks j) (ho : o = j ∨ o = j.fail) : PlainAcks o := by
  rcases ho with rfl | rfl
  · exact h
  · exact h.of_wire rfl

theorem opens {c : TcpClient} {call : TcpCall} (h : PlainAcks c.outbound)
    (hj : c.opens call = some j) : PlainAcks j := by
  cases call with
  | beginConnect =>
    rw [TcpClient.opens] at hj
    split at hj
    · cases hj
      intro t ht hack
      rw [mem_singleton.1 ht]
    · cases hj
  | beginSend dataIsNull data =>
    rw [TcpClient.opens] at hj
    split at hj
    · cases hj
      refine h.transmit (t := ⟨c.sendNext, tcpFlagAck ||| tcpFlagPsh, data⟩) fun hack => ?_
      exact absurd hack (show tcpFlagAck ||| tcpFlagPsh ≠ tcpFlagAck by decide)
    · cases hj
  | beginClose =>
    rw [TcpClient.opens] at hj
    split at hj
    · cases hj
      exact h.transmit (t := ⟨c.sendNext, tcpFlagFin ||| tcpFlagAck, []⟩) fun _ => rfl
    · cases hj
  | setTimeouts => cases hj
  | beginWaitForPeerClose => cases hj
  | service => cases hj
  | receive => cases hj

theorem rests (h : PlainAcks o) (hrests : o.Rests j) : PlainAcks j := by
  refine h.of_wire ?_
  cases hrests <;> rfl

theorem sending {c : TcpClient} (h : PlainAcks c.outbound) (hwindow : Window c.outbound)
    {call : TcpCall} (hsending : Sending c call o) : PlainAcks o := by
  have hanswer : ∀ i : Outbound, PlainAcks i → PlainAcks i.answer :=
    fun i hi => hi.transmit fun _ => rfl
  cases hsending with
  | opens hj ho => exact (h.opens hj).of_eq_or_fail ho
  | rests _ _ hrests => exact h.rests hrests
  | serves hserves =>
    cases hserves with
    | rests hrests => exact h.rests hrests
    | fails => exact h.of_wire rfl
    | resends _ hactive _ ho =>
      have hresent : PlainAcks c.outbound.resent := by
        intro t ht hack
        rcases mem_cons.1 ht with rfl | ht
        · exact absurd hack (hwindow.flags_ne hactive)
        · exact h t ht hack
      exact hresent.of_eq_or_fail ho
  | receives hreceives =>
    cases hreceives with
    | rests => exact h
    | fails => exact h.of_wire rfl
    | answers _ _ ho => exact (hanswer _ h).of_eq_or_fail ho
    | establishes _ _ _ _ ho =>
      exact (hanswer c.outbound.established (h.of_wire rfl)).of_eq_or_fail ho
    | acknowledges _ hj ho =>
      have hacked : ∀ acknowledgment, PlainAcks (c.outbound.acknowledge acknowledgment) := by
        intro acknowledgment
        refine h.of_wire ?_
        unfold Outbound.acknowledge
        split_ifs <;> rfl
      refine of_eq_or_fail ?_ ho
      cases hj with
      | nothing => exact hacked _
      | answer => exact hanswer _ (hacked _)
      | finish => exact (hanswer _ (hacked _)).of_wire rfl

end PlainAcks

theorem plainAcks_after (hwindow : Window c.outbound) (h : PlainAcks c.outbound)
    (steps : List (TcpEnv × TcpCall)) : PlainAcks (c.after steps).outbound := by
  induction steps generalizing c with
  | nil => exact h
  | cons step steps ih =>
    have hsending := TcpCall.sending_run step.1 hwindow.orderly step.2
    exact ih (hwindow.sending hsending) (h.sending hwindow hsending)

/-! ### The byte stream -/

namespace Connection

variable {k : Connection}

/-- The data of the segments is the byte stream. -/
theorem flatMap_data_segments (k : Connection) : k.segments.flatMap Segment.data = k.stream := by
  have hfin : (if k.closing then [fin] else []).flatMap Segment.data = [] := by
    split_ifs <;> rfl
  have hbuffers : ∀ buffers : List (List UInt8),
      ((buffers.filter (· ≠ [])).map push).flatMap Segment.data = buffers.flatten := by
    intro buffers
    induction buffers with
    | nil => rfl
    | cons data buffers ih =>
      by_cases hdata : data = []
      · simpa [hdata] using ih
      · simpa [hdata, push] using ih
  rw [segments, flatMap_cons, flatMap_append, hfin, hbuffers, append_nil]
  rfl

section

variable {front back : List Segment} {s : Segment} (h : k.segments = front ++ s :: back)
include h

/-- Before a segment with data there are the SYN and other data, so that its first sequence number
is one more than the place of its data in the stream. -/
theorem totalLength_of_segments (hdata : s.data ≠ []) :
    totalLength front = 1 + (front.flatMap Segment.data).length := by
  have hpush : ∀ segments : List Segment, (∀ r ∈ segments, r.flags = tcpFlagAck ||| tcpFlagPsh) →
      totalLength segments = (segments.flatMap Segment.data).length := by
    intro segments hflags
    induction segments with
    | nil => rfl
    | cons r segments ih =>
      have hr : r.length = r.data.length := by
        rw [Segment.length, hflags r mem_cons_self, sequenceLength, if_neg (by decide),
          if_neg (by decide), Nat.add_zero]
      rw [totalLength_cons, hr, ih fun q hq => hflags q (mem_cons_of_mem _ hq),
        flatMap_cons, length_append]
  cases front with
  | nil =>
    obtain ⟨rfl, -⟩ := cons.inj h
    exact absurd rfl hdata
  | cons r front =>
    obtain ⟨rfl, hrest⟩ := cons.inj h
    rw [totalLength_cons, flatMap_cons, length_append,
      show syn.length = 1 from rfl, show syn.data.length = 0 from rfl, Nat.zero_add]
    congr 1
    refine hpush front fun q hq => ?_
    -- the FIN has no data, so it is not before the segment
    have hmem : q ∈ (k.buffers.filter (· ≠ [])).map push := by
      rcases append_eq_append_iff.1 hrest with ⟨middle, hfront, hfin⟩ | ⟨middle, hbuffers, -⟩
      · have hs : s ∈ if k.closing then [fin] else [] := by
          rw [hfin]
          exact mem_append_right _ mem_cons_self
        split_ifs at hs
        · rw [mem_singleton.1 hs] at hdata
          exact absurd rfl hdata
        · cases hs
      · rw [hbuffers]
        exact mem_append_left _ hq
    obtain ⟨data, -, rfl⟩ := mem_map.1 hmem
    rfl

/-- The data of a segment stands in the stream behind the data of the earlier ones. -/
theorem data_isPrefix : s.data <+: k.stream.drop (front.flatMap Segment.data).length := by
  rw [← flatMap_data_segments, h, flatMap_append, flatMap_cons, drop_left]
  exact prefix_append _ _

end

/-- Every place of the stream belongs to a segment. -/
theorem exists_segment {i : ℕ} (hi : i < k.stream.length) :
    ∃ front s back, k.segments = front ++ s :: back ∧ s.data ≠ [] ∧
      (front.flatMap Segment.data).length ≤ i ∧
      i < (front.flatMap Segment.data).length + s.data.length := by
  have hgeneral : ∀ (segments : List Segment) (i : ℕ),
      i < (segments.flatMap Segment.data).length →
      ∃ front s back, segments = front ++ s :: back ∧ s.data ≠ [] ∧
        (front.flatMap Segment.data).length ≤ i ∧
        i < (front.flatMap Segment.data).length + s.data.length := by
    intro segments
    induction segments with
    | nil => intro i hi; cases hi
    | cons s segments ih =>
      intro i hi
      rw [flatMap_cons, length_append] at hi
      by_cases hs : i < s.data.length
      · refine ⟨[], s, segments, rfl, ?_, zero_le _, by simpa using hs⟩
        intro hnil
        rw [hnil] at hs
        cases hs
      · obtain ⟨front, r, back, rfl, hr, hle, hlt⟩ := ih (i - s.data.length) (by omega)
        refine ⟨s :: front, r, back, rfl, hr, ?_, ?_⟩ <;>
          rw [flatMap_cons, length_append] <;> omega
  rw [← flatMap_data_segments] at hi
  exact hgeneral _ i hi

/-- Segments whose numbers lie within one turn of the cycle share no number. -/
theorem numbers_ne (initial : UInt32) {first last a b length : ℕ} (ha : a < length)
    (hfirst : first + length ≤ last) (hspan : last + b < first + 2 ^ 32) :
    initial + ofNat (first + a) ≠ initial + ofNat (last + b) := by
  intro heq
  have hsplit : ofNat (last + b) =
      ofNat (first + a) + ofNat (last + b - (first + a)) := by
    rw [← ofNat_add]
    congr 1
    omega
  rw [hsplit, ← UInt32.add_assoc] at heq
  have hzero : initial + ofNat (first + a) + ofNat 0 =
      initial + ofNat (first + a) + ofNat (last + b - (first + a)) := by
    rw [← heq]
    simp
  have := offset_inj (by decide) (by omega) hzero
  omega

end Connection

/-! ### The result -/

/-- What a connection with the given record has sent. -/
structure Discipline (k : Connection) (c : TcpClient) : Prop where
  /-- The segments are sent one behind the other, each at least once and at most `1 + max_retries`
  times, always with the same sequence number, flags and data. -/
  sent : ∃ sent : List (Segment × ℕ), sent.map Prod.fst = k.segments ∧
    (∀ p ∈ sent, 1 ≤ p.2 ∧ p.2 ≤ 1 + k.maxRetries.toNat) ∧
    c.segmentsSent = transmissions k.initialSequence 0 sent
  maxRetries_eq : c.state ≠ .closed → c.state ≠ .failed → c.maxRetries = k.maxRetries
  /-- The numbers of a segment begin where those of the one before it end; within `2 ^ 32` numbers
  they are all different. -/
  disjoint : ∀ front s middle t back, k.segments = front ++ s :: (middle ++ t :: back) →
    totalLength (s :: (middle ++ [t])) ≤ 2 ^ 32 → ∀ a < s.length, ∀ b < t.length,
      k.initialSequence + UInt32.ofNat (totalLength front + a) ≠
        k.initialSequence + UInt32.ofNat (totalLength (front ++ s :: middle) + b)
  /-- All data that was sent is data of the stream, at its place. -/
  stream : ∀ t ∈ c.transmitted, t.data ≠ [] → ∃ place,
    t.sequence = k.initialSequence + UInt32.ofNat (1 + place) ∧ t.data <+: k.stream.drop place
  /-- All of the stream was sent. -/
  covers : ∀ i < k.stream.length, ∃ t ∈ c.transmitted, ∃ place,
    t.sequence = k.initialSequence + UInt32.ofNat (1 + place) ∧ t.data <+: k.stream.drop place ∧
      place ≤ i ∧ i < place + t.data.length

theorem discipline_of_ledger {k : Connection} (h : Ledger k c.outbound)
    (hacks : PlainAcks c.outbound) : Discipline k c := by
  obtain ⟨sent, hsegments, hcounts, hwire, -⟩ := h.exists_sent
  have hwire' : c.segmentsSent = transmissions k.initialSequence 0 sent := hwire
  refine ⟨⟨sent, hsegments, hcounts, hwire'⟩, h.maxRetries_eq, ?_, ?_, ?_⟩
  · intro front s middle t back hsplit hspan a ha b hb
    simp only [totalLength_append, totalLength_cons, totalLength_nil] at hspan ⊢
    exact Connection.numbers_ne _ ha (by omega) (by omega)
  · intro t ht hdata
    have hsent : t ∈ c.segmentsSent := by
      refine mem_filter.2 ⟨ht, ?_⟩
      simpa using fun hack => hdata (hacks t (mem_reverse.1 ht) hack)
    rw [hwire', mem_transmissions] at hsent
    obtain ⟨front, s, n, back, rfl, -, rfl⟩ := hsent
    have hsplit : k.segments = front.map fst ++ s :: back.map fst := by
      rw [← hsegments]
      simp
    refine ⟨((front.map fst).flatMap Segment.data).length, ?_, Connection.data_isPrefix hsplit⟩
    rw [← Connection.totalLength_of_segments hsplit hdata, zero_add]
    rfl
  · intro i hi
    obtain ⟨front, s, back, hsplit, hdata, hle, hlt⟩ := Connection.exists_segment hi
    -- the segment was sent, so it is among the transmissions
    rw [← hsegments] at hsplit
    obtain ⟨front', rest, rfl, rfl, hrest⟩ := map_eq_append_iff.1 hsplit
    obtain ⟨p, back', rfl, rfl, rfl⟩ := map_eq_cons_iff.1 hrest
    have hcount := hcounts p (by simp)
    have hmem : p.1.sentAt (k.initialSequence +
        ofNat (0 + totalLength (front'.map fst))) ∈ c.segmentsSent := by
      rw [hwire', mem_transmissions]
      exact ⟨front', p.1, p.2, back', rfl, hcount.1, rfl⟩
    have hsplit' : k.segments = front'.map fst ++ p.1 :: back'.map fst := by
      rw [← hsegments]
      simp
    refine ⟨_, (mem_filter.1 hmem).1, ((front'.map fst).flatMap Segment.data).length, ?_,
      Connection.data_isPrefix hsplit', hle, hlt⟩
    rw [← Connection.totalLength_of_segments hsplit' hdata, zero_add]
    rfl

/-- **The retransmission discipline.**  After any run the client has sent what the record of its
connection says, and once it has failed it sends nothing and keeps its receive buffer. -/
theorem retransmission_discipline (io : Option TcpClientIo) (localIp : UInt32) (localPort : UInt16)
    (receiveBuffer : Option (ℕ → UInt8)) (receiveCapacity : ℕ) (steps : List (TcpEnv × TcpCall)) :
    let start := TcpClient.tcpClientInit io localIp localPort receiveBuffer receiveCapacity
    (start.connectionAfter none steps = none → (start.after steps).transmitted = []) ∧
      (∀ k, start.connectionAfter none steps = some k → Discipline k (start.after steps)) ∧
      ((start.after steps).state = .failed → ∀ more,
        ((start.after steps).after more).transmitted = (start.after steps).transmitted ∧
          ((start.after steps).after more).receive = (start.after steps).receive) := by
  intro start
  have hstart : Window start.outbound := window_tcpClientInit ..
  have htracked := tracked_after hstart (k := none) ⟨rfl, .inl rfl⟩ steps
  have hacks := plainAcks_after hstart (fun t ht => by cases ht) steps
  refine ⟨fun hnone => ?_, fun k hk => ?_, fun hfailed more => ?_⟩
  · rw [hnone] at htracked
    rw [transmitted, htracked.1, reverse_nil]
  · rw [hk] at htracked
    exact discipline_of_ledger htracked hacks
  · have hstays := after_of_failed hfailed more
    exact ⟨congrArg (fun history => (history.filterMap TcpRecord.transmission).reverse)
      hstays.history, hstays.receive⟩

/-- The client of the sample connection before its first call. -/
def sampleStart : TcpClient :=
  TcpClient.tcpClientInit (some ⟨true, true, true⟩) 1 1 (some fun _ => 0) 5

/-- A buffer is sent, and sent once more when no acknowledgment has come. -/
def sampleSending : List (TcpEnv × TcpCall) :=
  [(⟨0, true⟩, .beginConnect 2 2 0), (⟨0, true⟩, .receive 2 1 (some sampleSynAck)),
    (⟨0, true⟩, .service), (⟨0, true⟩, .beginSend false [1, 2, 3]), (⟨1000, true⟩, .service)]

theorem retransmission_discipline_sampleSending :
    ∃ k, sampleStart.connectionAfter none sampleSending = some k ∧ k.buffers = [[1, 2, 3]] ∧
      (sampleStart.after sampleSending).segmentsSent =
        [⟨0, tcpFlagSyn, []⟩, ⟨1, 24, [1, 2, 3]⟩, ⟨1, 24, [1, 2, 3]⟩] ∧
      Discipline k (sampleStart.after sampleSending) := by
  have hbuffers : (sampleStart.connectionAfter none sampleSending).map (·.buffers) =
      some [[1, 2, 3]] := by decide +kernel
  obtain ⟨k, hk, hbuffers⟩ := Option.map_eq_some_iff.1 hbuffers
  exact ⟨k, hk, hbuffers, by decide +kernel, (retransmission_discipline _ _ _ _ _ _).2.1 k hk⟩

end Nostalux.Tcp
