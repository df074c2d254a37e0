import Mathlib.Algebra.Order.BigOperators.Group.Finset
import Mathlib.Data.Nat.Count
import Nostalux.Tcp.Client

/-!
# `kernel/tcp_client.c`: the blocking operations

A blocking operation begins an operation and then polls and serves the client until the operation
has a result.  What `poll` delivers, what the clock shows and what `send_ipv4` answers is arbitrary
in every turn of the loop (`Turn`).

* `service_pending`: a service without a result has seen the clock move on or has counted a stall;
* `Waited`: what follows for the clock values of a loop that is still running;
* `blocking_operations_terminate`: every loop ends, with the bounds on the services for one clock
  value and on the clock values;
* `exists_tcpClientSend`, `exists_connect_wait_close`: so do the blocking functions.
-/

namespace Nostalux.Tcp

open Finset UInt32

/-- One turn of the loop of `drive_blocking_operation`: the segments that arrive while `poll` runs,
each with what the client learns meanwhile, and what the service then learns. -/
structure Turn where
  segments : List (TcpEnv × UInt32 × UInt32 × Option (List UInt8))
  env : TcpEnv

/-- The clock value of a turn. -/
def Turn.now (turn : Turn) : UInt64 := turn.env.now

namespace TcpClient

/-- `poll`: segments are delivered. -/
def poll (c : TcpClient) (segments : List (TcpEnv × UInt32 × UInt32 × Option (List UInt8))) :
    TcpClient :=
  segments.foldl (fun c s => (tcpClientReceive s.1 c s.2.1 s.2.2.1 s.2.2.2).2) c

/-- The loop of `drive_blocking_operation` after some turns, from a result and a client; without a
pending result no turn is taken. -/
def driveTurns (turns : ℕ → Turn) (start : TcpClientStepResult × TcpClient) :
    ℕ → TcpClientStepResult × TcpClient
  | 0 => start
  | n + 1 =>
    if (driveTurns turns start n).1 = .pending then
      tcpClientService (turns n).env ((driveTurns turns start n).2.poll (turns n).segments)
    else driveTurns turns start n

/-- The service of the turn with this number is performed. -/
def Performs (turns : ℕ → Turn) (start : TcpClientStepResult × TcpClient) (n : ℕ) : Prop :=
  (driveTurns turns start n).1 = .pending

instance (turns : ℕ → Turn) (start : TcpClientStepResult × TcpClient) :
    DecidablePred (Performs turns start) :=
  fun n => inferInstanceAs (Decidable ((driveTurns turns start n).1 = .pending))

/-- `drive_blocking_operation`, if that many turns are enough. -/
def driveBlockingOperation (turns : ℕ → Turn) (fuel : ℕ)
    (start : TcpClientStepResult × TcpClient) : Option (Bool × TcpClient) :=
  match driveTurns turns start fuel with
  | (.pending, _) => none
  | (.complete, c) => some (true, c)
  | (.failed, c) => some (false, c)

end TcpClient

/-- The begin functions of the blocking operations. -/
inductive BlockingOperation
  | connect (remoteIp : UInt32) (remotePort : UInt16) (initialSequence : UInt32)
  | send (dataIsNull : Bool) (data : List UInt8)
  | waitForPeerClose
  | close

/-- What the begin function of an operation does. -/
def BlockingOperation.begin (env : TcpEnv) (c : TcpClient) :
    BlockingOperation → TcpClientStepResult × TcpClient
  | .connect remoteIp remotePort initialSequence =>
    TcpClient.tcpClientBeginConnect env c remoteIp remotePort initialSequence
  | .send dataIsNull data => TcpClient.tcpClientBeginSend env c dataIsNull data
  | .waitForPeerClose => TcpClient.tcpClientBeginWaitForPeerClose env c
  | .close => TcpClient.tcpClientBeginClose env c

namespace TcpClient

/-! ### The timer of an operation -/

/-- The fields that bound the time of an operation. -/
structure Timer where
  startedAtMs : UInt64
  timeoutMs : UInt32
  previousNowMs : UInt64
  stalledServices : UInt32

/-- The timer of a client. -/
def timer (c : TcpClient) : Timer where
  startedAtMs := c.operationStartedAtMs
  timeoutMs := c.operationTimeoutMs
  previousNowMs := c.operationPreviousNowMs
  stalledServices := c.operationStalledServices

variable (env : TcpEnv)

variable (c : TcpClient)

@[simp] theorem timer_sendSegment (sequence : UInt32) (flags : UInt8)
    (data : List UInt8) : (sendSegment env c sequence flags data).2.timer = c.timer := by
  unfold sendSegment
  split_ifs <;> rfl

@[simp] theorem timer_sendAck : (sendAck env c).2.timer = c.timer := timer_sendSegment ..

@[simp] theorem timer_startPendingSegment (flags : UInt8)
    (data : List UInt8) : (startPendingSegment env c flags data).2.timer = c.timer := by
  unfold startPendingSegment
  split
  · rfl
  · exact timer_sendSegment ..

@[simp] theorem timer_retransmitPending : (retransmitPending env c).2.timer = c.timer := by
  unfold retransmitPending
  split_ifs
  · rfl
  · rfl
  · exact timer_sendSegment ..

@[simp] theorem timer_completeIfReached : c.completeIfReached.timer = c.timer := by
  unfold completeIfReached
  split_ifs <;> rfl

@[simp] theorem timer_finishBegin (started : Bool × TcpClient) :
    (finishBegin started).2.timer = started.2.timer := by
  unfold finishBegin
  split_ifs
  · exact timer_completeIfReached _
  · rfl

@[simp] theorem timer_acknowledgePending (acknowledgment : UInt32) :
    (c.acknowledgePending acknowledgment).2.timer = c.timer := by
  unfold acknowledgePending
  split
  · rfl
  split
  · rfl
  split
  · rfl
  dsimp only
  split
  · split <;> rfl
  · rfl

@[simp] theorem timer_receiveFin : (receiveFin env c).2.timer = c.timer := by
  have hack := timer_sendAck env
    { c with receiveNext := c.receiveNext + 1, history := .peerFin :: c.history }
  unfold receiveFin
  revert hack
  generalize sendAck env
    { c with receiveNext := c.receiveNext + 1, history := .peerFin :: c.history } = r
  rcases r with ⟨_ | _, d⟩ <;> intro hack
  · exact hack
  · dsimp only at hack ⊢
    split <;> exact hack

@[simp] theorem timer_receiveData (packet : List UInt8) :
    (receiveData env c packet).2.timer = c.timer := by
  unfold receiveData
  split
  · split
    · split
      · rfl
      · dsimp only
        split
        · exact timer_receiveFin ..
        · exact timer_sendAck ..
    · rfl
  · split
    · exact timer_receiveFin ..
    · rfl

@[simp] theorem timer_receiveConnected (packet : List UInt8) :
    (receiveConnected env c packet).2.timer = c.timer := by
  have hacked := timer_acknowledgePending c (acknowledgmentOf packet)
  unfold receiveConnected
  revert hacked
  generalize c.acknowledgePending (acknowledgmentOf packet) = r
  rcases r with ⟨ok, d⟩
  intro hacked
  split
  · exact timer_sendAck env c.countMalformed
  split
  · rfl
  split
  · split
    · exact timer_sendAck ..
    · rfl
  cases ok with
  | false => exact (timer_sendAck env d).trans hacked
  | true =>
    dsimp only
    split
    · exact hacked
    · exact (timer_receiveData env d packet).trans hacked

/-- A received segment has no influence on the timer. -/
@[simp] theorem timer_tcpClientReceive (srcIp dstIp : UInt32) (segment : Option (List UInt8)) :
    (tcpClientReceive env c srcIp dstIp segment).2.timer = c.timer := by
  cases segment with
  | none => rfl
  | some packet =>
    rw [tcpClientReceive]
    split
    · rfl
    split
    · rfl
    split
    · rfl
    split
    · rfl
    split
    · rfl
    unfold receiveValid
    split
    · unfold receiveReset
      generalize (if c.state = .synSent then _ else _ : Bool) = acceptable
      cases acceptable <;> rfl
    split
    · unfold receiveSynSent
      split
      · rfl
      · exact timer_sendAck ..
    · exact timer_receiveConnected ..

@[simp] theorem timer_poll (segments : List (TcpEnv × UInt32 × UInt32 × Option (List UInt8))) :
    (c.poll segments).timer = c.timer := by
  induction segments generalizing c with
  | nil => rfl
  | cons s segments ih => exact (ih _).trans (timer_tcpClientReceive ..)

/-! ### One service -/

/-- What `noteClock` leaves without an error: the clock did not go back, and a clock that stands
still was counted. -/
theorem noteClock_none {env : TcpEnv} {c d : TcpClient} (h : noteClock env c = (none, d)) :
    c.timer.previousNowMs ≤ env.now ∧ d.timer.startedAtMs = c.timer.startedAtMs ∧
      d.timer.timeoutMs = c.timer.timeoutMs ∧ d.timer.previousNowMs = env.now ∧
      (env.now = c.timer.previousNowMs ∧
          d.timer.stalledServices = c.timer.stalledServices + 1 ∧
          d.timer.stalledServices < tcpClientClockStallServiceLimit ∨
        env.now ≠ c.timer.previousNowMs ∧ d.timer.stalledServices = 0) := by
  unfold noteClock at h
  split at h
  · cases h
  rename_i hback
  have hback' : c.timer.previousNowMs ≤ env.now := UInt64.not_lt.1 hback
  split at h
  · rename_i heq
    obtain ⟨hlimit, rfl⟩ := Prod.mk.inj h
    have hstalled : ¬c.operationStalledServices + 1 ≥ tcpClientClockStallServiceLimit := by
      intro hge
      rw [if_pos hge] at hlimit
      cases hlimit
    exact ⟨hback', rfl, rfl, heq.symm, .inl ⟨heq, rfl, UInt32.not_le.1 hstalled⟩⟩
  · rename_i hne
    obtain ⟨-, rfl⟩ := Prod.mk.inj h
    exact ⟨hback', rfl, rfl, rfl, .inr ⟨hne, rfl⟩⟩

/-- A service without a result has noted the clock, and the operation is not too old. -/
theorem service_pending {env : TcpEnv} {c : TcpClient}
    (h : (tcpClientService env c).1 = .pending) :
    ∃ d, noteClock env c = (none, d) ∧ (tcpClientService env c).2.timer = d.timer ∧
      env.now - d.timer.startedAtMs < d.timer.timeoutMs.toUInt64 := by
  unfold tcpClientService at h ⊢
  split at h
  · cases h
  rename_i hfailed
  rw [if_neg hfailed]
  split at h
  · rename_i hresult
    exact absurd h hresult
  rename_i hresult
  rw [if_neg hresult]
  split at h
  · rename_i hreached
    exact absurd h hreached
  rename_i hreached
  rw [if_neg hreached]
  split at h
  · cases h
  rename_i hpossible
  rw [if_neg hpossible]
  revert h
  rcases noteClock env c with ⟨_ | error, d⟩
  · dsimp only
    split
    · nofun
    rename_i hyoung
    intro _
    refine ⟨d, rfl, ?_, UInt64.not_le.1 hyoung⟩
    split
    · rw [timer_finishBegin, timer_retransmitPending]
    · exact timer_finishBegin _
  · nofun

/-! ### A loop that is still running -/

/-- The clock values of a loop that began at `started` and is still running after `n` turns
with the timer `t`. -/
structure Waited (turns : ℕ → Turn) (started : UInt64) (timeout : UInt32) (n : ℕ)
    (t : Timer) : Prop where
  startedAt : t.startedAtMs = started
  timeoutMs : t.timeoutMs = timeout
  stalled_lt : t.stalledServices.toNat < 1000000
  started_le : started ≤ t.previousNowMs
  now_le : ∀ i < n, (turns i).now ≤ t.previousNowMs
  started_le_now : ∀ i < n, started ≤ (turns i).now
  now_lt : ∀ i < n, (turns i).now.toNat < started.toNat + timeout.toNat
  count_previous : Nat.count (fun i => (turns i).now = t.previousNowMs) n ≤
    t.stalledServices.toNat + if t.previousNowMs = started then 0 else 1
  count_le : ∀ now, Nat.count (fun i => (turns i).now = now) n ≤
    999999 + if now = started then 0 else 1

namespace Waited

variable {turns : ℕ → Turn} {started : UInt64} {timeout : UInt32} {n : ℕ} {t : Timer}

/-- The loop was still running for one turn more. -/
theorem service {c : TcpClient} (h : Waited turns started timeout n c.timer)
    (hpending : (tcpClientService (turns n).env c).1 = .pending) :
    Waited turns started timeout (n + 1) (tcpClientService (turns n).env c).2.timer := by
  obtain ⟨d, hnote, htimer, hyoung⟩ := service_pending hpending
  obtain ⟨hback, hstarted, htimeout, hprevious, hclock⟩ := noteClock_none hnote
  have hnow : (turns n).env.now = (turns n).now := rfl
  rw [hnow] at hback hprevious hclock hyoung
  rw [hstarted, h.startedAt, htimeout, h.timeoutMs] at hyoung
  have hsince : started ≤ (turns n).now := UInt64.le_trans h.started_le hback
  have hage : (turns n).now.toNat < started.toNat + timeout.toNat := by
    rw [UInt64.lt_iff_toNat_lt, UInt64.toNat_sub_of_le _ _ hsince, toNat_toUInt64] at hyoung
    have := UInt64.le_iff_toNat_le.1 hsince
    omega
  have hprevious_count : Nat.count (fun i => (turns i).now = (turns n).now) (n + 1) ≤
      d.timer.stalledServices.toNat + if (turns n).now = started then 0 else 1 := by
    rw [Nat.count_succ, if_pos rfl]
    rcases hclock with ⟨heq, hstalled, -⟩ | ⟨hne, hstalled⟩
    · have hcount := h.count_previous
      have hlt := h.stalled_lt
      rw [← heq] at hcount
      rw [hstalled, UInt32.toNat_add]
      simp only [reduceToNat]
      omega
    · -- no earlier turn has seen this value
      have hlt : c.timer.previousNowMs < (turns n).now :=
        UInt64.lt_of_le_of_ne hback fun heq => hne heq.symm
      have hnone : Nat.count (fun i => (turns i).now = (turns n).now) n = 0 := by
        rw [Nat.count_eq_card_filter_range, card_eq_zero, filter_eq_empty_iff]
        intro i hi heq
        have hle := h.now_le i (mem_range.1 hi)
        rw [heq] at hle
        exact absurd hlt (UInt64.not_lt.2 hle)
      have hnew : (turns n).now ≠ started := by
        intro heq
        rw [heq] at hlt
        exact absurd hlt (UInt64.not_lt.2 h.started_le)
      rw [hnone, if_neg hnew]
      omega
  have hlimit : d.timer.stalledServices.toNat < 1000000 := by
    rcases hclock with ⟨-, -, hlt⟩ | ⟨-, hzero⟩
    · exact lt_iff_toNat_lt.1 hlt
    · rw [hzero]
      decide
  rw [htimer]
  refine ⟨?_, ?_, ?_, ?_, ?_, ?_, ?_, ?_, ?_⟩ <;> (try rw [hprevious])
  · exact hstarted.trans h.startedAt
  · exact htimeout.trans h.timeoutMs
  · exact hlimit
  · exact hsince
  · intro i hi
    rcases Nat.lt_succ_iff_lt_or_eq.1 hi with hlt | rfl
    · exact UInt64.le_trans (h.now_le i hlt) hback
    · exact UInt64.le_refl _
  · intro i hi
    rcases Nat.lt_succ_iff_lt_or_eq.1 hi with hlt | rfl
    · exact h.started_le_now i hlt
    · exact hsince
  · intro i hi
    rcases Nat.lt_succ_iff_lt_or_eq.1 hi with hlt | rfl
    · exact h.now_lt i hlt
    · exact hage
  · exact hprevious_count
  · intro now
    by_cases heq : (turns n).now = now
    · subst heq
      exact hprevious_count.trans (by omega)
    · rw [Nat.count_succ, if_neg heq]
      exact h.count_le now

/-- The turns have fewer values than the timeout has milliseconds. -/
theorem card_image_le (h : Waited turns started timeout n t) :
    ((range n).image fun i => (turns i).now).card ≤ timeout.toNat := by
  have hsubset : ((range n).image fun i => (turns i).now).image UInt64.toNat ⊆
      Ico started.toNat (started.toNat + timeout.toNat) := by
    intro v hv
    simp only [mem_image, mem_range] at hv
    obtain ⟨_, ⟨i, hi, rfl⟩, rfl⟩ := hv
    exact mem_Ico.2 ⟨UInt64.le_iff_toNat_le.1 (h.started_le_now i hi), h.now_lt i hi⟩
  have hcard := card_le_card hsubset
  rw [card_image_of_injective _ fun a b hab => UInt64.toNat_inj.1 hab, Nat.card_Ico] at hcard
  omega

/-- A loop cannot run longer. -/
theorem le_mul (h : Waited turns started timeout n t) : n ≤ 1000000 * timeout.toNat := by
  have hfibers : ∀ now ∈ (range n).image fun i => (turns i).now,
      ((range n).filter fun i => (turns i).now = now).card ≤ 1000000 := by
    intro now _
    rw [← Nat.count_eq_card_filter_range]
    have := h.count_le now
    split_ifs at this <;> omega
  have hall := card_le_mul_card_image (range n) 1000000 hfibers
  rw [card_range] at hall
  exact hall.trans (Nat.mul_le_mul_left _ h.card_image_le)

end Waited

/-! ### The loop -/

theorem result_rejectOperation (operation : TcpClientOperation)
    (error : TcpClientError) : (c.rejectOperation operation error).1 = .failed := by
  unfold rejectOperation
  split_ifs <;> rfl

/-- A begin function that leaves its operation pending has started the timer. -/
def StartsTimer (env : TcpEnv) (c : TcpClient) (r : TcpClientStepResult × TcpClient) : Prop :=
  r.1 = .pending → r.2.timer = ⟨env.now, c.operationTimeoutMs, env.now, 0⟩

theorem startsTimer_rejectOperation (c : TcpClient) (operation : TcpClientOperation)
    (error : TcpClientError) : StartsTimer env c (c.rejectOperation operation error) := by
  intro h
  rw [result_rejectOperation] at h
  cases h

theorem startsTimer_finishBegin {env : TcpEnv} {c : TcpClient} {started : Bool × TcpClient}
    (h : started.2.timer = ⟨env.now, c.operationTimeoutMs, env.now, 0⟩) :
    StartsTimer env c (finishBegin started) :=
  fun _ => (timer_finishBegin started).trans h

/-- Beginning an operation starts the timer, if the operation is pending then. -/
theorem timer_begin_of_pending {env : TcpEnv} {c : TcpClient} {operation : BlockingOperation}
    (h : (operation.begin env c).1 = .pending) :
    (operation.begin env c).2.timer = ⟨env.now, c.operationTimeoutMs, env.now, 0⟩ := by
  suffices hstarts : StartsTimer env c (operation.begin env c) from hstarts h
  cases operation with
  | connect remoteIp remotePort initialSequence =>
    rw [BlockingOperation.begin, tcpClientBeginConnect]
    split
    · exact startsTimer_rejectOperation env c _ _
    split
    · exact startsTimer_rejectOperation env c _ _
    split
    · nofun
    split
    · exact startsTimer_rejectOperation env c _ _
    · exact startsTimer_finishBegin (timer_startPendingSegment ..)
  | send dataIsNull data =>
    rw [BlockingOperation.begin, tcpClientBeginSend]
    split
    · exact startsTimer_rejectOperation env c _ _
    split
    · exact startsTimer_rejectOperation env c _ _
    split
    · nofun
    split
    · exact startsTimer_rejectOperation env c _ _
    split
    · exact startsTimer_finishBegin rfl
    · exact startsTimer_finishBegin (timer_startPendingSegment ..)
  | waitForPeerClose =>
    rw [BlockingOperation.begin, tcpClientBeginWaitForPeerClose]
    split
    · exact startsTimer_rejectOperation env c _ _
    split
    · exact startsTimer_rejectOperation env c _ _
    split
    · nofun
    split
    · exact startsTimer_finishBegin rfl
    split
    · exact startsTimer_rejectOperation env c _ _
    · exact fun _ => rfl
  | close =>
    rw [BlockingOperation.begin, tcpClientBeginClose]
    split
    · exact startsTimer_rejectOperation env c _ _
    split
    · exact startsTimer_rejectOperation env c _ _
    split
    · exact startsTimer_finishBegin rfl
    split
    · nofun
    split
    · exact startsTimer_rejectOperation env c _ _
    dsimp only
    split
    · exact startsTimer_finishBegin (timer_startPendingSegment ..)
    · exact startsTimer_finishBegin (timer_startPendingSegment ..)
    all_goals first | exact startsTimer_finishBegin rfl | nofun

variable {turns : ℕ → Turn} {start : TcpClientStepResult × TcpClient}

theorem driveTurns_succ_of_pending {n : ℕ} (h : Performs turns start n) :
    driveTurns turns start (n + 1) =
      tcpClientService (turns n).env ((driveTurns turns start n).2.poll (turns n).segments) :=
  if_pos h

theorem driveTurns_succ_of_not {n : ℕ} (h : ¬Performs turns start n) :
    driveTurns turns start (n + 1) = driveTurns turns start n :=
  if_neg h

/-- Before a turn all earlier ones were taken. -/
theorem Performs.of_succ {n : ℕ} (h : Performs turns start (n + 1)) : Performs turns start n := by
  by_contra hnot
  rw [Performs, driveTurns_succ_of_not hnot] at h
  exact hnot h

theorem Performs.of_le {m n : ℕ}
    (h : Performs turns start n) (hle : m ≤ n) : Performs turns start m := by
  induction n, hle using Nat.le_induction with
  | base => exact h
  | succ n _ ih => exact ih h.of_succ

section Loop

variable {env : TcpEnv} {c : TcpClient} {operation : BlockingOperation} {turns : ℕ → Turn}

/-- A loop that is still running, whatever happened in its turns. -/
theorem waited_driveTurns {n : ℕ} (h : Performs turns (operation.begin env c) n) :
    Waited turns env.now c.operationTimeoutMs n
      (driveTurns turns (operation.begin env c) n).2.timer := by
  induction n with
  | zero =>
    have htimer := timer_begin_of_pending h
    rw [driveTurns, htimer]
    exact ⟨rfl, rfl, Nat.zero_lt_succ _, UInt64.le_refl _, nofun, nofun, nofun, by simp, by simp⟩
  | succ n ih =>
    have hturn := driveTurns_succ_of_pending h.of_succ
    have hwaited := ih h.of_succ
    rw [Performs, hturn] at h
    rw [hturn]
    rw [← timer_poll _ (turns n).segments] at hwaited
    exact hwaited.service h

/-- After this many turns the loop has ended. -/
theorem not_performs : ¬Performs turns (operation.begin env c)
    (1000000 * c.operationTimeoutMs.toNat + 1) := by
  intro h
  have := (waited_driveTurns h).le_mul
  omega

/-- The performed services for one clock value. -/
theorem card_services_le (n : ℕ) (now : UInt64) :
    ((range n).filter fun i => Performs turns (operation.begin env c) i ∧
      (turns i).now = now).card ≤
      1000000 + if now = env.now then 0 else 1 := by
  induction n with
  | zero => simp
  | succ n ih =>
    rw [range_add_one, filter_insert]
    by_cases hlast : Performs turns (operation.begin env c) n ∧ (turns n).now = now
    · -- the last turn that was taken: before it the loop was running
      rw [if_pos hlast]
      refine (card_insert_le _ _).trans ?_
      have hcount := (waited_driveTurns hlast.1).count_le now
      rw [Nat.count_eq_card_filter_range] at hcount
      have hsubset : ((range n).filter fun i =>
          Performs turns (operation.begin env c) i ∧ (turns i).now = now) ⊆
          (range n).filter fun i => (turns i).now = now :=
        monotone_filter_right _ fun i _ hi => hi.2
      have := (card_le_card hsubset).trans hcount
      omega
    · rw [if_neg hlast]
      exact ih

/-- The clock values of the performed services. -/
theorem card_clock_values_le (n : ℕ) :
    (((range n).filter (Performs turns (operation.begin env c))).image fun i =>
      (turns i).now).card ≤ c.operationTimeoutMs.toNat + 1 := by
  induction n with
  | zero => simp
  | succ n ih =>
    rw [range_add_one, filter_insert]
    by_cases hlast : Performs turns (operation.begin env c) n
    · rw [if_pos hlast, image_insert]
      refine (card_insert_le _ _).trans ?_
      have hvalues := (waited_driveTurns hlast).card_image_le
      have hsubset := image_subset_image (f := fun i => (turns i).now)
        (filter_subset (Performs turns (operation.begin env c)) (range n))
      have := (card_le_card hsubset).trans hvalues
      omega
    · rw [if_neg hlast]
      exact ih

end Loop

/-- **The loop of `drive_blocking_operation` ends**, with a result other than pending.  For the
clock value of the beginning it performs at most a million services, for any other clock value at
most one more, since the service that first sees a value does not count as stalled; and the services
see at most one clock value more than the timeout has milliseconds. -/
theorem blocking_operations_terminate (env : TcpEnv) (c : TcpClient) (operation : BlockingOperation)
    (turns : ℕ → Turn) :
    (∃ n ≤ 1000000 * c.operationTimeoutMs.toNat + 1,
      (driveTurns turns (operation.begin env c) n).1 = .complete ∨
        (driveTurns turns (operation.begin env c) n).1 = .failed) ∧
      (∀ n now, ((range n).filter fun i =>
          Performs turns (operation.begin env c) i ∧ (turns i).now = now).card ≤
        1000000 + if now = env.now then 0 else 1) ∧
      ∀ n, (((range n).filter (Performs turns (operation.begin env c))).image fun i =>
        (turns i).now).card ≤ c.operationTimeoutMs.toNat + 1 := by
  refine ⟨⟨_, le_rfl, ?_⟩, card_services_le, card_clock_values_le⟩
  have hended : ¬(driveTurns turns (operation.begin env c)
      (1000000 * c.operationTimeoutMs.toNat + 1)).1 = .pending := not_performs
  revert hended
  cases (driveTurns turns (operation.begin env c)
    (1000000 * c.operationTimeoutMs.toNat + 1)).1 <;> simp

/-! ### A clock that moves once -/

/-- A client that waits for the answer to its SYN, with the clock as it was last seen and the number
of services since then. -/
def waitingClient (previous : UInt64) (stalled : UInt32) : TcpClient :=
  { (BlockingOperation.begin ⟨0, true⟩
      (tcpClientInit (some ⟨true, true, true⟩) 1 1 none 0) (.connect 2 2 0)).2 with
    operationPreviousNowMs := previous
    operationStalledServices := stalled }

/-- The clock shows `1` in every turn, and nothing arrives. -/
def oneTick (_ : ℕ) : Turn := ⟨[], ⟨1, true⟩⟩

theorem begin_waitingClient :
    BlockingOperation.begin ⟨0, true⟩ (tcpClientInit (some ⟨true, true, true⟩) 1 1 none 0)
      (.connect 2 2 0) = (.pending, waitingClient 0 0) := rfl

section Waiting

variable (previous : UInt64) (stalled : UInt32)

theorem state_waitingClient : (waitingClient previous stalled).state = .synSent := rfl

theorem completeIfReached_waitingClient :
    (waitingClient previous stalled).completeIfReached = waitingClient previous stalled := rfl

end Waiting

/-- A service that finds nothing to do. -/
theorem service_waitingClient {previous : UInt64} {stalled stalled' : UInt32}
    (hnote : noteClock ⟨1, true⟩ (waitingClient previous stalled) =
      (none, waitingClient 1 stalled')) :
    tcpClientService ⟨1, true⟩ (waitingClient previous stalled) =
      (.pending, waitingClient 1 stalled') := by
  have hfailed : ¬(waitingClient previous stalled).state = .failed := by
    rw [state_waitingClient]
    nofun
  have hresult : ¬(waitingClient previous stalled).stepResult ≠ .pending := not_not.2 rfl
  have hpossible : ¬((waitingClient previous stalled).operation = .none ∨
      (waitingClient previous stalled).io.nowMs = false) := by
    rintro (h | h) <;> cases h
  have hyoung : ¬(1 : UInt64) - (waitingClient 1 stalled').operationStartedAtMs ≥
      (waitingClient 1 stalled').operationTimeoutMs.toUInt64 :=
    show ¬(1 : UInt64) - 0 ≥ (5000 : UInt32).toUInt64 by decide
  have hquiet : ¬((waitingClient 1 stalled').pendingActive = true ∧
      (1 : UInt64) - (waitingClient 1 stalled').pendingSentAtMs ≥
        (waitingClient 1 stalled').retransmitMs.toUInt64) :=
    show ¬(true = true ∧ (1 : UInt64) - 0 ≥ (250 : UInt32).toUInt64) by decide
  rw [tcpClientService, if_neg hfailed, if_neg hresult, completeIfReached_waitingClient,
    if_neg hresult, if_neg hpossible, hnote]
  dsimp only
  rw [if_neg hyoung, if_neg hquiet, finishBegin, if_pos rfl, completeIfReached_waitingClient]
  rfl

/-- The clock moves on with the first service, and from then on every service counts. -/
theorem driveTurns_oneTick {k : ℕ} (hk : k < 1000000) :
    driveTurns oneTick (.pending, waitingClient 0 0) (k + 1) =
      (.pending, waitingClient 1 (ofNat k)) := by
  induction k with
  | zero => exact service_waitingClient rfl
  | succ k ih =>
    have hturn := ih (by omega)
    have hperforms : Performs oneTick (.pending, waitingClient 0 0) (k + 1) := by
      rw [Performs, hturn]
    have hnote : noteClock ⟨1, true⟩ (waitingClient 1 (ofNat k)) =
        (none, waitingClient 1 (ofNat (k + 1))) := by
      have hlimit : ¬(waitingClient 1 (ofNat k)).operationStalledServices + 1 ≥
          tcpClientClockStallServiceLimit := by
        show ¬ofNat k + 1 ≥ tcpClientClockStallServiceLimit
        rw [ge_iff_le, UInt32.not_le, UInt32.lt_iff_toNat_lt, UInt32.toNat_add,
          toNat_ofNat_of_lt' (show k < 4294967296 by omega)]
        simp only [tcpClientClockStallServiceLimit, reduceToNat]
        omega
      have hsucc : ofNat (k + 1) = ofNat k + 1 := by simp
      have hback : ¬(1 : UInt64) < (waitingClient 1 (ofNat k)).operationPreviousNowMs :=
        UInt64.lt_irrefl 1
      have hstands : (1 : UInt64) = (waitingClient 1 (ofNat k)).operationPreviousNowMs := rfl
      rw [noteClock, if_neg hback, if_pos hstands, hsucc]
      dsimp only
      rw [if_neg hlimit]
      rfl
    rw [driveTurns_succ_of_pending hperforms, hturn]
    exact service_waitingClient hnote

/-- A million and one services are performed with the same clock value. -/
theorem million_and_one_services :
    ((range 1000001).filter fun i =>
      Performs oneTick (BlockingOperation.begin ⟨0, true⟩
        (tcpClientInit (some ⟨true, true, true⟩) 1 1 none 0) (.connect 2 2 0)) i ∧
        (oneTick i).now = 1).card = 1000001 := by
  rw [begin_waitingClient, filter_true_of_mem, card_range]
  intro i hi
  refine ⟨?_, rfl⟩
  cases i with
  | zero => rfl
  | succ k =>
    have hk : k < 1000000 := by
      have := mem_range.1 hi
      omega
    rw [Performs, driveTurns_oneTick hk]

/-! ### The blocking functions -/

/-- `tcp_client_connect`. -/
def tcpClientConnect (turns : ℕ → Turn) (fuel : ℕ) (env : TcpEnv) (c : TcpClient)
    (remoteIp : UInt32) (remotePort : UInt16) (initialSequence : UInt32) :
    Option (Bool × TcpClient) :=
  if c.io.poll = false then some (false, (c.rejectOperation .connect .invalidArgument).2)
  else
    driveBlockingOperation turns fuel
      (tcpClientBeginConnect env c remoteIp remotePort initialSequence)

/-- The loop of `tcp_client_send` over the bytes that are left, from the chunk with the number `i`;
each chunk has a begin and a loop of its own. -/
def tcpClientSendLoop (turns : ℕ → TcpEnv × (ℕ → Turn)) (fuel i : ℕ) (bytes : List UInt8)
    (c : TcpClient) : Option (Bool × TcpClient) :=
  if bytes = [] then some (true, { c with error := .none })
  else
    match driveBlockingOperation (turns i).2 fuel
        (tcpClientBeginSend (turns i).1 c false (bytes.take tcpClientMaxSegmentData)) with
    | none => none
    | some (false, c) => some (false, c)
    | some (true, c) =>
      if bytes.drop tcpClientMaxSegmentData ≠ [] ∧ c.state ≠ .established then
        some (false, { c with error := .notConnected })
      else tcpClientSendLoop turns fuel (i + 1) (bytes.drop tcpClientMaxSegmentData) c
termination_by bytes.length
decreasing_by
  have := List.length_pos_iff.2 ‹¬bytes = []›
  simp only [List.length_drop, tcpClientMaxSegmentData]
  omega

/-- `tcp_client_send`. -/
def tcpClientSend (turns : ℕ → TcpEnv × (ℕ → Turn)) (fuel : ℕ) (c : TcpClient) (dataIsNull : Bool)
    (data : List UInt8) : Option (Bool × TcpClient) :=
  if c.io.poll = false then some (false, (c.rejectOperation .send .invalidArgument).2)
  else if dataIsNull ∧ data.length ≠ 0 then
    some (false, (c.rejectOperation .send .invalidArgument).2)
  else if data.length = 0 then
    driveBlockingOperation (turns 0).2 fuel (tcpClientBeginSend (turns 0).1 c true [])
  else tcpClientSendLoop turns fuel 0 data c

/-- `tcp_client_wait_for_peer_close`. -/
def tcpClientWaitForPeerClose (turns : ℕ → Turn) (fuel : ℕ) (env : TcpEnv) (c : TcpClient) :
    Option (Bool × TcpClient) :=
  if c.io.poll = false then some (false, (c.rejectOperation .waitForPeerClose .invalidArgument).2)
  else driveBlockingOperation turns fuel (tcpClientBeginWaitForPeerClose env c)

/-- `tcp_client_close`. -/
def tcpClientClose (turns : ℕ → Turn) (fuel : ℕ) (env : TcpEnv) (c : TcpClient) :
    Option (Bool × TcpClient) :=
  if c.io.poll = false then some (false, (c.rejectOperation .close .invalidArgument).2)
  else driveBlockingOperation turns fuel (tcpClientBeginClose env c)

/-- With enough fuel `drive_blocking_operation` returns, and more fuel changes nothing. -/
theorem exists_driveBlockingOperation (operation : BlockingOperation) (turns : ℕ → Turn) :
    ∃ r, ∀ fuel, 1000000 * c.operationTimeoutMs.toNat + 1 ≤ fuel →
      driveBlockingOperation turns fuel (operation.begin env c) = some r := by
  have hstable : ∀ fuel, 1000000 * c.operationTimeoutMs.toNat + 1 ≤ fuel →
      driveTurns turns (operation.begin env c) fuel = driveTurns turns (operation.begin env c)
        (1000000 * c.operationTimeoutMs.toNat + 1) := by
    intro fuel hfuel
    induction fuel, hfuel using Nat.le_induction with
    | base => rfl
    | succ fuel hle ih =>
      rw [driveTurns_succ_of_not fun h => not_performs (h.of_le hle), ih]
  have hended : ¬(driveTurns turns (operation.begin env c)
      (1000000 * c.operationTimeoutMs.toNat + 1)).1 = .pending := not_performs
  rcases hlast : driveTurns turns (operation.begin env c)
    (1000000 * c.operationTimeoutMs.toNat + 1) with ⟨_ | _ | _, d⟩
  · rw [hlast] at hended
    exact absurd rfl hended
  · exact ⟨(true, d), fun fuel hfuel => by rw [driveBlockingOperation, hstable fuel hfuel, hlast]⟩
  · exact ⟨(false, d), fun fuel hfuel => by rw [driveBlockingOperation, hstable fuel hfuel, hlast]⟩

/-- With enough fuel the loop over the chunks returns. -/
theorem exists_tcpClientSendLoop (turns : ℕ → TcpEnv × (ℕ → Turn)) (i : ℕ) (bytes : List UInt8)
    (c : TcpClient) :
    ∃ r enough, ∀ fuel, enough ≤ fuel → tcpClientSendLoop turns fuel i bytes c = some r := by
  induction hlength : bytes.length using Nat.strong_induction_on generalizing i bytes c with
  | _ length ih =>
    by_cases hbytes : bytes = []
    · exact ⟨_, 0, fun fuel _ => by rw [tcpClientSendLoop, if_pos hbytes]⟩
    obtain ⟨⟨ok, d⟩, hdrive⟩ := exists_driveBlockingOperation (turns i).1 c
      (.send false (bytes.take tcpClientMaxSegmentData)) (turns i).2
    have hshorter : (bytes.drop tcpClientMaxSegmentData).length < length := by
      have := List.length_pos_iff.2 hbytes
      simp only [List.length_drop, tcpClientMaxSegmentData]
      omega
    obtain ⟨r, enough, hrest⟩ := ih _ hshorter (i + 1) (bytes.drop tcpClientMaxSegmentData) d rfl
    have hchunk : ∀ fuel, 1000000 * c.operationTimeoutMs.toNat + 1 ≤ fuel →
        driveBlockingOperation (turns i).2 fuel
          (tcpClientBeginSend (turns i).1 c false (bytes.take tcpClientMaxSegmentData)) =
          some (ok, d) := hdrive
    cases ok with
    | false =>
      refine ⟨(false, d), 1000000 * c.operationTimeoutMs.toNat + 1, fun fuel hfuel => ?_⟩
      rw [tcpClientSendLoop, if_neg hbytes, hchunk fuel hfuel]
    | true =>
      by_cases hstate : bytes.drop tcpClientMaxSegmentData ≠ [] ∧ d.state ≠ .established
      · refine ⟨(false, { d with error := .notConnected }),
          1000000 * c.operationTimeoutMs.toNat + 1, fun fuel hfuel => ?_⟩
        rw [tcpClientSendLoop, if_neg hbytes, hchunk fuel hfuel]
        exact if_pos hstate
      · refine ⟨r, max enough (1000000 * c.operationTimeoutMs.toNat + 1), fun fuel hfuel => ?_⟩
        rw [tcpClientSendLoop, if_neg hbytes, hchunk fuel (le_of_max_le_right hfuel)]
        exact (if_neg hstate).trans (hrest fuel (le_of_max_le_left hfuel))

/-- `tcp_client_send` returns. -/
theorem exists_tcpClientSend (turns : ℕ → TcpEnv × (ℕ → Turn)) (c : TcpClient) (dataIsNull : Bool)
    (data : List UInt8) :
    ∃ r enough, ∀ fuel, enough ≤ fuel → tcpClientSend turns fuel c dataIsNull data = some r := by
  by_cases hpoll : c.io.poll = false
  · exact ⟨_, 0, fun _ _ => if_pos hpoll⟩
  by_cases hnull : dataIsNull = true ∧ data.length ≠ 0
  · exact ⟨_, 0, fun _ _ => (if_neg hpoll).trans (if_pos hnull)⟩
  by_cases hempty : data.length = 0
  · obtain ⟨r, hdrive⟩ := exists_driveBlockingOperation (turns 0).1 c (.send true []) (turns 0).2
    exact ⟨r, _, fun fuel hfuel => (if_neg hpoll).trans ((if_neg hnull).trans
      ((if_pos hempty).trans (hdrive fuel hfuel)))⟩
  · obtain ⟨r, enough, hloop⟩ := exists_tcpClientSendLoop turns 0 data c
    exact ⟨r, enough, fun fuel hfuel => (if_neg hpoll).trans ((if_neg hnull).trans
      ((if_neg hempty).trans (hloop fuel hfuel)))⟩

/-- `tcp_client_connect`, `tcp_client_wait_for_peer_close` and `tcp_client_close` return. -/
theorem exists_connect_wait_close (turns : ℕ → Turn) (env : TcpEnv) (c : TcpClient)
    (remoteIp : UInt32) (remotePort : UInt16) (initialSequence : UInt32) :
    ∃ enough, ∀ fuel, enough ≤ fuel →
      (∃ r, tcpClientConnect turns fuel env c remoteIp remotePort initialSequence = some r) ∧
      (∃ r, tcpClientWaitForPeerClose turns fuel env c = some r) ∧
      ∃ r, tcpClientClose turns fuel env c = some r := by
  refine ⟨1000000 * c.operationTimeoutMs.toNat + 1, fun fuel hfuel => ?_⟩
  unfold tcpClientConnect tcpClientWaitForPeerClose tcpClientClose
  by_cases hpoll : c.io.poll = false
  · simp only [if_pos hpoll]
    exact ⟨⟨_, rfl⟩, ⟨_, rfl⟩, ⟨_, rfl⟩⟩
  simp only [if_neg hpoll]
  obtain ⟨r₁, h₁⟩ := exists_driveBlockingOperation env c
    (.connect remoteIp remotePort initialSequence) turns
  obtain ⟨r₂, h₂⟩ := exists_driveBlockingOperation env c .waitForPeerClose turns
  obtain ⟨r₃, h₃⟩ := exists_driveBlockingOperation env c .close turns
  exact ⟨⟨r₁, h₁ fuel hfuel⟩, ⟨r₂, h₂ fuel hfuel⟩, ⟨r₃, h₃ fuel hfuel⟩⟩

end TcpClient

end Nostalux.Tcp
