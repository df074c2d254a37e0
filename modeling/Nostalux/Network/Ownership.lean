import Nostalux.Network.Moves

/-!
# One operation at a time

The owner of `g_operation_busy` is the active request or the blocking call in progress.  In every
run there is at most one owner and the flag is set exactly while there is one; `g_active_tcp_client`
is the client of the owner; and the block of a request is held while the request is allocated and
freed once.

* `Owned` is the invariant, `Ledger` its part about memory;
* `owned_step`: every event keeps it;
* `network_single_owner`: the result about runs, with what a single event may release.
-/

namespace Nostalux.Network

open NetworkHttpRequest List Nat Option

/-! ### The blocks of memory -/

/-- The blocks that a blocking call holds in its loop. -/
def Loop.blocks : Loop → List ℕ
  | .exchanging responseBytes requestBytes => [responseBytes, requestBytes]
  | .configuring _ _ _ | .resolving _ | .echoing _ => []

/-- The record of memory: of the blocks given to requests, the one that is held has not been freed
and every other has been freed once. -/
structure Ledger (blocks : ℕ) (freed responses : List ℕ) (held : Option ℕ)
    (lent : List ℕ) : Prop where
  responses_lt : ∀ b ∈ responses, b < blocks
  freed_lt : ∀ b ∈ freed, b < blocks
  lent_lt : ∀ b ∈ lent, b < blocks ∧ b ∉ responses
  held_mem : ∀ b, held = some b → b ∈ responses
  count : ∀ b ∈ responses, freed.count b = if held = some b then 0 else 1

namespace Ledger

variable {blocks : ℕ} {freed responses : List ℕ} {held : Option ℕ} {lent : List ℕ}

theorem empty : Ledger 0 [] [] none [] where
  responses_lt _ h := nomatch h
  freed_lt _ h := nomatch h
  lent_lt _ h := nomatch h
  held_mem _ h := nomatch h
  count _ h := nomatch h

/-- A new block is given to a request. -/
theorem take (h : Ledger blocks freed responses none lent) :
    Ledger (blocks + 1) freed (responses ++ [blocks]) (some blocks) lent where
  responses_lt b hb := by
    rcases mem_append.1 hb with hb | hb
    · exact lt_succ_of_lt (h.responses_lt b hb)
    · exact mem_singleton.1 hb ▸ lt_succ_self _
  freed_lt b hb := lt_succ_of_lt (h.freed_lt b hb)
  lent_lt b hb := by
    obtain ⟨hlt, hmem⟩ := h.lent_lt b hb
    refine ⟨lt_succ_of_lt hlt, fun hb' => ?_⟩
    rcases mem_append.1 hb' with hb' | hb'
    · exact hmem hb'
    · exact hlt.ne (mem_singleton.1 hb')
  held_mem b hb := by
    rw [← some.inj hb]
    exact mem_append_right _ mem_cons_self
  count b hb := by
    rcases mem_append.1 hb with hb | hb
    · have hne : blocks ≠ b := (h.responses_lt b hb).ne'
      simpa [hne] using h.count b hb
    · obtain rfl := mem_singleton.1 hb
      have hfree : b ∉ freed := fun hb' => (h.freed_lt b hb').ne rfl
      simpa using count_eq_zero_of_not_mem hfree

/-- The block that is held is freed. -/
theorem give {b : ℕ} (h : Ledger blocks freed responses (some b) lent) :
    Ledger blocks (freed ++ [b]) responses none lent where
  responses_lt := h.responses_lt
  freed_lt c hc := by
    rcases mem_append.1 hc with hc | hc
    · exact h.freed_lt c hc
    · exact mem_singleton.1 hc ▸ h.responses_lt b (h.held_mem b rfl)
  lent_lt := h.lent_lt
  held_mem _ hc := nomatch hc
  count c hc := by
    have hcount := h.count c hc
    rw [count_append, hcount]
    by_cases hbc : b = c
    · simp [hbc]
    · simp [hbc]

/-- New blocks are given to a blocking call. -/
theorem lend (h : Ledger blocks freed responses held lent) (n : ℕ) :
    Ledger (blocks + n) freed responses held ((range n).map (blocks + ·) ++ lent) where
  responses_lt b hb := (h.responses_lt b hb).trans_le (le_add_right _ _)
  freed_lt b hb := (h.freed_lt b hb).trans_le (le_add_right _ _)
  lent_lt b hb := by
    rcases mem_append.1 hb with hb | hb
    · obtain ⟨i, hi, rfl⟩ := mem_map.1 hb
      refine ⟨Nat.add_lt_add_left (mem_range.1 hi) _, fun hmem => ?_⟩
      exact absurd (h.responses_lt _ hmem) (by omega)
    · obtain ⟨hlt, hmem⟩ := h.lent_lt b hb
      exact ⟨hlt.trans_le (le_add_right _ _), hmem⟩
  held_mem := h.held_mem
  count := h.count

/-- A block of a blocking call is freed. -/
theorem restore {b : ℕ} (h : Ledger blocks freed responses held (b :: lent)) :
    Ledger blocks (freed ++ [b]) responses held lent where
  responses_lt := h.responses_lt
  freed_lt c hc := by
    rcases mem_append.1 hc with hc | hc
    · exact h.freed_lt c hc
    · exact mem_singleton.1 hc ▸ (h.lent_lt b mem_cons_self).1
  lent_lt c hc := h.lent_lt c (mem_cons_of_mem _ hc)
  held_mem := h.held_mem
  count c hc := by
    have hne : b ≠ c := fun heq => (h.lent_lt b mem_cons_self).2 (heq ▸ hc)
    rw [count_append, h.count c hc]
    simp [hne]

end Ledger

/-! ### The invariant -/

/-- The operations that own the flag. -/
def NetworkService.owners (s : NetworkService) : List Operation :=
  (if s.httpRequest.active then [.request] else []) ++ s.calls.map fun frame => .call frame.id

/-- The invariant of runs. -/
structure Owned (s : NetworkService) : Prop where
  busy : s.operationBusy = true ↔ s.httpRequest.active = true ∨ s.calls ≠ []
  alone : s.httpRequest.active = true → s.calls = []
  single : s.calls.length ≤ 1
  requestClient : s.activeTcpClient = some .request → s.httpRequest.active = true
  callClient : ∀ id, s.activeTcpClient = some (.call id) →
    ∃ frame ∈ s.calls, frame.id = id ∧ frame.loop.blocks ≠ []
  held : s.httpRequest.allocated = s.httpRequest.responseBytes.isSome
  ledger : Ledger s.blocks s.freed s.responses s.httpRequest.responseBytes
    (s.calls.flatMap fun frame => frame.loop.blocks)

namespace Owned

variable {s s' : NetworkService}

theorem boot (stackReady : Bool) : Owned (.boot stackReady) where
  busy := by decide +revert
  alone _ := rfl
  single := zero_le _
  requestClient h := nomatch h
  callClient _ h := nomatch h
  held := rfl
  ledger := .empty

theorem calls_eq_nil (h : Owned s) (hbusy : s.operationBusy = false) : s.calls = [] := by
  by_contra hne
  exact absurd (h.busy.2 (.inr hne)) (by simp [hbusy])

theorem not_active (h : Owned s) (hbusy : s.operationBusy = false) :
    s.httpRequest.active = false := by
  by_contra hne
  exact absurd (h.busy.2 (.inl (by simpa using hne))) (by simp [hbusy])

variable {frame : Frame}

section

variable (h : Owned s)
include h

theorem calls_eq_singleton (hmem : frame ∈ s.calls) : s.calls = [frame] := by
  obtain ⟨other, hother⟩ := length_eq_one_iff.1
    (le_antisymm h.single (length_pos_of_mem hmem))
  rw [hother] at hmem ⊢
  rw [mem_singleton.1 hmem]

theorem not_active_of_mem (hmem : frame ∈ s.calls) : s.httpRequest.active = false := by
  by_contra hne
  exact absurd (h.alone (by simpa using hne)) (ne_nil_of_mem hmem)

theorem owners_of_active (hactive : s.httpRequest.active = true) : s.owners = [.request] := by
  simp [NetworkService.owners, hactive, h.alone hactive]

theorem owners_of_mem (hmem : frame ∈ s.calls) : s.owners = [.call frame.id] := by
  simp [NetworkService.owners, h.not_active_of_mem hmem, h.calls_eq_singleton hmem]

theorem client_eq_none (hbusy : s.operationBusy = false) : s.activeTcpClient = none := by
  cases hclient : s.activeTcpClient with
  | none => rfl
  | some owner =>
    cases owner with
    | request => exact absurd (h.requestClient hclient) (by simp [h.not_active hbusy])
    | call id =>
      obtain ⟨frame, hmem, -⟩ := h.callClient id hclient
      exact absurd hmem (by simp [h.calls_eq_nil hbusy])

/-- The invariant of a state that differs in its request only, within the same activity. -/
theorem of_sameService (hs : SameService s s')
    (hr : SameRequest s.httpRequest s'.httpRequest) (hbusy : s'.operationBusy = s.operationBusy)
    (hactive : s'.httpRequest.active = s.httpRequest.active)
    (hclient : s'.activeTcpClient = s.activeTcpClient ∨
      s'.activeTcpClient = some .request ∧ s.httpRequest.active = true) : Owned s' where
  busy := by rw [hbusy, hactive, hs.calls]; exact h.busy
  alone := by rw [hactive, hs.calls]; exact h.alone
  single := by rw [hs.calls]; exact h.single
  requestClient hc := by
    rw [hactive]
    rcases hclient with hclient | ⟨-, hactive⟩
    · exact h.requestClient (hclient ▸ hc)
    · exact hactive
  callClient id hc := by
    rw [hs.calls]
    rcases hclient with hclient | ⟨hclient, -⟩
    · exact h.callClient id (hclient ▸ hc)
    · exact nomatch hclient.symm.trans hc
  held := by rw [hr.allocated, hr.responseBytes]; exact h.held
  ledger := by rw [hs.blocks, hs.freed, hs.responses, hr.responseBytes, hs.calls]; exact h.ledger

end

theorem active_eq {r r' : NetworkHttpRequest} (hallocated : r'.allocated = r.allocated)
    (hstage : r.state.stage ≠ .over) (hstage' : r'.state.stage ≠ .over) : r'.active = r.active := by
  rw [Bool.eq_iff_iff, active_iff, active_iff, hallocated]
  simp [hstage, hstage']

theorem not_active_of_over {r : NetworkHttpRequest} (h : r.state.stage = .over) :
    r.active = false := by
  by_contra hne
  exact (active_iff.1 (by simpa using hne)).2 h

section

variable (h : Owned s)

include h

/-- The request is over. -/
theorem finish (hactive : s.httpRequest.active = true)
    {state : NetworkHttpRequestState} (result : NetworkResult) (hover : state.stage = .over) :
    Owned (s.finish state result) := by
  have hcalls := h.alone hactive
  have hactive' : (s.finish state result).httpRequest.active = false := not_active_of_over hover
  have hclient : (s.finish state result).activeTcpClient = none := by
    show (if s.activeTcpClient = some .request then none else s.activeTcpClient) = none
    split
    · rfl
    rename_i hne
    cases hclient : s.activeTcpClient with
    | none => rfl
    | some owner =>
      cases owner with
      | request => exact absurd hclient hne
      | call id =>
        obtain ⟨frame, hmem, -⟩ := h.callClient id hclient
        exact absurd hmem (by simp [hcalls])
  constructor
  case busy =>
    have hbusy : (s.finish state result).operationBusy = false := rfl
    have hcalls' : (s.finish state result).calls = [] := hcalls
    simp [hbusy, hactive', hcalls']
  case alone => exact fun _ => hcalls
  case single => exact h.single
  case requestClient => exact fun hc => nomatch hclient.symm.trans hc
  case callClient => exact fun id hc => nomatch hclient.symm.trans hc
  case held => exact h.held
  case ledger => exact h.ledger

theorem move (hallocated : s.httpRequest.allocated = true) (hmove : Move s s') :
    Owned s' ∧ s'.httpRequest.allocated = true := by
  cases hmove with
  | settle hs hr _ hbusy hclient hstage =>
    have hactive : s'.httpRequest.active = s.httpRequest.active := by
      rw [Bool.eq_iff_iff, active_iff, active_iff, hr.allocated, hstage]
    exact ⟨h.of_sameService hs hr hbusy hactive (.inl hclient), hr.allocated.trans hallocated⟩
  | resolve hs hr _ hbusy hclient hbefore hafter =>
    have hactive := active_eq hr.allocated (by simp [hbefore]) (by simp [hafter])
    exact ⟨h.of_sameService hs hr hbusy hactive (.inl hclient), hr.allocated.trans hallocated⟩
  | connect hs hr _ hbusy hclient hbefore hafter =>
    have hactive := active_eq hr.allocated (by simp [hbefore]) (by simp [hafter])
    have hactive' := active_iff.2 ⟨hallocated, by simp [hbefore]⟩
    exact ⟨h.of_sameService hs hr hbusy hactive (.inr ⟨hclient, hactive'⟩),
      hr.allocated.trans hallocated⟩
  | redirect url heq hbefore =>
    subst heq
    have hactive : (s.redirectTo url).httpRequest.active = s.httpRequest.active :=
      active_eq rfl (by simp [hbefore]) Stage.noConfusion
    refine ⟨⟨?_, ?_, h.single, (nomatch ·), fun _ => (nomatch ·), h.held, h.ledger⟩, hallocated⟩
    · rw [hactive]; exact h.busy
    · rw [hactive]; exact h.alone
  | finish state result heq hbefore hafter =>
    subst heq
    exact ⟨h.finish (active_iff.2 ⟨hallocated, hbefore⟩) result hafter, hallocated⟩

theorem moves (hallocated : s.httpRequest.allocated = true) (hmoves : Moves s s') :
    Owned s' ∧ s'.httpRequest.allocated = true := by
  induction hmoves with
  | refl => exact ⟨h, hallocated⟩
  | tail _ hmove ih => exact ih.1.move ih.2 hmove

theorem networkPoll (env : DriveEnv) : Owned (s.networkPoll env) := by
  cases hactive : s.httpRequest.active with
  | false =>
    rw [NetworkService.networkPoll_of_not_active hactive]
    exact h
  | true =>
    exact (h.moves (active_iff.1 hactive).1 NetworkService.moves_networkPoll).1

theorem networkHttpRequestCancel (handle : UInt64) :
    Owned (s.networkHttpRequestCancel handle).2 := by
  unfold NetworkService.networkHttpRequestCancel
  split
  · exact h
  split
  · exact h
  next hactive => exact h.finish (by simpa using hactive) .canceled rfl

section

variable (hactive : s.httpRequest.active = false)
include hactive

theorem busy_iff_calls : s.operationBusy = true ↔ zero.active = true ∨ s.calls ≠ [] := by
  have hzero : zero.active = s.httpRequest.active := hactive.symm
  rw [hzero]
  exact h.busy

/-- A request that is over is cleared, with a ledger that no longer has its block. -/
theorem clearRequest {freed : List ℕ} (hledger : Ledger s.blocks freed s.responses none
    (s.calls.flatMap fun frame => frame.loop.blocks)) :
    Owned { s.clearRequest with freed := freed } where
  busy := h.busy_iff_calls hactive
  alone := (nomatch ·)
  single := h.single
  requestClient hc := absurd (h.requestClient hc) (by simp [hactive])
  callClient := h.callClient
  held := rfl
  ledger := hledger

end

theorem networkHttpRequestClose (handle : UInt64) : Owned (s.networkHttpRequestClose handle).2 := by
  unfold NetworkService.networkHttpRequestClose
  split
  · exact h
  -- the state after the cancellation, if there is one
  obtain ⟨t, ht, htowned, htactive⟩ : ∃ t,
      (if s.httpRequest.active then (s.networkHttpRequestCancel handle).2 else s) = t ∧ Owned t ∧
        t.httpRequest.active = false := by
    split
    next hactive =>
      refine ⟨_, rfl, h.networkHttpRequestCancel handle, ?_⟩
      have hcancel : (s.networkHttpRequestCancel handle).2 = s.finish .canceled .canceled := by
        simp_all [NetworkService.networkHttpRequestCancel]
      rw [hcancel]
      exact not_active_of_over rfl
    next hactive => exact ⟨s, rfl, h, by simpa using hactive⟩
  rw [ht]
  have hledger := htowned.ledger
  dsimp only
  split
  next hresponse =>
    rw [hresponse] at hledger
    exact htowned.clearRequest htactive hledger
  next b hresponse =>
    rw [hresponse] at hledger
    exact htowned.clearRequest htactive hledger.give

end

end Owned

/-! ### The start of a request -/

section Start

variable {s : NetworkService} (h : Owned s) (hbusy : s.operationBusy = false)
  (hallocated : s.httpRequest.allocated = false)

include h hallocated

theorem responseBytes_eq_none : s.httpRequest.responseBytes = none := by
  have hheld := h.held
  rw [hallocated] at hheld
  simpa using hheld.symm

theorem ledger_allocateResponse :
    Ledger s.allocateResponse.blocks s.allocateResponse.freed s.allocateResponse.responses
      (some s.blocks) (s.calls.flatMap fun frame => frame.loop.blocks) := by
  have hledger := h.ledger
  rw [responseBytes_eq_none h hallocated] at hledger
  exact hledger.take

include hbusy

theorem owned_refused : Owned (s.allocateResponse.clearRequest.kfree s.blocks) := by
  have hcalls := h.calls_eq_nil hbusy
  have hclient := h.client_eq_none hbusy
  constructor <;> dsimp only [NetworkService.kfree, NetworkService.clearRequest,
    NetworkService.allocateResponse, NetworkService.kmalloc]
  case busy =>
    have hactive : zero.active = false := rfl
    simp [hbusy, hcalls, hactive]
  case alone => exact fun _ => hcalls
  case single => exact h.single
  case requestClient => simp [hclient]
  case callClient => simp [hclient]
  case held => rfl
  case ledger => exact (ledger_allocateResponse h hallocated).give

theorem owned_launch {env : NetworkService.StartEnv} {bodyCapacity : ℕ} {followRedirects : Bool}
    {timeoutMs : UInt32} (url copy : CString) :
    Owned (s.allocateResponse.launch (s.newRequest env bodyCapacity followRedirects timeoutMs) url
      copy) := by
  have hcalls := h.calls_eq_nil hbusy
  have hclient := h.client_eq_none hbusy
  constructor
  case busy => exact ⟨fun _ => .inl rfl, fun _ => rfl⟩
  case alone => exact fun _ => hcalls
  case single => exact h.single
  case requestClient => exact fun hc => nomatch hclient.symm.trans hc
  case callClient => exact fun id hc => nomatch hclient.symm.trans hc
  case held => rfl
  case ledger => exact ledger_allocateResponse h hallocated

theorem owned_startRequest (env : NetworkService.StartEnv) (url : CString) (bodyCapacity : ℕ)
    (followRedirects : Bool) (timeoutMs : UInt32) :
    Owned (s.startRequest env url bodyCapacity followRedirects timeoutMs).2.2 := by
  unfold NetworkService.startRequest
  dsimp only
  split
  · exact owned_refused h hbusy hallocated
  split
  · exact owned_refused h hbusy hallocated
  split
  · exact owned_refused h hbusy hallocated
  · exact owned_launch h hbusy hallocated _ _

end Start

variable {s : NetworkService}

/-- A refusal leaves the service as it is. -/
theorem Owned.of_guard {c : Prop} [Decidable c] {r : NetworkResult} {handle : UInt64}
    {t : NetworkResult × UInt64 × NetworkService} (h : Owned s) (ht : ¬c → Owned t.2.2) :
    Owned (if c then (r, handle, s) else t).2.2 := by
  split
  · exact h
  next hc => exact ht hc

theorem Owned.networkHttpRequestStart (h : Owned s)
    (env : NetworkService.StartEnv) (url : Option CString) (bodyCapacity : ℕ)
    (followRedirects : Bool)
    (timeoutMs : UInt32) :
    Owned (s.networkHttpRequestStart env url bodyCapacity followRedirects timeoutMs).2.2 := by
  unfold NetworkService.networkHttpRequestStart
  split
  · exact h
  refine h.of_guard fun _ => h.of_guard fun _ => h.of_guard fun _ => h.of_guard fun _ => ?_
  split
  · exact h
  refine h.of_guard fun _ => h.of_guard fun _ => h.of_guard fun hfree => ?_
  refine h.of_guard fun _ => h.of_guard fun _ => ?_
  rw [Bool.or_eq_true, not_or, Bool.not_eq_true, Bool.not_eq_true] at hfree
  exact owned_startRequest h hfree.1 hfree.2 env _ _ _ _

/-! ### Blocking calls -/

/-- What holds while a blocking call runs, of everything but the flag and the calls. -/
structure InCall (s : NetworkService) (lent : List ℕ) : Prop where
  inactive : s.httpRequest.active = false
  held : s.httpRequest.allocated = s.httpRequest.responseBytes.isSome
  ledger : Ledger s.blocks s.freed s.responses s.httpRequest.responseBytes lent

/-- The blocks that a blocking call holds when it comes to its next poll. -/
def NetworkService.Progress.blocks : NetworkService.Progress → List ℕ
  | .waits loop => loop.blocks
  | .returns _ => []

/-- What a blocking call has done when it comes to its next poll. -/
structure After (id : ℕ) (s : NetworkService) (p : NetworkService.Progress) (s' : NetworkService) :
    Prop where
  inCall : InCall s' p.blocks
  client : s'.activeTcpClient = none ∨ s'.activeTcpClient = some (.call id) ∧ p.blocks ≠ []
  busy : s'.operationBusy = s.operationBusy
  calls : s'.calls = s.calls

theorem After.same {id : ℕ} {p : NetworkService.Progress} (h : InCall s [])
    (hclient : s.activeTcpClient = none) (hp : p.blocks = []) : After id s p s :=
  ⟨hp ▸ h, .inl hclient, rfl, rfl⟩

theorem Owned.of_inCall (frames : List Frame)
    (h : InCall s (frames.flatMap fun frame => frame.loop.blocks)) (hcalls : s.calls = frames)
    (hlength : frames.length ≤ 1) (hbusy : s.operationBusy = true ↔ frames ≠ [])
    (hclient : s.activeTcpClient = none ∨
      ∃ frame ∈ frames, s.activeTcpClient = some (.call frame.id) ∧ frame.loop.blocks ≠ []) :
        Owned s where
  busy := by simpa [h.inactive, hcalls] using hbusy
  alone ha := absurd ha (by simp [h.inactive])
  single := hcalls ▸ hlength
  requestClient hc := by
    rcases hclient with hnone | ⟨frame, -, hsome, -⟩
    · exact nomatch hnone.symm.trans hc
    · exact nomatch hsome.symm.trans hc
  callClient id hc := by
    rcases hclient with hnone | ⟨frame, hmem, hsome, hblocks⟩
    · exact nomatch hnone.symm.trans hc
    · refine ⟨frame, hcalls ▸ hmem, ?_, hblocks⟩
      simpa using hsome.symm.trans hc
  held := h.held
  ledger := hcalls ▸ h.ledger

namespace NetworkService

variable {s : NetworkService} {env : CallEnv} {id : ℕ}

theorem after_haveAddress (call : BlockingCall) (h : InCall s [])
    (hclient : s.activeTcpClient = none) :
    After id s (s.haveAddress env id call).1 (s.haveAddress env id call).2 := by
  unfold haveAddress
  split
  · exact .same h hclient rfl
  · exact .same h hclient rfl
  · exact .same h hclient (by split <;> rfl)
  split
  · exact .same h hclient rfl
  split
  · exact .same h hclient rfl
  split
  · exact ⟨⟨h.inactive, h.held, (h.ledger.lend 1).restore⟩, .inl hclient, rfl, rfl⟩
  exact ⟨⟨h.inactive, h.held, h.ledger.lend 2⟩, .inr ⟨rfl, cons_ne_nil _ _⟩, rfl, rfl⟩

theorem blocks_queryAddress : (queryAddress env).blocks = [] := by
  unfold queryAddress
  split <;> rfl

theorem blocks_requireConfiguration {timeoutMs : UInt32} {resolving : Bool} {p : Progress}
    (hp : s.requireConfiguration env timeoutMs resolving = some p) : p.blocks = [] := by
  unfold requireConfiguration at hp
  split at hp
  · exact some.inj hp ▸ rfl
  split at hp
  · exact nomatch hp
  split at hp
  · exact some.inj hp ▸ rfl
  · exact some.inj hp ▸ rfl

theorem after_resolveInternal (call : BlockingCall) (h : InCall s [])
    (hclient : s.activeTcpClient = none) :
    After id s (s.resolveInternal env id call).1 (s.resolveInternal env id call).2 := by
  unfold resolveInternal
  split
  · exact .same h hclient rfl
  split
  · exact .same h hclient rfl
  split
  · exact after_haveAddress call h hclient
  split
  · exact .same h hclient rfl
  split
  next hp => exact .same h hclient (blocks_requireConfiguration hp)
  · exact .same h hclient blocks_queryAddress

theorem after_enter (env : CallEnv) (id : ℕ) (call : BlockingCall) (h : InCall s [])
    (hclient : s.activeTcpClient = none) :
    After id s (s.enter env id call).1 (s.enter env id call).2 := by
  unfold enter
  split
  next timeoutMs =>
    split
    · exact .same h hclient rfl
    split
    · exact .same h hclient rfl
    refine .same h hclient ?_
    cases hp : s.requireConfiguration env timeoutMs false with
    | none => rfl
    | some p => exact blocks_requireConfiguration hp
  · exact after_resolveInternal _ h hclient
  · exact after_resolveInternal _ h hclient
  · split
    · exact .same h hclient rfl
    split
    next hp => exact .same h hclient (blocks_requireConfiguration hp)
    · exact after_resolveInternal _ h hclient

theorem after_proceed (env : CallEnv) {frame : Frame} (h : InCall s frame.loop.blocks)
    (hclient : s.activeTcpClient = none ∨
      s.activeTcpClient = some (.call frame.id) ∧ frame.loop.blocks ≠ []) :
    After frame.id s (s.proceed env frame).1 (s.proceed env frame).2 := by
  have hsame : After frame.id s (.waits frame.loop) s := ⟨h, hclient, rfl, rfl⟩
  have hidle (hblocks : frame.loop.blocks = []) : InCall s [] ∧ s.activeTcpClient = none :=
    ⟨hblocks ▸ h, hclient.resolve_right fun hc => hc.2 hblocks⟩
  unfold proceed
  split
  next startedAt timeoutMs resolving hloop =>
    obtain ⟨hin, hnone⟩ := hidle (by rw [hloop]; rfl)
    split
    · split
      · exact .same hin hnone rfl
      split
      · exact .same hin hnone blocks_queryAddress
      · exact after_resolveInternal _ hin hnone
    · split
      · exact hsame
      · exact .same hin hnone rfl
  next startedAt hloop =>
    obtain ⟨hin, hnone⟩ := hidle (by rw [hloop]; rfl)
    have hwait {c : Prop} [Decidable c] :
        After frame.id s (if c then (Progress.waits frame.loop, s) else (.returns .timeout, s)).1
          (if c then (Progress.waits frame.loop, s) else (.returns .timeout, s)).2 := by
      split
      · exact hsame
      · exact .same hin hnone rfl
    split
    · exact after_haveAddress _ hin hnone
    · exact .same hin hnone rfl
    · exact .same hin hnone rfl
    · exact .same hin hnone rfl
    · exact .same hin hnone rfl
    · exact hwait
    · exact hwait
  next startedAt hloop =>
    obtain ⟨hin, hnone⟩ := hidle (by rw [hloop]; rfl)
    split
    · exact .same hin hnone rfl
    split
    · exact hsame
    · exact .same hin hnone rfl
  next responseBytes requestBytes hloop =>
    split
    · exact hsame
    rw [hloop] at h
    have hledger : Ledger s.blocks s.freed s.responses s.httpRequest.responseBytes
        [requestBytes, responseBytes] := by
      refine ⟨h.ledger.responses_lt, h.ledger.freed_lt, fun b hb => h.ledger.lent_lt b ?_,
        h.ledger.held_mem, h.ledger.count⟩
      exact (Perm.swap responseBytes requestBytes []).mem_iff.1 hb
    exact ⟨⟨h.inactive, h.held, hledger.restore.restore⟩, .inl rfl, rfl, rfl⟩

end NetworkService

theorem Owned.beginCall (h : Owned s) (env : NetworkService.CallEnv)
    (call : BlockingCall) : Owned (s.beginCall env call).2 := by
  unfold NetworkService.beginCall
  split
  · exact h
  split
  · exact h
  rename_i hbusy
  have hbusy : s.operationBusy = false := by simpa using hbusy
  have hcalls := h.calls_eq_nil hbusy
  have hin : InCall { s with operationBusy := true, nextCall := s.nextCall + 1 } [] := by
    refine ⟨h.not_active hbusy, h.held, ?_⟩
    simpa [hcalls] using h.ledger
  have hafter := NetworkService.after_enter env s.nextCall call hin
    (h.client_eq_none hbusy)
  split
  next result s' heq =>
    rw [heq] at hafter
    have hcalls' : s'.calls = [] := hafter.calls.trans hcalls
    refine .of_inCall [] ⟨hafter.inCall.inactive, hafter.inCall.held, hafter.inCall.ledger⟩
      hcalls' (zero_le _) ⟨(nomatch ·), fun hne => absurd rfl hne⟩ (.inl ?_)
    exact hafter.client.resolve_right fun hc => hc.2 rfl
  next loop s' heq =>
    rw [heq] at hafter
    have hcalls' : s'.calls = [] := hafter.calls.trans hcalls
    have hin' := hafter.inCall
    refine .of_inCall [⟨s.nextCall, call, loop⟩] ⟨hin'.inactive, hin'.held, ?_⟩ ?_ le_rfl
      ⟨fun _ => cons_ne_nil _ _, fun _ => hafter.busy⟩ ?_
    · simpa [NetworkService.Progress.blocks] using hin'.ledger
    · exact congrArg _ hcalls'
    · exact hafter.client.imp_right fun hc => ⟨_, mem_cons_self, hc⟩

theorem Owned.resumeCall (h : Owned s) (env : NetworkService.CallEnv) (id : ℕ) :
    Owned (s.resumeCall env id).2 := by
  unfold NetworkService.resumeCall
  split
  · exact h
  rename_i frame hfind
  have hid : frame.id = id := by simpa using find?_some hfind
  -- the call is the only one in progress
  have hmem := mem_of_find?_eq_some hfind
  have hcalls := h.calls_eq_singleton hmem
  have hothers : s.calls.filter (·.id ≠ id) = [] := by simp [hcalls, hid]
  have hbusy : s.operationBusy = true := h.busy.2 (.inr (by simp [hcalls]))
  have hin : InCall s frame.loop.blocks :=
    ⟨h.not_active_of_mem hmem, h.held, by simpa [hcalls] using h.ledger⟩
  have hclient : s.activeTcpClient = none ∨
      s.activeTcpClient = some (.call frame.id) ∧ frame.loop.blocks ≠ [] := by
    cases hc : s.activeTcpClient with
    | none => exact .inl rfl
    | some owner =>
      cases owner with
      | request => exact absurd (h.requestClient hc) (by simp [hin.inactive])
      | call id' =>
        obtain ⟨other, hmem', hother, hblocks⟩ := h.callClient id' hc
        obtain rfl : other = frame := by simpa [hcalls] using hmem'
        exact .inr ⟨by rw [hother], hblocks⟩
  have hafter := NetworkService.after_proceed env hin hclient
  rw [hothers]
  split
  next result s' heq =>
    rw [heq] at hafter
    refine .of_inCall [] ⟨hafter.inCall.inactive, hafter.inCall.held, hafter.inCall.ledger⟩
      rfl (zero_le _) ⟨(nomatch ·), fun hne => absurd rfl hne⟩ (.inl ?_)
    exact hafter.client.resolve_right fun hc => hc.2 rfl
  next loop s' heq =>
    rw [heq] at hafter
    have hin' := hafter.inCall
    refine .of_inCall [{ frame with loop }] ⟨hin'.inactive, hin'.held, ?_⟩ rfl le_rfl
      ⟨fun _ => cons_ne_nil _ _, fun _ => hafter.busy.trans hbusy⟩ ?_
    · simpa [NetworkService.Progress.blocks] using hin'.ledger
    · exact hafter.client.imp_right fun hc => ⟨_, mem_cons_self, hc⟩

theorem owned_step (h : Owned s) (c : NetworkCall) : Owned (s.step c) := by
  cases c with
  | start env url bodyCapacity followRedirects timeoutMs =>
    exact h.networkHttpRequestStart env url bodyCapacity followRedirects timeoutMs
  | getStatus handle progress outputs => exact h
  | read response handle capacity offset outputs => exact h
  | cancel handle => exact h.networkHttpRequestCancel handle
  | close handle => exact h.networkHttpRequestClose handle
  | poll env => exact h.networkPoll env
  | call env call => exact h.beginCall env call
  | resume env id => exact h.resumeCall env id

theorem owned_run (h : Owned s) (calls : List NetworkCall) : Owned (s.run calls) := by
  induction calls generalizing s with
  | nil => exact h
  | cons c calls ih => exact ih (owned_step h c)

/-! ### What an event may release -/

/-- The operation that an event is part of. -/
def NetworkCall.actsFor : NetworkCall → Option Operation
  | .cancel _ | .close _ | .poll _ => some .request
  | .resume _ id => some (.call id)
  | .start _ _ _ _ _ | .getStatus _ _ _ | .read _ _ _ _ _ | .call _ _ => none

/-- What one event may do to the flag and to the TCP client of an operation. -/
structure ReleasesOwn (s : NetworkService) (c : NetworkCall) : Prop where
  /-- Only its owner clears the flag. -/
  flag : s.operationBusy = true → (s.step c).operationBusy = false →
    ∃ o ∈ s.owners, c.actsFor = some o
  /-- Only its operation takes the TCP client away. -/
  client : ∀ o, s.activeTcpClient = some o → (s.step c).activeTcpClient ≠ some o →
    c.actsFor = some o
  /-- A request that is over releases nothing. -/
  finished : s.httpRequest.active = false → c.actsFor = some .request →
    (s.step c).operationBusy = s.operationBusy ∧ (s.step c).activeTcpClient = s.activeTcpClient

section Release

variable {s : NetworkService} {c : NetworkCall}

theorem networkHttpRequestStart_of_busy (hbusy : s.operationBusy = true)
    (env : NetworkService.StartEnv) (url : Option CString) (bodyCapacity : ℕ)
    (followRedirects : Bool)
    (timeoutMs : UInt32) :
    (s.networkHttpRequestStart env url bodyCapacity followRedirects timeoutMs).2.2 = s := by
  unfold NetworkService.networkHttpRequestStart
  simp only [hbusy, Bool.true_or, if_true]
  repeat' split
  all_goals rfl

theorem beginCall_of_busy (hbusy : s.operationBusy = true) (env : NetworkService.CallEnv)
    (call : BlockingCall) : (s.beginCall env call).2 = s := by
  unfold NetworkService.beginCall
  split
  · rfl
  · rfl

/-- An event that is part of no operation changes nothing while there is an owner. -/
theorem step_of_busy (hbusy : s.operationBusy = true) (hc : c.actsFor = none) : s.step c = s := by
  cases c with
  | start env url bodyCapacity followRedirects timeoutMs =>
    exact networkHttpRequestStart_of_busy hbusy env url bodyCapacity followRedirects timeoutMs
  | getStatus handle progress outputs => rfl
  | read response handle capacity offset outputs => rfl
  | cancel handle => exact nomatch hc
  | close handle => exact nomatch hc
  | poll env => exact nomatch hc
  | call env call => exact beginCall_of_busy hbusy env call
  | resume env id => exact nomatch hc

/-- An event of a request that is over keeps the flag and the TCP client. -/
theorem step_of_not_active (hactive : s.httpRequest.active = false)
    (hc : c.actsFor = some .request) :
    (s.step c).operationBusy = s.operationBusy ∧
      (s.step c).activeTcpClient = s.activeTcpClient := by
  cases c with
  | cancel handle =>
    have hsame : s.step (.cancel handle) = s := by
      show (s.networkHttpRequestCancel handle).2 = s
      unfold NetworkService.networkHttpRequestCancel
      rw [hactive]
      split <;> rfl
    rw [hsame]
    exact ⟨rfl, rfl⟩
  | close handle =>
    show (s.networkHttpRequestClose handle).2.operationBusy = _ ∧
      (s.networkHttpRequestClose handle).2.activeTcpClient = _
    unfold NetworkService.networkHttpRequestClose
    rw [hactive]
    split
    · exact ⟨rfl, rfl⟩
    · dsimp only; split <;> exact ⟨rfl, rfl⟩
  | poll env =>
    have hsame : s.step (.poll env) = s := NetworkService.networkPoll_of_not_active hactive
    rw [hsame]
    exact ⟨rfl, rfl⟩
  | start env url bodyCapacity followRedirects timeoutMs => cases hc
  | getStatus handle progress outputs => cases hc
  | read response handle capacity offset outputs => cases hc
  | call env call => cases hc
  | resume env id => cases hc

/-- A blocking call that is not in progress does not go on. -/
theorem resumeCall_of_not_mem {env : NetworkService.CallEnv} {id : ℕ}
    (h : ∀ frame ∈ s.calls, frame.id ≠ id) : (s.resumeCall env id).2 = s := by
  have hfind : s.calls.find? (·.id = id) = none :=
    find?_eq_none.2 fun frame hmem => by simpa using h frame hmem
  unfold NetworkService.resumeCall
  rw [hfind]

/-- An event changes the flag or the TCP client of an owner only as a part of it. -/
theorem actsFor_of_ne (h : Owned s) (hbusy : s.operationBusy = true)
    (hne : (s.step c).operationBusy ≠ s.operationBusy ∨
      (s.step c).activeTcpClient ≠ s.activeTcpClient) : ∃ o, s.owners = [o] ∧
        c.actsFor = some o := by
  cases hc : c.actsFor with
  | none =>
    rw [step_of_busy hbusy hc] at hne
    simp at hne
  | some o =>
    cases o with
    | request =>
      cases hactive : s.httpRequest.active with
      | false =>
        obtain ⟨h1, h2⟩ := step_of_not_active hactive hc
        simp [h1, h2] at hne
      | true => exact ⟨.request, h.owners_of_active hactive, rfl⟩
    | call id =>
      obtain ⟨env, rfl⟩ : ∃ env, c = .resume env id := by
        cases c <;> simp_all [NetworkCall.actsFor]
      by_cases hmem : ∃ frame ∈ s.calls, frame.id = id
      · obtain ⟨frame, hmem, rfl⟩ := hmem
        exact ⟨.call frame.id, h.owners_of_mem hmem, rfl⟩
      · have hsame : s.step (.resume env id) = s :=
          resumeCall_of_not_mem fun frame hframe hid => hmem ⟨frame, hframe, hid⟩
        rw [hsame] at hne
        simp at hne

theorem owners_of_client (h : Owned s) {o : Operation} (hclient : s.activeTcpClient = some o) :
    s.owners = [o] := by
  cases o with
  | request => exact h.owners_of_active (h.requestClient hclient)
  | call id =>
    obtain ⟨frame, hmem, rfl, -⟩ := h.callClient id hclient
    exact h.owners_of_mem hmem

theorem busy_iff_owners (h : Owned s) : s.operationBusy = true ↔ s.owners ≠ [] := by
  rw [h.busy, NetworkService.owners]
  cases s.httpRequest.active <;> simp

theorem releasesOwn (h : Owned s) (c : NetworkCall) : ReleasesOwn s c where
  flag hbusy hclear := by
    have hne : (s.step c).operationBusy ≠ s.operationBusy := by simp [hbusy, hclear]
    obtain ⟨o, howners, hc⟩ := actsFor_of_ne h hbusy (.inl hne)
    exact ⟨o, by simp [howners], hc⟩
  client o hclient hne := by
    have howners := owners_of_client h hclient
    have hbusy : s.operationBusy = true := (busy_iff_owners h).2 (by simp [howners])
    obtain ⟨o', howners', hc⟩ := actsFor_of_ne h hbusy (.inr (by rwa [hclient]))
    rw [hc, singleton_inj.1 (howners'.symm.trans howners)]
  finished hactive hc := step_of_not_active hactive hc

end Release

/-! ### Runs -/

/-- The flag, the TCP client and the memory of the request are where they should be. -/
structure SingleOwner (s : NetworkService) : Prop where
  active_busy : s.httpRequest.active = true → s.operationBusy = true
  owners_length : s.owners.length ≤ 1
  busy_iff : s.operationBusy = true ↔ s.owners ≠ []
  client : ∀ o, s.activeTcpClient = some o → s.owners = [o]
  held : s.httpRequest.allocated = s.httpRequest.responseBytes.isSome
  held_mem : ∀ b, s.httpRequest.responseBytes = some b → b ∈ s.responses
  freed : ∀ b ∈ s.responses, s.freed.count b = if s.httpRequest.responseBytes = some b then 0 else 1

theorem Owned.singleOwner (h : Owned s) : SingleOwner s where
  active_busy hactive := h.busy.2 (.inl hactive)
  owners_length := by
    cases hactive : s.httpRequest.active with
    | true => exact (h.owners_of_active hactive).symm ▸ le_rfl
    | false => simpa [NetworkService.owners, hactive] using h.single
  busy_iff := busy_iff_owners h
  client o hclient := owners_of_client h hclient
  held := h.held
  held_mem := h.ledger.held_mem
  freed := h.ledger.count

/-- After any sequence of events, at most one operation owns the flag, the TCP client and the memory
of the request; and the next event, whatever it is, releases only what its own operation has. -/
theorem network_single_owner (stackReady : Bool) (calls : List NetworkCall) :
    SingleOwner ((NetworkService.boot stackReady).run calls) ∧
      ∀ c, ReleasesOwn ((NetworkService.boot stackReady).run calls) c :=
  have howned := owned_run (.boot stackReady) calls
  ⟨howned.singleOwner, releasesOwn howned⟩

end Nostalux.Network
