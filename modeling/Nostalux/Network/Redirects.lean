import Nostalux.Network.Moves

/-!
# Chains of redirects

The URLs of a request are those in `visited`: the first is the one it was started with, the last is
the current one, and no two are equal.  A connection is attempted once for each of them, in order,
after it has been accepted by `network_parse_http_url`.

`Chain` is the invariant of a request, `chain_run` says that runs keep it, and
`redirect_chain_bounded` is the result.
-/

namespace Nostalux.Network

open List Function

/-- The invariant of a request that is allocated. -/
structure Chain (r : NetworkHttpRequest) : Prop where
  count : r.visitedCount = r.redirectCount + 1
  limit : r.redirectCount ≤ networkHttpRedirectLimit
  current : r.visited (r.visitedCount - 1) = r.url
  distinct : ∀ i < r.visitedCount, ∀ j < r.visitedCount, r.visited i = r.visited j → i = j
  normal : ∀ i < r.visitedCount, ∃ text, networkNormalizeHttpUrlPath text = some (r.visited i)
  /-- The current URL is not attempted before it is resolved. -/
  attempted : r.attempted = (List.range (if r.state.stage = .connected then r.visitedCount
      else r.visitedCount - 1)).map r.visited ∨
    r.state.stage = .over ∧ r.attempted = (List.range r.visitedCount).map r.visited
  accepted : ∀ url ∈ r.attempted, (networkParseHttpUrl url).isSome
  /-- A URL that is being resolved has been accepted. -/
  resolving : r.state.stage = .resolving → (networkParseHttpUrl r.url).isSome

namespace Chain

variable {s s' : NetworkService} {r r' : NetworkHttpRequest}

section

variable (h : Chain r)
include h

theorem visitedCount_pos : 0 < r.visitedCount := h.count ▸ Nat.succ_pos _

/-- The number of URLs that have been attempted. -/
theorem exists_attempted : ∃ n ≤ r.visitedCount, r.attempted = (range n).map r.visited := by
  rcases h.attempted with hattempted | ⟨-, hattempted⟩
  · refine ⟨_, ?_, hattempted⟩
    split <;> omega
  · exact ⟨_, le_rfl, hattempted⟩

theorem nodup_attempted : r.attempted.Nodup := by
  obtain ⟨n, hn, hattempted⟩ := h.exists_attempted
  rw [hattempted]
  refine Nodup.map_on ?_ nodup_range
  intro i hi j hj heq
  exact h.distinct i ((mem_range.1 hi).trans_le hn) j ((mem_range.1 hj).trans_le hn) heq

theorem length_attempted_le : r.attempted.length ≤ networkHttpVisitedCapacity := by
  obtain ⟨n, hn, hattempted⟩ := h.exists_attempted
  have hcount := h.count
  have hlimit : r.redirectCount ≤ 5 := h.limit
  rw [hattempted, length_map, length_range]
  show n ≤ 6
  omega

theorem normal_of_mem {url : CString} (hurl : url ∈ r.attempted) :
    ∃ text, networkNormalizeHttpUrlPath text = some url := by
  obtain ⟨n, hn, hattempted⟩ := h.exists_attempted
  rw [hattempted] at hurl
  obtain ⟨i, hi, rfl⟩ := mem_map.1 hurl
  exact h.normal i ((mem_range.1 hi).trans_le hn)

/-- The URLs attempted before the current one, when it is not attempted yet. -/
theorem attempted_eq (hconnected : r.state.stage ≠ .connected) (hover : r.state.stage ≠ .over) :
    r.attempted = (range (r.visitedCount - 1)).map r.visited := by
  simpa [hconnected, hover] using h.attempted

theorem attempted_eq_of_connected (hconnected : r.state.stage = .connected) :
    r.attempted = (range r.visitedCount).map r.visited := by
  simpa [hconnected] using h.attempted

/-- The invariant after a change that keeps the URLs. -/
theorem of_sameRequest (hr : SameRequest r r') (hattempted' : r'.attempted =
      (range (if r'.state.stage = .connected then r'.visitedCount else r'.visitedCount - 1)).map
        r'.visited ∨
      r'.state.stage = .over ∧ r'.attempted = (range r'.visitedCount).map r'.visited)
    (haccepted : ∀ url ∈ r'.attempted, (networkParseHttpUrl url).isSome)
    (hresolving : r'.state.stage = .resolving → (networkParseHttpUrl r'.url).isSome) :
      Chain r' where
  count := by rw [hr.visitedCount, hr.redirectCount]; exact h.count
  limit := by rw [hr.redirectCount]; exact h.limit
  current := by rw [hr.visitedCount, hr.visited, hr.url]; exact h.current
  distinct := by rw [hr.visitedCount, hr.visited]; exact h.distinct
  normal := by rw [hr.visitedCount, hr.visited]; exact h.normal
  attempted := hattempted'
  accepted := haccepted
  resolving := hresolving

end

/-- A redirect to a URL that has not been visited. -/
theorem redirectTo (h : Chain s.httpRequest) {url : CString}
    (hstage : s.httpRequest.state.stage = .connected)
    (hcount : s.httpRequest.redirectCount < networkHttpRedirectLimit)
    (hfresh : ∀ i < s.httpRequest.visitedCount, s.httpRequest.visited i ≠ url)
    (hnormal : ∃ text, networkNormalizeHttpUrlPath text = some url) :
    Chain (s.redirectTo url).httpRequest := by
  set r := s.httpRequest with hr
  have hold {i : ℕ} (hi : i < r.visitedCount) :
      (s.redirectTo url).httpRequest.visited i = r.visited i := update_of_ne hi.ne _ _
  have hnew : (s.redirectTo url).httpRequest.visited r.visitedCount = url := update_self _ _ _
  constructor
  case count => exact congrArg (· + 1) h.count
  case limit => exact hcount
  case current => exact hnew
  case distinct =>
    intro i hi j hj heq
    rcases Nat.lt_succ_iff_lt_or_eq.1 hi with hi | rfl <;>
      rcases Nat.lt_succ_iff_lt_or_eq.1 hj with hj | rfl
    · rw [hold hi, hold hj] at heq
      exact h.distinct i hi j hj heq
    · rw [hold hi, hnew] at heq
      exact absurd heq (hfresh i hi)
    · rw [hold hj, hnew] at heq
      exact absurd heq.symm (hfresh j hj)
    · rfl
  case normal =>
    intro i hi
    rcases Nat.lt_succ_iff_lt_or_eq.1 hi with hi | rfl
    · rw [hold hi]
      exact h.normal i hi
    · rw [hnew]
      exact hnormal
  case attempted =>
    refine .inl ((h.attempted_eq_of_connected hstage).trans ?_)
    exact map_congr_left fun i hi => (hold (mem_range.1 hi)).symm
  case accepted => exact h.accepted
  case resolving => exact (nomatch ·)

theorem move (h : Chain s.httpRequest) (hmove : Move s s') : Chain s'.httpRequest := by
  cases hmove with
  | settle _ hr hattempted _ _ hstage =>
    refine h.of_sameRequest hr ?_ (hattempted ▸ h.accepted) ?_
    · rw [hattempted, hstage, hr.visitedCount, hr.visited]
      exact h.attempted
    · rw [hstage, hr.url]
      exact h.resolving
  | resolve _ hr hattempted _ _ hbefore hafter hparses =>
    refine h.of_sameRequest hr (.inl ?_) (hattempted ▸ h.accepted) fun _ => hr.url ▸ hparses
    rw [hattempted, hafter, hr.visitedCount, hr.visited]
    exact h.attempted_eq (by simp [hbefore]) (by simp [hbefore])
  | connect _ hr hattempted _ _ hbefore hafter =>
    refine h.of_sameRequest hr (.inl ?_) ?_ fun hstage => nomatch hafter.symm.trans hstage
    · -- the current URL is the last one
      rw [hattempted, hafter, if_pos rfl, hr.visitedCount, hr.visited,
        h.attempted_eq (by simp [hbefore]) (by simp [hbefore]), ← h.current]
      obtain ⟨n, hn⟩ := Nat.exists_eq_add_of_lt h.visitedCount_pos
      rw [hn]
      simp [range_succ]
    · rw [hattempted]
      intro url hurl
      rcases mem_append.1 hurl with hurl | hurl
      · exact h.accepted url hurl
      · exact mem_singleton.1 hurl ▸ h.resolving hbefore
  | redirect url heq hbefore hcount hfresh hnormal =>
    exact heq ▸ h.redirectTo hbefore hcount hfresh hnormal
  | finish state result heq hbefore hafter =>
    subst heq
    refine h.of_sameRequest ⟨rfl, rfl, rfl, rfl, rfl, rfl⟩ ?_ h.accepted fun hstage =>
      nomatch hafter.symm.trans hstage
    have hstate : (s.finish state result).httpRequest.state.stage = .over := hafter
    rw [hstate]
    rcases h.attempted with hattempted | ⟨hstage, -⟩
    · by_cases hconnected : s.httpRequest.state.stage = .connected
      · rw [if_pos hconnected] at hattempted
        exact .inr ⟨rfl, hattempted⟩
      · rw [if_neg hconnected] at hattempted
        exact .inl hattempted
    · exact absurd hstage hbefore

theorem moves (h : Chain s.httpRequest) (hmoves : Moves s s') : Chain s'.httpRequest := by
  induction hmoves with
  | refl => exact h
  | tail _ hmove ih => exact ih.move hmove

/-- The request that `network_http_request_start` sets up. -/
theorem launch {env : NetworkService.StartEnv} {bodyCapacity : ℕ} {followRedirects : Bool}
    {timeoutMs : UInt32} {url copy : CString} {t : NetworkService}
    (hnormal : ∃ text, networkNormalizeHttpUrlPath text = some url) (hcopy : copy = url) :
    Chain (t.launch (s.newRequest env bodyCapacity followRedirects timeoutMs) url
      copy).httpRequest := by
  subst hcopy
  have hfirst : (t.launch (s.newRequest env bodyCapacity followRedirects timeoutMs) copy
      copy).httpRequest.visited 0 = copy := by
    show update (fun _ => CString.empty) 0 copy 0 = copy
    exact update_self ..
  constructor
  case count => rfl
  case limit => exact Nat.zero_le _
  case current => exact hfirst
  case distinct =>
    intro i hi j hj _
    rw [Nat.lt_one_iff.1 hi, Nat.lt_one_iff.1 hj]
  case normal =>
    intro i hi
    rw [Nat.lt_one_iff.1 hi, hfirst]
    exact hnormal
  case attempted => exact .inl rfl
  case accepted => exact fun _ hurl => nomatch hurl
  case resolving => exact (nomatch ·)

end Chain

/-! ### Runs -/

/-- The request is zeroed, or its URLs form a chain. -/
def ChainOrZero (s : NetworkService) : Prop := s.httpRequest = .zero ∨ Chain s.httpRequest

namespace NetworkService

variable {s : NetworkService}

theorem chain_startRequest (env : StartEnv) (url : CString) (bodyCapacity : ℕ)
    (followRedirects : Bool) (timeoutMs : UInt32) :
    ChainOrZero (s.startRequest env url bodyCapacity followRedirects timeoutMs).2.2 := by
  unfold startRequest
  dsimp only
  split
  · exact .inl rfl
  split
  · exact .inl rfl
  rename_i hnormal
  split
  · exact .inl rfl
  next hcopy => exact .inr (.launch ⟨_, hnormal⟩ (eq_of_networkCopyText hcopy))

section

variable (h : ChainOrZero s)
include h

theorem chain_networkHttpRequestStart (env : StartEnv) (url : Option CString)
    (bodyCapacity : ℕ) (followRedirects : Bool) (timeoutMs : UInt32) :
    ChainOrZero (s.networkHttpRequestStart env url bodyCapacity followRedirects timeoutMs).2.2 := by
  unfold networkHttpRequestStart
  repeat' split
  all_goals first
    | exact h
    | exact chain_startRequest env _ bodyCapacity followRedirects timeoutMs

theorem chain_networkHttpRequestCancel (handle : UInt64) :
    ChainOrZero (s.networkHttpRequestCancel handle).2 := by
  unfold networkHttpRequestCancel
  split
  · exact h
  split
  · exact h
  rename_i hactive
  have hactive : s.httpRequest.active = true := by simpa using hactive
  rcases h with hzero | hchain
  · exact absurd hactive (by rw [hzero]; decide)
  · exact .inr (hchain.move
      (.finish .canceled .canceled rfl (NetworkHttpRequest.active_iff.1 hactive).2 rfl))

theorem chain_networkHttpRequestClose (handle : UInt64) :
    ChainOrZero (s.networkHttpRequestClose handle).2 := by
  unfold networkHttpRequestClose
  split
  · exact h
  dsimp only
  split
  · exact .inl rfl
  · exact .inl rfl

theorem chain_networkPoll (env : DriveEnv) : ChainOrZero (s.networkPoll env) := by
  rcases h with hzero | hchain
  · have hactive : s.httpRequest.active = false := by rw [hzero]; rfl
    rw [networkPoll_of_not_active hactive]
    exact .inl hzero
  · exact .inr (hchain.moves moves_networkPoll)

end

/-! Blocking calls do not touch the request. -/

variable (env : CallEnv)

section

variable (id : ℕ) (call : BlockingCall)

theorem httpRequest_haveAddress : (s.haveAddress env id call).2.httpRequest = s.httpRequest := by
  unfold haveAddress
  repeat' split
  all_goals rfl

theorem httpRequest_resolveInternal :
    (s.resolveInternal env id call).2.httpRequest = s.httpRequest := by
  unfold resolveInternal
  repeat' split
  all_goals first
    | rfl
    | exact httpRequest_haveAddress env id call

theorem httpRequest_enter : (s.enter env id call).2.httpRequest = s.httpRequest := by
  unfold enter
  repeat' split
  all_goals first
    | rfl
    | exact httpRequest_resolveInternal env id _

end

theorem httpRequest_proceed (frame : Frame) :
    (s.proceed env frame).2.httpRequest = s.httpRequest := by
  unfold proceed
  repeat' split
  all_goals first
    | rfl
    | exact httpRequest_resolveInternal env frame.id _
    | exact httpRequest_haveAddress env frame.id _

theorem httpRequest_beginCall (call : BlockingCall) :
    (s.beginCall env call).2.httpRequest = s.httpRequest := by
  unfold beginCall
  split
  · rfl
  split
  · rfl
  have hrequest :=
    httpRequest_enter (s := { s with operationBusy := true, nextCall := s.nextCall + 1 })
    env s.nextCall call
  split
  next heq => rw [heq] at hrequest; exact hrequest
  next heq => rw [heq] at hrequest; exact hrequest

theorem httpRequest_resumeCall (id : ℕ) : (s.resumeCall env id).2.httpRequest = s.httpRequest := by
  unfold resumeCall
  split
  · rfl
  rename_i frame _
  have hrequest := httpRequest_proceed (s := s) env frame
  split
  next heq => rw [heq] at hrequest; exact hrequest
  next heq => rw [heq] at hrequest; exact hrequest

theorem chain_step (h : ChainOrZero s) (c : NetworkCall) : ChainOrZero (s.step c) := by
  cases c with
  | start env url bodyCapacity followRedirects timeoutMs =>
    exact chain_networkHttpRequestStart h env url bodyCapacity followRedirects timeoutMs
  | getStatus handle progress outputs => exact h
  | read response handle capacity offset outputs => exact h
  | cancel handle => exact chain_networkHttpRequestCancel h handle
  | close handle => exact chain_networkHttpRequestClose h handle
  | poll env => exact chain_networkPoll h env
  | call env call =>
    show (s.beginCall env call).2.httpRequest = _ ∨ Chain (s.beginCall env call).2.httpRequest
    rw [httpRequest_beginCall]
    exact h
  | resume env id =>
    show (s.resumeCall env id).2.httpRequest = _ ∨ Chain (s.resumeCall env id).2.httpRequest
    rw [httpRequest_resumeCall]
    exact h

theorem chain_run (h : ChainOrZero s) (calls : List NetworkCall) : ChainOrZero (s.run calls) := by
  induction calls generalizing s with
  | nil => exact h
  | cons c calls ih => exact ih (chain_step h c)

end NetworkService

theorem startsWith_of_networkParseHttpUrl {url : CString} (h : (networkParseHttpUrl url).isSome) :
    networkStartsWithCi url httpScheme = true := by
  by_contra hne
  have hnone : networkParseHttpUrl url = none := by
    unfold networkParseHttpUrl
    rw [if_pos (by simp [hne])]
  rw [hnone] at h
  exact nomatch h

/-- The URLs that a request connects for, and those it has visited. -/
structure BoundedChain (r : NetworkHttpRequest) : Prop where
  nodup : r.attempted.Nodup
  length_le : r.attempted.length ≤ 6
  redirectCount_le : r.redirectCount ≤ 5
  visitedCount : r.active = true → r.visitedCount = r.redirectCount + 1
  current : r.active = true → r.visited (r.visitedCount - 1) = r.url
  normal : ∀ url ∈ r.attempted, ∃ text, networkNormalizeHttpUrlPath text = some url
  accepted : ∀ url ∈ r.attempted,
    networkStartsWithCi url httpScheme = true ∧ (networkParseHttpUrl url).isSome

theorem ChainOrZero.boundedChain {s : NetworkService} (h : ChainOrZero s) :
    BoundedChain s.httpRequest := by
  rcases h with hzero | hchain
  · rw [hzero]
    exact ⟨nodup_nil, Nat.zero_le _, Nat.zero_le _, (nomatch ·), (nomatch ·),
      fun _ hurl => (nomatch hurl), fun _ hurl => (nomatch hurl)⟩
  · exact ⟨hchain.nodup_attempted, hchain.length_attempted_le, hchain.limit, fun _ => hchain.count,
      fun _ => hchain.current, fun _ => hchain.normal_of_mem,
      fun url hurl => ⟨startsWith_of_networkParseHttpUrl (hchain.accepted url hurl),
        hchain.accepted url hurl⟩⟩

/-- Whatever the servers, the resolver and the clock answer, a request connects for at most six
URLs, all different in normal form and all `http` URLs, and follows at most five redirects. -/
theorem redirect_chain_bounded (stackReady : Bool) (calls : List NetworkCall) :
    BoundedChain ((NetworkService.boot stackReady).run calls).httpRequest :=
  (NetworkService.chain_run (.inl rfl) calls).boundedChain

end Nostalux.Network
