import Nostalux.Network.Request
import Mathlib.Logic.Relation

/-!
# What a poll does to the request

A poll takes the request through some of five moves: it changes nothing that matters here, its URL
parses and is to be resolved, a connection is attempted, a redirect is followed, or the request is
over.  `moves_drive` says that `network_http_request_drive` makes such moves only; what is to hold
of every request is then proved for one move.
-/

namespace Nostalux.Network

open Nostalux.Http Nostalux.Net Nostalux.Tcp

/-- How far a request has come with its current URL. -/
inductive Stage
  | unresolved
  | resolving
  | connected
  | over
  deriving DecidableEq

/-- The stage that a state belongs to. -/
def NetworkHttpRequestState.stage : NetworkHttpRequestState → Stage
  | .waiting | .configuring | .redirecting => .unresolved
  | .resolving => .resolving
  | .connecting | .sending | .receiving => .connected
  | .complete | .failed | .canceled => .over

/-- `network_http_request_active` in terms of the stage. -/
theorem NetworkHttpRequest.active_iff {r : NetworkHttpRequest} :
    r.active = true ↔ r.allocated = true ∧ r.state.stage ≠ .over := by
  unfold active
  cases r.allocated <;> cases r.state <;> decide

/-- The two requests have the same URL and history, and the same memory. -/
structure SameRequest (r r' : NetworkHttpRequest) : Prop where
  allocated : r'.allocated = r.allocated
  responseBytes : r'.responseBytes = r.responseBytes
  redirectCount : r'.redirectCount = r.redirectCount
  visitedCount : r'.visitedCount = r.visitedCount
  url : r'.url = r.url
  visited : r'.visited = r.visited

/-- Everything but the request, the flag and the TCP client is the same. -/
structure SameService (s s' : NetworkService) : Prop where
  calls : s'.calls = s.calls
  nextCall : s'.nextCall = s.nextCall
  blocks : s'.blocks = s.blocks
  freed : s'.freed = s.freed
  responses : s'.responses = s.responses

/-- One move of the request. -/
inductive Move (s s' : NetworkService) : Prop
  | settle (service : SameService s s') (request : SameRequest s.httpRequest s'.httpRequest)
      (attempted : s'.httpRequest.attempted = s.httpRequest.attempted)
      (busy : s'.operationBusy = s.operationBusy) (client : s'.activeTcpClient = s.activeTcpClient)
      (stage : s'.httpRequest.state.stage = s.httpRequest.state.stage)
  | resolve (service : SameService s s') (request : SameRequest s.httpRequest s'.httpRequest)
      (attempted : s'.httpRequest.attempted = s.httpRequest.attempted)
      (busy : s'.operationBusy = s.operationBusy) (client : s'.activeTcpClient = s.activeTcpClient)
      (before : s.httpRequest.state.stage = .unresolved)
      (after : s'.httpRequest.state.stage = .resolving)
      (parses : (networkParseHttpUrl s.httpRequest.url).isSome)
  | connect (service : SameService s s') (request : SameRequest s.httpRequest s'.httpRequest)
      (attempted : s'.httpRequest.attempted = s.httpRequest.attempted ++ [s.httpRequest.url])
      (busy : s'.operationBusy = s.operationBusy) (client : s'.activeTcpClient = some .request)
      (before : s.httpRequest.state.stage = .resolving)
      (after : s'.httpRequest.state.stage = .connected)
  | redirect (url : CString) (eq : s' = s.redirectTo url)
      (before : s.httpRequest.state.stage = .connected)
      (count : s.httpRequest.redirectCount < networkHttpRedirectLimit)
      (fresh : ∀ i < s.httpRequest.visitedCount, s.httpRequest.visited i ≠ url)
      (normal : ∃ text, networkNormalizeHttpUrlPath text = some url)
  | finish (state : NetworkHttpRequestState) (result : NetworkResult)
      (eq : s' = s.finish state result)
      (before : s.httpRequest.state.stage ≠ .over) (after : state.stage = .over)

/-- A sequence of moves. -/
abbrev Moves : NetworkService → NetworkService → Prop := Relation.ReflTransGen Move

namespace NetworkService

variable {s : NetworkService} {env : DriveEnv}

/-- A request that is not over may fail at any time. -/
theorem moves_fail (result : NetworkResult) (h : s.httpRequest.state.stage ≠ .over) :
    Moves s (s.fail result) :=
  .single (.finish .failed _ rfl h rfl)

/-- A step of the TCP client that failed ends the request. -/
theorem moves_checkStep (step : TcpClientStepResult) (h : s.httpRequest.state.stage ≠ .over) :
    Moves s (s.checkStep env step) := by
  unfold checkStep
  split
  · exact moves_fail _ h
  · exact .refl

/-- A move that changes nothing but buffers and the state within a stage. -/
theorem move_settle {r : NetworkHttpRequest} (hr : SameRequest s.httpRequest r)
    (hattempted : r.attempted = s.httpRequest.attempted)
    (hstage : r.state.stage = s.httpRequest.state.stage) : Move s { s with httpRequest := r } :=
  .settle ⟨rfl, rfl, rfl, rfl, rfl⟩ hr hattempted rfl rfl hstage

/-! ### The moves of the setters -/

theorem move_setRemoteIp (address : UInt32) : Move s (s.setRemoteIp address) :=
  move_settle ⟨rfl, rfl, rfl, rfl, rfl, rfl⟩ rfl rfl

theorem move_setDnsStarted (started : Bool) : Move s (s.setDnsStarted started) :=
  move_settle ⟨rfl, rfl, rfl, rfl, rfl, rfl⟩ rfl rfl

theorem move_setRequestLength (length : ℕ) : Move s (s.setRequestLength length) :=
  move_settle ⟨rfl, rfl, rfl, rfl, rfl, rfl⟩ rfl rfl

theorem move_setHttpStatus (status : ℕ) : Move s (s.setHttpStatus status) :=
  move_settle ⟨rfl, rfl, rfl, rfl, rfl, rfl⟩ rfl rfl

theorem move_setBody (offset length : ℕ) : Move s (s.setBody offset length) :=
  move_settle ⟨rfl, rfl, rfl, rfl, rfl, rfl⟩ rfl rfl

theorem move_setReceivePhase (phase : NetworkHttpReceivePhase) : Move s (s.setReceivePhase phase) :=
  move_settle ⟨rfl, rfl, rfl, rfl, rfl, rfl⟩ rfl rfl

theorem move_countChunk : Move s s.countChunk :=
  move_settle ⟨rfl, rfl, rfl, rfl, rfl, rfl⟩ rfl rfl

theorem move_awaitPeer (h : s.httpRequest.state.stage = .connected) : Move s s.awaitPeer :=
  move_settle ⟨rfl, rfl, rfl, rfl, rfl, rfl⟩ rfl h.symm

theorem move_nextChunk (h : s.httpRequest.state.stage = .connected) : Move s s.nextChunk :=
  move_settle ⟨rfl, rfl, rfl, rfl, rfl, rfl⟩ rfl h.symm

theorem move_awaitConfiguration (h : s.httpRequest.state.stage = .unresolved) :
    Move s s.awaitConfiguration :=
  move_settle ⟨rfl, rfl, rfl, rfl, rfl, rfl⟩ rfl h.symm

/-- The URL of a request that is resolved is attempted. -/
theorem move_connect (h : s.httpRequest.state.stage = .resolving) : Move s s.connect :=
  .connect ⟨rfl, rfl, rfl, rfl, rfl⟩ ⟨rfl, rfl, rfl, rfl, rfl, rfl⟩ rfl rfl rfl h rfl

/-- The URL of the request parses, and its host is to be resolved. -/
theorem move_resolve {parsed : NetworkUrl} (h : s.httpRequest.state.stage = .unresolved)
    (hparsed : networkParseHttpUrl s.httpRequest.url = some parsed) : Move s (s.resolve parsed) :=
  .resolve ⟨rfl, rfl, rfl, rfl, rfl⟩ ⟨rfl, rfl, rfl, rfl, rfl, rfl⟩ rfl rfl rfl h rfl
    (hparsed ▸ rfl)

/-! ### The moves of a drive -/

theorem ne_over_of_unresolved (h : s.httpRequest.state.stage = .unresolved) :
    s.httpRequest.state.stage ≠ .over :=
  h ▸ by decide

theorem ne_over_of_resolving (h : s.httpRequest.state.stage = .resolving) :
    s.httpRequest.state.stage ≠ .over :=
  h ▸ by decide

theorem ne_over_of_connected (h : s.httpRequest.state.stage = .connected) :
    s.httpRequest.state.stage ≠ .over :=
  h ▸ by decide

/-- The connection is begun, unless the TCP client refuses the timeouts. -/
theorem moves_beginConnect (h : s.httpRequest.state.stage = .resolving) :
    Moves s (s.beginConnect env) := by
  unfold beginConnect
  split
  · exact moves_fail _ (ne_over_of_resolving h)
  · exact .head (move_connect h) (moves_checkStep _ (ne_over_of_connected rfl))

theorem moves_beginResolution (h : s.httpRequest.state.stage = .unresolved) :
    Moves s (s.beginResolution env) := by
  unfold beginResolution
  split
  · exact moves_fail _ (ne_over_of_unresolved h)
  rename_i parsed hparsed
  have hresolve := move_resolve h hparsed
  split
  next address _ =>
    exact .head hresolve (.head (move_setRemoteIp address) (moves_beginConnect rfl))
  · split
    · exact .head hresolve (moves_fail _ (ne_over_of_resolving rfl))
    · exact .head hresolve (.single (move_setDnsStarted true))

section

variable (h : s.httpRequest.state.stage = .connected)
include h

theorem moves_sendChunk : Moves s (s.sendChunk env) := by
  unfold sendChunk
  split
  · exact .head (move_awaitPeer h) (moves_checkStep _ (ne_over_of_connected rfl))
  · exact .head (move_nextChunk h) (moves_checkStep _ (ne_over_of_connected rfl))

theorem moves_beginSend : Moves s (s.beginSend env) := by
  unfold beginSend
  split
  · split
    · exact moves_fail _ (ne_over_of_connected h)
    next request _ => exact .head (move_setRequestLength request.length) (moves_sendChunk h)
  · exact moves_sendChunk h

/-- The poll of a request that connects or sends. -/
theorem moves_driveSending : Moves s (s.driveSending env) := by
  unfold driveSending
  split
  · exact moves_fail _ (ne_over_of_connected h)
  · exact .refl
  split
  · exact moves_beginSend h
  · exact .head move_countChunk (moves_beginSend h)

end

/-- The poll of a request whose host is being resolved. -/
theorem moves_driveResolving (h : s.httpRequest.state.stage = .resolving) :
    Moves s (s.driveResolving env) := by
  have hfail (result : NetworkResult) : Moves s ((s.setDnsStarted false).fail result) :=
    .head (move_setDnsStarted false) (moves_fail _ (ne_over_of_resolving h))
  unfold driveResolving
  split
  · exact .head (move_setRemoteIp env.dnsAddress)
      (.head (move_setDnsStarted false) (moves_beginConnect h))
  · exact hfail _
  · exact hfail _
  · exact hfail _
  · exact hfail _
  · exact .refl
  · exact .refl

/-- The poll of a request that waits for the network. -/
theorem moves_driveConfiguring (h : s.httpRequest.state.stage = .unresolved) :
    Moves s (s.driveConfiguring env) := by
  unfold driveConfiguring
  split
  · split
    · exact moves_fail _ (ne_over_of_unresolved h)
    · exact .single (move_awaitConfiguration h)
  · exact moves_beginResolution h

/-- A redirect is followed to a normal URL that was not visited yet, within the limit. -/
theorem moves_followRedirect {response : HttpResponse}
    (h : s.httpRequest.state.stage = .connected) :
    Moves s (s.followRedirect env response) := by
  have hfail (result : NetworkResult) : Moves s (s.fail result) :=
    moves_fail result (ne_over_of_connected h)
  unfold followRedirect
  dsimp only
  split
  · exact hfail _
  rename_i hcount
  split
  · exact hfail _
  split
  · exact hfail _
  split
  · exact hfail _
  · exact hfail _
  rename_i redirected hresolved
  split
  · exact hfail _
  rename_i hvisited
  split
  · exact hfail _
  rename_i url hcopy
  have hurl : url = redirected := eq_of_networkCopyText hcopy
  refine .single (.redirect url rfl h (not_le.1 hcount) ?_ ?_)
  · intro i hi heq
    refine hvisited (Bool.or_eq_true_iff.2 (.inl ?_))
    exact List.any_eq_true.2
      ⟨i, List.mem_range.2 hi, networkTextEqual_iff.2 (heq.trans hurl)⟩
  · exact hurl ▸ normal_of_networkResolveRedirectUrl hresolved

/-- The response is complete: a redirect is followed, or the request is over. -/
theorem moves_parseCompletedResponse (h : s.httpRequest.state.stage = .connected) :
    Moves s (s.parseCompletedResponse env) := by
  unfold parseCompletedResponse
  split
  · exact moves_fail _ (ne_over_of_connected h)
  rename_i response _
  refine .head (move_setHttpStatus response.statusCode) ?_
  dsimp only
  split
  · exact moves_followRedirect h
  unfold completeResponse
  dsimp only
  split
  · exact moves_fail _ (ne_over_of_connected h)
  exact .head (move_setBody _ _) (.single (.finish .complete .ok rfl (ne_over_of_connected h) rfl))

/-- The poll of a request that receives. -/
theorem moves_driveReceiving (h : s.httpRequest.state.stage = .connected) :
    Moves s (s.driveReceiving env) := by
  unfold driveReceiving
  split
  · exact moves_fail _ (ne_over_of_connected h)
  · exact .refl
  split
  · refine .head (move_setReceivePhase .closingConnection) ?_
    split
    · exact moves_fail _ (ne_over_of_connected h)
    · exact .refl
    · exact moves_parseCompletedResponse h
  · exact moves_parseCompletedResponse h

theorem drive_of_not_active (h : s.httpRequest.active = false) : s.drive env = s := by
  unfold drive
  rw [h]
  rfl

/-- Whatever the state is, a drive takes the request through moves only. -/
theorem moves_drive : Moves s (s.drive env) := by
  unfold drive
  split
  · exact .refl
  rename_i hactive
  have hover : s.httpRequest.state.stage ≠ .over :=
    (NetworkHttpRequest.active_iff.1 (by simpa using hactive)).2
  split
  · exact moves_fail _ hover
  split
  · exact moves_fail _ hover
  split
  · exact moves_fail _ hover
  split
  · exact moves_fail _ hover
  split
  next hstate => exact moves_driveConfiguring (hstate ▸ rfl)
  next hstate => exact moves_driveConfiguring (hstate ▸ rfl)
  next hstate => exact moves_driveResolving (hstate ▸ rfl)
  next hstate => exact moves_driveSending (hstate ▸ rfl)
  next hstate => exact moves_driveSending (hstate ▸ rfl)
  next hstate => exact moves_driveReceiving (hstate ▸ rfl)
  next hstate => exact moves_beginResolution (hstate ▸ rfl)
  · exact .refl
  · exact .refl
  · exact .refl

theorem networkPoll_of_not_active (h : s.httpRequest.active = false) : s.networkPoll env = s := by
  unfold networkPoll
  split
  · rfl
  · exact drive_of_not_active h

theorem moves_networkPoll : Moves s (s.networkPoll env) := by
  unfold networkPoll
  split
  · exact .refl
  · exact moves_drive

end NetworkService

end Nostalux.Network
