import Nostalux.App.Network

/-!
# The owner of the network request

From the calls and the values that they return one can tell who owns the request: the process that
has started it, under the handle it was given, until the request is closed or the process is
released.  The record of the layer agrees with that.

* `ownerAfter`: the owner, as the values returned show it;
* `Retained`: what the record and the network service have in common, kept by every call;
* `app_network_request_ownership`: the result about runs.
-/

namespace Nostalux.App

open Nostalux.Network AppNetwork List

/-! ### The owner -/

/-- The owner after a call and the value that it has returned. -/
def ownerAfter (owner : Option (UInt64 × UInt64)) :
    AppNetworkCall × UInt64 → Option (UInt64 × UInt64)
  | (.dispatch _ _ processId _ (.httpStart _ _), value) =>
    if value ≤ int64Max then some (processId, value) else owner
  | (.dispatch _ _ _ _ (.requestClose _), value) => if value = 0 then none else owner
  | (.releaseProcess _ processId, _) => if owner.any (·.1 = processId) then none else owner
  | (.dispatch _ _ _ _ (.requestStatus _ _ _), _) | (.dispatch _ _ _ _ (.requestRead _ _ _ _), _)
  | (.dispatch _ _ _ _ (.requestCancel _), _) | (.dispatch _ _ _ _ .other, _) => owner

/-- The process and the handle that a status, read, cancel or close names. -/
def AppNetworkCall.names : AppNetworkCall → Option (UInt64 × UInt64)
  | .dispatch _ _ processId _ (.requestStatus handle _ _)
  | .dispatch _ _ processId _ (.requestRead handle _ _ _)
  | .dispatch _ _ processId _ (.requestCancel handle)
  | .dispatch _ _ processId _ (.requestClose handle) => some (processId, handle)
  | .dispatch _ _ _ _ (.httpStart _ _) | .dispatch _ _ _ _ .other | .releaseProcess _ _ => none

/-- The owner that the record names. -/
def AppNetwork.owner (s : AppNetwork) : Option (UInt64 × UInt64) :=
  if s.request.inUse then some (s.request.processId, s.request.appHandle) else none

theorem int64Max_lt_appError (status : AppStatus) : ¬appError status ≤ int64Max := by
  cases status <;> decide

theorem appError_ne_zero (status : AppStatus) : appError status ≠ 0 := by
  cases status <;> decide

/-! ### The requests that are open -/

/-- Every request is started when no other is open. -/
def StartsClean (calls : List BackendCall) : Prop :=
  ∀ before handle after, calls = before ++ .start handle :: after → opened before = []

theorem opened_append_singleton (calls : List BackendCall) (call : BackendCall) :
    opened (calls ++ [call]) = openedAfter (opened calls) call :=
  foldl_append

theorem startsClean_append {calls : List BackendCall} (h : StartsClean calls) (call : BackendCall)
    (hcall : ∀ handle, call = .start handle → opened calls = []) :
      StartsClean (calls ++ [call]) := by
  intro before handle after heq
  -- the start is the last call, or one of those before
  rcases eq_nil_or_concat after with rfl | ⟨after, last, rfl⟩
  · obtain ⟨rfl, hlast⟩ := append_inj' heq rfl
    exact hcall handle (singleton_inj.1 hlast)
  · have hsplit : calls ++ [call] = (before ++ .start handle :: after) ++ [last] := by
      rw [heq, concat_eq_append]
      simp
    exact h before handle after (append_inj' hsplit rfl).1

/-- What the record and the network service have in common. -/
structure Retained (s : AppNetwork) : Prop where
  exclusive : ¬(s.request.inUse = true ∧ s.request.cleanupPending = true)
  /-- The only request that may be open is that of the record. -/
  opened : ∀ h ∈ opened s.backend,
    (s.request.inUse = true ∨ s.request.cleanupPending = true) ∧ h = s.request.networkHandle
  startsClean : StartsClean s.backend
  processId : s.request.inUse = true → s.request.processId ≠ 0

namespace Retained

variable {s : AppNetwork} {env : AppNetworkEnv}

theorem boot : Retained .boot where
  exclusive h := nomatch h.1
  opened _ h := nomatch h
  startsClean before _ _ heq := by simp [AppNetwork.boot] at heq
  processId h := nomatch h

/-- When neither flag is set, no request is open. -/
theorem opened_eq_nil (h : Retained s) (hinUse : s.request.inUse = false)
    (hpending : s.request.cleanupPending = false) : App.opened s.backend = [] := by
  refine eq_nil_iff_forall_not_mem.2 fun handle hmem => ?_
  rcases (h.opened handle hmem).1 with hflag | hflag
  · exact nomatch hinUse.symm.trans hflag
  · exact nomatch hpending.symm.trans hflag

/-- A call that is no start. -/
theorem backendCall (h : Retained s) (call : BackendCall) (hcall : ∀ handle, call ≠ .start handle) :
    Retained (s.backendCall call) where
  exclusive := h.exclusive
  opened handle hmem := by
    have hmem : handle ∈ openedAfter (App.opened s.backend) call :=
      opened_append_singleton s.backend call ▸ hmem
    refine h.opened handle ?_
    cases call with
    | start started => exact absurd rfl (hcall started)
    | close closed result =>
      unfold openedAfter at hmem
      dsimp only at hmem
      split at hmem
      · exact mem_of_mem_filter hmem
      · exact hmem
    | getStatus handle => exact hmem
    | read handle => exact hmem
    | cancel handle => exact hmem
  startsClean := startsClean_append h.startsClean call fun handle heq => absurd heq (hcall handle)
  processId := h.processId

/-- After its request is closed the record can be cleared. -/
theorem clearRecord_close (h : Retained s) :
    Retained ((s.backendCall (.close s.request.networkHandle .ok)).clearRecord) where
  exclusive hflags := nomatch hflags.1
  opened handle hmem := by
    have hmem : handle ∈ openedAfter (App.opened s.backend) (.close s.request.networkHandle .ok) :=
      opened_append_singleton s.backend _ ▸ hmem
    obtain ⟨hmem, hne⟩ := mem_filter.1 hmem
    exact absurd (h.opened handle hmem).2 (by simpa using hne)
  startsClean := (h.backendCall _ fun _ => BackendCall.noConfusion).startsClean
  processId hinUse := nomatch hinUse

theorem closeRetired (h : Retained s) (result : NetworkResult) :
    Retained (s.closeRetired result) := by
  have hcancel := h.backendCall (.cancel s.request.networkHandle) fun _ => BackendCall.noConfusion
  unfold AppNetwork.closeRetired
  split
  next hok =>
    subst hok
    exact hcancel.clearRecord_close
  · exact hcancel.backendCall _ fun _ => BackendCall.noConfusion

theorem retireBackendRequest (hclean : StartsClean s.backend)
    (hopened : ∀ handle ∈ App.opened s.backend, handle = s.request.networkHandle) :
    Retained (s.retireBackendRequest env) := by
  have hdisown : Retained s.disown := by
    constructor
    case exclusive => exact fun hflags => nomatch hflags.1
    case opened => exact fun handle hmem => ⟨.inr rfl, hopened handle hmem⟩
    case startsClean => exact hclean
    case processId => exact (nomatch ·)
  exact hdisown.closeRetired env.close

theorem clearRecord (hclean : StartsClean s.backend) (hopened : App.opened s.backend = []) :
    Retained s.clearRecord := by
  constructor
  case exclusive => exact fun hflags => nomatch hflags.1
  case opened => exact fun handle hmem => nomatch hopened ▸ hmem
  case startsClean => exact hclean
  case processId => exact (nomatch ·)

end Retained

namespace AppNetwork

variable {s : AppNetwork} {env : AppNetworkEnv}

theorem owner_of_inUse_eq_false (h : s.request.inUse = false) : s.owner = none := by
  rw [owner, h]
  rfl

theorem owner_closeRetired (h : s.request.inUse = false) (result : NetworkResult) :
    (s.closeRetired result).owner = none := by
  unfold closeRetired
  split
  · rfl
  · exact owner_of_inUse_eq_false h

theorem owner_retireBackendRequest : (s.retireBackendRequest env).owner = none :=
  owner_closeRetired rfl env.close

/-! ### Starting a request -/

variable (env)

theorem retained_retryPendingCleanup (h : Retained s) : Retained (s.retryPendingCleanup env).2 := by
  unfold retryPendingCleanup
  split
  · exact h
  · exact h.closeRetired env.retryClose

theorem owner_retryPendingCleanup (h : Retained s) :
    (s.retryPendingCleanup env).2.owner = s.owner := by
  unfold retryPendingCleanup
  split
  · rfl
  rename_i hpending
  have hinUse : s.request.inUse = false := by
    by_contra hne
    exact h.exclusive ⟨by simpa using hne, by simpa using hpending⟩
  rw [owner_closeRetired hinUse, owner_of_inUse_eq_false hinUse]

variable {env}

theorem cleanupPending_retryPendingCleanup (hclean : (s.retryPendingCleanup env).1 = true) :
    (s.retryPendingCleanup env).2.request.cleanupPending = false := by
  unfold retryPendingCleanup at hclean ⊢
  split
  next hpending => simpa using hpending
  rename_i hpending
  rw [if_neg hpending] at hclean
  have hok : env.retryClose = .ok := by simpa using hclean
  simp [closeRetired, hok, clearRecord, AppNetworkRecord.zero]

theorem allocateHandle_bounds : s.allocateHandle.1 ≠ 0 ∧ s.allocateHandle.1 ≤ int64Max := by
  unfold allocateHandle
  dsimp only
  split
  · decide
  rename_i h
  rw [not_or, UInt64.not_lt] at h
  exact h

/-- What a start by a process leaves behind: if it returns a handle, the process owns the
request. -/
structure Starts (owner : Option (UInt64 × UInt64)) (processId : UInt64)
    (result : UInt64 × AppNetwork) :
    Prop where
  retained : Retained result.2
  owner : result.2.owner = if result.1 ≤ int64Max then some (processId, result.1) else owner

variable {processId : UInt64}

theorem Starts.error {owner : Option (UInt64 × UInt64)} (status : AppStatus)
    (h : Retained s) (howner : s.owner = owner) : Starts owner processId (appError status, s) :=
  ⟨h, by rw [if_neg (int64Max_lt_appError status)]; exact howner⟩

theorem starts_startBackend (hprocess : processId ≠ 0)
    (hclean : StartsClean s.backend) (hopened : opened s.backend = []) :
    Starts none processId (s.startBackend env processId) := by
  have hclean' : StartsClean (s.backend ++ [.start env.start.2]) :=
    startsClean_append hclean _ fun _ _ => hopened
  have hopened' : opened (s.backend ++ [.start env.start.2]) =
      if env.start.2 = 0 then [] else [env.start.2] := by
    rw [opened_append_singleton, hopened]
    rfl
  have hretire {t : AppNetwork} (ht : t.backend = s.backend ++ [.start env.start.2])
      (hne : env.start.2 ≠ 0) :
        Retained ((t.setNetworkHandle env.start.2).retireBackendRequest env) := by
    refine .retireBackendRequest (ht ▸ hclean') fun handle hmem => ?_
    have hmem : handle ∈ opened (s.backend ++ [.start env.start.2]) := ht ▸ hmem
    rw [hopened', if_neg hne] at hmem
    exact mem_singleton.1 hmem
  have hclear (hzero : env.start.2 = 0) :
      Retained (s.backendCall (.start env.start.2)).clearRecord :=
    .clearRecord hclean' (hopened'.trans (if_pos hzero))
  unfold startBackend
  dsimp only
  split
  · split
    next hne => exact .error _ (hretire rfl hne) owner_retireBackendRequest
    next hzero => exact .error _ (hclear (not_not.1 hzero)) rfl
  · split
    next hzero => exact .error _ (hclear hzero) rfl
    rename_i hne
    split
    · exact .error _ (hretire rfl hne) owner_retireBackendRequest
    refine ⟨⟨fun hflags => (nomatch hflags.2), fun handle hmem => ⟨.inl rfl, ?_⟩, hclean',
      fun _ => hprocess⟩, (if_pos allocateHandle_bounds.2).symm⟩
    have hmem : handle ∈ opened (s.backend ++ [.start env.start.2]) := hmem
    rw [hopened', if_neg hne] at hmem
    exact mem_singleton.1 hmem

variable (env)

theorem starts_dispatchStart (hprocess : processId ≠ 0) (h : Retained s)
    (capabilities userRequest requestSize : UInt64) :
    Starts s.owner processId (s.dispatchStart env processId capabilities userRequest
      requestSize) := by
  have hretained := retained_retryPendingCleanup env h
  have howner := owner_retryPendingCleanup env h
  unfold dispatchStart
  split
  · exact .error _ h rfl
  dsimp only
  split
  · exact .error _ hretained howner
  rename_i hclean
  split
  · exact .error _ hretained howner
  rename_i hinUse
  have hinUse : (s.retryPendingCleanup env).2.request.inUse = false := by simpa using hinUse
  have hpending : (s.retryPendingCleanup env).2.request.cleanupPending = false :=
    cleanupPending_retryPendingCleanup (by simpa using hclean)
  split
  · exact .error _ hretained howner
  rw [← howner, owner_of_inUse_eq_false hinUse]
  exact starts_startBackend hprocess hretained.startsClean
    (hretained.opened_eq_nil hinUse hpending)

/-! ### The other calls -/

theorem owner_of_findRecord {processId handle : UInt64} (h : s.findRecord processId handle = true) :
    s.owner = some (processId, handle) := by
  simp only [findRecord, Bool.and_eq_true, decide_eq_true_eq] at h
  obtain ⟨⟨⟨⟨hinUse, -⟩, -⟩, hprocess⟩, hhandle⟩ := h
  rw [owner, if_pos hinUse, hprocess, hhandle]

/-- What a status, a read or a cancel leaves behind. -/
structure Observes (s s' : AppNetwork) : Prop where
  retained : Retained s'
  owner : s'.owner = s.owner

theorem Observes.rfl (h : Retained s) : Observes s s := ⟨h, Eq.refl _⟩

theorem observes_backendCall (h : Retained s) (call : BackendCall)
    (hcall : ∀ handle, call ≠ .start handle) : Observes s (s.backendCall call) :=
  ⟨h.backendCall call hcall, Eq.refl _⟩

theorem observes_dispatchStatus (h : Retained s)
    (processId capabilities handle userStatus statusSize : UInt64) :
    Observes s (s.dispatchStatus env processId capabilities handle userStatus statusSize).2.2 := by
  have hcall := observes_backendCall h (.getStatus s.request.networkHandle)
    fun _ => BackendCall.noConfusion
  unfold dispatchStatus
  dsimp only
  repeat' split
  all_goals first
    | exact .rfl h
    | exact hcall

theorem observes_dispatchRead (h : Retained s)
    (processId capabilities handle userBuffer requested requestedOffset : UInt64) :
    Observes s (s.dispatchRead env processId capabilities handle userBuffer requested
      requestedOffset).2.2 := by
  have hcall :=
    observes_backendCall h (.read s.request.networkHandle) fun _ => BackendCall.noConfusion
  unfold dispatchRead
  dsimp only
  repeat' split
  all_goals first
    | exact .rfl h
    | exact hcall

theorem observes_dispatchCancel (h : Retained s) (processId capabilities handle : UInt64) :
    Observes s (s.dispatchCancel env processId capabilities handle).2 := by
  unfold dispatchCancel
  split
  · exact .rfl h
  split
  · exact .rfl h
  · exact observes_backendCall h _ fun _ => BackendCall.noConfusion

/-- What a close leaves behind. -/
structure Closes (s : AppNetwork) (result : UInt64 × AppNetwork) : Prop where
  retained : Retained result.2
  owner : result.2.owner = if result.1 = 0 then none else s.owner

theorem closes_dispatchClose (h : Retained s) (processId capabilities handle : UInt64) :
    Closes s (s.dispatchClose env processId capabilities handle) := by
  have herror (status : AppStatus) {s' : AppNetwork} (h : Retained s')
    (howner : s'.owner = s.owner) :
      Closes s (appError status, s') :=
    ⟨h, by rw [if_neg (appError_ne_zero status)]; exact howner⟩
  unfold dispatchClose
  split
  · exact herror _ h rfl
  split
  · exact herror _ h rfl
  split
  · exact herror _ (h.backendCall _ fun _ => BackendCall.noConfusion) rfl
  rename_i hok
  rw [not_not.1 hok]
  exact ⟨h.clearRecord_close, rfl⟩

end AppNetwork

/-! ### Runs -/

namespace AppNetwork

variable {s : AppNetwork}

theorem step_dispatch (h : Retained s) (env : AppNetworkEnv) (hasAddressSpace : Bool)
    (processId capabilities : UInt64) (call : NetworkSyscall) :
    let result := s.appNetworkServicesDispatch env hasAddressSpace processId capabilities call
    Retained result.2.2 ∧ result.2.2.owner =
      ownerAfter s.owner (.dispatch env hasAddressSpace processId capabilities call, result.1) := by
  unfold appNetworkServicesDispatch
  split
  · refine ⟨h, ?_⟩
    -- the call is refused, and no value that it returns makes an owner
    cases call with
    | httpStart userRequest requestSize =>
      rw [ownerAfter, if_neg (int64Max_lt_appError .unsupported)]
    | requestClose handle => rw [ownerAfter, if_neg (appError_ne_zero .unsupported)]
    | requestStatus handle userStatus statusSize => rfl
    | requestRead handle userBuffer requested requestedOffset => rfl
    | requestCancel handle => rfl
    | other => rfl
  next hdispatch =>
    have hprocess : processId ≠ 0 := by
      rintro rfl
      simp at hdispatch
    cases call with
    | httpStart userRequest requestSize =>
      have hstarts := starts_dispatchStart env hprocess h capabilities userRequest requestSize
      exact ⟨hstarts.retained, hstarts.owner⟩
    | requestStatus handle userStatus statusSize =>
      have hobserves := observes_dispatchStatus env h processId capabilities handle userStatus
        statusSize
      exact ⟨hobserves.retained, hobserves.owner⟩
    | requestRead handle userBuffer requested requestedOffset =>
      have hobserves := observes_dispatchRead env h processId capabilities handle userBuffer
        requested requestedOffset
      exact ⟨hobserves.retained, hobserves.owner⟩
    | requestCancel handle =>
      have hobserves := observes_dispatchCancel env h processId capabilities handle
      exact ⟨hobserves.retained, hobserves.owner⟩
    | requestClose handle =>
      have hcloses := closes_dispatchClose env h processId capabilities handle
      exact ⟨hcloses.retained, hcloses.owner⟩
    | other => exact ⟨h, rfl⟩

theorem step_releaseProcess (h : Retained s) (env : AppNetworkEnv) (processId : UInt64) :
    let s' := s.appNetworkServicesReleaseProcess env processId
    Retained s' ∧ s'.owner = if s.owner.any (·.1 = processId) then none else s.owner := by
  unfold appNetworkServicesReleaseProcess
  split
  next hother =>
    refine ⟨h, (if_neg ?_).symm⟩
    unfold owner
    split
    next hinUse =>
      -- the owner is another process, for a process identifier in the record is not zero
      have hprocess := h.processId hinUse
      intro hany
      have heq : s.request.processId = processId := by simpa using hany
      simp [hinUse, heq, heq ▸ hprocess] at hother
    · exact Bool.false_ne_true
  next hown =>
    have hown' : s.request.inUse = true ∧ s.request.processId = processId := by
      simp only [Bool.or_eq_true, not_or, Bool.not_eq_true, Bool.not_eq_false', decide_eq_true_eq,
        not_not] at hown
      exact ⟨hown.1.1, hown.2⟩
    have howner : s.owner = some (s.request.processId, s.request.appHandle) := if_pos hown'.1
    refine ⟨.retireBackendRequest h.startsClean fun handle hmem => (h.opened handle hmem).2, ?_⟩
    rw [owner_retireBackendRequest, howner, if_pos (by simpa using hown'.2)]

theorem retained_step (h : Retained s) (c : AppNetworkCall) :
    Retained (s.step c).2.2 ∧ (s.step c).2.2.owner = ownerAfter s.owner (c, (s.step c).1) := by
  cases c with
  | dispatch env hasAddressSpace processId capabilities call =>
    exact step_dispatch h env hasAddressSpace processId capabilities call
  | releaseProcess env processId => exact step_releaseProcess h env processId

theorem retained_run (h : Retained s) (calls : List AppNetworkCall) :
    Retained (s.run calls) ∧ (s.run calls).owner = (s.history calls).foldl ownerAfter s.owner := by
  induction calls generalizing s with
  | nil => exact ⟨h, rfl⟩
  | cons c calls ih =>
    obtain ⟨hretained, howner⟩ := retained_step h c
    obtain ⟨hrun, hrunOwner⟩ := ih hretained
    refine ⟨hrun, hrunOwner.trans ?_⟩
    rw [howner]
    rfl

/-- A call that does not name the owner and its handle is refused, and nothing happens. -/
theorem step_of_not_owner {c : AppNetworkCall} {named : UInt64 × UInt64}
    (hnames : c.names = some named)
    (howner : s.owner ≠ some named) : ∃ status, s.step c = (appError status, [], s) := by
  have hfind {processId handle : UInt64} (heq : named = (processId, handle)) :
      s.findRecord processId handle = false := by
    by_contra hne
    exact howner (heq ▸ owner_of_findRecord (by simpa using hne))
  cases c with
  | releaseProcess env processId => exact nomatch hnames
  | dispatch env hasAddressSpace processId capabilities call =>
    unfold step
    dsimp only
    unfold appNetworkServicesDispatch
    split
    · exact ⟨_, rfl⟩
    cases call with
    | httpStart userRequest requestSize => exact nomatch hnames
    | other => exact nomatch hnames
    | requestStatus handle userStatus statusSize =>
      dsimp only
      rw [dispatchStatus, hfind (Option.some.inj hnames).symm]
      split
      · exact ⟨.permissionDenied, rfl⟩
      · exact ⟨.badHandle, rfl⟩
    | requestRead handle userBuffer requested requestedOffset =>
      dsimp only
      rw [dispatchRead, hfind (Option.some.inj hnames).symm]
      split
      · exact ⟨.permissionDenied, rfl⟩
      · exact ⟨.badHandle, rfl⟩
    | requestCancel handle =>
      dsimp only
      rw [dispatchCancel, hfind (Option.some.inj hnames).symm]
      split
      · exact ⟨.permissionDenied, rfl⟩
      · exact ⟨.badHandle, rfl⟩
    | requestClose handle =>
      dsimp only
      rw [dispatchClose, hfind (Option.some.inj hnames).symm]
      split
      · exact ⟨.permissionDenied, rfl⟩
      · exact ⟨.badHandle, rfl⟩

end AppNetwork

/-- The state of the layer after some calls with the values that they have returned. -/
structure RequestOwnership (s : AppNetwork) (history : List (AppNetworkCall × UInt64)) : Prop where
  exclusive : ¬(s.request.inUse = true ∧ s.request.cleanupPending = true)
  /-- The record names the owner that the values show. -/
  owner : s.owner = history.foldl ownerAfter none
  /-- For everybody else a call that names a request is refused, and nothing happens. -/
  refused : ∀ c named, c.names = some named → s.owner ≠ some named →
    ∃ status, s.step c = (appError status, [], s)
  /-- After the release of its owner the request has none. -/
  released : ∀ env processId handle, s.owner = some (processId, handle) →
    (s.appNetworkServicesReleaseProcess env processId).owner = none
  closed : s.request.inUse = false → s.request.cleanupPending = false → opened s.backend = []
  startsClean : StartsClean s.backend

/-- Whatever the network service answers, after any calls of any processes the request belongs to
the process that started it, a request without a record is closed, and a request is started only
when the one before is closed. -/
theorem app_network_request_ownership (calls : List AppNetworkCall) :
    RequestOwnership (AppNetwork.boot.run calls) (AppNetwork.boot.history calls) := by
  obtain ⟨hretained, howner⟩ := retained_run .boot calls
  constructor
  case exclusive => exact hretained.exclusive
  case owner => exact howner
  case refused => exact fun c named => step_of_not_owner
  case released =>
    intro env processId handle hown
    rw [(step_releaseProcess hretained env processId).2, hown]
    exact if_pos (by simp)
  case closed => exact hretained.opened_eq_nil
  case startsClean => exact hretained.startsClean

end Nostalux.App
