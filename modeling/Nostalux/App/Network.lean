import Nostalux.App.Services
import Nostalux.Network.Request

/-!
# `kernel/app_network_services.c`: HTTP requests of applications

One record, `g_request`, stands for the request that an application has at the network service.
When its process is gone, or the service fails to start it, the request is retired: the record loses
its owner and is cleared when the service has closed the request.

The service and the user memory answer through the environment `AppNetworkEnv` of a call, which is
arbitrary.  The field `backend` of the state only records the calls of the service; `opened` are the
requests that they leave open.
-/

namespace Nostalux.App

open Nostalux.Network

/-! ### Constants -/

/-- `APP_CAPABILITY_NETWORK`. -/
abbrev appCapabilityNetwork : UInt64 := 128

/-- `APP_NETWORK_URL_MAX`. -/
abbrev appNetworkUrlMax : UInt64 := 511

/-- `APP_NETWORK_RESPONSE_MAX`. -/
abbrev appNetworkResponseMax : UInt64 := 8191

/-- `APP_NETWORK_TRANSFER_MAX`. -/
abbrev appNetworkTransferMax : UInt64 := 4096

/-- `APP_NETWORK_REDIRECT_MAX`. -/
abbrev appNetworkRedirectMax : UInt32 := 5

/-- `APP_NETWORK_TIMEOUT_MIN_MS`. -/
abbrev appNetworkTimeoutMinMs : UInt32 := 100

/-- `APP_NETWORK_TIMEOUT_MAX_MS`. -/
abbrev appNetworkTimeoutMaxMs : UInt32 := 60000

/-- `APP_NETWORK_HTTP_FOLLOW_REDIRECTS`. -/
abbrev appNetworkHttpFollowRedirects : UInt32 := 1

/-- `INT64_MAX`. -/
abbrev int64Max : UInt64 := 0x7FFFFFFFFFFFFFFF

/-! ### The state -/

/-- `struct app_network_record`. -/
structure AppNetworkRecord where
  inUse : Bool
  cleanupPending : Bool
  processId : UInt64
  appHandle : UInt64
  networkHandle : UInt64
  responseCapacity : UInt64
  url : CString

/-- A cleared record. -/
def AppNetworkRecord.zero : AppNetworkRecord := ⟨false, false, 0, 0, 0, 0, .empty⟩

/-- A call of the network service: the handle it is about, and the result of a close. -/
inductive BackendCall
  | start (handle : UInt64)
  | getStatus (handle : UInt64)
  | read (handle : UInt64)
  | cancel (handle : UInt64)
  | close (handle : UInt64) (result : NetworkResult)
  deriving DecidableEq

/-- The requests that are open after one more call: a request is open once there is a handle for it,
and until a close of it has returned `NETWORK_OK`. -/
def openedAfter (opened : List UInt64) : BackendCall → List UInt64
  | .start handle => if handle = 0 then opened else handle :: opened
  | .close handle result => if result = .ok then opened.filter (· ≠ handle) else opened
  | .getStatus _ | .read _ | .cancel _ => opened

/-- The requests that are open after some calls. -/
def opened (calls : List BackendCall) : List UInt64 := calls.foldl openedAfter []

/-- The state of the layer. -/
structure AppNetwork where
  request : AppNetworkRecord
  nextHandle : UInt64
  backend : List BackendCall

/-- The state before the first call. -/
def AppNetwork.boot : AppNetwork := ⟨.zero, 1, []⟩

/-- `struct network_http_request_status`; a state or a result outside of its enumeration is
absent. -/
structure BackendStatus where
  state : Option NetworkHttpRequestState
  result : Option NetworkResult
  httpStatus : UInt32
  redirectCount : UInt32
  receivedBytes : UInt64
  totalBytes : UInt64
  totalKnown : Bool

/-- What a call sees of user memory and of the network service. -/
structure AppNetworkEnv where
  /-- The address space of the caller. -/
  space : Paging.UserSpace
  /-- The result of `network_http_request_start`, and the handle that it stores. -/
  start : NetworkResult × UInt64
  getStatus : Option BackendStatus
  /-- The result of `network_http_request_read`, what it stores and the length that it reports. -/
  read : NetworkResult × (ℕ → UInt8) × UInt64
  cancel : NetworkResult
  close : NetworkResult
  /-- The result of `network_http_request_close` in `retry_pending_cleanup`. -/
  retryClose : NetworkResult

namespace AppNetwork

/-- A call of the network service. -/
def backendCall (s : AppNetwork) (call : BackendCall) : AppNetwork :=
  { s with backend := s.backend ++ [call] }

/-! ### The record -/

/-- `clear_record`. -/
def clearRecord (s : AppNetwork) : AppNetwork := { s with request := .zero }

/-- The cancellation and the close that `retry_pending_cleanup` and `retire_backend_request`
share. -/
def closeRetired (s : AppNetwork) (result : NetworkResult) : AppNetwork :=
  let handle := s.request.networkHandle
  let s := (s.backendCall (.cancel handle)).backendCall (.close handle result)
  if result = .ok then s.clearRecord else s

/-- `retry_pending_cleanup`. -/
def retryPendingCleanup (env : AppNetworkEnv) (s : AppNetwork) : Bool × AppNetwork :=
  if !s.request.cleanupPending then (true, s)
  else (env.retryClose = .ok, s.closeRetired env.retryClose)

/-- The record loses its owner. -/
def disown (s : AppNetwork) : AppNetwork :=
  { s with request := { s.request with
    inUse := false, cleanupPending := true, processId := 0, appHandle := 0 } }

/-- `retire_backend_request`. -/
def retireBackendRequest (env : AppNetworkEnv) (s : AppNetwork) : AppNetwork :=
  s.disown.closeRetired env.close

/-- Whether `find_record` finds the record. -/
def findRecord (s : AppNetwork) (processId handle : UInt64) : Bool :=
  s.request.inUse && processId ≠ 0 && handle ≠ 0 && s.request.processId = processId &&
    s.request.appHandle = handle

/-- `allocate_handle`. -/
def allocateHandle (s : AppNetwork) : UInt64 × AppNetwork :=
  let handle := if s.nextHandle = 0 ∨ s.nextHandle > int64Max then 1 else s.nextHandle
  (handle, { s with nextHandle := if handle = int64Max then 1 else handle + 1 })

end AppNetwork

/-! ### Codes -/

/-- `start_error`, of a result that is not `NETWORK_OK`. -/
def startError : NetworkResult → AppStatus
  | .busy => .wouldBlock
  | .invalidArgument => .invalidArgument
  | .unsupported => .unsupported
  | .responseTooLarge => .noSpace
  | .notReady | .linkDown | .timeout | .dnsFailed | .connectionFailed | .protocolError | .ioError
  | .canceled | .ok => .ioError

/-- `app_request_state`. -/
def appRequestState : NetworkHttpRequestState → UInt32
  | .waiting => 0
  | .configuring => 1
  | .resolving => 2
  | .connecting => 3
  | .sending => 4
  | .receiving => 5
  | .redirecting => 6
  | .complete => 7
  | .failed => 8
  | .canceled => 9

/-- `app_request_error`. -/
def appRequestError : NetworkResult → UInt32
  | .ok => 0
  | .notReady => 1
  | .linkDown => 2
  | .busy => 3
  | .invalidArgument => 4
  | .timeout => 5
  | .dnsFailed => 6
  | .connectionFailed => 7
  | .protocolError => 8
  | .responseTooLarge => 9
  | .unsupported => 10
  | .ioError => 11
  | .canceled => 12

/-- `has_network_capability`. -/
def hasNetworkCapability (capabilities : UInt64) : Bool := capabilities &&& appCapabilityNetwork ≠ 0

/-- The bytes of a 32-bit field. -/
def storeU32 (v : UInt32) : List UInt8 :=
  [v.toUInt8, (v >>> 8).toUInt8, (v >>> 16).toUInt8, (v >>> 24).toUInt8]

/-- The bytes of a 64-bit field. -/
def storeU64 (v : UInt64) : List UInt8 := storeU32 v.toUInt32 ++ storeU32 (v >>> 32).toUInt32

/-- The `struct app_network_request_status` for a status with a state and a result. -/
def appNetworkRequestStatus (status : BackendStatus) (state : NetworkHttpRequestState)
    (result : NetworkResult) : List UInt8 :=
  storeU32 (appRequestState state) ++
    storeU32 (if state = .canceled then appRequestError .canceled else appRequestError result) ++
    storeU32 status.httpStatus ++ storeU32 status.redirectCount ++
    storeU32 (if status.totalKnown then 1 else 0) ++ storeU32 0 ++
    storeU64 status.receivedBytes ++ storeU64 status.totalBytes

/-! ### The calls -/

/-- `struct app_network_http_request`. -/
structure AppNetworkHttpRequest where
  url : UInt64
  urlLength : UInt64
  responseCapacity : UInt64
  flags : UInt32
  timeoutMilliseconds : UInt32

/-- `sizeof(struct app_network_http_request)`. -/
abbrev appNetworkHttpRequestSize : ℕ := 32

/-- `sizeof(struct app_network_request_status)`. -/
abbrev appNetworkRequestStatusSize : ℕ := 40

/-- The request in user memory. -/
def loadRequest (m : ℕ → UInt8) : AppNetworkHttpRequest :=
  ⟨loadU64 m 0, loadU64 m 8, loadU64 m 16, loadU32 m 24, loadU32 m 28⟩

/-- Whether `dispatch_start` refuses the fields of a request. -/
def AppNetworkHttpRequest.refused (r : AppNetworkHttpRequest) : Bool :=
  r.url = 0 || r.urlLength = 0 || r.urlLength > appNetworkUrlMax || r.responseCapacity = 0 ||
    r.responseCapacity > appNetworkResponseMax || r.timeoutMilliseconds < appNetworkTimeoutMinMs ||
    r.timeoutMilliseconds > appNetworkTimeoutMaxMs || r.flags &&&
      ~~~appNetworkHttpFollowRedirects ≠ 0

namespace AppNetwork

/-- The URL and the capacity that `dispatch_start` takes from user memory. -/
def readRequest (env : AppNetworkEnv) (userRequest requestSize : UInt64) :
    Option (CString × UInt64) :=
  if userRequest = 0 || requestSize.toNat < appNetworkHttpRequestSize then none
  else
    match env.space.copyFromUser userRequest appNetworkHttpRequestSize with
    | none => none
    | some bytes =>
      let request := loadRequest bytes
      if request.refused then none
      else
        match env.space.copyFromUser request.url request.urlLength.toNat with
        | none => none
        | some bytes =>
          let url := (List.range request.urlLength.toNat).map bytes
          if url.any fun c => c ≤ 0x20 || c = 0x7F then none
          else some (CString.ofBytes url, request.responseCapacity)

/-- The record of a request that is about to be started. -/
def prepare (s : AppNetwork) (url : CString) (responseCapacity : UInt64) : AppNetwork :=
  { s with request := { AppNetworkRecord.zero with url, responseCapacity } }

/-- The handle at the network service. -/
def setNetworkHandle (s : AppNetwork) (networkHandle : UInt64) : AppNetwork :=
  { s with request := { s.request with networkHandle } }

/-- The record gets its owner. -/
def own (s : AppNetwork) (processId appHandle networkHandle : UInt64) : AppNetwork :=
  { s with request := { s.request with
    inUse := true, cleanupPending := false, processId, appHandle, networkHandle } }

/-- The end of `dispatch_start`: the request is started. -/
def startBackend (env : AppNetworkEnv) (processId : UInt64) (s : AppNetwork) :
    UInt64 × AppNetwork :=
  let (result, networkHandle) := env.start
  let s := s.backendCall (.start networkHandle)
  if result ≠ .ok then
    (appError (startError result),
      if networkHandle ≠ 0 then (s.setNetworkHandle networkHandle).retireBackendRequest env
      else s.clearRecord)
  else if networkHandle = 0 then (appError .ioError, s.clearRecord)
  else
    let (appHandle, s) := s.allocateHandle
    if appHandle = 0 then
      (appError .noSpace, (s.setNetworkHandle networkHandle).retireBackendRequest env)
    else (appHandle, s.own processId appHandle networkHandle)

/-- `dispatch_start`. -/
def dispatchStart (env : AppNetworkEnv) (processId capabilities userRequest requestSize : UInt64)
    (s : AppNetwork) : UInt64 × AppNetwork :=
  if !hasNetworkCapability capabilities then (appError .permissionDenied, s)
  else
    let (clean, s) := s.retryPendingCleanup env
    if !clean then (appError .wouldBlock, s)
    else if s.request.inUse then (appError .wouldBlock, s)
    else
      match readRequest env userRequest requestSize with
      | none => (appError .invalidArgument, s)
      | some (url, responseCapacity) => (s.prepare url responseCapacity).startBackend env processId

/-- Whether `dispatch_status` refuses the values of a status. -/
def statusRefused (s : AppNetwork) (status : BackendStatus) : Bool :=
  status.httpStatus > 999 || status.receivedBytes > s.request.responseCapacity ||
    status.redirectCount > appNetworkRedirectMax ||
    (status.totalKnown && (status.totalBytes < status.receivedBytes ||
      status.totalBytes > s.request.responseCapacity))

/-- `dispatch_status`, with what is stored in user memory. -/
def dispatchStatus (env : AppNetworkEnv)
    (processId capabilities handle userStatus statusSize : UInt64)
    (s : AppNetwork) : UInt64 × List UInt8 × AppNetwork :=
  if !hasNetworkCapability capabilities then (appError .permissionDenied, [], s)
  else if !s.findRecord processId handle then (appError .badHandle, [], s)
  else if userStatus = 0 || statusSize.toNat < appNetworkRequestStatusSize ||
      !env.space.userRangeMapped userStatus appNetworkRequestStatusSize true then
    (appError .invalidArgument, [], s)
  else
    let s := s.backendCall (.getStatus s.request.networkHandle)
    match env.getStatus with
    | none => (appError .ioError, [], s)
    | some status =>
      match status.state, status.result with
      | some state, some result =>
        let bytes := appNetworkRequestStatus status state result
        if s.statusRefused status then (appError .ioError, [], s)
        else if (env.space.copyToUser userStatus bytes).isNone then
          (appError .invalidArgument, [], s)
        else (0, bytes, s)
      | _, _ => (appError .ioError, [], s)

/-- The status of a failed `network_http_request_read`. -/
def readError : NetworkResult → AppStatus
  | .busy => .wouldBlock
  | .invalidArgument => .invalidArgument
  | _ => .ioError

/-- `dispatch_read`, with what is stored in user memory. -/
def dispatchRead (env : AppNetworkEnv)
    (processId capabilities handle userBuffer requested requestedOffset : UInt64) (s : AppNetwork) :
    UInt64 × List UInt8 × AppNetwork :=
  if !hasNetworkCapability capabilities then (appError .permissionDenied, [], s)
  else if !s.findRecord processId handle then (appError .badHandle, [], s)
  else if requested > appNetworkTransferMax || requestedOffset > s.request.responseCapacity ||
      requested > s.request.responseCapacity - requestedOffset ||
      (requested ≠ 0 && userBuffer = 0) then (appError .invalidArgument, [], s)
  else if requested = 0 then (0, [], s)
  else if !env.space.userRangeMapped userBuffer requested.toNat true then
    (appError .invalidArgument, [], s)
  else
    let s := s.backendCall (.read s.request.networkHandle)
    let (result, bytes, copied) := env.read
    if result ≠ .ok then (appError (readError result), [], s)
    else if copied > requested then (appError .ioError, [], s)
    else
      let bytes := (List.range copied.toNat).map bytes
      if copied ≠ 0 && (env.space.copyToUser userBuffer bytes).isNone then
        (appError .invalidArgument, [], s)
      else (copied, bytes, s)

/-- `dispatch_cancel`. -/
def dispatchCancel (env : AppNetworkEnv) (processId capabilities handle : UInt64) (s : AppNetwork) :
    UInt64 × AppNetwork :=
  if !hasNetworkCapability capabilities then (appError .permissionDenied, s)
  else if !s.findRecord processId handle then (appError .badHandle, s)
  else
    (if env.cancel = .ok ∨ env.cancel = .canceled then 0 else appError .ioError,
      s.backendCall (.cancel s.request.networkHandle))

/-- `dispatch_close`. -/
def dispatchClose (env : AppNetworkEnv) (processId capabilities handle : UInt64) (s : AppNetwork) :
    UInt64 × AppNetwork :=
  if !hasNetworkCapability capabilities then (appError .permissionDenied, s)
  else if !s.findRecord processId handle then (appError .badHandle, s)
  else
    let s := s.backendCall (.close s.request.networkHandle env.close)
    if env.close ≠ .ok then (appError .ioError, s) else (0, s.clearRecord)

end AppNetwork

/-! ### Runs -/

/-- The system calls that `app_network_services_dispatch` knows, with their arguments. -/
inductive NetworkSyscall
  | httpStart (userRequest requestSize : UInt64)
  | requestStatus (handle userStatus statusSize : UInt64)
  | requestRead (handle userBuffer requested requestedOffset : UInt64)
  | requestCancel (handle : UInt64)
  | requestClose (handle : UInt64)
  | other

/-- An entry point of the file. -/
inductive AppNetworkCall
  | dispatch (env : AppNetworkEnv) (hasAddressSpace : Bool) (processId capabilities : UInt64)
      (call : NetworkSyscall)
  | releaseProcess (env : AppNetworkEnv) (processId : UInt64)

namespace AppNetwork

/-- `app_network_services_dispatch`, with what is stored in user memory. -/
def appNetworkServicesDispatch (env : AppNetworkEnv) (hasAddressSpace : Bool)
    (processId capabilities : UInt64) (call : NetworkSyscall) (s : AppNetwork) :
    UInt64 × List UInt8 × AppNetwork :=
  if !hasAddressSpace || processId = 0 then (appError .unsupported, [], s)
  else
    match call with
    | .httpStart userRequest requestSize =>
      let (value, s) := s.dispatchStart env processId capabilities userRequest requestSize
      (value, [], s)
    | .requestStatus handle userStatus statusSize =>
      s.dispatchStatus env processId capabilities handle userStatus statusSize
    | .requestRead handle userBuffer requested requestedOffset =>
      s.dispatchRead env processId capabilities handle userBuffer requested requestedOffset
    | .requestCancel handle =>
      let (value, s) := s.dispatchCancel env processId capabilities handle
      (value, [], s)
    | .requestClose handle =>
      let (value, s) := s.dispatchClose env processId capabilities handle
      (value, [], s)
    | .other => (appError .unsupported, [], s)

/-- `app_network_services_release_process`. -/
def appNetworkServicesReleaseProcess (env : AppNetworkEnv) (processId : UInt64) (s : AppNetwork) :
    AppNetwork :=
  if !s.request.inUse || processId = 0 || s.request.processId ≠ processId then s
  else s.retireBackendRequest env

/-- The value that a call returns, if any, what it stores in user memory and the new state. -/
def step (s : AppNetwork) : AppNetworkCall → UInt64 × List UInt8 × AppNetwork
  | .dispatch env hasAddressSpace processId capabilities call =>
    s.appNetworkServicesDispatch env hasAddressSpace processId capabilities call
  | .releaseProcess env processId => (0, [], s.appNetworkServicesReleaseProcess env processId)

/-- A run. -/
def run (s : AppNetwork) : List AppNetworkCall → AppNetwork
  | [] => s
  | c :: calls => run (s.step c).2.2 calls

/-- The calls of a run with the values that they return. -/
def history (s : AppNetwork) : List AppNetworkCall → List (AppNetworkCall × UInt64)
  | [] => []
  | c :: calls => (c, (s.step c).1) :: history (s.step c).2.2 calls

end AppNetwork

end Nostalux.App
