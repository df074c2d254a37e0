import Nostalux.Network.Url
import Nostalux.Net.Types
import Nostalux.Tcp.Client

/-!
# `kernel/network.c`: operations of the network service

The service runs one operation at a time: the asynchronous HTTP request, which `networkPoll` drives,
or a blocking call.  A blocking call polls in its loops, so that other calls may run between two of
its rounds: it is a frame in `calls`, and `resume` runs it from one poll to the next.

The protocol stack, the device, the clock and the TCP client answer through environments, which are
arbitrary.  Three fields of the state only record what happened: `freed` has the arguments of
`kfree`, `responses` the blocks given to requests, and `attempted` the URLs a request has tried to
connect for.
-/

namespace Nostalux.Network

open Nostalux.Http Nostalux.Net Nostalux.Tcp

/-! ### Results and states -/

/-- `enum network_result`. -/
inductive NetworkResult
  | ok
  | notReady
  | linkDown
  | busy
  | invalidArgument
  | timeout
  | dnsFailed
  | connectionFailed
  | protocolError
  | responseTooLarge
  | unsupported
  | ioError
  | canceled
  deriving DecidableEq

/-- `enum network_http_request_state`. -/
inductive NetworkHttpRequestState
  | waiting
  | configuring
  | resolving
  | connecting
  | sending
  | receiving
  | redirecting
  | complete
  | failed
  | canceled
  deriving DecidableEq

/-- `enum network_http_receive_phase`. -/
inductive NetworkHttpReceivePhase
  | waitingForPeer
  | closingConnection
  deriving DecidableEq

/-- `NETWORK_DHCP_TIMEOUT_MS`. -/
abbrev networkDhcpTimeoutMs : UInt32 := 5000

/-- `NETWORK_TCP_RESPONSE_ALLOWANCE`. -/
abbrev networkTcpResponseAllowance : ℕ := 8192 + 8192 + 16384

/-- `SIZE_MAX`. -/
abbrev sizeMax : ℕ := 2 ^ 64 - 1

/-- `NETWORK_HTTP_REDIRECT_LIMIT`. -/
abbrev networkHttpRedirectLimit : ℕ := 5

/-- `NETWORK_HTTP_VISITED_CAPACITY`. -/
abbrev networkHttpVisitedCapacity : ℕ := networkHttpRedirectLimit + 1

/-- `NETWORK_HTTP_BODY_MAX`. -/
abbrev networkHttpBodyMax : ℕ := 8191

/-- `NETWORK_HTTP_TIMEOUT_MAX_MS`. -/
abbrev networkHttpTimeoutMaxMs : UInt32 := 60000

/-- `network_map_http_error`. -/
def networkMapHttpError (error : HttpClientError) (tcpError : TcpClientError) : NetworkResult :=
  if error = .none then .ok
  else if error = .invalidArgument ∨ error = .invalidHost ∨ error = .invalidPath ∨
      error = .requestTooLarge then .invalidArgument
  else if error = .headerTooLarge ∨ error = .chunkMetadataTooLarge ∨
      error = .redirectLocationTooLarge ∨ tcpError = .responseTooLarge then .responseTooLarge
  else if error = .tcp then
    if tcpError = .timeout ∨ tcpError = .retriesExhausted ∨ tcpError = .clockStalled then .timeout
    else .connectionFailed
  else if error = .unsupportedTransferEncoding then .unsupported
  else .protocolError

/-- `network_map_tcp_error`. -/
def networkMapTcpError : TcpClientError → NetworkResult
  | .timeout | .retriesExhausted | .clockStalled => .timeout
  | .responseTooLarge => .responseTooLarge
  | .protocol | .clockMovedBackward => .protocolError
  | .none => .ok
  | .invalidArgument | .busy | .notConnected | .sendFailed | .reset => .connectionFailed

/-! ### The state -/

/-- `struct network_http_request`. -/
structure NetworkHttpRequest where
  allocated : Bool
  followRedirects : Bool
  dnsStarted : Bool
  tcpInitialized : Bool
  handle : UInt64
  startedAtMs : UInt64
  timeoutMs : UInt32
  state : NetworkHttpRequestState
  result : NetworkResult
  receivePhase : NetworkHttpReceivePhase
  bodyCapacity : ℕ
  responseCapacity : ℕ
  /-- The block of memory that `response_bytes` points at. -/
  responseBytes : Option ℕ
  bodyOffset : ℕ
  bodyLength : ℕ
  requestLength : ℕ
  requestSent : ℕ
  requestChunkLength : ℕ
  remoteIp : UInt32
  httpStatus : ℕ
  redirectCount : ℕ
  visitedCount : ℕ
  url : CString
  visited : ℕ → CString
  parsed : NetworkUrl
  /-- The URLs for which `tcp_client_begin_connect` has been called. -/
  attempted : List CString

/-- A zeroed request. -/
def NetworkHttpRequest.zero : NetworkHttpRequest where
  allocated := false
  followRedirects := false
  dnsStarted := false
  tcpInitialized := false
  handle := 0
  startedAtMs := 0
  timeoutMs := 0
  state := .waiting
  result := .ok
  receivePhase := .waitingForPeer
  bodyCapacity := 0
  responseCapacity := 0
  responseBytes := none
  bodyOffset := 0
  bodyLength := 0
  requestLength := 0
  requestSent := 0
  requestChunkLength := 0
  remoteIp := 0
  httpStatus := 0
  redirectCount := 0
  visitedCount := 0
  url := .empty
  visited := fun _ => .empty
  parsed := .zero
  attempted := []

/-- An operation of the service: the request, or a blocking call. -/
inductive Operation
  | request
  | call (id : ℕ)
  deriving DecidableEq

/-- The blocking calls, with the arguments that decide what they do; an absent text is a null
pointer, and `outputs` says that no pointer to a result is null. -/
inductive BlockingCall
  | renewDhcp (timeoutMs : UInt32)
  | resolveIpv4 (hostname : Option CString) (timeoutMs : UInt32) (outputs : Bool)
  | ping (host : Option CString) (timeoutMs : UInt32) (outputs : Bool)
  | httpGet (url : Option CString) (bodyCapacity : ℕ) (timeoutMs : UInt32) (outputs : Bool)

namespace BlockingCall

/-- The name that a call resolves. -/
def hostname : BlockingCall → Option CString
  | .renewDhcp _ => none
  | .resolveIpv4 hostname _ _ => hostname
  | .ping host _ _ => host
  | .httpGet url _ _ _ => (url.bind networkParseHttpUrl).map NetworkUrl.hostname

/-- The timeout that a call is given. -/
def timeoutMs : BlockingCall → UInt32
  | .renewDhcp timeoutMs | .resolveIpv4 _ timeoutMs _ | .ping _ timeoutMs _
  | .httpGet _ _ timeoutMs _ => timeoutMs

/-- Whether `network_resolve_internal` is given a place for the address. -/
def outputs : BlockingCall → Bool
  | .resolveIpv4 _ _ outputs => outputs
  | .renewDhcp _ | .ping _ _ _ | .httpGet _ _ _ _ => true

/-- The room for a body. -/
def bodyCapacity : BlockingCall → ℕ
  | .httpGet _ bodyCapacity _ _ => bodyCapacity
  | .renewDhcp _ | .resolveIpv4 _ _ _ | .ping _ _ _ => 0

/-- The checks of a blocking call before it looks at the flag. -/
def invalid : BlockingCall → Bool
  | .renewDhcp timeoutMs => timeoutMs = 0
  | .resolveIpv4 _ _ _ => false
  | .ping host timeoutMs outputs => host.isNone || !outputs || timeoutMs = 0
  | .httpGet url bodyCapacity timeoutMs outputs =>
    url.isNone || bodyCapacity = 0 || !outputs || timeoutMs = 0

end BlockingCall

/-- The loop that a blocking call polls in. -/
inductive Loop
  /-- `network_require_configuration`, called by `network_resolve_internal` or before it. -/
  | configuring (startedAt : UInt64) (timeoutMs : UInt32) (resolving : Bool)
  | resolving (startedAt : UInt64)
  | echoing (startedAt : UInt64)
  /-- `http_client_get`, with the two blocks that the call holds. -/
  | exchanging (responseBytes requestBytes : ℕ)

/-- A blocking call in progress. -/
structure Frame where
  id : ℕ
  call : BlockingCall
  loop : Loop

/-- The state of the service. -/
structure NetworkService where
  stackReady : Bool
  operationBusy : Bool
  /-- The operation whose TCP client `g_active_tcp_client` points at. -/
  activeTcpClient : Option Operation
  httpRequest : NetworkHttpRequest
  nextHttpHandle : UInt64
  /-- The blocking calls in progress. -/
  calls : List Frame
  nextCall : ℕ
  /-- The number of blocks that `kmalloc` has handed out. -/
  blocks : ℕ
  freed : List ℕ
  responses : List ℕ

/-- The service after `network_init`. -/
def NetworkService.boot (stackReady : Bool) : NetworkService where
  stackReady := stackReady
  operationBusy := false
  activeTcpClient := none
  httpRequest := .zero
  nextHttpHandle := 1
  calls := []
  nextCall := 0
  blocks := 0
  freed := []
  responses := []

/-- The fields of `struct rtl8139_status` that the service reads. -/
structure DeviceStatus where
  ready : Bool
  linkUp : Bool

/-- What `network_http_request_drive` sees. -/
structure DriveEnv where
  now : UInt64
  device : Option DeviceStatus
  configured : Bool
  dhcpOff : Bool
  dhcpStart : Bool
  dnsQuery : Bool
  dnsState : NetDnsState
  dnsAddress : UInt32
  connectStep : TcpClientStepResult
  sendStep : TcpClientStepResult
  waitStep : TcpClientStepResult
  closeStep : TcpClientStepResult
  serviceStep : TcpClientStepResult
  tcpError : TcpClientError
  /-- `http_client_parse_response`. -/
  parseResponse : Except HttpClientError HttpResponse

/-! ### Addresses in text -/

/-- One number of an address, with the number of its digits so far. -/
def parseOctet : List UInt8 → ℕ → ℕ → Option (ℕ × List UInt8)
  | [], value, _ => some (value, [])
  | c :: rest, value, digits =>
    if 48 ≤ c ∧ c ≤ 57 then
      let value := value * 10 + (c - 48).toNat
      if 255 < value ∨ 3 < digits + 1 then none else parseOctet rest value (digits + 1)
    else some (value, c :: rest)

/-- The loop of `network_parse_ipv4`, with the number of parts that are left. -/
def parseParts : ℕ → UInt32 → List UInt8 → Option UInt32
  | 0, address, _ => some address
  | left + 1, address, text =>
    if text.headD 0 < 48 ∨ 57 < text.headD 0 then none
    else
      match parseOctet text 0 0 with
      | none => none
      | some (value, rest) =>
        let address := (address <<< 8) ||| UInt32.ofNat value
        if 0 < left then
          if rest.headD 0 ≠ 46 then none else parseParts left address rest.tail
        else if rest.headD 0 ≠ 0 then none
        else some address

/-- `network_parse_ipv4`. -/
def networkParseIpv4 (text : CString) : Option UInt32 := parseParts 4 0 text.bytes

namespace NetworkHttpRequest

/-- `network_http_request_active`. -/
def active (r : NetworkHttpRequest) : Bool :=
  r.allocated && r.state ≠ .complete && r.state ≠ .failed && r.state ≠ .canceled

/-- `network_http_request_timed_out`. -/
def timedOut (r : NetworkHttpRequest) (now : UInt64) : Bool :=
  now < r.startedAtMs || r.timeoutMs.toUInt64 ≤ now - r.startedAtMs

/-- `network_http_url_was_visited`. -/
def urlWasVisited (r : NetworkHttpRequest) (url : CString) : Bool :=
  (List.range r.visitedCount).any fun i => networkTextEqual (r.visited i) url

end NetworkHttpRequest

namespace NetworkService

/-! ### Driving the request -/

/-- `network_http_request_finish`. -/
def finish (s : NetworkService) (state : NetworkHttpRequestState) (result : NetworkResult) :
    NetworkService :=
  { s with
    activeTcpClient := if s.activeTcpClient = some .request then none else s.activeTcpClient
    operationBusy := false
    httpRequest := { s.httpRequest with dnsStarted := false, state, result } }

/-- `network_http_request_fail`. -/
def fail (s : NetworkService) (result : NetworkResult) : NetworkService :=
  s.finish .failed (if result = .ok then .protocolError else result)

/-- The step that a TCP operation begins with; the request fails with it. -/
def checkStep (env : DriveEnv) (step : TcpClientStepResult) (s : NetworkService) : NetworkService :=
  if step = .failed then s.fail (networkMapTcpError env.tcpError) else s

/-- Whether `tcp_client_set_timeouts` refuses the timeouts of a request. -/
def timeoutsRefused (timeoutMs : UInt32) : Bool :=
  let retransmit := if timeoutMs < 250 then timeoutMs else 250
  retransmit = 0 || timeoutMs < retransmit

/-- The request has its TCP client begin to connect. -/
def connect (s : NetworkService) : NetworkService :=
  let r := s.httpRequest
  { s with
    activeTcpClient := some .request
    httpRequest := { r with
      tcpInitialized := true, requestLength := 0, requestSent := 0, requestChunkLength := 0,
      bodyOffset := 0, bodyLength := 0, state := .connecting, attempted :=
        r.attempted ++ [r.url] } }

/-- `network_http_begin_connect`. -/
def beginConnect (env : DriveEnv) (s : NetworkService) : NetworkService :=
  if timeoutsRefused s.httpRequest.timeoutMs then s.fail (networkMapTcpError .invalidArgument)
  else s.connect.checkStep env env.connectStep

/-- The request is about to resolve the host of its parsed URL. -/
def resolve (s : NetworkService) (parsed : NetworkUrl) : NetworkService :=
  { s with httpRequest := { s.httpRequest with
    parsed, remoteIp := 0, dnsStarted := false, tcpInitialized := false, httpStatus := 0,
    state := .resolving } }

/-- The address of the host is known. -/
def setRemoteIp (s : NetworkService) (remoteIp : UInt32) : NetworkService :=
  { s with httpRequest := { s.httpRequest with remoteIp } }

/-- The field `dns_started`. -/
def setDnsStarted (s : NetworkService) (dnsStarted : Bool) : NetworkService :=
  { s with httpRequest := { s.httpRequest with dnsStarted } }

/-- `network_http_begin_resolution`. -/
def beginResolution (env : DriveEnv) (s : NetworkService) : NetworkService :=
  match networkParseHttpUrl s.httpRequest.url with
  | none =>
    s.fail (if networkStartsWithCi s.httpRequest.url httpsScheme then .unsupported
      else .invalidArgument)
  | some parsed =>
    match networkParseIpv4 parsed.hostname with
    | some address => ((s.resolve parsed).setRemoteIp address).beginConnect env
    | none =>
      if !env.dnsQuery then (s.resolve parsed).fail .dnsFailed
      else (s.resolve parsed).setDnsStarted true

/-- The request waits for its peer to close the connection. -/
def awaitPeer (s : NetworkService) : NetworkService :=
  { s with httpRequest := { s.httpRequest with
    receivePhase := .waitingForPeer, state := .receiving } }

/-- The request sends its next chunk. -/
def nextChunk (s : NetworkService) : NetworkService :=
  let r := s.httpRequest
  { s with httpRequest := { r with
    requestChunkLength := min (r.requestLength - r.requestSent) tcpClientMaxSegmentData
    state := .sending } }

/-- The end of `network_http_begin_send`, when the request is built. -/
def sendChunk (env : DriveEnv) (s : NetworkService) : NetworkService :=
  if s.httpRequest.requestLength ≤ s.httpRequest.requestSent then
    s.awaitPeer.checkStep env env.waitStep
  else s.nextChunk.checkStep env env.sendStep

/-- The request has been built. -/
def setRequestLength (s : NetworkService) (requestLength : ℕ) : NetworkService :=
  { s with httpRequest := { s.httpRequest with requestLength } }

/-- `network_http_begin_send`. -/
def beginSend (env : DriveEnv) (s : NetworkService) : NetworkService :=
  if s.httpRequest.requestLength = 0 then
    match buildRequest s.httpRequest.parsed with
    | .error error => s.fail (networkMapHttpError error env.tcpError)
    | .ok request => (s.setRequestLength request.length).sendChunk env
  else s.sendChunk env

/-- The redirect of `network_http_parse_completed_response` to a URL that is not visited yet. -/
def redirectTo (s : NetworkService) (url : CString) : NetworkService :=
  let r := s.httpRequest
  { s with
    activeTcpClient := none
    httpRequest := { r with
      url, visited := Function.update r.visited r.visitedCount url,
      visitedCount := r.visitedCount + 1, redirectCount := r.redirectCount + 1,
      state := .redirecting, result := .ok, dnsStarted := false, tcpInitialized := false } }

/-- The part of `network_http_parse_completed_response` that follows a redirect. -/
def followRedirect (env : DriveEnv) (response : HttpResponse) (s : NetworkService) :
    NetworkService :=
  let r := s.httpRequest
  if networkHttpRedirectLimit ≤ r.redirectCount then s.fail .protocolError
  else
    match httpResponseCopyRedirectLocation response networkUrlCapacity with
    | .error error => s.fail (networkMapHttpError error env.tcpError)
    | .ok location =>
      if location = [] then s.fail (networkMapHttpError .none env.tcpError)
      else
        match networkResolveRedirectUrl r.parsed (CString.ofBytes location) with
        | .error .unsupported => s.fail .unsupported
        | .error .protocol => s.fail .protocolError
        | .ok redirected =>
          if r.urlWasVisited redirected || networkHttpVisitedCapacity ≤ r.visitedCount then
            s.fail .protocolError
          else
            match networkCopyText networkUrlCapacity redirected with
            | none => s.fail .protocolError
            | some url => s.redirectTo url

/-- The status of the response. -/
def setHttpStatus (s : NetworkService) (httpStatus : ℕ) : NetworkService :=
  { s with httpRequest := { s.httpRequest with httpStatus } }

/-- The place of the body in the response. -/
def setBody (s : NetworkService) (bodyOffset bodyLength : ℕ) : NetworkService :=
  { s with httpRequest := { s.httpRequest with bodyOffset, bodyLength } }

/-- The end of `network_http_parse_completed_response`, for a response that is not followed. -/
def completeResponse (response : HttpResponse) (s : NetworkService) : NetworkService :=
  let r := s.httpRequest
  if response.bodyOffset < 0 ∨ (r.responseCapacity : ℤ) < response.bodyOffset ∨
      r.responseCapacity - response.bodyOffset.toNat < response.bodyLength ∨
      r.bodyCapacity < response.bodyLength then s.fail .responseTooLarge
  else (s.setBody response.bodyOffset.toNat response.bodyLength).finish .complete .ok

/-- `network_http_parse_completed_response`. -/
def parseCompletedResponse (env : DriveEnv) (s : NetworkService) : NetworkService :=
  match env.parseResponse with
  | .error error => s.fail (networkMapHttpError error env.tcpError)
  | .ok response =>
    let s := s.setHttpStatus response.statusCode
    if s.httpRequest.followRedirects && httpResponseIsRedirect response then
      s.followRedirect env response
    else s.completeResponse response

/-- The field `receive_phase`. -/
def setReceivePhase (s : NetworkService) (receivePhase : NetworkHttpReceivePhase) :
    NetworkService :=
  { s with httpRequest := { s.httpRequest with receivePhase } }

/-- `network_http_drive_receiving`. -/
def driveReceiving (env : DriveEnv) (s : NetworkService) : NetworkService :=
  match env.serviceStep with
  | .failed => s.fail (networkMapTcpError env.tcpError)
  | .pending => s
  | .complete =>
    if s.httpRequest.receivePhase = .waitingForPeer then
      let s := s.setReceivePhase .closingConnection
      match env.closeStep with
      | .failed => s.fail (networkMapTcpError env.tcpError)
      | .pending => s
      | .complete => s.parseCompletedResponse env
    else s.parseCompletedResponse env

/-- The request waits for an address of its own. -/
def awaitConfiguration (s : NetworkService) : NetworkService :=
  { s with httpRequest := { s.httpRequest with state := .configuring } }

/-- The cases of `network_http_request_drive` before the URL is resolved. -/
def driveConfiguring (env : DriveEnv) (s : NetworkService) : NetworkService :=
  if !env.configured then
    if env.dhcpOff && !env.dhcpStart then s.fail .ioError else s.awaitConfiguration
  else s.beginResolution env

/-- The case of `network_http_request_drive` that waits for the resolver. -/
def driveResolving (env : DriveEnv) (s : NetworkService) : NetworkService :=
  match env.dnsState with
  | .resolved => ((s.setRemoteIp env.dnsAddress).setDnsStarted false).beginConnect env
  | .notFound | .malformedResponse | .serverError => (s.setDnsStarted false).fail .dnsFailed
  | .timedOut => (s.setDnsStarted false).fail .timeout
  | .idle | .pending => s

/-- The chunk has been sent. -/
def countChunk (s : NetworkService) : NetworkService :=
  let r := s.httpRequest
  { s with httpRequest := { r with
    requestSent := r.requestSent + r.requestChunkLength
    requestChunkLength := 0 } }

/-- The cases of `network_http_request_drive` that wait for a connection or for a chunk to be
sent. -/
def driveSending (env : DriveEnv) (s : NetworkService) : NetworkService :=
  match env.serviceStep with
  | .failed => s.fail (networkMapTcpError env.tcpError)
  | .pending => s
  | .complete =>
    if s.httpRequest.state = .connecting then s.beginSend env else s.countChunk.beginSend env

/-- `network_http_request_drive`. -/
def drive (env : DriveEnv) (s : NetworkService) : NetworkService :=
  if !s.httpRequest.active then s
  else if s.httpRequest.timedOut env.now then s.fail .timeout
  else
    match env.device with
    | none => s.fail .notReady
    | some device =>
      if !device.ready then s.fail .notReady
      else if !device.linkUp then s.fail .linkDown
      else
        match s.httpRequest.state with
        | .waiting | .configuring => s.driveConfiguring env
        | .resolving => s.driveResolving env
        | .connecting | .sending => s.driveSending env
        | .receiving => s.driveReceiving env
        | .redirecting => s.beginResolution env
        | .complete | .failed | .canceled => s

/-- `network_poll`, with what it does to the protocol stack left out. -/
def networkPoll (env : DriveEnv) (s : NetworkService) : NetworkService :=
  if !s.stackReady then s else s.drive env

/-! ### The entry points of the request -/

/-- What `network_http_request_start` sees. -/
structure StartEnv where
  now : UInt64
  device : Option DeviceStatus
  kmalloc : Bool
  /-- Whether `out_handle` is not null. -/
  outHandle : Bool

/-- `network_http_next_handle`. -/
def networkHttpNextHandle (s : NetworkService) : UInt64 × UInt64 :=
  let handle := if s.nextHttpHandle = 0 then 1 else s.nextHttpHandle
  (handle, if handle + 1 = 0 then 1 else handle + 1)

/-- A number of new blocks. -/
def kmalloc (s : NetworkService) (n : ℕ) : NetworkService := { s with blocks := s.blocks + n }

/-- `kfree`. -/
def kfree (s : NetworkService) (block : ℕ) :
    NetworkService := { s with freed := s.freed ++ [block] }

/-- The request that `network_http_request_start` sets up in a new block, without its URL. -/
def newRequest (s : NetworkService) (env : StartEnv) (bodyCapacity : ℕ) (followRedirects : Bool)
    (timeoutMs : UInt32) : NetworkHttpRequest :=
  { NetworkHttpRequest.zero with
    allocated := true
    followRedirects
    handle := s.networkHttpNextHandle.1
    startedAtMs := env.now
    timeoutMs
    state := .configuring
    bodyCapacity
    responseCapacity := bodyCapacity + networkTcpResponseAllowance
    responseBytes := some s.blocks }

/-- The state in which the request has its block. -/
def allocateResponse (s : NetworkService) : NetworkService :=
  { s.kmalloc 1 with
    responses := s.responses ++ [s.blocks], nextHttpHandle := s.networkHttpNextHandle.2 }

/-- The request is given up. -/
def clearRequest (s : NetworkService) : NetworkService := { s with httpRequest := .zero }

/-- The request is set up and the operation begins. -/
def launch (s : NetworkService) (r : NetworkHttpRequest) (url copy : CString) : NetworkService :=
  { s with
    operationBusy := true
    httpRequest := { r with url, visited := Function.update r.visited 0 copy, visitedCount := 1 } }

/-- The end of `network_http_request_start`, with a block for the response. -/
def startRequest (s : NetworkService) (env : StartEnv) (url : CString) (bodyCapacity : ℕ)
    (followRedirects : Bool) (timeoutMs : UInt32) : NetworkResult × UInt64 × NetworkService :=
  let r := s.newRequest env bodyCapacity followRedirects timeoutMs
  -- on a failure the block is freed and the request is zeroed again
  let refused := (NetworkResult.invalidArgument, 0, s.allocateResponse.clearRequest.kfree s.blocks)
  let text := CString.ofBytes (url.bytes.takeWhile (· ≠ 35))
  if networkUrlCapacity ≤ text.length then refused
  else
    match networkNormalizeHttpUrlPath text with
    | none => refused
    | some url =>
      match networkCopyText networkUrlCapacity url with
      | none => refused
      | some copy => (.ok, r.handle, s.allocateResponse.launch r url copy)

/-- `network_http_request_start`: the result, the handle and the new state. -/
def networkHttpRequestStart (env : StartEnv) (url : Option CString) (bodyCapacity : ℕ)
    (followRedirects : Bool) (timeoutMs : UInt32) (s : NetworkService) :
    NetworkResult × UInt64 × NetworkService :=
  match url with
  | none => (.invalidArgument, 0, s)
  | some url =>
    if !env.outHandle ∨ bodyCapacity = 0 ∨ networkHttpBodyMax < bodyCapacity ∨ timeoutMs = 0 ∨
        networkHttpTimeoutMaxMs < timeoutMs then (.invalidArgument, 0, s)
    else if networkStartsWithCi url httpsScheme then (.unsupported, 0, s)
    else if (networkParseHttpUrl url).isNone then (.invalidArgument, 0, s)
    else if !s.stackReady then (.notReady, 0, s)
    else
      match env.device with
      | none => (.notReady, 0, s)
      | some device =>
        if !device.ready then (.notReady, 0, s)
        else if !device.linkUp then (.linkDown, 0, s)
        else if s.operationBusy || s.httpRequest.allocated then (.busy, 0, s)
        else if sizeMax - networkTcpResponseAllowance < bodyCapacity then (.invalidArgument, 0, s)
        else if !env.kmalloc then (.ioError, 0, s)
        else s.startRequest env url bodyCapacity followRedirects timeoutMs

/-- The check of a handle that the other entry points share. -/
def knows (s : NetworkService) (handle : UInt64) : Bool :=
  handle ≠ 0 && s.httpRequest.allocated && s.httpRequest.handle = handle

/-- `struct network_http_request_status`. -/
structure NetworkHttpRequestStatus where
  state : NetworkHttpRequestState
  result : NetworkResult
  httpStatus : ℕ
  redirectCount : ℕ
  receivedBytes : ℕ
  totalBytes : ℕ
  totalKnown : Bool

/-- `network_http_request_get_status`, with what `http_client_response_body_progress` reports;
`outputs` says that no pointer to a result is null. -/
def networkHttpRequestGetStatus (handle : UInt64) (progress : ℕ) (outputs : Bool)
    (s : NetworkService) : Option NetworkHttpRequestStatus × NetworkService :=
  let r := s.httpRequest
  (if !outputs || !s.knows handle then none
  else if r.state = .complete then
    some ⟨r.state, r.result, r.httpStatus, r.redirectCount, r.bodyLength, r.bodyLength, true⟩
  else
    some ⟨r.state, r.result, r.httpStatus, r.redirectCount,
      if r.tcpInitialized then progress else 0, 0, false⟩, s)

/-- `network_http_request_read` from the bytes of the response. -/
def networkHttpRequestRead (response : ℕ → UInt8) (handle : UInt64) (capacity offset : ℕ)
    (outputs : Bool) (s : NetworkService) : (NetworkResult × List UInt8) × NetworkService :=
  let r := s.httpRequest
  (if !outputs || !s.knows handle then (.invalidArgument, [])
  else if r.state ≠ .complete then
    if r.state = .failed then (r.result, [])
    else if r.state = .canceled then (.canceled, [])
    else (.busy, [])
  else if capacity = 0 ∨ r.bodyLength ≤ offset then (.ok, [])
  else
    (.ok, (List.range (min (r.bodyLength - offset) capacity)).map fun i =>
      response (r.bodyOffset + offset + i)), s)

/-- `network_http_request_cancel`. -/
def networkHttpRequestCancel (handle : UInt64) (s : NetworkService) :
    NetworkResult × NetworkService :=
  if !s.knows handle then (.invalidArgument, s)
  else if !s.httpRequest.active then (.ok, s)
  else (.ok, s.finish .canceled .canceled)

/-- `network_http_request_close`. -/
def networkHttpRequestClose (handle : UInt64) (s : NetworkService) :
    NetworkResult × NetworkService :=
  if !s.knows handle then (.invalidArgument, s)
  else
    let s := if s.httpRequest.active then (s.networkHttpRequestCancel handle).2 else s
    match s.httpRequest.responseBytes with
    | none => (.ok, s.clearRequest)
    | some response => (.ok, s.clearRequest.kfree response)

/-! ### Blocking calls -/

/-- What a blocking call sees between two polls. -/
structure CallEnv where
  now : UInt64
  configured : Bool
  dhcpOff : Bool
  dhcpStart : Bool
  dnsQuery : Bool
  dnsState : NetDnsState
  echoSent : Bool
  /-- Whether the expected echo reply is there. -/
  echoReply : Bool
  kmallocResponse : Bool
  kmallocRequest : Bool
  /-- The result of `http_client_get` and the length of the body, once it returns. -/
  exchange : Option (HttpClientError × ℕ)
  tcpError : TcpClientError

/-- What a blocking call has come to at its next poll. -/
inductive Progress
  | waits (loop : Loop)
  | returns (result : NetworkResult)

/-- `g_active_tcp_client`. -/
def setActiveTcpClient (s : NetworkService) (activeTcpClient : Option Operation) : NetworkService :=
  { s with activeTcpClient }

/-- A blocking call that has the address it asked for. -/
def haveAddress (env : CallEnv) (id : ℕ) (call : BlockingCall) (s : NetworkService) :
    Progress × NetworkService :=
  match call with
  | .renewDhcp _ | .resolveIpv4 _ _ _ => (.returns .ok, s)
  | .ping _ _ _ => (if env.echoSent then .waits (.echoing env.now) else .returns .ioError, s)
  | .httpGet _ bodyCapacity _ _ =>
    if sizeMax - networkTcpResponseAllowance < bodyCapacity - 1 then (.returns .invalidArgument, s)
    else if !env.kmallocResponse then (.returns .ioError, s)
    else if !env.kmallocRequest then
      (.returns .ioError, (s.kmalloc 1).kfree s.blocks)
    else
      (.waits (.exchanging s.blocks (s.blocks + 1)),
        (s.kmalloc 2).setActiveTcpClient (some (.call id)))

/-- The query of `network_resolve_internal`. -/
def queryAddress (env : CallEnv) : Progress :=
  if env.dnsQuery then .waits (.resolving env.now) else .returns .dnsFailed

/-- The first part of `network_require_configuration`; `none` if the stack is configured. -/
def requireConfiguration (env : CallEnv) (timeoutMs : UInt32) (resolving : Bool)
    (s : NetworkService) : Option Progress :=
  if !s.stackReady then some (.returns .notReady)
  else if env.configured then none
  else if env.dhcpOff && !env.dhcpStart then some (.returns .ioError)
  else some (.waits (.configuring env.now timeoutMs resolving))

/-- `network_resolve_internal`, up to its first poll. -/
def resolveInternal (env : CallEnv) (id : ℕ) (call : BlockingCall) (s : NetworkService) :
    Progress × NetworkService :=
  match call.hostname with
  | none => (.returns .invalidArgument, s)
  | some hostname =>
    if !call.outputs ∨ hostname.length = 0 ∨ call.timeoutMs = 0 then (.returns .invalidArgument, s)
    else if (networkParseIpv4 hostname).isSome then s.haveAddress env id call
    else if netDnsNameMax < hostname.length then (.returns .invalidArgument, s)
    else
      match s.requireConfiguration env networkDhcpTimeoutMs true with
      | some progress => (progress, s)
      | none => (queryAddress env, s)

/-- A blocking call after its checks, up to its first poll; the flag is set. -/
def enter (env : CallEnv) (id : ℕ) (call : BlockingCall) (s : NetworkService) :
    Progress × NetworkService :=
  match call with
  | .renewDhcp timeoutMs =>
    if !s.stackReady then (.returns .notReady, s)
    else if !env.dhcpStart then (.returns .ioError, s)
    else ((s.requireConfiguration env timeoutMs false).getD (.returns .ok), s)
  | .resolveIpv4 _ _ _ | .ping _ _ _ => s.resolveInternal env id call
  | .httpGet url _ _ _ =>
    match url.bind networkParseHttpUrl with
    | none =>
      (.returns (if url.any (networkStartsWithCi · httpsScheme) then .unsupported
        else .invalidArgument), s)
    | some _ =>
      match s.requireConfiguration env networkDhcpTimeoutMs false with
      | some progress => (progress, s)
      | none => s.resolveInternal env id call

/-- The loops of a blocking call, from one poll to the next. -/
def proceed (env : CallEnv) (frame : Frame) (s : NetworkService) : Progress × NetworkService :=
  match frame.loop with
  | .configuring startedAt timeoutMs resolving =>
    if env.configured then
      match frame.call with
      | .renewDhcp _ => (.returns .ok, s)
      | call => if resolving then (queryAddress env, s) else s.resolveInternal env frame.id call
    else if env.now - startedAt < timeoutMs.toUInt64 then (.waits frame.loop, s)
    else (.returns .timeout, s)
  | .resolving startedAt =>
    match env.dnsState with
    | .resolved => s.haveAddress env frame.id frame.call
    | .notFound | .malformedResponse | .serverError => (.returns .dnsFailed, s)
    | .timedOut => (.returns .timeout, s)
    | .idle | .pending =>
      if env.now - startedAt < frame.call.timeoutMs.toUInt64 then (.waits frame.loop, s)
      else (.returns .timeout, s)
  | .echoing startedAt =>
    if env.echoReply then (.returns .ok, s)
    else if env.now - startedAt < frame.call.timeoutMs.toUInt64 then (.waits frame.loop, s)
    else (.returns .timeout, s)
  | .exchanging responseBytes requestBytes =>
    match env.exchange with
    | none => (.waits frame.loop, s)
    | some (error, bodyLength) =>
      let result := networkMapHttpError error env.tcpError
      let result := if result = .ok ∧ frame.call.bodyCapacity ≤ bodyLength then .responseTooLarge
        else result
      (.returns result, ((s.setActiveTcpClient none).kfree requestBytes).kfree responseBytes)

/-- A blocking call returns: it gives the flag back. -/
def leave (result : NetworkResult) (s : NetworkService) : Option NetworkResult × NetworkService :=
  (some result, { s with operationBusy := false })

/-- `network_renew_dhcp`, `network_resolve_ipv4`, `network_ping` and `network_http_get`, up to their
first poll; there is a result if the call returns before. -/
def beginCall (env : CallEnv) (call : BlockingCall) (s : NetworkService) :
    Option NetworkResult × NetworkService :=
  if call.invalid then (some .invalidArgument, s)
  else if s.operationBusy then (some .busy, s)
  else
    match enter env s.nextCall call
      { s with operationBusy := true, nextCall := s.nextCall + 1 } with
    | (.returns result, s') => s'.leave result
    | (.waits loop, s') => (none, { s' with calls := ⟨s.nextCall, call, loop⟩ :: s'.calls })

/-- A blocking call goes on after a poll. -/
def resumeCall (env : CallEnv) (id : ℕ) (s : NetworkService) :
    Option NetworkResult × NetworkService :=
  match s.calls.find? (·.id = id) with
  | none => (none, s)
  | some frame =>
    let others := s.calls.filter (·.id ≠ id)
    match s.proceed env frame with
    | (.returns result, s') => { s' with calls := others }.leave result
    | (.waits loop, s') => (none, { s' with calls := { frame with loop } :: others })

end NetworkService

/-! ### Runs -/

/-- One event: a call of an entry point, or the next round of a blocking call. -/
inductive NetworkCall
  | start (env : NetworkService.StartEnv) (url : Option CString) (bodyCapacity : ℕ)
      (followRedirects : Bool) (timeoutMs : UInt32)
  | getStatus (handle : UInt64) (progress : ℕ) (outputs : Bool)
  | read (response : ℕ → UInt8) (handle : UInt64) (capacity offset : ℕ) (outputs : Bool)
  | cancel (handle : UInt64)
  | close (handle : UInt64)
  | poll (env : DriveEnv)
  | call (env : NetworkService.CallEnv) (call : BlockingCall)
  | resume (env : NetworkService.CallEnv) (id : ℕ)

/-- The effect of an event. -/
def NetworkService.step (s : NetworkService) : NetworkCall → NetworkService
  | .start env url bodyCapacity followRedirects timeoutMs =>
    (s.networkHttpRequestStart env url bodyCapacity followRedirects timeoutMs).2.2
  | .getStatus handle progress outputs =>
    (s.networkHttpRequestGetStatus handle progress outputs).2
  | .read response handle capacity offset outputs =>
    (s.networkHttpRequestRead response handle capacity offset outputs).2
  | .cancel handle => (s.networkHttpRequestCancel handle).2
  | .close handle => (s.networkHttpRequestClose handle).2
  | .poll env => s.networkPoll env
  | .call env call => (s.beginCall env call).2
  | .resume env id => (s.resumeCall env id).2

/-- A run. -/
def NetworkService.run (s : NetworkService) (calls : List NetworkCall) : NetworkService :=
  calls.foldl NetworkService.step s

end Nostalux.Network
