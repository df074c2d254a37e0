import Nostalux.Http.Get
import Mathlib.Data.List.DropRight

/-!
# `kernel/network.c`: URLs

Text buffers of the service hold C strings; a copy or an append that does not fit its buffer fails.
A URL is taken apart by `networkParseHttpUrl`, its dot segments are removed by
`networkNormalizeHttpUrlPath`, and `networkResolveRedirectUrl` gives the URL that a `Location`
names.
-/

namespace Nostalux.Network

open Nostalux.Http

/-- `NETWORK_HOSTNAME_CAPACITY`. -/
abbrev networkHostnameCapacity : ℕ := 254

/-- `NETWORK_URL_CAPACITY`. -/
abbrev networkUrlCapacity : ℕ := 512

/-! ### Texts -/

/-- The loop of `network_starts_with_ci`. -/
def networkStartsWithCiLoop : List UInt8 → List UInt8 → Bool
  | _, [] => true
  | text, c :: rest =>
    asciiLower (text.headD 0) = asciiLower c && networkStartsWithCiLoop text.tail rest

/-- `network_starts_with_ci`. -/
def networkStartsWithCi (text start : CString) : Bool :=
  networkStartsWithCiLoop text.bytes start.bytes

/-- The loop of `network_text_equal`. -/
def networkTextEqualLoop : List UInt8 → List UInt8 → Bool
  | a :: as, b :: bs => if a ≠ b then false else networkTextEqualLoop as bs
  | as, bs => as.headD 0 = bs.headD 0

/-- `network_text_equal`. -/
def networkTextEqual (left right : CString) : Bool := networkTextEqualLoop left.bytes right.bytes

/-- `network_copy_text`: the text of the destination. -/
def networkCopyText (capacity : ℕ) (source : CString) : Option CString :=
  if capacity = 0 then none else if capacity ≤ source.length then none else some source

/-- `network_append_span`: the text of the destination. -/
def networkAppendSpan (capacity : ℕ) (destination : CString) (source : List UInt8) :
    Option CString :=
  if capacity = 0 then none
  else if capacity ≤ destination.length ∨ capacity - destination.length ≤ source.length then none
  else some (CString.ofBytes (destination.bytes ++ source))

/-- `network_append_text`: the text of the destination. -/
def networkAppendText (capacity : ℕ) (destination source : CString) : Option CString :=
  networkAppendSpan capacity destination source.bytes

theorem networkTextEqualLoop_iff {as bs : List UInt8} (ha : 0 ∉ as) (hb : 0 ∉ bs) :
    networkTextEqualLoop as bs = true ↔ as = bs := by
  induction as generalizing bs with
  | nil =>
    cases bs with
    | nil => simp [networkTextEqualLoop]
    | cons b bs =>
      have h0 : (0 : UInt8) ≠ b := fun h => hb (h ▸ List.mem_cons_self)
      simp [networkTextEqualLoop, h0]
  | cons a as ih =>
    cases bs with
    | nil =>
      have h0 : a ≠ 0 := fun h => ha (h ▸ List.mem_cons_self)
      simp [networkTextEqualLoop, h0]
    | cons b bs =>
      have ih' := ih (fun h => ha (List.mem_cons_of_mem _ h)) fun h => hb (List.mem_cons_of_mem _ h)
      by_cases hab : a = b <;> simp [networkTextEqualLoop, hab, ih']

theorem networkTextEqual_iff {left right : CString} :
    networkTextEqual left right = true ↔ left = right :=
  (networkTextEqualLoop_iff left.noNul right.noNul).trans ⟨CString.ext, congrArg CString.bytes⟩

theorem eq_of_networkCopyText {capacity : ℕ} {source text : CString}
    (h : networkCopyText capacity source = some text) : text = source := by
  unfold networkCopyText at h
  split at h
  · exact nomatch h
  split at h
  · exact nomatch h
  · exact (Option.some.inj h).symm

/-! ### Taking a URL apart -/

/-- `struct network_url`. -/
structure NetworkUrl where
  hostname : CString
  hostHeader : CString
  path : CString
  port : UInt16

/-- A zeroed URL. -/
def NetworkUrl.zero : NetworkUrl := ⟨.empty, .empty, .empty, 0⟩

/-- `http://`. -/
def httpScheme : CString := CString.ofString "http://"

/-- `https://`. -/
def httpsScheme : CString := CString.ofString "https://"

/-- Whether the byte ends the authority of a URL. -/
def endsAuthority (c : UInt8) : Bool := c = 47 || c = 63 || c = 35

/-- The authority that follows `http://`. -/
def authorityOf (url : CString) : List UInt8 :=
  (url.bytes.drop 7).takeWhile fun c => !endsAuthority c

/-- What follows the authority. -/
def afterAuthority (url : CString) : List UInt8 :=
  (url.bytes.drop 7).dropWhile fun c => !endsAuthority c

/-- The loop over the digits of a port. -/
def parsePortLoop : List UInt8 → ℕ → Option ℕ
  | [], port => some port
  | c :: rest, port =>
    if c < 48 ∨ 57 < c then none
    else
      let port := port * 10 + (c - 48).toNat
      if 65535 < port then none else parsePortLoop rest port

/-- The port of an authority. -/
def parsePort (authority : List UInt8) : Option UInt16 :=
  if authority.contains 58 then
    let digits := (authority.dropWhile (· ≠ 58)).tail
    if digits = [] then none
    else
      match parsePortLoop digits 0 with
      | none => none
      | some port => if port = 0 then none else some (UInt16.ofNat port)
  else some 80

/-- Whether the byte may not stand in a path or a fragment. -/
def isControl (c : UInt8) : Bool := c ≤ 32 || c = 127

/-- The loop that copies the path, after what is written already. -/
def parsePath (written : List UInt8) : List UInt8 → Option (List UInt8)
  | [] => some written
  | c :: rest =>
    if c = 35 then if rest.any isControl then none else some written
    else if isControl c || networkUrlCapacity ≤ written.length + 1 then none
    else parsePath (written ++ [c]) rest

/-- The path of a request, from what follows the authority. -/
def requestPath (rest : List UInt8) : Option (List UInt8) :=
  match rest with
  | [] => some [47]
  | c :: _ => if c = 35 || c = 63 then parsePath [47] rest else parsePath [] rest

/-- `network_parse_http_url`. -/
def networkParseHttpUrl (url : CString) : Option NetworkUrl :=
  if !networkStartsWithCi url httpScheme || networkUrlCapacity ≤ url.length then none
  else
    let authority := authorityOf url
    if authority.any fun c => c ≤ 32 || c = 64 || c = 91 || c = 93 then none
    else if authority = [] then none
    else if 1 < authority.count 58 then none
    else
      let hostname := authority.takeWhile (· ≠ 58)
      if hostname = [] ∨ networkHostnameCapacity ≤ hostname.length then none
      else
        match parsePort authority with
        | none => none
        | some port =>
          if networkHostnameCapacity + 8 ≤ authority.length then none
          else
            match requestPath (afterAuthority url) with
            | none => none
            | some path =>
              some ⟨CString.ofBytes hostname, CString.ofBytes authority, CString.ofBytes path, port⟩

/-! ### Dot segments -/

/-- A `..` segment: the last segment written after the authority is taken back, with its slash. -/
def removeSegment (root : ℕ) (written : List UInt8) : List UInt8 :=
  written.take root ++ ((written.drop root).rdropWhile (· ≠ 47)).dropLast

/-- One more slash. -/
def appendSlash (written : List UInt8) : Option (List UInt8) :=
  if networkUrlCapacity ≤ written.length + 1 then none else some (written ++ [47])

/-- One round of the loop over the segments of a path. -/
def appendSegment (root : ℕ) (segment : List UInt8) (final : Bool) (written : List UInt8) :
    Option (List UInt8) :=
  if segment = [46] then if final then appendSlash written else some written
  else if segment = [46, 46] then
    let written := removeSegment root written
    if final then appendSlash written else some written
  else
    match appendSlash written with
    | none => none
    | some written =>
      if networkUrlCapacity - written.length ≤ segment.length then none
      else some (written ++ segment)

/-- The loop over the segments of a path. -/
def appendSegments (root : ℕ) : List (List UInt8) → List UInt8 → Option (List UInt8)
  | [], written => some written
  | [segment], written => appendSegment root segment true written
  | segment :: rest, written =>
    match appendSegment root segment false written with
    | none => none
    | some written => appendSegments root rest written

/-- Whether the byte ends the path of a URL. -/
def endsPath (c : UInt8) : Bool := c = 63 || c = 35

/-- The path written in normal form after the authority, and the query that follows it. -/
def normalizePath (start rest : List UInt8) : Option (List UInt8) × List UInt8 :=
  match rest with
  | 47 :: path =>
    (appendSegments start.length ((path.takeWhile fun c => !endsPath c).splitOn 47) start,
      path.dropWhile fun c => !endsPath c)
  | _ => (some (start ++ [47]), rest)

/-- `network_normalize_http_url_path`. -/
def networkNormalizeHttpUrlPath (url : CString) : Option CString :=
  if !networkStartsWithCi url httpScheme then none
  else
    let rest := afterAuthority url
    if authorityOf url = [] ∨ rest.head? = some 35 then none
    else
      let start := url.bytes.take (url.length - rest.length)
      let query := (normalizePath start rest).2
      if query.head? = some 35 then none
      else if networkUrlCapacity ≤ start.length + 1 then none
      else
        match (normalizePath start rest).1 with
        | none => none
        | some written =>
          if networkUrlCapacity - written.length ≤ query.length then none
          else networkCopyText networkUrlCapacity (CString.ofBytes (written ++ query))

/-! ### Redirects -/

/-- The test for a letter of `network_url_has_explicit_scheme`. -/
def isLetter (c : UInt8) : Bool := (65 ≤ c && c ≤ 90) || (97 ≤ c && c ≤ 122)

/-- The loop of `network_url_has_explicit_scheme`. -/
def hasExplicitSchemeLoop : List UInt8 → Bool
  | [] => false
  | c :: rest =>
    if c = 58 then true
    else if endsAuthority c then false
    else if !(isAlphanumeric c || c = 43 || c = 45 || c = 46) then false
    else hasExplicitSchemeLoop rest

/-- `network_url_has_explicit_scheme`. -/
def networkUrlHasExplicitScheme (location : CString) : Bool :=
  match location.bytes with
  | [] => false
  | c :: rest => isLetter c && hasExplicitSchemeLoop rest

/-- The part of a path up to its last slash. -/
def directoryOf (path : List UInt8) : List UInt8 := path.rdropWhile (· ≠ 47)

/-- The URL that a reference names, before its dot segments are removed. -/
def mergeReference (parsed : NetworkUrl) (reference : CString) : Option CString :=
  if networkStartsWithCi reference httpScheme then networkCopyText networkUrlCapacity reference
  else if reference.char 0 = 47 ∧ reference.char 1 = 47 then
    networkAppendText networkUrlCapacity (CString.ofString "http:") reference
  else
    match networkAppendText networkUrlCapacity httpScheme parsed.hostHeader with
    | none => none
    | some destination =>
      let path := parsed.path.bytes.takeWhile (· ≠ 63)
      if reference.char 0 = 47 then networkAppendText networkUrlCapacity destination reference
      else
        match networkAppendSpan networkUrlCapacity destination
            (if reference.char 0 = 63 then path else directoryOf path) with
        | none => none
        | some destination => networkAppendText networkUrlCapacity destination reference

/-- How a redirect can fail in `network_resolve_redirect_url`. -/
inductive RedirectError
  | protocol
  | unsupported
  deriving DecidableEq

/-- `network_resolve_redirect_url`. -/
def networkResolveRedirectUrl (parsed : NetworkUrl) (location : CString) :
    Except RedirectError CString :=
  if location.char 0 = 0 then .error .protocol
  else
    match networkCopyText networkUrlCapacity location with
    | none => .error .protocol
    | some text =>
      let reference := CString.ofBytes (text.bytes.takeWhile (· ≠ 35))
      if reference.char 0 = 0 then .error .protocol
      else if networkStartsWithCi reference httpsScheme then .error .unsupported
      else if !networkStartsWithCi reference httpScheme ∧ networkUrlHasExplicitScheme reference then
        .error .unsupported
      else
        match mergeReference parsed reference with
        | none => .error .protocol
        | some destination =>
          match networkNormalizeHttpUrlPath destination with
          | none => .error .protocol
          | some url => if (networkParseHttpUrl url).isSome then .ok url else .error .protocol

theorem normal_of_networkResolveRedirectUrl {parsed : NetworkUrl} {location url : CString}
    (h : networkResolveRedirectUrl parsed location = .ok url) :
    ∃ text, networkNormalizeHttpUrlPath text = some url := by
  unfold networkResolveRedirectUrl at h
  split at h
  · exact nomatch h
  split at h
  · exact nomatch h
  dsimp only at h
  split at h
  · exact nomatch h
  split at h
  · exact nomatch h
  split at h
  · exact nomatch h
  split at h
  · exact nomatch h
  rename_i destination _
  split at h
  · exact nomatch h
  rename_i hnormal
  split at h
  · exact ⟨destination, Except.ok.inj h ▸ hnormal⟩
  · exact nomatch h

/-- `NETWORK_HTTP_REQUEST_CAPACITY`. -/
abbrev networkHttpRequestCapacity : ℕ := 1024

/-- What `network_http_begin_send` does first. -/
def buildRequest (parsed : NetworkUrl) : Except HttpClientError (List UInt8) :=
  httpClientBuildGet (some parsed.hostHeader) (some parsed.path) (some networkHttpRequestCapacity)

end Nostalux.Network
