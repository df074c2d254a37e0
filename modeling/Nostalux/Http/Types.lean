import Nostalux.Library.CString

/-!
# `kernel/http_client.c`: errors, responses and the `Location` of a redirect

`HttpResponse` is the view of a parsed response; a pointer into the response buffer is the bytes it
points at, and the body is its offset from the start of the buffer.
-/

namespace Nostalux.Http

/-- `enum http_client_error`. -/
inductive HttpClientError
  | none
  | invalidArgument
  | invalidHost
  | invalidPath
  | requestTooLarge
  | tcp
  | headerTooLarge
  | malformedStatusLine
  | unsupportedVersion
  | malformedHeader
  | invalidContentLength
  | conflictingFraming
  | unsupportedTransferEncoding
  | malformedChunkedBody
  | chunkMetadataTooLarge
  | truncatedBody
  | unexpectedExtraData
  | redirectLocationMissing
  | invalidRedirectLocation
  | redirectLocationTooLarge
  | invalidInformationalFraming
  | tooManyInformationalResponses
  | informationalResponseWithoutFinal
  | unsupportedProtocolSwitch
  deriving DecidableEq

/-- The fields of `struct http_response` that the network service reads. -/
structure HttpResponse where
  statusCode : ℕ
  /-- The distance of `body` from the start of the buffer. -/
  bodyOffset : ℤ
  bodyLength : ℕ
  /-- `location`, when `has_location` is set. -/
  location : Option (List UInt8)

/-- `ascii_lower`. -/
def asciiLower (c : UInt8) : UInt8 := if 65 ≤ c ∧ c ≤ 90 then c + 32 else c

/-- `hex_digit_value`. -/
def hexDigitValue (c : UInt8) : Option UInt8 :=
  if 48 ≤ c ∧ c ≤ 57 then some (c - 48)
  else if 97 ≤ asciiLower c ∧ asciiLower c ≤ 102 then some (asciiLower c - 97 + 10)
  else none

/-- The test for a letter or a digit that the character classes share. -/
def isAlphanumeric (c : UInt8) : Bool :=
  (97 ≤ c && c ≤ 122) || (65 ≤ c && c ≤ 90) || (48 ≤ c && c ≤ 57)

/-- `redirect_status`. -/
def redirectStatus (statusCode : ℕ) : Bool :=
  statusCode = 300 || statusCode = 301 || statusCode = 302 || statusCode = 303 ||
    statusCode = 307 || statusCode = 308

/-- `uri_character_allowed`. -/
def uriCharacterAllowed (c : UInt8) : Bool :=
  isAlphanumeric c || (CString.ofString "-._~:/?#[]@!$&'()*+,;=").bytes.contains c

/-- The loop of `valid_uri_reference`. -/
def validUriReferenceLoop : List UInt8 → Bool
  | [] => true
  | [c] => c ≠ 37 && uriCharacterAllowed c
  | [c, d] => if c = 37 then false else uriCharacterAllowed c && validUriReferenceLoop [d]
  | c :: d :: e :: rest =>
    if c = 37 then
      (hexDigitValue d).isSome && (hexDigitValue e).isSome && validUriReferenceLoop rest
    else uriCharacterAllowed c && validUriReferenceLoop (d :: e :: rest)

/-- `valid_uri_reference`. -/
def validUriReference (location : List UInt8) : Bool :=
  location ≠ [] && validUriReferenceLoop location

/-- `http_response_is_redirect`. -/
def httpResponseIsRedirect (response : HttpResponse) : Bool := redirectStatus response.statusCode

/-- `http_response_copy_redirect_location` to a buffer of the capacity. -/
def httpResponseCopyRedirectLocation (response : HttpResponse) (capacity : ℕ) :
    Except HttpClientError (List UInt8) :=
  if capacity = 0 then .error .invalidArgument
  else if !httpResponseIsRedirect response then .error .redirectLocationMissing
  else
    match response.location with
    | none => .error .redirectLocationMissing
    | some location =>
      if !validUriReference location then .error .invalidRedirectLocation
      else if capacity ≤ location.length then .error .redirectLocationTooLarge
      else .ok location

end Nostalux.Http
