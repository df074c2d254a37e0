import Nostalux.Http.Types
import Nostalux.Library.Crlf

/-!
# `kernel/http_client.c`: building a request

`http_client_build_get` writes a request into a buffer.

* `httpClientBuildGet_eq_ok_iff`: when it succeeds, and what it writes;
* `lines_getRequest`: the lines of the request.
-/

namespace Nostalux.Http

open CString List Crlf

/-- `valid_host`; a `NULL` pointer is `none`. -/
def validHost (host : Option CString) : Bool :=
  match host with
  | none => false
  | some host => host.bytes ≠ [] && host.bytes.all fun c => !(c ≤ 32 || 127 ≤ c || c = 47)

/-- `valid_path`; a `NULL` pointer is `none`. -/
def validPath (path : Option CString) : Bool :=
  match path with
  | none => false
  | some path => path.char 0 = 47 && path.bytes.all fun c => !(c ≤ 32 || 127 ≤ c)

/-- `append_bytes` to what is written already. -/
def appendBytes (capacity : ℕ) (output bytes : List UInt8) : Option (List UInt8) :=
  if output.length > capacity ∨ bytes.length > capacity - output.length then none
  else some (output ++ bytes)

/-- `append_text`. -/
def appendText (capacity : ℕ) (output : List UInt8) (text : CString) : Option (List UInt8) :=
  appendBytes capacity output text.bytes

/-- `request_prefix`. -/
def requestStart : CString := .ofString "GET "

/-- `host_prefix`. -/
def hostStart : CString := .ofString " HTTP/1.1\r\nHost: "

/-- `request_suffix`. -/
def requestEnd : CString :=
  .ofString "\r\nConnection: close\r\nUser-Agent: Nostalux/1.0\r\nAccept: */*\r\n\r\n"

/-- The texts that `http_client_build_get` appends one after the other. -/
def appendTexts (capacity : ℕ) : List UInt8 → List CString → Option (List UInt8)
  | output, [] => some output
  | output, text :: texts =>
    match appendText capacity output text with
    | none => none
    | some output => appendTexts capacity output texts

/-- `http_client_build_get`.  There is no capacity if the pointer to the buffer or to the length is
`NULL`; the result is the front part of the buffer that `request_length` tells. -/
def httpClientBuildGet (host path : Option CString) (requestCapacity : Option ℕ) :
    Except HttpClientError (List UInt8) :=
  match requestCapacity with
  | none => .error .invalidArgument
  | some capacity =>
    if !validHost host then .error .invalidHost
    else if !validPath path then .error .invalidPath
    else
      match appendTexts capacity []
          [requestStart, path.getD .empty, hostStart, host.getD .empty, requestEnd] with
      | none => .error .requestTooLarge
      | some output => .ok output

/-- The request of a path at a host. -/
def getRequest (host path : CString) : List UInt8 :=
  requestStart.bytes ++ path.bytes ++ hostStart.bytes ++ host.bytes ++ requestEnd.bytes

theorem appendTexts_eq {capacity : ℕ} {output : List UInt8} (h : output.length ≤ capacity)
    (texts : List CString) :
    appendTexts capacity output texts =
      if (output ++ texts.flatMap bytes).length ≤ capacity then
        some (output ++ texts.flatMap bytes) else none := by
  induction texts generalizing output with
  | nil => simp [appendTexts, h]
  | cons text texts ih =>
    rw [appendTexts, appendText, appendBytes]
    simp only [flatMap_cons, ← append_assoc]
    by_cases hfits : (output ++ text.bytes).length ≤ capacity
    · rw [if_neg (by rw [length_append] at hfits; omega)]
      exact ih hfits
    · rw [if_pos (by rw [length_append] at hfits; omega), if_neg]
      rw [length_append]
      omega

/-- A request is built if the host and the path are valid and it fits. -/
theorem httpClientBuildGet_eq_ok_iff (host path : CString) (capacity : ℕ) (output : List UInt8) :
    httpClientBuildGet (some host) (some path) (some capacity) = .ok output ↔
      validHost (some host) = true ∧ validPath (some path) = true ∧
        (getRequest host path).length ≤ capacity ∧ output = getRequest host path := by
  have htexts : [] ++ [requestStart, path, hostStart, host, requestEnd].flatMap bytes =
      getRequest host path := by
    simp [getRequest]
  rw [httpClientBuildGet]
  cases hhost : validHost (some host) with
  | false => simp
  | true =>
    cases hpath : validPath (some path) with
    | false => simp
    | true =>
      simp only [Bool.not_true, Bool.false_eq_true, if_false, Option.getD_some, true_and]
      rw [appendTexts_eq (Nat.zero_le _), htexts]
      by_cases hfits : (getRequest host path).length ≤ capacity
      · rw [if_pos hfits]
        simp [hfits, eq_comm]
      · rw [if_neg hfits]
        simp [hfits]

/-- A byte that passes `valid_path` or `valid_host` does not end a line. -/
theorem not_mem_of_printable {bytes : List UInt8} (h : ∀ c ∈ bytes, 32 < c) :
    13 ∉ bytes ∧ 10 ∉ bytes :=
  ⟨fun hmem => absurd (h 13 hmem) (by decide), fun hmem => absurd (h 10 hmem) (by decide)⟩

/-- The lines of a request. -/
def getLines (host path : List UInt8) : List (List UInt8) :=
  [(CString.ofString "GET ").bytes ++ path ++ (CString.ofString " HTTP/1.1").bytes,
    (CString.ofString "Host: ").bytes ++ host, (CString.ofString "Connection: close").bytes,
    (CString.ofString "User-Agent: Nostalux/1.0").bytes, (CString.ofString "Accept: */*").bytes, []]

/-- The lines of a request have no line end inside. -/
theorem not_mem_getLines {host path : List UInt8} (hhost : ∀ c ∈ host, 32 < c)
    (hpath : ∀ c ∈ path, 32 < c) : ∀ line ∈ getLines host path, 13 ∉ line ∧ 10 ∉ line := by
  have hh := not_mem_of_printable hhost
  have hp := not_mem_of_printable hpath
  intro line hline
  simp only [getLines, mem_cons, not_mem_nil, or_false] at hline
  rcases hline with rfl | rfl | rfl | rfl | rfl | rfl
  · simp only [mem_append, not_or]
    exact ⟨⟨⟨by decide, hp.1⟩, by decide⟩, ⟨by decide, hp.2⟩, by decide⟩
  · simp only [mem_append, not_or]
    exact ⟨⟨by decide, hh.1⟩, by decide, hh.2⟩
  all_goals decide

/-- The request is made of its lines. -/
theorem lines_getRequest {host path : CString} (hhost : ∀ c ∈ host.bytes, 32 < c)
    (hpath : ∀ c ∈ path.bytes, 32 < c) :
    lines (getRequest host path) = getLines host.bytes path.bytes ++ [[]] := by
  have hjoined : getRequest host path = joined (getLines host.bytes path.bytes) := by
    have hstart : hostStart.bytes = (ofString " HTTP/1.1").bytes ++ 13 :: 10 ::
        (ofString "Host: ").bytes := by decide
    have hend : requestEnd.bytes = 13 :: 10 :: joined
        [(ofString "Connection: close").bytes, (ofString "User-Agent: Nostalux/1.0").bytes,
          (ofString "Accept: */*").bytes, []] := by decide
    rw [getRequest, hstart, hend, getLines, joined_cons, joined_cons]
    simp [requestStart]
  rw [hjoined]
  exact lines_joined fun line hline => (not_mem_getLines hhost hpath line hline).1

end Nostalux.Http
