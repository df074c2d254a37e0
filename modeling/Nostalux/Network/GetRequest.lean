import Nostalux.Network.Components

/-!
# The requests of accepted URLs

`network_http_begin_send` builds a request from the host header and the path of an accepted URL.

* `accepted_url_is_requested_iff`: which accepted URLs can be requested; the lines of the request
  are those of its authority and its path in every case.
-/

namespace Nostalux.Network

open Nostalux.Http List

/-- The path and the query of a URL without its fragment, with an empty path written as a slash. -/
def resourceOf (url : CString) : List UInt8 :=
  let rest := (afterAuthority url).takeWhile (· ≠ 35)
  if rest.head? = some 47 then rest else 47 :: rest

/-- The request of a URL: its lines name the authority and the path of the URL, and no byte of the
URL ends a line. -/
structure IsRequestOf (url : CString) (output : List UInt8) : Prop where
  fits : output.length ≤ networkHttpRequestCapacity
  lines_eq : Crlf.lines output = getLines (authorityOf url) (resourceOf url) ++ [[]]
  plain : ∀ line ∈ getLines (authorityOf url) (resourceOf url), 13 ∉ line ∧ 10 ∉ line

/-- The URL has no byte from 127 on before its fragment. -/
def IsAscii (url : CString) : Prop := ∀ c ∈ authorityOf url ++ resourceOf url, c < 127

theorem head?_resourceOf (url : CString) : (resourceOf url).head? = some 47 := by
  rw [resourceOf]
  split
  · assumption
  · rfl

section

variable {url : CString} {parsed : NetworkUrl}

/-- A path that is copied has no control characters and fits. -/
theorem plain_of_parsePath {written rest path : List UInt8} (h : parsePath written rest = some path)
    (hwritten : written.length < networkUrlCapacity) :
    path.length < networkUrlCapacity ∧ ∀ c ∈ rest.takeWhile (· ≠ 35), isControl c = false := by
  induction rest generalizing written with
  | nil =>
    cases h
    exact ⟨hwritten, by simp⟩
  | cons c rest ih =>
    rw [parsePath] at h
    by_cases hc : c = 35
    · rw [if_pos hc] at h
      split at h
      · cases h
      · cases h
        exact ⟨hwritten, by simp [hc]⟩
    · rw [if_neg hc] at h
      split at h
      · cases h
      · rename_i hguard
        simp only [Bool.or_eq_true, decide_eq_true_eq, not_or, Bool.not_eq_true, not_le] at hguard
        obtain ⟨hlength, hplain⟩ := ih h (by simpa using hguard.2)
        rw [takeWhile_cons_of_pos (by simpa using hc)]
        exact ⟨hlength, forall_mem_cons.2 ⟨hguard.1, hplain⟩⟩

/-- The path of a request is the resource of the URL. -/
theorem requestPath_afterAuthority {path : List UInt8}
    (h : requestPath (afterAuthority url) = some path) :
    path = resourceOf url ∧ path.length < networkUrlCapacity ∧
      ∀ c ∈ path, isControl c = false := by
  cases hrest : afterAuthority url with
  | nil =>
    rw [hrest] at h
    cases h
    rw [resourceOf, hrest]
    exact ⟨rfl, by decide, by decide +kernel⟩
  | cons c rest =>
    have hends : endsAuthority c = true := by
      have hnot := head?_dropWhile_not (fun c => !endsAuthority c) (url.bytes.drop 7)
      rw [← afterAuthority, hrest] at hnot
      simpa using hnot
    rw [hrest, requestPath] at h
    rw [resourceOf, hrest]
    split at h
    · rename_i hmark
      obtain ⟨hlength, hplain⟩ := plain_of_parsePath h (by decide)
      have hpath := eq_of_parsePath h
      have hhead : ¬((c :: rest).takeWhile (· ≠ 35)).head? = some 47 := by
        rw [takeWhile_cons]
        split
        · intro hslash
          rw [Option.some.inj hslash] at hmark
          exact absurd hmark (by decide)
        · simp
      rw [if_neg hhead]
      refine ⟨hpath, hlength, fun d hd => ?_⟩
      rw [hpath] at hd
      rcases mem_cons.1 hd with rfl | hd
      · rfl
      · exact hplain d hd
    · rename_i hmark
      obtain ⟨hlength, hplain⟩ := plain_of_parsePath h (by decide)
      have hpath := eq_of_parsePath h
      rw [nil_append] at hpath
      have hc : c = 47 := by
        simp only [Bool.or_eq_true, decide_eq_true_eq, not_or] at hmark
        simp only [endsAuthority, Bool.or_eq_true, decide_eq_true_eq] at hends
        rcases hends with (hc | hc) | hc
        · exact hc
        · exact absurd hc hmark.2
        · exact absurd hc hmark.1
      rw [hc] at hpath hplain ⊢
      rw [if_pos (by simp)]
      refine ⟨hpath, hlength, fun d hd => hplain d ?_⟩
      rwa [hpath] at hd

/-- What an accepted URL gives to its request. -/
structure Requested (url : CString) (parsed : NetworkUrl) : Prop where
  host_eq : parsed.hostHeader.bytes = authorityOf url
  path_eq : parsed.path.bytes = resourceOf url
  host_valid : authorityIsValid (authorityOf url) = true
  path_length : (resourceOf url).length < networkUrlCapacity
  path_plain : ∀ c ∈ resourceOf url, isControl c = false

theorem requested_of_parse (h : networkParseHttpUrl url = some parsed) : Requested url parsed := by
  have haccepted : (networkParseHttpUrl url).isSome = true := by
    rw [h]
    rfl
  obtain ⟨-, -, hvalid, -⟩ := (networkParseHttpUrl_isSome_iff url).1 haccepted
  obtain ⟨hhost, path, hpath, hparsed⟩ := hostHeader_path_of_parse h
  obtain ⟨hresource, hlength, hplain⟩ := requestPath_afterAuthority hpath
  have hzero : 0 ∉ authorityOf url := fun hmem =>
    url.noNul (mem_of_mem_drop ((List.takeWhile_prefix _).subset hmem))
  rw [hresource] at hparsed hlength hplain
  refine ⟨?_, ?_, hvalid, hlength, hplain⟩
  · rw [hhost, CString.bytes_ofBytes hzero]
  · rw [hparsed, CString.bytes_ofBytes fun hmem => absurd (hplain 0 hmem) (by decide)]

namespace Requested

variable (H : Requested url parsed)

include H

theorem host_printable : ∀ c ∈ parsed.hostHeader.bytes, 32 < c := by
  have hvalid := H.host_valid
  rw [← H.host_eq] at hvalid
  simp only [authorityIsValid, Bool.and_eq_true, Bool.not_eq_true', any_eq_false,
    Bool.or_eq_true, decide_eq_true_eq, not_or] at hvalid
  intro c hc
  exact UInt8.not_le.1 (hvalid.1.1.1.1.1.1 c hc).1.1.1

theorem path_printable : ∀ c ∈ parsed.path.bytes, 32 < c := by
  intro c hc
  have hplain := H.path_plain c (H.path_eq ▸ hc)
  simp only [isControl, Bool.or_eq_false_iff, decide_eq_false_iff_not] at hplain
  exact UInt8.not_le.1 hplain.1

theorem length_host : parsed.hostHeader.bytes.length < networkHostnameCapacity + 8 := by
  have hvalid := H.host_valid
  rw [← H.host_eq] at hvalid
  simp only [authorityIsValid, Bool.and_eq_true, decide_eq_true_eq] at hvalid
  exact hvalid.2

/-- The request fits into the buffer. -/
theorem length_getRequest : (getRequest parsed.hostHeader parsed.path).length ≤
    networkHttpRequestCapacity := by
  have hhost := H.length_host
  have hpath := H.path_length
  rw [← H.path_eq] at hpath
  have hstart : requestStart.bytes.length = 4 := by decide
  have hmiddle : hostStart.bytes.length = 17 := by decide
  have hend : requestEnd.bytes.length = 62 := by decide
  rw [getRequest]
  simp only [length_append, hstart, hmiddle, hend]
  change _ < 254 + 8 at hhost
  change _ < 512 at hpath
  change _ ≤ 1024
  omega

theorem isRequestOf : IsRequestOf url (getRequest parsed.hostHeader parsed.path) := by
  refine ⟨H.length_getRequest, ?_, ?_⟩
  · rw [lines_getRequest H.host_printable H.path_printable, H.host_eq, H.path_eq]
  · rw [← H.host_eq, ← H.path_eq]
    exact not_mem_getLines H.host_printable H.path_printable

/-- `valid_host` refuses what `network_parse_http_url` lets through from 127 on. -/
theorem validHost_iff :
    validHost (some parsed.hostHeader) = true ↔ ∀ c ∈ authorityOf url, c < 127 := by
  have hvalid := H.host_valid
  have hprintable := H.host_printable
  rw [H.host_eq] at hprintable
  simp only [authorityIsValid, Bool.and_eq_true, decide_eq_true_eq] at hvalid
  rw [validHost]
  simp only [H.host_eq, Bool.and_eq_true, decide_eq_true_eq, hvalid.1.1.1.1.1.2, ne_eq,
    not_false_eq_true, true_and, all_eq_true]
  refine forall₂_congr fun c hc => ?_
  have hslash : c ≠ 47 := by
    rintro rfl
    exact absurd (mem_takeWhile_imp hc) (by decide)
  simp [hslash, UInt8.not_le.2 (hprintable c hc)]

/-- So does `valid_path`. -/
theorem validPath_iff :
    validPath (some parsed.path) = true ↔ ∀ c ∈ resourceOf url, c < 127 := by
  have hprintable := H.path_printable
  rw [H.path_eq] at hprintable
  have hslash : parsed.path.char 0 = 47 := by
    rw [CString.char, H.path_eq, getD_eq_getElem?_getD, ← head?_eq_getElem?, head?_resourceOf]
    rfl
  rw [validPath]
  simp only [hslash, decide_true, Bool.true_and, H.path_eq, all_eq_true]
  refine forall₂_congr fun c hc => ?_
  simp [UInt8.not_le.2 (hprintable c hc)]

end Requested

end

/-- An accepted URL can be requested if it has no byte from 127 on before its fragment.  What is
built is its request in every case. -/
theorem accepted_url_is_requested_iff {url : CString} {parsed : NetworkUrl}
    (h : networkParseHttpUrl url = some parsed) :
    ((∃ output, buildRequest parsed = .ok output ∧ IsRequestOf url output) ↔ IsAscii url) ∧
      ∀ output, buildRequest parsed = .ok output → IsRequestOf url output := by
  have H := requested_of_parse h
  have hbuild : ∀ output, buildRequest parsed = .ok output ↔
      IsAscii url ∧ output = getRequest parsed.hostHeader parsed.path := by
    intro output
    rw [buildRequest, httpClientBuildGet_eq_ok_iff, H.validHost_iff, H.validPath_iff, IsAscii,
      forall_mem_append, and_assoc, and_iff_right H.length_getRequest]
  constructor
  · constructor
    · rintro ⟨output, hok, -⟩
      exact ((hbuild output).1 hok).1
    · intro hascii
      exact ⟨_, (hbuild _).2 ⟨hascii, rfl⟩, H.isRequestOf⟩
  · intro output hok
    rw [((hbuild output).1 hok).2]
    exact H.isRequestOf

/-- A page with a query. -/
def plainUrl : CString := .ofString "http://host:8080/a?b#c"

theorem accepted_url_is_requested_iff_plainUrl :
    ∃ parsed, networkParseHttpUrl plainUrl = some parsed ∧
      ((∃ output, buildRequest parsed = .ok output ∧ IsRequestOf plainUrl output) ↔
        IsAscii plainUrl) ∧
      ∀ output, buildRequest parsed = .ok output → IsRequestOf plainUrl output :=
  ⟨_, rfl, accepted_url_is_requested_iff rfl⟩

/-- A URL with a path in UTF-8 is accepted, but no request is built for it. -/
def accentUrl : CString := .ofBytes ((CString.ofString "http://h/").bytes ++ [0xC3, 0xA9])

theorem accented_url_is_not_requested : ∃ parsed, networkParseHttpUrl accentUrl = some parsed ∧
    buildRequest parsed = .error .invalidPath :=
  ⟨_, rfl, by rfl⟩

end Nostalux.Network
