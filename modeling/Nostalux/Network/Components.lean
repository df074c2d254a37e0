import Nostalux.Library.Uri
import Nostalux.Network.Normalize

/-!
# Accepted URLs and their components

`network_parse_http_url` accepts a URL by its authority, its length and its characters.  The
components of an accepted URL, as a reference to a resource, are what the request gets from it.

* `networkParseHttpUrl_isSome_iff`, `UrlParts.parse_text_isSome_iff`: which URLs are accepted;
* `UrlParts.parse_bytes`: the components of a URL;
* `exists_requestOf`: the request of an accepted URL.
-/

namespace Nostalux.Network

open Nostalux.Http DotSegments Uri List CString Reference

/-! ### Accepted URLs -/

/-- The checks of `network_parse_http_url` on the authority. -/
def authorityIsValid (authority : List UInt8) : Bool :=
  (!authority.any fun c => c ≤ 32 || c = 64 || c = 91 || c = 93) && authority ≠ [] &&
    authority.count 58 ≤ 1 && authority.takeWhile (· ≠ 58) ≠ [] &&
    (authority.takeWhile (· ≠ 58)).length < networkHostnameCapacity &&
    (parsePort authority).isSome && authority.length < networkHostnameCapacity + 8

theorem networkParseHttpUrl_isSome_iff (url : CString) :
    (networkParseHttpUrl url).isSome = true ↔
      networkStartsWithCi url httpScheme = true ∧ url.length < networkUrlCapacity ∧
      authorityIsValid (authorityOf url) = true ∧
      (requestPath (afterAuthority url)).isSome = true := by
  rw [networkParseHttpUrl, authorityIsValid]
  by_cases hscheme : networkStartsWithCi url httpScheme = true
  swap
  · simp [hscheme]
  by_cases hlength : networkUrlCapacity ≤ url.length
  · simp [hlength]
  generalize authorityOf url = authority
  generalize requestPath (afterAuthority url) = path
  by_cases hany : (authority.any fun c => c ≤ 32 || c = 64 || c = 91 || c = 93) = true
  · rw [if_pos hany, hany]
    simp
  rw [if_neg hany, (Bool.not_eq_true _).mp hany]
  by_cases hempty : authority = []
  · simp [hempty]
  by_cases hcount : 1 < authority.count 58
  · simp [hempty, hcount]
  generalize authority.takeWhile (· ≠ 58) = hostname
  by_cases hhost : hostname = [] ∨ networkHostnameCapacity ≤ hostname.length
  · rcases hhost with hhost | hhost
    · simp [hempty, hcount, hhost]
    · simp [hempty, hcount, hhost]
  obtain ⟨hname, hhostLength⟩ := not_or.1 hhost
  rw [if_neg hempty, if_neg hcount, if_neg hhost]
  by_cases hsize : networkHostnameCapacity + 8 ≤ authority.length
  · cases parsePort authority <;> simp [hsize]
  · cases parsePort authority <;> cases path <;>
      simp [hempty, hname, hsize, not_lt.1 hcount, not_le.1 hhostLength, not_le.1 hsize]

/-! ### The path of a request -/

/-- The path that is copied ends where the fragment starts. -/
theorem eq_of_parsePath {written rest path : List UInt8} (h : parsePath written rest = some path) :
    path = written ++ rest.takeWhile (· ≠ 35) := by
  induction rest generalizing written with
  | nil => simpa [parsePath, eq_comm] using h
  | cons c rest ih =>
    rw [parsePath] at h
    by_cases hc : c = 35
    · rw [if_pos hc] at h
      split at h
      · cases h
      · simpa [hc, eq_comm] using h
    · rw [if_neg hc] at h
      split at h
      · cases h
      · rw [ih h, takeWhile_cons_of_pos (by simpa using hc), append_assoc]
        rfl

/-- Without a fragment a path that fits is copied if it has no control characters. -/
theorem parsePath_isSome_iff {written rest : List UInt8} (hfragment : 35 ∉ rest)
    (hfits : written.length + rest.length < networkUrlCapacity) :
    (parsePath written rest).isSome = true ↔ ∀ c ∈ rest, isControl c = false := by
  induction rest generalizing written with
  | nil => simp [parsePath]
  | cons c rest ih =>
    rw [length_cons] at hfits
    have hc : c ≠ 35 := fun h => hfragment (h ▸ mem_cons_self)
    have hroom : ¬networkUrlCapacity ≤ written.length + 1 := by omega
    have ih' := @ih (written ++ [c]) (fun h => hfragment (mem_cons_of_mem _ h))
      (by rw [length_append, length_singleton]; omega)
    rw [parsePath, if_neg hc, forall_mem_cons, ← ih']
    cases hcontrol : isControl c with
    | true => simp
    | false => simp [hroom]

namespace UrlParts

variable (u : UrlParts)

theorem fragment_not_mem : 35 ∉ u.path ++ u.query := by
  rw [mem_append, not_or]
  exact ⟨fun h => absurd (u.path_plain 35 h).2 (by decide), fun h => (u.query_plain 35 h).2 rfl⟩

/-- A URL in its buffer is accepted if its authority is valid and nothing else is a control
character. -/
theorem parse_text_isSome_iff (h : u.text.length < networkUrlCapacity) :
    (networkParseHttpUrl u.text).isSome = true ↔
      authorityIsValid u.authority = true ∧ ∀ c ∈ u.path ++ u.query, isControl c = false := by
  obtain ⟨hauthority, hafter⟩ := u.split_text
  have hlength := u.length_text
  have hscheme := u.length_scheme
  rw [networkParseHttpUrl_isSome_iff, hauthority, hafter]
  simp only [u.startsWith_text, h, true_and]
  refine and_congr_right fun _ => ?_
  have hfits : 1 + (u.path ++ u.query).length < networkUrlCapacity := by
    rw [length_append]
    omega
  unfold requestPath
  cases hrest : u.path ++ u.query with
  | nil => simp
  | cons c rest =>
    have hfragment := u.fragment_not_mem
    rw [hrest] at hfragment hfits
    dsimp only
    split
    · exact parsePath_isSome_iff hfragment hfits
    · exact parsePath_isSome_iff hfragment (by rw [length_nil]; omega)

/-- The normal form of an accepted URL is accepted, where it fits. -/
theorem parse_normal_isSome (h : u.text.length < networkUrlCapacity)
    (hnormal : u.normal.text.length < networkUrlCapacity)
    (haccepted : (networkParseHttpUrl u.text).isSome = true) :
    (networkParseHttpUrl u.normal.text).isSome = true := by
  obtain ⟨hauthority, hplain⟩ := (u.parse_text_isSome_iff h).1 haccepted
  refine (u.normal.parse_text_isSome_iff hnormal).2 ⟨hauthority, fun c hc => ?_⟩
  rcases mem_append.1 hc with hc | hc
  · have hpath : c ∈ u.normalPath := hc
    unfold normalPath at hpath
    split at hpath
    · rw [mem_singleton.1 hpath]
      rfl
    · rename_i hne
      exact hplain c (mem_append_left _
        (mem_removeDotSegments (u.path_slash.resolve_left hne) hpath))
  · exact hplain c (mem_append_right _ hc)

/-- Removing dot segments does not make a path longer. -/
theorem length_normal_le (h : u.path ≠ []) : u.normal.text.length ≤ u.text.length := by
  obtain ⟨segments, hne, hslash, -, hpath⟩ := exists_segments (u.path_slash.resolve_left h)
  have hnormal : u.normal.path = pathOf (keepSegments [] segments) := by
    change u.normalPath = _
    rw [normalPath, if_neg h, hpath, removeDotSegments_pathOf hne hslash]
  have hkept := length_keepSegments_le hslash fun _ h => absurd h not_mem_nil
  rw [pathOf_nil, length_nil, ← hnormal, ← hpath] at hkept
  rw [length_text, length_text]
  change u.scheme.length + u.authority.length + (u.normal.path.length + u.query.length) ≤ _
  omega

/-! ### Components -/

/-- The components of the URL. -/
def reference : Reference :=
  ⟨some (u.scheme.take 4), some u.authority, u.path, u.query.tail?⟩

end UrlParts

theorem eq_of_asciiLower_eq {c d : UInt8} (h : asciiLower c = d) (hd : d = 58 ∨ d = 47) :
    c = d := by
  revert h hd
  obtain ⟨n, hn, rfl⟩ : ∃ n < 256, c = UInt8.ofNat n := ⟨c.toNat, c.toNat_lt, by simp⟩
  rintro h (rfl | rfl) <;> revert n <;> decide +kernel

theorem isAlpha_of_asciiLower {c d : UInt8} (h : asciiLower c = d) (hd : 97 ≤ d ∧ d ≤ 122) :
    isAlpha c = true := by
  rw [← h] at hd
  revert hd
  obtain ⟨n, hn, rfl⟩ : ∃ n < 256, c = UInt8.ofNat n := ⟨c.toNat, c.toNat_lt, by simp⟩
  clear h
  revert n
  decide +kernel

theorem splitScheme_eq_some_iff {text scheme rest : List UInt8} :
    splitScheme text = some (scheme, rest) ↔ text = scheme ++ 58 :: rest ∧
      (∀ c ∈ scheme, isSchemeByte c = true) ∧ scheme.head?.any isAlpha = true := by
  constructor
  · intro h
    rw [splitScheme] at h
    split at h
    · rename_i tail htail
      split at h
      next hhead =>
        cases h
        exact ⟨by rw [← htail, takeWhile_append_dropWhile], fun c hc => mem_takeWhile_imp hc, hhead⟩
      · cases h
    · cases h
  · rintro ⟨rfl, hletters, hhead⟩
    have hcolon : ∀ c, (58 :: rest).head? = some c → isSchemeByte c = false := by
      rintro c ⟨⟩
      rfl
    obtain ⟨htake, hdrop⟩ := takeWhile_dropWhile_split hletters hcolon
    rw [splitScheme, htake, hdrop]
    exact if_pos hhead

/-- A scheme that is written in any case, with its colon and two slashes. -/
theorem splitScheme_of_lower {front : List UInt8} (letters : List UInt8) (hne : letters ≠ [])
    (hletters : ∀ c ∈ letters, 97 ≤ c ∧ c ≤ 122)
    (h : front.map asciiLower = letters ++ [58, 47, 47]) :
    ∃ scheme, front = scheme ++ [58, 47, 47] ∧ scheme.length = letters.length ∧
      ∀ rest, splitScheme (front ++ rest) = some (scheme, 47 :: 47 :: rest) := by
  obtain ⟨scheme, marks, rfl, rfl, hmarks⟩ := map_eq_append_iff.1 h
  have hsame : marks.map asciiLower = marks.map id := map_congr_left fun c hc => by
    have hmem := mem_map_of_mem (f := asciiLower) hc
    rw [hmarks] at hmem
    exact (eq_of_asciiLower_eq rfl (by simpa using hmem)).symm
  obtain rfl : marks = [58, 47, 47] := by rw [← hmarks, hsame, map_id]
  have halpha (c : UInt8) (hc : c ∈ scheme) : isAlpha c = true :=
    isAlpha_of_asciiLower rfl (hletters _ (mem_map_of_mem hc))
  refine ⟨scheme, rfl, (length_map _).symm, fun rest => splitScheme_eq_some_iff.2 ⟨?_, ?_, ?_⟩⟩
  · rw [append_assoc]
    rfl
  · exact fun c hc => by simp [isSchemeByte, halpha c hc]
  · cases scheme with
    | nil => exact absurd rfl hne
    | cons c scheme => exact halpha c mem_cons_self

/-- A text that starts with `http://` has that scheme. -/
theorem splitScheme_http {front : List UInt8} (h : front.map asciiLower = httpScheme.bytes) :
    front = front.take 4 ++ [58, 47, 47] ∧
      ∀ rest, splitScheme (front ++ rest) = some (front.take 4, 47 :: 47 :: rest) := by
  obtain ⟨scheme, rfl, hlength, hsplit⟩ :=
    splitScheme_of_lower [104, 116, 116, 112] (by simp) (by simp) h
  rw [show 4 = scheme.length from hlength.symm, take_left]
  exact ⟨rfl, hsplit⟩

/-- Two slashes are no scheme. -/
theorem splitScheme_slash (rest : List UInt8) : splitScheme (47 :: rest) = none := by
  rw [splitScheme]
  simp [isSchemeByte, isAlpha]

namespace UrlParts

variable (u : UrlParts)

theorem queryText_tail {query : List UInt8} (h : query = [] ∨ query.head? = some 63) :
    queryText query.tail? = query := by
  rcases h with rfl | h
  · rfl
  · obtain ⟨query, rfl⟩ := head?_eq_some_iff.1 h
    rfl

theorem text_reference : u.reference.text = u.bytes := by
  rw [Reference.text, reference, bytes]
  rw [queryText_tail u.query_mark]
  conv_rhs => rw [(splitScheme_http u.scheme_eq).1]
  simp

theorem ofBytes_bytes : CString.ofBytes u.bytes = u.text := CString.ofBytes_bytes u.text

/-- A path ends where the query starts. -/
theorem split_query {path : List UInt8} (h : ∀ c ∈ path, c ≠ 0 ∧ endsPath c = false) :
    (path ++ u.query).takeWhile (· ≠ 63) = path ∧
      (path ++ u.query).dropWhile (· ≠ 63) = u.query := by
  refine takeWhile_dropWhile_split (fun c hc => ?_) fun c hc => ?_
  · have hplain := (h c hc).2
    simp only [endsPath, Bool.or_eq_false_iff, decide_eq_false_iff_not] at hplain
    simpa using hplain.1
  · rcases u.query_mark with hquery | hquery
    · rw [hquery] at hc
      cases hc
    · rw [Option.some.inj (hc.symm.trans hquery)]
      rfl

/-- The path and the query behind an authority. -/
theorem splitQuery_eq : splitQuery (u.path ++ u.query) = (u.path, u.query.tail?) := by
  obtain ⟨htake, hdrop⟩ := u.split_query u.path_plain
  rw [splitQuery, htake, hdrop]

theorem splitAuthority_eq :
    splitAuthority (47 :: 47 :: (u.authority ++ (u.path ++ u.query))) =
      (some u.authority, u.path ++ u.query) := by
  have hplain : ∀ c ∈ u.authority, (decide (c ≠ 47) && decide (c ≠ 63)) = true := by
    intro c hc
    have hplain := (u.authority_plain c hc).2
    simp only [endsAuthority, Bool.or_eq_false_iff, decide_eq_false_iff_not] at hplain
    simp [hplain]
  obtain ⟨htake, hdrop⟩ := takeWhile_dropWhile_split hplain fun c hc => by
    rcases u.ends_of_head hc with rfl | rfl <;> rfl
  rw [splitAuthority, htake, hdrop]

theorem parse_bytes : parse u.bytes = u.reference := by
  rw [parse, bytes, append_assoc, (splitScheme_http u.scheme_eq).2]
  dsimp only
  rw [splitAuthority_eq]
  rw [splitQuery_eq]
  rfl

end UrlParts

/-! ### The base -/

/-- An empty path is written as a slash. -/
def slashed (path : List UInt8) : List UInt8 := if path = [] then [47] else path

theorem head?_slashed {path : List UInt8} (h : path = [] ∨ path.head? = some 47) :
    (slashed path).head? = some 47 := by
  unfold slashed
  split
  · rfl
  · rename_i hne
    exact h.resolve_left hne

/-- The URL of a request as a base: its components without the fragment, with the scheme in lower
case. -/
def baseReference (url : CString) : Reference :=
  { Reference.parse (url.bytes.takeWhile (· ≠ 35)) with
    scheme := some (CString.ofString "http").bytes }

variable {url : CString}

/-- The URL without its fragment. -/
theorem exists_urlParts_of_accepted (h : (networkParseHttpUrl url).isSome = true) :
    ∃ u : UrlParts, u.bytes = url.bytes.takeWhile (· ≠ 35) ∧ authorityOf url = u.authority ∧
      (afterAuthority url).takeWhile (· ≠ 35) = u.path ++ u.query := by
  obtain ⟨hscheme, -, hvalid, -⟩ := (networkParseHttpUrl_isSome_iff url).1 h
  obtain ⟨scheme, hlower, hurl⟩ := exists_scheme hscheme
  have hmem {c : UInt8} (h : c ∈ authorityOf url ++ afterAuthority url) : c ≠ 0 := fun h0 =>
    url.noNul (by rw [hurl, ← h0]; exact mem_append_right _ h)
  have hne : authorityOf url ≠ [] := by
    intro hempty
    rw [hempty] at hvalid
    exact absurd hvalid (by decide)
  obtain ⟨u, rfl, hu, hafter⟩ := exists_urlParts_of_split
    ((afterAuthority url).takeWhile (· ≠ 35)) hlower hne
    (fun c hc => ⟨hmem (mem_append_left _ hc), endsAuthority_of_mem_authorityOf hc⟩)
    (fun c hc => ⟨hmem (mem_append_right _ ((List.takeWhile_prefix _).subset hc)),
      by simpa using mem_takeWhile_imp hc⟩)
    fun c hc => endsAuthority_of_head (by
      rw [head?_takeWhile] at hc
      exact Option.eq_some_of_filter_eq_some hc)
  refine ⟨u, ?_, hu.symm, hafter.symm⟩
  -- neither the scheme nor the authority has a fragment
  have hscheme : ∀ c ∈ u.scheme, (decide (c ≠ 35)) = true := by
    intro c hc
    have hmem := mem_map_of_mem (f := asciiLower) hc
    rw [hlower] at hmem
    simp only [decide_eq_true_eq]
    rintro rfl
    exact absurd hmem (by decide)
  have hauthority : ∀ c ∈ authorityOf url, (decide (c ≠ 35)) = true := by
    intro c hc
    have hends := endsAuthority_of_mem_authorityOf hc
    simp only [endsAuthority, Bool.or_eq_false_iff, decide_eq_false_iff_not] at hends
    simpa using hends.2
  rw [hurl, takeWhile_append_of_pos hscheme, takeWhile_append_of_pos hauthority,
    UrlParts.bytes, hu, hafter, append_assoc]

theorem hostHeader_path_of_parse {parsed : NetworkUrl} (h : networkParseHttpUrl url = some parsed) :
    parsed.hostHeader = ofBytes (authorityOf url) ∧
      ∃ path, requestPath (afterAuthority url) = some path ∧ parsed.path = ofBytes path := by
  rw [networkParseHttpUrl] at h
  dsimp only at h
  split at h
  · cases h
  split at h
  · cases h
  split at h
  · cases h
  split at h
  · cases h
  split at h
  · cases h
  split at h
  · cases h
  split at h
  · cases h
  split at h
  · cases h
  · rename_i path hpath
    cases h
    exact ⟨rfl, path, hpath, rfl⟩

/-- The request of an accepted URL, in terms of the parts of the URL. -/
structure RequestOf (url : CString) (parsed : NetworkUrl) (u : UrlParts) : Prop where
  base_eq : baseReference url = ⟨some (CString.ofString "http").bytes, some u.authority, u.path,
    u.query.tail?⟩
  authority_eq : authorityOf url = u.authority
  valid : authorityIsValid u.authority = true
  hostHeader_eq : parsed.hostHeader.bytes = u.authority
  path_eq : parsed.path.bytes = slashed u.path ++ u.query

theorem exists_requestOf {parsed : NetworkUrl}
    (h : networkParseHttpUrl url = some parsed) : ∃ u, RequestOf url parsed u := by
  have haccepted : (networkParseHttpUrl url).isSome = true := by
    rw [h]
    rfl
  obtain ⟨u, hbytes, hauthority, hafter⟩ := exists_urlParts_of_accepted haccepted
  obtain ⟨-, -, hvalid, -⟩ := (networkParseHttpUrl_isSome_iff url).1 haccepted
  obtain ⟨hhost, path, hpath, hparsed⟩ := hostHeader_path_of_parse h
  have hzero : 0 ∉ slashed u.path ++ u.query := by
    rw [mem_append, not_or, slashed]
    refine ⟨?_, fun h => (u.query_plain 0 h).1 rfl⟩
    split
    · decide
    · exact fun h => (u.path_plain 0 h).1 rfl
  have hslash : path = slashed u.path ++ u.query := by
    cases hrest : afterAuthority url with
    | nil =>
      rw [hrest] at hpath hafter
      rw [requestPath] at hpath
      obtain ⟨hempty, hquery⟩ := append_eq_nil_iff.1 hafter.symm
      rw [← Option.some.inj hpath, hempty, hquery]
      rfl
    | cons c rest =>
      rw [hrest] at hpath hafter
      rw [requestPath] at hpath
      split at hpath
      · -- the parser writes the slash that the URL leaves out
        rename_i hc
        have hempty : u.path = [] := by
          refine u.path_slash.resolve_right fun hhead => ?_
          obtain ⟨tail, htail⟩ := head?_eq_some_iff.1 hhead
          rw [htail, takeWhile_cons] at hafter
          split at hafter
          · rw [(cons.inj hafter).1] at hc
            exact absurd hc (by decide)
          · cases hafter
        rw [eq_of_parsePath hpath, hafter, hempty]
        rfl
      · rename_i hc
        have hne : u.path ≠ [] := by
          intro hempty
          simp only [Bool.or_eq_true, decide_eq_true_eq, not_or] at hc
          rw [hempty, nil_append, takeWhile_cons_of_pos (by simpa using hc.1)] at hafter
          rcases u.query_mark with hquery | hquery
          · rw [hquery] at hafter
            cases hafter
          · rw [← hafter] at hquery
            exact hc.2 (Option.some.inj hquery)
        rw [eq_of_parsePath hpath, hafter, slashed, if_neg hne, nil_append]
  refine ⟨u, ?_, hauthority, hauthority ▸ hvalid, ?_, ?_⟩
  · rw [baseReference, ← hbytes, u.parse_bytes]
    rfl
  · rw [hhost, hauthority, bytes_ofBytes fun h => (u.authority_plain 0 h).1 rfl]
  · rw [hparsed, hslash, bytes_ofBytes hzero]

end Nostalux.Network
