import Nostalux.Library.DotSegments
import Nostalux.Network.Url

/-!
# Dot segments of a URL

`network_normalize_http_url_path` works on the text of a URL.  A URL without a fragment has a
scheme, an authority, a path and a query, and only its path changes.

* `networkNormalizeHttpUrlPath_text`: the path becomes `removeDotSegments` of itself, or a slash;
* `normalization_removes_dot_segments`: with that, what the new path looks like and that it is
  final.
-/

namespace Nostalux.Network

open Nostalux.Http DotSegments List

/-! ### The parts of a URL -/

/-- A URL with the scheme `http` and without a fragment. -/
structure UrlParts where
  /-- `http://`, in letters of any case. -/
  scheme : List UInt8
  authority : List UInt8
  path : List UInt8
  /-- The query with its question mark, or nothing. -/
  query : List UInt8
  scheme_eq : scheme.map asciiLower = httpScheme.bytes
  authority_ne : authority ≠ []
  authority_plain : ∀ c ∈ authority, c ≠ 0 ∧ endsAuthority c = false
  path_slash : path = [] ∨ path.head? = some 47
  path_plain : ∀ c ∈ path, c ≠ 0 ∧ endsPath c = false
  query_mark : query = [] ∨ query.head? = some 63
  query_plain : ∀ c ∈ query, c ≠ 0 ∧ c ≠ 35

namespace UrlParts

variable (u : UrlParts)

/-- The bytes of the URL. -/
def bytes : List UInt8 := u.scheme ++ u.authority ++ (u.path ++ u.query)

theorem zero_not_mem_scheme : 0 ∉ u.scheme := by
  intro h
  have hmem := mem_map_of_mem (f := asciiLower) h
  rw [u.scheme_eq] at hmem
  exact absurd hmem (by decide)

theorem zero_not_mem_bytes : 0 ∉ u.bytes := by
  simp only [bytes, mem_append, not_or]
  exact ⟨⟨u.zero_not_mem_scheme, fun h => (u.authority_plain 0 h).1 rfl⟩,
    fun h => (u.path_plain 0 h).1 rfl, fun h => (u.query_plain 0 h).1 rfl⟩

/-- The URL as a text. -/
def text : CString := ⟨u.bytes, u.zero_not_mem_bytes⟩

theorem length_scheme : u.scheme.length = 7 := by
  rw [← length_map (f := asciiLower), u.scheme_eq]
  rfl

end UrlParts

theorem eq_zero_of_asciiLower {c : UInt8} (h : asciiLower c = asciiLower 0) : c = 0 := by
  revert h
  obtain ⟨n, hn, rfl⟩ : ∃ n < 256, c = UInt8.ofNat n := ⟨c.toNat, c.toNat_lt, by simp⟩
  revert n
  decide +kernel

/-- The comparison that ignores the case looks at the front of the text. -/
theorem networkStartsWithCiLoop_iff {text start : List UInt8} (h : 0 ∉ start) :
    networkStartsWithCiLoop text start = true ↔
      ∃ front rest, text = front ++ rest ∧ front.map asciiLower = start.map asciiLower := by
  induction start generalizing text with
  | nil => simp [networkStartsWithCiLoop]
  | cons c start ih =>
    have hc : asciiLower 0 ≠ asciiLower c := fun h0 =>
      h (eq_zero_of_asciiLower h0.symm ▸ mem_cons_self)
    have ih' := @ih text.tail fun h' => h (mem_cons_of_mem _ h')
    rw [networkStartsWithCiLoop, Bool.and_eq_true, decide_eq_true_iff, ih']
    constructor
    · rintro ⟨hhead, front, rest, htail, hfront⟩
      cases text with
      | nil => exact absurd hhead hc
      | cons b text =>
        rw [tail_cons] at htail
        exact ⟨b :: front, rest, by rw [htail]; rfl, by simpa using ⟨hhead, hfront⟩⟩
    · rintro ⟨front, rest, rfl, hfront⟩
      cases front with
      | nil => simp at hfront
      | cons b front =>
        simp only [map_cons, cons.injEq] at hfront
        exact ⟨hfront.1, front, rest, rfl, hfront.2⟩

theorem networkStartsWithCi_http_iff {text : CString} :
    networkStartsWithCi text httpScheme = true ↔
      ∃ front rest, text.bytes = front ++ rest ∧ front.map asciiLower = httpScheme.bytes := by
  have hlower : httpScheme.bytes.map asciiLower = httpScheme.bytes := by decide
  rw [networkStartsWithCi, networkStartsWithCiLoop_iff httpScheme.noNul, hlower]

/-- What `takeWhile` and `dropWhile` give on a text that is split where the predicate ends. -/
theorem takeWhile_dropWhile_split {p : UInt8 → Bool} {front rest : List UInt8}
    (hfront : ∀ c ∈ front, p c = true) (hrest : ∀ c, rest.head? = some c → p c = false) :
    (front ++ rest).takeWhile p = front ∧ (front ++ rest).dropWhile p = rest := by
  rw [takeWhile_append_of_pos hfront, dropWhile_append_of_pos hfront]
  cases rest with
  | nil => simp
  | cons c rest => simp [hrest c rfl]

namespace UrlParts

variable (u : UrlParts)

theorem startsWith_text : networkStartsWithCi u.text httpScheme = true :=
  networkStartsWithCi_http_iff.2
    ⟨u.scheme, u.authority ++ (u.path ++ u.query), append_assoc _ _ _, u.scheme_eq⟩

/-- What follows the authority starts with a byte that ends it. -/
theorem ends_of_head {c : UInt8} (h : (u.path ++ u.query).head? = some c) : c = 47 ∨ c = 63 := by
  rcases u.path_slash with hpath | hpath
  · rw [hpath, nil_append] at h
    rcases u.query_mark with hquery | hquery
    · rw [hquery] at h
      cases h
    · exact .inr (Option.some.inj (h.symm.trans hquery))
  · obtain ⟨path, hpath⟩ := head?_eq_some_iff.1 hpath
    rw [hpath] at h
    exact .inl (Option.some.inj h).symm

theorem split_text : authorityOf u.text = u.authority ∧
    afterAuthority u.text = u.path ++ u.query := by
  have hdrop : u.text.bytes.drop 7 = u.authority ++ (u.path ++ u.query) := by
    rw [show u.text.bytes = u.scheme ++ (u.authority ++ (u.path ++ u.query)) from
      append_assoc _ _ _, ← u.length_scheme]
    exact drop_left
  rw [authorityOf, afterAuthority, hdrop]
  refine takeWhile_dropWhile_split (fun c hc => by simp [(u.authority_plain c hc).2]) ?_
  intro c hc
  rcases u.ends_of_head hc with rfl | rfl <;> rfl

end UrlParts

/-- The scheme, the authority and what follows it. -/
theorem exists_scheme {url : CString} (h : networkStartsWithCi url httpScheme = true) :
    ∃ scheme, scheme.map asciiLower = httpScheme.bytes ∧
      url.bytes = scheme ++ (authorityOf url ++ afterAuthority url) := by
  obtain ⟨scheme, rest, hurl, hlower⟩ := networkStartsWithCi_http_iff.1 h
  have hlength : scheme.length = 7 := by
    rw [← length_map (f := asciiLower), hlower]
    rfl
  refine ⟨scheme, hlower, ?_⟩
  rw [authorityOf, afterAuthority, takeWhile_append_dropWhile, hurl, ← hlength, drop_left]

theorem endsAuthority_of_mem_authorityOf {url : CString} {c : UInt8} (h : c ∈ authorityOf url) :
    endsAuthority c = false := by
  simpa using mem_takeWhile_imp h

theorem endsAuthority_of_head {url : CString} {c : UInt8}
    (h : (afterAuthority url).head? = some c) :
    endsAuthority c = true := by
  have hnot := head?_dropWhile_not (fun c => !endsAuthority c) (url.bytes.drop 7)
  rw [← afterAuthority, h] at hnot
  simpa using hnot

/-- What follows an authority is a path and a query. -/
theorem exists_urlParts_of_split {scheme authority : List UInt8} (after : List UInt8)
    (hscheme : scheme.map asciiLower = httpScheme.bytes) (hne : authority ≠ [])
    (hauthority : ∀ c ∈ authority, c ≠ 0 ∧ endsAuthority c = false)
    (hafter : ∀ c ∈ after, c ≠ 0 ∧ c ≠ 35)
    (hhead : ∀ c, after.head? = some c → endsAuthority c = true) :
    ∃ u : UrlParts, u.scheme = scheme ∧ u.authority = authority ∧ u.path ++ u.query = after := by
  refine ⟨⟨scheme, authority, after.takeWhile (fun c => !endsPath c),
    after.dropWhile (fun c => !endsPath c), hscheme, hne, hauthority, ?_, ?_, ?_, ?_⟩, rfl, rfl,
    takeWhile_append_dropWhile⟩
  · cases after with
    | nil => exact .inl rfl
    | cons c after =>
      have hends := hhead c rfl
      have h35 := (hafter c mem_cons_self).2
      simp only [endsAuthority, Bool.or_eq_true, decide_eq_true_eq] at hends
      rcases hends with (rfl | rfl) | rfl
      · exact .inr (by simp [endsPath])
      · exact .inl (by simp [endsPath])
      · exact absurd rfl h35
  · intro c hc
    exact ⟨(hafter c ((List.takeWhile_prefix _).subset hc)).1,
      by simpa using mem_takeWhile_imp hc⟩
  · cases hquery : after.dropWhile (fun c => !endsPath c) with
    | nil => exact .inl rfl
    | cons c query =>
      have hnot := head?_dropWhile_not (fun c => !endsPath c) after
      rw [hquery] at hnot
      have hc : c ∈ after := (dropWhile_suffix _).subset (by rw [hquery]; exact mem_cons_self)
      have h35 := (hafter c hc).2
      simp only [head?_cons, endsPath, Bool.not_eq_false', Bool.or_eq_true,
        decide_eq_true_eq] at hnot
      exact .inr (congrArg some (hnot.resolve_right h35))
  · intro c hc
    exact hafter c ((dropWhile_suffix _).subset hc)

/-- A URL without a fragment has such parts. -/
theorem exists_urlParts {url : CString} (hscheme : networkStartsWithCi url httpScheme = true)
    (hauthority : authorityOf url ≠ []) (hfragment : 35 ∉ url.bytes) :
    ∃ u : UrlParts, u.text = url := by
  obtain ⟨scheme, hlower, hurl⟩ := exists_scheme hscheme
  have hmem {c : UInt8} (h : c ∈ authorityOf url ++ afterAuthority url) : c ≠ 0 ∧ c ≠ 35 := by
    have hbytes : c ∈ url.bytes := by
      rw [hurl]
      exact mem_append_right _ h
    exact ⟨fun h0 => url.noNul (h0 ▸ hbytes), fun h35 => hfragment (h35 ▸ hbytes)⟩
  obtain ⟨u, rfl, hu, hafter⟩ := exists_urlParts_of_split _ hlower hauthority
    (fun c hc => ⟨(hmem (mem_append_left _ hc)).1, endsAuthority_of_mem_authorityOf hc⟩)
    (fun c hc => hmem (mem_append_right _ hc)) fun c => endsAuthority_of_head
  refine ⟨u, CString.ext ?_⟩
  change u.scheme ++ u.authority ++ (u.path ++ u.query) = url.bytes
  rw [hurl, hu, hafter, append_assoc]

/-! ### The path -/

theorem mem_pathOf {segments : List (List UInt8)} {c : UInt8} (h : c ∈ pathOf segments) :
    c = 47 ∨ ∃ s ∈ segments, c ∈ s := by
  obtain ⟨s, hs, hc⟩ := mem_flatMap.1 h
  rcases mem_cons.1 hc with hc | hc
  · exact .inl hc
  · exact .inr ⟨s, hs, hc⟩

variable {path : List UInt8}

/-- The segments of a path that starts with a slash. -/
theorem exists_segments (h : path.head? = some 47) :
    ∃ segments, segments ≠ [] ∧ (∀ s ∈ segments, 47 ∉ s) ∧ path.tail.splitOn 47 = segments ∧
      path = pathOf segments := by
  obtain ⟨path, rfl⟩ := head?_eq_some_iff.1 h
  exact ⟨_, splitOn_ne_nil 47 path, fun s hs => not_mem_of_mem_splitOn hs, rfl,
    (pathOf_splitOn path).symm⟩

/-- Nothing but slashes is new in a path without its dot segments. -/
theorem mem_removeDotSegments (hpath : path.head? = some 47) {c : UInt8}
    (h : c ∈ removeDotSegments path) : c ∈ path := by
  obtain ⟨segments, hne, hslash, -, rfl⟩ := exists_segments hpath
  rw [removeDotSegments_pathOf hne hslash] at h
  rcases mem_pathOf h with rfl | ⟨s, hs, hc⟩
  · exact mem_of_mem_head? hpath
  · rcases mem_keepSegments hs with hs | rfl | hs
    · cases hs
    · cases hc
    · exact mem_flatMap.2 ⟨s, hs.1, mem_cons_of_mem _ hc⟩

theorem head?_removeDotSegments (hpath : path.head? = some 47) :
    (removeDotSegments path).head? = some 47 := by
  obtain ⟨segments, hne, hslash, -, rfl⟩ := exists_segments hpath
  rw [removeDotSegments_pathOf hne hslash]
  exact head?_pathOf (keepSegments_ne_nil [] hne)

namespace UrlParts

variable (u : UrlParts)

/-- The path in normal form. -/
def normalPath : List UInt8 := if u.path = [] then [47] else removeDotSegments u.path

theorem head?_normalPath : u.normalPath.head? = some 47 := by
  unfold normalPath
  split
  · rfl
  · rename_i hne
    exact head?_removeDotSegments (u.path_slash.resolve_left hne)

theorem normalPath_plain (c : UInt8) (h : c ∈ u.normalPath) : c ≠ 0 ∧ endsPath c = false := by
  unfold normalPath at h
  split at h
  · rw [mem_singleton.1 h]
    decide
  · rename_i hne
    exact u.path_plain c (mem_removeDotSegments (u.path_slash.resolve_left hne) h)

/-- The URL with its path in normal form; the scheme, the authority and the query stay. -/
def normal : UrlParts :=
  { u with
    path := u.normalPath
    path_slash := .inr u.head?_normalPath
    path_plain := u.normalPath_plain }

end UrlParts

/-! ### The loop over the segments -/

theorem removeSegment_append (start output : List UInt8) :
    removeSegment start.length (start ++ output) = start ++ dropLastSegment output := by
  rw [removeSegment, take_left, drop_left, dropLastSegment]

theorem appendSlash_eq {written : List UInt8} (h : written.length + 1 < networkUrlCapacity) :
    appendSlash written = some (written ++ [47]) := by
  rw [appendSlash, if_neg (by omega)]

theorem length_dropLastSegment_le (output : List UInt8) :
    (dropLastSegment output).length ≤ output.length := by
  rw [dropLastSegment, length_dropLast]
  exact (Nat.sub_le _ _).trans (List.rdropWhile_prefix _ _).length_le

section

variable {start segment : List UInt8} {kept segments : List (List UInt8)}

section

variable (hkept : ∀ s ∈ kept, 47 ∉ s)
include hkept

theorem appendSegment_eq (final : Bool)
    (hfits : start.length + (pathOf kept).length + (segment.length + 1) < networkUrlCapacity) :
    appendSegment start.length segment final (start ++ pathOf kept) =
      some (start ++ pathOf (keepSegment kept segment final)) := by
  have hlast := length_dropLastSegment_le (pathOf kept)
  rw [dropLastSegment_pathOf hkept] at hlast
  have hslash (kept' : List (List UInt8)) (hlength : (pathOf kept').length ≤ (pathOf kept).length)
      (hsegment : 0 < segment.length) :
      (if final then appendSlash (start ++ pathOf kept') else some (start ++ pathOf kept')) =
        some (start ++ pathOf (if final then kept' ++ [[]] else kept')) := by
    cases final with
    | false => rfl
    | true =>
      rw [if_pos rfl, if_pos rfl, appendSlash_eq (by rw [length_append]; omega), pathOf_append,
        append_assoc]
      rfl
  rw [appendSegment, keepSegment]
  by_cases hdot : segment = [46]
  · rw [if_pos hdot, if_pos hdot]
    exact hslash kept le_rfl (by rw [hdot]; decide)
  by_cases hdots : segment = [46, 46]
  · rw [if_neg hdot, if_pos hdots, if_neg hdot, if_pos hdots, removeSegment_append,
      dropLastSegment_pathOf hkept]
    exact hslash kept.dropLast hlast (by rw [hdots]; decide)
  · rw [if_neg hdot, if_neg hdots, if_neg hdot, if_neg hdots,
      appendSlash_eq (by rw [length_append]; omega)]
    dsimp only
    rw [if_neg (by simp only [length_append, length_singleton]; omega), pathOf_append,
      append_assoc, append_assoc, pathOf_cons, pathOf_nil, append_nil]
    rfl

theorem length_keepSegment_le (final : Bool) : (pathOf (keepSegment kept segment final)).length ≤
      (pathOf kept).length + (segment.length + 1) := by
  have hlast := length_dropLastSegment_le (pathOf kept)
  rw [dropLastSegment_pathOf hkept] at hlast
  have hconcat (kept : List (List UInt8)) (s : List UInt8) :
      (pathOf (kept ++ [s])).length = (pathOf kept).length + (s.length + 1) := by
    rw [pathOf_append, pathOf_cons, pathOf_nil, append_nil, length_append, length_cons]
  unfold keepSegment
  split_ifs
  · rw [hconcat, length_nil]
    omega
  · omega
  · rw [hconcat, length_nil]
    omega
  · omega
  · rw [hconcat]

theorem slash_not_mem_keepSegment (hsegment : 47 ∉ segment)
    (final : Bool) : ∀ s ∈ keepSegment kept segment final, 47 ∉ s := by
  intro s hs
  rcases mem_keepSegment hs with hs | rfl | ⟨rfl, -⟩
  · exact hkept s hs
  · exact not_mem_nil
  · exact hsegment

end

/-- The kept segments are not longer than the path. -/
theorem length_keepSegments_le (hsegments : ∀ s ∈ segments, 47 ∉ s) (hkept : ∀ s ∈ kept, 47 ∉ s) :
    (pathOf (keepSegments kept segments)).length ≤
      (pathOf kept).length + (pathOf segments).length := by
  induction segments generalizing kept with
  | nil => exact Nat.le_add_right _ _
  | cons segment rest ih =>
    rw [pathOf_cons, length_append, length_cons]
    cases rest with
    | nil => exact length_keepSegment_le hkept true
    | cons next rest =>
      have hstep : (pathOf (keepSegment kept segment false)).length ≤ _ :=
        length_keepSegment_le hkept false
      have hrest := ih (fun s hs => hsegments s (mem_cons_of_mem _ hs))
        (slash_not_mem_keepSegment hkept (hsegments segment mem_cons_self) false)
      rw [keepSegments.eq_3 _ _ _ (cons_ne_nil _ _)]
      omega

/-- The loop keeps the segments of the algorithm as long as its input fits into the buffer. -/
theorem appendSegments_eq (hsegments : ∀ s ∈ segments, 47 ∉ s) (hkept : ∀ s ∈ kept, 47 ∉ s)
    (hfits : start.length + (pathOf kept).length + (pathOf segments).length < networkUrlCapacity) :
    appendSegments start.length segments (start ++ pathOf kept) =
      some (start ++ pathOf (keepSegments kept segments)) := by
  induction segments generalizing kept with
  | nil => rfl
  | cons segment rest ih =>
    rw [pathOf_cons, length_append, length_cons] at hfits
    cases rest with
    | nil => exact appendSegment_eq hkept true (by omega)
    | cons next rest =>
      have hlength : (pathOf (keepSegment kept segment false)).length ≤ _ :=
        length_keepSegment_le hkept false
      rw [appendSegments, appendSegment_eq hkept false (by omega)]
      · exact ih (fun s hs => hsegments s (mem_cons_of_mem _ hs))
          (slash_not_mem_keepSegment hkept (hsegments segment mem_cons_self) false) (by omega)
      · exact cons_ne_nil _ _

end

namespace UrlParts

variable (u : UrlParts)

theorem length_text : u.text.length =
    u.scheme.length + u.authority.length + (u.path.length + u.query.length) := by
  change u.bytes.length = _
  rw [bytes, length_append, length_append, length_append]

theorem normalizePath_text (h : u.text.length < networkUrlCapacity) :
    normalizePath (u.scheme ++ u.authority) (u.path ++ u.query) =
      (some (u.scheme ++ u.authority ++ u.normalPath), u.query) := by
  rw [normalPath]
  by_cases hempty : u.path = []
  · rw [if_pos hempty, hempty, nil_append]
    rcases u.query_mark with hquery | hquery
    · rw [hquery]
      rfl
    · obtain ⟨query, hquery⟩ := head?_eq_some_iff.1 hquery
      rw [hquery]
      rfl
  · obtain ⟨segments, hne, hslash, hsplit, hpath⟩ :=
      exists_segments (u.path_slash.resolve_left hempty)
    obtain ⟨path, hcons⟩ := head?_eq_some_iff.1 (u.path_slash.resolve_left hempty)
    have hplain : ∀ c ∈ path, (!endsPath c) = true := fun c hc => by
      rw [(u.path_plain c (by rw [hcons]; exact mem_cons_of_mem _ hc)).2]
      rfl
    have hmark : ∀ c, u.query.head? = some c → (!endsPath c) = false := by
      intro c hc
      rcases u.query_mark with hquery | hquery
      · rw [hquery] at hc
        cases hc
      · rw [Option.some.inj (hc.symm.trans hquery)]
        rfl
    obtain ⟨htake, hdrop⟩ := takeWhile_dropWhile_split hplain hmark
    rw [length_text, hpath] at h
    have hloop : appendSegments (u.scheme ++ u.authority).length segments
        (u.scheme ++ u.authority ++ pathOf []) = _ :=
      appendSegments_eq hslash (fun _ h => absurd h not_mem_nil)
        (by rw [length_append, pathOf_nil, length_nil]; omega)
    rw [pathOf_nil, append_nil] at hloop
    rw [if_neg hempty, hcons, cons_append, normalizePath]
    rw [hcons, tail_cons] at hsplit
    rw [htake, hdrop, hsplit, hloop, ← hcons, hpath, removeDotSegments_pathOf hne hslash]

end UrlParts

/-- The normal form of a URL in a buffer, if it fits there. -/
theorem networkNormalizeHttpUrlPath_text (u : UrlParts) (h : u.text.length < networkUrlCapacity) :
    networkNormalizeHttpUrlPath u.text =
      if u.normal.text.length < networkUrlCapacity then some u.normal.text else none := by
  obtain ⟨hauthority, hafter⟩ := u.split_text
  have hlength := u.length_text
  have hnormal : u.normal.text.length = u.scheme.length + u.authority.length +
      (u.normalPath.length + u.query.length) := u.normal.length_text
  have hpositive : 0 < u.normalPath.length :=
    length_pos_of_mem (mem_of_mem_head? u.head?_normalPath)
  have hstart : u.text.bytes.take (u.text.length - (u.path ++ u.query).length) =
      u.scheme ++ u.authority := by
    rw [hlength, length_append, Nat.add_sub_cancel, ← length_append]
    exact take_left
  have hhead : ¬(authorityOf u.text = [] ∨ (u.path ++ u.query).head? = some 35) := by
    rw [hauthority]
    rintro (h | h)
    · exact u.authority_ne h
    · rcases u.ends_of_head h with h | h <;> exact absurd h (by decide)
  have hquery : u.query.head? ≠ some 35 := fun h =>
    (u.query_plain 35 (mem_of_mem_head? h)).2 rfl
  have htext : CString.ofBytes (u.scheme ++ u.authority ++ u.normalPath ++ u.query) =
      u.normal.text := by
    rw [append_assoc]
    exact CString.ofBytes_bytes u.normal.text
  rw [networkNormalizeHttpUrlPath, if_neg (by simp [u.startsWith_text])]
  dsimp only
  rw [hafter, if_neg hhead, hstart, u.normalizePath_text h]
  dsimp only
  rw [if_neg hquery, htext, networkCopyText, length_append, length_append, length_append]
  by_cases hfits : u.normal.text.length < networkUrlCapacity
  · rw [if_neg (by omega), if_neg (by omega), if_neg (by omega), if_neg (by omega), if_pos hfits]
  · rw [if_neg hfits]
    by_cases hroot : networkUrlCapacity ≤ u.scheme.length + u.authority.length + 1
    · rw [if_pos hroot]
    · rw [if_neg hroot, if_pos (by omega)]

namespace UrlParts

variable (u : UrlParts)

/-- No dot segment is left in a path in normal form. -/
theorem normalPath_segments {s : List UInt8} (h : s ∈ u.normalPath.splitOn 47) : Plain s := by
  unfold normalPath at h
  split at h
  · have hsplit : ([47] : List UInt8).splitOn 47 = [[], []] := by decide
    rw [hsplit] at h
    simp only [mem_cons, not_mem_nil, or_false, or_self] at h
    rw [h]
    exact ⟨by decide, by decide⟩
  · rename_i hne
    obtain ⟨segments, hne, hslash, -, hpath⟩ := exists_segments (u.path_slash.resolve_left hne)
    have hkept : ∀ s ∈ keepSegments [] segments, 47 ∉ s := by
      intro s hs
      rcases mem_keepSegments hs with hs | rfl | hs
      · cases hs
      · exact not_mem_nil
      · exact hslash s hs.1
    rw [hpath, removeDotSegments_pathOf hne hslash, splitOn_pathOf hkept] at h
    rcases mem_cons.1 h with rfl | h
    · exact ⟨by decide, by decide⟩
    · exact keepSegments_plain h

/-- A path without dot segments is in normal form. -/
theorem normalPath_of_plain (hne : u.path ≠ []) (h : ∀ s ∈ u.path.splitOn 47, Plain s) :
    u.normalPath = u.path := by
  obtain ⟨segments, hne', hslash, -, hpath⟩ := exists_segments (u.path_slash.resolve_left hne)
  rw [hpath, splitOn_pathOf hslash] at h
  rw [normalPath, if_neg hne, hpath, removeDotSegments_pathOf hne' hslash,
    keepSegments_of_plain fun s hs => h s (mem_cons_of_mem _ hs), nil_append]

theorem normal_normal : u.normal.normalPath = u.normalPath := by
  have hne : u.normal.path ≠ [] := fun h => by
    have hhead := u.head?_normalPath
    rw [show u.normalPath = [] from h] at hhead
    cases hhead
  exact u.normal.normalPath_of_plain hne fun s hs => u.normalPath_segments hs

theorem normal_normal_text : u.normal.normal.text = u.normal.text := by
  apply CString.ext
  change u.scheme ++ u.authority ++ (u.normal.normalPath ++ u.query) = _
  rw [normal_normal]
  rfl

end UrlParts

/-- Normalization of a URL in its buffer: it succeeds if the normal form fits, which has the scheme,
the authority and the query of the URL and its path without dot segments, and which is final. -/
theorem normalization_removes_dot_segments (u : UrlParts) (h : u.text.length < networkUrlCapacity) :
    networkNormalizeHttpUrlPath u.text =
      (if u.normal.text.length < networkUrlCapacity then some u.normal.text else none) ∧
    u.normal.text.bytes = u.scheme ++ u.authority ++
      ((if u.path = [] then [47] else removeDotSegments u.path) ++ u.query) ∧
    (u.normal.path.head? = some 47 ∧ ∀ s ∈ u.normal.path.splitOn 47, Plain s) ∧
    (u.path ≠ [] → (∀ s ∈ u.path.splitOn 47, Plain s) → u.normal.path = u.path) ∧
    (u.normal.text.length < networkUrlCapacity →
      networkNormalizeHttpUrlPath u.normal.text = some u.normal.text) := by
  refine ⟨networkNormalizeHttpUrlPath_text u h, rfl,
    ⟨u.head?_normalPath, fun s hs => u.normalPath_segments hs⟩, u.normalPath_of_plain, ?_⟩
  intro hfits
  rw [networkNormalizeHttpUrlPath_text u.normal hfits, u.normal_normal_text, if_pos hfits]

/-- `HTTP://h/a/./b//../../c?d/.`. -/
def dottedUrl : UrlParts where
  scheme := (CString.ofString "HTTP://").bytes
  authority := (CString.ofString "h").bytes
  path := (CString.ofString "/a/./b//../../c").bytes
  query := (CString.ofString "?d/.").bytes
  scheme_eq := by decide
  authority_ne := by decide
  authority_plain := by decide +kernel
  path_slash := by decide
  path_plain := by decide +kernel
  query_mark := by decide
  query_plain := by decide +kernel

/-- The path of the URL becomes `/a/c`. -/
theorem normalization_removes_dot_segments_dottedUrl :
    networkNormalizeHttpUrlPath dottedUrl.text = some (CString.ofString "HTTP://h/a/c?d/.") :=
  (normalization_removes_dot_segments dottedUrl (by decide)).1.trans (by decide +kernel)

end Nostalux.Network
