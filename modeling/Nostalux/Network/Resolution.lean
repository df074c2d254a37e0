import Nostalux.Network.Components

/-!
# Redirects as reference resolution

`network_resolve_redirect_url` builds the URL of a redirect from texts.  Here it is compared with
the resolution of references: the base is the URL of the request, the reference is the `Location`
without its fragment.

* `mergeReference_cases`: the text that is built before dot segments are removed;
* `redirect_resolves_reference`: the result, the refused schemes, and when there is a result.
-/

namespace Nostalux.Network

open Nostalux.Http DotSegments Uri CString Reference

/-! ### The text of the target -/

theorem networkAppendSpan_eq (destination : CString) (source : List UInt8) :
    networkAppendSpan networkUrlCapacity destination source =
      if destination.length + source.length < networkUrlCapacity then
        some (ofBytes (destination.bytes ++ source)) else none := by
  rw [networkAppendSpan, if_neg (by decide)]
  by_cases hfits : destination.length + source.length < networkUrlCapacity
  · rw [if_neg (by omega), if_pos hfits]
  · rw [if_pos (by omega), if_neg hfits]

/-- What is appended in two parts is appended at once. -/
theorem networkAppendSpan_bind {front : List UInt8} (h : 0 ∉ front) (destination : CString)
    (back : List UInt8) :
    (networkAppendSpan networkUrlCapacity destination front).bind
        (networkAppendSpan networkUrlCapacity · back) =
      networkAppendSpan networkUrlCapacity destination (front ++ back) := by
  have hbytes : (ofBytes (destination.bytes ++ front)).bytes = destination.bytes ++ front :=
    bytes_ofBytes (by rw [List.mem_append, not_or]; exact ⟨destination.noNul, h⟩)
  have hlength : (ofBytes (destination.bytes ++ front)).length =
      destination.length + front.length := by
    rw [length, hbytes, List.length_append]
    rfl
  rw [networkAppendSpan_eq, networkAppendSpan_eq, List.length_append, ← Nat.add_assoc]
  by_cases hfits : destination.length + front.length < networkUrlCapacity
  · rw [if_pos hfits, Option.bind_some, networkAppendSpan_eq, hbytes, hlength, List.append_assoc]
  · rw [if_neg hfits, if_neg (by omega), Option.bind_none]

theorem networkCopyText_eq (source : CString) :
    networkCopyText networkUrlCapacity source =
      if source.length < networkUrlCapacity then some source else none := by
  rw [networkCopyText, if_neg (by decide)]
  by_cases hfits : source.length < networkUrlCapacity
  · rw [if_neg (by omega), if_pos hfits]
  · rw [if_pos (by omega), if_neg hfits]

/-- The scheme of a reference is what `network_url_has_explicit_scheme` looks for. -/
theorem hasExplicitSchemeLoop_iff (rest : List UInt8) :
    hasExplicitSchemeLoop rest = true ↔ (rest.dropWhile isSchemeByte).head? = some 58 := by
  induction rest with
  | nil => simp [hasExplicitSchemeLoop]
  | cons c rest ih =>
    have hbyte : isSchemeByte c = (isAlphanumeric c || decide (c = 43) || decide (c = 45) ||
        decide (c = 46)) := by
      simp only [isSchemeByte, isAlpha, isAlphanumeric]
      grind
    rw [hasExplicitSchemeLoop, List.dropWhile_cons]
    by_cases hcolon : c = 58
    · subst hcolon
      rw [if_pos rfl, if_neg (by decide)]
      simp
    · rw [if_neg hcolon]
      by_cases hscheme : isSchemeByte c = true
      · have hends : endsAuthority c = false := by
          by_contra hends
          simp only [endsAuthority, Bool.not_eq_false, Bool.or_eq_true, decide_eq_true_eq] at hends
          rcases hends with (rfl | rfl) | rfl <;> exact absurd hscheme (by decide)
        rw [if_pos hscheme, hends, ← hbyte, hscheme, ← ih]
        simp
      · rw [if_neg hscheme, ← hbyte]
        simp [hscheme, hcolon]

theorem splitScheme_isSome_iff (text : CString) :
    (splitScheme text.bytes).isSome = true ↔ networkUrlHasExplicitScheme text = true := by
  rw [networkUrlHasExplicitScheme, splitScheme]
  cases text.bytes with
  | nil => simp
  | cons c rest =>
    have hletter : isLetter c = isAlpha c := rfl
    rw [Bool.and_eq_true, hasExplicitSchemeLoop_iff, hletter]
    by_cases halpha : isAlpha c = true
    · have hbyte : isSchemeByte c = true := by simp [isSchemeByte, halpha]
      rw [List.takeWhile_cons_of_pos hbyte, List.dropWhile_cons_of_pos hbyte]
      split
      · rename_i tail htail
        simp [halpha, htail]
      · rename_i hother
        simp only [Option.isSome_none, Bool.false_eq_true, halpha, true_and, false_iff]
        intro hhead
        obtain ⟨tail, htail⟩ := List.head?_eq_some_iff.1 hhead
        exact hother tail htail
    · simp only [halpha, Bool.false_eq_true, false_and, iff_false, Bool.not_eq_true]
      split
      · rename_i tail htail
        by_cases hbyte : isSchemeByte c = true
        · rw [List.takeWhile_cons_of_pos hbyte]
          simp [halpha]
        · rw [List.takeWhile_cons_of_neg hbyte]
          simp
      · rfl

/-- How the text that is built relates to the target of the reference: its path still has its dot
segments, or it is a path of the base, which keeps them. -/
inductive MergesTo (base t : Reference) (m : UrlParts) : Prop
  | cleaned (eq : ∀ clean, transform clean base t = { m.reference with path := clean m.path })
  | queried (path_ne : m.path ≠ []) (only : t.scheme = none ∧ t.authority = none ∧ t.path = [])
      (eq : ∀ clean, { transform clean base t with
        path := slashed (transform clean base t).path } = m.reference)

/-- The text that is built from a reference against the base. -/
inductive Merging (parsed : NetworkUrl) (base t : Reference) (authority : List UInt8)
    (r : CString) : Prop
  | built (m : UrlParts) (eq : mergeReference parsed r =
      if m.text.length < networkUrlCapacity then some m.text else none)
      (merges : MergesTo base t m)
      (own : t.scheme = none → t.authority = none → m.authority = authority)
  | bare (letters : List UInt8) (eq : ∀ text, mergeReference parsed r = some text →
      authorityOf text = []) (length_letters : letters.length = 4)
      (target : ∀ clean, ∃ path query, transform clean base t =
        ⟨some letters, some [], clean path, query⟩ ∧ (path = [] ∨ path.head? = some 47))

section

variable {url : CString} {parsed : NetworkUrl} {u : UrlParts} {r : CString}

/-- A reference with an authority of its own. -/
theorem merging_of_authority (base : Reference) {text : CString} {front rest : List UInt8}
    (hbytes : text.bytes = front ++ rest) (hlower : front.map asciiLower = httpScheme.bytes)
    (hfragment : 35 ∉ text.bytes) (hscheme : networkStartsWithCi text httpScheme = true)
    (hmerge : mergeReference parsed r =
      if text.length < networkUrlCapacity then some text else none) {t : Reference}
    (htransform : ∀ clean, transform clean base t = ⟨some (front.take 4), t.authority,
      clean t.path, t.query⟩)
    (ht : t.authority = (splitAuthority (47 :: 47 :: rest)).1 ∧
      (t.path, t.query) = splitQuery (splitAuthority (47 :: 47 :: rest)).2)
    (authority : List UInt8) : Merging parsed base t authority r := by
  have hlength : front.length = 7 := by
    rw [← List.length_map (f := asciiLower), hlower]
    rfl
  have hdrop : text.bytes.drop 7 = rest := by
    rw [hbytes, ← hlength]
    exact List.drop_left
  by_cases hbare : authorityOf text = []
  · have hhead : ∀ c, rest.head? = some c → c = 47 ∨ c = 63 := by
      intro c hc
      obtain ⟨tail, rfl⟩ := List.head?_eq_some_iff.1 hc
      have hends : endsAuthority c = true := by
        by_contra hends
        rw [authorityOf, hdrop, List.takeWhile_cons_of_pos (by simpa using hends)] at hbare
        cases hbare
      have h35 : c ≠ 35 := fun h => hfragment (by rw [hbytes, h]; simp)
      simp only [endsAuthority, Bool.or_eq_true, decide_eq_true_eq] at hends
      exact hends.resolve_right h35
    have hsplit : splitAuthority (47 :: 47 :: rest) = (some [], rest) := by
      obtain ⟨htake, hdropWhile⟩ := takeWhile_dropWhile_split
        (p := fun c => decide (c ≠ 47) && decide (c ≠ 63))
        (fun c (hc : c ∈ ([] : List UInt8)) => absurd hc List.not_mem_nil)
        fun c (hc : rest.head? = some c) => by rcases hhead c hc with rfl | rfl <;> rfl
      rw [List.nil_append] at htake hdropWhile
      rw [splitAuthority, htake, hdropWhile]
    rw [hsplit] at ht
    obtain ⟨hauthority, hpath⟩ := ht
    refine .bare (front.take 4) (fun text' h' => ?_) (by simp [hlength]) fun clean =>
      ⟨t.path, t.query, by rw [htransform, hauthority], ?_⟩
    · rw [hmerge] at h'
      split at h'
      · rw [← Option.some.inj h', hbare]
      · cases h'
    · have htake : t.path = rest.takeWhile (· ≠ 63) := congrArg Prod.fst hpath
      rw [htake]
      cases rest with
      | nil => exact .inl rfl
      | cons c rest =>
        rcases hhead c rfl with rfl | rfl
        · exact .inr rfl
        · exact .inl rfl
  · obtain ⟨m, hm⟩ := exists_urlParts hscheme hbare hfragment
    have hparts : m.scheme ++ (m.authority ++ (m.path ++ m.query)) = front ++ rest := by
      rw [← List.append_assoc, ← hbytes, ← hm]
      rfl
    obtain ⟨hfront, hrest⟩ := List.append_inj hparts (by rw [m.length_scheme, hlength])
    rw [← hrest, m.splitAuthority_eq, m.splitQuery_eq] at ht
    obtain ⟨hauthority, hpath⟩ := ht
    refine .built m (by rw [hmerge, hm]) (.cleaned fun clean => ?_) ?_
    · rw [htransform, hauthority, show t.path = m.path from congrArg Prod.fst hpath,
        show t.query = m.query.tail? from congrArg Prod.snd hpath, ← hfront]
      rfl
    · intro _ hnone
      rw [hauthority] at hnone
      cases hnone

/-- A URL of the same authority. -/
def UrlParts.sibling (u : UrlParts) (path query : List UInt8) (path_slash : path.head? = some 47)
    (path_plain : ∀ c ∈ path, c ≠ 0 ∧ endsPath c = false)
    (query_mark : query = [] ∨ query.head? = some 63)
    (query_plain : ∀ c ∈ query, c ≠ 0 ∧ c ≠ 35) : UrlParts :=
  { u with
    scheme := httpScheme.bytes
    path := path
    query := query
    scheme_eq := by decide
    path_slash := .inr path_slash
    path_plain := path_plain
    query_mark := query_mark
    query_plain := query_plain }

theorem slashed_plain (u : UrlParts) (c : UInt8) (h : c ∈ slashed u.path) :
    c ≠ 0 ∧ endsPath c = false := by
  unfold slashed at h
  split at h
  · rw [List.mem_singleton.1 h]
    decide
  · exact u.path_plain c h

theorem RequestOf.takeWhile_path (H : RequestOf url parsed u) :
    parsed.path.bytes.takeWhile (· ≠ 63) = slashed u.path := by
  rw [H.path_eq]
  exact (u.split_query (slashed_plain u)).1

/-- The text of a reference without scheme and authority. -/
theorem mergeReference_local (H : RequestOf url parsed u)
    (hscheme : networkStartsWithCi r httpScheme = false)
    (hslashes : ¬(r.char 0 = 47 ∧ r.char 1 = 47)) {directory : List UInt8} (hzero : 0 ∉ directory)
    (hdirectory : directory = if r.char 0 = 47 then [] else
      if r.char 0 = 63 then slashed u.path else directoryOf (slashed u.path)) :
    mergeReference parsed r =
      networkAppendSpan networkUrlCapacity httpScheme (u.authority ++ (directory ++ r.bytes)) := by
  have hauthority : 0 ∉ u.authority := fun h => (u.authority_plain 0 h).1 rfl
  rw [mergeReference, if_neg (by simp [hscheme]), if_neg hslashes, networkAppendText,
    H.hostHeader_eq, H.takeWhile_path, ← networkAppendSpan_bind hauthority]
  cases networkAppendSpan networkUrlCapacity httpScheme u.authority with
  | none => rfl
  | some destination =>
    dsimp only [Option.bind_some]
    by_cases hslash : r.char 0 = 47
    · rw [if_pos hslash] at hdirectory
      rw [if_pos hslash, hdirectory, List.nil_append, networkAppendText]
    · rw [if_neg hslash] at hdirectory
      rw [if_neg hslash, ← hdirectory, ← networkAppendSpan_bind hzero]
      cases networkAppendSpan networkUrlCapacity destination directory with
      | none => rfl
      | some destination => rfl

theorem parse_local (hscheme : networkUrlHasExplicitScheme r = false)
    (hslashes : ¬(r.char 0 = 47 ∧ r.char 1 = 47)) :
    parse r.bytes =
      ⟨none, none, r.bytes.takeWhile (· ≠ 63), (r.bytes.dropWhile (· ≠ 63)).tail?⟩ := by
  have hnone : splitScheme r.bytes = none := by
    rw [← Option.not_isSome_iff_eq_none, splitScheme_isSome_iff, hscheme]
    exact Bool.false_ne_true
  have hauthority : splitAuthority r.bytes = (none, r.bytes) := by
    unfold splitAuthority
    split
    · rename_i rest hrest
      exact absurd ⟨by rw [char, hrest]; rfl, by rw [char, hrest]; rfl⟩ hslashes
    · rfl
  rw [parse, hnone]
  dsimp only
  rw [hauthority]
  rfl

/-- The directory of a path that starts with a slash. -/
theorem head?_directory {path : List UInt8} (h : path.head? = some 47) :
    (path.rdropWhile (· ≠ 47)).head? = some 47 := by
  obtain ⟨segments, hne, hslash, -, rfl⟩ := exists_segments h
  rcases List.eq_nil_or_concat segments with rfl | ⟨front, last, rfl⟩
  · exact absurd rfl hne
  · rw [List.concat_eq_append] at hslash ⊢
    rw [pathOf_append, pathOf_cons, pathOf_nil, List.append_nil,
      rdropWhile_slash _ (hslash last (by simp))]
    cases front with
    | nil => rfl
    | cons segment front => rfl

/-- The path of a reference in the directory of the base. -/
theorem merge_eq (u : UrlParts) {base : Reference} (hauthority : base.authority.isSome = true)
    (hpath : base.path = u.path) (path : List UInt8) :
    merge base path = (slashed u.path).rdropWhile (· ≠ 47) ++ path := by
  rw [merge, hpath, slashed]
  by_cases hempty : u.path = []
  · rw [if_pos ⟨hauthority, hempty⟩, if_pos hempty]
    rfl
  · rw [if_neg fun h => hempty h.2, if_neg hempty]

/-- A reference without scheme and authority. -/
theorem merging_of_local (H : RequestOf url parsed u) (hfragment : 35 ∉ r.bytes)
    (hne : r.bytes ≠ []) (hstarts : networkStartsWithCi r httpScheme = false)
    (hscheme : networkUrlHasExplicitScheme r = false)
    (hslashes : ¬(r.char 0 = 47 ∧ r.char 1 = 47)) :
    Merging parsed (baseReference url) (parse r.bytes) u.authority r := by
  have hmem {c : UInt8} (h : c ∈ r.bytes) : c ≠ 0 ∧ c ≠ 35 :=
    ⟨fun h0 => r.noNul (h0 ▸ h), fun h35 => hfragment (h35 ▸ h)⟩
  obtain ⟨first, rest, hbytes⟩ := List.exists_cons_of_ne_nil hne
  have hchar : r.char 0 = first := by
    rw [char, hbytes]
    rfl
  -- the part of the base's path that stays before the reference
  generalize hdirectory : (if r.char 0 = 47 then [] else if r.char 0 = 63 then slashed u.path
    else (slashed u.path).rdropWhile (· ≠ 47) : List UInt8) = directory
  have hplain : ∀ c ∈ directory, c ≠ 0 ∧ endsPath c = false := by
    intro c hc
    rw [← hdirectory] at hc
    split at hc
    · cases hc
    split at hc
    · exact slashed_plain u c hc
    · exact slashed_plain u c ((List.rdropWhile_prefix _ _).subset hc)
  have hhead : (directory ++ r.bytes.takeWhile (· ≠ 63)).head? = some 47 := by
    rw [← hdirectory]
    by_cases hslash : r.char 0 = 47
    · rw [if_pos hslash, List.nil_append, hbytes, ← hchar, hslash]
      rfl
    have hslashed := head?_slashed u.path_slash
    by_cases hmark : r.char 0 = 63
    · rw [if_neg hslash, if_pos hmark, List.head?_append, hslashed]
      rfl
    · rw [if_neg hslash, if_neg hmark, List.head?_append, head?_directory hslashed]
      rfl
  have hpath : ∀ c ∈ directory ++ r.bytes.takeWhile (· ≠ 63), c ≠ 0 ∧ endsPath c = false := by
    intro c hc
    rcases List.mem_append.1 hc with hc | hc
    · exact hplain c hc
    · have hr := hmem ((List.takeWhile_prefix _).subset hc)
      have h63 : c ≠ 63 := by simpa using List.mem_takeWhile_imp hc
      exact ⟨hr.1, by simp [endsPath, h63, hr.2]⟩
  have hquery : r.bytes.dropWhile (· ≠ 63) = [] ∨ (r.bytes.dropWhile (· ≠ 63)).head? = some 63 := by
    have hnot := List.head?_dropWhile_not (· ≠ (63 : UInt8)) r.bytes
    cases hdrop : r.bytes.dropWhile (· ≠ 63) with
    | nil => exact .inl rfl
    | cons c tail =>
      rw [hdrop] at hnot
      exact .inr (congrArg some (by simpa using hnot))
  obtain ⟨m, hmpath, hmquery, hmauthority, hmscheme⟩ : ∃ m : UrlParts,
      m.path = directory ++ r.bytes.takeWhile (· ≠ 63) ∧ m.query = r.bytes.dropWhile (· ≠ 63) ∧
      m.authority = u.authority ∧ m.scheme = httpScheme.bytes :=
    ⟨u.sibling _ _ hhead hpath hquery (fun c hc => hmem ((List.dropWhile_suffix _).subset hc)), rfl,
      rfl, rfl, rfl⟩
  have hreference : m.reference = ⟨some (ofString "http").bytes, some u.authority,
      directory ++ r.bytes.takeWhile (· ≠ 63), (r.bytes.dropWhile (· ≠ 63)).tail?⟩ := by
    rw [UrlParts.reference, hmpath, hmquery, hmauthority, hmscheme]
    rfl
  have hmbytes : m.bytes = httpScheme.bytes ++ u.authority ++ (directory ++ r.bytes) := by
    rw [UrlParts.bytes, hmpath, hmquery, hmauthority, hmscheme, List.append_assoc directory,
      List.takeWhile_append_dropWhile]
  rw [parse_local hscheme hslashes, H.base_eq]
  refine .built m ?_ ?_ fun _ _ => hmauthority
  · have hlength : m.text.length =
        httpScheme.length + (u.authority ++ (directory ++ r.bytes)).length := by
      change m.bytes.length = _
      rw [hmbytes, List.append_assoc, List.length_append]
      rfl
    rw [mergeReference_local H hstarts hslashes (fun h => (hplain 0 h).1 rfl) hdirectory.symm,
      networkAppendSpan_eq, ← hlength, ← List.append_assoc httpScheme.bytes, ← hmbytes,
      m.ofBytes_bytes]
  · -- a mere query keeps the path of the base with its dot segments
    by_cases hmark : r.char 0 = 63
    · have hslash : r.char 0 ≠ 47 := by
        rw [hmark]
        decide
      rw [if_neg hslash, if_pos hmark] at hdirectory
      have hempty : r.bytes.takeWhile (· ≠ 63) = [] := by
        rw [hbytes, ← hchar, hmark]
        rfl
      have hsome : (r.bytes.dropWhile (· ≠ 63)).tail?.isSome = true := by
        rw [hbytes, ← hchar, hmark]
        rfl
      refine .queried ?_ ⟨rfl, rfl, hempty⟩ fun clean => ?_
      · intro hnil
        have hslashed := head?_slashed u.path_slash
        rw [hmpath, hempty, List.append_nil, ← hdirectory] at hnil
        rw [hnil] at hslashed
        cases hslashed
      · rw [hreference, hempty, List.append_nil, ← hdirectory, transform, if_neg (by simp),
          if_neg (by simp), if_pos rfl, if_pos hsome]
    · have hnonempty : r.bytes.takeWhile (· ≠ 63) ≠ [] := by
        rw [hbytes, List.takeWhile_cons_of_pos (by simpa [← hchar] using hmark)]
        exact List.cons_ne_nil _ _
      have hfirst : (r.bytes.takeWhile (· ≠ 63)).head? = some (r.char 0) := by
        rw [hchar, hbytes, List.takeWhile_cons_of_pos (by simpa [← hchar] using hmark)]
        rfl
      refine .cleaned fun clean => ?_
      rw [hreference, transform, if_neg (by simp), if_neg (by simp), if_neg hnonempty,
        hfirst, hmpath]
      by_cases hslash : r.char 0 = 47
      · rw [if_pos hslash] at hdirectory
        rw [if_pos (congrArg some hslash), ← hdirectory]
        rfl
      · rw [if_neg hslash, if_neg hmark] at hdirectory
        rw [if_neg fun h => hslash (Option.some.inj h), merge_eq u rfl rfl, hdirectory]

/-- The text that is built from a reference that is not refused. -/
theorem mergeReference_cases (H : RequestOf url parsed u) (hfragment : 35 ∉ r.bytes)
    (hne : r.bytes ≠ [])
    (hscheme : networkStartsWithCi r httpScheme = true ∨ networkUrlHasExplicitScheme r = false) :
    Merging parsed (baseReference url) (parse r.bytes) u.authority r := by
  by_cases hstarts : networkStartsWithCi r httpScheme = true
  · obtain ⟨front, rest, hbytes, hlower⟩ := networkStartsWithCi_http_iff.1 hstarts
    have hparse : parse r.bytes =
        ⟨some (front.take 4), (splitAuthority (47 :: 47 :: rest)).1,
          (splitQuery (splitAuthority (47 :: 47 :: rest)).2).1,
          (splitQuery (splitAuthority (47 :: 47 :: rest)).2).2⟩ := by
      rw [parse, hbytes, (splitScheme_http hlower).2]
    refine merging_of_authority _ hbytes hlower hfragment hstarts ?_ (fun clean => ?_) ?_ _
    · rw [mergeReference, if_pos hstarts, networkCopyText_eq]
    · rw [hparse]
      rfl
    · rw [hparse]
      exact ⟨rfl, rfl⟩
  rw [Bool.not_eq_true] at hstarts
  have hlocal := hscheme.resolve_left (by simp [hstarts])
  by_cases hslashes : r.char 0 = 47 ∧ r.char 1 = 47
  · obtain ⟨rest, hbytes⟩ : ∃ rest, r.bytes = 47 :: 47 :: rest := by
      obtain ⟨h0, h1⟩ := hslashes
      cases h : r.bytes with
      | nil => exact absurd h hne
      | cons c tail =>
        rw [char, h] at h0 h1
        cases tail with
        | nil => cases h1
        | cons d rest => exact ⟨rest, by rw [show c = 47 from h0, show d = 47 from h1]⟩
    have htext : (ofBytes ((ofString "http:").bytes ++ r.bytes)).bytes =
        httpScheme.bytes ++ rest := by
      rw [bytes_ofBytes, hbytes]
      · rfl
      · rw [List.mem_append, not_or]
        exact ⟨(ofString "http:").noNul, r.noNul⟩
    have hparse : parse r.bytes =
        ⟨none, (splitAuthority (47 :: 47 :: rest)).1,
          (splitQuery (splitAuthority (47 :: 47 :: rest)).2).1,
          (splitQuery (splitAuthority (47 :: 47 :: rest)).2).2⟩ := by
      rw [parse, hbytes, splitScheme_slash]
    refine merging_of_authority _ htext (by decide) ?_ ?_ ?_ (fun clean => ?_) ?_ _
    · rw [htext, List.mem_append, not_or]
      refine ⟨by decide, fun h => hfragment ?_⟩
      rw [hbytes]
      exact List.mem_cons_of_mem _ (List.mem_cons_of_mem _ h)
    · exact networkStartsWithCi_http_iff.2 ⟨_, rest, htext, by decide⟩
    · have hlength : (ofBytes ((ofString "http:").bytes ++ r.bytes)).length =
          (ofString "http:").length + r.bytes.length := by
        rw [length, htext, hbytes]
        simp only [List.length_append, List.length_cons]
        have h7 : httpScheme.bytes.length = 7 := rfl
        have h5 : (ofString "http:").length = 5 := rfl
        omega
      rw [mergeReference, if_neg (by simp [hstarts]), if_pos hslashes, networkAppendText,
        networkAppendSpan_eq, hlength]
    · rw [hparse, H.base_eq]
      rfl
    · rw [hparse]
      exact ⟨rfl, rfl⟩
  · exact merging_of_local H hfragment hne hstarts hlocal hslashes

end

/-! ### Redirects -/

/-- The target of a reference against the URL of a request, with an empty path written as a
slash. -/
def redirectTarget (url : CString) (reference : List UInt8) : Reference :=
  { resolve (baseReference url) (Reference.parse reference) with
    path := slashed (resolve (baseReference url) (Reference.parse reference)).path }

/-- The target before its dot segments are removed. -/
def mergedTarget (url : CString) (reference : List UInt8) : Reference :=
  { transform id (baseReference url) (Reference.parse reference) with
    path := slashed (transform id (baseReference url) (Reference.parse reference)).path }

/-- The components without dot segments in the path. -/
def withoutDots (r : Reference) : Reference := { r with path := removeDotSegments r.path }

/-- The reference of a `Location`, which ends where its fragment starts. -/
def referenceOf (location : CString) : List UInt8 := location.bytes.takeWhile (· ≠ 35)

theorem slashed_removeDotSegments (m : UrlParts) :
    slashed (removeDotSegments m.path) = m.normalPath := by
  rw [UrlParts.normalPath]
  by_cases hempty : m.path = []
  · rw [if_pos hempty, hempty, removeDotSegments, removeLoop]
    rfl
  · have hhead := head?_removeDotSegments (m.path_slash.resolve_left hempty)
    rw [if_neg hempty, slashed, if_neg]
    intro hnil
    rw [hnil] at hhead
    cases hhead

theorem removeDotSegments_normalPath (m : UrlParts) :
    removeDotSegments m.normalPath = m.normalPath := by
  have hnormal := m.normal_normal
  rw [UrlParts.normalPath, if_neg] at hnormal
  · exact hnormal
  · intro hnil
    have hhead := m.head?_normalPath
    rw [show m.normalPath = [] from hnil] at hhead
    cases hhead

section

variable {url : CString} {m : UrlParts} {reference : List UInt8}

section

variable (h : MergesTo (baseReference url) (Reference.parse reference) m)

include h

theorem MergesTo.withoutDots_eq :
    withoutDots (redirectTarget url reference) = m.normal.reference := by
  cases h with
  | cleaned eq =>
    rw [withoutDots, redirectTarget, resolve, eq]
    rw [slashed_removeDotSegments, removeDotSegments_normalPath]
    rfl
  | queried path_ne only eq =>
    have htarget : redirectTarget url reference = m.reference := eq _
    rw [withoutDots, htarget]
    change { m.reference with path := removeDotSegments m.path } =
      { m.reference with path := m.normalPath }
    rw [UrlParts.normalPath, if_neg path_ne]

theorem MergesTo.target_eq : redirectTarget url reference = m.normal.reference ∨
      redirectTarget url reference = m.reference ∧ m.path ≠ [] ∧
        (parse reference).scheme = none ∧ (parse reference).authority = none ∧
        (parse reference).path = [] := by
  cases h with
  | cleaned eq =>
    left
    rw [redirectTarget, resolve, eq]
    rw [slashed_removeDotSegments]
    rfl
  | queried path_ne only eq => exact .inr ⟨eq _, path_ne, only⟩

/-- The text that is built is not longer than the target before its dot segments are removed. -/
theorem MergesTo.length_le : m.text.length ≤ (mergedTarget url reference).text.length := by
  have htext : m.text.length = m.reference.text.length := by
    rw [m.text_reference]
    rfl
  rw [htext]
  cases h with
  | cleaned eq =>
    rw [mergedTarget, eq]
    have hslashed : m.path.length ≤ (slashed m.path).length := by
      unfold slashed
      split
      · rename_i hempty
        rw [hempty]
        exact Nat.zero_le _
      · exact le_rfl
    simp only [text, List.length_append, UrlParts.reference, id]
    omega
  | queried path_ne only eq =>
    have hmerged : mergedTarget url reference = m.reference := eq _
    rw [hmerged]

end

end

theorem authorityOf_bare {front : List UInt8} (h : front.length = 7) (rest : List UInt8) :
    authorityOf (ofBytes (front ++ 47 :: rest)) = [] := by
  rw [authorityOf]
  change (((front ++ 47 :: rest).takeWhile (· ≠ 0)).drop 7).takeWhile _ = []
  rw [List.takeWhile_append]
  split
  · rename_i hfront
    rw [← h, List.drop_left]
    rfl
  · rw [List.drop_eq_nil_of_le]
    · rfl
    · rw [← h]
      exact (List.takeWhile_prefix _).length_le

theorem networkNormalizeHttpUrlPath_bare {text : CString} (h : authorityOf text = []) :
    networkNormalizeHttpUrlPath text = none := by
  rw [networkNormalizeHttpUrlPath]
  split
  · rfl
  · exact if_pos (.inl h)

/-- `https://` is an explicit scheme and not `http://`. -/
theorem explicit_of_https {r : CString} (h : networkStartsWithCi r httpsScheme = true) :
    networkStartsWithCi r httpScheme = false ∧ networkUrlHasExplicitScheme r = true := by
  obtain ⟨front, rest, hbytes, hlower⟩ := (networkStartsWithCiLoop_iff httpsScheme.noNul).1 h
  obtain ⟨scheme, -, hlength, hsplit⟩ :=
    splitScheme_of_lower [104, 116, 116, 112, 115] (by simp) (by simp) hlower
  constructor
  · by_contra hhttp
    obtain ⟨front', rest', hbytes', hlower'⟩ :=
      networkStartsWithCi_http_iff.1 ((Bool.not_eq_false _).mp hhttp)
    have hsplit' := (splitScheme_http hlower').2 rest'
    rw [← hbytes', hbytes, hsplit, Option.some.injEq, Prod.mk.injEq] at hsplit'
    have hfive : scheme.length = 5 := hlength
    rw [hsplit'.1, List.length_take] at hfive
    omega
  · rw [← splitScheme_isSome_iff, hbytes, hsplit]
    rfl

/-- The reference has a scheme that is refused. -/
abbrev Refused (r : CString) : Prop :=
  networkStartsWithCi r httpScheme = false ∧ networkUrlHasExplicitScheme r = true

section

variable {parsed : NetworkUrl} {location r : CString}

/-- The reference of a `Location` in its buffer, with the refused schemes. -/
theorem networkResolveRedirectUrl_eq (hlength : location.length < networkUrlCapacity)
    (hr : r.bytes = referenceOf location) (hne : r.bytes ≠ []) :
    networkResolveRedirectUrl parsed location =
      if Refused r then
        .error .unsupported
      else
        match (mergeReference parsed r).bind networkNormalizeHttpUrlPath with
        | none => .error .protocol
        | some url => if (networkParseHttpUrl url).isSome then .ok url else .error .protocol := by
  have hreference : ofBytes (location.bytes.takeWhile (· ≠ 35)) = r := by
    rw [← referenceOf, ← hr, ofBytes_bytes]
  have hr0 : r.char 0 ≠ 0 := by
    obtain ⟨c, rest, hbytes⟩ := List.exists_cons_of_ne_nil hne
    rw [char, hbytes]
    exact fun h => r.noNul (by rw [hbytes, ← show c = 0 from h]; exact List.mem_cons_self)
  have hlocation : location.char 0 ≠ 0 := by
    obtain ⟨c, rest, hbytes⟩ := List.exists_cons_of_ne_nil hne
    obtain ⟨tail, htail⟩ : r.bytes <+: location.bytes := by
      rw [hr]
      exact List.takeWhile_prefix _
    have hfirst : location.char 0 = r.char 0 := by
      rw [char, char, ← htail, hbytes]
      rfl
    rw [hfirst]
    exact hr0
  rw [networkResolveRedirectUrl, if_neg hlocation, networkCopyText_eq, if_pos hlength]
  dsimp only
  rw [hreference, if_neg hr0]
  by_cases hhttps : networkStartsWithCi r httpsScheme = true
  · rw [if_pos hhttps, if_pos (explicit_of_https hhttps)]
  rw [if_neg hhttps]
  by_cases hrefused : Refused r
  · rw [if_pos hrefused, if_pos (by simpa using hrefused)]
  rw [if_neg hrefused, if_neg (by simpa using hrefused)]
  cases mergeReference parsed r with
  | none => rfl
  | some destination =>
    cases networkNormalizeHttpUrlPath destination <;> rfl

theorem length_lt_of_ok {out : CString} (h : networkResolveRedirectUrl parsed location = .ok out) :
    location.length < networkUrlCapacity := by
  by_contra hlong
  rw [networkResolveRedirectUrl, networkCopyText_eq, if_neg hlong] at h
  split at h <;> cases h

/-- The result for a text that is built. -/
theorem networkResolveRedirectUrl_built {m : UrlParts}
    (hlength : location.length < networkUrlCapacity) (hr : r.bytes = referenceOf location)
    (hne : r.bytes ≠ [])
    (hscheme : ¬Refused r)
    (hmerge : mergeReference parsed r =
      if m.text.length < networkUrlCapacity then some m.text else none) :
    networkResolveRedirectUrl parsed location =
      if m.text.length < networkUrlCapacity ∧ (networkParseHttpUrl m.normal.text).isSome = true then
        .ok m.normal.text else .error .protocol := by
  rw [networkResolveRedirectUrl_eq hlength hr hne, if_neg hscheme, hmerge]
  by_cases hfits : m.text.length < networkUrlCapacity
  swap
  · rw [if_neg hfits, if_neg fun h => hfits h.1]
    rfl
  rw [if_pos hfits, Option.bind_some, networkNormalizeHttpUrlPath_text m hfits]
  by_cases hnormal : m.normal.text.length < networkUrlCapacity
  · rw [if_pos hnormal]
    simp only [hfits, true_and]
  · rw [if_neg hnormal, if_neg]
    rintro ⟨-, haccepted⟩
    exact hnormal ((networkParseHttpUrl_isSome_iff _).1 haccepted).2.1

end

/-- A reference with a scheme and an authority has `http` as its scheme if its target has. -/
theorem startsWith_of_target {url location r : CString} (hr : r.bytes = referenceOf location)
    (hscheme : (parse (referenceOf location)).scheme.isSome = true)
    (hauthority : (redirectTarget url (referenceOf location)).authority.isSome = true)
    (hstarts : networkStartsWithCi (ofBytes (redirectTarget url (referenceOf location)).text)
      httpScheme = true) : networkStartsWithCi r httpScheme = true := by
  generalize hreference : referenceOf location = reference at *
  cases hsplit : splitScheme reference with
  | none =>
    rw [parse, hsplit] at hscheme
    cases hscheme
  | some split =>
    obtain ⟨scheme, rest⟩ := split
    obtain ⟨hbytes, hletters⟩ := splitScheme_eq_some_iff.1 hsplit
    have hparse : parse reference = ⟨some scheme, (splitAuthority rest).1,
        (splitQuery (splitAuthority rest).2).1, (splitQuery (splitAuthority rest).2).2⟩ := by
      rw [parse, hsplit]
    obtain ⟨authority, hsome⟩ := Option.isSome_iff_exists.1 hauthority
    have hresolved : (splitAuthority rest).1 = some authority := by
      rw [redirectTarget, resolve, hparse] at hsome
      exact hsome
    obtain ⟨tail, hrest⟩ : ∃ tail, rest = 47 :: 47 :: tail := by
      unfold splitAuthority at hresolved
      split at hresolved
      · exact ⟨_, rfl⟩
      · cases hresolved
    obtain ⟨after, htext⟩ : ∃ after, (redirectTarget url reference).text =
        scheme ++ 58 :: 47 :: 47 :: after := by
      refine ⟨authority ++ (redirectTarget url reference).path ++
        queryText (redirectTarget url reference).query, ?_⟩
      have hscheme' : (redirectTarget url reference).scheme = some scheme := by
        rw [redirectTarget, resolve, hparse]
        rfl
      rw [text, hscheme', hsome]
      simp
    -- both texts have the same letters before their first colon
    obtain ⟨front, back, hfront, hlower⟩ := networkStartsWithCi_http_iff.1 hstarts
    obtain ⟨zeros, hzeros⟩ : (ofBytes (redirectTarget url reference).text).bytes <+:
        (redirectTarget url reference).text := List.takeWhile_prefix _
    have hsame : splitScheme (front ++ (back ++ zeros)) = some (scheme, 47 :: 47 :: after) := by
      rw [← List.append_assoc, ← hfront, hzeros]
      exact splitScheme_eq_some_iff.2 ⟨htext, hletters⟩
    rw [(splitScheme_http hlower).2, Option.some.injEq, Prod.mk.injEq] at hsame
    refine networkStartsWithCi_http_iff.2 ⟨front, tail, ?_, hlower⟩
    conv_rhs => rw [(splitScheme_http hlower).1]
    rw [hr, hbytes, ← hsame.1, hrest, List.append_assoc]
    rfl

theorem authorityOf_bareTarget {url : CString} {reference letters : List UInt8}
    (hletters : letters.length = 4)
    (h : ∃ path query, transform removeDotSegments (baseReference url) (parse reference) =
      ⟨some letters, some [], removeDotSegments path, query⟩ ∧ (path = [] ∨ path.head? = some 47)) :
    authorityOf (ofBytes (redirectTarget url reference).text) = [] := by
  obtain ⟨path, query, htransform, hpath⟩ := h
  obtain ⟨tail, htail⟩ : ∃ tail, slashed (removeDotSegments path) = 47 :: tail := by
    refine List.head?_eq_some_iff.1 (head?_slashed ?_)
    rcases hpath with rfl | hpath
    · left
      rw [removeDotSegments, removeLoop]
    · exact .inr (head?_removeDotSegments hpath)
  have htext : (redirectTarget url reference).text =
      (letters ++ [58, 47, 47]) ++ 47 :: (tail ++ queryText query) := by
    rw [redirectTarget, resolve, htransform]
    rw [htail]
    simp [text]
  rw [htext]
  exact authorityOf_bare (by simp [hletters]) _

/-- Redirects are resolved as references against the URL of the request.  The result is the target
of the reference, except that dot segments of the base are removed as well if the reference is a
mere query. -/
theorem redirect_resolves_reference (url location : CString) (parsed : NetworkUrl)
    (haccepted : networkParseHttpUrl url = some parsed) (hreference : referenceOf location ≠ []) :
    (∀ out, networkResolveRedirectUrl parsed location = .ok out →
      out.bytes = (withoutDots (redirectTarget url (referenceOf location))).text ∧
      ((Reference.parse (referenceOf location)).scheme.isSome = true ∨
        (Reference.parse (referenceOf location)).authority.isSome = true ∨
        (Reference.parse (referenceOf location)).path ≠ [] →
        out.bytes = (redirectTarget url (referenceOf location)).text) ∧
      (networkParseHttpUrl out).isSome = true ∧
      ((Reference.parse (referenceOf location)).scheme = none →
        (Reference.parse (referenceOf location)).authority = none →
        authorityOf out = authorityOf url)) ∧
    (location.length < networkUrlCapacity →
      (Reference.parse (referenceOf location)).scheme.isSome = true →
      networkStartsWithCi (CString.ofBytes (referenceOf location)) httpScheme = false →
      networkResolveRedirectUrl parsed location = .error .unsupported) ∧
    (location.length < networkUrlCapacity →
      (mergedTarget url (referenceOf location)).text.length < networkUrlCapacity →
      (redirectTarget url (referenceOf location)).authority.isSome = true →
      (networkParseHttpUrl
        (CString.ofBytes (redirectTarget url (referenceOf location)).text)).isSome = true →
      ∃ out, networkResolveRedirectUrl parsed location = .ok out) := by
  obtain ⟨u, H⟩ := exists_requestOf haccepted
  have hzero : 0 ∉ referenceOf location := fun h =>
    location.noNul ((List.takeWhile_prefix _).subset h)
  have hfragment : 35 ∉ referenceOf location := fun h =>
    absurd (List.mem_takeWhile_imp h) (by decide)
  obtain ⟨r, hr⟩ : ∃ r : CString, r.bytes = referenceOf location := ⟨⟨_, hzero⟩, rfl⟩
  have hofBytes : ofBytes (referenceOf location) = r := by rw [← hr, ofBytes_bytes]
  have hne : r.bytes ≠ [] := by
    rw [hr]
    exact hreference
  have hexplicit : (parse (referenceOf location)).scheme.isSome = true ↔
      networkUrlHasExplicitScheme r = true := by
    rw [← splitScheme_isSome_iff, hr, parse]
    cases splitScheme (referenceOf location) <;> rfl
  have hmerging (hscheme : ¬Refused r) := mergeReference_cases H (hr ▸ hfragment) hne
    (by cases hstarts : networkStartsWithCi r httpScheme <;> simp_all)
  rw [hr] at hmerging
  -- a text without a host does not pass the normalisation
  have hbare {out : CString} (hscheme : ¬Refused r) (hlength : location.length < networkUrlCapacity)
      (heq : ∀ text, mergeReference parsed r = some text → authorityOf text = []) :
      networkResolveRedirectUrl parsed location ≠ .ok out := by
    rw [networkResolveRedirectUrl_eq hlength hr hne, if_neg hscheme]
    cases hmerge : mergeReference parsed r with
    | none => simp
    | some text =>
      rw [Option.bind_some, networkNormalizeHttpUrlPath_bare (heq text hmerge)]
      simp
  refine ⟨fun out hout => ?_, fun hlength hsome hstarts => ?_,
    fun hlength hmerged hauthority htarget => ?_⟩
  · have hlength := length_lt_of_ok hout
    have hscheme : ¬Refused r := by
      intro hrefused
      rw [networkResolveRedirectUrl_eq hlength hr hne, if_pos hrefused] at hout
      cases hout
    cases hmerging hscheme with
    | bare letters heq => exact absurd hout (hbare hscheme hlength heq)
    | built m heq hmerges hown =>
      rw [networkResolveRedirectUrl_built hlength hr hne hscheme heq] at hout
      split at hout
      swap
      · cases hout
      rename_i haccepts
      cases hout
      refine ⟨?_, fun hnotQuery => ?_, haccepts.2, fun hnone hnone' => ?_⟩
      · rw [hmerges.withoutDots_eq, m.normal.text_reference]
        rfl
      · rcases hmerges.target_eq with htarget | ⟨-, -, hs, ha, hp⟩
        · rw [htarget, m.normal.text_reference]
          rfl
        · rw [hs, ha, hp] at hnotQuery
          simp at hnotQuery
      · rw [m.normal.split_text.1, H.authority_eq]
        exact hown hnone hnone'
  · rw [hofBytes] at hstarts
    rw [networkResolveRedirectUrl_eq hlength hr hne, if_pos ⟨hstarts, hexplicit.1 hsome⟩]
  · have hscheme : ¬Refused r := by
      rintro ⟨hstarts, hscheme⟩
      have hhttp := startsWith_of_target hr (hexplicit.2 hscheme) hauthority
        ((networkParseHttpUrl_isSome_iff _).1 htarget).1
      rw [hstarts] at hhttp
      cases hhttp
    cases hmerging hscheme with
    | bare letters heq hletters hbareTarget =>
      have hempty := authorityOf_bareTarget hletters (hbareTarget removeDotSegments)
      have hvalid := ((networkParseHttpUrl_isSome_iff _).1 htarget).2.2.1
      rw [hempty] at hvalid
      exact absurd hvalid (by decide)
    | built m heq hmerges hown =>
      have hfits : m.text.length < networkUrlCapacity := hmerges.length_le.trans_lt hmerged
      have haccepts : (networkParseHttpUrl m.normal.text).isSome = true := by
        rcases hmerges.target_eq with hnormal | ⟨hraw, hpath, -⟩
        · rw [hnormal, m.normal.text_reference, m.normal.ofBytes_bytes] at htarget
          exact htarget
        · rw [hraw, m.text_reference, m.ofBytes_bytes] at htarget
          exact m.parse_normal_isSome hfits ((m.length_normal_le hpath).trans_lt hfits) htarget
      refine ⟨m.normal.text, ?_⟩
      rw [networkResolveRedirectUrl_built hlength hr hne hscheme heq, if_pos ⟨hfits, haccepts⟩]

/-- The URL of a request with dot segments. -/
def dottedBase : CString := CString.ofString "http://h/a/../b"

/-- A redirect to another page. -/
theorem redirect_resolves_reference_page :
    ∃ out, networkResolveRedirectUrl ⟨.ofString "h", .ofString "h", .ofString "/a/../b", 80⟩
      (CString.ofString "c#d") = .ok out :=
  (redirect_resolves_reference dottedBase (ofString "c#d") _ rfl (by decide)).2.2 (by decide)
    (by decide) (by decide +kernel) (by decide +kernel)

/-- The dot segments of the base are removed, though the target keeps them. -/
theorem query_redirect_removes_dots :
    networkParseHttpUrl dottedBase =
        some ⟨.ofString "h", .ofString "h", .ofString "/a/../b", 80⟩ ∧
      networkResolveRedirectUrl ⟨.ofString "h", .ofString "h", .ofString "/a/../b", 80⟩
        (CString.ofString "?q") = .ok (CString.ofString "http://h/b?q") ∧
      (redirectTarget dottedBase (CString.ofString "?q").bytes).text =
        (CString.ofString "http://h/a/../b?q").bytes :=
  ⟨rfl, rfl, by decide +kernel⟩

end Nostalux.Network
