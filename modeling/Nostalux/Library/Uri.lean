import Nostalux.Library.DotSegments

/-!
# References to resources

The components of a URI reference without a fragment, and the resolution of a reference against a
base as in RFC 3986, sections 5.2 and 5.3.

* `Reference.parse`: the components of a text;
* `transform`: the reference resolution, with the treatment of paths as a parameter;
* `Reference.text`: the components written as a text.
-/

namespace Uri

open DotSegments

/-- The components of a reference.  A component that is not defined is `none`. -/
structure Reference where
  scheme : Option (List UInt8)
  authority : Option (List UInt8)
  path : List UInt8
  query : Option (List UInt8)
  deriving DecidableEq

/-- `ALPHA`. -/
def isAlpha (c : UInt8) : Bool := (65 ≤ c && c ≤ 90) || (97 ≤ c && c ≤ 122)

/-- `ALPHA / DIGIT / "+" / "-" / "."`. -/
def isSchemeByte (c : UInt8) : Bool :=
  isAlpha c || (48 ≤ c && c ≤ 57) || c = 43 || c = 45 || c = 46

/-- The scheme of a reference, and what follows its colon. -/
def splitScheme (text : List UInt8) : Option (List UInt8 × List UInt8) :=
  let scheme := text.takeWhile isSchemeByte
  match text.dropWhile isSchemeByte with
  | 58 :: rest => if (scheme.head?.any isAlpha) = true then some (scheme, rest) else none
  | _ => none

/-- The authority behind two slashes, and what follows it. -/
def splitAuthority (text : List UInt8) : Option (List UInt8) × List UInt8 :=
  match text with
  | 47 :: 47 :: rest =>
    (some (rest.takeWhile fun c => c ≠ 47 && c ≠ 63), rest.dropWhile fun c => c ≠ 47 && c ≠ 63)
  | _ => (none, text)

/-- The query behind a question mark. -/
def splitQuery (text : List UInt8) : List UInt8 × Option (List UInt8) :=
  (text.takeWhile (· ≠ 63), (text.dropWhile (· ≠ 63)).tail?)

namespace Reference

/-- The components of a text without a fragment. -/
def parse (text : List UInt8) : Reference :=
  let (scheme, rest) := match splitScheme text with
    | some (scheme, rest) => (some scheme, rest)
    | none => (none, text)
  let (authority, rest) := splitAuthority rest
  let (path, query) := splitQuery rest
  ⟨scheme, authority, path, query⟩

/-- A query with its question mark. -/
def queryText : Option (List UInt8) → List UInt8
  | some query => 63 :: query
  | none => []

/-- The text of the components. -/
def text (r : Reference) : List UInt8 :=
  (match r.scheme with
    | some scheme => scheme ++ [58]
    | none => []) ++
  (match r.authority with
    | some authority => 47 :: 47 :: authority
    | none => []) ++ r.path ++ queryText r.query

end Reference

/-- The path of a reference is put in the place of the last segment of the base. -/
def merge (base : Reference) (path : List UInt8) : List UInt8 :=
  if base.authority.isSome ∧ base.path = [] then 47 :: path
  else base.path.rdropWhile (· ≠ 47) ++ path

/-- The transformation of references, where paths that do not come from the base alone go through
`clean`. -/
def transform (clean : List UInt8 → List UInt8) (base r : Reference) : Reference :=
  if r.scheme.isSome then ⟨r.scheme, r.authority, clean r.path, r.query⟩
  else if r.authority.isSome then ⟨base.scheme, r.authority, clean r.path, r.query⟩
  else if r.path = [] then
    ⟨base.scheme, base.authority, base.path, if r.query.isSome then r.query else base.query⟩
  else if r.path.head? = some 47 then ⟨base.scheme, base.authority, clean r.path, r.query⟩
  else ⟨base.scheme, base.authority, clean (merge base r.path), r.query⟩

/-- The target of a reference against a base. -/
def resolve (base r : Reference) : Reference := transform removeDotSegments base r

end Uri
