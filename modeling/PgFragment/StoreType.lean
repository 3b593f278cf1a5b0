import PgFragment.Failure.Cause
import PgFragment.Text.Blank

namespace PgFragment

/-!
# Store type names

A store type is named by words, facets in brackets and an array suffix, as in
`timestamp(3) with time zone` or `numeric(10,2)[]`.  Reading a name puts the words before and after
the facets together, in lower case with single spaces.
-/

open Text

/-- A store type name taken apart. -/
structure StoreType where
  /-- The words of the name. -/
  base : String
  facets : List UInt32
  isArray : Bool
  deriving DecidableEq

namespace StoreType

/-- Takes one array suffix off a trimmed name. -/
def splitArray (s : List Char) : List Char × Bool :=
  if ['[', ']'].isSuffixOf s then (trimEnd (s.take (s.length - 2)), true) else (s, false)

/-- The words before and after the facets, and the text of the facets, if there is a bracket; none
when the brackets do not match. -/
def splitFacets (s : List Char) : Option (List Char × Option (List Char) × List Char) :=
  match s.span (· != '(') with
  | (before, []) => some (before, none, [])
  | (before, _ :: rest) =>
    match rest.span (· != ')') with
    | (_, []) => none
    | (inside, _ :: qualifier) =>
      if before.contains ')' || qualifier.contains '(' || qualifier.contains ')' then none
      else some (before, some inside, qualifier)

/-- Reads facets between commas. -/
def readFacets (s : List Char) : Except NumeralFault (List UInt32) :=
  (s.splitOn ',').mapM fun facet => readCount (trim facet)

/-- The words of a text in lower case with single spaces between them. -/
def normalWords (s : List Char) : List Char :=
  ([' '].intercalate (words s)).map Char.toLower

/-- Reads a store type name. -/
def parse (name : String) : Except Cause StoreType := do
  let (rest, isArray) := splitArray (trim name.toList)
  match splitFacets rest with
  | none => .error (.unbalancedFacets name)
  | some (before, inside, qualifier) =>
    let facets ← match inside with
      | none => .ok []
      | some inside => (readFacets inside).mapError .badFacet
    let base := normalWords (before ++ ' ' :: qualifier)
    if base.isEmpty then .error .emptyStoreType
    else .ok ⟨String.ofList base, facets, isArray⟩

variable (t : StoreType)

/-- Facets in decimal between commas. -/
def facetText (facets : List UInt32) : String :=
  String.intercalate "," (facets.map fun facet => decimalString facet.toNat)

/-- The words and the array suffix. -/
def unfaceted : String := if t.isArray then t.base ++ "[]" else t.base

/-- The name with its facets after all words. -/
def text : String :=
  t.base ++ (if t.facets.isEmpty then "" else "(" ++ facetText t.facets ++ ")") ++
    if t.isArray then "[]" else ""

end StoreType

end PgFragment
