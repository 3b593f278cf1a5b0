import PgFragment.Failure.Cause
import PgFragment.Text.Cut

namespace PgFragment

/-!
# Parameters of a mapping

The host type, the words of the store type and its facets.  Which facets a store type takes is its
`FacetForm`; `Params.fault?` says what is wrong with facets that do not suit it, the first fault in
a fixed order.
-/

open Text

/-- The facets that a store type takes. -/
inductive FacetForm where
  /-- No facets, as in `boolean`. -/
  | none
  /-- A size, as in `character(10)`. -/
  | size
  /-- The digits of fractional seconds, as in `timestamp(3)`. -/
  | precision
  /-- The digits in all and after the point, as in `numeric(10,2)`. -/
  | precisionAndScale
  deriving DecidableEq

/-- What a mapping is built from. -/
structure Params where
  /-- The type of the values in the host. -/
  type : HostType
  /-- The store type without facets. -/
  storeType : String
  form : FacetForm := .none
  size : Option UInt32 := none
  precision : Option UInt32 := none
  scale : Option UInt32 := none
  /-- Values are padded to `size`. -/
  fixedLength : Bool := false
  unicode : Bool := true
  deriving DecidableEq

namespace Params

variable (p : Params)

/-! ### The full store type -/

/-- A facet in decimal. -/
def facetDigits (facet : UInt32) : String := decimalString facet.toNat

/-- The facets as they stand between the brackets. -/
def facets? : Option String :=
  match p.form, p.size, p.precision, p.scale with
  | .none, _, _, _ => none
  | .size, size, _, _ => size.map facetDigits
  | .precision, _, precision, _ => precision.map facetDigits
  | .precisionAndScale, _, none, _ => none
  | .precisionAndScale, _, some precision, none => some (facetDigits precision)
  | .precisionAndScale, _, some precision, some scale =>
    some (facetDigits precision ++ "," ++ facetDigits scale)

/-- The place of the facets in a store type: in front of a time zone qualifier, else at the end. -/
def splitQualifier (s : List Char) : List Char × List Char :=
  match breakAt " with time zone".toList s with
  | some halves => halves
  | none => (breakAt " without time zone".toList s).getD (s, [])

/-- Puts facets into a store type, in front of a qualifier and of an array suffix. -/
def withFacets (storeType facets : String) : String :=
  let (element, suffix) := match dropEnding? ['[', ']'] storeType.toList with
    | some element => (element, "[]")
    | none => (storeType.toList, "")
  let (before, qualifier) := splitQualifier element
  String.ofList before ++ "(" ++ facets ++ ")" ++ String.ofList qualifier ++ suffix

/-- The store type with its facets. -/
def fullStoreType : String :=
  match p.facets? with
  | none => p.storeType
  | some facets => withFacets p.storeType facets

/-! ### Validity -/

/-- What is wrong with the precision and the scale. -/
def precisionFault? : Option ParamFault :=
  match p.form, p.precision with
  | .none, some _ | .size, some _ => some .precisionNotSupported
  | .precision, precision =>
    if p.scale.isSome then some .scaleNotSupported
    else if precision.any (6 < ·) then some .fractionalPrecision
    else none
  | .precisionAndScale, some precision =>
    if precision = 0 ∨ 1000 < precision then some .numericPrecision else none
  | _, none => none

/-- What is wrong with the size. -/
def sizeFault? : Option ParamFault :=
  match p.size with
  | none => none
  | some size =>
    if p.form ≠ .size then some .sizeNotSupported
    else if size = 0 then some .sizeTooSmall
    else none

/-- The first fault of the parameters. -/
def fault? : Option ParamFault :=
  if p.scale.isSome && p.precision.isNone then some .scaleWithoutPrecision
  else p.precisionFault?.or p.sizeFault?

end Params

end PgFragment
