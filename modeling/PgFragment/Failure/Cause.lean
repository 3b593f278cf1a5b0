import PgFragment.Text.Numeral
import PgFragment.Value.Shown

namespace PgFragment

/-!
# Causes of failure

What can go wrong, one constructor per cause, and the wording of each.  Every operation of the
library that can fail fails with one cause; the host adds context to it (`Failure`).
-/

/-- What is wrong with the parameters of a mapping. -/
inductive ParamFault where
  | scaleWithoutPrecision
  | precisionNotSupported
  | scaleNotSupported
  | fractionalPrecision
  | numericPrecision
  | sizeNotSupported
  | sizeTooSmall
  | facetsNotSupported
  /-- A fault in the host's own words. -/
  | stated (message : String)
  deriving DecidableEq

/-- The wording of a parameter fault. -/
def ParamFault.message : ParamFault → String
  | .scaleWithoutPrecision => "scale requires a precision"
  | .precisionNotSupported => "precision is not supported"
  | .scaleNotSupported => "scale is not supported"
  | .fractionalPrecision => "precision must be between 0 and 6"
  | .numericPrecision => "precision must be between 1 and 1000"
  | .sizeNotSupported => "size is not supported"
  | .sizeTooSmall => "size must be at least 1"
  | .facetsNotSupported => "facets are not supported"
  | .stated message => message

/-- Why an operation failed. -/
inductive Cause where
  /-- The brackets around the facets of a store type do not match. -/
  | unbalancedFacets (storeType : String)
  /-- A store type has no name. -/
  | emptyStoreType
  /-- A value has no literal of a store type. -/
  | noLiteral (value : Value) (storeType : String)
  /-- A cast does not say how its target is stored. -/
  | castWithoutMapping (type : HostType)
  /-- A constant does not say how its value is stored. -/
  | constantWithoutMapping (value : Value)
  /-- A failure in the host's own words. -/
  | stated (message : String)
  /-- The parameters of a mapping do not suit its store type. -/
  | invalidMapping (storeType : String) (fault : ParamFault)
  /-- A database function was called outside of a query. -/
  | clientOnly (function : String)
  /-- An aggregate has a filter that cannot be folded into an argument. -/
  | filterWithoutArguments (aggregate : String)
  /-- A feature that the database lacks, in the host's own words. -/
  | unsupported (feature : String)
  /-- A facet is no 32-bit count. -/
  | badFacet (fault : Text.NumeralFault)
  /-- Text could not be written. -/
  | formatting
  /-- A failure outside of the library, by its text. -/
  | foreign (message : String)

namespace Cause

/-- The part of an unsupported feature's message that names the feature. -/
def foldedFilter (aggregate : String) : String :=
  "`" ++ aggregate ++ "` with a filter and no arguments on Redshift"

/-- The wording of a cause. -/
def message : Cause → String
  | .unbalancedFacets storeType => "unbalanced facets in store type `" ++ storeType ++ "`"
  | .emptyStoreType => "empty store type name"
  | .noLiteral value storeType =>
    "cannot render " ++ value.shown ++ " as a literal of store type `" ++ storeType ++ "`"
  | .castWithoutMapping type => "cannot cast to " ++ type.shown ++ " without a type mapping"
  | .constantWithoutMapping value => "constant " ++ value.shown ++ " has no type mapping"
  | .stated message => message
  | .invalidMapping storeType fault =>
    "invalid type mapping for store type '" ++ storeType ++ "': " ++ fault.message
  | .clientOnly function =>
    "the '" ++ function ++ "' method is not supported because the query has switched to " ++
      "client-evaluation; database functions can only be used inside translated queries"
  | .filterWithoutArguments aggregate => "unsupported feature: " ++ foldedFilter aggregate
  | .unsupported feature => "unsupported feature: " ++ feature
  | .badFacet fault => fault.message
  | .formatting => "an error occurred when formatting an argument"
  | .foreign message => message

/-- The kinds of causes that a host tells apart. -/
inductive Category where
  | general
  | invalidMapping
  | clientOnly
  | unsupported
  | foreign
  deriving DecidableEq

/-- The kind of a cause. -/
def category : Cause → Category
  | .unbalancedFacets _ | .emptyStoreType | .noLiteral .. | .castWithoutMapping _
  | .constantWithoutMapping _ | .stated _ => .general
  | .invalidMapping .. => .invalidMapping
  | .clientOnly _ => .clientOnly
  | .filterWithoutArguments _ | .unsupported _ => .unsupported
  | .badFacet _ | .formatting | .foreign _ => .foreign

end Cause

end PgFragment
