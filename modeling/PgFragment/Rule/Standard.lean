import PgFragment.Rule.Aggregate
import PgFragment.Rule.DatabaseFunction
import PgFragment.Rule.Document
import PgFragment.Rule.Member
import PgFragment.Rule.ToText

namespace PgFragment.Registry

/-!
# The standard registries

The rules that a host starts from.  Among the rules for members, the one for documents comes before
the one for strings: a string inside a document is taken as text before its length is.
-/

variable (catalog : Catalog) (options : Options)

/-- The rules for method calls. -/
def methods : Registry MethodCall := [.toText catalog .standard, .databaseFunctions catalog]

/-- The rules for member accesses. -/
def members : Registry MemberAccess := [
  .arrayLength catalog options.redshift, .dateTimeParts catalog, .document catalog,
  .stringLength catalog, .timeSpanParts catalog]

/-- The rules for aggregate calls. -/
def aggregates : Registry AggregateCall := [.aggregates catalog options]

end PgFragment.Registry
