import PgFragment.Text.Blank
import PgFragment.Text.Cut
import PgFragment.Text.Identifier
import PgFragment.Binary.Notation
import PgFragment.Calendar.DateTime
import PgFragment.Calendar.Duration
import PgFragment.Uuid
import PgFragment.HostType
import PgFragment.Value.Shown
import PgFragment.Value.Comparer
import PgFragment.Failure.Chain
import PgFragment.StoreType
import PgFragment.Options
import PgFragment.Mapping.Literal
import PgFragment.Mapping.Catalog
import PgFragment.Expr.Render
import PgFragment.Expr.Same
import PgFragment.Expr.Shown
import PgFragment.Expr.Inferred
import PgFragment.Call.Method
import PgFragment.Call.Member
import PgFragment.Call.Aggregate
import PgFragment.Rule.Standard
import PgFragment.Rule.Journal
import PgFragment.Options.Document
import PgFragment.Proofs.Expr.FilterFolding
import PgFragment.Proofs.Expr.PathReading
import PgFragment.Proofs.Expr.UniqueReading
import PgFragment.Proofs.Mapping.FaithfulLiteral
import PgFragment.Proofs.Rule.LoweredCalls
import PgFragment.Proofs.Rule.FoldedRows
import PgFragment.Proofs.Rule.LoweredMembers
import PgFragment.Proofs.Mapping.Validity
import PgFragment.Proofs.Value.Comparison
import PgFragment.Proofs.Rule.JoinedRows
import PgFragment.Proofs.Mapping.CanonicalNames
import PgFragment.Proofs.Mapping.DefaultMappings
import PgFragment.Proofs.Mapping.DefaultNames
import PgFragment.Proofs.Rule.FirstRefusal
import PgFragment.Proofs.Rule.DocumentPaths
import PgFragment.Proofs.Calendar.ClockReading
import PgFragment.Proofs.Calendar.IntervalReading
import PgFragment.Proofs.Calendar.InstantReading
import PgFragment.Proofs.Rule.RangeAggregates
import PgFragment.Proofs.Expr.ErasedMappings
import PgFragment.Proofs.Expr.InferredText
import PgFragment.Proofs.Rule.CarriedSource
import PgFragment.Proofs.Rule.DistinctJoins
import PgFragment.Proofs.Rule.TruthText
import PgFragment.Proofs.Expr.CompleteTrees
import PgFragment.Proofs.Expr.DefaultConstants
import PgFragment.Proofs.Expr.ColumnReading
import PgFragment.Proofs.StoreTypeCase
import PgFragment.Proofs.Mapping.TakenFacets
import PgFragment.Proofs.Rule.AggregateTypes
import PgFragment.Proofs.Mapping.ComparedParameters
import PgFragment.Proofs.Failure.ContextChain
import PgFragment.Proofs.Mapping.EnumNames
