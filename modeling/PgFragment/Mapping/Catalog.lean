import PgFragment.Mapping.Basic
import PgFragment.Options

namespace PgFragment

/-!
# The catalog of mappings

The store types that a server knows, found by host type, by store type name, or by both.  Beside
the built-in ones it holds the enumerations that the user registers.  Arrays are built over any
mapping; ranges exist for five element types, and on servers that have multiranges an array of
ranges is stored as one.
-/

/-! ### Built-in store types -/

namespace Mapping

/-- A built-in mapping whose store type takes the facets of `form`. -/
def builtin (kind : ScalarKind) (type : HostType) (storeType : String)
    (form : FacetForm := .none) : Mapping :=
  ofKind (.scalar kind) { type := type, storeType := storeType, form := form }

/-- The mapping of `boolean`. -/
def boolean : Mapping := builtin .boolean .bool "boolean"

/-- The mapping of `smallint`. -/
def smallint : Mapping := builtin .integer (.int .i16) "smallint"

/-- The mapping of `integer`. -/
def integer : Mapping := builtin .integer (.int .i32) "integer"

/-- The mapping of `bigint`. -/
def bigint : Mapping := builtin .integer (.int .i64) "bigint"

/-- The mapping of `real`. -/
def real : Mapping := builtin .float (.scalar .single) "real"

/-- The mapping of `double precision`. -/
def doublePrecision : Mapping := builtin .float .double "double precision"

/-- The mapping of `numeric`. -/
def numeric : Mapping := builtin .numeric (.scalar .decimal) "numeric" .precisionAndScale

/-- The mapping of `text`. -/
def text : Mapping := builtin .text .string "text"

/-- The mapping of `character varying`. -/
def varying : Mapping := builtin .text .string "character varying" .size

/-- The mapping of `character`. -/
def character : Mapping :=
  ofKind (.scalar .character) { type := .string, storeType := "character", unicode := false }

/-- The mapping of `regconfig`. -/
def regconfig : Mapping := builtin .regconfig (.int .u32) "regconfig"

/-- The mapping of `uuid`. -/
def uuid : Mapping := builtin .uuid (.scalar .uuid) "uuid"

/-- The mapping of `timestamp without time zone`. -/
def timestamp : Mapping :=
  builtin .timestamp (.scalar .dateTime) "timestamp without time zone" .precision

/-- The mapping of `timestamp with time zone`. -/
def timestampTz : Mapping :=
  builtin .timestampTz (.scalar .dateTimeOffset) "timestamp with time zone" .precision

/-- The mapping of `date`. -/
def date : Mapping := builtin .date (.scalar .dateTime) "date"

/-- The mapping of `interval`. -/
def interval : Mapping := builtin .interval (.scalar .timeSpan) "interval" .precision

/-- The mapping of `bytea`. -/
def bytea : Mapping := builtin .bytea (.scalar .bytes) "bytea"

/-- The mapping of `json`. -/
def json : Mapping := builtin .json (.scalar .json) "json"

/-- The mapping of `jsonb`. -/
def jsonb : Mapping := builtin .jsonb (.scalar .json) "jsonb"

/-- The mapping of unsigned 64-bit integers, which no integer store type holds. -/
def unsignedBigint : Mapping :=
  ofKind (.scalar .numeric)
    { type := .int .u64, storeType := "numeric", form := .precisionAndScale,
      precision := some 20, scale := some 0 }

/-- The range over an element. -/
def rangeOver (element : Mapping) (storeType : String) : Mapping :=
  ofKind (.container .range element) { type := .range element.type, storeType := storeType }

/-- The mapping of a user-defined enumeration. -/
def enumeration (name : String) : Mapping := builtin (.enum name) (.enum name) name

end Mapping

/-- The built-in mappings of scalars, each under the name of its store type. -/
def builtinScalars : List Mapping := [
  .boolean, .smallint, .integer, .bigint, .real, .doublePrecision, .numeric, .text, .varying,
  .character, .regconfig, .uuid, .timestamp, .timestampTz, .date, .interval, .bytea, .json, .jsonb]

/-- The built-in ranges.  There is no host type for dates alone, so that the range over `date` is
not found by its type. -/
def builtinRanges : List Mapping := [
  .rangeOver .integer "int4range", .rangeOver .bigint "int8range", .rangeOver .numeric "numrange",
  .rangeOver .timestamp "tsrange", .rangeOver .timestampTz "tstzrange",
  .rangeOver .date "daterange"]

/-- Other names of built-in store types. -/
def aliases : List (String × String) := [
  ("bool", "boolean"), ("int2", "smallint"), ("int", "integer"), ("int4", "integer"),
  ("int8", "bigint"), ("float4", "real"), ("float8", "double precision"),
  ("decimal", "numeric"), ("varchar", "character varying"), ("char", "character"),
  ("bpchar", "character"), ("timestamp", "timestamp without time zone"),
  ("timestamptz", "timestamp with time zone")]

/-- The built-in mapping of a store type without facets. -/
def builtinNamed? (name : String) : Option Mapping :=
  (builtinScalars ++ builtinRanges).find? (·.baseStoreType == (aliases.lookup name).getD name)

/-- The default mapping of a scalar type: narrow and unsigned integers are kept in the next store
type that holds all their values. -/
def ScalarType.defaultMapping : ScalarType → Mapping
  | .bool => .boolean
  | .char => Mapping.character.withType (.scalar .char)
  | .int .i8 => Mapping.smallint.withType (.int .i8)
  | .int .i16 => .smallint
  | .int .i32 => .integer
  | .int .i64 => .bigint
  | .int .u8 => Mapping.smallint.withType (.int .u8)
  | .int .u16 => Mapping.integer.withType (.int .u16)
  | .int .u32 => Mapping.bigint.withType (.int .u32)
  | .int .u64 => .unsignedBigint
  | .single => .real
  | .double => .doublePrecision
  | .decimal => .numeric
  | .string => .text
  | .uuid => .uuid
  | .dateTime => .timestamp
  | .dateTimeOffset => .timestampTz
  | .timeSpan => .interval
  | .bytes => .bytea
  | .json => .jsonb

/-- The range over a scalar type. -/
def ScalarType.range? : ScalarType → Option Mapping
  | .int .i32 => some (.rangeOver .integer "int4range")
  | .int .i64 => some (.rangeOver .bigint "int8range")
  | .decimal => some (.rangeOver .numeric "numrange")
  | .dateTime => some (.rangeOver .timestamp "tsrange")
  | .dateTimeOffset => some (.rangeOver .timestampTz "tstzrange")
  | _ => none

/-! ### The catalog -/

/-- The mappings of one server. -/
structure Catalog where
  /-- The server has multiranges. -/
  multiranges : Bool
  /-- The registered enumerations. -/
  enums : List String

namespace Catalog

/-- The catalog of a server, without enumerations. -/
def ofOptions (options : Options) : Catalog := ⟨options.supports ⟨14, 0⟩, []⟩

variable (catalog : Catalog)

/-- The catalog with one more enumeration. -/
def withEnum (name : String) : Catalog := { catalog with enums := catalog.enums ++ [name] }

/-- The multirange over a range, named after it; the array over it where the server has none or
the range's name does not tell its multirange's. -/
def multirangeOf (range : Mapping) : Mapping :=
  match Text.dropEnding? "range".toList range.baseStoreType.toList with
  | some stem =>
    if catalog.multiranges then
      Mapping.ofKind (.container .multirange range)
        { type := .array range.type, storeType := String.ofList stem ++ "multirange" }
    else .arrayOf range
  | none => .arrayOf range

/-- The mapping of a registered enumeration. -/
def enum? (name : String) : Option Mapping :=
  if catalog.enums.contains name then some (.enumeration name) else none

theorem enum?_eq_some_iff {catalog : Catalog} {name : String} {m : Mapping} :
    catalog.enum? name = some m ↔ name ∈ catalog.enums ∧ m = .enumeration name := by
  unfold enum?
  by_cases h : name ∈ catalog.enums
  · simp [h, eq_comm]
  · simp [h]

/-- The default mapping of a host type. -/
def findByType : HostType → Option Mapping
  | .scalar type => some type.defaultMapping
  | .enum name => catalog.enum? name
  | .array element =>
    (findByType element).map fun m =>
      if element.isRange && catalog.multiranges then catalog.multirangeOf m else .arrayOf m
  | .range (.scalar type) => type.range?
  | .range _ | .record _ | .null => none

/-- A mapping with facets, as its store type's own name would carry them. -/
def faceted? (base : Mapping) : List UInt32 → Option Mapping
  | [] => some base
  | facets =>
    (base.withStoreType (base.baseStoreType ++ "(" ++ StoreType.facetText facets ++ ")")).toOption

/-- The mapping that a store type name means. -/
def findByName (name : String) : Option Mapping := do
  let parsed ← (StoreType.parse name).toOption
  let base ← (builtinNamed? parsed.base).or (catalog.enum? parsed.base)
  let m ← faceted? base parsed.facets
  if parsed.isArray then some (.arrayOf m) else some m

/-- The mapping that a store type name means for values of a host type.  Documents hold values of
any type; other store types only those of their own. -/
def findFor (type : HostType) (name : String) : Option Mapping := do
  let m ← catalog.findByName name
  if m.type = type then some m
  else if m.kind.isJson then some (m.withType type)
  else none

end Catalog

end PgFragment
