import PgFragment.Mapping.Params
import PgFragment.StoreType
import PgFragment.Value.Comparer

namespace PgFragment

/-!
# Type mappings

A mapping binds a host type to a store type.  Its kind decides how values are written, bound and
compared; arrays, ranges and multiranges are built over the mapping of their element.  Mappings are
derived from one another by new parameters of the same kind, which are checked again.
-/

/-- The kinds of mappings that need no element. -/
inductive ScalarKind where
  | boolean
  | integer
  | float
  | numeric
  | text
  /-- Text of a fixed width, padded by the database. -/
  | character
  /-- The name of a text search configuration. -/
  | regconfig
  | uuid
  | timestamp
  | timestampTz
  /-- The date part of a timestamp. -/
  | date
  | interval
  | bytea
  | json
  | jsonb
  /-- A user-defined enumeration. -/
  | enum (name : String)
  deriving DecidableEq

/-- The kinds of mappings over an element. -/
inductive Container where
  | array
  | range
  | multirange
  deriving DecidableEq

/-- How a host type is stored. -/
inductive Mapping where
  | scalar (kind : ScalarKind) (params : Params)
  | container (shape : Container) (element : Mapping) (params : Params)
  deriving DecidableEq

/-- The kind of a mapping, with the element of a container. -/
inductive Kind where
  | scalar (kind : ScalarKind)
  | container (shape : Container) (element : Mapping)
  deriving DecidableEq

/-- Fixed-width text always takes a size and has a fixed length. -/
def Params.normalized (p : Params) : Kind → Params
  | .scalar .character => { p with form := .size, fixedLength := true }
  | _ => p

theorem Params.normalized_normalized (p : Params) (kind : Kind) :
    (p.normalized kind).normalized kind = p.normalized kind := by
  match kind with
  | .scalar k => cases k <;> rfl
  | .container .. => rfl

theorem Params.type_normalized (p : Params) (kind : Kind) : (p.normalized kind).type = p.type := by
  unfold Params.normalized
  split <;> rfl

namespace Mapping

/-! ### Building -/

/-- The mapping of a kind, its parameters normalized and not checked. -/
def ofKind (kind : Kind) (params : Params) : Mapping :=
  match kind with
  | .scalar k => .scalar k (params.normalized kind)
  | .container shape element => .container shape element (params.normalized kind)

/-- The mapping of a kind, unless its parameters do not suit the store type. -/
def new (kind : Kind) (params : Params) : Except Cause Mapping :=
  match (params.normalized kind).fault? with
  | some fault => .error (.invalidMapping (params.normalized kind).fullStoreType fault)
  | none => .ok (ofKind kind params)

variable (m : Mapping)

/-! ### Views -/

/-- The kind. -/
def kind : Kind :=
  match m with
  | .scalar k _ => .scalar k
  | .container shape element _ => .container shape element

/-- The parameters. -/
def params : Params :=
  match m with
  | .scalar _ params => params
  | .container _ _ params => params

/-- The type of the values in the host. -/
def type : HostType := m.params.type

/-- The store type with its facets. -/
def storeType : String := m.params.fullStoreType

/-- The store type without facets. -/
def baseStoreType : String := m.params.storeType

/-- The mapping of the elements of a container. -/
def element? : Option Mapping :=
  match m with
  | .scalar _ _ => none
  | .container _ element _ => some element

/-- A mapping as messages show it. -/
def shown : String :=
  "TypeMapping \x7b store_type: " ++ Text.shown m.storeType ++ ", ty: " ++ m.type.shown ++ " \x7d"

theorem kind_ofKind (kind : Kind) (params : Params) : (ofKind kind params).kind = kind := by
  cases kind <;> rfl

theorem params_ofKind (kind : Kind) (params : Params) :
    (ofKind kind params).params = params.normalized kind := by
  cases kind <;> rfl

/-- A mapping is built from parameters exactly when they have no fault once they are normalized. -/
theorem new_eq_ok_iff {kind : Kind} {params : Params} {m : Mapping} :
    new kind params = .ok m ↔ (params.normalized kind).fault? = none ∧ m = ofKind kind params := by
  unfold new
  split
  case h_1 fault h => simp [h]
  case h_2 h => simp [h, eq_comm]

end Mapping

namespace Kind

/-- Documents. -/
def isJson : Kind → Bool
  | .scalar .json | .scalar .jsonb => true
  | _ => false

/-- Text of any or of a fixed width. -/
def isTextLike : Kind → Bool
  | .scalar .text | .scalar .character => true
  | _ => false

/-- A user-defined enumeration. -/
def isEnum : Kind → Bool
  | .scalar (.enum _) => true
  | _ => false

/-- An array. -/
def isArray : Kind → Bool
  | .container .array _ => true
  | _ => false

end Kind

namespace Mapping

variable (m : Mapping)

/-! ### Deriving -/

/-- The mapping of the same kind with other parameters. -/
def cloneWith (params : Params) : Except Cause Mapping := new m.kind params

/-- The mapping with another size. -/
def withSize (size : UInt32) : Except Cause Mapping :=
  m.cloneWith { m.params with size := some size }

/-- The mapping with another precision and scale. -/
def withPrecisionScale (precision : UInt32) (scale : Option UInt32) : Except Cause Mapping :=
  m.cloneWith { m.params with precision := some precision, scale := scale }

/-- The mapping with another host type. -/
def withType (type : HostType) : Mapping := ofKind m.kind { m.params with type := type }

theorem type_withType (m : Mapping) (type : HostType) : (m.withType type).type = type := by
  rw [withType, Mapping.type, params_ofKind, Params.type_normalized]

/-- Parameters with the facets of a store type name; none when the form takes no such facets. -/
def facetParams? (p : Params) : List UInt32 → Option Params
  | [] => some p
  | [facet] =>
    match p.form with
    | .none => none
    | .size => some { p with size := some facet }
    | .precision => some { p with precision := some facet }
    | .precisionAndScale => some { p with precision := some facet, scale := none }
  | [precision, scale] =>
    match p.form with
    | .precisionAndScale => some { p with precision := some precision, scale := some scale }
    | _ => none
  | _ => none

/-- The mapping with another store type, taking the facets that its name carries. -/
def withStoreType (name : String) : Except Cause Mapping := do
  let parsed ← StoreType.parse name
  match facetParams? { m.params with storeType := parsed.unfaceted } parsed.facets with
  | some params => m.cloneWith params
  | none => .error (.invalidMapping name .facetsNotSupported)

/-- The array over an element. -/
def arrayOf (element : Mapping) : Mapping :=
  ofKind (.container .array element)
    { type := .array element.type, storeType := element.storeType ++ "[]" }

/-! ### Values of a column -/

/-- A value as it is bound as a parameter: strings of fixed-width text lose their trailing
blanks. -/
def parameter (value : Value) : Value :=
  match m.kind, value with
  | .scalar .character, .string text => .string (Text.trimEndString text)
  | _, value => value

/-- The rule for comparing values of the column. -/
def comparer : Comparer :=
  if m.kind = .scalar .character ∧ m.type = .string then .character else .default

/-- The rule for looking up keys of the column, which agrees with `comparer`. -/
def keyComparer : Comparer := m.comparer

end Mapping

end PgFragment
