import PgFragment.Mapping.Catalog

namespace PgFragment

/-!
# Default mappings

Which host types have a default mapping, and what it is.  Layers of arrays may be put around any
type that has one, so that it all depends on what is left when they are taken off.

* `HostType.IsStored` — the types that are stored without being arrays.
* `Mapping.IsLayer` — what a layer of arrays makes of the mapping below it.
* `Catalog.isSome_findByType_iff` — a type has a default mapping exactly when what is left is stored.
* `Catalog.findByType_registering` — hence for every server and all registered enumerations, with
  the host type and the layers of the mapping.
-/

open Text

/-! ### Types under layers of arrays -/

namespace ScalarType

theorem mem_all (type : ScalarType) : type ∈ all := by
  cases type with
  | int width => cases width <;> decide
  | _ => decide

example : all.length = 20 ∧ all.Nodup := by decide

end ScalarType

namespace HostType

/-- What is left of a type when every layer of arrays is taken off. -/
def innermost : HostType → HostType
  | .array element => element.innermost
  | type => type

/-- The types that ranges exist over. -/
def rangeElements : List HostType :=
  [.int .i32, .int .i64, .scalar .decimal, .scalar .dateTime, .scalar .dateTimeOffset]

/-- A type that is stored without being an array: a scalar, a registered enumeration, or a range over
a type that ranges exist over. -/
def IsStored (enums : List String) : HostType → Prop
  | .scalar type => type ∈ ScalarType.all
  | .enum name => name ∈ enums
  | .range element => element ∈ rangeElements
  | .array _ | .record _ | .null => False

end HostType

/-! ### Mappings under layers of arrays -/

/-- What one layer of arrays makes of the mapping below it: a multirange, named after the range,
directly over a range on servers that have multiranges, and else an array, named after its
element. -/
def Mapping.IsLayer (multiranges : Bool) (element : HostType) (below m : Mapping) : Prop :=
  if element.isRange = true ∧ multiranges = true then
    m.kind = .container .multirange below ∧
      ∃ stem, below.storeType = stem ++ "range" ∧ m.storeType = stem ++ "multirange"
  else m.kind = .container .array below ∧ m.storeType = below.storeType ++ "[]"

namespace ScalarType

variable {type : ScalarType} {m : Mapping}

theorem type_defaultMapping (type : ScalarType) : type.defaultMapping.type = .scalar type := by
  cases type with
  | int width => cases width <;> rfl
  | _ => rfl

theorem isSome_range?_iff : type.range?.isSome = true ↔ .scalar type ∈ HostType.rangeElements := by
  cases type with
  | int width => cases width <;> decide
  | _ => decide

theorem type_of_range? (h : type.range? = some m) : m.type = .range (.scalar type) := by
  unfold range? at h
  split at h <;> cases h <;> rfl

theorem mem_builtinRanges_of_range? (h : type.range? = some m) : m ∈ builtinRanges := by
  unfold range? at h
  split at h <;> cases h <;> decide

end ScalarType

/-- Ranges are named for what they are. -/
theorem storeType_of_mem_builtinRanges {m : Mapping} (h : m ∈ builtinRanges) :
    m.storeType = m.baseStoreType ∧ ∃ stem, m.baseStoreType = stem ++ "range" := by
  have hnames : ∀ m ∈ builtinRanges, m.storeType = m.baseStoreType ∧
      m.baseStoreType ∈ ["int4", "int8", "num", "ts", "tstz", "date"].map (· ++ "range") := by
    decide
  obtain ⟨hfull, hname⟩ := hnames m h
  obtain ⟨stem, -, hstem⟩ := List.mem_map.1 hname
  exact ⟨hfull, stem, hstem.symm⟩

namespace Catalog

variable {catalog : Catalog} {type element : HostType} {m below : Mapping}

/-! ### Looking up by type -/

theorem isSome_enum?_iff {name : String} :
    (catalog.enum? name).isSome = true ↔ name ∈ catalog.enums := by
  rw [Option.isSome_iff_exists]
  simp [enum?_eq_some_iff]

theorem type_of_enum? {name : String} (h : catalog.enum? name = some m) : m.type = .enum name := by
  rw [(enum?_eq_some_iff.1 h).2]
  rfl

/-- **A type has a default mapping exactly when what is left under its layers of arrays is
stored.** -/
theorem isSome_findByType_iff :
    ∀ type, (catalog.findByType type).isSome = true ↔ type.innermost.IsStored catalog.enums
  | .scalar type => iff_of_true rfl type.mem_all
  | .enum _ => isSome_enum?_iff
  | .array element => by
    rw [findByType, Option.isSome_map]
    exact isSome_findByType_iff element
  | .range (.scalar _) => ScalarType.isSome_range?_iff
  | .range (.enum _) | .range (.array _) | .range (.range _) | .range (.record _) | .range .null => by
    simp [findByType, HostType.innermost, HostType.IsStored, HostType.rangeElements]
  | .record _ | .null => iff_of_false Bool.false_ne_true id

theorem type_multirangeOf (catalog : Catalog) (m : Mapping) :
    (catalog.multirangeOf m).type = .array m.type := by
  unfold multirangeOf
  split
  · split <;> rfl
  · rfl

/-- **A default mapping is of the type that it was looked up for.** -/
theorem type_of_findByType :
    ∀ {type : HostType} {m : Mapping}, catalog.findByType type = some m → m.type = type
  | .scalar type, m, h => by
    obtain rfl := Option.some.inj h
    exact type.type_defaultMapping
  | .enum _, m, h => type_of_enum? h
  | .array element, m, h => by
    rw [findByType, Option.map_eq_some_iff] at h
    obtain ⟨below, hbelow, rfl⟩ := h
    rw [← type_of_findByType hbelow]
    split
    · exact type_multirangeOf catalog below
    · rfl
  | .range (.scalar _), m, h => ScalarType.type_of_range? h
  | .range (.enum _), m, h | .range (.array _), m, h | .range (.range _), m, h
  | .range (.record _), m, h | .range .null, m, h | .record _, m, h | .null, m, h => by
    simp [findByType] at h

/-- The default mapping of a range is named for what it is. -/
theorem storeType_of_findByType_range (h : catalog.findByType type = some m)
    (hrange : type.isRange = true) :
    m.storeType = m.baseStoreType ∧ ∃ stem, m.baseStoreType = stem ++ "range" := by
  cases type with
  | range element =>
    cases element with
    | scalar type =>
      exact storeType_of_mem_builtinRanges (ScalarType.mem_builtinRanges_of_range? h)
    | _ => simp [findByType] at h
  | _ => cases hrange

/-- A multirange is named after its range. -/
theorem multirangeOf_of_append (hm : catalog.multiranges = true) {stem : String}
    (hstem : m.baseStoreType = stem ++ "range") :
    catalog.multirangeOf m = .ofKind (.container .multirange m)
      { type := .array m.type, storeType := stem ++ "multirange" } := by
  have hdrop : dropEnding? "range".toList m.baseStoreType.toList = some stem.toList := by
    rw [hstem, String.toList_append, dropEnding?_append]
  unfold multirangeOf
  rw [hdrop]
  dsimp only
  rw [if_pos hm, String.ofList_toList]

theorem isLayer_multirangeOf (hm : catalog.multiranges = true) (hrange : element.isRange = true)
    (h : catalog.findByType element = some below) :
    Mapping.IsLayer true element below (catalog.multirangeOf below) := by
  obtain ⟨hfull, stem, hstem⟩ := storeType_of_findByType_range h hrange
  rw [Mapping.IsLayer, if_pos ⟨hrange, rfl⟩, multirangeOf_of_append hm hstem]
  exact ⟨Mapping.kind_ofKind _ _, stem, hfull.trans hstem, rfl⟩

/-- **A layer of arrays is put around the default mapping of the type below it.** -/
theorem exists_isLayer_of_findByType (h : catalog.findByType (.array element) = some m) :
    ∃ below, catalog.findByType element = some below ∧
      Mapping.IsLayer catalog.multiranges element below m := by
  rw [findByType, Option.map_eq_some_iff] at h
  obtain ⟨below, hbelow, rfl⟩ := h
  refine ⟨below, hbelow, ?_⟩
  by_cases hlayer : element.isRange = true ∧ catalog.multiranges = true
  · rw [if_pos (by simpa using hlayer), hlayer.2]
    exact isLayer_multirangeOf hlayer.2 hlayer.1 hbelow
  · rw [if_neg (by simpa using hlayer), Mapping.IsLayer, if_neg hlayer]
    exact ⟨rfl, rfl⟩

/-! ### Catalogs with registered enumerations -/

/-- The catalog with more enumerations, registered one after another. -/
def registering (catalog : Catalog) (names : List String) : Catalog := names.foldl withEnum catalog

theorem multiranges_registering (catalog : Catalog) (names : List String) :
    (catalog.registering names).multiranges = catalog.multiranges := by
  induction names generalizing catalog with
  | nil => rfl
  | cons name names ih => exact ih (catalog.withEnum name)

theorem enums_registering (catalog : Catalog) (names : List String) :
    (catalog.registering names).enums = catalog.enums ++ names := by
  induction names generalizing catalog with
  | nil => exact (List.append_nil _).symm
  | cons name names ih =>
    have hnext : (catalog.withEnum name).enums = catalog.enums ++ [name] := rfl
    rw [registering, List.foldl_cons, ← registering, ih, hnext, List.append_assoc,
      List.singleton_append]

/-- **Looking up by type is sound and complete.**  Whatever the server and the registered
enumerations, a type has a default mapping exactly when what is left under its layers of arrays is
stored; the mapping is then of that type, and each layer of arrays lies on the default mapping of
what is below it. -/
theorem findByType_registering (options : Options) (names : List String) (type : HostType) :
    ((((ofOptions options).registering names).findByType type).isSome = true ↔
        type.innermost.IsStored names) ∧
      ∀ m, ((ofOptions options).registering names).findByType type = some m →
        m.type = type ∧ ∀ element, type = .array element →
          ∃ below, ((ofOptions options).registering names).findByType element = some below ∧
            Mapping.IsLayer (options.supports ⟨14, 0⟩) element below m := by
  have hmultiranges :
      ((ofOptions options).registering names).multiranges = options.supports ⟨14, 0⟩ :=
    multiranges_registering (ofOptions options) names
  have henums : ((ofOptions options).registering names).enums = names := by
    rw [enums_registering]
    rfl
  refine ⟨by rw [isSome_findByType_iff, henums], fun m h => ⟨type_of_findByType h, ?_⟩⟩
  rintro element rfl
  rw [← hmultiranges]
  exact exists_isLayer_of_findByType h

/-- Lists of lists of ranges are stored as arrays of multiranges by servers that have them. -/
theorem findByType_registering_rangeLists :
    ∃ m below, ((ofOptions {}).registering ["mood"]).findByType
        (.array (.array (.range (.int .i32)))) = some m ∧
      m.type = .array (.array (.range (.int .i32))) ∧
      ((ofOptions {}).registering ["mood"]).findByType (.array (.range (.int .i32))) = some below ∧
      below.storeType = "int4multirange" ∧ m.kind = .container .array below ∧
      m.storeType = "int4multirange[]" := by
  obtain ⟨-, hfound⟩ := findByType_registering {} ["mood"] (.array (.array (.range (.int .i32))))
  obtain ⟨htype, hlayers⟩ := hfound _ rfl
  obtain ⟨below, hbelow, hlayer⟩ := hlayers _ rfl
  obtain ⟨hkind, hname⟩ : _ ∧ _ := hlayer
  obtain rfl := Option.some.inj hbelow
  exact ⟨_, _, rfl, htype, rfl, rfl, hkind, hname⟩

end Catalog

end PgFragment
