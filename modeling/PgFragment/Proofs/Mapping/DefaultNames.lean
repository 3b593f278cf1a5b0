import PgFragment.Proofs.Mapping.CanonicalNames
import PgFragment.Proofs.Mapping.DefaultMappings

namespace PgFragment

/-!
# Default mappings under their own names

What is found by type can be found again by its store type, as far as names go.  A name carries one
suffix of an array, so that an array of arrays has none to be found by; nor has a multirange, which
is built over its range and is no entry of the catalog.

* `Kind.outer` — what two mappings of one kind share, whatever their elements are.
* `Catalog.exists_entry_of_findByType` — a default mapping is stored as an entry of the catalog is.
* `Catalog.findByName_suffixes` — nothing is found by a name with two suffixes.
* `Catalog.findByName_storeType_of_findByType` — when a default mapping is found by its store type.
-/

/-! ### Kinds and depths -/

/-- The kind without the element of a container. -/
def Kind.outer : Kind → ScalarKind ⊕ Container
  | .scalar kind => .inl kind
  | .container shape _ => .inr shape

/-- A multirange, or an array of any depth over one. -/
def Mapping.holdsMultirange : Mapping → Bool
  | .scalar _ _ => false
  | .container .array element _ => element.holdsMultirange
  | .container .range _ _ => false
  | .container .multirange _ _ => true

/-- An array of arrays. -/
def HostType.isNested : HostType → Bool
  | .array element => element.isArray
  | _ => false

variable {type element : HostType} {m below : Mapping} {options : Options}

/-- The mapping is stored as another one: under the same store type, in the same kind of store. -/
def Mapping.StoredAs (m e : Mapping) : Prop :=
  e.storeType = m.storeType ∧ e.kind.outer = m.kind.outer

namespace Mapping

theorem IsLayer.holdsMultirange {multiranges : Bool} (h : IsLayer multiranges element below m)
    (hm : m.holdsMultirange = false) :
    below.holdsMultirange = false ∧ m.kind = .container .array below ∧
      m.storeType = below.storeType ++ "[]" := by
  unfold IsLayer at h
  cases m with
  | scalar kind params => split at h <;> cases h.1
  | container shape e params =>
    split at h
    · obtain ⟨hkind, -⟩ := h
      obtain ⟨rfl, rfl⟩ := Kind.container.inj hkind
      cases hm
    · obtain ⟨hkind, hname⟩ := h
      obtain ⟨rfl, rfl⟩ := Kind.container.inj hkind
      exact ⟨hm, hkind, hname⟩

end Mapping

namespace Catalog

/-! ### Entries that default mappings are stored as -/

/-- The default mapping of a scalar differs from a built-in one by the host type and facets at
most. -/
theorem exists_base_of_mem_all :
    ∀ type ∈ ScalarType.all, ∃ base ∈ builtinScalars,
      (type.defaultMapping.withType base.type).kind = base.kind ∧
        (type.defaultMapping.withType base.type).params.bare = base.params ∧
        (type.defaultMapping.withType base.type).Settled ∧
        (type.defaultMapping.withType base.type).storeType = type.defaultMapping.storeType ∧
        (type.defaultMapping.withType base.type).kind = type.defaultMapping.kind := by
  decide +kernel

/-- **What is not an array is stored as an entry of the catalog is**, with facets or without. -/
theorem exists_entry_of_findByType (h : (ofOptions options).findByType type = some m)
    (harray : type.isArray = false) :
    ∃ base ∈ builtinScalars ++ builtinRanges, ∃ e, base.Refaceted e ∧ m.StoredAs e := by
  cases type with
  | scalar type =>
    obtain rfl := Option.some.inj h
    obtain ⟨base, hbase, hkind, hparams, hsettled, hname, hsame⟩ :=
      exists_base_of_mem_all type type.mem_all
    exact ⟨base, List.mem_append_left _ hbase, _, ⟨hkind, hparams, hsettled⟩, hname,
      congrArg Kind.outer hsame⟩
  | range element =>
    cases element with
    | scalar type =>
      have hmem := List.mem_append_right builtinScalars (ScalarType.mem_builtinRanges_of_range? h)
      have hentry := (entry_of_mem_builtin (ofOptions options) hmem).1
      exact ⟨m, hmem, m, ⟨rfl, hentry.bare, hentry.settled⟩, rfl, rfl⟩
    | _ => simp [findByType] at h
  | enum name => cases h
  | array element => cases harray
  | record fields => simp [findByType] at h
  | null => simp [findByType] at h

/-! ### Names with two suffixes -/

theorem not_mem_of_builtinNamed? {name : String} (h : builtinNamed? name = some m) :
    ']' ∉ name.toList := by
  have hbuiltin : ∀ m ∈ builtinScalars ++ builtinRanges, ']' ∉ m.baseStoreType.toList := by decide
  have halias : ∀ p ∈ aliases, ']' ∉ p.1.toList := by decide
  have hname := List.find?_some h
  cases hlookup : aliases.lookup name with
  | some target =>
    obtain ⟨before, after, hsplit, -⟩ := List.lookup_eq_some_iff.1 hlookup
    exact halias (name, target) (by simp [hsplit])
  | none =>
    rw [hlookup, Option.getD_none, beq_iff_eq] at hname
    exact hname ▸ hbuiltin m (List.mem_of_find?_eq_some h)

/-- **A name carries one suffix.**  Without enumerations nothing is found by a name with two. -/
theorem findByName_suffixes (name : String) :
    (ofOptions options).findByName (name ++ "[]" ++ "[]") = none := by
  cases hfound : (ofOptions options).findByName (name ++ "[]" ++ "[]") with
  | none => rfl
  | some m =>
    obtain ⟨t, ht, h⟩ := Option.bind_eq_some_iff.1 hfound
    obtain ⟨base, hbase, -⟩ := Option.bind_eq_some_iff.1 h
    have hmem := StoreType.mem_base_of_parse_suffixes (Success.toOption_eq_some_iff.1 ht)
    have hnone : (ofOptions options).enum? t.base = none := rfl
    rw [hnone, Option.or_none] at hbase
    exact absurd hmem (not_mem_of_builtinNamed? hbase)

/-! ### Default mappings by name -/

/-- What is not an array is found by its store type, and so is the array over it. -/
theorem exists_storedAs_of_findByType (h : (ofOptions options).findByType type = some m)
    (harray : type.isArray = false) :
    ∃ e, (ofOptions options).findByName m.storeType = some e ∧
      (ofOptions options).findByName (m.storeType ++ "[]") = some (.arrayOf e) ∧ m.StoredAs e := by
  obtain ⟨base, hbase, e, he, hstored⟩ := exists_entry_of_findByType h harray
  obtain ⟨hentry, hread⟩ := entry_of_mem_builtin (ofOptions options) hbase
  -- A built-in name has no suffix of its own, so that one after it is that of an array.
  have hsuffix : false = false → ¬['[', ']'] <:+ base.baseStoreType.toList :=
    (hread [] false).unsuffixed rfl
  have halone := hentry.findByName_storeType_append he hsuffix
  have harray := hentry.findByName_storeType_append he
    (nofun : true = false → ¬['[', ']'] <:+ base.baseStoreType.toList)
  rw [hstored.1] at halone harray
  exact ⟨e, by simpa using halone, harray, hstored⟩

/-- **Default mappings are found by their store types**, in the same kind of store, unless they are
arrays of arrays, which no name tells.  Multiranges are left out. -/
theorem findByName_storeType_of_findByType (options : Options) (type : HostType) (m : Mapping)
    (h : (ofOptions options).findByType type = some m) (hm : m.holdsMultirange = false) :
    if type.isNested = true then (ofOptions options).findByName m.storeType = none
    else ∃ e, (ofOptions options).findByName m.storeType = some e ∧
      e.storeType = m.storeType ∧ e.kind.outer = m.kind.outer := by
  cases type with
  | array element =>
    obtain ⟨below, hbelow, hlayer⟩ := exists_isLayer_of_findByType h
    obtain ⟨hbelowHolds, hkind, hname⟩ := hlayer.holdsMultirange hm
    cases harray : element.isArray with
    | false =>
      obtain ⟨e, -, hfound, hstored, -⟩ := exists_storedAs_of_findByType hbelow harray
      rw [HostType.isNested, harray, if_neg Bool.false_ne_true, hname]
      refine ⟨.arrayOf e, hfound, ?_, by rw [hkind]; rfl⟩
      rw [← hstored]
      rfl
    | true =>
      obtain ⟨inner, rfl⟩ : ∃ inner, element = .array inner := by
        cases element <;> cases harray
        exact ⟨_, rfl⟩
      -- The name of the array below ends in a suffix of its own.
      obtain ⟨lowest, -, hlower⟩ := exists_isLayer_of_findByType hbelow
      obtain ⟨-, -, hlowerName⟩ := hlower.holdsMultirange hbelowHolds
      rw [HostType.isNested, harray, if_pos rfl, hname, hlowerName]
      exact findByName_suffixes lowest.storeType
  | scalar _ | enum _ | range _ | record _ | null =>
    obtain ⟨e, hfound, -, hstored⟩ := exists_storedAs_of_findByType h rfl
    exact ⟨e, hfound, hstored⟩

/-- Lists of unsigned integers are stored as arrays of numbers of twenty digits, and found by the
name with those facets. -/
theorem findByName_storeType_of_findByType_unsigned :
    ∃ m e, (ofOptions {}).findByType (.array (.int .u64)) = some m ∧
      m.storeType = "numeric(20,0)[]" ∧
      (ofOptions {}).findByName "numeric(20,0)[]" = some e ∧
      e.storeType = "numeric(20,0)[]" ∧ e.kind.outer = m.kind.outer := by
  have hname : (Mapping.arrayOf .unsignedBigint).storeType = "numeric(20,0)[]" := by decide +kernel
  obtain ⟨e, hfound, hsame⟩ := findByName_storeType_of_findByType {} (.array (.int .u64)) _ rfl rfl
  refine ⟨.arrayOf .unsignedBigint, e, rfl, hname, ?_⟩
  rw [← hname]
  exact ⟨hfound, hsame⟩

/-- Two default mappings that are not found by their store types: an array of arrays and a
multirange. -/
theorem findByName_default_eq_none :
    (∃ m, (ofOptions {}).findByType (.array (.array (.int .i32))) = some m ∧
      m.storeType = "integer[][]" ∧ (ofOptions {}).findByName "integer[][]" = none) ∧
    ∃ m, (ofOptions {}).findByType (.array (.range (.int .i32))) = some m ∧
      m.storeType = "int4multirange" ∧ (ofOptions {}).findByName "int4multirange" = none :=
  ⟨⟨_, rfl, by decide +kernel, by decide +kernel⟩, ⟨_, rfl, by decide +kernel, by decide +kernel⟩⟩

end Catalog

end PgFragment
