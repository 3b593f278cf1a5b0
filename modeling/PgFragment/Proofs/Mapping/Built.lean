import PgFragment.Mapping.Catalog
import PgFragment.Proofs.StoreTypeName

namespace PgFragment

/-!
# The mappings of a catalog

The mappings that a catalog gives out by type, by name or by both, and what `arrayOf` and
`multirangeOf` build from them at any depth.

* `Catalog.Carries` — what has to be shown of a property for every mapping that can be built to
  have it.
* `Mapping.isWellNamed` — one such property: the names that literals begin with begin with a letter.
* `Catalog.Built.isWellNamed` — the mappings have it, provided that the names of the enumerations
  are plain.
-/

open Text

/-- The mappings that come from a catalog, by looking up and by building on. -/
inductive Catalog.Built (catalog : Catalog) : Mapping → Prop
  | byType {type : HostType} {m : Mapping} (h : catalog.findByType type = some m) : Built catalog m
  | byName {name : String} {m : Mapping} (h : catalog.findByName name = some m) : Built catalog m
  | byBoth {type : HostType} {name : String} {m : Mapping}
      (h : catalog.findFor type name = some m) : Built catalog m
  | arrayOf {m : Mapping} (h : Built catalog m) : Built catalog (.arrayOf m)
  | multirangeOf {m : Mapping} (h : Built catalog m) : Built catalog (catalog.multirangeOf m)

/-! ### Facets -/

/-- Facets are all that a store type's name adds to the parameters. -/
theorem Mapping.facetParams?_eq_some {p q : Params} {facets : List UInt32}
    (h : facetParams? p facets = some q) : q.storeType = p.storeType ∧ q.form = p.form := by
  unfold facetParams? at h
  split at h
  · cases h
    exact ⟨rfl, rfl⟩
  · split at h <;> cases h <;> exact ⟨rfl, rfl⟩
  · split at h
    · cases h
      exact ⟨rfl, rfl⟩
    · cases h
  · cases h

/-- Facets are read off a name made for the purpose, and the mapping is of the same kind, under the
words of that name. -/
theorem Catalog.faceted?_eq_some {base m : Mapping} {facets : List UInt32}
    (h : faceted? base facets = some m) :
    m = base ∨ ∃ t params,
      StoreType.parse (base.baseStoreType ++ "(" ++ StoreType.facetText facets ++ ")") = .ok t ∧
        params.storeType = t.unfaceted ∧ params.form = base.params.form ∧
        m = .ofKind base.kind params := by
  unfold faceted? at h
  split at h
  · cases h
    exact .inl rfl
  · refine .inr ?_
    cases hm : base.withStoreType
        (base.baseStoreType ++ "(" ++ StoreType.facetText _ ++ ")") with
    | error cause =>
      rw [hm] at h
      cases h
    | ok m' =>
      rw [hm] at h
      cases h
      obtain ⟨t, ht, hm⟩ := Success.bind_eq_ok_iff.1 hm
      split at hm
      · next params hparams =>
        obtain ⟨hstore, hform⟩ := Mapping.facetParams?_eq_some hparams
        obtain ⟨-, rfl⟩ := Mapping.new_eq_ok_iff.1 hm
        exact ⟨t, params, ht, hstore, hform, rfl⟩
      · cases hm

/-! ### Properties of all mappings -/

/-- A mapping that facets may be added to: a built-in one or that of an enumeration. -/
def Catalog.IsBase (catalog : Catalog) (m : Mapping) : Prop :=
  m ∈ builtinScalars ++ builtinRanges ∨ ∃ name, catalog.enum? name = some m

/-- The property holds of the mappings that a catalog starts from, and carries over to what is built
on others. -/
structure Catalog.Carries (catalog : Catalog) (P : Mapping → Prop) : Prop where
  default (type : ScalarType) : P type.defaultMapping
  range {type : ScalarType} {m : Mapping} (h : type.range? = some m) : P m
  faceted {base m : Mapping} {facets : List UInt32} (hb : catalog.IsBase base)
    (h : faceted? base facets = some m) : P m
  json {m : Mapping} (type : HostType) (hk : m.kind.isJson = true) (h : P m) : P (m.withType type)
  array {m : Mapping} (h : P m) : P (.arrayOf m)
  multirange {m : Mapping} (h : P m) : P (catalog.multirangeOf m)

namespace Catalog.Carries

variable {catalog : Catalog} {P : Mapping → Prop} {m : Mapping}

theorem findByType (hP : catalog.Carries P) :
    ∀ {type : HostType} {m : Mapping}, catalog.findByType type = some m → P m
  | .scalar type, m, h => by
    rw [Catalog.findByType, Option.some.injEq] at h
    rw [← h]
    exact hP.default type
  | .enum name, m, h => by
    rw [Catalog.findByType] at h
    exact hP.faceted (.inr ⟨name, h⟩) (rfl : faceted? m [] = some m)
  | .array element, m, h => by
    rw [Catalog.findByType, Option.map_eq_some_iff] at h
    obtain ⟨e, he, rfl⟩ := h
    have hm := findByType hP he
    split
    · exact hP.multirange hm
    · exact hP.array hm
  | .range (.scalar type), m, h => hP.range (by rwa [Catalog.findByType] at h)
  | .range (.enum _), m, h | .range (.array _), m, h | .range (.range _), m, h
  | .range (.record _), m, h | .range .null, m, h | .record _, m, h | .null, m, h => by
    simp [Catalog.findByType] at h

theorem findByName (hP : catalog.Carries P) {name : String}
    (h : catalog.findByName name = some m) : P m := by
  obtain ⟨parsed, -, h⟩ := Option.bind_eq_some_iff.1 h
  obtain ⟨base, hbase, h⟩ := Option.bind_eq_some_iff.1 h
  obtain ⟨m', hm', h⟩ := Option.bind_eq_some_iff.1 h
  -- The base is built in or an enumeration; facets and the array suffix come on top of it.
  have hb : catalog.IsBase base := by
    rcases Option.or_eq_some_iff.1 hbase with hfound | ⟨-, henum⟩
    · exact .inl (List.mem_of_find?_eq_some hfound)
    · exact .inr ⟨_, henum⟩
  have hm := hP.faceted hb hm'
  split at h
  · cases h
    exact hP.array hm
  · cases h
    exact hm

theorem findFor (hP : catalog.Carries P) {type : HostType} {name : String}
    (h : catalog.findFor type name = some m) : P m := by
  obtain ⟨m', hm', h⟩ := Option.bind_eq_some_iff.1 h
  have hm := hP.findByName hm'
  split at h
  · cases h
    exact hm
  · split at h
    · next hjson =>
      cases h
      exact hP.json type hjson hm
    · cases h

/-- **What is built from a catalog has the property.** -/
theorem of_built (hP : catalog.Carries P) (h : catalog.Built m) : P m := by
  induction h with
  | byType h => exact hP.findByType h
  | byName h => exact hP.findByName h
  | byBoth h => exact hP.findFor h
  | arrayOf _ ih => exact hP.array ih
  | multirangeOf _ ih => exact hP.multirange ih

end Catalog.Carries

/-! ### Names that begin with a letter -/

/-- The store type begins with a lower-case letter or an underscore. -/
def Params.isNamed (p : Params) : Bool := p.storeType.toList.head?.any isNameStart

/-- Ranges and multiranges, whose literals begin with their store type, take no facets and have one
that begins with a letter; no array's store type can be taken for that of a range. -/
def Mapping.isWellNamed : Mapping → Bool
  | .scalar _ params => params.isNamed
  | .container .array element params =>
    params.storeType.toList.getLast? == some ']' && element.isWellNamed
  | .container _ element params =>
    params.isNamed && params.form == .none && element.isWellNamed

theorem Kind.isArray_of_isJson {kind : Kind} (h : kind.isJson = true) : kind.isArray = false := by
  cases kind with
  | scalar k => rfl
  | container shape element => cases h

theorem Params.isNamed_iff {p : Params} :
    p.isNamed = true ↔ ∃ c, isNameStart c = true ∧ Begins c p.storeType.toList := by
  rw [isNamed]
  cases p.storeType.toList with
  | nil => simp [Begins]
  | cons c cs => simp [Begins]

theorem Params.isNamed_normalized (p : Params) (kind : Kind) :
    (p.normalized kind).isNamed = p.isNamed := by
  unfold Params.normalized
  split <;> rfl

namespace Mapping

variable {m base element : Mapping} {params : Params}

theorem isWellNamed_arrayOf (h : element.isWellNamed = true) :
    (arrayOf element).isWellNamed = true := by
  simp [arrayOf, ofKind, Params.normalized, isWellNamed, h]

/-- Other parameters keep the invariant when they do not change what it speaks of. -/
theorem isWellNamed_ofKind (hb : base.isWellNamed = true) (ha : base.kind.isArray = false)
    (hn : params.isNamed = true) (hf : params.form = base.params.form) :
    (ofKind base.kind params).isWellNamed = true := by
  cases base with
  | scalar k p => rw [kind, ofKind, isWellNamed, Params.isNamed_normalized, hn]
  | container shape e p =>
    cases shape with
    | array => cases ha
    | range | multirange =>
      simp only [isWellNamed, Bool.and_eq_true, beq_iff_eq] at hb
      have hform : params.form = .none := hf.trans hb.1.2
      simp [kind, ofKind, Params.normalized, isWellNamed, hn, hform, hb.2]

theorem isNamed_of_isWellNamed (hb : base.isWellNamed = true) (ha : base.kind.isArray = false) :
    base.params.isNamed = true := by
  cases base with
  | scalar k p => exact hb
  | container shape e p =>
    cases shape with
    | array => cases ha
    | range | multirange =>
      simp only [isWellNamed, Bool.and_eq_true] at hb
      exact hb.1.1

theorem isWellNamed_withType (hb : base.isWellNamed = true) (ha : base.kind.isArray = false)
    (type : HostType) : (base.withType type).isWellNamed = true :=
  isWellNamed_ofKind hb ha (isNamed_of_isWellNamed hb ha) rfl

end Mapping

namespace Catalog

variable {catalog : Catalog} {m base : Mapping}

/-! ### What a catalog starts from -/

theorem isWellNamed_of_mem_builtin :
    ∀ m ∈ builtinScalars ++ builtinRanges, m.isWellNamed = true ∧ m.kind.isArray = false := by
  decide

theorem isWellNamed_defaultMapping (type : ScalarType) :
    type.defaultMapping.isWellNamed = true := by
  cases type with
  | int width => cases width <;> decide
  | _ => decide

theorem isWellNamed_range? {type : ScalarType} (h : type.range? = some m) :
    m.isWellNamed = true := by
  unfold ScalarType.range? at h
  split at h <;> cases h <;> decide

theorem isWellNamed_enum? (henums : ∀ name ∈ catalog.enums, isLowerName name = true) {name : String}
    (h : catalog.enum? name = some m) : m.isWellNamed = true ∧ m.kind.isArray = false := by
  obtain ⟨hmem, rfl⟩ := enum?_eq_some_iff.1 h
  obtain ⟨c, cs, hcs, hc⟩ := exists_isNameStart (henums name hmem)
  exact ⟨Params.isNamed_iff.2 ⟨c, hc, cs, hcs⟩, rfl⟩

theorem isWellNamed_of_isBase (henums : ∀ name ∈ catalog.enums, isLowerName name = true)
    (h : catalog.IsBase m) : m.isWellNamed = true ∧ m.kind.isArray = false := by
  rcases h with h | ⟨name, h⟩
  · exact isWellNamed_of_mem_builtin m h
  · exact isWellNamed_enum? henums h

theorem isWellNamed_faceted? (hb : base.isWellNamed = true) (ha : base.kind.isArray = false)
    {facets : List UInt32} (h : faceted? base facets = some m) : m.isWellNamed = true := by
  rcases faceted?_eq_some h with rfl | ⟨t, params, ht, hstore, hform, rfl⟩
  · exact hb
  · -- The name that is read begins as the store type does, and so do its words.
    obtain ⟨c, hc, cs, hcs⟩ := Params.isNamed_iff.1 (Mapping.isNamed_of_isWellNamed hb ha)
    have hname : Begins c
        (base.baseStoreType ++ "(" ++ StoreType.facetText facets ++ ")").toList := by
      rw [Mapping.baseStoreType, String.append_assoc, String.append_assoc, String.toList_append,
        hcs, List.cons_append]
      exact ⟨_, rfl⟩
    obtain ⟨ds, hds⟩ := StoreType.begins_parse hc hname ht
    refine Mapping.isWellNamed_ofKind hb ha (Params.isNamed_iff.2 ⟨c, hc, ?_⟩) hform
    rw [hstore, StoreType.unfaceted]
    split
    · exact ⟨ds ++ ['[', ']'], by simp [hds]⟩
    · exact ⟨ds, hds⟩

/-! ### What is built on others -/

/-- What ends in `range` is the name of no array. -/
theorem isArray_of_append_range {stem : List Char} (hm : m.isWellNamed = true)
    (hs : stem ++ "range".toList = m.baseStoreType.toList) : m.kind.isArray = false := by
  cases m with
  | scalar k params => rfl
  | container shape element params =>
    cases shape with
    | array =>
      rw [Mapping.isWellNamed, Bool.and_eq_true, beq_iff_eq] at hm
      -- The name of an array ends in a bracket.
      have hlast : (stem ++ "range".toList).getLast? = some ']' := hs ▸ hm.1
      simp at hlast
    | range => rfl
    | multirange => rfl

/-- A multirange is named after its range, and so begins as the range does. -/
theorem isWellNamed_multirangeOf (hm : m.isWellNamed = true) :
    (catalog.multirangeOf m).isWellNamed = true := by
  unfold multirangeOf
  split
  · next stem hstem =>
    split
    · have happend := append_of_dropEnding? hstem
      have harray := isArray_of_append_range hm happend
      obtain ⟨c, hc, cs, hcs⟩ := Params.isNamed_iff.1 (Mapping.isNamed_of_isWellNamed hm harray)
      rw [Mapping.baseStoreType, hcs] at happend
      have hnamed : Params.isNamed
          { type := .array m.type, storeType := String.ofList stem ++ "multirange" } = true := by
        -- Without a stem the name is `multirange` itself.
        refine Params.isNamed_iff.2 ?_
        cases stem with
        | nil => exact ⟨'m', by decide, "ultirange".toList, by simp⟩
        | cons d ds =>
          obtain ⟨rfl, -⟩ := List.cons.inj happend
          exact ⟨d, hc, ds ++ "multirange".toList, by simp⟩
      simp [Mapping.ofKind, Params.normalized, Mapping.isWellNamed, hm, hnamed]
    · exact Mapping.isWellNamed_arrayOf hm
  · exact Mapping.isWellNamed_arrayOf hm

theorem carries_isWellNamed (henums : ∀ name ∈ catalog.enums, isLowerName name = true) :
    catalog.Carries fun m => m.isWellNamed = true where
  default := isWellNamed_defaultMapping
  range := isWellNamed_range?
  faceted hb h := by
    have hb := isWellNamed_of_isBase henums hb
    exact isWellNamed_faceted? hb.1 hb.2 h
  json type hk h := Mapping.isWellNamed_withType h (Kind.isArray_of_isJson hk) type
  array := Mapping.isWellNamed_arrayOf
  multirange := isWellNamed_multirangeOf

/-- **What is built from a catalog is well named**, as long as the names of its enumerations are
plain. -/
theorem Built.isWellNamed (henums : ∀ name ∈ catalog.enums, isLowerName name = true)
    (h : catalog.Built m) : m.isWellNamed = true :=
  (carries_isWellNamed henums).of_built h

end Catalog

end PgFragment
