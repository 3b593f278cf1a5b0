import PgFragment.Proofs.Mapping.FacetedNames
import PgFragment.Proofs.Mapping.Validity

namespace PgFragment

/-!
# Mappings are found by their own store types

Whatever spelling a mapping was found by, and whatever facets it was given since, its store type is
a name that it is found by again.  The catalog has a mapping without facets under every name, and
what is found or derived is such a mapping with facets.

* `Mapping.Refaceted` — a mapping is another with facets of its own, and stays so when it is derived
  from by other facets.
* `Catalog.Entry` — the mappings that the catalog has under their own names.
* `Catalog.findByName_written` — an entry with facets is found by the name that carries them.
* `Catalog.findByName_storeType` — what is found by any name is found by its store type, and so are
  the mappings derived from it by facets and the arrays over them.
-/

open Text

/-! ### Facets of valid parameters -/

namespace Params

variable {p : Params}

theorem form_ne_none (h : p.facetList ≠ []) : p.form ≠ .none := by
  intro hform
  rw [facetList, hform] at h
  exact h rfl

/-- **Valid parameters are taken over by their facets.** -/
theorem facetParams?_facetList (h : p.Valid) :
    Mapping.facetParams? p.bare p.facetList = some p := by
  obtain ⟨type, storeType, form, size, precision, scale, fixedLength, unicode⟩ := p
  cases form with
  | none =>
    obtain ⟨rfl, rfl, rfl⟩ := h.of_none rfl
    rfl
  | size =>
    obtain ⟨rfl, rfl, -⟩ := h.of_size rfl
    cases size <;> rfl
  | precision =>
    obtain ⟨rfl, rfl, -⟩ := h.of_precision rfl
    cases precision <;> rfl
  | precisionAndScale =>
    obtain ⟨rfl, -⟩ := h.of_precisionAndScale rfl
    cases precision with
    | none =>
      cases scale with
      | none => rfl
      | some scale => cases h.precision_of_scale rfl
    | some precision => cases scale <;> rfl

end Params

/-! ### Mappings with other facets -/

namespace Mapping

variable {base m m' : Mapping} {params : Params} {isArray : Bool}

/-- The mapping is another one with facets. -/
structure Refaceted (base m : Mapping) : Prop where
  kind : m.kind = base.kind
  params : m.params.bare = base.params
  settled : m.Settled

theorem Refaceted.params_valid (h : Refaceted base m) : m.params.Valid :=
  Params.fault?_eq_none_iff.1 (settled_iff.1 h.settled).2

theorem Refaceted.storeType (h : Refaceted base m) : m.params.storeType = base.baseStoreType := by
  rw [baseStoreType, ← h.params]
  rfl

theorem Refaceted.form (h : Refaceted base m) : m.params.form = base.params.form := by
  rw [← h.params]
  rfl

/-- Deriving by other facets changes nothing but facets. -/
theorem Refaceted.cloneWith (h : Refaceted base m) (hm : m.cloneWith params = .ok m')
    (hparams : params.bare = base.params) : Refaceted base m' := by
  obtain ⟨hfault, rfl⟩ := new_eq_ok_iff.1 hm
  have hnormal : base.params.normalized m.kind = base.params := by
    rw [← h.params, ← Params.bare_normalized, (settled_iff.1 h.settled).1]
  refine ⟨?_, ?_, ?_⟩
  · rw [kind_ofKind, h.kind]
  · rw [params_ofKind, Params.bare_normalized, hparams, hnormal]
  · rw [settled_iff, kind_ofKind, params_ofKind]
    exact ⟨Params.normalized_normalized params m.kind, hfault⟩

/-- The mappings derived from another by any number of sizes, precisions and scales. -/
inductive Derives (m₀ : Mapping) : Mapping → Prop
  | refl : Derives m₀ m₀
  | withSize {m m' : Mapping} {size : UInt32} (hm : Derives m₀ m) (h : m.withSize size = .ok m') :
      Derives m₀ m'
  | withPrecisionScale {m m' : Mapping} {precision : UInt32} {scale : Option UInt32}
      (hm : Derives m₀ m) (h : m.withPrecisionScale precision scale = .ok m') : Derives m₀ m'

theorem Refaceted.derives {m₀ : Mapping} (h₀ : Refaceted base m₀) (h : m₀.Derives m) :
    Refaceted base m := by
  induction h with
  | refl => exact h₀
  | withSize _ h ih => exact ih.cloneWith h ih.params
  | withPrecisionScale _ h ih => exact ih.cloneWith h ih.params

/-- Arrays take no facets. -/
theorem Derives.eq_arrayOf {element : Mapping} (h : (arrayOf element).Derives m) :
    m = .arrayOf element := by
  induction h with
  | refl => rfl
  | withSize _ h ih =>
    rw [ih] at h
    cases h
  | @withPrecisionScale _ _ precision scale _ h ih =>
    rw [ih] at h
    cases scale <;> cases h

end Mapping

/-! ### Facets of a name -/

namespace Catalog

variable {catalog : Catalog} {base m : Mapping} {facets : List UInt32} {isArray : Bool}

/-- **Facets that are written are the facets that are taken over.** -/
theorem faceted?_eq_some_iff (hb : base.Settled)
    (hname : facets ≠ [] → StoreType.Readable ⟨base.baseStoreType, facets, false⟩) :
    faceted? base facets = some m ↔
      ∃ params, Mapping.facetParams? base.params facets = some params ∧
        base.cloneWith params = .ok m := by
  by_cases hnone : facets = []
  · subst hnone
    have hclone : base.cloneWith base.params = .ok base := hb
    constructor
    · rintro ⟨⟩
      exact ⟨base.params, rfl, hclone⟩
    · rintro ⟨params, ⟨⟩, hm⟩
      exact congrArg some (Except.ok.inj (hclone.symm.trans hm))
  · have hread := StoreType.parse_text (hname hnone)
    have htext : StoreType.text ⟨base.baseStoreType, facets, false⟩
        = base.baseStoreType ++ "(" ++ StoreType.facetText facets ++ ")" := by
      simp [StoreType.text, hnone, String.append_assoc]
    have hfaceted : faceted? base facets = (base.withStoreType
        (base.baseStoreType ++ "(" ++ StoreType.facetText facets ++ ")")).toOption := by
      unfold faceted?
      split
      · exact absurd rfl hnone
      · rfl
    rw [hfaceted, Success.toOption_eq_some_iff, ← htext, Mapping.withStoreType,
      Success.bind_eq_ok_iff]
    constructor
    · rintro ⟨t, ht, hm⟩
      obtain rfl := Except.ok.inj (hread.symm.trans ht)
      split at hm
      · next params hparams => exact ⟨params, hparams, hm⟩
      · cases hm
    · rintro ⟨params, hparams, hm⟩
      refine ⟨_, hread, ?_⟩
      have hsame : Mapping.facetParams?
          { base.params with
            storeType := StoreType.unfaceted ⟨base.baseStoreType, facets, false⟩ } facets
          = some params := hparams
      dsimp only
      rw [hsame]
      exact hm

/-- The facets that an entry is found with make a mapping of it. -/
theorem refaceted_of_faceted? (hb : base.Settled) (hbare : base.params.bare = base.params)
    (hname : facets ≠ [] → StoreType.Readable ⟨base.baseStoreType, facets, false⟩)
    (h : faceted? base facets = some m) : base.Refaceted m := by
  obtain ⟨params, hparams, hm⟩ := (faceted?_eq_some_iff hb hname).1 h
  have hself : base.Refaceted base := ⟨rfl, hbare, hb⟩
  exact hself.cloneWith hm ((Params.bare_of_facetParams? hparams).trans hbare)

theorem faceted?_of_refaceted (hm : base.Refaceted m)
    (hname : m.params.facetList ≠ [] →
      StoreType.Readable ⟨base.baseStoreType, m.params.facetList, false⟩) (hb : base.Settled) :
    faceted? base m.params.facetList = some m := by
  refine (faceted?_eq_some_iff hb hname).2 ⟨m.params, ?_, ?_⟩
  · rw [← hm.params]
    exact Params.facetParams?_facetList hm.params_valid
  · rw [Mapping.cloneWith, ← hm.kind]
    exact hm.settled

/-! ### Entries -/

/-- The catalog has the mapping under its own name, which is read as it is written. -/
structure Entry (catalog : Catalog) (base : Mapping) : Prop where
  found : (builtinNamed? base.baseStoreType).or (catalog.enum? base.baseStoreType) = some base
  settled : base.Settled
  bare : base.params.bare = base.params
  readable : StoreType.Readable ⟨base.baseStoreType, [], true⟩
  /-- Only enumerations may be named by the other bracket or the suffix of an array. -/
  faceted : base.params.form ≠ .none →
    ')' ∉ base.baseStoreType.toList ∧ ¬['[', ']'] <:+ base.baseStoreType.toList

namespace Entry

theorem readable_bare (h : catalog.Entry base)
    (hsuffix : isArray = false → ¬['[', ']'] <:+ base.baseStoreType.toList) :
    StoreType.Readable ⟨base.baseStoreType, [], isArray⟩ :=
  { h.readable with unsuffixed := fun _ => hsuffix }

theorem readable_faceted (h : catalog.Entry base) (hform : base.params.form ≠ .none)
    (hfacets : facets ≠ []) (isArray : Bool) :
    StoreType.Readable ⟨base.baseStoreType, facets, isArray⟩ where
  normal := h.readable.normal
  ne_nil := h.readable.ne_nil
  unopened := h.readable.unopened
  unclosed _ := (h.faceted hform).1
  unsuffixed hnone := absurd hnone hfacets

/-- **The store type of an entry with facets is read as the name of the entry and the facets.** -/
theorem parse_storeType (h : catalog.Entry base) (hm : base.Refaceted m)
    (hsuffix : isArray = false → ¬['[', ']'] <:+ base.baseStoreType.toList) :
    StoreType.parse (m.storeType ++ if isArray then "[]" else "")
      = .ok ⟨base.baseStoreType, m.params.facetList, isArray⟩ := by
  rw [Mapping.storeType, Params.fullStoreType_eq, hm.storeType]
  by_cases hnone : m.params.facetList = []
  · have hread := StoreType.parse_text (h.readable_bare hsuffix)
    have htext : StoreType.text ⟨base.baseStoreType, [], isArray⟩
        = base.baseStoreType ++ if isArray then "[]" else "" := by
      simp [StoreType.text]
    rw [if_pos hnone, hnone, ← htext, hread]
  · have hform : base.params.form ≠ .none := hm.form ▸ Params.form_ne_none hnone
    have hread := StoreType.parse_withFacets (h.readable_faceted hform hnone isArray) hnone
      (h.faceted hform).2
    have happend := StoreType.withFacets_append_suffix
      (t := ⟨base.baseStoreType, m.params.facetList, isArray⟩) (h.faceted hform).2
      (StoreType.facetText m.params.facetList)
    rw [if_neg hnone, happend, hread]

/-- **An entry with facets is found by its store type.** -/
theorem findByName_storeType_append (h : catalog.Entry base) (hm : base.Refaceted m)
    (hsuffix : isArray = false → ¬['[', ']'] <:+ base.baseStoreType.toList) :
    catalog.findByName (m.storeType ++ if isArray then "[]" else "")
      = some (if isArray then .arrayOf m else m) := by
  have hparse : (StoreType.parse (m.storeType ++ if isArray then "[]" else "")).toOption
      = some ⟨base.baseStoreType, m.params.facetList, isArray⟩ :=
    Success.toOption_eq_some_iff.2 (h.parse_storeType hm hsuffix)
  have hfaceted : faceted? base m.params.facetList = some m := by
    refine faceted?_of_refaceted hm ?_ h.settled
    intro hfacets
    have hform : base.params.form ≠ .none := hm.form ▸ Params.form_ne_none hfacets
    exact h.readable_faceted hform hfacets false
  unfold findByName
  simp only [hparse, Option.bind_eq_bind, Option.bind_some, h.found, hfaceted]
  cases isArray <;> rfl

end Entry

theorem found_of_mem_builtin :
    ∀ m ∈ builtinScalars ++ builtinRanges,
      builtinNamed? m.baseStoreType = some m ∧ m.params.bare = m.params := by
  decide +kernel

theorem name_of_mem_builtin :
    ∀ m ∈ builtinScalars ++ builtinRanges,
      StoreType.normalWords m.baseStoreType.toList = m.baseStoreType.toList ∧
        m.baseStoreType.toList ≠ [] ∧ StoreType.Unbracketed m.baseStoreType.toList ∧
          ¬['[', ']'] <:+ m.baseStoreType.toList := by
  decide +kernel

theorem entry_of_mem_builtin (catalog : Catalog) (h : base ∈ builtinScalars ++ builtinRanges) :
    catalog.Entry base ∧
      ∀ facets isArray, StoreType.Readable ⟨base.baseStoreType, facets, isArray⟩ := by
  obtain ⟨hfound, hbare⟩ := found_of_mem_builtin base h
  obtain ⟨hnormal, hne, hbrackets, hsuffix⟩ := name_of_mem_builtin base h
  obtain ⟨hopen, hclose⟩ := StoreType.unbracketed_iff.1 hbrackets
  have hread : ∀ facets isArray, StoreType.Readable ⟨base.baseStoreType, facets, isArray⟩ :=
    fun _ _ => ⟨hnormal, hne, hopen, fun _ => hclose, fun _ _ => hsuffix⟩
  refine ⟨⟨?_, ?_, hbare, hread [] true, fun _ => ⟨hclose, hsuffix⟩⟩, hread⟩
  · rw [hfound, Option.some_or]
  · exact (settledThroughout_of_mem_builtin base h).settled

/-- An enumeration is found by what was read of a name, unless it is built in under that name. -/
theorem entry_of_enum? {t : StoreType} (ht : t.Readable) (hnone : builtinNamed? t.base = none)
    (h : catalog.enum? t.base = some base) : catalog.Entry base := by
  have hsettled := (settledThroughout_of_isBase (.inr ⟨t.base, h⟩)).settled
  obtain ⟨-, rfl⟩ := enum?_eq_some_iff.1 h
  refine ⟨?_, hsettled, rfl, ?_, fun hform => absurd rfl hform⟩
  · exact Option.or_eq_some_iff.2 (.inr ⟨hnone, h⟩)
  · exact ⟨ht.normal, ht.ne_nil, ht.unopened, nofun, nofun⟩

theorem eq_nil_of_facetParams? {p q : Params} (hform : p.form = .none)
    (h : Mapping.facetParams? p facets = some q) : facets = [] := by
  unfold Mapping.facetParams? at h
  rw [hform] at h
  split at h
  · rfl
  all_goals cases h

/-- What a name is found as is an entry with facets, or an array over one. -/
theorem exists_entry_of_findByName {name : String} (h : catalog.findByName name = some m) :
    ∃ base e isArray, catalog.Entry base ∧ base.Refaceted e ∧
      (isArray = false → ¬['[', ']'] <:+ base.baseStoreType.toList) ∧
        m = if isArray then .arrayOf e else e := by
  obtain ⟨t, ht, h⟩ := Option.bind_eq_some_iff.1 h
  obtain ⟨base, hbase, h⟩ := Option.bind_eq_some_iff.1 h
  obtain ⟨e, he, h⟩ := Option.bind_eq_some_iff.1 h
  have hm : m = if t.isArray then .arrayOf e else e := by
    split at h <;> cases h <;> simp [*]
  have hread := StoreType.readable_of_parse (Success.toOption_eq_some_iff.1 ht)
  refine ⟨base, e, t.isArray, ?_⟩
  rcases Option.or_eq_some_iff.1 hbase with hfound | ⟨hnone, henum⟩
  · obtain ⟨hentry, hname⟩ :=
      entry_of_mem_builtin catalog (List.mem_of_find?_eq_some hfound)
    have he := refaceted_of_faceted? hentry.settled hentry.bare (fun _ => hname _ _) he
    exact ⟨hentry, he, fun _ => (hname [] false).unsuffixed rfl rfl, hm⟩
  · have hentry := entry_of_enum? hread hnone henum
    obtain ⟨-, hbase⟩ := enum?_eq_some_iff.1 henum
    have hname : t.facets ≠ [] → StoreType.Readable ⟨base.baseStoreType, t.facets, false⟩ := by
      intro hfacets
      rw [hbase]
      exact { hread with unsuffixed := fun hnone => absurd hnone hfacets }
    -- Enumerations take no facets, so that the name had none.
    have hfacets : t.facets = [] := by
      obtain ⟨params, hparams, -⟩ := (faceted?_eq_some_iff hentry.settled hname).1 he
      rw [hbase] at hparams
      exact eq_nil_of_facetParams? rfl hparams
    refine ⟨hentry, refaceted_of_faceted? hentry.settled hentry.bare hname he, ?_, hm⟩
    intro hflag
    rw [hbase]
    exact hread.unsuffixed hfacets hflag

/-- **What is found by any name is found by its store type.** -/
theorem findByName_storeType {name : String} {m₀ : Mapping}
    (h₀ : catalog.findByName name = some m₀) (h : m₀.Derives m) :
    catalog.findByName m.storeType = some m ∧
      (m.kind.isArray = false →
        catalog.findByName (Mapping.arrayOf m).storeType = some (.arrayOf m)) := by
  obtain ⟨base, e, isArray, hbase, he, hsuffix, rfl⟩ := exists_entry_of_findByName h₀
  cases isArray with
  | false =>
    have hm : base.Refaceted m := he.derives h
    have hfound := hbase.findByName_storeType_append hm hsuffix
    have harray := hbase.findByName_storeType_append hm
      (nofun : true = false → ¬['[', ']'] <:+ base.baseStoreType.toList)
    exact ⟨by simpa using hfound, fun _ => harray⟩
  | true =>
    obtain rfl := h.eq_arrayOf
    have harray := hbase.findByName_storeType_append he hsuffix
    exact ⟨harray, nofun⟩

/-- Instants with as many fractional digits as given. -/
def instants (digits : UInt32) : Mapping :=
  .scalar .timestampTz
    { type := .scalar .dateTimeOffset, storeType := "timestamp with time zone",
      form := .precision, precision := some digits }

/-- Instants that are found by another name and made more precise are found with the facet in front
of the time zone, and so is an array of them. -/
theorem findByName_storeType_instants :
    findByName ⟨true, ["mood"]⟩ " TimestampTZ (3) " = some (instants 3) ∧
      (instants 3).Derives (instants 6) ∧
      findByName ⟨true, ["mood"]⟩ "timestamp(6) with time zone" = some (instants 6) ∧
      findByName ⟨true, ["mood"]⟩ "timestamp(6) with time zone[]"
        = some (.arrayOf (instants 6)) := by
  have hfound : findByName ⟨true, ["mood"]⟩ " TimestampTZ (3) " = some (instants 3) := by decide +kernel
  have hderived : (instants 3).Derives (instants 6) :=
    @Mapping.Derives.withPrecisionScale _ _ _ 6 none .refl rfl
  have hname : (instants 6).storeType = "timestamp(6) with time zone" := by decide +kernel
  have harrayName : (Mapping.arrayOf (instants 6)).storeType = "timestamp(6) with time zone[]" := by
    decide +kernel
  obtain ⟨hscalar, harray⟩ := findByName_storeType hfound hderived
  rw [hname] at hscalar
  have harray := harray rfl
  rw [harrayName] at harray
  exact ⟨hfound, hderived, hscalar, harray⟩

end Catalog

end PgFragment
