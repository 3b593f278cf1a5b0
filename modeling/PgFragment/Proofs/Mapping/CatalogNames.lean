import PgFragment.Proofs.Mapping.ClosedLiteral
import PgFragment.Proofs.Mapping.FacetedNames

namespace PgFragment

/-!
# The names of a catalog are closed

Store types are words of characters that mean nothing to the scan, with facets in brackets and array
suffixes.

* `Params.closed_fullStoreType` — words with facets and an array suffix are closed.
* `Mapping.isCalmNamed` — the store types of a mapping and its elements are such words.
* `Catalog.Built.namesClosed` — the names of what is built from a catalog are closed, as long as the
  names of its enumerations are plain.
-/

open Text

/-! ### Facets and array suffixes -/

namespace Params

variable {p : Params}

/-- The store type without an array suffix. -/
def stem (p : Params) : List Char :=
  (dropEnding? ['[', ']'] p.storeType.toList).getD p.storeType.toList

theorem stem_normalized (p : Params) (kind : Kind) : (p.normalized kind).stem = p.stem := by
  unfold Params.normalized
  split <;> rfl

/-- Calm words have a calm stem, and so have calm words with a suffix. -/
theorem isCalm_stem {cs : List Char} (hcs : IsCalm cs)
    (h : p.storeType.toList = cs ∨ p.storeType.toList = cs ++ ['[', ']']) : IsCalm p.stem := by
  unfold stem
  cases hdrop : dropEnding? ['[', ']'] p.storeType.toList with
  | some before =>
    have happend := append_of_dropEnding? hdrop
    rcases h with h | h
    · rw [h] at happend
      exact (happend ▸ hcs : IsCalm (before ++ ['[', ']'])).of_append_left
    · rw [h, List.append_cancel_right_eq] at happend
      rwa [Option.getD_some, happend]
  | none =>
    rcases h with h | h
    · rwa [Option.getD_none, h]
    · rw [dropEnding?, h, if_pos (List.isSuffixOf_iff_suffix.2 (List.suffix_append _ _))] at hdrop
      cases hdrop

theorem closed_suffix : Closed "[]" := ⟨fun _ => rfl, by decide⟩

theorem closed_storeType (hp : IsCalm p.stem) : Closed p.storeType := by
  unfold stem at hp
  cases hdrop : dropEnding? ['[', ']'] p.storeType.toList with
  | none =>
    rw [hdrop] at hp
    have h := hp.closed
    rwa [Option.getD_none, String.ofList_toList] at h
  | some element =>
    rw [hdrop] at hp
    have h := hp.closed.append closed_suffix
    have heq : String.ofList element ++ "[]" = p.storeType := by
      rw [← String.toList_inj, String.toList_append, String.toList_ofList]
      exact append_of_dropEnding? hdrop
    rwa [Option.getD_some, heq] at h

/-- Facets stand behind words, and words and a suffix may stand behind them. -/
theorem closed_withFacets (hp : IsCalm p.stem) {facets : String} (hf : IsCalm facets.toList) :
    Closed (withFacets p.storeType facets) := by
  have hsuffixed : ∀ {element : List Char} {suffix : String}, IsCalm element → Closed suffix →
      Closed (String.ofList (splitQualifier element).1 ++ "(" ++ facets ++ ")" ++
        String.ofList (splitQualifier element).2 ++ suffix) := by
    intro element suffix hcalm hsuffix
    rw [← append_splitQualifier element] at hcalm
    exact ((Nested.applied hcalm.of_append_left.closed (Closed.of_isCalm hf).nested).append
      hcalm.of_append_right.closed).append hsuffix
  unfold stem at hp
  unfold withFacets
  cases hdrop : dropEnding? ['[', ']'] p.storeType.toList with
  | none =>
    rw [hdrop] at hp
    exact hsuffixed hp Closed.empty
  | some element =>
    rw [hdrop] at hp
    exact hsuffixed hp closed_suffix

theorem isCalm_of_facets? {facets : String} (h : p.facets? = some facets) :
    IsCalm facets.toList := by
  have hdigits : ∀ facet, IsCalm (facetDigits facet).toList := by
    intro facet c hc
    rw [facetDigits, decimalString, String.toList_ofList] at hc
    exact isCalm_of_mem_decimal hc
  unfold facets? at h
  split at h
  · cases h
  · obtain ⟨size, -, rfl⟩ := Option.map_eq_some_iff.1 h
    exact hdigits size
  · obtain ⟨precision, -, rfl⟩ := Option.map_eq_some_iff.1 h
    exact hdigits precision
  · cases h
  · cases h
    exact hdigits _
  · cases h
    rw [String.toList_append, String.toList_append]
    exact ((hdigits _).append (by decide)).append (hdigits _)

/-- **Words with facets and a suffix are closed.** -/
theorem closed_fullStoreType (hp : IsCalm p.stem) : Closed p.fullStoreType := by
  unfold fullStoreType
  split
  · exact closed_storeType hp
  · next facets hfacets => exact closed_withFacets hp (isCalm_of_facets? hfacets)

end Params

/-! ### Mappings -/

/-- The name that a kind writes is calm. -/
def ScalarKind.isCalmNamed : ScalarKind → Bool
  | .enum name => name.toList.all isCalm
  | _ => true

/-- Store types are calm words, facets apart, and an array is named after its element. -/
def Mapping.isCalmNamed : Mapping → Bool
  | .scalar kind params => kind.isCalmNamed && params.stem.all isCalm
  | .container .array element params =>
    params.form == .none && params.storeType == element.storeType ++ "[]" && element.isCalmNamed
  | .container _ element params => params.stem.all isCalm && element.isCalmNamed

namespace Mapping

variable {m base element : Mapping} {params : Params}

theorem closed_storeType (h : m.isCalmNamed = true) : Closed m.storeType := by
  induction m with
  | scalar kind params =>
    rw [isCalmNamed, Bool.and_eq_true] at h
    exact Params.closed_fullStoreType (List.all_eq_true.1 h.2)
  | container shape element params ih =>
    cases shape with
    | array =>
      simp only [isCalmNamed, Bool.and_eq_true, beq_iff_eq] at h
      obtain ⟨⟨hform, hstore⟩, helement⟩ := h
      have hfull : params.fullStoreType = params.storeType := by
        rw [Params.fullStoreType, Params.facets?, hform]
      have hname : (container .array element params).storeType = element.storeType ++ "[]" :=
        hfull.trans hstore
      rw [hname]
      exact (ih helement).append Params.closed_suffix
    | range | multirange =>
      rw [isCalmNamed, Bool.and_eq_true] at h
      · exact Params.closed_fullStoreType (List.all_eq_true.1 h.1)
      · simp

/-- **Calm names are closed**, those of elements included. -/
theorem namesClosed_of_isCalmNamed (h : m.isCalmNamed = true) : m.NamesClosed := by
  induction m with
  | scalar kind params =>
    rw [isCalmNamed, Bool.and_eq_true] at h
    cases kind with
    | enum name => exact Closed.of_isCalm (List.all_eq_true.1 h.1)
    | _ => trivial
  | container shape element params ih =>
    refine ⟨closed_storeType h, ih ?_⟩
    cases shape with
    | array | range | multirange =>
      simp only [isCalmNamed, Bool.and_eq_true] at h
      exact h.2

theorem isCalmNamed_arrayOf (h : element.isCalmNamed = true) :
    (arrayOf element).isCalmNamed = true := by
  simp [arrayOf, ofKind, Params.normalized, isCalmNamed, h]

/-- Other parameters keep the invariant when their store type is calm. -/
theorem isCalmNamed_ofKind (hb : base.isCalmNamed = true) (ha : base.kind.isArray = false)
    (hp : IsCalm params.stem) : (ofKind base.kind params).isCalmNamed = true := by
  have hall : ∀ kind, (params.normalized kind).stem.all isCalm = true := by
    intro kind
    rw [Params.stem_normalized]
    exact List.all_eq_true.2 hp
  cases base with
  | scalar k p =>
    rw [isCalmNamed, Bool.and_eq_true] at hb
    rw [kind, ofKind, isCalmNamed, hb.1, hall, Bool.and_self]
  | container shape e p =>
    cases shape with
    | array => cases ha
    | range | multirange =>
      simp only [isCalmNamed, Bool.and_eq_true] at hb
      simp only [kind, ofKind, isCalmNamed, hb.2, hall, Bool.and_self]

theorem isCalm_stem (hb : base.isCalmNamed = true) (ha : base.kind.isArray = false) :
    IsCalm base.params.stem := by
  refine List.all_eq_true.1 ?_
  cases base with
  | scalar k p =>
    rw [isCalmNamed, Bool.and_eq_true] at hb
    exact hb.2
  | container shape e p =>
    cases shape with
    | array => cases ha
    | range | multirange =>
      simp only [isCalmNamed, Bool.and_eq_true] at hb
      exact hb.1

theorem isCalmNamed_withType (hb : base.isCalmNamed = true) (ha : base.kind.isArray = false)
    (type : HostType) : (base.withType type).isCalmNamed = true :=
  isCalmNamed_ofKind hb ha (isCalm_stem hb ha)

end Mapping

namespace Catalog

variable {catalog : Catalog} {m base : Mapping}

/-! ### The mappings of a catalog -/

theorem isCalmNamed_of_mem_builtin :
    ∀ m ∈ builtinScalars ++ builtinRanges,
      m.isCalmNamed = true ∧ m.kind.isArray = false ∧ m.params.stem = m.baseStoreType.toList := by
  decide +kernel

theorem isCalmNamed_of_isBase (henums : ∀ name ∈ catalog.enums, isLowerName name = true)
    (h : catalog.IsBase m) :
    m.isCalmNamed = true ∧ m.kind.isArray = false ∧ IsCalm m.baseStoreType.toList := by
  rcases h with h | ⟨name, h⟩
  · obtain ⟨hcalm, harray, hstem⟩ := isCalmNamed_of_mem_builtin m h
    exact ⟨hcalm, harray, hstem ▸ Mapping.isCalm_stem hcalm harray⟩
  · obtain ⟨hmem, rfl⟩ := enum?_eq_some_iff.1 h
    have hname : IsCalm name.toList := fun c hc =>
      isCalm_of_isNamePart (isNamePart_of_mem (henums name hmem) hc)
    have hstem : IsCalm (Mapping.enumeration name).params.stem :=
      Params.isCalm_stem hname (.inl rfl)
    refine ⟨?_, rfl, hname⟩
    exact Bool.and_eq_true_iff.2 ⟨List.all_eq_true.2 hname, List.all_eq_true.2 hstem⟩

/-- Facets are read from a name in which brackets stand behind the words. -/
theorem isCalmNamed_faceted? (hb : base.isCalmNamed = true) (ha : base.kind.isArray = false)
    (hstore : IsCalm base.baseStoreType.toList) {facets : List UInt32}
    (h : faceted? base facets = some m) : m.isCalmNamed = true := by
  rcases faceted?_eq_some h with rfl | ⟨t, params, ht, hparams, -, rfl⟩
  · exact hb
  · have hwords : IsCalm t.base.toList := by
      refine StoreType.isCalm_parse ?_ ?_ ht
      · intro c hc
        simp only [String.toList_append, List.mem_append] at hc
        rcases hc with ((hc | hc) | hc) | hc
        · exact .inl (hstore c hc)
        · exact .inr (.inl (List.mem_singleton.1 hc))
        · exact .inl (StoreType.isCalm_facetText facets c hc)
        · exact .inr (.inr (List.mem_singleton.1 hc))
      · simp
    refine Mapping.isCalmNamed_ofKind hb ha (Params.isCalm_stem hwords ?_)
    rw [hparams, StoreType.unfaceted]
    split
    · exact .inr (String.toList_append ..)
    · exact .inl rfl

/-- What stands in front of `range` is calm, since no suffix stands behind it. -/
theorem isCalm_of_append_range {cs : List Char} (hm : m.isCalmNamed = true)
    (h : cs ++ "range".toList = m.baseStoreType.toList) : IsCalm cs := by
  have hsuffix : ∀ ds : List Char, m.baseStoreType.toList ≠ ds ++ ['[', ']'] := by
    intro ds heq
    have hlast := congrArg List.getLast? (h.trans heq)
    simp at hlast
  have harray : m.kind.isArray = false := by
    cases m with
    | scalar kind params => rfl
    | container shape element params =>
      cases shape with
      | array =>
        simp only [Mapping.isCalmNamed, Bool.and_eq_true, beq_iff_eq] at hm
        have hstore : params.storeType.toList = element.storeType.toList ++ ['[', ']'] := by
          rw [hm.1.2, String.toList_append]
          rfl
        exact absurd hstore (hsuffix _)
      | range => rfl
      | multirange => rfl
  have hstem := Mapping.isCalm_stem hm harray
  unfold Params.stem at hstem
  cases hdrop : dropEnding? ['[', ']'] m.params.storeType.toList with
  | some ds => exact absurd (append_of_dropEnding? hdrop).symm (hsuffix ds)
  | none =>
    rw [hdrop] at hstem
    exact (h ▸ hstem : IsCalm (cs ++ "range".toList)).of_append_left

/-- A multirange is named after its range, by words that replace one. -/
theorem isCalmNamed_multirangeOf (hm : m.isCalmNamed = true) :
    (catalog.multirangeOf m).isCalmNamed = true := by
  unfold multirangeOf
  split
  · next stem hstem =>
    split
    · have hname : IsCalm (String.ofList stem ++ "multirange").toList := by
        rw [String.toList_append, String.toList_ofList]
        exact (isCalm_of_append_range hm (append_of_dropEnding? hstem)).append (by decide)
      have hcalm := Params.isCalm_stem
        (p := { type := .array m.type, storeType := String.ofList stem ++ "multirange" }) hname
        (.inl rfl)
      exact Bool.and_eq_true_iff.2 ⟨List.all_eq_true.2 hcalm, hm⟩
    · exact Mapping.isCalmNamed_arrayOf hm
  · exact Mapping.isCalmNamed_arrayOf hm

theorem carries_isCalmNamed (henums : ∀ name ∈ catalog.enums, isLowerName name = true) :
    catalog.Carries fun m => m.isCalmNamed = true where
  default type := by
    cases type with
    | int width => cases width <;> decide
    | _ => decide
  range h := by
    unfold ScalarType.range? at h
    split at h <;> cases h <;> decide
  faceted hb h := by
    obtain ⟨hbase, harray, hstore⟩ := isCalmNamed_of_isBase henums hb
    exact isCalmNamed_faceted? hbase harray hstore h
  json type hk h := Mapping.isCalmNamed_withType h (Kind.isArray_of_isJson hk) type
  array := Mapping.isCalmNamed_arrayOf
  multirange := isCalmNamed_multirangeOf

/-- **The names of what is built from a catalog are closed**, as long as the names of its
enumerations are plain. -/
theorem Built.namesClosed (henums : ∀ name ∈ catalog.enums, isLowerName name = true)
    (h : catalog.Built m) : Closed m.storeType ∧ m.NamesClosed := by
  have hcalm : m.isCalmNamed = true := (carries_isCalmNamed henums).of_built h
  exact ⟨Mapping.closed_storeType hcalm, Mapping.namesClosed_of_isCalmNamed hcalm⟩

end Catalog

end PgFragment
