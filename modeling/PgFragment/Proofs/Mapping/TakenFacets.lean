import PgFragment.Proofs.Mapping.FacetedNames
import PgFragment.Proofs.Mapping.Validity

namespace PgFragment

/-!
# Facets that are taken over

A mapping that is derived by the name of a store type takes its words and its facets from the name
and everything else from the mapping that it is derived from.  The facets go where the form says, and
those that the mapping had before are gone, so that the derived store type is read as the name was.

* `Params.facetList_of_facetParams?` — the facets that are taken over are the facets that are shown.
* `Mapping.Settled.withStoreType_eq_ok_iff` — when a mapping is derived by a name, and what it is then.
* `Mapping.Reachable.parse_storeType_withStoreType` — its store type is read as the name was.
-/

open Text

/-! ### Parameters with other facets -/

namespace Params

variable {p q : Params} {kind : Kind} {facets : List UInt32}

/-- **The facets that are taken over are those that are shown**, whatever facets there were. -/
theorem facetList_of_facetParams? (hne : facets ≠ []) (h : Mapping.facetParams? p facets = some q) :
    q.facetList = facets := by
  unfold Mapping.facetParams? at h
  split at h
  · exact absurd rfl hne
  · split at h <;> cases h
    all_goals
      next hform => simp [facetList, hform]
  · split at h
    · next hform =>
      cases h
      simp [facetList, hform]
    · cases h
  · cases h

/-- Parameters that differ in facets alone. -/
theorem bare_eq_iff :
    q.bare = p.bare ↔
      q.type = p.type ∧ q.storeType = p.storeType ∧ q.form = p.form ∧
        q.fixedLength = p.fixedLength ∧ q.unicode = p.unicode := by
  simp [bare]

/-- Only the form and the padding of fixed-width text are normalized. -/
theorem normalized_eq_self_iff :
    p.normalized kind = p ↔
      (kind = .scalar .character → p.form = .size ∧ p.fixedLength = true) := by
  unfold normalized
  split
  · constructor
    · intro h _
      rw [← h]
      exact ⟨rfl, rfl⟩
    · intro h
      obtain ⟨hform, hfixed⟩ := h rfl
      rw [← hform, ← hfixed]
  · next hkind => exact ⟨fun _ h => absurd h hkind, fun _ => rfl⟩

end Params

/-! ### Mappings derived by a name -/

namespace Mapping

variable {m m' : Mapping} {name : String} {t : StoreType} {q : Params}

/-- What a mapping takes from a name leaves its normal form alone. -/
theorem Settled.normalized_facetParams? (hm : m.Settled)
    (hq : facetParams? { m.params with storeType := t.unfaceted } t.facets = some q) :
    q.normalized m.kind = q := by
  obtain ⟨-, -, hform, hfixed, -⟩ := Params.bare_eq_iff.1 (Params.bare_of_facetParams? hq)
  have hnormal := Params.normalized_eq_self_iff.1 (settled_iff.1 hm).1
  rw [Params.normalized_eq_self_iff, hform, hfixed]
  exact hnormal

/-- **A mapping is derived by a name** that can be read, that carries facets of its form, and whose
facets are valid; it keeps its kind and has the parameters that take the facets over. -/
theorem Settled.withStoreType_eq_ok_iff (hm : m.Settled) :
    m.withStoreType name = .ok m' ↔
      ∃ t q, StoreType.parse name = .ok t ∧
        facetParams? { m.params with storeType := t.unfaceted } t.facets = some q ∧
          q.Valid ∧ m' = .ofKind m.kind q := by
  rw [withStoreType, Success.bind_eq_ok_iff]
  constructor
  · rintro ⟨t, ht, h⟩
    split at h
    · next q hq =>
      obtain ⟨hfault, rfl⟩ := new_eq_ok_iff.1 h
      rw [hm.normalized_facetParams? hq, Params.fault?_eq_none_iff] at hfault
      exact ⟨t, q, ht, hq, hfault, rfl⟩
    · cases h
  · rintro ⟨t, q, ht, hq, hvalid, rfl⟩
    refine ⟨t, ht, ?_⟩
    rw [hq]
    refine new_eq_ok_iff.2 ⟨?_, rfl⟩
    rw [hm.normalized_facetParams? hq, Params.fault?_eq_none_iff]
    exact hvalid

/-- **A name with facets is taken over as it was read.**  When a mapping that can be had is derived by
a name with facets, the derived store type is read as the name was: with the same words, the same
facets in the same order, and the suffix of an array if there was one.  Nothing but words and facets
is changed. -/
theorem Reachable.parse_storeType_withStoreType (hm : m.Reachable)
    (ht : StoreType.parse name = .ok t) (hfacets : t.facets ≠ [])
    (hsuffix : ¬['[', ']'] <:+ t.base.toList) (h : m.withStoreType name = .ok m') :
    StoreType.parse m'.storeType = .ok t ∧
      m'.kind = m.kind ∧ m'.type = m.type ∧ m'.params.form = m.params.form ∧
        m'.params.fixedLength = m.params.fixedLength ∧ m'.params.unicode = m.params.unicode := by
  have hsettled := hm.settledThroughout.settled
  obtain ⟨t', q, ht', hq, -, rfl⟩ := hsettled.withStoreType_eq_ok_iff.1 h
  obtain rfl := Except.ok.inj (ht.symm.trans ht')
  have hparams : (ofKind m.kind q).params = q := by
    rw [params_ofKind, hsettled.normalized_facetParams? hq]
  obtain ⟨htype, hwords, hform, hfixed, hunicode⟩ :=
    Params.bare_eq_iff.1 (Params.bare_of_facetParams? hq)
  refine ⟨?_, kind_ofKind m.kind q, ?_⟩
  · have hlist := Params.facetList_of_facetParams? hfacets hq
    rw [storeType, hparams, Params.fullStoreType_eq, hlist, if_neg hfacets, hwords]
    exact StoreType.parse_withFacets (StoreType.readable_of_parse ht) hfacets hsuffix
  · rw [Mapping.type, hparams]
    exact ⟨htype, hform, hfixed, hunicode⟩

/-- Decimal numbers with as many digits as given. -/
def amounts (storeType : String) (precision : UInt32) (scale : Option UInt32) : Mapping :=
  .scalar .numeric
    { type := .scalar .decimal, storeType, form := .precisionAndScale, precision := some precision,
      scale }

/-- Amounts in cents that are derived by a name with one facet have no scale left, and the facet
stands in front of the qualifier again. -/
theorem Reachable.parse_storeType_withStoreType_amounts :
    (amounts "numeric" 10 (some 2)).Reachable ∧
      (amounts "numeric" 10 (some 2)).withStoreType "Fixed ( +07 ) WITH  time zone []"
        = .ok (amounts "fixed with time zone[]" 7 none) ∧
      (amounts "fixed with time zone[]" 7 none).storeType = "fixed(7) with time zone[]" ∧
      StoreType.parse "fixed(7) with time zone[]" = .ok ⟨"fixed with time zone", [7], true⟩ := by
  have hfound : Catalog.findByName ⟨true, []⟩ "Decimal(10, 2)" = some (amounts "numeric" 10 (some 2)) :=
    by decide +kernel
  have hreachable : (amounts "numeric" 10 (some 2)).Reachable := .built (.byName hfound)
  have hread : StoreType.parse "Fixed ( +07 ) WITH  time zone []"
      = .ok ⟨"fixed with time zone", [7], true⟩ :=
    Success.toOption_eq_some_iff.1 (by decide +kernel)
  have hderived : (amounts "numeric" 10 (some 2)).withStoreType "Fixed ( +07 ) WITH  time zone []"
      = .ok (amounts "fixed with time zone[]" 7 none) :=
    Success.toOption_eq_some_iff.1 (by decide +kernel)
  have hname : (amounts "fixed with time zone[]" 7 none).storeType = "fixed(7) with time zone[]" := by
    decide +kernel
  obtain ⟨hparse, -⟩ := hreachable.parse_storeType_withStoreType hread (by decide) (by decide) hderived
  rw [hname] at hparse
  exact ⟨hreachable, hderived, hname, hparse⟩

end Mapping

end PgFragment
