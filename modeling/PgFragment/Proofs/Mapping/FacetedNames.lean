import PgFragment.Mapping.Basic
import PgFragment.Proofs.StoreTypeReading

namespace PgFragment

/-!
# Store types with facets

The facets of a mapping are written among the words of its store type, in front of a time zone
qualifier and of the suffix of an array.  Reading the full store type tells them from the words
again, and taking them over gives the parameters that they were written from.

* `StoreType.parse_withFacets` — facets are read back from the place that they are put in.
* `Params.fullStoreType_eq` — the full store type carries the facets that its form shows.
-/

open Text

/-! ### The place of the facets -/

namespace Params

/-- Facets stand at the end or in front of a space. -/
theorem splitQualifier_eq (s : List Char) :
    (splitQualifier s).1 ++ (splitQualifier s).2 = s ∧
      ((splitQualifier s).2 = [] ∨ ∃ rest, (splitQualifier s).2 = ' ' :: rest) := by
  have hspace : ∀ {pattern before rest : List Char},
      breakAt (' ' :: pattern) s = some (before, rest) → ∃ tail, rest = ' ' :: tail := by
    intro pattern before rest h
    obtain ⟨tail, rfl⟩ := prefix_of_breakAt h
    exact ⟨pattern ++ tail, rfl⟩
  unfold splitQualifier
  split
  · next h => exact ⟨append_of_breakAt h, .inr (hspace h)⟩
  · cases h : breakAt " without time zone".toList s with
    | none => exact ⟨List.append_nil s, .inl rfl⟩
    | some halves => exact ⟨append_of_breakAt h, .inr (hspace h)⟩

theorem append_splitQualifier (s : List Char) :
    (splitQualifier s).1 ++ (splitQualifier s).2 = s := (splitQualifier_eq s).1

end Params

namespace StoreType

variable {t : StoreType} {s : List Char}

/-- The words on both sides of the facets are those of the whole. -/
theorem normalWords_splitQualifier (s : List Char) :
    normalWords ((Params.splitQualifier s).1 ++ ' ' :: (Params.splitQualifier s).2)
      = normalWords s := by
  obtain ⟨happend, hempty | ⟨rest, hrest⟩⟩ := Params.splitQualifier_eq s
  · rw [hempty, List.append_nil] at happend
    rw [hempty, normalWords_append_space, happend]
  · -- One space more makes no difference to the words.
    have hblank : words (' ' :: rest) = words rest := words_append_blank (by decide) [] rest
    rw [hrest] at happend ⊢
    rw [normalWords, normalWords, words_append_blank (by decide), hblank,
      ← words_append_blank (b := ' ') (by decide), happend]

theorem Readable.takesFacets_splitQualifier (h : t.Readable) (hfacets : t.facets ≠ []) :
    TakesFacets (Params.splitQualifier t.base.toList).1
      (Params.splitQualifier t.base.toList).2 := by
  obtain ⟨happend, hplace⟩ := Params.splitQualifier_eq t.base.toList
  have hfirst := h.first
  have hlast := h.last
  have hbrackets := (h.takesFacets hfacets).unbracketed.1
  rw [← happend] at hfirst hlast hbrackets
  have hne : (Params.splitQualifier t.base.toList).1 ≠ [] := by
    intro hempty
    rw [hempty, List.nil_append] at happend hfirst
    rcases hplace with hq | ⟨rest, hq⟩
    · exact h.ne_nil (happend.symm.trans hq)
    · rw [hq] at hfirst
      exact absurd (hfirst ' ' rfl) (by decide)
  refine ⟨hne, ?_, ?_, List.forall_mem_append.1 hbrackets⟩
  · intro c hc
    exact hfirst c (by rw [List.head?_append, hc]; rfl)
  · intro c hc
    exact hlast c (by rw [List.getLast?_append, hc]; rfl)

/-- The text with facets in it, the suffix put behind them. -/
theorem withFacets_unfaceted (hsuffix : ¬['[', ']'] <:+ t.base.toList) (facets : String) :
    Params.withFacets t.unfaceted facets
      = String.ofList (Params.splitQualifier t.base.toList).1 ++ "(" ++ facets ++ ")" ++
        String.ofList (Params.splitQualifier t.base.toList).2 ++
          String.ofList (arraySuffix t.isArray) := by
  unfold Params.withFacets unfaceted
  cases t.isArray with
  | false => rw [if_neg (by decide), dropEnding?_eq_none hsuffix]; rfl
  | true => rw [if_pos rfl, String.toList_append, String.toList_ofList, dropEnding?_append]; rfl

/-- The suffix may as well be put behind the text with facets. -/
theorem withFacets_append_suffix (hsuffix : ¬['[', ']'] <:+ t.base.toList) (facets : String) :
    Params.withFacets t.base facets ++ (if t.isArray then "[]" else "")
      = Params.withFacets t.unfaceted facets := by
  have hword : unfaceted ⟨t.base, t.facets, false⟩ = t.base := rfl
  have hbare := withFacets_unfaceted (t := ⟨t.base, t.facets, false⟩) hsuffix facets
  rw [hword] at hbare
  rw [withFacets_unfaceted hsuffix, hbare]
  cases t.isArray <;> simp [arraySuffix]

/-- **Facets are read back from the place that they are put in.** -/
theorem parse_withFacets (h : t.Readable) (hfacets : t.facets ≠ [])
    (hsuffix : ¬['[', ']'] <:+ t.base.toList) :
    parse (Params.withFacets t.unfaceted (facetText t.facets)) = .ok t := by
  rw [withFacets_unfaceted hsuffix]
  apply parse_faceted (h.takesFacets_splitQualifier hfacets) _ h.ne_nil hfacets
  · intro _ hending
    apply hsuffix
    rw [← Params.append_splitQualifier t.base.toList]
    exact hending.trans (List.suffix_append _ _)
  · rw [normalWords_splitQualifier, h.normal]

end StoreType

/-! ### Parameters and their facets -/

namespace Params

variable {p q : Params} {facets : List UInt32}

/-- The facets that the full store type carries, in order. -/
def facetList (p : Params) : List UInt32 :=
  match p.form with
  | .none => []
  | .size => p.size.toList
  | .precision => p.precision.toList
  | .precisionAndScale =>
    match p.precision with
    | none => []
    | some precision => precision :: p.scale.toList

/-- The parameters without facets. -/
def bare (p : Params) : Params := { p with size := none, precision := none, scale := none }

theorem bare_normalized (p : Params) (kind : Kind) :
    (p.normalized kind).bare = p.bare.normalized kind := by
  unfold normalized
  split <;> rfl

theorem facets?_eq (p : Params) :
    p.facets? = if p.facetList = [] then none else some (StoreType.facetText p.facetList) := by
  unfold facets? facetList
  cases p.form with
  | none => rfl
  | size => cases p.size <;> rfl
  | precision => cases p.precision <;> rfl
  | precisionAndScale => cases p.precision <;> cases p.scale <;> rfl

/-- **The full store type carries the facets that its form shows.** -/
theorem fullStoreType_eq (p : Params) :
    p.fullStoreType = if p.facetList = [] then p.storeType
      else withFacets p.storeType (StoreType.facetText p.facetList) := by
  rw [fullStoreType, facets?_eq]
  by_cases hnone : p.facetList = []
  · rw [if_pos hnone, if_pos hnone]
  · rw [if_neg hnone, if_neg hnone]

theorem bare_of_facetParams? (h : Mapping.facetParams? p facets = some q) : q.bare = p.bare := by
  unfold Mapping.facetParams? at h
  split at h
  · cases h
    rfl
  · split at h <;> cases h <;> rfl
  · split at h
    · cases h
      rfl
    · cases h
  · cases h

end Params

end PgFragment
