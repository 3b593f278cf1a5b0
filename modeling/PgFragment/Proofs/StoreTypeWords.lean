import PgFragment.Proofs.StoreTypeName
import PgFragment.Proofs.Text.Nesting

namespace PgFragment

/-!
# The words of a store type

Reading the name of a store type takes its facets off with their brackets, so that the words that
are left hold no bracket when nothing else in the name did.

* `StoreType.isCalm_parse` — the words of a name that is read.
-/

open Text

variable {c : Char} {s : List Char}

/-! ### Letters and words -/

theorem isCalm_of_le (h : 97 ≤ c.toNat) : isCalm c = true := by
  have hsmall : activeChars.all (·.toNat < 97) = true := by decide
  rw [isCalm, decide_eq_true_eq]
  intro hc
  have hlt := of_decide_eq_true (List.all_eq_true.1 hsmall c hc)
  omega

/-- A capital becomes a small letter, and everything else stays. -/
theorem isCalm_toLower (h : isCalm c = true) : isCalm c.toLower = true := by
  rcases toLower_cases c with hlower | ⟨⟨hlow, -⟩, hlower⟩
  · rwa [hlower]
  · exact isCalm_of_le (by omega)

namespace StoreType

theorem isCalm_normalWords (h : IsCalm s) : IsCalm (normalWords s) := by
  intro c hc
  obtain ⟨d, hd, rfl⟩ := List.mem_map.1 hc
  have hwords : ∀ w ∈ words s, IsCalm w := fun w hw c hc => h c (mem_of_mem_words hw hc)
  exact isCalm_toLower (IsCalm.intercalate (by decide) hwords d hd)

theorem isCalm_facetText (facets : List UInt32) : IsCalm (facetText facets).toList := by
  rw [facetText, String.toList_intercalate]
  refine IsCalm.intercalate (by decide) ?_
  intro t ht
  simp only [List.map_map, List.mem_map] at ht
  obtain ⟨facet, -, rfl⟩ := ht
  intro c hc
  rw [Function.comp_apply, decimalString, String.toList_ofList] at hc
  exact isCalm_of_isDigit (isDigit_of_mem_decimal hc)

/-! ### Names with brackets -/

theorem mem_of_mem_trimEnd (h : c ∈ trimEnd s) : c ∈ s :=
  List.mem_reverse.1 ((List.dropWhile_suffix isBlank).mem (List.mem_reverse.1 h))

theorem mem_of_mem_splitArray (h : c ∈ (splitArray s).1) : c ∈ s := by
  rw [splitArray] at h
  split at h
  · exact List.mem_of_mem_take (mem_of_mem_trimEnd h)
  · exact h

theorem mem_of_mem_trim (h : c ∈ trim s) : c ∈ s :=
  (List.dropWhile_suffix isBlank).mem (mem_of_mem_trimEnd h)

/-- Blanks are all that goes. -/
theorem open_mem_dropBlanks (h : '(' ∈ s) : '(' ∈ s.dropWhile isBlank := by
  rw [← List.takeWhile_append_dropWhile (p := isBlank) (l := s), List.mem_append] at h
  rcases h with h | h
  · exact absurd (List.all_eq_true.1 List.all_takeWhile _ h) (by decide)
  · exact h

theorem open_mem_trimEnd (h : '(' ∈ s) : '(' ∈ trimEnd s :=
  List.mem_reverse.2 (open_mem_dropBlanks (List.mem_reverse.2 h))

/-- The array suffix holds no bracket of facets. -/
theorem open_mem_splitArray (h : '(' ∈ s) : '(' ∈ (splitArray s).1 := by
  rw [splitArray]
  split
  · next hs =>
    obtain ⟨t, rfl⟩ := List.isSuffixOf_iff_suffix.1 hs
    refine open_mem_trimEnd ?_
    simpa using h
  · exact h

/-- The character may stand in a name with brackets. -/
def IsBracketed (c : Char) : Prop := isCalm c = true ∨ c = '(' ∨ c = ')'

/-- What is left of a name with brackets when they are taken off. -/
theorem isCalm_splitFacets {before qualifier : List Char} {inside : Option (List Char)}
    (hs : ∀ c ∈ s, IsBracketed c) (hopen : '(' ∈ s)
    (h : splitFacets s = some (before, inside, qualifier)) :
    IsCalm before ∧ IsCalm qualifier := by
  rcases splitFacets_eq_some_iff.1 h with ⟨hnone, -⟩ | ⟨text, rfl, -, hbefore, -, hqualifier⟩
  · exact absurd hopen hnone
  · have hcalm : ∀ {c}, IsBracketed c → c ≠ '(' ∧ c ≠ ')' → isCalm c = true := fun hc hne =>
      hc.resolve_right (not_or.2 hne)
    constructor
    · intro c hc
      exact hcalm (hs c (by simp [hc])) (hbefore c hc)
    · intro c hc
      exact hcalm (hs c (by simp [hc])) (hqualifier c hc)

/-- **The words that are read hold no brackets.** -/
theorem isCalm_parse {name : String} {t : StoreType} (hname : ∀ c ∈ name.toList, IsBracketed c)
    (hopen : '(' ∈ name.toList) (h : parse name = .ok t) : IsCalm t.base.toList := by
  obtain ⟨before, inside, qualifier, hs, -, hbase, -⟩ := parse_eq_ok_iff.1 h
  have hrest : ∀ c ∈ (splitArray (trim name.toList)).1, IsBracketed c := fun c hc =>
    hname c (mem_of_mem_trim (mem_of_mem_splitArray hc))
  have hopen := open_mem_splitArray (open_mem_trimEnd (open_mem_dropBlanks hopen))
  obtain ⟨hbefore, hqualifier⟩ := isCalm_splitFacets hrest hopen hs
  have hspace : isCalm ' ' = true := by decide
  rw [hbase]
  exact isCalm_normalWords (hbefore.append (List.forall_mem_cons.2 ⟨hspace, hqualifier⟩))

end StoreType

end PgFragment
