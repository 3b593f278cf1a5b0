import PgFragment.Proofs.Success
import PgFragment.Proofs.Text.Runs
import PgFragment.Proofs.Text.Words
import PgFragment.StoreType

namespace PgFragment

/-!
# How the name of a store type is read

Reading the name of a store type takes off blanks, facets and an array suffix and writes the words
in lower case.  None of it touches the beginning of a name that begins with a lower-case letter or
an underscore.

* `StoreType.splitFacets_eq_some_iff` — the brackets that a name may have.
* `StoreType.parse_eq_ok_iff` — what is read of a name.
* `StoreType.begins_parse` — how the words that are read begin.
-/

open Text

variable {c : Char} {s cs : List Char}

/-- The text begins with a given character. -/
def Begins (c : Char) (s : List Char) : Prop := ∃ cs, s = c :: cs

theorem isBlank_of_isNameStart (h : isNameStart c = true) : isBlank c = false := by
  have hnat := toNat_of_isNameStart h
  apply isBlank_eq_false_of_visible <;> omega

theorem toLower_of_isNameStart (h : isNameStart c = true) : c.toLower = c := by
  have hnat := toNat_of_isNameStart h
  rcases toLower_cases c with hlower | ⟨hupper, -⟩
  · exact hlower
  · omega

theorem begins_trimEnd (hc : isBlank c = false) (h : Begins c s) : Begins c (trimEnd s) := by
  obtain ⟨cs, rfl⟩ := h
  rw [trimEnd, List.reverse_cons, List.dropWhile_append]
  split
  · exact ⟨[], by simp [hc]⟩
  · exact ⟨(cs.reverse.dropWhile isBlank).reverse, by simp⟩

theorem begins_trim (hc : isBlank c = false) (h : Begins c s) : Begins c (trim s) := by
  obtain ⟨cs, rfl⟩ := h
  rw [trim, trimStart, List.dropWhile_cons_of_neg (by simp [hc])]
  exact begins_trimEnd hc ⟨cs, rfl⟩

namespace StoreType

theorem begins_splitArray (hc : isNameStart c = true) (h : Begins c s) :
    Begins c (splitArray s).1 := by
  rw [splitArray]
  split
  · next hs =>
    obtain ⟨t, ht⟩ := List.isSuffixOf_iff_suffix.1 hs
    obtain ⟨cs, rfl⟩ := h
    have htake : (c :: cs).take ((c :: cs).length - 2) = t := by
      rw [← ht]
      simp
    -- Without the suffix there is a character left, or else the suffix itself were the name.
    rw [htake]
    refine begins_trimEnd (isBlank_of_isNameStart hc) ?_
    cases t with
    | nil =>
      obtain rfl : '[' = c := (List.cons.inj ht).1
      exact absurd hc (by decide)
    | cons d ds => exact ⟨ds, by rw [(List.cons.inj ht).1]⟩
  · exact h

/-- The text holds no bracket of facets. -/
def Unbracketed (s : List Char) : Prop := ∀ c ∈ s, c ≠ '(' ∧ c ≠ ')'

instance : DecidablePred Unbracketed := List.decidableBAll fun c => c ≠ '(' ∧ c ≠ ')'

theorem unbracketed_iff : Unbracketed s ↔ '(' ∉ s ∧ ')' ∉ s := by
  constructor
  · intro h
    exact ⟨fun hmem => (h _ hmem).1 rfl, fun hmem => (h _ hmem).2 rfl⟩
  · rintro ⟨hopen, hclose⟩ c hc
    exact ⟨by rintro rfl; exact hopen hc, by rintro rfl; exact hclose hc⟩

/-- **Facets are one pair of brackets**, or there is no bracket that opens. -/
theorem splitFacets_eq_some_iff {before qualifier : List Char} {inside : Option (List Char)} :
    splitFacets s = some (before, inside, qualifier) ↔
      ('(' ∉ s ∧ before = s ∧ inside = none ∧ qualifier = []) ∨
        ∃ text, s = before ++ '(' :: (text ++ ')' :: qualifier) ∧ inside = some text ∧
          Unbracketed before ∧ ')' ∉ text ∧ Unbracketed qualifier := by
  constructor
  · intro h
    unfold splitFacets at h
    split at h
    · next hspan =>
      obtain ⟨rfl, hopen, -⟩ := span_ne_eq_iff.1 hspan
      cases h
      exact .inl ⟨by simpa using hopen, by simp, rfl, rfl⟩
    · next hspan =>
      obtain ⟨rfl, hopen, hfirst⟩ := span_ne_eq_iff.1 hspan
      obtain rfl := hfirst _ rfl
      split at h
      · cases h
      · next hspan' =>
        obtain ⟨rfl, hclose, hfirst'⟩ := span_ne_eq_iff.1 hspan'
        obtain rfl := hfirst' _ rfl
        split at h
        · cases h
        · next hnone =>
          cases h
          simp only [Bool.or_eq_true, List.contains_iff_mem, not_or] at hnone
          exact .inr ⟨_, rfl, rfl, unbracketed_iff.2 ⟨hopen, hnone.1.1⟩, hclose,
            unbracketed_iff.2 ⟨hnone.1.2, hnone.2⟩⟩
  · rintro (⟨hopen, rfl, rfl, rfl⟩ | ⟨text, rfl, rfl, hbefore, hclose, hqualifier⟩)
    · have hspan : before.span (· != '(') = (before, []) :=
        span_ne_eq_iff.2 ⟨List.append_nil _, hopen, by simp⟩
      rw [splitFacets, hspan]
    · obtain ⟨hopenb, hcloseb⟩ := unbracketed_iff.1 hbefore
      obtain ⟨hopenq, hcloseq⟩ := unbracketed_iff.1 hqualifier
      have hspan : (before ++ '(' :: (text ++ ')' :: qualifier)).span (· != '(')
          = (before, '(' :: (text ++ ')' :: qualifier)) :=
        span_ne_eq_iff.2 ⟨rfl, hopenb, by simp⟩
      have hspan' : (text ++ ')' :: qualifier).span (· != ')') = (text, ')' :: qualifier) :=
        span_ne_eq_iff.2 ⟨rfl, hclose, by simp⟩
      rw [splitFacets, hspan]
      dsimp only
      rw [hspan']
      simp [hcloseb, hopenq, hcloseq]

theorem begins_splitFacets {before qualifier : List Char} {inside : Option (List Char)}
    (hc : isNameStart c = true) (h : Begins c s)
    (hs : splitFacets s = some (before, inside, qualifier)) : Begins c before := by
  rcases splitFacets_eq_some_iff.1 hs with ⟨-, rfl, -, -⟩ | ⟨text, rfl, -, -, -, -⟩
  · exact h
  · obtain ⟨cs, hcs⟩ := h
    cases before with
    | nil =>
      obtain rfl : '(' = c := (List.cons.inj hcs).1
      exact absurd hc (by decide)
    | cons d ds => exact ⟨ds, by rw [(List.cons.inj hcs).1]⟩

theorem begins_normalWords (hc : isNameStart c = true) (h : Begins c s) :
    Begins c (normalWords s) := by
  obtain ⟨cs, rfl⟩ := h
  have hblank := isBlank_of_isNameStart hc
  obtain ⟨w, ws, hws⟩ := List.exists_cons_of_ne_nil (List.splitOnP_ne_nil isBlank cs)
  have hwords : words (c :: cs) = (c :: w) :: ws.filter (!·.isEmpty) := by
    simp [words, List.splitOnP_cons_eq_if_modifyHead, hblank, hws]
  rw [normalWords, hwords]
  cases ws.filter (!·.isEmpty) with
  | nil => exact ⟨w.map Char.toLower, by simp [toLower_of_isNameStart hc]⟩
  | cons v vs =>
    exact ⟨(w ++ ' ' :: [' '].intercalate (v :: vs)).map Char.toLower,
      by simp [toLower_of_isNameStart hc]⟩

/-- **What is read of a name**: its words on both sides of the facets, the facets, and whether a
suffix stood behind them. -/
theorem parse_eq_ok_iff {name : String} {t : StoreType} :
    parse name = .ok t ↔
      ∃ before inside qualifier,
        splitFacets (splitArray (trim name.toList)).1 = some (before, inside, qualifier) ∧
          inside.elim (.ok []) readFacets = .ok t.facets ∧
          t.base.toList = normalWords (before ++ ' ' :: qualifier) ∧ t.base.toList ≠ [] ∧
          t.isArray = (splitArray (trim name.toList)).2 := by
  constructor
  · intro h
    unfold parse at h
    dsimp only at h
    split at h
    · cases h
    · next before inside qualifier hs =>
      refine ⟨before, inside, qualifier, hs, ?_⟩
      cases inside <;>
      · obtain ⟨facets, hfacets, h⟩ := Success.bind_eq_ok_iff.1 h
        split at h
        · cases h
        · next hne =>
          cases h
          exact ⟨by simpa [Success.mapError_eq_ok_iff] using hfacets, String.toList_ofList,
            by simpa using hne, rfl⟩
  · rintro ⟨before, inside, qualifier, hs, hfacets, hbase, hne, harray⟩
    unfold parse
    dsimp only
    rw [hs]
    rw [hbase] at hne
    cases inside <;>
    · refine Success.bind_eq_ok_iff.2 ⟨t.facets, ?_, ?_⟩
      · simpa [Success.mapError_eq_ok_iff] using hfacets
      · rw [if_neg (by simpa using hne), ← hbase, String.ofList_toList, ← harray]

/-- **The beginning of a store type's name survives reading.** -/
theorem begins_parse {name : String} {t : StoreType} (hc : isNameStart c = true)
    (h : Begins c name.toList) (ht : parse name = .ok t) : Begins c t.base.toList := by
  have hrest := begins_splitArray hc (begins_trim (isBlank_of_isNameStart hc) h)
  obtain ⟨before, inside, qualifier, hs, -, hbase, -⟩ := parse_eq_ok_iff.1 ht
  obtain ⟨bs, hbs⟩ := begins_splitFacets hc hrest hs
  rw [hbase]
  exact begins_normalWords hc ⟨bs ++ ' ' :: qualifier, by rw [hbs, List.cons_append]⟩

end StoreType

end PgFragment
