import PgFragment.Proofs.StoreTypeWords

namespace PgFragment

/-!
# Reading written store types

A store type is written with its facets behind the words or in front of a qualifier, and with the
suffix of an array at the end.  Reading gives back what was written.

* `StoreType.normalWords_normalWords` — words are in their normal form after one reading.
* `StoreType.parse_faceted` — facets are read back wherever they stand among the words.
* `StoreType.parse_text` — a store type is read back from its text, as long as it is readable.
* `StoreType.readable_of_parse` — what is read is readable.
-/

open Text

namespace StoreType

variable {name : String} {t : StoreType} {s base before qualifier : List Char}
  {facets : List UInt32} {isArray : Bool}

/-! ### Normal words -/

theorem map_intercalate (f : Char → Char) (separator : List Char) (ws : List (List Char)) :
    (separator.intercalate ws).map f = (separator.map f).intercalate (ws.map (List.map f)) := by
  induction ws with
  | nil => rfl
  | cons w ws ih =>
    cases ws with
    | nil => simp
    | cons v vs =>
      simp only [List.map_cons] at ih ⊢
      simp only [List.intercalate_cons_cons, List.map_append, ih]

theorem normalWords_eq (s : List Char) :
    normalWords s = [' '].intercalate ((words s).map (List.map Char.toLower)) :=
  map_intercalate Char.toLower [' '] (words s)

theorem isWord_map_toLower {w : List Char} (h : IsWord w) : IsWord (w.map Char.toLower) := by
  refine ⟨by simpa using h.1, ?_⟩
  intro c hc
  obtain ⟨d, hd, rfl⟩ := List.mem_map.1 hc
  rw [isBlank_toLower]
  exact h.2 d hd

theorem isWord_of_mem_normal {w : List Char} (h : w ∈ (words s).map (List.map Char.toLower)) :
    IsWord w := by
  obtain ⟨v, hv, rfl⟩ := List.mem_map.1 h
  exact isWord_map_toLower (isWord_of_mem_words hv)

theorem words_normalWords (s : List Char) :
    words (normalWords s) = (words s).map (List.map Char.toLower) := by
  rw [normalWords_eq]
  exact words_intercalate fun _ => isWord_of_mem_normal

/-- **Words are in their normal form after one reading.** -/
theorem normalWords_normalWords (s : List Char) : normalWords (normalWords s) = normalWords s := by
  rw [normalWords_eq (normalWords s), words_normalWords, List.map_map, normalWords_eq]
  congr 1
  apply List.map_congr_left
  intro w _
  rw [Function.comp_apply, List.map_map]
  exact List.map_congr_left fun c _ => toLower_toLower c

theorem normalWords_append_space (s : List Char) : normalWords (s ++ [' ']) = normalWords s := by
  rw [normalWords_eq, words_append_blank (by decide), words_nil, List.append_nil, normalWords_eq]

theorem isBlank_head_normalWords : ∀ c ∈ (normalWords s).head?, isBlank c = false := by
  rw [normalWords_eq]
  exact isBlank_head_intercalate fun _ => isWord_of_mem_normal

theorem isBlank_getLast_normalWords : ∀ c ∈ (normalWords s).getLast?, isBlank c = false := by
  rw [normalWords_eq]
  exact isBlank_getLast_intercalate fun _ => isWord_of_mem_normal

/-- Nothing but small letters and spaces comes into normal words that was not there. -/
theorem mem_of_mem_normalWords {c : Char} (hc : c.toNat < 97 ∨ 122 < c.toNat) (hspace : c ≠ ' ')
    (h : c ∈ normalWords s) : c ∈ s := by
  obtain ⟨d, hd, hlower⟩ := List.mem_map.1 h
  obtain rfl := eq_of_toLower_eq hc hlower
  rcases eq_or_exists_of_mem_intercalate hd with rfl | ⟨w, hw, hmem⟩
  · exact absurd rfl hspace
  · exact mem_of_mem_words hw hmem

/-- Characters that are no blank are kept, in lower case. -/
theorem toLower_mem_normalWords {c : Char} (hc : isBlank c = false) (h : c ∈ s) :
    c.toLower ∈ normalWords s := by
  obtain ⟨w, hw, hmem⟩ := exists_mem_words hc h
  exact List.mem_map_of_mem (mem_intercalate hw hmem)

theorem Unbracketed.normalWords (h : Unbracketed s) : Unbracketed (normalWords s) := by
  obtain ⟨hopen, hclose⟩ := unbracketed_iff.1 h
  refine unbracketed_iff.2 ⟨?_, ?_⟩
  · exact fun hmem => hopen (mem_of_mem_normalWords (by decide) (by decide) hmem)
  · exact fun hmem => hclose (mem_of_mem_normalWords (by decide) (by decide) hmem)

/-- An ending without a character ends behind it. -/
theorem suffix_of_suffix_append_cons {ending : List Char} {c : Char} (hc : c ∉ ending)
    (h : ending <:+ s ++ c :: base) : ending <:+ base := by
  rcases List.suffix_or_suffix_of_suffix h (List.suffix_append s (c :: base)) with h | h
  · rcases List.suffix_cons_iff.1 h with rfl | h
    · exact absurd List.mem_cons_self hc
    · exact h
  · exact absurd (h.mem List.mem_cons_self) hc

theorem suffix_of_suffix_map_toLower {w : List Char} (h : ['[', ']'] <:+ w.map Char.toLower) :
    ['[', ']'] <:+ w := by
  obtain ⟨l, hl, heq⟩ := List.suffix_map_iff.1 h
  obtain ⟨a, l', rfl, ha, heq⟩ := List.map_eq_cons_iff.1 heq.symm
  obtain ⟨b, l'', rfl, hb, heq⟩ := List.map_eq_cons_iff.1 heq
  obtain rfl := List.map_eq_nil_iff.1 heq
  rw [eq_of_toLower_eq (by decide) ha, eq_of_toLower_eq (by decide) hb] at hl
  exact hl

/-- Words that end in the suffix of an array end in it when they are in their normal form. -/
theorem suffix_of_suffix_normalWords (hlast : ∀ c ∈ s.getLast?, isBlank c = false)
    (h : ['[', ']'] <:+ normalWords s) : ['[', ']'] <:+ s := by
  have hne : s ≠ [] := by
    rintro rfl
    exact absurd (List.suffix_nil.1 h) (by simp)
  obtain ⟨t, w, rfl, hends, hw⟩ := exists_last_word hne hlast
  refine List.IsSuffix.trans ?_ (List.suffix_append t w)
  have hnormal : normalWords (t ++ w)
      = [' '].intercalate ((words t).map (List.map Char.toLower) ++ [w.map Char.toLower]) := by
    rw [normalWords_eq, words_append_word hends hw, List.map_append]
    rfl
  obtain ⟨u, hu, huends⟩ :=
    exists_intercalate_concat ((words t).map (List.map Char.toLower)) (w.map Char.toLower)
  rw [hnormal, hu] at h
  apply suffix_of_suffix_map_toLower
  rcases huends with rfl | ⟨v, rfl⟩
  · exact h
  · rw [List.append_assoc] at h
    exact suffix_of_suffix_append_cons (by decide) h

/-! ### The suffix of an array -/

/-- What stands behind the name of an array. -/
def arraySuffix (isArray : Bool) : List Char := if isArray then ['[', ']'] else []

theorem splitArray_eq_self (h : ¬['[', ']'] <:+ s) : splitArray s = (s, false) :=
  if_neg (by rwa [List.isSuffixOf_iff_suffix])

theorem splitArray_append (h : ∀ c ∈ s.getLast?, isBlank c = false) :
    splitArray (s ++ ['[', ']']) = (s, true) := by
  have htake : (s ++ ['[', ']']).take ((s ++ ['[', ']']).length - 2) = s := by simp
  rw [splitArray, if_pos (List.isSuffixOf_iff_suffix.2 (List.suffix_append s _)), htake,
    trimEnd_eq_self h]

/-- **The suffix is taken off what it was put behind**, and nothing else is. -/
theorem splitArray_trim_append (hne : s ≠ []) (hfirst : ∀ c ∈ s.head?, isBlank c = false)
    (hlast : ∀ c ∈ s.getLast?, isBlank c = false) (harray : isArray = false → ¬['[', ']'] <:+ s) :
    splitArray (trim (s ++ arraySuffix isArray)) = (s, isArray) := by
  cases isArray with
  | false =>
    rw [arraySuffix, if_neg (by decide), List.append_nil, trim_eq_self hfirst hlast]
    exact splitArray_eq_self (harray rfl)
  | true =>
    rw [arraySuffix, if_pos rfl, trim_eq_self]
    · exact splitArray_append hlast
    · obtain ⟨c, cs, rfl⟩ := List.exists_cons_of_ne_nil hne
      exact hfirst
    · rw [List.getLast?_append]
      simp [isBlank]

/-! ### Facets -/

/-- **Facets are read back.** -/
theorem readFacets_facetText (hne : facets ≠ []) :
    readFacets (facetText facets).toList = .ok facets := by
  have hdigits : ∀ facet : UInt32, ∀ c ∈ (decimalString facet.toNat).toList, c.isDigit = true := by
    intro facet c hc
    rw [decimalString, String.toList_ofList] at hc
    exact isDigit_of_mem_decimal hc
  have hread : ∀ facet : UInt32,
      readCount (trim (decimalString facet.toNat).toList) = .ok facet := by
    intro facet
    have hblank : ∀ c ∈ (decimalString facet.toNat).toList, isBlank c = false := fun c hc =>
      isBlank_eq_false_of_isDigit (hdigits facet c hc)
    rw [trim_eq_self, decimalString, String.toList_ofList, readCount_decimal]
    · exact fun c hc => hblank c (List.mem_of_mem_head? hc)
    · exact fun c hc => hblank c (List.mem_of_mem_getLast? hc)
  have hsplit : (facetText facets).toList.splitOn ','
      = facets.map fun facet => (decimalString facet.toNat).toList := by
    rw [facetText, String.toList_intercalate, List.map_map]
    refine List.splitOn_intercalate ',' ?_ (by simpa using hne)
    intro l hl
    obtain ⟨facet, -, rfl⟩ := List.mem_map.1 hl
    intro hmem
    exact absurd (hdigits facet _ hmem) (by decide)
  rw [readFacets, hsplit, Success.mapM_eq_ok_iff, List.map_map]
  apply List.map_congr_left
  intro facet _
  rw [Function.comp_apply, hread]

/-- Facets may be written between the words in front of them and a qualifier. -/
structure TakesFacets (before qualifier : List Char) : Prop where
  ne_nil : before ≠ []
  first : ∀ c ∈ before.head?, isBlank c = false
  last : ∀ c ∈ qualifier.getLast?, isBlank c = false
  unbracketed : Unbracketed before ∧ Unbracketed qualifier

/-- **Facets are read back wherever they stand among the words.** -/
theorem parse_faceted {base : String} (h : TakesFacets before qualifier)
    (hbase : normalWords (before ++ ' ' :: qualifier) = base.toList) (hne : base.toList ≠ [])
    (hfacets : facets ≠ []) (harray : isArray = false → ¬['[', ']'] <:+ qualifier) :
    parse (String.ofList before ++ "(" ++ facetText facets ++ ")" ++ String.ofList qualifier ++
      String.ofList (arraySuffix isArray)) = .ok ⟨base, facets, isArray⟩ := by
  have hsplit : splitArray (trim ((before ++ '(' :: ((facetText facets).toList ++ ')' :: qualifier))
      ++ arraySuffix isArray)) =
      (before ++ '(' :: ((facetText facets).toList ++ ')' :: qualifier), isArray) := by
    apply splitArray_trim_append
    · simp
    · obtain ⟨c, cs, rfl⟩ := List.exists_cons_of_ne_nil h.ne_nil
      exact h.first
    · -- The last character is the bracket or the end of the qualifier.
      rw [← List.cons_append, ← List.append_assoc, List.getLast?_append, List.getLast?_cons]
      cases hlast : qualifier.getLast? with
      | none => simp [isBlank]
      | some c => simpa using h.last c hlast
    · intro hflag hsuffix
      rw [← List.cons_append, ← List.append_assoc] at hsuffix
      exact harray hflag (suffix_of_suffix_append_cons (by decide) hsuffix)
  have hname : (String.ofList before ++ "(" ++ facetText facets ++ ")" ++ String.ofList qualifier ++
      String.ofList (arraySuffix isArray)).toList
      = (before ++ '(' :: ((facetText facets).toList ++ ')' :: qualifier)) ++ arraySuffix isArray := by
    simp
  refine parse_eq_ok_iff.2 ⟨before, some (facetText facets).toList, qualifier, ?_, ?_, ?_, hne, ?_⟩
  · rw [hname, hsplit]
    refine splitFacets_eq_some_iff.2 (.inr ⟨_, rfl, rfl, h.unbracketed.1, ?_, h.unbracketed.2⟩)
    exact fun hmem => absurd (isCalm_facetText facets _ hmem) (by decide)
  · exact readFacets_facetText hfacets
  · exact hbase.symm
  · rw [hname, hsplit]

/-! ### Names that can be read -/

/-- The store type can be told from its text. -/
structure Readable (t : StoreType) : Prop where
  normal : normalWords t.base.toList = t.base.toList
  ne_nil : t.base.toList ≠ []
  unopened : '(' ∉ t.base.toList
  unclosed : t.facets ≠ [] → ')' ∉ t.base.toList
  unsuffixed : t.facets = [] → t.isArray = false → ¬['[', ']'] <:+ t.base.toList

theorem Readable.first (h : t.Readable) : ∀ c ∈ t.base.toList.head?, isBlank c = false := by
  rw [← h.normal]
  exact isBlank_head_normalWords

theorem Readable.last (h : t.Readable) : ∀ c ∈ t.base.toList.getLast?, isBlank c = false := by
  rw [← h.normal]
  exact isBlank_getLast_normalWords

theorem Readable.takesFacets (h : t.Readable) (hfacets : t.facets ≠ []) :
    TakesFacets t.base.toList [] where
  ne_nil := h.ne_nil
  first := h.first
  last := by simp
  unbracketed := ⟨unbracketed_iff.2 ⟨h.unopened, h.unclosed hfacets⟩, List.forall_mem_nil _⟩

/-- **A store type is read back from its text.** -/
theorem parse_text (h : t.Readable) : parse t.text = .ok t := by
  have hwords : normalWords (t.base.toList ++ [' ']) = t.base.toList := by
    rw [normalWords_append_space, h.normal]
  have hsuffix : (if t.isArray then "[]" else "") = String.ofList (arraySuffix t.isArray) := by
    cases t.isArray <;> rfl
  by_cases hfacets : t.facets = []
  · have hname : t.text.toList = t.base.toList ++ arraySuffix t.isArray := by
      rw [text, hfacets, hsuffix]
      simp
    have hsplit := splitArray_trim_append h.ne_nil h.first h.last (h.unsuffixed hfacets)
    refine parse_eq_ok_iff.2 ⟨t.base.toList, none, [], ?_, ?_, hwords.symm, h.ne_nil, ?_⟩
    · rw [hname, hsplit]
      exact splitFacets_eq_some_iff.2 (.inl ⟨h.unopened, rfl, rfl, rfl⟩)
    · rw [hfacets]
      rfl
    · rw [hname, hsplit]
  · have hread := parse_faceted (h.takesFacets hfacets) hwords h.ne_nil hfacets
      (fun _ => by simp : t.isArray = false → ¬['[', ']'] <:+ [])
    have hname : t.text = String.ofList t.base.toList ++ "(" ++ facetText t.facets ++ ")" ++
        String.ofList [] ++ String.ofList (arraySuffix t.isArray) := by
      rw [text, if_neg (by simpa using hfacets), hsuffix]
      simp [String.append_assoc]
    rw [hname, hread]

theorem eq_and_not_suffix_of_splitArray (h : (splitArray s).2 = false) :
    (splitArray s).1 = s ∧ ¬['[', ']'] <:+ s := by
  unfold splitArray at h ⊢
  split at h
  · cases h
  · next hs => exact ⟨by rw [if_neg hs], by rwa [List.isSuffixOf_iff_suffix] at hs⟩

/-- **Only one suffix is taken off**: of two, one is left among the words. -/
theorem mem_base_of_parse_suffixes {name : String} (h : parse (name ++ "[]" ++ "[]") = .ok t) :
    ']' ∈ t.base.toList := by
  obtain ⟨before, inside, qualifier, hs, -, hbase, -⟩ := parse_eq_ok_iff.1 h
  have hrest : (splitArray (trim (name ++ "[]" ++ "[]").toList)).1
      = trimStart name.toList ++ ['[', ']'] := by
    have hname : (name ++ "[]" ++ "[]").toList = name.toList ++ ['[', ']', '[', ']'] := by simp
    have hword : IsWord ['[', ']', '[', ']'] := ⟨by simp, by simp [isBlank]⟩
    have htrim : trim (name ++ "[]" ++ "[]").toList
        = (trimStart name.toList ++ ['[', ']']) ++ ['[', ']'] := by
      rw [hname, trim_append_word _ hword]
      simp
    have hlast : ∀ c ∈ (trimStart name.toList ++ ['[', ']']).getLast?, isBlank c = false := by
      rw [List.getLast?_append]
      simp [isBlank]
    rw [htrim, splitArray_append hlast]
  rw [hrest] at hs
  have hmem : ']' ∈ before ++ ' ' :: qualifier := by
    rcases splitFacets_eq_some_iff.1 hs with ⟨-, rfl, -, -⟩ | ⟨text, heq, -, -, -, -⟩
    · simp
    · -- The suffix stands behind the facets.
      have hsuffix : ['[', ']'] <:+ before ++ '(' :: (text ++ ')' :: qualifier) :=
        heq ▸ List.suffix_append (trimStart name.toList) ['[', ']']
      have hqualifier := suffix_of_suffix_append_cons (by decide)
        (suffix_of_suffix_append_cons (by decide) hsuffix)
      have hin : ']' ∈ qualifier := hqualifier.mem (by simp)
      simp [hin]
  rw [hbase]
  exact toLower_mem_normalWords (by decide) hmem

/-- **What is read is readable.** -/
theorem readable_of_parse (h : parse name = .ok t) : t.Readable := by
  obtain ⟨before, inside, qualifier, hs, hread, hbase, hne, harray⟩ := parse_eq_ok_iff.1 h
  have hnormal : normalWords t.base.toList = t.base.toList := by
    rw [hbase, normalWords_normalWords]
  rcases splitFacets_eq_some_iff.1 hs with ⟨hopen, rfl, rfl, rfl⟩ | ⟨text, -, rfl, hb, -, hq⟩
  · have hnone : [] = t.facets := Except.ok.inj hread
    rw [normalWords_append_space] at hbase
    refine ⟨hnormal, hne, ?_, fun hfacets => absurd hnone.symm hfacets, ?_⟩
    · intro hmem
      rw [hbase] at hmem
      exact hopen (mem_of_mem_normalWords (by decide) (by decide) hmem)
    · intro _ hflag hsuffix
      obtain ⟨heq, hnot⟩ := eq_and_not_suffix_of_splitArray (harray.symm.trans hflag)
      rw [hbase, heq] at hsuffix
      exact hnot (suffix_of_suffix_normalWords (fun c => isBlank_getLast_trimEnd) hsuffix)
  · have hbrackets : Unbracketed t.base.toList := by
      rw [hbase]
      apply Unbracketed.normalWords
      exact List.forall_mem_append.2 ⟨hb, List.forall_mem_cons.2 ⟨by decide, hq⟩⟩
    obtain ⟨hopen, hclose⟩ := unbracketed_iff.1 hbrackets
    refine ⟨hnormal, hne, hopen, fun _ => hclose, ?_⟩
    intro hnone
    -- There is a facet between brackets, if only one.
    rw [hnone] at hread
    have hsplit := List.map_eq_nil_iff.1 (Success.mapM_eq_ok_iff.1 hread)
    exact absurd hsplit (List.splitOn_ne_nil _ _)

end StoreType

end PgFragment
