import PgFragment.Proofs.StoreTypeReading

namespace PgFragment

/-!
# The letter case of store type names

A store type name is taken apart at blanks, brackets and commas, none of which is a letter, its
facets are digits, and its words are put in lower case.  So the case of its letters makes no
difference to what is read.

* `StoreType.parse_toLower_iff` — a name is read like the same name in lower case.
* `StoreType.parse_congr_toLower` — names that differ in the case of letters alone are read alike.
* `StoreType.parse_text_and_toUpper` — what is read of a name is read of its own text, too, and of
  the name in capitals.
-/

open Text

/-! ### Text in lower case -/

namespace Text

variable {c d : Char} {s : List Char}

theorem toList_toLower (name : String) : name.toLower.toList = name.toList.map Char.toLower :=
  String.toList_map

/-- A character that is no letter comes from itself alone. -/
theorem toLower_eq_iff (hd : d.isAlpha = false) : c.toLower = d ↔ c = d := by
  have hnumber := mt isAlpha_iff.2 (Bool.eq_false_iff.1 hd)
  constructor
  · exact eq_of_toLower_eq (by omega)
  · rintro rfl
    exact toLower_eq_self fun hcapital => hnumber (.inl hcapital)

theorem toLower_beq (hd : d.isAlpha = false) (c : Char) : (c.toLower == d) = (c == d) := by
  rw [Bool.eq_iff_iff, beq_iff_eq, beq_iff_eq, toLower_eq_iff hd]

theorem toLower_bne (hd : d.isAlpha = false) : (· != d) ∘ Char.toLower = (· != d) := by
  funext c
  rw [Function.comp_apply, bne, bne, toLower_beq hd]

theorem isBlank_comp_toLower : isBlank ∘ Char.toLower = isBlank := funext isBlank_toLower

theorem contains_map_toLower (hd : d.isAlpha = false) :
    (s.map Char.toLower).contains d = s.contains d := by
  rw [Bool.eq_iff_iff, List.contains_iff_mem, List.contains_iff_mem]
  simp [toLower_eq_iff hd]

theorem trimEnd_map_toLower (s : List Char) :
    trimEnd (s.map Char.toLower) = (trimEnd s).map Char.toLower := by
  rw [trimEnd, trimEnd, ← List.map_reverse, List.dropWhile_map, isBlank_comp_toLower,
    List.map_reverse]

theorem trim_map_toLower (s : List Char) :
    trim (s.map Char.toLower) = (trim s).map Char.toLower := by
  rw [trim, trim, trimStart, trimStart, List.dropWhile_map, isBlank_comp_toLower,
    trimEnd_map_toLower]

theorem span_map_toLower (hd : d.isAlpha = false) (s : List Char) :
    (s.map Char.toLower).span (· != d) =
      ((s.span (· != d)).1.map Char.toLower, (s.span (· != d)).2.map Char.toLower) := by
  rw [List.span_eq_takeWhile_dropWhile, List.span_eq_takeWhile_dropWhile, List.takeWhile_map,
    List.dropWhile_map, toLower_bne hd]

/-- What text is split at is found in lower case, too, when the case of letters does not matter
to it. -/
theorem splitOnP_map_toLower {p : Char → Bool} (hp : ∀ c, p c.toLower = p c) (s : List Char) :
    (s.map Char.toLower).splitOnP p = (s.splitOnP p).map (List.map Char.toLower) := by
  induction s with
  | nil => rfl
  | cons c s ih =>
    obtain ⟨w, ws, hws⟩ := List.exists_cons_of_ne_nil (List.splitOnP_ne_nil p s)
    rw [List.map_cons, List.splitOnP_cons_eq_if_modifyHead, List.splitOnP_cons_eq_if_modifyHead, hp,
      ih, hws]
    split <;> rfl

theorem words_map_toLower (s : List Char) :
    words (s.map Char.toLower) = (words s).map (List.map Char.toLower) := by
  rw [words, words, splitOnP_map_toLower isBlank_toLower, List.filter_map]
  congr 1
  apply List.filter_congr
  intro w _
  simp

/-! ### Counts in lower case -/

theorem isDigit_eq_false_of_lt (h : 57 < c.toNat) : c.isDigit = false := by
  rw [Char.isDigit, Bool.and_eq_false_iff, decide_eq_false_iff_not, decide_eq_false_iff_not]
  right
  intro hle
  have hhigh : c.toNat ≤ 57 := UInt32.le_iff_toNat_le.1 hle
  omega

theorem digitValue?_toLower (c : Char) : digitValue? c.toLower = digitValue? c := by
  rcases toLower_cases c with hc | ⟨⟨hlow, -⟩, hc⟩
  · rw [hc]
  · -- No letter is a digit.
    rw [digitValue?, digitValue?, isDigit_eq_false_of_lt (by omega), isDigit_eq_false_of_lt (by omega)]
    rfl

theorem readDigits_map_toLower (s : List Char) (value : Nat) :
    readDigits value (s.map Char.toLower) = readDigits value s := by
  induction s generalizing value with
  | nil => rfl
  | cons c s ih => simp only [List.map_cons, readDigits, digitValue?_toLower, ih]

theorem readCount_cons_of_ne (h : c ≠ '+') (s : List Char) :
    readCount (c :: s) = (readDigits 0 (c :: s)).map UInt32.ofNat := by
  simp [readCount, h]

theorem readCount_map_toLower (s : List Char) : readCount (s.map Char.toLower) = readCount s := by
  cases s with
  | nil => rfl
  | cons c s =>
    by_cases hplus : c = '+'
    · subst hplus
      cases s with
      | nil => rfl
      | cons d s =>
        show (readDigits 0 ((d :: s).map Char.toLower)).map UInt32.ofNat = _
        rw [readDigits_map_toLower]
        rfl
    · have hlower : c.toLower ≠ '+' := by rwa [ne_eq, toLower_eq_iff (by decide)]
      rw [List.map_cons, readCount_cons_of_ne hlower, readCount_cons_of_ne hplus, ← List.map_cons,
        readDigits_map_toLower]

end Text

/-! ### Names in lower case -/

namespace StoreType

variable {name other : String} {t : StoreType} {s : List Char}

theorem splitArray_map_toLower (s : List Char) :
    splitArray (s.map Char.toLower) = ((splitArray s).1.map Char.toLower, (splitArray s).2) := by
  have hsuffix : ['[', ']'].isSuffixOf (s.map Char.toLower) = ['[', ']'].isSuffixOf s := by
    rw [Bool.eq_iff_iff, List.isSuffixOf_iff_suffix, List.isSuffixOf_iff_suffix]
    exact ⟨suffix_of_suffix_map_toLower, fun h => h.map Char.toLower⟩
  rw [splitArray, splitArray, hsuffix]
  split
  · rw [List.length_map, ← List.map_take, trimEnd_map_toLower]
  · rfl

/-- Words and facets in lower case. -/
def lowerParts (parts : List Char × Option (List Char) × List Char) :
    List Char × Option (List Char) × List Char :=
  (parts.1.map Char.toLower, parts.2.1.map (List.map Char.toLower), parts.2.2.map Char.toLower)

theorem splitFacets_map_toLower (s : List Char) :
    splitFacets (s.map Char.toLower) = (splitFacets s).map lowerParts := by
  unfold splitFacets
  rw [span_map_toLower (by decide)]
  rcases s.span (· != '(') with ⟨before, _ | ⟨_, rest⟩⟩
  · rfl
  · rw [List.map_cons]
    dsimp only
    rw [span_map_toLower (by decide)]
    rcases rest.span (· != ')') with ⟨inside, _ | ⟨_, qualifier⟩⟩
    · rfl
    · rw [List.map_cons]
      dsimp only
      rw [contains_map_toLower (by decide), contains_map_toLower (by decide),
        contains_map_toLower (by decide)]
      split <;> rfl

theorem readFacets_map_toLower (s : List Char) :
    readFacets (s.map Char.toLower) = readFacets s := by
  rw [readFacets, readFacets, List.splitOn, List.splitOn,
    splitOnP_map_toLower (toLower_beq (by decide)), List.mapM_map]
  congr 1
  funext facet
  rw [Function.comp_apply, trim_map_toLower, readCount_map_toLower]

theorem normalWords_map_toLower (s : List Char) :
    normalWords (s.map Char.toLower) = normalWords s := by
  rw [normalWords_eq, normalWords_eq, words_map_toLower, List.map_map]
  congr 1
  apply List.map_congr_left
  intro w _
  rw [Function.comp_apply, List.map_map]
  exact List.map_congr_left fun c _ => toLower_toLower c

/-- **A name is read like the same name in lower case.** -/
theorem parse_toLower_iff : parse name.toLower = .ok t ↔ parse name = .ok t := by
  have hname : trim name.toLower.toList = (trim name.toList).map Char.toLower := by
    rw [toList_toLower, trim_map_toLower]
  have hspace : ∀ before qualifier : List Char,
      before.map Char.toLower ++ ' ' :: qualifier.map Char.toLower
        = (before ++ ' ' :: qualifier).map Char.toLower := by
    intro before qualifier
    rw [List.map_append, List.map_cons]
    rfl
  have hread : ∀ inside : Option (List Char),
      (inside.map (List.map Char.toLower)).elim (.ok []) readFacets = inside.elim (.ok []) readFacets := by
    rintro (_ | inside)
    · rfl
    · exact readFacets_map_toLower inside
  rw [parse_eq_ok_iff, parse_eq_ok_iff, hname, splitArray_map_toLower]
  simp only [splitFacets_map_toLower]
  constructor
  · rintro ⟨_, _, _, hlower, hfacets, hbase, hne, harray⟩
    obtain ⟨⟨before, inside, qualifier⟩, hs, ⟨⟩⟩ := Option.map_eq_some_iff.1 hlower
    rw [hread] at hfacets
    rw [hspace, normalWords_map_toLower] at hbase
    exact ⟨before, inside, qualifier, hs, hfacets, hbase, hne, harray⟩
  · rintro ⟨before, inside, qualifier, hs, hfacets, hbase, hne, harray⟩
    refine ⟨before.map Char.toLower, inside.map (List.map Char.toLower), qualifier.map Char.toLower,
      ?_, ?_, ?_, hne, harray⟩
    · rw [hs]
      rfl
    · rw [hread, hfacets]
    · rw [hspace, normalWords_map_toLower, hbase]

/-- **Names that differ in the case of letters alone are read alike.** -/
theorem parse_congr_toLower (h : name.toLower = other.toLower) :
    parse name = .ok t ↔ parse other = .ok t := by
  rw [← parse_toLower_iff, h, parse_toLower_iff]

theorem toLower_toUpper (name : String) : name.toUpper.toLower = name.toLower := by
  have hupper : name.toUpper.toList = name.toList.map Char.toUpper := String.toList_map
  rw [← String.toList_inj, toList_toLower, toList_toLower, hupper, List.map_map]
  exact List.map_congr_left fun c _ => Text.toLower_toUpper c

/-- **Names are read back.**  What is read of a name is read again of the text that it is written as,
and of the name in capitals. -/
theorem parse_text_and_toUpper (h : parse name = .ok t) :
    parse t.text = .ok t ∧ parse name.toUpper = .ok t :=
  ⟨parse_text (readable_of_parse h), (parse_congr_toLower (toLower_toUpper name)).2 h⟩

/-- A facet with a sign and a zero in front of it, a qualifier behind a no-break space, and an array
suffix after a blank. -/
theorem parse_text_and_toUpper_instants :
    parse "\tTimeStamp ( +03 )with\u00a0 Time zone [] " = .ok ⟨"timestamp with time zone", [3], true⟩ ∧
      parse "timestamp with time zone(3)[]" = .ok ⟨"timestamp with time zone", [3], true⟩ ∧
      parse "\tTIMESTAMP ( +03 )WITH\u00a0 TIME ZONE [] "
        = .ok ⟨"timestamp with time zone", [3], true⟩ := by
  have h : parse "\tTimeStamp ( +03 )with\u00a0 Time zone [] "
      = .ok ⟨"timestamp with time zone", [3], true⟩ :=
    Success.toOption_eq_some_iff.1 (by decide +kernel)
  have htext : text ⟨"timestamp with time zone", [3], true⟩ = "timestamp with time zone(3)[]" := by
    decide +kernel
  have hupper : "\tTimeStamp ( +03 )with\u00a0 Time zone [] ".toUpper
      = "\tTIMESTAMP ( +03 )WITH\u00a0 TIME ZONE [] " := by
    decide +kernel
  obtain ⟨hread, hcapitals⟩ := parse_text_and_toUpper h
  rw [htext] at hread
  rw [hupper] at hcapitals
  exact ⟨h, hread, hcapitals⟩

end StoreType

end PgFragment
