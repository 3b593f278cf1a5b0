import PgFragment.Proofs.Mapping.RegisteredEnums
import PgFragment.Proofs.StoreTypeCase

namespace PgFragment

/-!
# Names of enumerations

An enumeration is registered under its name as it is spelled.  Its type is looked up by that spelling,
but the name of a store type is read in lower case first, and what was read is looked up.  So an
enumeration whose name has capitals is not found by its own name; another one is, if there is one
under the name in lower case.

* `Text.isIdentifierName` — names that SQL takes without quotes, in either case.
* `Catalog.findByName_toLower` — the case of letters does not matter to a look-up by name.
* `Catalog.findByName_of_isIdentifierName` — what an identifier is found as.
* `Catalog.findByName_eq_findByType_enum_iff` — an enumeration is found both ways exactly when its
  name is in lower case.
-/

/-! ### Identifiers in either case -/

namespace Text

variable {c : Char} {name : String}

/-- A letter of either case or an underscore, and behind it letters, digits and underscores. -/
def isIdentifierName (name : String) : Bool :=
  match name.toList with
  | [] => false
  | c :: rest => (c.isAlpha || c == '_') && rest.all fun d => d.isAlphanum || d == '_'

/-- What has a small letter in lower case is a letter. -/
theorem isLower_toLower (c : Char) : c.toLower.isLower = c.isAlpha := by
  rw [Bool.eq_iff_iff, isLower_iff, isAlpha_iff]
  by_cases hcapital : 65 ≤ c.toNat ∧ c.toNat ≤ 90
  · have hsmall := toNat_toLower hcapital
    omega
  · rw [toLower_eq_self hcapital]
    omega

theorem isNameStart_toLower (c : Char) : isNameStart c.toLower = (c.isAlpha || c == '_') := by
  rw [isNameStart, isLower_toLower, toLower_beq (by decide)]

theorem isDigit_toLower (c : Char) : c.toLower.isDigit = c.isDigit := by
  rcases toLower_cases c with h | ⟨⟨hlow, -⟩, h⟩
  · rw [h]
  · -- A capital is no digit, and neither is the small letter.
    rw [isDigit_eq_false_of_lt (by omega), isDigit_eq_false_of_lt (by omega)]

theorem isNamePart_toLower (c : Char) : isNamePart c.toLower = (c.isAlphanum || c == '_') := by
  rw [isNamePart, isNameStart_toLower, isDigit_toLower, Char.isAlphanum, Bool.or_right_comm]

/-- **An identifier is a lower-case name in some letter case.** -/
theorem isLowerName_toLower (name : String) :
    isLowerName name.toLower = isIdentifierName name := by
  unfold isLowerName isIdentifierName
  rw [toList_toLower]
  cases name.toList with
  | nil => rfl
  | cons c rest =>
    simp only [List.map_cons, List.all_map, Function.comp_def, isNameStart_toLower,
      isNamePart_toLower]

theorem isBlank_of_isNamePart (h : isNamePart c = true) : isBlank c = false := by
  rw [isNamePart, Bool.or_eq_true] at h
  rcases h with h | h
  · exact isBlank_of_isNameStart h
  · exact isBlank_eq_false_of_isDigit h

theorem toLower_of_isNamePart (h : isNamePart c = true) : c.toLower = c := by
  rcases toLower_cases c with hlower | ⟨⟨hlow, hhigh⟩, -⟩
  · exact hlower
  · rw [isNamePart, Bool.or_eq_true] at h
    rcases h with h | h
    · exact toLower_of_isNameStart h
    · rw [isDigit_eq_false_of_lt (by omega)] at h
      cases h

theorem isWord_of_isLowerName (h : isLowerName name = true) : IsWord name.toList := by
  obtain ⟨c, cs, hcs, -⟩ := exists_isNameStart h
  exact ⟨by simp [hcs], fun d hd => isBlank_of_isNamePart (isNamePart_of_mem h hd)⟩

end Text

open Text

namespace StoreType

variable {name : String}

/-- A lower-case name is one word in its normal form, and nothing of it is taken off. -/
theorem readable_of_isLowerName (h : isLowerName name = true) (facets : List UInt32)
    (isArray : Bool) : Readable ⟨name, facets, isArray⟩ := by
  have hpart : ∀ c ∈ name.toList, isNamePart c = true := fun _ => isNamePart_of_mem h
  have hlower : name.toList.map Char.toLower = name.toList := by
    conv_rhs => rw [← List.map_id name.toList]
    exact List.map_congr_left fun c hc => toLower_of_isNamePart (hpart c hc)
  refine ⟨?_, (isWord_of_isLowerName h).1, ?_, ?_, ?_⟩
  · rw [normalWords_eq, words_eq_singleton (isWord_of_isLowerName h)]
    simpa using hlower
  · exact fun hmem => absurd (hpart _ hmem) (by decide)
  · exact fun _ hmem => absurd (hpart _ hmem) (by decide)
  · exact fun _ _ hsuffix => absurd (hpart _ (hsuffix.mem (List.mem_cons_self))) (by decide)

/-- **An identifier is read as the name in lower case**, without facets. -/
theorem parse_of_isIdentifierName (h : isIdentifierName name = true) :
    parse name = .ok ⟨name.toLower, [], false⟩ := by
  have hread := readable_of_isLowerName ((isLowerName_toLower name).trans h) [] false
  have htext : text ⟨name.toLower, [], false⟩ = name.toLower := by
    simp [text]
  have hparse := parse_text hread
  rw [htext] at hparse
  exact parse_toLower_iff.1 hparse

end StoreType

/-! ### Enumerations by name and by type -/

theorem isEnum_of_mem_builtin : ∀ m ∈ builtinScalars ++ builtinRanges, m.kind.isEnum = false := by
  decide

theorem Mapping.enumeration_inj {name other : String} :
    Mapping.enumeration name = .enumeration other ↔ name = other := by
  constructor
  · intro h
    exact (HostType.enum.inj (congrArg Mapping.type h))
  · rintro rfl
    rfl

namespace Catalog

variable {catalog : Catalog} {names : List String} {name : String}

/-- **The case of letters does not matter to a look-up by name.** -/
theorem findByName_toLower (catalog : Catalog) (name : String) :
    catalog.findByName name.toLower = catalog.findByName name := by
  have hread : (StoreType.parse name.toLower).toOption = (StoreType.parse name).toOption := by
    ext t
    rw [Success.toOption_eq_some_iff, Success.toOption_eq_some_iff, StoreType.parse_toLower_iff]
  rw [findByName, findByName, hread]

/-- **An identifier is found as what is built in under the name in lower case**, or else as the
enumeration of that name. -/
theorem findByName_of_isIdentifierName (h : isIdentifierName name = true) :
    catalog.findByName name = (builtinNamed? name.toLower).or (catalog.enum? name.toLower) := by
  have hread := Success.toOption_eq_some_iff.2 (StoreType.parse_of_isIdentifierName h)
  unfold findByName
  simp only [hread, Option.bind_eq_bind, Option.bind_some, faceted?, Bool.false_eq_true, if_false]
  exact Option.bind_fun_some _

/-- An enumeration is found by a name only if that is its own in lower case. -/
theorem toLower_eq_of_findByName (h : isIdentifierName name = true) {other : String}
    (hfound : catalog.findByName name = some (.enumeration other)) : name.toLower = other := by
  rw [findByName_of_isIdentifierName h] at hfound
  rcases Option.or_eq_some_iff.1 hfound with hbuiltin | ⟨-, henum⟩
  · -- No built-in mapping is one of an enumeration.
    have hkind := isEnum_of_mem_builtin _ (List.mem_of_find?_eq_some hbuiltin)
    cases hkind
  · exact (Mapping.enumeration_inj.1 (enum?_eq_some_iff.1 henum).2).symm

/-- **Enumerations by name and by type.**  Whatever the server and the registered enumerations, one
whose name is an identifier and not built in is found by its type, and by its name as the name in
lower case is; so the two agree exactly when the name is in lower case. -/
theorem findByName_eq_findByType_enum_iff (options : Options) (hmem : name ∈ names)
    (hname : isIdentifierName name = true) (hbuiltin : name ∉ builtinNames) :
    ((ofOptions options).registering names).findByType (.enum name) = some (.enumeration name) ∧
      ((ofOptions options).registering names).findByName name
        = ((ofOptions options).registering names).findByName name.toLower ∧
      (((ofOptions options).registering names).findByName name
          = ((ofOptions options).registering names).findByType (.enum name) ↔
        name.toLower = name) := by
  have henums : name ∈ ((ofOptions options).registering names).enums := by
    rw [enums_registering]
    exact List.mem_append_right _ hmem
  have henum := enum?_eq_some_iff.2 ⟨henums, rfl⟩
  have htype : ((ofOptions options).registering names).findByType (.enum name)
      = some (.enumeration name) := henum
  refine ⟨htype, (findByName_toLower _ name).symm, ?_⟩
  rw [htype]
  constructor
  · exact toLower_eq_of_findByName hname
  · -- In lower case the name means itself, and nothing built in stands in front of it.
    intro hlower
    have hnone : builtinNamed? name = none :=
      Option.not_isSome_iff_eq_none.1 fun h => hbuiltin (isSome_builtinNamed?_iff.1 h)
    rw [findByName_of_isIdentifierName hname, hlower, hnone, Option.none_or, henum]

/-- Two enumerations whose names differ in a capital are each found by its type, and by either name
the one in lower case is found. -/
theorem findByName_eq_findByType_enum_iff_order_status :
    ((ofOptions {}).registering ["Order_Status", "order_status"]).findByType (.enum "order_status")
        = some (.enumeration "order_status") ∧
      ((ofOptions {}).registering ["Order_Status", "order_status"]).findByName "order_status"
        = ((ofOptions {}).registering ["Order_Status", "order_status"]).findByType
            (.enum "order_status") ∧
      ((ofOptions {}).registering ["Order_Status", "order_status"]).findByName "Order_Status"
        ≠ ((ofOptions {}).registering ["Order_Status", "order_status"]).findByType
            (.enum "Order_Status") := by
  have hsmall : "order_status" ∈ ["Order_Status", "order_status"] := by decide
  have hlarge : "Order_Status" ∈ ["Order_Status", "order_status"] := by decide
  obtain ⟨htype, -, hlower⟩ :=
    findByName_eq_findByType_enum_iff {} hsmall (by decide +kernel) (by decide)
  obtain ⟨-, -, hcapital⟩ :=
    findByName_eq_findByType_enum_iff {} hlarge (by decide +kernel) (by decide)
  exact ⟨htype, hlower.2 (by decide +kernel), fun h => absurd (hcapital.1 h) (by decide +kernel)⟩

/-- An enumeration with a capital in its name is found by its type and by no name. -/
theorem findByName_mood_capital :
    isIdentifierName "Mood" = true ∧ "Mood" ∉ builtinNames ∧
      ((ofOptions {}).registering ["Mood"]).findByType (.enum "Mood")
        = some (.enumeration "Mood") ∧
      ((ofOptions {}).registering ["Mood"]).findByName "Mood" = none := by
  refine ⟨by decide +kernel, by decide, rfl, by decide +kernel⟩

end Catalog

end PgFragment
