import PgFragment.Mapping.Catalog
import PgFragment.Mapping.Literal

namespace PgFragment

/-!
# Quoted literals

Text goes into SQL between single quotes, and whatever is pasted behind the literal, the reader of
SQL strings must find exactly the text that went in.  The kinds that quote text are listed once, by
`ScalarKind.quotedPart?`, with the cast that each of them writes behind the closing quote.
-/

open Text

/-- What a kind writes between quotes for a value, and what it writes behind them; none for the
values that it does not quote. -/
def ScalarKind.quotedPart? : ScalarKind → Value → Option (String × String)
  | .text, .string s | .character, .string s | .regconfig, .string s => some (s, "")
  | .text, .char c | .character, .char c => some (String.ofList [c], "")
  | .json, .string s => some (s, "::json")
  | .jsonb, .string s => some (s, "::jsonb")
  | .enum name, .string s | .enum name, .enum s => some (s, "::" ++ name)
  | _, _ => none

variable {kind : ScalarKind} {value : Value} {s cast : String}

/-- A quoted literal is the text between quotes and the cast. -/
theorem ScalarKind.literal?_of_quotedPart? (h : kind.quotedPart? value = some (s, cast)) :
    kind.literal? value = some (quotedLiteral s ++ cast) := by
  unfold quotedPart? at h
  split at h
  case h_10 => cases h
  all_goals
    simp only [Option.some.injEq, Prod.mk.injEq] at h
    obtain ⟨rfl, rfl⟩ := h
    simp [literal?, String.append_assoc]

theorem ScalarKind.isNull_of_quotedPart? (h : kind.quotedPart? value = some (s, cast)) :
    value.isNull = false := by
  cases value with
  | null => cases kind <;> cases h
  | _ => rfl

/-- What the casts write behind the closing quote never begins with another quote. -/
theorem ScalarKind.head?_cast_append (h : kind.quotedPart? value = some (s, cast))
    {rest : List Char} (hr : rest.head? ≠ some '\x27') :
    (cast.toList ++ rest).head? ≠ some '\x27' := by
  unfold quotedPart? at h
  split at h
  case h_10 => cases h
  all_goals
    simp only [Option.some.injEq, Prod.mk.injEq] at h
    obtain ⟨-, rfl⟩ := h
    simp [hr]

/-- **A quoted literal cannot be escaped from.**  Whatever follows the literal, unless it begins
with a quote, the reader of SQL strings finds the text of the value in it, and behind the closing
quote the cast and what follows. -/
theorem readQuoted_literal {m : Mapping} (hk : m.kind = .scalar kind)
    (hq : kind.quotedPart? value = some (s, cast)) :
    ∃ text, m.literal value = .ok text ∧
      ∀ rest : List Char, rest.head? ≠ some '\x27' →
        readQuoted '\x27' (text.toList ++ rest) = some (s.toList, cast.toList ++ rest) := by
  cases m with
  | container shape element params => cases hk
  | scalar k params =>
    -- The cast stands between the closing quote and what follows the literal.
    obtain rfl : k = kind := by simpa [Mapping.kind] using hk
    refine ⟨quotedLiteral s ++ cast, ?_, fun rest hr => ?_⟩
    · simp [Mapping.literal, ScalarKind.isNull_of_quotedPart? hq,
        ScalarKind.literal?_of_quotedPart? hq]
    · have hread := readQuoted_quoted s.toList (ScalarKind.head?_cast_append hq hr)
      simpa [quotedLiteral, quotedString] using hread

/-- A document of quotes alone, in front of a comment. -/
theorem readQuoted_literal_quotes :
    (Mapping.jsonb).kind = .scalar .jsonb ∧
      (ScalarKind.jsonb).quotedPart? (.string "'' OR '") = some ("'' OR '", "::jsonb") ∧
      ∃ text, (Mapping.jsonb).literal (.string "'' OR '") = .ok text ∧
        readQuoted '\x27' (text.toList ++ " -- ".toList)
          = some ("'' OR '".toList, "::jsonb".toList ++ " -- ".toList) := by
  have hk : (Mapping.jsonb).kind = .scalar .jsonb := rfl
  have hq : (ScalarKind.jsonb).quotedPart? (.string "'' OR '") = some ("'' OR '", "::jsonb") := rfl
  obtain ⟨text, htext, hread⟩ := readQuoted_literal hk hq
  exact ⟨hk, hq, text, htext, hread _ (by decide)⟩

end PgFragment
