import PgFragment.Proofs.Expr.Renders

namespace PgFragment.Expr

/-!
# Complete trees

Whether an expression has a text is a matter of its single nodes, however deep they stand: no node
adds anything but its own words, and none leaves a part of it unvisited.  For PostgreSQL only casts
and constants can miss something.

* `renders_iff_within` — a tree renders exactly when every node within it has what it writes itself.
* `render_postgresql_succeeds_iff` — for PostgreSQL that is a mapping for every cast, and for every
  constant but null a mapping with a literal for it.
-/

variable {flavor : Flavor} {value : Value} {mapping : Option Mapping}

/-- **A tree renders exactly when every node within it has what it writes itself.** -/
theorem renders_iff_within (e : Expr) :
    e.Renders flavor ↔ ∀ a, Within a e → a.WritesItself flavor :=
  iff_forall_within (fun _ => renders_iff) e

/-- A constant has a text when it is null or its mapping has a literal for it. -/
theorem exists_constantText_iff :
    (∃ text, constantText value mapping = .ok text) ↔
      value = .null ∨ ∃ m, mapping = some m ∧ ∃ text, m.literal value = .ok text := by
  cases mapping with
  | none =>
    -- Without a mapping there is a text for null alone.
    rw [← Value.isNull_iff]
    cases hnull : value.isNull <;> simp [constantText, hnull]
  | some m =>
    constructor
    · rintro ⟨text, h⟩
      exact .inr ⟨m, rfl, text, h⟩
    · rintro (rfl | ⟨n, hn, text, h⟩)
      · exact ⟨"NULL", m.literal_of_isNull rfl⟩
      · obtain rfl := Option.some.inj hn
        exact ⟨text, h⟩

/-- **When an expression has a PostgreSQL text**: exactly when every cast within it has a mapping and
every constant is null or has a mapping with a literal for it. -/
theorem render_postgresql_succeeds_iff (e : Expr) :
    (∃ text, e.render .postgresql = .ok text) ↔
      (∀ operand type mapping, Within (.cast operand type mapping) e → mapping ≠ none) ∧
        ∀ value mapping, Within (.constant value mapping) e →
          value = .null ∨ ∃ m, mapping = some m ∧ ∃ text, m.literal value = .ok text := by
  rw [← Renders, renders_iff_within]
  constructor
  · intro h
    refine ⟨?_, ?_⟩
    · intro operand type mapping ha
      exact h _ ha
    · intro value mapping ha
      exact exists_constantText_iff.1 (h _ ha)
  · rintro ⟨hcasts, hconstants⟩ a ha
    cases a with
    | cast operand type mapping => exact hcasts operand type mapping ha
    | constant value mapping => exact exists_constantText_iff.2 (hconstants value mapping ha)
    -- What the other nodes write themselves is there, apart from Redshift's filters.
    | _ => exact nofun

end PgFragment.Expr
