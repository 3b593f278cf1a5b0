import PgFragment.Proofs.Rule.LoweredCalls

namespace PgFragment

/-!
# What the rules for members offer

A member of an instance that renders is lowered to an expression that renders too, with one
exception.  A property of a document that does not stay JSON is cast to the type that it is read as,
and the rule for documents offers the cast whether or not that type has a store type to name.

* `Catalog.renders_jsonProperty_iff` — when a property renders.
* `Registry.members_render_iff` — hence, whatever rule offers it, when a member does.
* `Registry.members_claim_unmapped` — a property that is offered and cannot be written.
-/

/-- A property is read as something that stays JSON or as a type with a default mapping. -/
def MemberAccess.IsReadable (catalog : Catalog) (access : MemberAccess) : Prop :=
  ∀ name, access.member = .property name →
    access.returnType.staysJson = true ∨ catalog.findByType access.returnType ≠ none

variable {catalog : Catalog} {flavor : Flavor} {access : MemberAccess}

/-- Only properties are read as a type of the caller's choice. -/
theorem MemberAccess.isReadable_of_ne (h : ∀ name, access.member ≠ .property name) :
    access.IsReadable catalog := by
  intro name hname
  exact absurd hname (h name)

namespace Catalog

variable {e step : Expr}

/-! ### Steps into a document -/

/-- A step renders as the document and what is stepped to do, in a new path or at the end of one. -/
theorem renders_stepInto (he : e.Renders flavor) (hstep : step.Renders flavor) (asText : Bool)
    (type : HostType) (mapping : Option Mapping) :
    (catalog.stepInto e step asText type mapping).Renders flavor := by
  unfold stepInto
  split
  · next document steps _ _ =>
    have hparts := (Expr.renders_iff.1 he).2
    refine Expr.renders_iff.2 ⟨fun _ => rfl, ?_⟩
    intro p hp
    simp only [Expr.parts, List.mem_cons, List.mem_append, List.not_mem_nil, or_false] at hp hparts
    rcases hp with rfl | hp | rfl
    · exact hparts p (.inl rfl)
    · exact hparts p (.inr hp)
    · exact hstep
  · refine renders_jsonPath he ?_ asText type mapping
    intro s hs
    rwa [List.mem_singleton.1 hs]

/-- **A property renders exactly when it stays JSON or its type has a mapping to cast to.** -/
theorem renders_jsonProperty_iff (he : e.Renders flavor) (name : String) (type : HostType) :
    (catalog.jsonProperty e name type).Renders flavor ↔
      type.staysJson = true ∨ catalog.findByType type ≠ none := by
  have hpath : ∀ asText type mapping,
      (catalog.stepInto e (catalog.text name) asText type mapping).Renders flavor := by
    intro asText type mapping
    exact renders_stepInto he (renders_text name) asText type mapping
  unfold jsonProperty
  by_cases hjson : type.staysJson = true
  · rw [if_pos hjson]
    exact ⟨fun _ => .inl hjson, fun _ => hpath _ _ _⟩
  · rw [if_neg hjson]
    by_cases hstring : type = .string
    · -- Text needs no cast, and has a mapping in every catalog.
      subst hstring
      exact ⟨fun _ => .inr (Option.some_ne_none Mapping.text), fun _ => hpath _ _ _⟩
    · show (if type = .string then _ else _ : Expr).Renders flavor ↔ _
      rw [if_neg hstring, renders_convert_iff (hpath _ _ _), Option.none_or]
      exact ⟨.inr, fun h => h.resolve_left hjson⟩

theorem renders_lowerJsonLength {m : Mapping} {length : Expr} (he : e.Renders flavor)
    (h : catalog.lowerJsonLength m e = .lowered length) : length.Renders flavor := by
  unfold lowerJsonLength at h
  split at h
  · cases h
    -- The path taken as text has the parts that it had as JSON.
    exact renders_functionOf _ (Expr.renders_iff.2 ⟨fun _ => rfl, (Expr.renders_iff.1 he).2⟩)
  · cases h
    exact renders_functionOf _ he
  · cases h
    exact renders_functionOf _ he
  · cases h

/-! ### Stored values -/

theorem renders_arrayLength (redshift : Bool) (he : e.Renders flavor) :
    (catalog.arrayLength redshift e).Renders flavor := by
  have hone : (catalog.constant .one).Renders flavor := renders_constant rfl rfl
  unfold arrayLength
  split
  · exact renders_functionOfBoth _ he hone
  · exact renders_functionOf _ he

theorem renders_datePart (field : String) (he : e.Renders flavor) :
    (catalog.datePart field e).Renders flavor :=
  renders_functionOfBoth _ (renders_text field) he

/-- A number of parts is cast to the integers, which have a mapping in every catalog. -/
theorem renders_toInteger (he : e.Renders flavor) :
    (catalog.convert e (.int .i32) none).Renders flavor :=
  (renders_convert_iff he).2 (Option.some_ne_none Mapping.integer)

end Catalog

/-! ### The rules -/

namespace Rule

/-- The rule takes no property, and what it offers for an instance that renders does so too. -/
def RendersStored (flavor : Flavor) (rule : Rule MemberAccess) : Prop :=
  rule.Satisfies fun access e => (∀ i ∈ access.instance?, i.Renders flavor) →
    (∀ name, access.member ≠ .property name) ∧ e.Renders flavor

theorem arrayLength_renders (redshift : Bool) :
    (arrayLength catalog redshift).RendersStored flavor := by
  intro access e h hi
  unfold arrayLength at h
  dsimp only at h
  split at h
  · next i hinstance hmember =>
    split at h
    · cases h
      exact ⟨by simp [hmember], Catalog.renders_arrayLength redshift (hi i hinstance)⟩
    · cases h
  · next i hinstance hmember =>
    split at h
    · cases h
      exact ⟨by simp [hmember], Catalog.renders_arrayLength redshift (hi i hinstance)⟩
    · cases h
  · cases h

theorem dateTimeParts_renders : (dateTimeParts catalog).RendersStored flavor := by
  intro access e h hi
  unfold dateTimeParts at h
  dsimp only at h
  split at h
  · next i hinstance =>
    have hinst := hi i hinstance
    split at h
    · split at h
      · next part hmember =>
        cases h
        refine ⟨by simp [hmember], Catalog.renders_toInteger ?_⟩
        split
        · exact Catalog.renders_functionOf _ (Catalog.renders_datePart _ hinst)
        · exact Catalog.renders_datePart _ hinst
      · next hmember =>
        cases h
        exact ⟨by simp [hmember], Catalog.renders_functionOfBoth _ (Catalog.renders_text _) hinst⟩
      · cases h
    · cases h
  · cases h

theorem stringLength_renders : (stringLength catalog).RendersStored flavor := by
  intro access e h hi
  unfold stringLength at h
  dsimp only at h
  split at h
  · next i hinstance hmember =>
    split at h
    · cases h
      exact ⟨by simp [hmember], Catalog.renders_functionOf _ (hi i hinstance)⟩
    · cases h
  · cases h

theorem timeSpanParts_renders : (timeSpanParts catalog).RendersStored flavor := by
  intro access e h hi
  unfold timeSpanParts at h
  dsimp only at h
  split at h
  · next i part hinstance hmember =>
    split at h
    · cases h
      have hpart : (catalog.datePart part.field i).Renders flavor :=
        Catalog.renders_datePart part.field (hi i hinstance)
      exact ⟨by simp [hmember], Catalog.renders_toInteger (Catalog.renders_functionOf _ hpart)⟩
    · cases h
  · cases h

/-- What the rule for documents offers renders exactly when it is read as something readable. -/
theorem document_renders :
    (document catalog).Satisfies fun access e => (∀ i ∈ access.instance?, i.Renders flavor) →
      (e.Renders flavor ↔ access.IsReadable catalog) := by
  intro access e h hi
  have hlength : ∀ {i : Expr} {m : Mapping}, access.instance? = some i →
      (∀ name, access.member ≠ .property name) → catalog.lowerJsonLength m i = .lowered e →
      (e.Renders flavor ↔ access.IsReadable catalog) := by
    intro i m hinstance hmember h
    have he := Catalog.renders_lowerJsonLength (hi i hinstance) h
    exact iff_of_true he (MemberAccess.isReadable_of_ne hmember)
  unfold document at h
  dsimp only at h
  split at h
  · cases h
  · next i hinstance =>
    split at h
    · cases h
    · split at h
      · split at h
        · next name hmember =>
          cases h
          rw [Catalog.renders_jsonProperty_iff (hi i hinstance)]
          constructor
          · exact fun hread _ _ => hread
          · exact fun hread => hread name hmember
        · next hmember => exact hlength hinstance (by simp [hmember]) h
        · next hmember => exact hlength hinstance (by simp [hmember]) h
        · cases h
      · cases h

/-- A rule that takes no property offers only what renders, and only what is readable. -/
theorem RendersStored.satisfies {rule : Rule MemberAccess} (h : rule.RendersStored flavor) :
    rule.Satisfies fun access e => (∀ i ∈ access.instance?, i.Renders flavor) →
      (e.Renders flavor ↔ access.IsReadable catalog) := by
  intro access e hlower hi
  obtain ⟨hmember, he⟩ := h access e hlower hi
  exact iff_of_true he (MemberAccess.isReadable_of_ne hmember)

end Rule

namespace Registry

/-- **When a member renders.**  The expression that a member of an instance that renders becomes can
be written in every case but one: a property of a document cannot when it is read as a type that
neither stays JSON nor has a default mapping. -/
theorem members_render_iff (catalog : Catalog) (options : Options) (flavor : Flavor)
    (access : MemberAccess) (e : Expr) (hi : ∀ i ∈ access.instance?, i.Renders flavor)
    (h : (members catalog options).lower access = some e) :
    e.Renders flavor ↔ access.IsReadable catalog := by
  have hrules : ∀ rule ∈ members catalog options, rule.Satisfies fun access e =>
      (∀ i ∈ access.instance?, i.Renders flavor) →
        (e.Renders flavor ↔ access.IsReadable catalog) := by
    intro rule hrule
    simp only [members, List.mem_cons, List.not_mem_nil, or_false] at hrule
    rcases hrule with rfl | rfl | rfl | rfl | rfl
    · exact (Rule.arrayLength_renders options.redshift).satisfies
    · exact Rule.dateTimeParts_renders.satisfies
    · exact Rule.document_renders
    · exact Rule.stringLength_renders.satisfies
    · exact Rule.timeSpanParts_renders.satisfies
  exact satisfies hrules h hi

/-- The property `Mood` of a document, read as a type. -/
def moodAs (type : HostType) : MemberAccess where
  instance? := some (.column
    { table := "t", name := "customer", type := .scalar .json, mapping := some .jsonb })
  member := .property "Mood"
  returnType := type

/-- Read as an enumeration that the catalog holds, the property renders. -/
theorem members_render_iff_mood :
    ∃ e, (members ⟨true, ["mood"]⟩ {}).lower (moodAs (.enum "mood")) = some e ∧
      e.Renders .postgresql := by
  have hi : ∀ i ∈ (moodAs (.enum "mood")).instance?, i.Renders .postgresql := by
    intro i hi
    cases hi
    exact ⟨"t.customer", by rfl⟩
  refine ⟨_, rfl, (members_render_iff ⟨true, ["mood"]⟩ {} .postgresql _ _ hi rfl).2 ?_⟩
  intro name _
  exact .inr (by decide)

/-- Read as an enumeration that the catalog does not hold, it is offered all the same, as a cast
that names no store type. -/
theorem members_claim_unmapped :
    ∃ e, (members ⟨true, []⟩ {}).lower (moodAs (.enum "mood")) = some e ∧
      e.render .postgresql = .error (.castWithoutMapping (.enum "mood")) :=
  ⟨_, rfl, rfl⟩

end Registry

end PgFragment
