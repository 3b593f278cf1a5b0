import PgFragment.Expr.Render
import PgFragment.Proofs.Rule.MemberOrder

namespace PgFragment

/-!
# Paths of properties

Properties of properties of a document make one path, as long as each of them stays JSON: a property
that does keeps the mapping of the document, and the next one makes the path longer.  The last
property ends the path in text, which is cast unless text is wanted.

* `Registry.readProperty_eq` — every property of a document is lowered by the rule for documents.
* `Expr.descend` — where properties that stay JSON lead to.
* `Registry.readProperties_descend` — they are lowered to that, one after another.
* `Registry.exists_readProperties` — the expression for a value at the end of such a path.
-/

variable {catalog : Catalog} {options : Options} {root e : Expr} {m : Mapping}

/-- A property by its name, and the type that it is read as. -/
structure PropertyAs where
  name : String
  type : HostType

/-- The step of a path that leads to the property. -/
def PropertyAs.step (property : PropertyAs) : Expr :=
  .constant (.string property.name) (some .text)

/-! ### One property -/

namespace Registry

/-- The expression for a property of a value. -/
def readProperty (rules : Registry MemberAccess) (e : Expr) (property : PropertyAs) : Option Expr :=
  rules.lower
    { instance? := some e, member := .property property.name, returnType := property.type }

/-- The expression for a property of a property of a value, and so on; none when one of them is not
lowered. -/
def readProperties (rules : Registry MemberAccess) (root : Expr) (properties : List PropertyAs) :
    Option Expr :=
  properties.foldlM rules.readProperty root

/-- **Properties of documents are lowered by the rule for documents**, whatever their types are. -/
theorem readProperty_eq (property : PropertyAs) (hm : e.mapping = some m)
    (hjson : m.kind.isJson = true) :
    (members catalog options).readProperty e property
      = some (catalog.jsonProperty e property.name property.type) := by
  have hrule : (Rule.document catalog).lower ⟨some e, .property property.name, property.type⟩
      = .lowered (catalog.jsonProperty e property.name property.type) := by
    simp only [Rule.document, hm]
    rw [if_pos hjson]
  have hmem : Rule.document catalog ∈ members catalog options := by simp [members]
  have honly : ∀ q ∈ members catalog options,
      q.Takes ⟨some e, .property property.name, property.type⟩ → q ∈ [Rule.document catalog] :=
    fun _ => mem_membersAbout rfl
  rw [readProperty, lower_eq_of_sublist (List.singleton_sublist.2 hmem)
    (nodup_members catalog options) honly, lower, claim?, List.findSome?_cons, hrule]
  rfl

end Registry

/-! ### Going down -/

namespace Expr

/-- Where properties that stay JSON lead to: the end of a path with the mapping of the document, and
the document itself when there are none. -/
def descend (root : Expr) (properties : List PropertyAs) : Expr :=
  match properties.getLast? with
  | none => root
  | some last => .jsonPath root (properties.map PropertyAs.step) false last.type root.mapping

theorem descend_append (root : Expr) (front : List PropertyAs) (last : PropertyAs) :
    root.descend (front ++ [last])
      = .jsonPath root ((front ++ [last]).map PropertyAs.step) false last.type root.mapping := by
  rw [descend, List.getLast?_concat]

theorem mapping_descend (root : Expr) (properties : List PropertyAs) :
    (root.descend properties).mapping = root.mapping := by
  unfold descend
  split <;> rfl

end Expr

namespace Catalog

variable {properties : List PropertyAs} {property : PropertyAs}

/-- **A step from where properties lead to makes their path longer**, or starts one. -/
theorem stepInto_descend (hroot : root.node ≠ .jsonPath) (asText : Bool) (type : HostType)
    (mapping : Option Mapping) :
    catalog.stepInto (root.descend properties) property.step asText type mapping
      = .jsonPath root ((properties ++ [property]).map PropertyAs.step) asText type mapping := by
  rcases List.eq_nil_or_concat properties with rfl | ⟨front, last, rfl⟩
  · have hstart : catalog.stepInto root property.step asText type mapping
        = catalog.jsonPath root [property.step] asText type mapping := by
      unfold stepInto
      split
      · exact absurd rfl hroot
      · rfl
    exact hstart
  · rw [List.concat_eq_append, Expr.descend_append, stepInto]
    simp only [List.map_append]
    rfl

/-- A property that stays JSON leads further down. -/
theorem jsonProperty_of_staysJson (hroot : root.node ≠ .jsonPath)
    (hstays : property.type.staysJson = true) :
    catalog.jsonProperty (root.descend properties) property.name property.type
      = root.descend (properties ++ [property]) := by
  have htext : catalog.text property.name = property.step := rfl
  rw [jsonProperty, if_pos hstays, root.mapping_descend, htext, stepInto_descend hroot,
    Expr.descend_append]

/-- A property that does not ends the path in text, which is cast unless text is wanted. -/
theorem jsonProperty_of_not_staysJson (hroot : root.node ≠ .jsonPath)
    (hends : property.type.staysJson = false) :
    catalog.jsonProperty (root.descend properties) property.name property.type
      = if property.type = .string then
          .jsonPath root ((properties ++ [property]).map PropertyAs.step) true .string (some .text)
        else
          .cast
            (.jsonPath root ((properties ++ [property]).map PropertyAs.step) true .string
              (some .text))
            property.type (catalog.findByType property.type) := by
  have htext : catalog.text property.name = property.step := rfl
  rw [jsonProperty, if_neg (by simp [hends]), htext, stepInto_descend hroot]
  rfl

end Catalog

/-! ### One property after another -/

namespace Registry

/-- **Properties that stay JSON are lowered to where they lead to**, from wherever others led. -/
theorem readProperties_descend (hm : root.mapping = some m) (hjson : m.kind.isJson = true)
    (hroot : root.node ≠ .jsonPath) (front properties : List PropertyAs)
    (hproperties : ∀ p ∈ properties, p.type.staysJson = true) :
    (members catalog options).readProperties (root.descend front) properties
      = some (root.descend (front ++ properties)) := by
  -- Induction on the properties that are left, from wherever the ones before have led.
  induction properties generalizing front with
  | nil => rw [List.append_nil]; rfl
  | cons p rest ih =>
    obtain ⟨hp, hrest⟩ := List.forall_mem_cons.1 hproperties
    have hmapping : (root.descend front).mapping = some m := (root.mapping_descend front).trans hm
    have hnext := ih (front ++ [p]) hrest
    rw [List.append_assoc, List.singleton_append] at hnext
    rw [readProperties, List.foldlM_cons, readProperty_eq p hmapping hjson,
      Catalog.jsonProperty_of_staysJson hroot hp]
    exact hnext

/-- **Properties of properties make one path.**  Every one of them is lowered, and the last one to
the path from the document along all their names, taken as text, and cast unless text is wanted. -/
theorem exists_readProperties (catalog : Catalog) (options : Options) (root : Expr) (m : Mapping)
    (hm : root.mapping = some m) (hjson : m.kind.isJson = true) (hroot : root.node ≠ .jsonPath)
    (front : List PropertyAs) (hfront : ∀ p ∈ front, p.type.staysJson = true) (last : PropertyAs)
    (hlast : last.type.staysJson = false) :
    ∃ e, (members catalog options).readProperties root (front ++ [last]) = some e ∧
      e.type = last.type ∧
        let path := Expr.jsonPath root ((front ++ [last]).map PropertyAs.step) true .string
          (some .text)
        e = if last.type = .string then path
          else .cast path last.type (catalog.findByType last.type) := by
  have hread : (members catalog options).readProperties root (front ++ [last])
      = some (catalog.jsonProperty (root.descend front) last.name last.type) := by
    have hmapping : (root.descend front).mapping = some m := (root.mapping_descend front).trans hm
    have hinner : (members catalog options).readProperties root front = some (root.descend front) :=
      readProperties_descend hm hjson hroot [] front hfront
    rw [readProperties] at hinner
    rw [readProperties, List.foldlM_append, hinner, Option.bind_eq_bind, Option.bind_some,
      List.foldlM_cons, readProperty_eq last hmapping hjson]
    rfl
  refine ⟨_, hread, ?_, Catalog.jsonProperty_of_not_staysJson hroot hlast⟩
  rw [Catalog.jsonProperty_of_not_staysJson hroot hlast]
  split
  · next hstring => exact hstring.symm
  · rfl

/-- A document of a customer. -/
def customer : Expr :=
  .column { table := "t", name := "customer", type := .scalar .json, mapping := some .jsonb }

/-- Three properties down from a document, a number is cast from the text at the end of one path. -/
theorem exists_readProperties_quantity :
    ∃ e, (members ⟨true, []⟩ {}).readProperties customer
        [⟨"Orders", .array (.scalar .json)⟩, ⟨"0", .record [.string]⟩, ⟨"O'Qty", .int .i32⟩] = some e ∧
      e.type = .int .i32 ∧
      e.render .postgresql = .ok "(t.customer->'Orders'->'0'->>'O''Qty')::integer" := by
  have hfront : ∀ p ∈ [PropertyAs.mk "Orders" (.array (.scalar .json)), ⟨"0", .record [.string]⟩],
      p.type.staysJson = true := by
    intro p hp
    simp only [List.mem_cons, List.not_mem_nil, or_false] at hp
    rcases hp with rfl | rfl <;> rfl
  obtain ⟨e, hread, htype, rfl⟩ := exists_readProperties ⟨true, []⟩ {} customer .jsonb rfl rfl
    (by simp [customer, Expr.node]) _ hfront ⟨"O'Qty", .int .i32⟩ rfl
  exact ⟨_, hread, htype, by rfl⟩

end Registry

end PgFragment
