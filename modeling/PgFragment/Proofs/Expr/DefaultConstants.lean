import PgFragment.Proofs.Expr.CompleteTrees
import PgFragment.Proofs.Mapping.DefaultMappings
import PgFragment.Proofs.Value.Comparison
import PgFragment.Proofs.Value.NestedLists

namespace PgFragment

/-!
# Constants under default mappings

A constant takes the default mapping of the type that its value shows.  Type, mapping and literal go
by cases over the same values, and they fit each other: wherever there is a mapping, it has a literal
for the value, through all layers of lists, as long as the items of each list agree in type.

* `Value.Uniform` — the lists of a value whose items agree in type.
* `Catalog.exists_literal_of_findByType` — the default mapping of a value's type has a literal for it.
* `Catalog.render_constant_succeeds_iff` — a constant has a text exactly when it is null or its type
  has a default mapping.
-/

open Success

/-! ### Lists of one type -/

namespace Value

/-- The value `a` occurs in `v`, as a whole or within a part. -/
inductive Within (a : Value) : Value → Prop
  | self : Within a a
  | part {p v : Value} (hp : p ∈ v.parts) (h : Within a p) : Within a v

/-- The items that are not null have one type. -/
def OneType (items : List Value) : Prop :=
  ∀ a ∈ items, ∀ b ∈ items, a.isNull = false → b.isNull = false → a.type = b.type

/-- Every list within the value is of one type. -/
def Uniform (v : Value) : Prop := ∀ items, Within (.list items) v → OneType items

variable {v p item : Value} {items : List Value}

theorem Uniform.of_mem_parts (h : v.Uniform) (hp : p ∈ v.parts) : p.Uniform := by
  intro items hitems
  exact h items (.part hp hitems)

theorem uniform_list_iff :
    (Value.list items).Uniform ↔ OneType items ∧ ∀ item ∈ items, item.Uniform := by
  constructor
  · intro h
    refine ⟨h items .self, ?_⟩
    intro item hitem
    exact h.of_mem_parts hitem
  · rintro ⟨hself, hitems⟩ inner hinner
    cases hinner with
    | self => exact hself
    | part hp hinner => exact hitems _ hp inner hinner

theorem uniform_of_parts_eq_nil (h : v.parts = []) : v.Uniform := by
  intro items hitems
  cases hitems with
  | self =>
    obtain rfl : items = [] := h
    exact nofun
  | part hp _ =>
    rw [h] at hp
    cases hp

/-- In a list of one type each item is of the type of the items, unless it is null. -/
theorem Uniform.type_of_mem (h : (Value.list items).Uniform) (hitem : item ∈ items)
    (hnull : item.isNull = false) : item.type = itemType items := by
  cases hfirst : first? items with
  | none =>
    have hall := List.find?_eq_none.1 hfirst item hitem
    simp [hnull] at hall
  | some first =>
    rw [itemType_eq, hfirst]
    have hfirstNull : first.isNull = false := by simpa using List.find?_some hfirst
    exact h items .self item hitem first (List.mem_of_find?_eq_some hfirst) hnull hfirstNull

/-- No value shows the type of a range. -/
theorem isRange_type (v : Value) : v.type.isRange = false := by
  cases v <;> rfl

theorem isRange_itemType (items : List Value) : (itemType items).isRange = false := by
  rw [itemType_eq]
  cases first? items with
  | none => rfl
  | some item => exact item.isRange_type

end Value

/-! ### Literals under default mappings -/

/-- The default mapping of a scalar type has a literal for every value that shows the type. -/
theorem ScalarType.exists_literal {type : ScalarType} {v : Value} (h : v.type = .scalar type) :
    ∃ text, type.defaultMapping.literal v = .ok text := by
  cases v with
  | null | enum _ | list _ | record _ => cases h
  | int n =>
    obtain ⟨width, val, hval⟩ := n
    -- Each width has its mapping: integers, and a numeric for the widest.
    obtain rfl := HostType.scalar.inj h
    cases width <;> exact ⟨_, Mapping.literal_of_kind rfl rfl rfl⟩
  | _ =>
    obtain rfl := HostType.scalar.inj h
    exact ⟨_, Mapping.literal_of_kind rfl rfl rfl⟩

/-- An array has a literal for a list when its element has one for each item. -/
theorem Mapping.exists_literal_arrayOf {m : Mapping} {items : List Value}
    (h : ∀ item ∈ items, ∃ text, m.literal item = .ok text) :
    ∃ text, (arrayOf m).literal (.list items) = .ok text := by
  obtain ⟨texts, htexts⟩ := exists_map_eq_ok h
  have hitems : items.mapM (fun item => m.literal item) = .ok texts := mapM_eq_ok_iff.2 htexts
  simp only [arrayOf, ofKind, literal, Value.isNull, Bool.false_eq_true, ↓reduceIte,
    bind_eq_ok_iff]
  exact ⟨_, texts, hitems, rfl⟩

namespace Catalog

variable {catalog : Catalog} {m : Mapping} {v : Value} {items : List Value}

/-- A list takes the array over the default mapping of its items, never a multirange. -/
theorem exists_arrayOf_of_findByType (h : catalog.findByType (Value.list items).type = some m) :
    ∃ below, catalog.findByType (Value.itemType items) = some below ∧ m = .arrayOf below := by
  rw [Value.type, findByType, Option.map_eq_some_iff] at h
  obtain ⟨below, hbelow, rfl⟩ := h
  refine ⟨below, hbelow, ?_⟩
  rw [Value.isRange_itemType, Bool.false_and, if_neg Bool.false_ne_true]

/-- **A default mapping has a literal for the values that it is looked up for.** -/
theorem exists_literal_of_findByType (hv : v.Uniform)
    (hm : catalog.findByType v.type = some m) : ∃ text, m.literal v = .ok text := by
  induction v using Value.induction_on_parts generalizing m with
  | step v ih =>
    cases v with
    | null => exact ⟨"NULL", m.literal_of_isNull rfl⟩
    | list items =>
      obtain ⟨below, hbelow, rfl⟩ := exists_arrayOf_of_findByType hm
      apply Mapping.exists_literal_arrayOf
      intro item hitem
      cases hnull : item.isNull with
      | true => exact ⟨"NULL", below.literal_of_isNull hnull⟩
      | false =>
        rw [← hv.type_of_mem hitem hnull] at hbelow
        exact ih item hitem (hv.of_mem_parts hitem) hbelow
    | record fields => cases hm
    | enum label =>
      obtain ⟨-, rfl⟩ := enum?_eq_some_iff.1 hm
      exact ⟨_, Mapping.literal_of_kind rfl rfl rfl⟩
    | _ =>
      obtain rfl := Option.some.inj hm
      exact ScalarType.exists_literal rfl

/-- **When a constant has a text**: exactly when it is null or the type that it shows has a default
mapping. -/
theorem render_constant_succeeds_iff (catalog : Catalog) (flavor : Flavor) (v : Value)
    (hv : v.Uniform) :
    (∃ text, (catalog.constant v).render flavor = .ok text) ↔
      v = .null ∨ (catalog.findByType v.type).isSome = true := by
  have htext : (catalog.constant v).render flavor =
      Expr.constantText v (catalog.findByType v.type) := by
    rw [constant_eq, Expr.render]
  rw [htext, Expr.exists_constantText_iff]
  refine or_congr_right ?_
  rw [Option.isSome_iff_exists]
  refine exists_congr fun m => ?_
  constructor
  · exact And.left
  · intro hm
    exact ⟨hm, exists_literal_of_findByType hv hm⟩

/-- Lists of labels have a text where the enumeration without a name is registered, and none where it
is not. -/
theorem render_constant_succeeds_iff_unnamedLabels :
    let v : Value := .list [.null, .list [.null, .enum "calm"], .list [.enum "it's"]]
    let registered := (ofOptions {}).withEnum ""
    v.Uniform ∧
      (∃ text, (registered.constant v).render .postgresql = .ok text) ∧
      ¬ ∃ text, ((ofOptions {}).constant v).render .postgresql = .ok text := by
  intro v registered
  have hleaf : ∀ label, (Value.enum label).Uniform := fun _ => Value.uniform_of_parts_eq_nil rfl
  have hnull : Value.null.Uniform := Value.uniform_of_parts_eq_nil rfl
  have hv : v.Uniform := by
    simp [v, Value.uniform_list_iff, Value.OneType, Value.type, Value.itemType, Value.isNull, hleaf,
      hnull]
  refine ⟨hv, ?_, ?_⟩
  · exact (render_constant_succeeds_iff registered .postgresql v hv).2 (.inr rfl)
  · rw [render_constant_succeeds_iff (ofOptions {}) .postgresql v hv]
    have hne : v ≠ .null := fun h => Bool.false_ne_true (Value.isNull_iff.2 h)
    exact not_or.2 ⟨hne, by decide⟩

end Catalog

end PgFragment
