import PgFragment.Value.Basic

namespace PgFragment

/-!
# Types of nested lists

The type of a list follows from the first of its items that is not null, so that the type of a list of
lists follows from one path down: from each list to its first such item.  A list on that path that is
empty, or has nulls alone, ends it above the leaves, whatever its neighbours hold.

* `Value.itemType_eq` — the item that decides.
* `Value.type_eq_arrays_iff` — the type of a nested list is that of its contents exactly when the path
  leads to a leaf; else it is one of untyped nulls.
-/

/-- Arrays of arrays over a type, `depth` layers of them. -/
def HostType.arrays (type : HostType) : Nat → HostType
  | 0 => type
  | depth + 1 => .array (type.arrays depth)

/-- Layers over untyped nulls are never layers over a type that is neither one nor null. -/
theorem HostType.arrays_ne_arrays_null {type : HostType} (harray : type.isArray = false)
    (hnull : type ≠ .null) (depth k : Nat) : type.arrays depth ≠ HostType.null.arrays k := by
  induction depth generalizing k with
  | zero =>
    cases k with
    | zero => exact hnull
    | succ k =>
      rintro rfl
      cases harray
  | succ depth ih =>
    cases k with
    | zero => exact nofun
    | succ k => exact fun h => ih k (HostType.array.inj h)

namespace Value

variable {type : HostType} {depth : Nat} {items : List Value} {v : Value}

/-! ### The item that decides -/

/-- The first item that is not null. -/
def first? (items : List Value) : Option Value := items.find? fun item => !item.isNull

/-- **The first item that is not null decides the type of a list's items**; without one they are
untyped nulls. -/
theorem itemType_eq (items : List Value) :
    itemType items = ((first? items).map Value.type).getD .null := by
  induction items with
  | nil => rfl
  | cons item rest ih =>
    rw [itemType, first?, List.find?_cons]
    cases item.isNull with
    | true => exact ih
    | false => rfl

/-! ### Nested lists -/

/-- A list of lists, at most `depth` deep, over values of a type: at that depth stand values of the
type and nulls, and above it lists, empty ones among them, and nulls. -/
inductive NestedOver (type : HostType) : Nat → Value → Prop
  | null {depth : Nat} : NestedOver type depth .null
  | leaf {v : Value} (h : v.type = type) : NestedOver type 0 v
  | list {depth : Nat} {items : List Value} (h : ∀ item ∈ items, NestedOver type depth item) :
    NestedOver type (depth + 1) (.list items)

/-- There is a value other than null at the depth. -/
inductive HasLeaf : Nat → Value → Prop
  | leaf {v : Value} (h : v.isNull = false) : HasLeaf 0 v
  | list {depth : Nat} {item : Value} {items : List Value} (hmem : item ∈ items)
    (h : HasLeaf depth item) : HasLeaf (depth + 1) (.list items)

/-- The path from each list to its first item that is not null leads to a value at the depth. -/
inductive LeadsToLeaf : Nat → Value → Prop
  | leaf {v : Value} (h : v.isNull = false) : LeadsToLeaf 0 v
  | list {depth : Nat} {item : Value} {items : List Value} (hfirst : first? items = some item)
    (h : LeadsToLeaf depth item) : LeadsToLeaf (depth + 1) (.list items)

theorem LeadsToLeaf.isNull (h : LeadsToLeaf depth v) : v.isNull = false := by
  cases h with
  | leaf h => exact h
  | list => rfl

theorem leadsToLeaf_list_iff :
    LeadsToLeaf (depth + 1) (.list items) ↔
      ∃ item, first? items = some item ∧ LeadsToLeaf depth item := by
  constructor
  · rintro (_ | ⟨hfirst, h⟩)
    exact ⟨_, hfirst, h⟩
  · rintro ⟨item, hfirst, h⟩
    exact .list hfirst h

/-! ### The type of a nested list -/

/-- Where the path of first items leads to a leaf, the type is that of the contents. -/
theorem NestedOver.type_of_leadsToLeaf (h : NestedOver type depth v) (hpath : LeadsToLeaf depth v) :
    v.type = type.arrays depth := by
  induction h with
  | null => cases hpath.isNull
  | leaf h => exact h
  | list h ih =>
    obtain ⟨item, hfirst, hpath⟩ := leadsToLeaf_list_iff.1 hpath
    rw [Value.type, itemType_eq, hfirst, HostType.arrays]
    exact congrArg HostType.array (ih item (List.mem_of_find?_eq_some hfirst) hpath)

/-- Where it ends above the leaves, the type is one of arrays over untyped nulls. -/
theorem NestedOver.type_of_not_leadsToLeaf (hnull : type ≠ .null) (h : NestedOver type depth v)
    (hpath : ¬ LeadsToLeaf depth v) : ∃ k ≤ depth, v.type = HostType.null.arrays k := by
  induction h with
  | null => exact ⟨0, Nat.zero_le _, rfl⟩
  | @leaf v h =>
    cases hv : v.isNull with
    | false => exact absurd (.leaf hv) hpath
    | true =>
      obtain rfl := isNull_iff.1 hv
      exact absurd h.symm hnull
  | @list depth items h ih =>
    cases hfirst : first? items with
    | none => exact ⟨1, Nat.le_add_left 1 depth, by rw [Value.type, itemType_eq, hfirst]; rfl⟩
    | some item =>
      have hitem : ¬ LeadsToLeaf depth item := fun hitem => hpath (.list hfirst hitem)
      obtain ⟨k, hk, htype⟩ := ih item (List.mem_of_find?_eq_some hfirst) hitem
      refine ⟨k + 1, Nat.succ_le_succ hk, ?_⟩
      rw [Value.type, itemType_eq, hfirst]
      exact congrArg HostType.array htype

/-- **The type of a nested list** is that of its contents exactly when the path of first items leads
to a leaf; else it is one of arrays over untyped nulls, however many leaves there are elsewhere. -/
theorem type_eq_arrays_iff (harray : type.isArray = false) (hnull : type ≠ .null)
    (h : NestedOver type depth v) :
    (v.type = type.arrays depth ↔ LeadsToLeaf depth v) ∧
      (¬ LeadsToLeaf depth v → ∃ k ≤ depth, v.type = HostType.null.arrays k) := by
  refine ⟨⟨fun htype => ?_, h.type_of_leadsToLeaf⟩, h.type_of_not_leadsToLeaf hnull⟩
  by_cases hpath : LeadsToLeaf depth v
  · exact hpath
  · obtain ⟨k, -, hnulls⟩ := h.type_of_not_leadsToLeaf hnull hpath
    exact absurd (htype.symm.trans hnulls) (HostType.arrays_ne_arrays_null harray hnull depth k)

/-- Nulls in front of the first item do not matter at any level, nor does an empty list behind it. -/
theorem type_eq_arrays_iff_nullsFirst :
    let one : Value := .int ⟨.i32, 1, by decide⟩
    let v : Value := .list [.null, .list [.null, one], .list []]
    (HostType.int .i32).isArray = false ∧ HostType.int .i32 ≠ .null ∧
      NestedOver (.int .i32) 2 v ∧ LeadsToLeaf 2 v ∧ v.type = (HostType.int .i32).arrays 2 := by
  intro one v
  have hnull : HostType.int .i32 ≠ .null := nofun
  have hone : NestedOver (.int .i32) 0 one := .leaf rfl
  have hnested : NestedOver (.int .i32) 2 v := by
    refine .list ?_
    simp only [List.mem_cons, List.not_mem_nil, or_false]
    rintro item (rfl | rfl | rfl)
    · exact .null
    · refine .list ?_
      simp only [List.mem_cons, List.not_mem_nil, or_false]
      rintro item (rfl | rfl)
      · exact .null
      · exact hone
    · exact .list nofun
  have hpath : LeadsToLeaf 2 v := .list rfl (.list rfl (.leaf rfl))
  exact ⟨rfl, hnull, hnested, hpath, (type_eq_arrays_iff rfl hnull hnested).1.2 hpath⟩

/-- An empty list in front of a list of numbers: the type is that of lists of untyped nulls, and with
the empty list behind the numbers it is that of lists of numbers. -/
theorem type_emptyListFirst :
    let one : Value := .int ⟨.i32, 1, by decide⟩
    let v : Value := .list [.list [], .list [one]]
    NestedOver (.int .i32) 2 v ∧ HasLeaf 2 v ∧
      v.type = .array (.array .null) ∧ v.type ≠ (HostType.int .i32).arrays 2 ∧
      (Value.list [.list [one], .list []]).type = (HostType.int .i32).arrays 2 := by
  intro one v
  have hone : NestedOver (.int .i32) 0 one := .leaf rfl
  refine ⟨.list ?_, ?_, rfl, by decide, rfl⟩
  · simp only [List.mem_cons, List.not_mem_nil, or_false]
    rintro item (rfl | rfl)
    · exact .list nofun
    · refine .list ?_
      simp only [List.mem_cons, List.not_mem_nil, or_false]
      rintro item rfl
      exact hone
  · exact .list (List.mem_cons_of_mem _ List.mem_cons_self) (.list List.mem_cons_self (.leaf rfl))

end Value

end PgFragment
