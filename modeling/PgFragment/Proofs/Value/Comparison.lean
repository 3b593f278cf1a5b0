import Mathlib.Data.List.Forall2
import PgFragment.Value.Comparer

namespace PgFragment

/-!
# Comparing values

Lists and records compare part by part, so that what is said of a comparison is said of its parts
first.  `Value.Agrees` is one step of it; symmetry, transitivity and the agreement of hashes are an
induction on the nesting each, with one case for every way in which values agree.

* `Value.same_iff` — two values denote the same exactly when they agree in one step.
* `Value.same_self_iff` — a value denotes the same as itself unless it holds a pattern that is no
  number.
* `Value.feed_eq_of_same` — values that denote the same feed the same bytes to a hash.
* `Comparer.lawful` — what a comparer has to satisfy for look-ups by hash to find what is equal.
-/

namespace Value

/-! ### Values and their parts -/

/-- The items of a list and the fields of a record. -/
def parts : Value → List Value
  | .list items => items
  | .record fields => fields
  | _ => []

theorem sizeOf_lt_of_mem_parts {p v : Value} (h : p ∈ v.parts) : sizeOf p < sizeOf v := by
  cases v with
  | list items =>
    have hlt := List.sizeOf_lt_of_mem h
    simp only [list.sizeOf_spec, parts] at *
    omega
  | record fields =>
    have hlt := List.sizeOf_lt_of_mem h
    simp only [record.sizeOf_spec, parts] at *
    omega
  | _ => cases h

/-- **Induction on values through their parts.** -/
theorem induction_on_parts {motive : Value → Prop}
    (step : ∀ v, (∀ p ∈ v.parts, motive p) → motive v) (v : Value) : motive v :=
  step v fun p hp =>
    have := sizeOf_lt_of_mem_parts hp
    induction_on_parts step p
termination_by sizeOf v

mutual

/-- A floating-point pattern within the value is no number. -/
def hasNaN : Value → Bool
  | .single bits => Binary.single.isNaN bits.toNat
  | .double bits => Binary.double.isNaN bits.toNat
  | .list items => anyNaN items
  | .record fields => anyNaN fields
  | _ => false

/-- One of several values holds a pattern that is no number. -/
def anyNaN : List Value → Bool
  | [] => false
  | v :: rest => hasNaN v || anyNaN rest

end

theorem anyNaN_eq_false_iff {vs : List Value} :
    anyNaN vs = false ↔ ∀ v ∈ vs, v.hasNaN = false := by
  induction vs with
  | nil => simp [anyNaN]
  | cons v vs ih => simp [anyNaN, ih]

/-! ### One step of the comparison -/

/-- The value is told from others by its content alone: it is no number of floating point, no point
in time and has no parts. -/
def isExact : Value → Bool
  | .single _ | .double _ | .dateTimeOffset _ | .list _ | .record _ => false
  | _ => true

/-- How two values come to denote the same. -/
inductive Agrees : Value → Value → Prop
  | exact {v : Value} (h : v.isExact = true) : Agrees v v
  | single {x y : UInt32} (h : Binary.single.sameNumber x.toNat y.toNat = true) :
      Agrees (.single x) (.single y)
  | double {x y : UInt64} (h : Binary.double.sameNumber x.toNat y.toNat = true) :
      Agrees (.double x) (.double y)
  | instant {s t : Calendar.OffsetDateTime} (h : s.instant = t.instant) :
      Agrees (.dateTimeOffset s) (.dateTimeOffset t)
  | list {as bs : List Value} (h : List.Forall₂ (fun a b => a.same b = true) as bs) :
      Agrees (.list as) (.list bs)
  | record {as bs : List Value} (h : List.Forall₂ (fun a b => a.same b = true) as bs) :
      Agrees (.record as) (.record bs)

variable {a b c : Value} {as bs cs : List Value}

theorem sameList_iff : sameList as bs = true ↔ List.Forall₂ (fun a b => a.same b = true) as bs := by
  induction as generalizing bs with
  | nil => cases bs <;> simp [sameList]
  | cons a as ih => cases bs <;> simp [sameList, ih]

/-- **Comparison goes by one step**, in which parts are compared as wholes. -/
theorem same_iff : a.same b = true ↔ Agrees a b := by
  constructor
  · intro h
    unfold same at h
    split at h
    case h_1 => exact .exact rfl
    case h_5 => exact .single h
    case h_6 => exact .double h
    case h_11 => exact .instant (eq_of_beq h)
    case h_15 => exact .list (sameList_iff.1 h)
    case h_16 => exact .record (sameList_iff.1 h)
    case h_17 => cases h
    -- What is left has nothing but its content.
    all_goals
      obtain rfl := eq_of_beq h
      exact .exact rfl
  · intro h
    cases h with
    | exact h => cases a <;> simp_all [isExact, same]
    | single h | double h => exact h
    | instant h => simp [same, h]
    | list h | record h => exact sameList_iff.2 h

/-! ### Symmetry, transitivity and reflexivity -/

/-- What the first parts imply by themselves they imply of all pairs. -/
theorem forall₂_of_mem {R S : Value → Value → Prop} (hmem : ∀ a ∈ as, ∀ b, R a b → S a b)
    (h : List.Forall₂ R as bs) : List.Forall₂ S as bs :=
  ((List.forall₂_and_left _ _).2 ⟨hmem, h⟩).imp fun _ b hab => hab.1 b hab.2

theorem same_symm (h : a.same b = true) : b.same a = true := by
  induction a using induction_on_parts generalizing b with
  | step a ih =>
    have hparts := fun p hp b => @ih p hp b
    rw [same_iff] at h ⊢
    cases h with
    | exact h => exact .exact h
    | single h => exact .single (by rwa [Binary.Format.sameNumber_comm])
    | double h => exact .double (by rwa [Binary.Format.sameNumber_comm])
    | instant h => exact .instant h.symm
    | list h => exact .list (forall₂_of_mem hparts h).flip
    | record h => exact .record (forall₂_of_mem hparts h).flip

theorem forall₂_trans {R : Value → Value → Prop}
    (hmem : ∀ a ∈ as, ∀ b c, R a b → R b c → R a c) (hab : List.Forall₂ R as bs)
    (hbc : List.Forall₂ R bs cs) : List.Forall₂ R as cs := by
  induction hab generalizing cs with
  | nil =>
    cases hbc
    exact .nil
  | cons h _ ih =>
    cases hbc with
    | cons h' hbc =>
      rw [List.forall_mem_cons] at hmem
      exact .cons (hmem.1 _ _ h h') (ih hmem.2 hbc)

theorem same_trans (hab : a.same b = true) (hbc : b.same c = true) : a.same c = true := by
  induction a using induction_on_parts generalizing b c with
  | step a ih =>
    have hparts := fun p hp b c => @ih p hp b c
    rw [same_iff] at hab hbc ⊢
    -- The second step is of the kind of the first, or of exact values.
    cases hab with
    | exact _ => exact hbc
    | single hab =>
      cases hbc with
      | exact _ => exact .single hab
      | single hbc => exact .single (Binary.Format.sameNumber_trans _ hab hbc)
    | double hab =>
      cases hbc with
      | exact _ => exact .double hab
      | double hbc => exact .double (Binary.Format.sameNumber_trans _ hab hbc)
    | instant hab =>
      cases hbc with
      | exact _ => exact .instant hab
      | instant hbc => exact .instant (hab.trans hbc)
    | list hab =>
      cases hbc with
      | exact _ => exact .list hab
      | list hbc => exact .list (forall₂_trans hparts hab hbc)
    | record hab =>
      cases hbc with
      | exact _ => exact .record hab
      | record hbc => exact .record (forall₂_trans hparts hab hbc)

theorem same_self_iff : a.same a = true ↔ a.hasNaN = false := by
  induction a using induction_on_parts with
  | step a ih =>
    have hparts : ∀ {vs : List Value}, (∀ v ∈ vs, v.same v = true ↔ v.hasNaN = false) →
        (sameList vs vs = true ↔ anyNaN vs = false) := by
      intro vs ih
      rw [sameList_iff, List.forall₂_same, anyNaN_eq_false_iff]
      exact forall₂_congr ih
    cases a with
    | single bits | double bits => simp [same, hasNaN, Binary.Format.sameNumber_self]
    | list vs | record vs => exact hparts ih
    | _ => simp [same, hasNaN]

/-! ### What equal values feed to a hash -/

theorem feedList_congr (h : List.Forall₂ (fun a b => a.feed = b.feed) as bs) :
    feedList as = feedList bs := by
  induction h with
  | nil => rfl
  | cons h _ ih => rw [feedList, feedList, h, ih]

/-- **Values that denote the same feed the same bytes.** -/
theorem feed_eq_of_same (h : a.same b = true) : a.feed = b.feed := by
  induction a using induction_on_parts generalizing b with
  | step a ih =>
    have hparts := fun p hp b => @ih p hp b
    rw [same_iff] at h
    cases h with
    | exact _ => rfl
    | single h | double h => rw [feed, feed, Binary.Format.canonical_eq_of_sameNumber _ h]; rfl
    | instant h => rw [feed, feed, h]; rfl
    | list h | record h =>
      have hfeed := feedList_congr (forall₂_of_mem hparts h)
      simp only [parts] at hfeed
      rw [feed, feed, h.length_eq, hfeed]
      rfl

end Value

namespace Comparer

variable (c : Comparer)

/-- What look-ups by equality and by hash rely on. -/
structure Lawful : Prop where
  symm (a b : Value) : c.equals a b = true → c.equals b a = true
  trans (a b d : Value) : c.equals a b = true → c.equals b d = true → c.equals a d = true
  /-- A value is equal to itself when it holds a number wherever it has a floating-point pattern. -/
  refl_iff (a : Value) : c.equals a a = true ↔ a.hasNaN = false
  /-- Null is equal to null alone. -/
  null_iff (a : Value) : c.equals .null a = true ↔ a = .null
  /-- Equal values have one hash, whatever the hash does with what it is fed. -/
  feed_eq (a b : Value) : c.equals a b = true → c.feed a = c.feed b

variable {c : Comparer} {a b d : Value}

/-- What counts of a value: of a string that stands alone its significant part, and all of any
other value. -/
def reduce (c : Comparer) : Value → Value
  | .string s => .string (c.significant s)
  | v => v

theorem equals_eq_same (c : Comparer) (a b : Value) :
    c.equals a b = (c.reduce a).same (c.reduce b) := by
  cases a <;> cases b <;> rfl

theorem hasNaN_reduce (c : Comparer) (a : Value) : (c.reduce a).hasNaN = a.hasNaN := by
  cases a <;> rfl

theorem feed_reduce (c : Comparer) {a : Value} (h : ∀ s, a ≠ .string s) :
    c.feed a = (c.reduce a).feed := by
  cases a with
  | string s => exact absurd rfl (h s)
  | _ => rfl

/-- Values that count for the same feed the same bytes; those of a string are its text alone. -/
theorem feed_eq_of_equals (h : c.equals a b = true) : c.feed a = c.feed b := by
  rw [equals_eq_same] at h
  by_cases hstring : ∃ s, a = .string s
  · obtain ⟨s, rfl⟩ := hstring
    cases b with
    | string t =>
      have hst : c.significant s = c.significant t := eq_of_beq h
      show textFeed (c.significant s) = textFeed (c.significant t)
      rw [hst]
    | _ => cases h
  · have ha : ∀ s, a ≠ .string s := not_exists.1 hstring
    have hb : ∀ s, b ≠ .string s := by
      rintro t rfl
      cases a with
      | string s => exact ha s rfl
      | _ => cases h
    rw [feed_reduce c ha, feed_reduce c hb]
    exact Value.feed_eq_of_same h

/-- **Comparers are lawful.** -/
theorem lawful (c : Comparer) : c.Lawful where
  symm a b h := by
    rw [equals_eq_same] at h ⊢
    exact Value.same_symm h
  trans a b d hab hbd := by
    rw [equals_eq_same] at hab hbd ⊢
    exact Value.same_trans hab hbd
  refl_iff a := by
    rw [equals_eq_same, Value.same_self_iff, hasNaN_reduce]
  null_iff a := by
    rw [equals_eq_same]
    cases a <;> simp [reduce, Value.same]
  feed_eq a b := feed_eq_of_equals

end Comparer

end PgFragment
