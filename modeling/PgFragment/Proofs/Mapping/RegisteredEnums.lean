import PgFragment.Proofs.Mapping.DefaultMappings
import PgFragment.Proofs.Success

namespace PgFragment

/-!
# Registering enumerations

A catalog looks a store type up among the built-in ones first and among the registered enumerations
then, and a host type among the one or the other.  So an enumeration that is registered answers what
had no answer, and nothing else: it cannot take the place of what is built in, nor can a second
registration under one name.

* `Catalog.Query` — the ways to look a mapping up, as data.
* `Catalog.Extends` — one catalog of a server holds the enumerations of another.
* `Catalog.answer_of_extends` — what has an answer keeps it in a catalog that extends the first.
* `Catalog.isSome_builtinNamed?_iff` — the names that are built in.
* `Catalog.answer_registering` — registering only adds, the built-in names stay as they are, and
  neither order nor repetition of the registrations matters.
-/

open Text

/-! ### Built-in names -/

/-- The names of built-in store types, and the other names that they go by. -/
def builtinNames : List String :=
  (builtinScalars ++ builtinRanges).map Mapping.baseStoreType ++ aliases.map Prod.fst

/-- **Built-in names and their aliases are the names that are built in.** -/
theorem isSome_builtinNamed?_iff {name : String} :
    (builtinNamed? name).isSome = true ↔ name ∈ builtinNames := by
  constructor
  · intro h
    obtain ⟨m, hm⟩ := Option.isSome_iff_exists.1 h
    rw [builtinNames, List.mem_append]
    cases hlookup : aliases.lookup name with
    | some target =>
      obtain ⟨before, after, hsplit, -⟩ := List.lookup_eq_some_iff.1 hlookup
      exact .inr (List.mem_map.2 ⟨(name, target), by simp [hsplit], rfl⟩)
    | none =>
      have hname := List.find?_some hm
      rw [hlookup, Option.getD_none, beq_iff_eq] at hname
      exact .inl (List.mem_map.2 ⟨m, List.mem_of_find?_eq_some hm, hname⟩)
  · have hall : ∀ name ∈ builtinNames, (builtinNamed? name).isSome = true := by decide +kernel
    exact hall name

namespace Catalog

/-! ### Looking a mapping up -/

/-- A way to look a mapping up: by host type, by the name of a store type, or by both. -/
inductive Query where
  | byType (type : HostType)
  | byName (name : String)
  | byBoth (type : HostType) (name : String)

/-- The mapping that is found. -/
def answer (catalog : Catalog) : Query → Option Mapping
  | .byType type => catalog.findByType type
  | .byName name => catalog.findByName name
  | .byBoth type name => catalog.findFor type name

/-- The name of the store type that is looked for. -/
def Query.name? : Query → Option String
  | .byType _ => none
  | .byName name | .byBoth _ name => some name

/-- What is looked for is a store type that is built in, whatever its facets and its suffix. -/
def Query.NamesBuiltin (query : Query) : Prop :=
  ∃ name ∈ query.name?, ∃ t, StoreType.parse name = .ok t ∧ t.base ∈ builtinNames

variable {catalog larger : Catalog} {type : HostType} {name : String} {m : Mapping} {query : Query}

/-! ### Catalogs with more enumerations -/

/-- Both catalogs are of one server, and the second holds the enumerations of the first. -/
structure Extends (catalog larger : Catalog) : Prop where
  multiranges : larger.multiranges = catalog.multiranges
  enums : ∀ name ∈ catalog.enums, name ∈ larger.enums

theorem extends_registering {names more : List String} (h : ∀ name ∈ names, name ∈ more)
    (catalog : Catalog) : (catalog.registering names).Extends (catalog.registering more) where
  multiranges := by rw [multiranges_registering, multiranges_registering]
  enums := by
    rw [enums_registering, enums_registering]
    intro name hname
    rcases List.mem_append.1 hname with hold | hnew
    · exact List.mem_append_left more hold
    · exact List.mem_append_right catalog.enums (h name hnew)

theorem withEnum_registering (catalog : Catalog) (names : List String) (name : String) :
    (catalog.registering names).withEnum name = catalog.registering (names ++ [name]) := by
  rw [registering, registering, List.foldl_append]
  rfl

namespace Extends

theorem enum?_eq_some (h : catalog.Extends larger) (hm : catalog.enum? name = some m) :
    larger.enum? name = some m := by
  obtain ⟨hname, hm⟩ := enum?_eq_some_iff.1 hm
  exact enum?_eq_some_iff.2 ⟨h.enums name hname, hm⟩

theorem multirangeOf_eq (h : catalog.Extends larger) (m : Mapping) :
    larger.multirangeOf m = catalog.multirangeOf m := by
  unfold multirangeOf
  rw [h.multiranges]

/-- By induction on the layers of arrays: each is put around what was found before. -/
theorem findByType_eq_some (h : catalog.Extends larger) :
    ∀ {type : HostType} {m : Mapping}, catalog.findByType type = some m →
      larger.findByType type = some m
  | .scalar _, _, hm => hm
  | .enum _, _, hm => h.enum?_eq_some hm
  | .array element, m, hm => by
    rw [findByType, Option.map_eq_some_iff] at hm
    obtain ⟨below, hbelow, hlayer⟩ := hm
    rw [findByType, Option.map_eq_some_iff]
    refine ⟨below, h.findByType_eq_some hbelow, ?_⟩
    rw [h.multiranges, h.multirangeOf_eq]
    exact hlayer
  | .range (.scalar _), _, hm => hm
  | .range (.enum _), _, hm | .range (.array _), _, hm | .range (.range _), _, hm
  | .range (.record _), _, hm | .range .null, _, hm | .record _, _, hm | .null, _, hm => by
    simp [findByType] at hm

/-- A name that is read means what is built in under it before it means an enumeration. -/
theorem findByName_eq_some (h : catalog.Extends larger) (hm : catalog.findByName name = some m) :
    larger.findByName name = some m := by
  obtain ⟨t, ht, hm⟩ := Option.bind_eq_some_iff.1 hm
  obtain ⟨base, hbase, hm⟩ := Option.bind_eq_some_iff.1 hm
  have hbase' : (builtinNamed? t.base).or (larger.enum? t.base) = some base := by
    rcases Option.or_eq_some_iff.1 hbase with hfound | ⟨hnone, henum⟩
    · rw [hfound, Option.some_or]
    · rw [hnone, Option.none_or]
      exact h.enum?_eq_some henum
  exact Option.bind_eq_some_iff.2 ⟨t, ht, Option.bind_eq_some_iff.2 ⟨base, hbase', hm⟩⟩

theorem findFor_eq_some (h : catalog.Extends larger) (hm : catalog.findFor type name = some m) :
    larger.findFor type name = some m := by
  obtain ⟨found, hfound, hm⟩ := Option.bind_eq_some_iff.1 hm
  exact Option.bind_eq_some_iff.2 ⟨found, h.findByName_eq_some hfound, hm⟩

end Extends

/-- **What has an answer keeps it** in a catalog that extends the first. -/
theorem answer_of_extends (h : catalog.Extends larger) (hm : catalog.answer query = some m) :
    larger.answer query = some m := by
  cases query with
  | byType type => exact h.findByType_eq_some hm
  | byName name => exact h.findByName_eq_some hm
  | byBoth type name => exact h.findFor_eq_some hm

/-- Catalogs that extend one another answer alike. -/
theorem answer_eq_of_extends (h : catalog.Extends larger) (h' : larger.Extends catalog)
    (query : Query) : catalog.answer query = larger.answer query := by
  ext m
  exact ⟨answer_of_extends h, answer_of_extends h'⟩

/-! ### Built-in names with enumerations -/

/-- Under a built-in name no enumeration is looked up. -/
theorem findByName_eq_of_mem_builtinNames {t : StoreType} (ht : StoreType.parse name = .ok t)
    (hname : t.base ∈ builtinNames) (catalog larger : Catalog) :
    catalog.findByName name = larger.findByName name := by
  obtain ⟨base, hbase⟩ := Option.isSome_iff_exists.1 (isSome_builtinNamed?_iff.2 hname)
  unfold findByName
  simp only [Success.toOption_eq_some_iff.2 ht, Option.bind_eq_bind, Option.bind_some, hbase,
    Option.some_or]

/-- **Built-in names are never shadowed**: every catalog has the same answers to them. -/
theorem answer_eq_of_namesBuiltin (h : query.NamesBuiltin) (catalog larger : Catalog) :
    catalog.answer query = larger.answer query := by
  obtain ⟨name, hquery, t, ht, hname⟩ := h
  have hfound := findByName_eq_of_mem_builtinNames ht hname catalog larger
  cases query with
  | byType type => cases hquery
  | byName _ =>
    cases hquery
    exact hfound
  | byBoth type _ =>
    cases hquery
    rw [answer, answer, findFor, findFor, hfound]

/-! ### All that registering does -/

/-- **Registering only adds.**  Whatever the server and the enumerations registered so far, each
lookup that finds a mapping finds the same one after one more registration; what is looked for under a
built-in name is found as if nothing were registered; and when two lists hold the same names, in
whatever order and however often, registering the one or the other makes no difference to any
lookup. -/
theorem answer_registering (options : Options) (names : List String) :
    (∀ name query m, ((ofOptions options).registering names).answer query = some m →
        (((ofOptions options).registering names).withEnum name).answer query = some m) ∧
      (∀ query, query.NamesBuiltin →
        ((ofOptions options).registering names).answer query = (ofOptions options).answer query) ∧
      ∀ others, (∀ name, name ∈ names ↔ name ∈ others) → ∀ query,
        ((ofOptions options).registering names).answer query
          = ((ofOptions options).registering others).answer query := by
  refine ⟨?_, ?_, ?_⟩
  · intro name query m hm
    rw [withEnum_registering]
    exact answer_of_extends
      (extends_registering (fun _ => List.mem_append_left [name]) (ofOptions options)) hm
  · intro query hquery
    exact answer_eq_of_namesBuiltin hquery _ _
  · intro others hsame query
    exact answer_eq_of_extends
      (extends_registering (fun name => (hsame name).1) (ofOptions options))
      (extends_registering (fun name => (hsame name).2) (ofOptions options)) query

/-- An array of a registered enumeration is found after a registration under a built-in name, which
stays what it was, and after registrations in another order, one of them twice. -/
theorem answer_registering_moods :
    ((ofOptions {}).registering ["mood"]).answer (.byName "Mood[]")
        = some (.arrayOf (.enumeration "mood")) ∧
      (((ofOptions {}).registering ["mood"]).withEnum "text").answer (.byName "Mood[]")
        = some (.arrayOf (.enumeration "mood")) ∧
      (Query.byBoth .string "TEXT").NamesBuiltin ∧
      ((ofOptions {}).registering ["mood", "text"]).answer (.byBoth .string "TEXT") = some .text ∧
      ((ofOptions {}).registering ["mood", "text"]).answer (.byType (.array (.enum "mood")))
        = ((ofOptions {}).registering ["text", "mood", "mood"]).answer
            (.byType (.array (.enum "mood"))) := by
  obtain ⟨hkept, -, -⟩ := answer_registering {} ["mood"]
  obtain ⟨-, hbuiltin, hsame⟩ := answer_registering {} ["mood", "text"]
  have hmoods : ((ofOptions {}).registering ["mood"]).answer (.byName "Mood[]")
      = some (.arrayOf (.enumeration "mood")) := by decide +kernel
  have htext : (Query.byBoth .string "TEXT").NamesBuiltin :=
    ⟨"TEXT", rfl, ⟨"text", [], false⟩, Success.toOption_eq_some_iff.1 (by decide +kernel), by decide⟩
  have hfound : (ofOptions {}).answer (.byBoth .string "TEXT") = some .text := by decide +kernel
  refine ⟨hmoods, hkept "text" _ _ hmoods, htext, (hbuiltin _ htext).trans hfound, ?_⟩
  exact hsame ["text", "mood", "mood"] (by simp [or_comm]) _

end Catalog

end PgFragment
