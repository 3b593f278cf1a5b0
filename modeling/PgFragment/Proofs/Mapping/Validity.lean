import PgFragment.Proofs.Mapping.Built

namespace PgFragment

/-!
# Mappings stay valid

Parameters are checked when a mapping is built from them, but not when its host type is changed, when
it becomes the element of another, or when a catalog gives it out.  A mapping is settled when it
passes the check as it stands; every way to a mapping leads to a settled one, over settled elements.

* `Params.fault?_eq_none_iff` — the check says exactly which facets go with which form.
* `Mapping.Reachable` — the mappings that can be had, from any catalogs and by any derivations.
* `Mapping.Reachable.valid` — their facets go with their form, and building them again from their
  own parameters gives them back.
-/

/-! ### What the check says -/

namespace Params

variable {p : Params}

/-- The facets go with the form. -/
structure Valid (p : Params) : Prop where
  /-- Without a precision there is nothing that a scale could be part of. -/
  precision_of_scale : p.scale.isSome → p.precision.isSome
  of_none : p.form = .none → p.size = none ∧ p.precision = none ∧ p.scale = none
  of_size : p.form = .size → p.precision = none ∧ p.scale = none ∧ ∀ size ∈ p.size, 1 ≤ size
  of_precision : p.form = .precision →
    p.size = none ∧ p.scale = none ∧ ∀ precision ∈ p.precision, precision ≤ 6
  of_precisionAndScale : p.form = .precisionAndScale →
    p.size = none ∧ ∀ precision ∈ p.precision, 1 ≤ precision ∧ precision ≤ 1000

theorem one_le_iff {n : UInt32} : 1 ≤ n ↔ n ≠ 0 := by
  rw [ne_eq, UInt32.le_iff_toNat_le, ← UInt32.toNat_inj]
  show 1 ≤ n.toNat ↔ ¬n.toNat = 0
  omega

theorem sizeFault?_eq_none_iff :
    p.sizeFault? = none ↔ ∀ size ∈ p.size, p.form = .size ∧ 1 ≤ size := by
  unfold sizeFault?
  cases p.size with
  | none => simp
  | some size =>
    by_cases hform : p.form = .size <;> simp [hform, one_le_iff]

/-- The precision and the scale that each form takes. -/
theorem precisionFault?_eq_none_iff : p.precisionFault? = none ↔
    match p.form with
    | .none | .size => p.precision = none
    | .precision => p.scale = none ∧ ∀ precision ∈ p.precision, precision ≤ 6
    | .precisionAndScale => ∀ precision ∈ p.precision, 1 ≤ precision ∧ precision ≤ 1000 := by
  unfold precisionFault?
  cases p.form <;> cases p.precision <;> cases p.scale <;> simp [one_le_iff]

theorem fault?_eq_none_iff_faults : p.fault? = none ↔
    (p.scale.isSome → p.precision.isSome) ∧ p.precisionFault? = none ∧ p.sizeFault? = none := by
  unfold fault?
  cases p.scale <;> cases p.precision <;> simp

/-- **The check finds no fault exactly when the facets go with the form.** -/
theorem fault?_eq_none_iff : p.fault? = none ↔ p.Valid := by
  rw [fault?_eq_none_iff_faults, precisionFault?_eq_none_iff, sizeFault?_eq_none_iff]
  constructor
  · rintro ⟨hscale, hprecision, hsize⟩
    have hnosize : p.form ≠ .size → p.size = none := by
      intro hform
      refine Option.eq_none_iff_forall_not_mem.2 ?_
      intro size hmem
      exact hform (hsize size hmem).1
    have hnoscale : p.precision = none → p.scale = none := by
      intro hnone
      by_contra hsome
      have h := hscale (Option.isSome_iff_ne_none.2 hsome)
      rw [hnone] at h
      cases h
    refine ⟨hscale, ?_, ?_, ?_, ?_⟩ <;> intro hform <;> rw [hform] at hprecision
    · exact ⟨hnosize (by simp [hform]), hprecision, hnoscale hprecision⟩
    · exact ⟨hprecision, hnoscale hprecision, fun size hmem => (hsize size hmem).2⟩
    · exact ⟨hnosize (by simp [hform]), hprecision⟩
    · exact ⟨hnosize (by simp [hform]), hprecision⟩
  · intro h
    refine ⟨h.precision_of_scale, ?_, ?_⟩
    · cases hform : p.form with
      | none => exact (h.of_none hform).2.1
      | size => exact (h.of_size hform).1
      | precision => exact (h.of_precision hform).2
      | precisionAndScale => exact (h.of_precisionAndScale hform).2
    · intro size hmem
      cases hform : p.form with
      | none =>
        rw [(h.of_none hform).1] at hmem
        cases hmem
      | size => exact ⟨rfl, (h.of_size hform).2.2 size hmem⟩
      | precision =>
        rw [(h.of_precision hform).1] at hmem
        cases hmem
      | precisionAndScale =>
        rw [(h.of_precisionAndScale hform).1] at hmem
        cases hmem

end Params

/-! ### Settled mappings -/

/-- The mapping of the elements of a container's kind. -/
def Kind.element? : Kind → Option Mapping
  | .scalar _ => none
  | .container _ element => some element

namespace Mapping

variable {m m' e : Mapping} {kind : Kind} {params : Params}

/-- The mapping is what its own kind and parameters build. -/
def Settled (m : Mapping) : Prop := m.cloneWith m.params = .ok m

theorem ofKind_eq_self_iff : ofKind m.kind m.params = m ↔ m.params.normalized m.kind = m.params := by
  cases m <;> simp [ofKind, Mapping.kind, Mapping.params]

theorem settled_iff :
    m.Settled ↔ m.params.normalized m.kind = m.params ∧ m.params.fault? = none := by
  rw [Settled, cloneWith, new_eq_ok_iff, eq_comm (a := m), ofKind_eq_self_iff]
  constructor
  · rintro ⟨hfault, hnormal⟩
    exact ⟨hnormal, by rwa [hnormal] at hfault⟩
  · rintro ⟨hnormal, hfault⟩
    exact ⟨by rwa [hnormal], hnormal⟩

instance : DecidablePred Settled := fun _ => decidable_of_iff' _ settled_iff

/-- Settled mappings of fixed-width text have a fixed length and take a size. -/
theorem Settled.character (h : m.Settled) (hk : m.kind = .scalar .character) :
    m.params.form = .size ∧ m.params.fixedLength = true := by
  have hnormal := (settled_iff.1 h).1
  rw [hk] at hnormal
  rw [← hnormal]
  exact ⟨rfl, rfl⟩

/-- The mapping is settled, and so are its elements at every depth. -/
def SettledThroughout : Mapping → Prop
  | .scalar kind params => (scalar kind params).Settled
  | .container shape element params =>
    (container shape element params).Settled ∧ element.SettledThroughout

instance : DecidablePred SettledThroughout := decide
where
  /-- Decides it level by level. -/
  decide : (m : Mapping) → Decidable m.SettledThroughout
  | .scalar kind params => inferInstanceAs (Decidable (scalar kind params).Settled)
  | .container shape element params =>
    @instDecidableAnd _ _ (inferInstanceAs (Decidable (container shape element params).Settled))
      (decide element)

theorem SettledThroughout.settled (h : m.SettledThroughout) : m.Settled := by
  cases m with
  | scalar k p => exact h
  | container shape e p => exact h.1

theorem SettledThroughout.element (h : m.SettledThroughout) (he : m.element? = some e) :
    e.SettledThroughout := by
  cases m with
  | scalar k p => cases he
  | container shape e' p =>
    cases he
    exact h.2

theorem settledThroughout_iff :
    m.SettledThroughout ↔ m.Settled ∧ ∀ e, m.kind.element? = some e → e.SettledThroughout := by
  cases m with
  | scalar k p => simp [SettledThroughout, Mapping.kind, Kind.element?]
  | container shape element p => simp [SettledThroughout, Mapping.kind, Kind.element?]

/-- **What is built over settled elements is settled.** -/
theorem settledThroughout_of_new (hk : ∀ e, kind.element? = some e → e.SettledThroughout)
    (h : new kind params = .ok m) : m.SettledThroughout := by
  obtain ⟨hfault, rfl⟩ := new_eq_ok_iff.1 h
  rw [settledThroughout_iff, settled_iff, kind_ofKind, params_ofKind]
  exact ⟨⟨Params.normalized_normalized params kind, hfault⟩, hk⟩

/-! ### Every derivation builds -/

theorem SettledThroughout.cloneWith (hm : m.SettledThroughout) (h : m.cloneWith params = .ok m') :
    m'.SettledThroughout :=
  settledThroughout_of_new (settledThroughout_iff.1 hm).2 h

theorem exists_cloneWith_of_withStoreType {name : String} (h : m.withStoreType name = .ok m') :
    ∃ params, m.cloneWith params = .ok m' := by
  obtain ⟨parsed, -, h⟩ := Success.bind_eq_ok_iff.1 h
  split at h
  · exact ⟨_, h⟩
  · cases h

/-- Another host type makes no difference to the check. -/
theorem cloneWith_withType (hm : m.Settled) (type : HostType) :
    m.cloneWith { m.params with type := type } = .ok (m.withType type) := by
  obtain ⟨hnormal, hfault⟩ := settled_iff.1 hm
  refine new_eq_ok_iff.2 ⟨?_, rfl⟩
  have htype : Params.normalized { m.params with type := type } m.kind
      = { m.params.normalized m.kind with type := type } := by
    unfold Params.normalized
    split <;> rfl
  rw [htype, hnormal]
  exact hfault

/-- Without facets a container is built over any element. -/
theorem SettledThroughout.over (he : e.SettledThroughout) (shape : Container) (type : HostType)
    (storeType : String) :
    (ofKind (.container shape e) { type := type, storeType := storeType }).SettledThroughout := by
  have hnew : new (.container shape e) { type := type, storeType := storeType }
      = .ok (ofKind (.container shape e) { type := type, storeType := storeType }) := rfl
  refine settledThroughout_of_new ?_ hnew
  rintro _ ⟨⟩
  exact he

theorem SettledThroughout.arrayOf (he : e.SettledThroughout) : (arrayOf e).SettledThroughout :=
  he.over .array _ _

theorem SettledThroughout.multirangeOf (catalog : Catalog) (he : e.SettledThroughout) :
    (catalog.multirangeOf e).SettledThroughout := by
  unfold Catalog.multirangeOf
  split
  · split
    · exact he.over .multirange _ _
    · exact he.arrayOf
  · exact he.arrayOf

end Mapping

/-! ### The mappings of a catalog -/

namespace Catalog

variable {catalog : Catalog} {m base : Mapping}

theorem settledThroughout_of_mem_builtin :
    ∀ m ∈ builtinScalars ++ builtinRanges, m.SettledThroughout := by
  decide +kernel

theorem settledThroughout_of_isBase (h : catalog.IsBase m) : m.SettledThroughout := by
  rcases h with h | ⟨name, h⟩
  · exact settledThroughout_of_mem_builtin m h
  · obtain ⟨-, rfl⟩ := enum?_eq_some_iff.1 h
    exact rfl

theorem settledThroughout_faceted? (hb : base.SettledThroughout) {facets : List UInt32}
    (h : faceted? base facets = some m) : m.SettledThroughout := by
  unfold faceted? at h
  split at h
  · cases h
    exact hb
  · have hok := Success.toOption_eq_some_iff.1 h
    obtain ⟨params, hparams⟩ := Mapping.exists_cloneWith_of_withStoreType hok
    exact hb.cloneWith hparams

theorem carries_settledThroughout (catalog : Catalog) :
    catalog.Carries Mapping.SettledThroughout where
  default type := by
    cases type with
    | int width => cases width <;> decide +kernel
    | _ => decide +kernel
  range h := by
    unfold ScalarType.range? at h
    split at h <;> cases h <;> decide +kernel
  faceted hb h := settledThroughout_faceted? (settledThroughout_of_isBase hb) h
  json type _ h := h.cloneWith (Mapping.cloneWith_withType (h.settled) type)
  array := .arrayOf
  multirange := .multirangeOf catalog

end Catalog

/-! ### Every mapping that can be had -/

/-- The mappings that can be had: those of catalogs, those that pass the check over elements that can
be had, and those that are derived. -/
inductive Mapping.Reachable : Mapping → Prop
  | built {catalog : Catalog} {m : Mapping} (h : catalog.Built m) : Reachable m
  | new {kind : Kind} {params : Params} {m : Mapping}
      (hk : ∀ e, kind.element? = some e → Reachable e) (h : Mapping.new kind params = .ok m) :
      Reachable m
  | cloneWith {m m' : Mapping} {params : Params} (hm : Reachable m)
      (h : m.cloneWith params = .ok m') : Reachable m'
  | withSize {m m' : Mapping} {size : UInt32} (hm : Reachable m) (h : m.withSize size = .ok m') :
      Reachable m'
  | withPrecisionScale {m m' : Mapping} {precision : UInt32} {scale : Option UInt32}
      (hm : Reachable m) (h : m.withPrecisionScale precision scale = .ok m') : Reachable m'
  | withStoreType {m m' : Mapping} {name : String} (hm : Reachable m)
      (h : m.withStoreType name = .ok m') : Reachable m'
  | withType {m : Mapping} (hm : Reachable m) (type : HostType) : Reachable (m.withType type)
  | arrayOf {m : Mapping} (hm : Reachable m) : Reachable (.arrayOf m)
  | multirangeOf {m : Mapping} (hm : Reachable m) (catalog : Catalog) :
      Reachable (catalog.multirangeOf m)
  | element {m e : Mapping} (hm : Reachable m) (h : m.element? = some e) : Reachable e

namespace Mapping

variable {m : Mapping}

theorem Reachable.settledThroughout (h : Reachable m) : m.SettledThroughout := by
  induction h with
  | built h => exact (Catalog.carries_settledThroughout _).of_built h
  | new _ h ih => exact settledThroughout_of_new ih h
  | cloneWith _ h ih => exact ih.cloneWith h
  | withSize _ h ih => exact ih.cloneWith h
  | withPrecisionScale _ h ih => exact ih.cloneWith h
  | withStoreType _ h ih =>
    obtain ⟨params, hparams⟩ := exists_cloneWith_of_withStoreType h
    exact ih.cloneWith hparams
  | withType _ type ih => exact ih.cloneWith (cloneWith_withType ih.settled type)
  | arrayOf _ ih => exact ih.arrayOf
  | multirangeOf _ catalog ih => exact ih.multirangeOf catalog
  | element _ h ih => exact ih.element h

/-- **Mappings stay valid.**  The facets of a mapping that can be had go with its form, fixed-width
text has a fixed length and takes a size, and the mapping's own parameters build the mapping. -/
theorem Reachable.valid (h : m.Reachable) :
    m.params.Valid ∧
      (m.kind = .scalar .character → m.params.form = .size ∧ m.params.fixedLength = true) ∧
      m.cloneWith m.params = .ok m := by
  have hsettled := h.settledThroughout.settled
  refine ⟨?_, ?_, hsettled⟩
  · exact Params.fault?_eq_none_iff.1 (settled_iff.1 hsettled).2
  · exact hsettled.character

/-- Single characters padded to five. -/
def paddedInitial : Mapping :=
  .scalar .character
    { type := .scalar .char, storeType := "character", form := .size, size := some 5,
      fixedLength := true, unicode := false }

/-- Characters that are found by name, widened, given another type, put into an array and taken out
of it again still have a size that suits them. -/
theorem Reachable.valid_paddedInitial :
    paddedInitial.Reachable ∧ paddedInitial.params.Valid ∧
      paddedInitial.cloneWith paddedInitial.params = .ok paddedInitial := by
  have hfound : Catalog.findByName ⟨true, []⟩ " CHAR ( 3 )" = some (.scalar .character
      { paddedInitial.params with type := .string, size := some 3 }) := by decide +kernel
  have hwidened : Reachable (.scalar .character { paddedInitial.params with type := .string }) :=
    @Reachable.withSize _ _ 5 (.built (.byName hfound)) rfl
  have hreachable : paddedInitial.Reachable :=
    (hwidened.withType (.scalar .char)).arrayOf.element rfl
  obtain ⟨hvalid, -, hclone⟩ := hreachable.valid
  exact ⟨hreachable, hvalid, hclone⟩

end Mapping

end PgFragment
