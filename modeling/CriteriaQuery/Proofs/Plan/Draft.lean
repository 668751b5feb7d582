import CriteriaQuery.Proofs.Execution.Extension
import Mathlib.Data.List.Nodup

/-! Drafts of plans: the aliases that they hand out are all different, and a join that succeeds adds
a scan behind those of the draft. -/
namespace CriteriaQuery
open Outcome
set_option autoImplicit false

/-! ## Look-up -/

theorem Catalog.relation?_eq_some {catalog : Catalog} {source name : String} {relation : Relation}
    (h : catalog.relation? source name = some relation) :
    relation.source = source ∧ relation.name = name := by
  simpa using List.find?_some h

theorem Catalog.entity?_of_entity_eq_ok {catalog : Catalog} {name : String} {entity : Entity}
    (h : catalog.entity name = .ok entity) : catalog.entity? name = some entity := by
  unfold Catalog.entity at h
  split at h
  · cases h
    assumption
  · cases h

theorem Scan.column_eq_ok {catalog : Catalog} {scan : Scan} {name : String} {path : Scalar}
    (h : scan.column catalog name = .ok path) : path = .column scan.aliasName name := by
  obtain ⟨_, -, hpure⟩ := bind_eq_ok.mp h
  exact (pure_eq_ok.mp hpure).symm

namespace Draft

/-! ## Aliases -/

theorem numberText_injective : Function.Injective numberText := by
  intro m n h
  have hdigits : Nat.toDigits 10 m = Nat.toDigits 10 n := String.ofList_injective h
  rw [← Nat.ofDigitChars_ten_toDigits (n := m), hdigits, Nat.ofDigitChars_ten_toDigits]

theorem aliasOf_injective (stem : String) : Function.Injective (aliasOf stem) := by
  intro m n h
  exact numberText_injective ((String.append_right_inj stem).mp h)

theorem nodup_aliases (stem : String) (n : Nat) : ((List.range n).map (aliasOf stem)).Nodup :=
  List.nodup_range.map (aliasOf_injective stem)

/-! ## One join -/

def nextJoin (draft : Draft) (parent : Scan) (relation : Relation) (mode : JoinMode) : Join where
  aliasName := aliasOf draft.stem draft.nextAlias
  parentAlias := parent.aliasName
  relation := relation.name
  entity := relation.target
  type := joinType mode
  fetch := mode.fetch

def withJoin (draft : Draft) (join : Join) : Draft :=
  { draft with
    plan := { draft.plan with joins := draft.plan.joins ++ [join] },
    nextAlias := draft.nextAlias + 1 }

/-- A join succeeds if the relation is declared, reaches as many rows as the relationship says, and
leads to the entity. -/
theorem join_eq_ok {draft later : Draft} {catalog : Catalog} {parent scan : Scan}
    {relationship : Relationship} {entity : String} {mode : JoinMode} :
    draft.join catalog parent relationship entity mode = .ok (later, scan) ↔
      ∃ relation, catalog.relation? parent.entity relationship.relation = some relation ∧
        relation.cardinality.isToMany = relationship.isToMany ∧ relation.target = entity ∧
        later = draft.withJoin (draft.nextJoin parent relation mode) ∧
        scan = (draft.nextJoin parent relation mode).scan := by
  unfold join Catalog.relation
  cases hrelation : catalog.relation? parent.entity relationship.relation with
  | none => simp [bind, Except.bind]
  | some relation =>
    rw [bind_ok rfl]
    by_cases hcardinality : relation.cardinality.isToMany = relationship.isToMany
    · by_cases htarget : relation.target = entity
      · simp only [hcardinality, htarget, ne_eq, not_true_eq_false, if_false, pure_eq_ok,
          Prod.mk.injEq, Option.some.injEq, exists_eq_left', true_and]
        constructor
        · rintro ⟨rfl, rfl⟩
          rw [← htarget]
          exact ⟨rfl, rfl⟩
        · rintro ⟨rfl, rfl⟩
          rw [← htarget]
          exact ⟨rfl, rfl⟩
      · simp [hcardinality, htarget]
    · simp [hcardinality]

@[simp] theorem scans_withJoin (draft : Draft) (join : Join) :
    (draft.withJoin join).plan.scans = draft.plan.scans ++ [join.scan] := by
  simp [withJoin, SelectPlan.scans, SelectPlan.rootScan]

/-! ## Fresh drafts -/

/-- A draft in which nothing has been joined to its root scan. -/
structure Fresh (draft : Draft) (scan : Scan) : Prop where
  joins_eq : draft.plan.joins = []
  rootScan_eq : draft.plan.rootScan = scan
  aliasName_eq : scan.aliasName = aliasOf draft.stem 0
  nextAlias_eq : draft.nextAlias = 1

theorem fresh_start (kind : ResultKind) (stem entity : String) :
    (start kind stem entity).1.Fresh (start kind stem entity).2 := ⟨rfl, rfl, rfl, rfl⟩

theorem Fresh.select {draft : Draft} {scan : Scan} (h : draft.Fresh scan) (e : Scalar) :
    (draft.select e).Fresh scan := ⟨h.joins_eq, h.rootScan_eq, h.aliasName_eq, h.nextAlias_eq⟩

theorem Fresh.links?_eq {draft : Draft} {scan : Scan} (h : draft.Fresh scan) (catalog : Catalog) :
    draft.plan.links? catalog = some [] := by
  rw [SelectPlan.links?, h.joins_eq]
  rfl

theorem Fresh.bindingsFrom_eq {draft : Draft} {scan : Scan} (h : draft.Fresh scan)
    (catalog : Catalog) (store : Store) (row : Row) :
    draft.plan.bindingsFrom catalog store row = [Binding.root scan.aliasName row] := by
  have halias : draft.plan.rootAlias = scan.aliasName := by
    rw [← h.rootScan_eq]
    rfl
  rw [SelectPlan.bindingsFrom, h.links?_eq, halias]
  rfl

end Draft

end CriteriaQuery
