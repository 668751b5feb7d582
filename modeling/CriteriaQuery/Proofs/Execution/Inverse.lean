import CriteriaQuery.People.Model
import CriteriaQuery.Proofs.Value.Order
import CriteriaQuery.Proofs.Execution.Extension

/-! Relations seen from both sides. A join looks for the key of its parent among the rows of its
target; since equality of values is symmetric, a join over the inverse relation makes the same pairs
the other way round, each as often (`Relation.joined_inverse`). -/
namespace CriteriaQuery
set_option autoImplicit false

namespace Relation
variable {relation : Relation} {catalog : Catalog} {store : Store} {source target : Row}

/-! ## Pairs -/

/-- The pairs of rows that are related, source by source. -/
def pairs (relation : Relation) (store : Store) : List (Row × Row) :=
  (store.rows relation.source).flatMap fun source =>
    (relation.related store source).map fun target => (source, target)

theorem relates_inverse (name : String) :
    (relation.inverse name).relates target source = relation.relates source target := by
  rw [Bool.eq_iff_iff, relates_iff, relates_iff, Value.equal_comm]
  rfl

theorem pairs_eq_filter (relation : Relation) (store : Store) :
    relation.pairs store = (store.rows relation.source ×ˢ store.rows relation.target).filter
      fun pair => relation.relates pair.1 pair.2 := by
  have hrow : ∀ source, (relation.related store source).map (fun target => (source, target)) =
      ((store.rows relation.target).map (Prod.mk source)).filter
        fun pair => relation.relates pair.1 pair.2 := by
    intro source
    rw [List.filter_map]
    rfl
  simp only [pairs, hrow]
  exact List.filter_flatMap.symm

theorem product_swap_perm {α β : Type} (sources : List α) (targets : List β) :
    (targets ×ˢ sources).Perm ((sources ×ˢ targets).map Prod.swap) := by
  rw [← Multiset.coe_eq_coe, ← Multiset.map_coe, ← Multiset.coe_product, ← Multiset.coe_product]
  exact (Multiset.map_swap_product (sources : Multiset α) (targets : Multiset β)).symm

/-- The inverse relates the same rows the other way round. -/
theorem pairs_inverse_perm (relation : Relation) (name : String) (store : Store) :
    ((relation.inverse name).pairs store).Perm ((relation.pairs store).map Prod.swap) := by
  have hfilter : ((relation.pairs store).map Prod.swap) =
      ((store.rows relation.source ×ˢ store.rows relation.target).map Prod.swap).filter
        fun pair => (relation.inverse name).relates pair.1 pair.2 := by
    rw [pairs_eq_filter, List.filter_map]
    congr 2
    funext pair
    exact (relates_inverse name).symm
  rw [hfilter, pairs_eq_filter]
  exact (product_swap_perm _ _).filter _

/-! ## Joins -/

/-- A plan whose only join is an inner one over a relation, from its source. -/
structure JoinedBy (relation : Relation) (aliasName : String) (plan : SelectPlan) : Prop where
  rootEntity_eq : plan.rootEntity = relation.source
  joins_eq : ∃ join, plan.joins = [join] ∧ join.aliasName = aliasName ∧
    join.parentAlias = plan.rootAlias ∧ join.relation = relation.name ∧ join.type = .inner

def bindingOf (rootAlias aliasName : String) (pair : Row × Row) : Binding :=
  (Binding.root rootAlias pair.1).bind aliasName (some pair.2)

end Relation

theorem Link.extend_root {store : Store} {join : Join} {relation : Relation} {rootAlias : String}
    (hparent : join.parentAlias = rootAlias) (htype : join.type = .inner) (row : Row) :
    (⟨join, relation⟩ : Link).extend store (Binding.root rootAlias row) =
      (relation.related store row).map fun target =>
        Relation.bindingOf rootAlias join.aliasName (row, target) := by
  have hrow : (Binding.root rootAlias row).row? join.parentAlias = some row := by
    simp [Binding.row?, Binding.root, hparent]
  have hrows : (⟨join, relation⟩ : Link).rows store (Binding.root rootAlias row) =
      relation.related store row := by
    rw [Link.rows, hrow]
    rfl
  rw [Link.extend, hrows, htype]
  cases relation.related store row <;> rfl

namespace Relation
variable {relation : Relation} {catalog : Catalog} {plan back : SelectPlan}
  {aliasName backAlias : String}

theorem JoinedBy.joined_eq (h : relation.JoinedBy aliasName plan) {entity : Entity}
    (hentity : catalog.entity? relation.source = some entity)
    (hrelation : catalog.relation? relation.source relation.name = some relation) (store : Store) :
    plan.joined catalog store =
      .ok ((relation.pairs store).map (bindingOf plan.rootAlias aliasName)) := by
  obtain ⟨join, hjoins, rfl, hparent, hname, htype⟩ := h.joins_eq
  have hlink : join.link? catalog [plan.rootScan] = some ⟨join, relation⟩ := by
    rw [Join.link?_eq_some]
    refine ⟨relation.source, relation, ?_, ?_, rfl⟩
    · simp [Scan.entityIn?, SelectPlan.rootScan, hparent, h.rootEntity_eq]
    · rw [hname]
      exact hrelation
  have hlinks : plan.links? catalog = some [⟨join, relation⟩] := by
    rw [SelectPlan.links?, hjoins, Join.links?_cons]
    exact ⟨_, [], hlink, rfl, rfl⟩
  have hroot : catalog.entity? plan.rootEntity = some entity := by
    rw [h.rootEntity_eq]
    exact hentity
  have hfrom : plan.bindingsFrom catalog store = fun row => (relation.related store row).map
      fun target => bindingOf plan.rootAlias join.aliasName (row, target) := by
    funext row
    rw [SelectPlan.bindingsFrom, hlinks, ← Link.extend_root hparent htype row]
    exact List.flatMap_singleton _ _
  rw [SelectPlan.joined_eq store hroot hlinks, h.rootEntity_eq, pairs, List.map_flatMap, hfrom]
  simp only [List.map_map]
  rfl

/-- A join over a relation from its source makes the pairs of rows that are related, and one over its
inverse makes the same pairs the other way round. -/
theorem joined_inverse {name : String} {source target : Entity}
    (hsource : catalog.entity? relation.source = some source)
    (htarget : catalog.entity? relation.target = some target)
    (hrelation : catalog.relation? relation.source relation.name = some relation)
    (hinverse : catalog.relation? relation.target name = some (relation.inverse name))
    (hplan : relation.JoinedBy aliasName plan)
    (hback : (relation.inverse name).JoinedBy backAlias back) (store : Store) :
    plan.joined catalog store =
        .ok ((relation.pairs store).map (bindingOf plan.rootAlias aliasName)) ∧
      back.joined catalog store =
        .ok (((relation.inverse name).pairs store).map (bindingOf back.rootAlias backAlias)) ∧
      ((relation.inverse name).pairs store).Perm ((relation.pairs store).map Prod.swap) :=
  ⟨hplan.joined_eq hsource hrelation store, hback.joined_eq htarget hinverse store,
    pairs_inverse_perm relation name store⟩

end Relation

namespace People

def withEmployer : SelectPlan :=
  { SelectPlan.scan "Person" "t0" with
    joins := [⟨"t1", "t0", "employer", "Business", .inner, false⟩] }

def withEmployees : SelectPlan :=
  { SelectPlan.scan "Business" "t0" with
    joins := [⟨"t1", "t0", "employees", "Person", .inner, true⟩] }

/-- A business with two people who work for it, one by a narrower key, and one who is unemployed. -/
def staff : Store :=
  (Store.withRows {} "Business" [⟨[("id", .int64 7)]⟩]).withRows "Person"
    [⟨[("id", .int64 1), ("employerId", .int32 7)]⟩, ⟨[("id", .int64 2), ("employerId", .null)]⟩,
      ⟨[("id", .int64 3), ("employerId", .int64 7)]⟩]

theorem joined_inverse_of_employer :
    catalog.entity? "Person" = some personEntity ∧ catalog.entity? "Business" = some businessEntity ∧
    catalog.relation? "Person" "employer" = some employer ∧
    catalog.relation? "Business" "employees" = some (employer.inverse "employees") ∧
    employer.JoinedBy "t1" withEmployer ∧ (employer.inverse "employees").JoinedBy "t1" withEmployees ∧
    (employer.pairs staff).length = 2 ∧
    withEmployer.joined catalog staff =
      .ok ((employer.pairs staff).map (Relation.bindingOf "t0" "t1")) ∧
    withEmployees.joined catalog staff =
      .ok (((employer.inverse "employees").pairs staff).map (Relation.bindingOf "t0" "t1")) ∧
    ((employer.inverse "employees").pairs staff).Perm ((employer.pairs staff).map Prod.swap) := by
  have hplan : employer.JoinedBy "t1" withEmployer := ⟨rfl, _, rfl, rfl, rfl, rfl, rfl⟩
  have hback : (employer.inverse "employees").JoinedBy "t1" withEmployees :=
    ⟨rfl, _, rfl, rfl, rfl, rfl, rfl⟩
  have hperson : catalog.entity? "Person" = some personEntity := rfl
  have hbusiness : catalog.entity? "Business" = some businessEntity := rfl
  exact ⟨hperson, hbusiness, rfl, rfl, hplan, hback, rfl,
    Relation.joined_inverse hperson hbusiness rfl rfl hplan hback staff⟩

end People

end CriteriaQuery
