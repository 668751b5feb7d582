import CriteriaQuery.Proofs.Handler.Filter

/-! The meaning of a search, told without joins and subqueries. A root row matches a criteria record
if related rows can be chosen jointly for all main restrictions such that these accept them, and
likewise for all promoted ones. A count query returns the number of root rows that match, and a list
query without sorts returns just these (`Handler.search_returns_matches`). -/
namespace CriteriaQuery
open Outcome
set_option autoImplicit false

/-- The values of a column are not null and tell the rows of an entity apart. -/
structure Store.Identified (store : Store) (entity column : String) : Prop where
  not_null : ∀ row ∈ store.rows entity, (row.value column).isNull = false
  equal_iff : ∀ i j : Fin (store.rows entity).length,
    ((store.rows entity)[i].value column).equal ((store.rows entity)[j].value column) = true ↔ i = j

section Identified
variable {store : Store} {entity column : String} {row other : Row}

theorem Store.Identified.eq_of_equal (h : store.Identified entity column)
    (hrow : row ∈ store.rows entity) (hother : other ∈ store.rows entity)
    (hequal : (row.value column).equal (other.value column) = true) : row = other := by
  obtain ⟨i, hi, rfl⟩ := List.mem_iff_getElem.mp hrow
  obtain ⟨j, hj, rfl⟩ := List.mem_iff_getElem.mp hother
  have hij := (h.equal_iff ⟨i, hi⟩ ⟨j, hj⟩).mp hequal
  rw [Fin.mk.injEq] at hij
  subst hij
  rfl

theorem Store.Identified.equal_self (h : store.Identified entity column)
    (hrow : row ∈ store.rows entity) : (row.value column).equal (row.value column) = true := by
  obtain ⟨i, hi, rfl⟩ := List.mem_iff_getElem.mp hrow
  exact (h.equal_iff ⟨i, hi⟩ ⟨i, hi⟩).mpr rfl

end Identified

namespace Handler
variable {C S : Type} [DecidableEq S] {handler : Handler C S} {definition : QueryDefinition C S}
  {criteria : C} {kind : ResultKind} {plan : SelectPlan} {store : Store}

/-- A root row from which the main restrictions can be satisfied jointly, and so can the promoted
ones. -/
def Matches (handler : Handler C S) (store : Store) (criteria : C) (row : Row) : Prop :=
  Satisfies handler.catalog store handler.config.root (handler.main criteria) row ∧
    Satisfies handler.catalog store handler.config.root (handler.promoted criteria) row

/-- Where identities tell root rows apart, the subquery selects just those from which the promoted
restrictions can be satisfied. -/
theorem selected_iff_satisfies
    (hid : store.Identified handler.config.root.entity handler.config.idColumn) {row : Row}
    (hrow : row ∈ store.rows handler.config.root.entity) :
    handler.Selected store criteria row ↔
      Satisfies handler.catalog store handler.config.root (handler.promoted criteria) row := by
  constructor
  · rintro (hnone | ⟨-, other, hother, hsatisfies, hequal⟩)
    · rw [hnone]
      exact ⟨fun _ => row, rfl, by simp⟩
    · rw [hid.eq_of_equal hrow hother hequal]
      exact hsatisfies
  · intro hsatisfies
    exact Or.inr ⟨hid.not_null row hrow, row, hrow, hsatisfies, hid.equal_self hrow⟩

theorem Compiled.passes_iff_matches (hstock : handler.config.Stock)
    (hid : store.Identified handler.config.root.entity handler.config.idColumn)
    (compiled : handler.Compiled kind definition plan) (hsorts : compiled.sorts = []) {row : Row}
    (hrow : row ∈ store.rows handler.config.root.entity) :
    plan.passes handler.catalog store row = true ↔
      handler.Matches store definition.criteria row := by
  have hspans := compiled.spans
  rw [hsorts, List.map_nil, List.append_nil] at hspans
  rw [compiled.passes_iff hstock, selected_iff_satisfies hid hrow, hsorts, List.map_nil]
  apply and_congr_left
  intro _
  exact hspans.exists_accepted_iff (fun node => mem_mainNodes_iff node)
    (fun node hnode => inner_of_resolve_nil (hspans.wired.mem node hnode))

open Classical in
/-- A count query returns the number of root rows that match the criteria, and a list query without
sorts returns just those rows, in the order of the store. -/
theorem search_returns_matches (hstock : handler.config.Stock)
    (hstore : store.Functional handler.catalog)
    (hid : store.Identified handler.config.root.entity handler.config.idColumn) (criteria : C) :
    (∀ sorts plan, handler.countPlan ⟨criteria, sorts⟩ = .ok plan →
      plan.count handler.catalog store = .ok ((store.rows handler.config.root.entity).filter
        fun row => handler.Matches store criteria row).length) ∧
    (∀ plan, handler.entityPlan ⟨criteria, []⟩ = .ok plan →
      plan.entities handler.catalog store = .ok ((store.rows handler.config.root.entity).filter
        fun row => handler.Matches store criteria row)) := by
  constructor
  · intro sorts plan hplan
    obtain ⟨compiled⟩ := compiled_of_countPlan hplan
    rw [compiled.count_eq_length hstock hstore]
    congr 2
    apply List.filter_congr
    intro row hrow
    rw [Bool.eq_iff_iff, decide_eq_true_iff]
    exact compiled.passes_iff_matches hstock hid compiled.sorts_eq_nil_of_count hrow
  · intro plan hplan
    obtain ⟨compiled⟩ := compiled_of_entityPlan hplan
    rw [compiled.entities_eq_filter hstock hstore rfl]
    congr 1
    apply List.filter_congr
    intro row hrow
    rw [Bool.eq_iff_iff, decide_eq_true_iff]
    exact compiled.passes_iff_matches hstock hid (compiled.sorts_eq_of_resolveSorts rfl) hrow

end Handler

/-! ## Employed and unemployed parents -/

namespace People

/-- Bob works for Acme and Suzy does not work, and each of them has a child. -/
def twoParents : Store :=
  (Store.withRows {} "Business" [⟨[("id", .int64 1), ("name", .string "Acme")]⟩]).withRows "Person"
    [⟨[("id", .int64 1), ("firstName", .string "Bob"), ("employerId", .int64 1)]⟩,
      ⟨[("id", .int64 2), ("firstName", .string "Molly"), ("parentId", .int64 1)]⟩,
      ⟨[("id", .int64 3), ("firstName", .string "Suzy")]⟩,
      ⟨[("id", .int64 4), ("firstName", .string "Max"), ("parentId", .int64 3)]⟩]

theorem functional_twoParents : twoParents.Functional catalog :=
  Store.functional_of_relations (by decide)

theorem identified_twoParents : twoParents.Identified "Person" "id" := ⟨by decide, by decide⟩

open Classical in
theorem search_returns_matches_of_twoParents :
    employedParentsOfM.config.Stock ∧ twoParents.Functional catalog ∧
      twoParents.Identified "Person" "id" ∧
      ∃ countPlan entityPlan, employedParentsOfM.countPlan ⟨(), []⟩ = .ok countPlan ∧
        employedParentsOfM.entityPlan ⟨(), []⟩ = .ok entityPlan ∧
        countPlan.count catalog twoParents = .ok 1 ∧
        countPlan.count catalog twoParents = .ok ((twoParents.rows "Person").filter
          fun row => employedParentsOfM.Matches twoParents () row).length ∧
        entityPlan.entities catalog twoParents = .ok ((twoParents.rows "Person").filter
          fun row => employedParentsOfM.Matches twoParents () row) :=
  ⟨stock_employedParentsOfM, functional_twoParents, identified_twoParents, _, _, rfl, rfl, rfl,
    (@Handler.search_returns_matches _ _ _ employedParentsOfM twoParents stock_employedParentsOfM
      functional_twoParents identified_twoParents ()).1 [] _ rfl,
    (@Handler.search_returns_matches _ _ _ employedParentsOfM twoParents stock_employedParentsOfM
      functional_twoParents identified_twoParents ()).2 _ rfl⟩

end People

end CriteriaQuery
