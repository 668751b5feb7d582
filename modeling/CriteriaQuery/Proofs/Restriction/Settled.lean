import CriteriaQuery.Proofs.Execution.Executable
import CriteriaQuery.Proofs.Plan.Draft
import CriteriaQuery.Proofs.Restriction.Support

/-! Tests that mean something definite on a store: all predicates that are built for them are true
just where the value of their column passes, and the subqueries in them can be executed. Tests with a
fixed meaning are of this kind on every store (`Test.means_of_isStock`), and so is membership in a
column, which looks at the store (`Test.means_memberOf`). -/
namespace CriteriaQuery
open Outcome
set_option autoImplicit false

/-! ## Predicates -/

/-- A predicate that is true where the value of one expression passes, on a store in which its
subqueries are executed. -/
structure Predicate.Means (catalog : Catalog) (store : Store) (p : Predicate SelectPlan)
    (path : Scalar) (accepts : Value → Bool) : Prop where
  executable : ∀ sub ∈ p.sets, sub.Executable catalog
  selectsValues : ∀ sub ∈ p.sets, sub.SelectsValues
  readsFrom : ∀ aliases, path.ReadsFrom aliases → p.ReadsFrom aliases
  holds_eq : ∀ binding,
    p.holds (SelectPlan.members catalog store) binding = accepts (binding.read path)

section Predicate
variable {catalog : Catalog} {store : Store} {p : Predicate SelectPlan} {path : Scalar}
  {accepts : Value → Bool}

theorem Predicate.Asks.means (h : p.Asks path accepts) : p.Means catalog store path accepts := by
  have hnone : ∀ sub, sub ∉ p.sets := by
    intro sub
    rw [h.sets_eq]
    exact List.not_mem_nil
  exact ⟨fun sub hsub => (hnone sub hsub).elim, fun sub hsub => (hnone sub hsub).elim,
    h.readsFrom, fun binding => h.holds_eq _ binding⟩

theorem Predicate.Means.not (h : p.Means catalog store path accepts) :
    (Predicate.not p).Means catalog store path fun v => !accepts v where
  executable := by
    intro sub hsub
    rw [Predicate.sets, Predicate.occurrences, Predicate.map_occurrences _ []] at hsub
    exact h.executable sub hsub
  selectsValues := by
    intro sub hsub
    rw [Predicate.sets, Predicate.occurrences, Predicate.map_occurrences _ []] at hsub
    exact h.selectsValues sub hsub
  readsFrom := h.readsFrom
  holds_eq binding := by rw [Predicate.holds, h.holds_eq]

end Predicate

/-! ## Tests -/

namespace Test

/-- On a store, whatever is built for a test means that the value of its column passes. -/
def Means (catalog : Catalog) (store : Store) (test : Test) (accepts : Value → Bool) : Prop :=
  ∀ draft path later p, test.build draft path = .ok (later, p) → p.Means catalog store path accepts

/-- A predicate can be built for every column, in every draft. -/
def Buildable (test : Test) : Prop := ∀ draft path, ∃ made, test.build draft path = .ok made

/-- If a predicate can be built once, it can be built always. -/
def Uniform (test : Test) : Prop :=
  ∀ draft path, (∃ made, test.build draft path = .ok made) → test.Buildable

variable {catalog : Catalog} {store : Store} {test : Test}

theorem means_of_isStock (hstock : test.isStock = true) :
    test.Means catalog store test.accepts :=
  fun _ _ _ _ h => (build_asks hstock h).2.means

theorem buildable_iff_supported (hstock : test.isStock = true) :
    test.Buildable ↔ test.Supported := by
  constructor
  · intro h
    exact (exists_build_iff hstock).mp (h (Draft.start .count "" "").1 (.count ""))
  · intro h draft path
    exact (exists_build_iff hstock).mpr h

theorem uniform_of_isStock (hstock : test.isStock = true) : test.Uniform :=
  fun _ _ h => (buildable_iff_supported hstock).mpr ((exists_build_iff hstock).mp h)

end Test

/-! ## Membership in a column -/

/-- Whether a value that is not null equals a value of a column. -/
def Store.hasValue (store : Store) (entity column : String) (v : Value) : Bool :=
  !v.isNull && (store.rows entity).any fun row => v.equal (row.value column)

theorem Store.hasValue_eq_true_iff {store : Store} {entity column : String} {v : Value} :
    store.hasValue entity column v = true ↔
      v.isNull = false ∧ ∃ row ∈ store.rows entity, v.equal (row.value column) = true := by
  simp [hasValue]

namespace SelectPlan
variable {catalog : Catalog} {store : Store} {entity aliasName column : String}

/-- The values of a column that are not null. -/
def columnValues (entity aliasName column : String) : SelectPlan :=
  { scan entity aliasName with
    selection := .expr (.column aliasName column)
    filter := some (.isNotNull (.column aliasName column)) }

theorem executable_columnValues (hdeclared : ∃ e, catalog.entity? entity = some e) :
    (columnValues entity aliasName column).Executable catalog := by
  have hself : aliasName ∈ (columnValues entity aliasName column).aliases :=
    List.mem_singleton_self _
  refine .intro hdeclared ⟨[], rfl⟩ ?_ ?_ ?_ ?_ hself
  · intro p hp
    cases hp
    exact hself
  · intro p hp sub hsub
    cases hp
    exact (List.not_mem_nil hsub).elim
  · intro p hp sub hsub
    cases hp
    exact (List.not_mem_nil hsub).elim
  · intro key hkey
    exact (List.not_mem_nil hkey).elim

theorem members_columnValues (hdeclared : ∃ e, catalog.entity? entity = some e) :
    (columnValues entity aliasName column).members catalog store =
      ((store.rows entity).map (·.value column)).filter (!·.isNull) := by
  have hread : ∀ row : Row, (Binding.root aliasName row).read (.column aliasName column) =
      row.value column := by
    intro row
    simp [Binding.read, Binding.row?, Binding.root, Row.value]
  have hkept : (columnValues entity aliasName column).kept catalog store =
      ((store.rows entity).map (Binding.root aliasName)).filter
        fun binding => !(binding.read (.column aliasName column)).isNull := by
    change ((store.rows entity).flatMap fun row => [Binding.root aliasName row]).filter _ = _
    rw [← List.map_eq_flatMap]
    rfl
  have hexecutable : (columnValues entity aliasName column).Executable catalog :=
    executable_columnValues hdeclared
  have hexecute : (columnValues entity aliasName column).execute catalog store =
      .ok (.values (((columnValues entity aliasName column).kept catalog store).map
        (·.read (.column aliasName column)))) := hexecutable.execute_eq_of
  rw [members, values, bind_ok hexecute]
  change List.map _ _ = _
  rw [hkept, List.filter_map, List.map_map, List.filter_map]
  simp only [Function.comp_def, hread]

end SelectPlan

namespace Test
variable {catalog : Catalog} {store : Store} {entity column : String} {flag : Bool}

theorem memberOf_eq_ok {draft later : Draft} {path : Scalar} {p : Predicate SelectPlan}
    (h : (memberOf catalog entity column flag).build draft path = .ok (later, p)) :
    (∃ e, catalog.entity? entity = some e) ∧ ∃ aliasName,
      p = if flag then .member path (.columnValues entity aliasName column)
        else .not (.member path (.columnValues entity aliasName column)) := by
  simp only [memberOf, build, Draft.createSubquery, bind_eq_ok, pure_eq_ok, Prod.exists,
    Prod.mk.injEq] at h
  obtain ⟨_, _, ⟨sub, ⟨e, he, rfl⟩, values, hvalues, rfl, rfl⟩, -, rfl⟩ := h
  rw [Scan.column_eq_ok hvalues]
  exact ⟨⟨e, Catalog.entity?_of_entity_eq_ok he⟩, _, rfl⟩

/-- A value passes if the column has it, or with `false` if it has not. -/
theorem means_memberOf : (memberOf catalog entity column flag).Means catalog store
    fun v => flag == store.hasValue entity column v := by
  intro draft path later p h
  obtain ⟨hdeclared, aliasName, rfl⟩ := memberOf_eq_ok h
  have hmember : (Predicate.member path (.columnValues entity aliasName column)).Means catalog store
      path (store.hasValue entity column) := by
    refine ⟨?_, ?_, fun _ h => h, ?_⟩
    · intro sub hsub
      rw [List.mem_singleton.mp hsub]
      exact SelectPlan.executable_columnValues hdeclared
    · intro sub hsub
      rw [List.mem_singleton.mp hsub]
      exact ⟨rfl, _, _, rfl⟩
    · intro binding
      rw [Predicate.holds, SelectPlan.members_columnValues hdeclared, Store.hasValue,
        List.any_filter, List.any_map]
      congr 2
      funext row
      -- null equals nothing, so that leaving it out makes no difference
      cases hvalue : row.value column <;> simp [hvalue, Value.isNull, Value.equal_null]
  cases flag with
  | true => simpa using hmember
  | false => simpa using hmember.not

end Test

end CriteriaQuery
