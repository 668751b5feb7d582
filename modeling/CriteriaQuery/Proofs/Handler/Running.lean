import CriteriaQuery.Proofs.Execution.OrderBy
import CriteriaQuery.Proofs.Handler.Compilation
import CriteriaQuery.Proofs.Restriction.Settled

/-! Compiled plans run. Where the tests of all present restrictions mean something definite, whatever
a handler compiles is executable (`Handler.Compiled.executable_of_settled`): the predicates read the
scans of their nodes, and the subquery that tests promoted groups is executable again and selects the
identities of root rows. Tests with a fixed meaning are enough for that. The one thing that can still
stop such a plan is the sort of a list query, on values without a common order
(`Handler.compiled_plans_run`). -/
namespace CriteriaQuery
open Outcome
set_option autoImplicit false

/-- A configuration whose restrictions only make tests with a fixed meaning. -/
def HandlerConfig.Stock {C S : Type} (config : HandlerConfig C S) : Prop :=
  ∀ restriction ∈ config.restrictions, ∀ criteria test, restriction.test? criteria = some test →
    test.isStock = true

/-- What restrictions mean: which values of their columns pass. -/
abbrev Meaning := Applied → Value → Bool

/-- What tests with a fixed meaning make restrictions mean. -/
def Meaning.fixed : Meaning := fun a => a.test.accepts

/-- A predicate on the scan of a restriction's node that says what the restriction means. -/
def Applied.Expressed (catalog : Catalog) (store : Store) (meaning : Meaning) (scope : Scope)
    (a : Applied) (p : Predicate SelectPlan) : Prop :=
  ∃ scan, (a.node, scan) ∈ scope.scans ∧
    p.Means catalog store (.column scan.aliasName a.column) (meaning a)

/-- Whether a restriction accepts the row that is chosen for its node. -/
def Applied.accepts (a : Applied) (choice : Choice) : Bool :=
  a.test.accepts (choice.value a.node a.column)

/-! ## Predicates of a spanning plan -/

section Spans
variable {catalog : Catalog} {store : Store} {meaning : Meaning} {modes : JoinModes}
  {tree : JoinTree} {nodes : List JoinNode} {scope : Scope} {plan : SelectPlan}
  {applied : List Applied} {ps : List (Predicate SelectPlan)}

theorem expressed_of_builds (h : plan.Spans catalog modes tree nodes scope)
    (hmeans : ∀ a ∈ applied, a.test.Means catalog store (meaning a))
    (htree : ∀ a ∈ applied, a.node ∈ tree)
    (hbuilds : List.Forall₂ (Applied.Builds catalog scope) applied ps) :
    List.Forall₂ (Applied.Expressed catalog store meaning scope) applied ps := by
  have hboth := (List.forall₂_and_left _ _).mpr
    ⟨fun a ha => And.intro (hmeans a ha) (htree a ha), hbuilds⟩
  apply hboth.imp
  rintro a p ⟨⟨ha, hnode⟩, scan, draft, later, hscan, hbuild⟩
  obtain ⟨path, hpath, htest⟩ := bind_eq_ok.mp hbuild
  refine ⟨scan, h.mem_of_scan_eq_ok hnode hscan, ?_⟩
  rw [← Scan.column_eq_ok hpath]
  exact ha _ _ _ _ htest

theorem readsFrom_of_expressed (h : plan.Spans catalog modes tree nodes scope)
    (hexpressed : List.Forall₂ (Applied.Expressed catalog store meaning scope) applied ps) :
    ∀ p ∈ ps, p.ReadsFrom plan.aliases := by
  refine forall_mem_of_forall₂ hexpressed ?_
  rintro a p ⟨scan, hscan, hp⟩
  exact hp.readsFrom _ (h.aliasName_mem hscan)

theorem executable_of_expressed
    (hexpressed : List.Forall₂ (Applied.Expressed catalog store meaning scope) applied ps) :
    ∀ p ∈ ps, ∀ sub ∈ p.sets, sub.Executable catalog ∧ sub.SelectsValues := by
  refine forall_mem_of_forall₂ hexpressed ?_
  rintro a p ⟨scan, -, hp⟩ sub hsub
  exact ⟨hp.executable sub hsub, hp.selectsValues sub hsub⟩

theorem holds_iff_of_expressed (h : plan.Spans catalog modes tree nodes scope)
    (hexpressed : List.Forall₂ (Applied.Expressed catalog store meaning scope) applied ps)
    (choice : Choice) :
    (∀ p ∈ ps, p.holds (SelectPlan.members catalog store) (scope.binding choice) = true) ↔
      ∀ a ∈ applied, meaning a (choice.value a.node a.column) = true := by
  refine forall_mem_iff_of_forall₂ hexpressed ?_
  rintro a p ⟨scan, hscan, hp⟩
  rw [hp.holds_eq, h.read_binding hscan]

theorem SelectPlan.Spans.rootAlias_mem (h : plan.Spans catalog modes tree nodes scope) :
    plan.rootAlias ∈ plan.aliases := h.aliasName_mem h.root_mem

theorem SelectPlan.Spans.linked (h : plan.Spans catalog modes tree nodes scope) :
    ∃ links, plan.links? catalog = some links := by
  rw [h.links?_eq]
  exact h.wired.linked

end Spans

namespace Handler
variable {C S : Type} [DecidableEq S] {handler : Handler C S} {definition : QueryDefinition C S}
  {kind : ResultKind} {plan : SelectPlan} {criteria : C} {store : Store}

theorem isStock_of_present (hstock : handler.config.Stock) {a : Applied}
    (h : a ∈ handler.present criteria) : a.test.isStock = true := by
  obtain ⟨restriction, hrestriction, hpresent⟩ := List.mem_filterMap.mp h
  obtain ⟨test, htest, rfl⟩ := Option.map_eq_some_iff.mp hpresent
  exact hstock restriction hrestriction criteria test htest

/-- What the present restrictions of a record mean on a store. The promoted ones mean what their
tests accept by themselves. -/
structure Settled (handler : Handler C S) (store : Store) (criteria : C) (meaning : Meaning) :
    Prop where
  main : ∀ a ∈ handler.main criteria, a.test.Means handler.catalog store (meaning a)
  promoted : ∀ a ∈ handler.promoted criteria,
    a.test.Means handler.catalog store (Meaning.fixed a)

theorem settled_of_stock (hstock : handler.config.Stock) (store : Store) (criteria : C) :
    handler.Settled store criteria .fixed where
  main _ ha := Test.means_of_isStock (isStock_of_present hstock (List.mem_filter.mp ha).1)
  promoted _ ha := Test.means_of_isStock (isStock_of_present hstock (List.mem_filter.mp ha).1)

/-! ## Subqueries -/

theorem Promotion.expressed {sub : SelectPlan}
    (hmeans : ∀ a ∈ handler.promoted criteria,
      a.test.Means handler.catalog store (Meaning.fixed a))
    (promotion : handler.Promotion (handler.promotedGroups criteria) sub) :
    List.Forall₂ (Applied.Expressed handler.catalog store .fixed promotion.scope)
      ((handler.promotedGroups criteria).flatMap (·.members)) promotion.predicates := by
  have hbuilds := RestrictionGroup.predicates_builds
    (fun group hgroup a ha => node_eq_of_mem_groups (List.mem_filter.mp hgroup).1 ha)
    promotion.predicates_eq
  refine expressed_of_builds promotion.spans ?_ ?_ hbuilds.2
  · exact fun a ha => hmeans a ((mem_promoted_iff a).mp ha)
  · exact fun a ha => node_mem_tree_of_present (List.mem_filter.mp ((mem_promoted_iff a).mp ha)).1

theorem Promotion.executable {sub : SelectPlan}
    (hmeans : ∀ a ∈ handler.promoted criteria,
      a.test.Means handler.catalog store (Meaning.fixed a))
    (promotion : handler.Promotion (handler.promotedGroups criteria) sub) :
    sub.Executable handler.catalog := by
  have hexpressed := promotion.expressed hmeans
  have hspans := promotion.spans
  have hsets : ∀ p ∈ sub.filter, ∀ set ∈ p.sets,
      set.Executable handler.catalog ∧ set.SelectsValues := by
    intro p hp set hset
    rw [promotion.filter_eq, Option.mem_some_iff] at hp
    subst hp
    obtain ⟨q, hq, hmem⟩ := Predicate.mem_sets_all.mp hset
    exact executable_of_expressed hexpressed q hq set hmem
  refine .intro hspans.declared hspans.linked ?_ ?_ ?_ ?_ ?_
  · intro p hp
    rw [promotion.filter_eq, Option.mem_some_iff] at hp
    subst hp
    exact Predicate.readsFrom_all.mpr (readsFrom_of_expressed hspans hexpressed)
  · exact fun p hp set hset => (hsets p hp set hset).1
  · exact fun p hp set hset => (hsets p hp set hset).2
  · intro key hkey
    rw [promotion.orderBy_eq] at hkey
    exact (List.not_mem_nil hkey).elim
  · rw [promotion.selection_eq]
    exact hspans.rootAlias_mem

/-! ## Queries -/

/-- The predicates of a query: one for each main restriction, and one more that looks up the root
row in a subquery if there are promoted ones. -/
theorem Compiled.expressed {meaning : Meaning}
    (hsettled : handler.Settled store definition.criteria meaning)
    (compiled : handler.Compiled kind definition plan) :
    ∃ mains extra, compiled.predicates = mains ++ extra ∧
      List.Forall₂ (Applied.Expressed handler.catalog store meaning compiled.scope)
        ((handler.mainGroups definition.criteria).flatMap (·.members)) mains ∧
      (handler.promotedGroups definition.criteria = [] ∧ extra = [] ∨
        handler.promotedGroups definition.criteria ≠ [] ∧ ∃ sub,
          extra = [.member (.column plan.rootAlias handler.config.idColumn) sub] ∧
          Nonempty (handler.Promotion (handler.promotedGroups definition.criteria) sub)) := by
  obtain ⟨-, mains, extra, heq, hbuilds, hextra⟩ := conditions_eq_ok compiled.conditions_eq
  refine ⟨mains, extra, heq, expressed_of_builds compiled.spans ?_ ?_ hbuilds, hextra⟩
  · exact fun a ha => hsettled.main a ((mem_main_iff a).mp ha)
  · exact fun a ha => node_mem_tree_of_present (List.mem_filter.mp ((mem_main_iff a).mp ha)).1

theorem Compiled.keys_readFrom (compiled : handler.Compiled kind definition plan) :
    ∀ key ∈ plan.orderBy, key.expr.ReadsFrom plan.aliases := by
  have hall := (List.forall₂_and_left _ _).mpr
    ⟨fun sort hsort => node_mem_tree_of_sorts compiled.sorts_eq hsort,
      forall₂_of_mapM compiled.keys_eq⟩
  refine forall_mem_of_forall₂ hall ?_
  rintro sort key ⟨hnode, hkey⟩
  obtain ⟨scan, hscan, horder⟩ := bind_eq_ok.mp hkey
  obtain ⟨path, hpath, hpure⟩ := bind_eq_ok.mp horder
  rw [← pure_eq_ok.mp hpure, Scan.column_eq_ok hpath]
  exact compiled.spans.aliasName_mem (compiled.spans.mem_of_scan_eq_ok hnode hscan)

theorem Compiled.executable_of_settled {meaning : Meaning}
    (hsettled : handler.Settled store definition.criteria meaning)
    (compiled : handler.Compiled kind definition plan) : plan.Executable handler.catalog := by
  obtain ⟨mains, extra, heq, hexpressed, hextra⟩ := compiled.expressed hsettled
  have hspans := compiled.spans
  have hfilter : ∀ p ∈ plan.filter, p = .all (mains ++ extra) := by
    intro p hp
    rw [compiled.filter_eq, heq] at hp
    split at hp
    · cases hp
    · exact (Option.mem_some_iff.mp hp).symm
  -- a subquery is that of a main restriction or the one that tests the promoted ones
  have hsub : ∀ p ∈ plan.filter, ∀ sub ∈ p.sets,
      sub.Executable handler.catalog ∧ sub.SelectsValues := by
    intro p hp sub hmem
    rw [hfilter p hp] at hmem
    obtain ⟨q, hq, hmem⟩ := Predicate.mem_sets_all.mp hmem
    rcases List.mem_append.mp hq with hq | hq
    · exact executable_of_expressed hexpressed q hq sub hmem
    · rcases hextra with ⟨-, rfl⟩ | ⟨-, other, rfl, ⟨promotion⟩⟩
      · exact (List.not_mem_nil hq).elim
      · rw [List.mem_singleton] at hq
        subst hq
        rw [List.mem_singleton.mp hmem]
        exact ⟨promotion.executable hsettled.promoted, promotion.orderBy_eq, _, _,
          promotion.selection_eq⟩
  refine .intro hspans.declared hspans.linked ?_ ?_ ?_ compiled.keys_readFrom ?_
  · intro p hp
    rw [hfilter p hp, Predicate.readsFrom_all]
    intro q hq
    rcases List.mem_append.mp hq with hq | hq
    · exact readsFrom_of_expressed hspans hexpressed q hq
    · rcases hextra with ⟨-, rfl⟩ | ⟨-, other, rfl, -⟩
      · exact (List.not_mem_nil hq).elim
      · rw [List.mem_singleton.mp hq]
        exact hspans.rootAlias_mem
  · exact fun p hp sub hmem => (hsub p hp sub hmem).1
  · exact fun p hp sub hmem => (hsub p hp sub hmem).2
  · rw [compiled.selection_eq]
    cases kind with
    | count => exact hspans.rootAlias_mem
    | entity => exact hspans.rootAlias_mem

theorem Compiled.executable (hstock : handler.config.Stock)
    (compiled : handler.Compiled kind definition plan) : plan.Executable handler.catalog :=
  compiled.executable_of_settled (settled_of_stock hstock {} definition.criteria)

/-! ## Outputs -/

theorem Compiled.count_eq_of_executable (h : plan.Executable handler.catalog)
    (compiled : handler.Compiled .count definition plan) (store : Store) :
    plan.count handler.catalog store =
      .ok ((plan.kept handler.catalog store).filterMap (·.row? plan.rootAlias)).length := by
  rw [SelectPlan.count, h.execute_eq_of, compiled.orderBy_eq_nil_of_count, compiled.selection_eq]
  rfl

theorem Compiled.entities_eq_of_executable (h : plan.Executable handler.catalog)
    (compiled : handler.Compiled .entity definition plan) (store : Store) :
    plan.entities handler.catalog store =
      (sortedBy plan.orderBy (plan.kept handler.catalog store)).map fun sorted =>
        sorted.filterMap (·.row? plan.rootAlias) := by
  rw [SelectPlan.entities, h.execute_eq_of, compiled.selection_eq]
  cases sortedBy plan.orderBy (plan.kept handler.catalog store) <;> rfl

/-- Whatever it is sorted by, a list query returns the root rows of the bindings that it keeps. -/
theorem Compiled.perm_of_entities {rows : List Row} (h : plan.Executable handler.catalog)
    (compiled : handler.Compiled .entity definition plan)
    (hrows : plan.entities handler.catalog store = .ok rows) :
    rows.Perm ((plan.kept handler.catalog store).filterMap (·.row? plan.rootAlias)) := by
  rw [compiled.entities_eq_of_executable h] at hrows
  obtain ⟨sorted, hsorted, rfl⟩ := map_eq_ok.mp hrows
  exact (perm_of_sortedBy hsorted).filterMap _

theorem Compiled.entities_eq_of_unsorted (h : plan.Executable handler.catalog)
    (compiled : handler.Compiled .entity definition plan) (hnone : definition.sorts = [])
    (store : Store) : plan.entities handler.catalog store =
      .ok ((plan.kept handler.catalog store).filterMap (·.row? plan.rootAlias)) := by
  rw [compiled.entities_eq_of_executable h, compiled.orderBy_eq_nil hnone]
  rfl

/-- What a handler compiles is executable, subqueries included. A count returns a number on every
store. A list query joins and filters on every store; it returns a list of rows if the values of each
of its sort keys, of which there may be none, are in order, or if it keeps few bindings. The one way in
which it can fail is that its sort gives up. -/
theorem compiled_plans_run (hstock : handler.config.Stock) (definition : QueryDefinition C S) :
    (∀ plan, handler.countPlan definition = .ok plan → plan.Executable handler.catalog ∧
      ∀ store, ∃ n, plan.count handler.catalog store = .ok n) ∧
    (∀ plan, handler.entityPlan definition = .ok plan → plan.Executable handler.catalog ∧
      ∀ store, ∃ joined kept, plan.joined handler.catalog store = .ok joined ∧
        plan.filtered handler.catalog store joined = .ok kept ∧
        (OrderlyEach plan.orderBy kept ∨ kept.length ≤ 20 →
          ∃ rows, plan.entities handler.catalog store = .ok rows) ∧
        ∀ e, plan.entities handler.catalog store = .error e →
          e = .execution .contradictoryOrder) := by
  constructor
  · intro plan hplan
    obtain ⟨compiled⟩ := compiled_of_countPlan hplan
    have h := compiled.executable hstock
    exact ⟨h, fun store => ⟨_, compiled.count_eq_of_executable h store⟩⟩
  · intro plan hplan
    obtain ⟨compiled⟩ := compiled_of_entityPlan hplan
    have h := compiled.executable hstock
    refine ⟨h, fun store => ?_⟩
    obtain ⟨joined, hjoined, hkept⟩ := @SelectPlan.Executable.exists_joined _ store _ h
    refine ⟨joined, _, hjoined, hkept, fun horder => ?_, fun e he => ?_⟩
    · rw [compiled.entities_eq_of_executable h, exists_map_eq_ok]
      exact horder.elim sortedBy_of_orderly sortedBy_of_short
    · rw [compiled.entities_eq_of_executable h] at he
      cases hsorted : sortedBy plan.orderBy (plan.kept handler.catalog store) with
      | ok sorted =>
        rw [hsorted] at he
        cases he
      | error e' =>
        rw [hsorted] at he
        cases he
        exact sortedBy_eq_error hsorted

end Handler

/-! ## A search on both sides of a way to many rows -/

namespace People

theorem stock_fixedSearch {applied : List Applied} (h : ∀ a ∈ applied, a.test.isStock = true) :
    (fixedSearch applied).Stock := by
  intro restriction hrestriction criteria test htest
  obtain ⟨a, ha, rfl⟩ := List.mem_map.mp hrestriction
  cases htest
  exact h a ha

/-- Looks for people whose business has a name and who have a child whose name starts with an M. -/
def employedParentsOfM : Handler Unit PersonSort :=
  ⟨catalog, fixedSearch [⟨Node.business, "name", .notNull true⟩,
    ⟨Node.child, "firstName", .startsWith "M"⟩], rfl⟩

theorem stock_employedParentsOfM : employedParentsOfM.config.Stock :=
  stock_fixedSearch (by decide)

/-- Kim's business has a name, and so has the child May. -/
def kimAndMay : Store :=
  Store.withRows (.withRows {} "Business" [⟨[("id", .int64 1), ("name", .string "Acme")]⟩]) "Person"
    [⟨[("id", .int64 1), ("firstName", .string "Kim"), ("employerId", .int64 1)]⟩,
      ⟨[("id", .int64 2), ("firstName", .string "May"), ("parentId", .int64 1)]⟩]

theorem compiled_plans_run_of_employedParentsOfM :
    employedParentsOfM.config.Stock ∧
      ∃ plan rows, employedParentsOfM.entityPlan ⟨(), [⟨.businessName, .descending⟩]⟩ = .ok plan ∧
        plan.Executable catalog ∧ plan.entities catalog kimAndMay = .ok rows ∧
        rows.length = 1 := by
  obtain ⟨hexecutable, hruns⟩ := (Handler.compiled_plans_run stock_employedParentsOfM
    ⟨(), [⟨.businessName, .descending⟩]⟩).2 _ rfl
  obtain ⟨joined, kept, hjoined, hkept, hrows, -⟩ := hruns kimAndMay
  have hshort : kept.length ≤ 20 := by
    cases hjoined
    cases hkept
    decide
  obtain ⟨rows, hrows⟩ := hrows (.inr hshort)
  refine ⟨stock_employedParentsOfM, _, rows, rfl, hexecutable, hrows, ?_⟩
  cases hrows
  rfl

/-! ## A truth value among names -/

/-- Twenty-one names, one of which is a truth value. -/
def mixedNames : List Value :=
  [.string "n", .string "m", .string "m", .string "m", .bool true] ++
    List.replicate 5 (.string "a") ++ List.replicate 11 (.string "c")

def peopleNamed (names : List Value) : Store :=
  .withRows {} "Person" (names.map fun name => ⟨[("firstName", name)]⟩)

def anybody : Handler Unit PersonSort := ⟨catalog, fixedSearch [], rfl⟩

/-- The truth value is level with all names. So the halves of the people are sorted with higher names
in front of it than behind it in one half, and merging the halves takes more people from the other one
than it has. -/
theorem mixedNames_not_sorted :
    anybody.config.Stock ∧ ∃ plan,
      anybody.entityPlan ⟨(), [⟨.firstName, .ascending⟩]⟩ = .ok plan ∧
        plan.entities catalog (peopleNamed mixedNames) =
          .error (.execution .contradictoryOrder) := by
  refine ⟨stock_fixedSearch (by decide), _, rfl, ?_⟩
  generalize hresult : SelectPlan.entities catalog (peopleNamed mixedNames) _ = result
  have hfailed : (match result with | .error e => some e | .ok _ => none) =
      some (.execution .contradictoryOrder) := by
    rw [← hresult]
    decide +kernel
  cases result with
  | ok rows => cases hfailed
  | error e => exact congrArg Except.error (Option.some.inj hfailed)

end People

end CriteriaQuery
