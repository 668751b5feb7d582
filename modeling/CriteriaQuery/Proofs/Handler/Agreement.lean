import CriteriaQuery.Proofs.Handler.Filter
import CriteriaQuery.Proofs.Join.RowFrom

/-! How the number that a count query returns and the length of the list that a list query returns
compare. A sort turns the inner joins on its path into left joins, so that the list query also keeps
root rows without a related row there, if all restrictions accept null instead. The count never
exceeds the length, and the two agree unless such a row is kept
(`Handler.count_le_length_entities`). -/
namespace CriteriaQuery
open Outcome
set_option autoImplicit false

/-- Items that pass a stronger condition are as many as those that pass a weaker one only if they
are the same. -/
theorem length_filter_eq_iff {α : Type} {p q : α → Bool} {items : List α}
    (h : ∀ a ∈ items, p a = true → q a = true) :
    (items.filter p).length = (items.filter q).length ↔ ∀ a ∈ items, q a = true → p a = true := by
  rw [← List.countP_eq_length_filter, ← List.countP_eq_length_filter]
  induction items with
  | nil => simp
  | cons a rest ih =>
    have hrest : ∀ b ∈ rest, p b = true → q b = true :=
      fun b hb => h b (List.mem_cons_of_mem _ hb)
    have hle := List.countP_mono_left hrest
    have ih := ih hrest
    rw [List.forall_mem_cons, ← ih, List.countP_cons, List.countP_cons]
    have hhead := h a List.mem_cons_self
    cases hp : p a with
    | true =>
      rw [hhead hp]
      simp
    | false =>
      cases hq : q a with
      | true =>
        simp only [Bool.false_eq_true, if_false, if_true]
        constructor
        · intro heq
          omega
        · rintro ⟨hfalse, -⟩
          exact (hfalse trivial).elim
      | false => simp

namespace Handler
variable {C S : Type} [DecidableEq S] {handler : Handler C S} {definition : QueryDefinition C S}
  {criteria : C} {kind : ResultKind} {plan : SelectPlan} {store : Store}

/-! ## Root rows that a query keeps -/

/-- A root row is listed under sorts if all main restrictions accept the rows that it determines,
and all their nodes have one, except those on the paths of the sorts; and if it is selected for the
promoted restrictions. -/
def Listed (handler : Handler C S) (store : Store) (criteria : C) (sorts : List JoinNode)
    (row : Row) : Prop :=
  (∀ a ∈ handler.main criteria,
    a.accepts (fun node => node.rowFrom handler.catalog store row) = true ∧
      (a.node ∉ sorts.flatMap JoinNode.path →
        (a.node.rowFrom handler.catalog store row).isSome = true)) ∧
    handler.Selected store criteria row

theorem Compiled.toOne (compiled : handler.Compiled kind definition plan)
    (hsorts : ∀ sort ∈ compiled.sorts, sort.1.node.crossesToMany = false) :
    handler.tree.ToOne handler.catalog compiled.scope.nodes where
  mem := compiled.spans.wired.mem
  parent_mem := compiled.spans.wired.parent_mem
  declared := compiled.spans.wired.declared
  one := compiled.spans.crossesToMany_eq_false (compiled.crossesToMany_eq_false hsorts)

theorem Compiled.inner_iff (compiled : handler.Compiled kind definition plan) {node : JoinNode}
    (hnode : node ∈ compiled.scope.nodes) :
    ((JoinModes.resolve ((handler.mainGroups definition.criteria).map (·.node))
      (compiled.sorts.map (·.1.node))).modeOf node).inner = true ↔
      node ∉ (compiled.sorts.map (·.1.node)).flatMap JoinNode.path := by
  rw [JoinModes.modeOf_resolve _ (compiled.spans.wired.mem node hnode)
    (sortNodes_mem_tree compiled.sorts_eq)]
  split
  · rename_i hmem
    simp [hmem, JoinMode.sort]
  · rename_i hmem
    simp [hmem, JoinMode.restriction]

theorem Compiled.mem_nodes_of_main (compiled : handler.Compiled kind definition plan) {a : Applied}
    (ha : a ∈ handler.main definition.criteria) : a.node ∈ compiled.scope.nodes := by
  have hnode := (mem_mainNodes_iff a.node).mpr (List.mem_map_of_mem ha)
  rw [compiled.spans.nodes_iff, List.flatMap_append, List.mem_append]
  exact Or.inr (Or.inl (JoinNode.mem_flatMap_path hnode))

theorem Compiled.passes_iff_listed (hstock : handler.config.Stock)
    (hstore : store.Functional handler.catalog)
    (compiled : handler.Compiled kind definition plan)
    (hsorts : ∀ sort ∈ compiled.sorts, sort.1.node.crossesToMany = false) {row : Row}
    (hrow : row ∈ store.rows handler.config.root.entity) :
    plan.passes handler.catalog store row = true ↔
      handler.Listed store definition.criteria (compiled.sorts.map (·.1.node)) row := by
  have hcongr : ∀ choice other : Choice,
      (∀ node ∈ compiled.scope.nodes, choice node = other node) →
      (∀ a ∈ handler.main definition.criteria, a.accepts choice = true) →
      ∀ a ∈ handler.main definition.criteria, a.accepts other = true := by
    intro choice other heq haccepts a ha
    have hvalue : other.value a.node a.column = choice.value a.node a.column := by
      rw [Choice.value, Choice.value, heq _ (compiled.mem_nodes_of_main ha)]
    rw [Applied.accepts, hvalue]
    exact haccepts a ha
  rw [compiled.passes_iff hstock, Listed,
    exists_follows_iff (compiled.toOne hsorts) hstore hrow hcongr]
  apply and_congr_left
  intro _
  constructor
  · rintro ⟨hinner, haccepts⟩ a ha
    have hnode := compiled.mem_nodes_of_main ha
    exact ⟨haccepts a ha, fun hoff => hinner _ hnode ((compiled.inner_iff hnode).mpr hoff)⟩
  · intro hall
    refine ⟨?_, fun a ha => (hall a ha).1⟩
    intro node hnode hinner
    have hoff := (compiled.inner_iff hnode).mp hinner
    rcases (compiled.spans.nodes_iff node).mp hnode with rfl | hpath
    · rw [JoinNode.rowFrom_of_isRoot handler.tree.isRoot_root]
      rfl
    · rw [List.flatMap_append, List.mem_append, or_iff_left hoff] at hpath
      obtain ⟨last, hlast, hstep⟩ := List.mem_flatMap.mp hpath
      obtain ⟨a, ha, rfl⟩ := List.mem_map.mp ((mem_mainNodes_iff last).mp hlast)
      apply JoinNode.isSome_rowFrom_of_mem_path hstep
      apply (hall a ha).2
      -- the path of a sort through the node of the restriction would go through this one as well
      intro hsort
      obtain ⟨sort, hmem, hon⟩ := List.mem_flatMap.mp hsort
      exact hoff (List.mem_flatMap.mpr
        ⟨sort, hmem, (JoinNode.path_prefix_of_mem hon).subset hstep⟩)

/-! ## Agreement -/

/-- Behind every restricted node on the path of a sort there is a main restriction that does not let
root rows without a row pass: one that no sort makes optional, or one that does not accept null. -/
def Guarded (handler : Handler C S) (criteria : C) (sorts : List JoinNode) : Prop :=
  ∀ a ∈ handler.main criteria, a.node ∈ sorts.flatMap JoinNode.path →
    a.node ≠ handler.config.root → ∃ b ∈ handler.main criteria, a.node ∈ b.node.path ∧
      (b.node ∉ sorts.flatMap JoinNode.path ∨ b.test.accepts .null = false)

theorem isSome_rowFrom_of_guarded {sorts : List JoinNode}
    (hguard : handler.Guarded criteria sorts) {row : Row}
    (h : handler.Listed store criteria sorts row) {a : Applied} (ha : a ∈ handler.main criteria) :
    (a.node.rowFrom handler.catalog store row).isSome = true := by
  by_cases hroot : a.node = handler.config.root
  · rw [hroot, JoinNode.rowFrom_of_isRoot handler.isRoot_root]
    rfl
  by_cases hsort : a.node ∈ sorts.flatMap JoinNode.path
  · obtain ⟨b, hb, hpath, hb'⟩ := hguard a ha hsort hroot
    apply JoinNode.isSome_rowFrom_of_mem_path hpath
    rcases hb' with hoff | hnull
    · exact (h.1 b hb).2 hoff
    · cases hrow : b.node.rowFrom handler.catalog store row with
      | some found => rfl
      | none =>
        have haccepts := (h.1 b hb).1
        rw [Applied.accepts, Choice.value, hrow] at haccepts
        exact absurd haccepts (by simp [hnull])
  · exact (h.1 a ha).2 hsort

/-- Without sorts, a root row is listed if it is so under sorts and all restricted nodes have a
row. -/
theorem listed_nil_iff (sorts : List JoinNode) {row : Row} :
    handler.Listed store criteria [] row ↔ handler.Listed store criteria sorts row ∧
      ∀ a ∈ handler.main criteria, (a.node.rowFrom handler.catalog store row).isSome = true := by
  constructor
  · rintro ⟨hall, hselected⟩
    have hbound : ∀ a ∈ handler.main criteria,
        (a.node.rowFrom handler.catalog store row).isSome = true :=
      fun a ha => (hall a ha).2 (by simp)
    exact ⟨⟨fun a ha => ⟨(hall a ha).1, fun _ => hbound a ha⟩, hselected⟩, hbound⟩
  · rintro ⟨⟨hall, hselected⟩, hbound⟩
    exact ⟨fun a ha => ⟨(hall a ha).1, fun _ => hbound a ha⟩, hselected⟩

/-- The count is a number, and a list that is returned is at least as long. They agree if, and only if,
every root row that is listed has a row for all restricted nodes, which is so under a guard. -/
theorem count_le_length_entities {sorts : List (ConfiguredSort S × Direction)}
    {countPlan entityPlan : SelectPlan} (hstock : handler.config.Stock)
    (hstore : store.Functional handler.catalog)
    (hsorts : handler.config.resolveSorts definition.sorts = .ok sorts)
    (hone : ∀ sort ∈ sorts, sort.1.node.crossesToMany = false)
    (hcount : handler.countPlan definition = .ok countPlan)
    (hentity : handler.entityPlan definition = .ok entityPlan) :
    ∃ n, countPlan.count handler.catalog store = .ok n ∧
      ∀ rows, entityPlan.entities handler.catalog store = .ok rows → n ≤ rows.length ∧
        (n = rows.length ↔ ∀ row ∈ store.rows handler.config.root.entity,
          handler.Listed store definition.criteria (sorts.map (·.1.node)) row →
          ∀ a ∈ handler.main definition.criteria,
            (a.node.rowFrom handler.catalog store row).isSome = true) ∧
        (handler.Guarded definition.criteria (sorts.map (·.1.node)) → n = rows.length) := by
  obtain ⟨counted⟩ := compiled_of_countPlan hcount
  obtain ⟨listed⟩ := compiled_of_entityPlan hentity
  rw [← listed.sorts_eq_of_resolveSorts hsorts] at hone ⊢
  refine ⟨_, counted.count_eq_length hstock hstore, fun rows hrows => ?_⟩
  have hperm := listed.entities_perm hstock hstore hone hrows
  have hlisted : ∀ row ∈ store.rows handler.config.root.entity,
      (entityPlan.passes handler.catalog store row = true ↔
        handler.Listed store definition.criteria (listed.sorts.map (·.1.node)) row) :=
    fun row hrow => listed.passes_iff_listed hstock hstore hone hrow
  have hcounted : ∀ row ∈ store.rows handler.config.root.entity,
      (countPlan.passes handler.catalog store row = true ↔
        handler.Listed store definition.criteria [] row) := by
    intro row hrow
    have hnone := counted.sorts_eq_nil_of_count
    have hpasses := counted.passes_iff_listed hstock hstore (by simp [hnone]) hrow
    rwa [hnone] at hpasses
  have hpass : ∀ row ∈ store.rows handler.config.root.entity,
      countPlan.passes handler.catalog store row = true →
        entityPlan.passes handler.catalog store row = true := by
    intro row hrow hcounts
    exact (hlisted row hrow).mpr ((listed_nil_iff _).mp ((hcounted row hrow).mp hcounts)).1
  have hagree : ((store.rows handler.config.root.entity).filter
      (countPlan.passes handler.catalog store)).length = rows.length ↔
      ∀ row ∈ store.rows handler.config.root.entity,
        handler.Listed store definition.criteria (listed.sorts.map (·.1.node)) row →
        ∀ a ∈ handler.main definition.criteria,
          (a.node.rowFrom handler.catalog store row).isSome = true := by
    rw [hperm.length_eq, length_filter_eq_iff hpass]
    constructor
    · intro hback row hrow h
      have hcounts := hback row hrow ((hlisted row hrow).mpr h)
      have hlists := (hcounted row hrow).mp hcounts
      exact ((listed_nil_iff (listed.sorts.map (·.1.node))).mp hlists).2
    · intro hbound row hrow h
      have hlists := (hlisted row hrow).mp h
      exact (hcounted row hrow).mpr ((listed_nil_iff _).mpr ⟨hlists, hbound row hrow hlists⟩)
  refine ⟨?_, hagree, ?_⟩
  · rw [hperm.length_eq, ← List.countP_eq_length_filter, ← List.countP_eq_length_filter]
    exact List.countP_mono_left hpass
  · intro hguard
    exact hagree.mpr fun row _ h a ha => isSome_rowFrom_of_guarded hguard h ha

end Handler

/-! ## Unemployed people and the names of businesses -/

namespace People

/-- Looks for people whose business has a name. -/
def namedBusiness : Handler Unit PersonSort :=
  ⟨catalog, fixedSearch [⟨Node.business, "name", .notNull true⟩], rfl⟩

def namelessBusiness : Handler Unit PersonSort :=
  ⟨catalog, fixedSearch [⟨Node.business, "name", .isNull true⟩], rfl⟩

def oneUnemployed : Store := .withRows {} "Person" [⟨[("id", .int64 1), ("employerId", .null)]⟩]

theorem functional_oneUnemployed : oneUnemployed.Functional catalog :=
  Store.functional_of_relations (by decide)

def byBusiness : ConfiguredSort PersonSort × Direction :=
  (⟨.businessName, Node.business, "name"⟩, .ascending)

theorem toOne_byBusiness : ∀ sort ∈ [byBusiness], sort.1.node.crossesToMany = false := by
  intro sort hsort
  rw [List.mem_singleton.mp hsort]
  rfl

/-- A test that accepts null is no guard: sorted by the name of the business, the list has a person
without any business, whom the count leaves out. -/
theorem count_ne_length_entities_of_oneUnemployed :
    namelessBusiness.config.Stock ∧ oneUnemployed.Functional catalog ∧
      namelessBusiness.config.resolveSorts [⟨.businessName, .ascending⟩] = .ok [byBusiness] ∧
      (∀ sort ∈ [byBusiness], sort.1.node.crossesToMany = false) ∧
      ∃ countPlan entityPlan n rows,
        namelessBusiness.countPlan ⟨(), [⟨.businessName, .ascending⟩]⟩ = .ok countPlan ∧
        namelessBusiness.entityPlan ⟨(), [⟨.businessName, .ascending⟩]⟩ = .ok entityPlan ∧
        countPlan.count catalog oneUnemployed = .ok n ∧
        entityPlan.entities catalog oneUnemployed = .ok rows ∧ n = 0 ∧ rows.length = 1 :=
  ⟨stock_fixedSearch (by decide), functional_oneUnemployed, rfl, toOne_byBusiness, _, _, _, _, rfl,
    rfl, rfl, rfl, rfl, rfl⟩

/-- A test that does not accept null is a guard: the count and the list agree on nobody. -/
theorem count_le_length_entities_of_oneUnemployed :
    namedBusiness.config.Stock ∧ oneUnemployed.Functional catalog ∧
      namedBusiness.config.resolveSorts [⟨.businessName, .ascending⟩] = .ok [byBusiness] ∧
      namedBusiness.Guarded () [Node.business] ∧ ∃ countPlan entityPlan n rows,
        namedBusiness.countPlan ⟨(), [⟨.businessName, .ascending⟩]⟩ = .ok countPlan ∧
        namedBusiness.entityPlan ⟨(), [⟨.businessName, .ascending⟩]⟩ = .ok entityPlan ∧
        countPlan.count catalog oneUnemployed = .ok n ∧
        entityPlan.entities catalog oneUnemployed = .ok rows ∧ n = rows.length := by
  have hstock : namedBusiness.config.Stock := stock_fixedSearch (by decide)
  have hguard : namedBusiness.Guarded () [Node.business] := by
    intro a ha _ _
    have hself : a = ⟨Node.business, "name", .notNull true⟩ := List.mem_singleton.mp ha
    refine ⟨a, ha, a.node.self_mem_path, Or.inr ?_⟩
    rw [hself]
    rfl
  obtain ⟨n, hn, hlist⟩ := @Handler.count_le_length_entities _ _ _
    namedBusiness ⟨(), [⟨.businessName, .ascending⟩]⟩ oneUnemployed [byBusiness] _ _ hstock
    functional_oneUnemployed rfl toOne_byBusiness rfl rfl
  obtain ⟨-, -, hagree⟩ := hlist _ rfl
  exact ⟨hstock, functional_oneUnemployed, rfl, hguard, _, _, n, _, rfl, rfl, hn, rfl,
    hagree hguard⟩

end People

end CriteriaQuery
