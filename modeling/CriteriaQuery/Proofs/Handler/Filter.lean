import CriteriaQuery.Proofs.Handler.RootRows
import CriteriaQuery.Proofs.Handler.Running

/-! What the filter of a compiled query keeps. The predicates of the main restrictions are true of a
choice of rows that all of these accept; the subquery of the promoted restrictions selects the
identities of the root rows for which some choice of rows satisfies them
(`Handler.Promotion.mem_members`). -/
namespace CriteriaQuery
open Outcome
set_option autoImplicit false

/-! ## Satisfied restrictions -/

/-- Rows that are related, from the root down to a node, each to the row of the parent. -/
def JoinNode.Linked (catalog : Catalog) (store : Store) (choose : JoinNode → Row)
    (node : JoinNode) : Prop :=
  ∀ step ∈ node.path, ∀ parent, step.parent? = some parent →
    choose step ∈ step.related catalog store (choose parent)

/-- Starting at a root row, related rows can be chosen jointly for all nodes on the paths of
restrictions, such that every restriction accepts the row of its node. -/
def Satisfies (catalog : Catalog) (store : Store) (root : JoinNode) (applied : List Applied)
    (row : Row) : Prop :=
  ∃ choose : JoinNode → Row, choose root = row ∧ ∀ a ∈ applied,
    a.node.Linked catalog store choose ∧ a.test.accepts ((choose a.node).value a.column) = true

theorem Satisfies.mono {catalog : Catalog} {store : Store} {root : JoinNode}
    {applied fewer : List Applied} {row : Row} (hsubset : fewer ⊆ applied)
    (h : Satisfies catalog store root applied row) :
    Satisfies catalog store root fewer row := by
  obtain ⟨choose, hroot, hall⟩ := h
  exact ⟨choose, hroot, fun a ha => hall a (hsubset ha)⟩

theorem Choice.value_eq_of_eq_some {choice : Choice} {node : JoinNode} {row : Row}
    (h : choice node = some row) (column : String) : choice.value node column = row.value column := by
  rw [value, h]
  rfl

section Inner
variable {catalog : Catalog} {store : Store} {modes : JoinModes} {tree : JoinTree}
  {scope : Scope} {row : Row}

/-- With inner joins, the choices of a scope that restrictions accept are the ways to satisfy
them. -/
theorem SelectPlan.Spans.exists_accepted_iff {nodes : List JoinNode} {plan : SelectPlan}
    {applied : List Applied} (h : plan.Spans catalog modes tree nodes scope)
    (hnodes : ∀ node, node ∈ nodes ↔ node ∈ applied.map (·.node))
    (hinner : ∀ node ∈ scope.nodes, (modes.modeOf node).inner = true) :
    (∃ choice : Choice, choice.Follows catalog store modes tree.root scope.nodes row ∧
        ∀ a ∈ applied, a.accepts choice = true) ↔
      Satisfies catalog store tree.root applied row := by
  have hpath : ∀ a ∈ applied, ∀ step ∈ a.node.path, step ∈ scope.nodes := by
    intro a ha step hstep
    rw [h.nodes_iff]
    exact Or.inr (List.mem_flatMap.mpr
      ⟨a.node, (hnodes a.node).mpr (List.mem_map_of_mem ha), hstep⟩)
  constructor
  · rintro ⟨choice, hchoice, haccepts⟩
    -- inner joins leave no node of the scope without a row
    have hrow : ∀ node ∈ scope.nodes, choice node = some ((choice node).getD {}) := by
      intro node hnode
      obtain ⟨found, hfound⟩ := hchoice.exists_row hnode (h.wired.mem node hnode)
        (hinner node hnode)
      rw [hfound]
      rfl
    refine ⟨fun node => (choice node).getD {}, ?_, ?_⟩
    · simp only [hchoice.root_eq, Option.getD_some]
    · intro a ha
      refine ⟨?_, ?_⟩
      · intro step hstep parent hparent
        have hin := hpath a ha step hstep
        have hadmits := hchoice.admits step hin parent hparent
        rw [hrow step hin, hrow parent (h.wired.parent_mem step hin parent hparent)] at hadmits
        exact hadmits
      · rw [← Choice.value_eq_of_eq_some (hrow a.node (hpath a ha _ a.node.self_mem_path))]
        exact haccepts a ha
  · rintro ⟨choose, hroot, hall⟩
    refine ⟨fun node => some (choose node), ⟨by rw [hroot], ?_⟩, ?_⟩
    · intro node hnode parent hparent
      rcases (h.nodes_iff node).mp hnode with rfl | hstep
      · rw [tree.parent?_root] at hparent
        cases hparent
      · obtain ⟨last, hlast, hstep⟩ := List.mem_flatMap.mp hstep
        obtain ⟨a, ha, rfl⟩ := List.mem_map.mp ((hnodes last).mp hlast)
        exact (hall a ha).1 node hstep parent hparent
    · intro a ha
      exact (hall a ha).2

end Inner

def SelectPlan.passes (plan : SelectPlan) (catalog : Catalog) (store : Store)
    (row : Row) : Bool :=
  (plan.bindingsFrom catalog store row).any (plan.keeps catalog store)

namespace Handler
variable {C S : Type} [DecidableEq S] {handler : Handler C S} {definition : QueryDefinition C S}
  {criteria : C} {kind : ResultKind} {plan : SelectPlan} {store : Store}

/-! ## Members of the subquery -/

theorem inner_of_resolve_nil {restrictions : List JoinNode} {node : JoinNode}
    (hnode : node ∈ handler.tree) :
    ((JoinModes.resolve restrictions []).modeOf node).inner = true := by
  rw [JoinModes.modeOf_resolve restrictions hnode (by simp)]
  rfl

theorem Promotion.exists_kept_iff {sub : SelectPlan}
    (hmeans : ∀ a ∈ handler.promoted criteria,
      a.test.Means handler.catalog store (Meaning.fixed a))
    (promotion : handler.Promotion (handler.promotedGroups criteria) sub) {row : Row} :
    (∃ binding ∈ sub.bindingsFrom handler.catalog store row,
        sub.keeps handler.catalog store binding = true) ↔
      Satisfies handler.catalog store handler.config.root (handler.promoted criteria) row := by
  have hspans := promotion.spans
  have hkeeps : ∀ choice : Choice,
      sub.keeps handler.catalog store (promotion.scope.binding choice) = true ↔
        ∀ a ∈ handler.promoted criteria, a.accepts choice = true := by
    intro choice
    rw [SelectPlan.keeps, promotion.filter_eq]
    simp only
    rw [Predicate.holds_all, holds_iff_of_expressed hspans (promotion.expressed hmeans)]
    simp only [mem_promoted_iff]
    exact Iff.rfl
  change _ ↔ Satisfies handler.catalog store handler.tree.root _ row
  rw [← hspans.exists_accepted_iff (fun node => mem_promotedNodes_iff node)
    (fun node hnode => inner_of_resolve_nil (hspans.wired.mem node hnode))]
  constructor
  · rintro ⟨binding, hbinding, hkept⟩
    obtain ⟨choice, hchoice, rfl⟩ := hspans.mem_bindingsFrom.mp hbinding
    exact ⟨choice, hchoice, (hkeeps choice).mp hkept⟩
  · rintro ⟨choice, hchoice, haccepts⟩
    exact ⟨_, hspans.mem_bindingsFrom.mpr ⟨choice, hchoice, rfl⟩, (hkeeps choice).mpr haccepts⟩

/-- The subquery selects the identities of the root rows that satisfy the promoted restrictions. -/
theorem Promotion.mem_members {sub : SelectPlan}
    (hmeans : ∀ a ∈ handler.promoted criteria,
      a.test.Means handler.catalog store (Meaning.fixed a))
    (promotion : handler.Promotion (handler.promotedGroups criteria) sub) {v : Value} :
    v ∈ sub.members handler.catalog store ↔
      ∃ row ∈ store.rows handler.config.root.entity,
        Satisfies handler.catalog store handler.config.root (handler.promoted criteria) row ∧
        v = row.value handler.config.idColumn := by
  have hspans := promotion.spans
  have hexecute : sub.execute handler.catalog store =
      .ok (.values ((sub.kept handler.catalog store).map
        (·.read (.column sub.rootAlias handler.config.idColumn)))) := by
    rw [(promotion.executable hmeans).execute_eq_of, promotion.selection_eq, promotion.orderBy_eq,
      sortedBy_nil]
    rfl
  have hmembers : sub.members handler.catalog store = (sub.kept handler.catalog store).map
      (·.read (.column sub.rootAlias handler.config.idColumn)) := by
    rw [SelectPlan.members, SelectPlan.values, bind_ok hexecute]
    rfl
  have hread : ∀ row, ∀ binding ∈ sub.bindingsFrom handler.catalog store row,
      binding.read (.column sub.rootAlias handler.config.idColumn) =
        row.value handler.config.idColumn := by
    intro row binding hbinding
    rw [Binding.read, hspans.row?_root hbinding]
    rfl
  have hrows : store.rows sub.rootEntity = store.rows handler.config.root.entity := by
    rw [hspans.rootEntity_eq]
    rfl
  rw [hmembers, List.mem_map]
  constructor
  · rintro ⟨binding, hkept, rfl⟩
    obtain ⟨hbindings, hkeeps⟩ := List.mem_filter.mp hkept
    obtain ⟨row, hrow, hbinding⟩ := List.mem_flatMap.mp hbindings
    rw [hrows] at hrow
    exact ⟨row, hrow, (promotion.exists_kept_iff hmeans).mp ⟨binding, hbinding, hkeeps⟩,
      hread row binding hbinding⟩
  · rintro ⟨row, hrow, hsatisfies, rfl⟩
    obtain ⟨binding, hbinding, hkeeps⟩ := (promotion.exists_kept_iff hmeans).mpr hsatisfies
    rw [← hrows] at hrow
    exact ⟨binding, List.mem_filter.mpr ⟨List.mem_flatMap.mpr ⟨row, hrow, hbinding⟩, hkeeps⟩,
      hread row binding hbinding⟩

/-! ## The filter of a query -/

/-- The identity of a root row is not null and equals that of a root row that satisfies the promoted
restrictions. Nothing is asked if there are none. -/
def Selected (handler : Handler C S) (store : Store) (criteria : C) (row : Row) : Prop :=
  handler.promoted criteria = [] ∨ ((row.value handler.config.idColumn).isNull = false ∧
    ∃ other ∈ store.rows handler.config.root.entity,
      Satisfies handler.catalog store handler.config.root (handler.promoted criteria) other ∧
      (row.value handler.config.idColumn).equal (other.value handler.config.idColumn) = true)

/-- Only the members of the promoted restrictions matter, and the root that they are tested on. -/
theorem selected_congr {other : Handler C S} {richer : C} (hcatalog : other.catalog = handler.catalog)
    (hroot : other.config.root = handler.config.root)
    (hid : other.config.idColumn = handler.config.idColumn)
    (hmem : ∀ a, a ∈ other.promoted richer ↔ a ∈ handler.promoted criteria) (row : Row) :
    other.Selected store richer row ↔ handler.Selected store criteria row := by
  have hnil : other.promoted richer = [] ↔ handler.promoted criteria = [] := by
    simp only [List.eq_nil_iff_forall_not_mem, hmem]
  have hsatisfies : ∀ row, Satisfies handler.catalog store handler.config.root
      (other.promoted richer) row ↔
      Satisfies handler.catalog store handler.config.root (handler.promoted criteria) row :=
    fun row => ⟨.mono fun a => (hmem a).mpr, .mono fun a => (hmem a).mp⟩
  unfold Selected
  rw [hnil, hcatalog, hroot, hid]
  simp only [hsatisfies]

theorem promotedGroups_eq_nil_iff :
    handler.promotedGroups criteria = [] ↔ handler.promoted criteria = [] := by
  constructor
  · intro h
    rw [List.eq_nil_iff_forall_not_mem]
    intro a ha
    rw [← mem_promoted_iff, h] at ha
    exact List.not_mem_nil ha
  · intro h
    rw [List.eq_nil_iff_forall_not_mem]
    intro group hgroup
    have hnode : group.node ∈ (handler.promotedGroups criteria).map (·.node) :=
      List.mem_map_of_mem hgroup
    rw [mem_promotedNodes_iff, h] at hnode
    exact List.not_mem_nil hnode

/-- The filter of a query keeps a choice of rows if it passes what the main restrictions mean and the
root row is among those selected for the promoted ones. -/
theorem Compiled.keeps_iff_of_settled {meaning : Meaning}
    (hsettled : handler.Settled store definition.criteria meaning)
    (compiled : handler.Compiled kind definition plan) {row : Row} {choice : Choice}
    (hchoice : choice.Follows handler.catalog store
      (JoinModes.resolve ((handler.mainGroups definition.criteria).map (·.node))
        (compiled.sorts.map (·.1.node))) handler.tree.root compiled.scope.nodes row) :
    plan.keeps handler.catalog store (compiled.scope.binding choice) = true ↔
      (∀ a ∈ handler.main definition.criteria,
        meaning a (choice.value a.node a.column) = true) ∧
        handler.Selected store definition.criteria row := by
  have hspans := compiled.spans
  obtain ⟨mains, extra, heq, hexpressed, hextra⟩ := compiled.expressed hsettled
  have hall : plan.keeps handler.catalog store (compiled.scope.binding choice) = true ↔
      ∀ p ∈ compiled.predicates, p.holds (SelectPlan.members handler.catalog store)
        (compiled.scope.binding choice) = true := by
    rw [SelectPlan.keeps, compiled.filter_eq]
    cases compiled.predicates with
    | nil => simp
    | cons p ps =>
      simp only [List.isEmpty_cons, Bool.false_eq_true, if_false]
      exact Predicate.holds_all
  have hroot : (compiled.scope.binding choice).read
      (.column plan.rootAlias handler.config.idColumn) = row.value handler.config.idColumn := by
    rw [← Choice.value_eq_of_eq_some hchoice.root_eq]
    exact hspans.read_binding hspans.root_mem choice _
  rw [hall, heq, List.forall_mem_append, holds_iff_of_expressed hspans hexpressed]
  simp only [mem_main_iff]
  apply and_congr_right
  intro _
  rcases hextra with ⟨hnone, rfl⟩ | ⟨hsome, sub, rfl, ⟨promotion⟩⟩
  · rw [promotedGroups_eq_nil_iff] at hnone
    exact iff_of_true (by simp) (Or.inl hnone)
  · rw [ne_eq, promotedGroups_eq_nil_iff] at hsome
    rw [List.forall_mem_singleton, Predicate.holds, hroot, Selected, or_iff_right hsome]
    simp only [Bool.and_eq_true, Bool.not_eq_true', List.any_eq_true,
      promotion.mem_members hsettled.promoted]
    apply and_congr_right
    intro _
    constructor
    · rintro ⟨_, ⟨other, hother, hsatisfies, rfl⟩, hequal⟩
      exact ⟨other, hother, hsatisfies, hequal⟩
    · rintro ⟨other, hother, hsatisfies, hequal⟩
      exact ⟨_, ⟨other, hother, hsatisfies, rfl⟩, hequal⟩

/-! ## Root rows that pass -/

theorem Compiled.passes_iff_of_settled {meaning : Meaning}
    (hsettled : handler.Settled store definition.criteria meaning)
    (compiled : handler.Compiled kind definition plan) {row : Row} :
    plan.passes handler.catalog store row = true ↔
      (∃ choice : Choice, choice.Follows handler.catalog store
          (JoinModes.resolve ((handler.mainGroups definition.criteria).map (·.node))
            (compiled.sorts.map (·.1.node))) handler.tree.root compiled.scope.nodes row ∧
        ∀ a ∈ handler.main definition.criteria,
          meaning a (choice.value a.node a.column) = true) ∧
      handler.Selected store definition.criteria row := by
  rw [SelectPlan.passes, List.any_eq_true]
  constructor
  · rintro ⟨binding, hbinding, hkept⟩
    obtain ⟨choice, hchoice, rfl⟩ := compiled.spans.mem_bindingsFrom.mp hbinding
    obtain ⟨hpass, hselected⟩ := (compiled.keeps_iff_of_settled hsettled hchoice).mp hkept
    exact ⟨⟨choice, hchoice, hpass⟩, hselected⟩
  · rintro ⟨⟨choice, hchoice, hpass⟩, hselected⟩
    exact ⟨_, compiled.spans.mem_bindingsFrom.mpr ⟨choice, hchoice, rfl⟩,
      (compiled.keeps_iff_of_settled hsettled hchoice).mpr ⟨hpass, hselected⟩⟩

theorem Compiled.passes_iff (hstock : handler.config.Stock)
    (compiled : handler.Compiled kind definition plan) {row : Row} :
    plan.passes handler.catalog store row = true ↔
      (∃ choice : Choice, choice.Follows handler.catalog store
          (JoinModes.resolve ((handler.mainGroups definition.criteria).map (·.node))
            (compiled.sorts.map (·.1.node))) handler.tree.root compiled.scope.nodes row ∧
        ∀ a ∈ handler.main definition.criteria, a.accepts choice = true) ∧
      handler.Selected store definition.criteria row :=
  compiled.passes_iff_of_settled (settled_of_stock hstock store definition.criteria)

section Functional
variable (hstock : handler.config.Stock) (hstore : store.Functional handler.catalog)
include hstore

theorem Compiled.rootRows_kept (compiled : handler.Compiled kind definition plan)
    (hsorts : ∀ sort ∈ compiled.sorts, sort.1.node.crossesToMany = false) :
    (plan.kept handler.catalog store).filterMap (·.row? plan.rootAlias) =
      (store.rows handler.config.root.entity).filter (plan.passes handler.catalog store) := by
  have hrows : store.rows plan.rootEntity = store.rows handler.tree.root.entity := by
    rw [compiled.spans.rootEntity_eq]
  rw [SelectPlan.kept, hrows]
  exact compiled.spans.rootRows_eq hstore (compiled.crossesToMany_eq_false hsorts) _

include hstock

theorem Compiled.count_eq_length (compiled : handler.Compiled .count definition plan) :
    plan.count handler.catalog store = .ok ((store.rows handler.config.root.entity).filter
      (plan.passes handler.catalog store)).length := by
  have hsorts : compiled.sorts = [] := compiled.sorts_eq_nil_of_count
  rw [compiled.count_eq_of_executable (compiled.executable hstock),
    compiled.rootRows_kept hstore (by simp [hsorts])]

/-- Whatever it is sorted by, a list query that returns a list returns the root rows that pass. -/
theorem Compiled.entities_perm {rows : List Row}
    (compiled : handler.Compiled .entity definition plan)
    (hsorts : ∀ sort ∈ compiled.sorts, sort.1.node.crossesToMany = false)
    (hrows : plan.entities handler.catalog store = .ok rows) :
    rows.Perm ((store.rows handler.config.root.entity).filter
      (plan.passes handler.catalog store)) := by
  rw [← compiled.rootRows_kept hstore hsorts]
  exact compiled.perm_of_entities (compiled.executable hstock) hrows

/-- Without sorts, the rows come in the order of the store. -/
theorem Compiled.entities_eq_filter (compiled : handler.Compiled .entity definition plan)
    (hnone : definition.sorts = []) :
    plan.entities handler.catalog store = .ok ((store.rows handler.config.root.entity).filter
      (plan.passes handler.catalog store)) := by
  have hsorts : compiled.sorts = [] := compiled.sorts_eq_nil hnone
  rw [compiled.entities_eq_of_unsorted (compiled.executable hstock) hnone,
    compiled.rootRows_kept hstore (by simp [hsorts])]

end Functional

end Handler

end CriteriaQuery
