import CriteriaQuery.Proofs.Handler.Agreement
import CriteriaQuery.Proofs.Join.Choices
import Mathlib.Data.List.Flatten
import Mathlib.Data.List.Perm.Subperm

/-! How often a query returns a root row, on any store: once for each choice that its joins make and
its filter keeps. Sorts take no copy of a root row away, though they weaken inner joins on their
paths and multiply root rows where these cross to many rows
(`Handler.entities_subperm_of_sorts`). -/
namespace CriteriaQuery
open Outcome
set_option autoImplicit false

/-! ## Copies of items -/

/-- Where results lead back to their items, filtering the results leaves as many copies of an item
as it has results that are kept. -/
theorem filterMap_filter_flatMap_eq_replicate {α β : Type} {f : α → List β} {g : β → Option α}
    {items : List α} (hback : ∀ a ∈ items, ∀ b ∈ f a, g b = some a) (keep : β → Bool) :
    ((items.flatMap f).filter keep).filterMap g =
      items.flatMap fun a => List.replicate ((f a).countP keep) a := by
  rw [List.filter_flatMap, List.filterMap_flatMap]
  apply List.flatMap_congr
  intro a ha
  have hsome : ((f a).filter keep).filterMap g = ((f a).filter keep).map fun _ => a := by
    rw [← List.filterMap_eq_map]
    apply List.filterMap_congr
    intro b hb
    exact hback a ha b (List.mem_filter.mp hb).1
  rw [hsome, List.map_const', List.countP_eq_length_filter]

/-- How many of the bindings that a plan makes of a root row its filter keeps. -/
def SelectPlan.copies (plan : SelectPlan) (catalog : Catalog) (store : Store) (row : Row) : Nat :=
  (plan.bindingsFrom catalog store row).countP (plan.keeps catalog store)

theorem SelectPlan.copies_pos_iff {plan : SelectPlan} {catalog : Catalog} {store : Store}
    {row : Row} : 0 < plan.copies catalog store row ↔ plan.passes catalog store row = true := by
  rw [copies, passes, List.countP_pos_iff, List.any_eq_true]

namespace Handler
variable {C S : Type} [DecidableEq S] {handler : Handler C S} {definition : QueryDefinition C S}
  {criteria : C} {kind : ResultKind} {plan : SelectPlan} {store : Store}

/-- The choices that the joins of a query make of a root row. -/
def Compiled.choices (compiled : handler.Compiled kind definition plan) (store : Store)
    (row : Row) : Multiset Choice :=
  Choice.all handler.catalog store
    (JoinModes.resolve ((handler.mainGroups definition.criteria).map (·.node))
      (compiled.sorts.map (·.1.node))) compiled.scope.nodes row

/-- Without sorts, it only matters which nodes are joined. -/
theorem Compiled.choices_congr {other : Handler C S} {otherKind : ResultKind}
    {otherDefinition : QueryDefinition C S} {otherPlan : SelectPlan}
    (first : handler.Compiled kind definition plan)
    (second : other.Compiled otherKind otherDefinition otherPlan)
    (hcatalog : other.catalog = handler.catalog) (hfirst : first.sorts = [])
    (hsecond : second.sorts = [])
    (hnodes : ∀ node, node ∈ second.scope.nodes ↔ node ∈ first.scope.nodes) (row : Row) :
    second.choices store row = first.choices store row := by
  have hperm : second.scope.nodes.Perm first.scope.nodes :=
    (List.perm_ext_iff_of_nodup second.spans.wired.nodup first.spans.wired.nodup).mpr hnodes
  rw [choices, choices, hcatalog,
    Choice.all_eq_of_perm hperm second.spans.parentsFirst first.spans.parentsFirst]
  apply Choice.all_congr
  intro node hnode
  rw [Bool.eq_iff_iff, first.inner_iff hnode, hfirst, second.inner_iff ((hnodes node).mpr hnode),
    hsecond]

/-- How many of them the main restrictions accept. -/
def Compiled.accepted (compiled : handler.Compiled kind definition plan) (store : Store)
    (row : Row) : Nat :=
  (compiled.choices store row).countP
    fun choice => ∀ a ∈ handler.main definition.criteria, a.accepts choice = true

/-- How many of them pass what the main restrictions mean. -/
def Compiled.passing (meaning : Meaning) (compiled : handler.Compiled kind definition plan)
    (store : Store) (row : Row) : Nat :=
  (compiled.choices store row).countP fun choice =>
    ∀ a ∈ handler.main definition.criteria, meaning a (choice.value a.node a.column) = true

open Classical in
/-- All choices that pass the main restrictions are kept if the root row is selected for the promoted
ones, and none is kept otherwise. -/
theorem Compiled.copies_eq_of_settled {meaning : Meaning}
    (hsettled : handler.Settled store definition.criteria meaning)
    (compiled : handler.Compiled kind definition plan) (row : Row) :
    plan.copies handler.catalog store row =
      if handler.Selected store definition.criteria row then compiled.passing meaning store row
      else 0 := by
  have hkeeps : ∀ choice ∈ compiled.choices store row, _ := fun choice hchoice =>
    compiled.keeps_iff_of_settled hsettled (compiled.spans.follows_of_mem hchoice)
  have hcount : plan.copies handler.catalog store row = Multiset.countP
      (fun binding => plan.keeps handler.catalog store binding = true)
      (plan.bindingsFrom handler.catalog store row) := by
    rw [Multiset.coe_countP]
    simp only [Bool.decide_eq_true, SelectPlan.copies]
  rw [hcount, compiled.spans.bindingsFrom_eq_map, Multiset.countP_map, passing,
    Multiset.countP_eq_card_filter]
  split
  · rename_i hselected
    congr 1
    apply Multiset.filter_congr
    intro choice hchoice
    rw [hkeeps choice hchoice]
    exact and_iff_left hselected
  · rename_i hselected
    rw [Multiset.card_eq_zero, Multiset.filter_eq_nil]
    intro choice hchoice hkept
    exact hselected ((hkeeps choice hchoice).mp hkept).2

open Classical in
theorem Compiled.copies_eq (hstock : handler.config.Stock)
    (compiled : handler.Compiled kind definition plan) (row : Row) :
    plan.copies handler.catalog store row =
      if handler.Selected store definition.criteria row then compiled.accepted store row
      else 0 :=
  compiled.copies_eq_of_settled (settled_of_stock hstock store definition.criteria) row

theorem Compiled.rootRows_eq_copies (compiled : handler.Compiled kind definition plan) :
    (plan.kept handler.catalog store).filterMap (·.row? plan.rootAlias) =
      (store.rows handler.config.root.entity).flatMap fun row =>
        List.replicate (plan.copies handler.catalog store row) row := by
  have hrows : store.rows plan.rootEntity = store.rows handler.config.root.entity := by
    rw [compiled.spans.rootEntity_eq]
    rfl
  rw [SelectPlan.kept, hrows]
  exact filterMap_filter_flatMap_eq_replicate
    (fun _ _ _ hbinding => compiled.spans.row?_root hbinding) _

/-- Whatever it is sorted by, a list query that returns a list returns each root row as often as its
filter keeps a binding of it. -/
theorem Compiled.entities_perm_copies {rows : List Row} (h : plan.Executable handler.catalog)
    (compiled : handler.Compiled .entity definition plan)
    (hrows : plan.entities handler.catalog store = .ok rows) :
    rows.Perm ((store.rows handler.config.root.entity).flatMap fun row =>
      List.replicate (plan.copies handler.catalog store row) row) := by
  rw [← compiled.rootRows_eq_copies]
  exact compiled.perm_of_entities h hrows

theorem Compiled.mem_entities_iff {rows : List Row} (h : plan.Executable handler.catalog)
    (compiled : handler.Compiled .entity definition plan)
    (hrows : plan.entities handler.catalog store = .ok rows) {row : Row} :
    row ∈ rows ↔ row ∈ store.rows handler.config.root.entity ∧
      plan.passes handler.catalog store row = true := by
  rw [(compiled.entities_perm_copies h hrows).mem_iff, List.mem_flatMap,
    ← SelectPlan.copies_pos_iff, Nat.pos_iff_ne_zero]
  constructor
  · rintro ⟨other, hother, hmem⟩
    obtain ⟨hcopies, rfl⟩ := List.mem_replicate.mp hmem
    exact ⟨hother, hcopies⟩
  · rintro ⟨hrow, hcopies⟩
    exact ⟨row, hrow, List.mem_replicate.mpr ⟨hcopies, rfl⟩⟩

theorem Compiled.entities_eq_copies (h : plan.Executable handler.catalog)
    (compiled : handler.Compiled .entity definition plan) (hnone : definition.sorts = [])
    (store : Store) : plan.entities handler.catalog store =
      .ok ((store.rows handler.config.root.entity).flatMap fun row =>
        List.replicate (plan.copies handler.catalog store row) row) := by
  rw [compiled.entities_eq_of_unsorted h hnone, compiled.rootRows_eq_copies]

theorem Compiled.count_eq_copies_of_executable (h : plan.Executable handler.catalog)
    (compiled : handler.Compiled .count definition plan) (store : Store) :
    plan.count handler.catalog store =
      .ok ((store.rows handler.config.root.entity).flatMap fun row =>
        List.replicate (plan.copies handler.catalog store row) row).length := by
  rw [compiled.count_eq_of_executable h, compiled.rootRows_eq_copies]

theorem Compiled.count_eq_copies (hstock : handler.config.Stock)
    (compiled : handler.Compiled .count definition plan) (store : Store) :
    plan.count handler.catalog store =
      .ok ((store.rows handler.config.root.entity).flatMap fun row =>
        List.replicate (plan.copies handler.catalog store row) row).length :=
  compiled.count_eq_copies_of_executable (compiled.executable hstock) store

/-! ## Sorted queries -/

/-- A query with sorts keeps at least as many choices of a root row as one without. -/
theorem Compiled.accepted_le {requests : List (SortRequest S)} {plain sorted : SelectPlan}
    (first : handler.Compiled .entity ⟨criteria, []⟩ plain)
    (second : handler.Compiled .entity ⟨criteria, requests⟩ sorted) (row : Row) :
    first.accepted store row ≤ second.accepted store row := by
  have hnone : first.sorts = [] := first.sorts_eq_nil rfl
  have hnodes := first.spans.nodes_iff
  rw [hnone, List.map_nil, List.append_nil] at hnodes
  have hlonger := second.spans.nodes_iff
  simp only [List.flatMap_append, List.mem_append] at hlonger
  apply Choice.countP_all_le first.spans.wired.nodup second.spans.wired.nodup
    first.spans.parentsFirst second.spans.parentsFirst
  · intro node hnode
    rw [hlonger]
    exact ((hnodes node).mp hnode).imp_right Or.inl
  · exact first.spans.wired.parent_mem
  · intro node hnode
    rw [first.inner_iff hnode, hnone]
    simp
  · intro node hnode hnew
    rw [← Bool.not_eq_true, second.inner_iff hnode, not_not]
    rw [hnodes, not_or] at hnew
    rcases (hlonger node).mp hnode with hroot | hmain | hsort
    · exact (hnew.1 hroot).elim
    · exact (hnew.2 hmain).elim
    · exact hsort
  · intro choice more hagree haccepts a ha
    rw [Applied.accepts, Choice.value, ← hagree a.node (first.mem_nodes_of_main ha)]
    exact haccepts a ha

/-- Sorting excludes no root row: whatever the sorts and the store, a list query with sorts that
returns a list returns each root row at least as often as without them. -/
theorem entities_subperm_of_sorts (hstock : handler.config.Stock)
    {requests : List (SortRequest S)} {plain sorted : SelectPlan} {more : List Row}
    (hplain : handler.entityPlan ⟨criteria, []⟩ = .ok plain)
    (hsorted : handler.entityPlan ⟨criteria, requests⟩ = .ok sorted)
    (hmore : sorted.entities handler.catalog store = .ok more) :
    ∃ rows, plain.entities handler.catalog store = .ok rows ∧ rows.Subperm more := by
  obtain ⟨first⟩ := compiled_of_entityPlan hplain
  obtain ⟨second⟩ := compiled_of_entityPlan hsorted
  have hpermMore := second.entities_perm_copies (second.executable hstock) hmore
  refine ⟨_, first.entities_eq_copies (first.executable hstock) rfl store, ?_⟩
  have hle : ∀ row, plain.copies handler.catalog store row ≤
      sorted.copies handler.catalog store row := by
    intro row
    rw [first.copies_eq hstock, second.copies_eq hstock]
    split
    · exact first.accepted_le second row
    · exact Nat.le_refl 0
  have hcopies : ((store.rows handler.config.root.entity).flatMap fun row =>
      List.replicate (plain.copies handler.catalog store row) row).Sublist
      ((store.rows handler.config.root.entity).flatMap fun row =>
        List.replicate (sorted.copies handler.catalog store row) row) :=
    List.Sublist.flatMap_right _ fun row _ => (List.replicate_sublist_replicate row).mpr (hle row)
  exact hcopies.subperm.trans hpermMore.symm.subperm

end Handler

/-! ## Sorting parents by their children -/

namespace People

/-- Looks for the parents of children whose names start with an M, and sorts them by the names of
their children. -/
def parentsByChild : Handler Unit PersonSort :=
  ⟨catalog, { fixedSearch [⟨Node.child, "firstName", .startsWith "M"⟩] with
    sorts := [⟨.firstName, Node.child, "firstName"⟩] }, rfl⟩

theorem stock_parentsByChild : parentsByChild.config.Stock := by
  intro restriction hrestriction criteria test htest
  rw [List.mem_singleton.mp hrestriction] at htest
  cases htest
  rfl

/-- Bob is found once, and twice by a query that sorts by his two children. -/
theorem entities_subperm_of_bobsFamily :
    parentsByChild.config.Stock ∧ ∃ plain sorted rows more,
      parentsByChild.entityPlan ⟨(), []⟩ = .ok plain ∧
      parentsByChild.entityPlan ⟨(), [⟨.firstName, .ascending⟩]⟩ = .ok sorted ∧
      plain.entities catalog bobsFamily = .ok rows ∧
      sorted.entities catalog bobsFamily = .ok more ∧ rows.length = 1 ∧ more.length = 2 ∧
      rows.Subperm more := by
  obtain ⟨rows, hrows, hsubperm⟩ := @Handler.entities_subperm_of_sorts _ _ _ parentsByChild ()
    bobsFamily stock_parentsByChild [⟨.firstName, .ascending⟩] _ _ _ rfl rfl rfl
  refine ⟨stock_parentsByChild, _, _, rows, _, rfl, rfl, hrows, rfl, ?_, rfl, hsubperm⟩
  cases hrows
  rfl

end People

end CriteriaQuery
