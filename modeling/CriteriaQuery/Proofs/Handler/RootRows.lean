import CriteriaQuery.Proofs.Handler.Compilation

/-! Root rows are not multiplied. Where no sort crosses to many rows, no join of a compiled query
does, since the restrictions that do are tested in a subquery. Then a root row has one binding at
most, and a list query returns each stored row of the root entity at most once
(`Handler.entities_perm_sublist`). -/
namespace CriteriaQuery
open Outcome
set_option autoImplicit false

/-! ## Lists with one result for each item at most -/

/-- Where each item has one result at most, and that leads back to it, filtering the results is
filtering the items. -/
theorem filterMap_filter_flatMap {α β : Type} {f : α → List β} {g : β → Option α} {items : List α}
    (hlength : ∀ a ∈ items, (f a).length ≤ 1) (hback : ∀ a ∈ items, ∀ b ∈ f a, g b = some a)
    (keep : β → Bool) :
    ((items.flatMap f).filter keep).filterMap g = items.filter fun a => (f a).any keep := by
  induction items with
  | nil => rfl
  | cons a rest ih =>
    have hrest := ih (fun b hb => hlength b (List.mem_cons_of_mem _ hb))
      (fun b hb => hback b (List.mem_cons_of_mem _ hb))
    have hhead : ((f a).filter keep).filterMap g = if (f a).any keep then [a] else [] := by
      have hone := hlength a List.mem_cons_self
      have hself := hback a List.mem_cons_self
      cases hresults : f a with
      | nil => rfl
      | cons b more =>
        rw [hresults] at hone hself
        have hb : g b = some a := hself b List.mem_cons_self
        rw [eq_nil_of_length_cons_le hone]
        cases hkeep : keep b with
        | true => simp [hkeep, hb]
        | false => simp [hkeep]
    rw [List.flatMap_cons, List.filter_append, List.filterMap_append, hrest, hhead,
      List.filter_cons]
    split <;> rfl

/-! ## Rows of bindings -/

theorem Binding.row?_of_row_eq_ok {binding : Binding} {aliasName : String} {row : Option Row}
    (h : binding.row aliasName = .ok row) : binding.row? aliasName = row := by
  unfold Binding.row at h
  unfold row?
  split at h
  · rename_i hfind
    cases h
    rw [hfind]
    rfl
  · cases h

theorem eq_filterMap_of_boundRows {aliasName : String} {bindings : List Binding} {rows : List Row}
    (h : boundRows aliasName bindings = .ok rows) :
    rows = bindings.filterMap (·.row? aliasName) := by
  obtain ⟨found, hfound, hrows⟩ := bind_eq_ok.mp h
  rw [pure_eq_ok] at hrows
  subst hrows
  have hall := forall₂_of_mapM hfound
  clear h hfound
  induction hall with
  | nil => rfl
  | cons hfirst _ ih =>
    rw [List.filterMap_cons, List.filterMap_cons, Binding.row?_of_row_eq_ok hfirst, ih]
    rfl

theorem SelectPlan.Spans.rootRows_eq {catalog : Catalog} {store : Store} {modes : JoinModes}
    {tree : JoinTree} {nodes : List JoinNode} {scope : Scope} {plan : SelectPlan}
    (h : plan.Spans catalog modes tree nodes scope) (hstore : store.Functional catalog)
    (hone : ∀ node ∈ nodes, node.crossesToMany = false) (keep : Binding → Bool) :
    (((store.rows tree.root.entity).flatMap (plan.bindingsFrom catalog store)).filter
        keep).filterMap (·.row? plan.rootAlias) =
      (store.rows tree.root.entity).filter fun row =>
        (plan.bindingsFrom catalog store row).any keep :=
  filterMap_filter_flatMap (fun _ hrow => h.length_bindingsFrom_le hstore hone hrow)
    (fun _ _ _ hbinding => h.row?_root hbinding) keep

namespace Handler
variable {C S : Type} [DecidableEq S] {handler : Handler C S} {definition : QueryDefinition C S}
  {plan : SelectPlan} {store : Store}

theorem Compiled.crossesToMany_eq_false {kind : ResultKind}
    (compiled : handler.Compiled kind definition plan)
    (hsorts : ∀ sort ∈ compiled.sorts, sort.1.node.crossesToMany = false) :
    ∀ node ∈ (handler.mainGroups definition.criteria).map (·.node) ++
      compiled.sorts.map (·.1.node), node.crossesToMany = false := by
  intro node hnode
  rcases List.mem_append.mp hnode with hnode | hnode
  · obtain ⟨group, hgroup, rfl⟩ := List.mem_map.mp hnode
    simpa using (List.mem_filter.mp hgroup).2
  · obtain ⟨sort, hsort, rfl⟩ := List.mem_map.mp hnode
    exact hsorts sort hsort

/-- What a list query returns is some of the stored rows of the root entity, each at most once, in
some order. -/
theorem entities_perm_sublist {sorts : List (ConfiguredSort S × Direction)} {rows : List Row}
    (hstore : store.Functional handler.catalog)
    (hsorts : handler.config.resolveSorts definition.sorts = .ok sorts)
    (hone : ∀ sort ∈ sorts, sort.1.node.crossesToMany = false)
    (hplan : handler.entityPlan definition = .ok plan)
    (hrows : plan.entities handler.catalog store = .ok rows) :
    ∃ kept : List Row, kept.Sublist (store.rows handler.config.root.entity) ∧ rows.Perm kept := by
  obtain ⟨compiled⟩ := compiled_of_entityPlan hplan
  have heq := compiled.sorts_eq_of_resolveSorts hsorts
  have hnodes := compiled.crossesToMany_eq_false (by rw [heq]; exact hone)
  obtain ⟨output, houtput, hentities⟩ := bind_eq_ok.mp hrows
  obtain ⟨bindings, kept, sorted, hjoined, hkept, hsorted, hselected⟩ :=
    SelectPlan.execute_eq_ok.mp houtput
  rw [compiled.spans.joined_eq, Except.ok.injEq] at hjoined
  subst hjoined
  have hsublist : kept.Sublist ((store.rows handler.tree.root.entity).flatMap
      (plan.bindingsFrom handler.catalog store)) := SelectPlan.sublist_of_filtered hkept
  have houtputRows : rows = sorted.filterMap (·.row? plan.rootAlias) := by
    rw [compiled.selection_eq] at hselected
    obtain ⟨found, hfound, rfl⟩ := map_eq_ok.mp hselected
    cases hentities
    exact eq_filterMap_of_boundRows hfound
  -- the bindings that were kept lead to a part of the root rows, and sorting only moves them
  refine ⟨kept.filterMap (·.row? plan.rootAlias), ?_, ?_⟩
  · have hall := compiled.spans.rootRows_eq hstore hnodes fun _ => true
    rw [List.filter_true] at hall
    have hpart := hsublist.filterMap (·.row? plan.rootAlias)
    rw [hall] at hpart
    exact hpart.trans List.filter_sublist
  · rw [houtputRows]
    exact (perm_of_sortBindings hsorted).filterMap _

end Handler

/-! ## A parent of two -/

namespace People

/-- Bob with two children, whose names start with the same letter. -/
def bobsFamily : Store :=
  .withRows {} "Person" [⟨[("id", .int64 1), ("firstName", .string "Bob")]⟩,
    ⟨[("id", .int64 2), ("firstName", .string "Molly"), ("parentId", .int64 1)]⟩,
    ⟨[("id", .int64 3), ("firstName", .string "Max"), ("parentId", .int64 1)]⟩]

/-- Looks for the parents of children whose names start with an M. -/
def parentsOfM : Handler Unit PersonSort :=
  ⟨catalog, fixedSearch [⟨Node.child, "firstName", .startsWith "M"⟩], rfl⟩

theorem functional_bobsFamily : bobsFamily.Functional catalog :=
  Store.functional_of_relations (by decide)

/-- Bob is found once, although both of his children are among those looked for. -/
theorem entities_perm_sublist_of_bobsFamily :
    ∃ plan rows, parentsOfM.entityPlan ⟨(), [⟨.firstName, .ascending⟩]⟩ = .ok plan ∧
      plan.entities catalog bobsFamily = .ok rows ∧ rows.length = 1 ∧
      ∃ kept : List Row, kept.Sublist (bobsFamily.rows "Person") ∧ rows.Perm kept := by
  refine ⟨_, _, rfl, rfl, rfl, ?_⟩
  have hsorts : parentsOfM.config.resolveSorts [⟨.firstName, .ascending⟩] =
      .ok [(⟨.firstName, Node.person, "firstName"⟩, .ascending)] := rfl
  have hone : ∀ sort ∈ [((⟨.firstName, Node.person, "firstName"⟩ : ConfiguredSort PersonSort),
      Direction.ascending)], sort.1.node.crossesToMany = false := by
    intro sort hsort
    rw [List.mem_singleton.mp hsort]
    rfl
  exact @Handler.entities_perm_sublist _ _ _ parentsOfM ⟨(), [⟨.firstName, .ascending⟩]⟩ _ bobsFamily
    _ _ functional_bobsFamily hsorts hone rfl rfl

end People

end CriteriaQuery
