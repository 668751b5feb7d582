import CriteriaQuery.Proofs.Handler.Acceptance
import CriteriaQuery.Proofs.Handler.Copies
import CriteriaQuery.Proofs.Handler.Meaning
import CriteriaQuery.Proofs.Handler.Success

/-! Handlers that differ in their restrictions only. What is accepted and compiles with some
restrictions is so with a part of them. Their order decides on aliases, on the order of joins and of
predicates, and on the subquery, but not on what comes of a query (`Handler.results_of_perm`). -/
namespace CriteriaQuery
open Outcome
set_option autoImplicit false

theorem HandlerConfig.Unambiguous.of_subset {C S : Type} {config : HandlerConfig C S}
    {restrictions : List (Restriction C)} (h : config.Unambiguous)
    (hsubset : restrictions ⊆ config.restrictions) :
    HandlerConfig.Unambiguous { config with restrictions } := by
  have hnodes : ∀ node ∈ HandlerConfig.nodes { config with restrictions }, node ∈ config.nodes := by
    intro node hnode
    unfold HandlerConfig.nodes at hnode ⊢
    rw [List.mem_append] at hnode ⊢
    exact hnode.imp_left fun hmem => List.map_subset _ hsubset hmem
  have hpaths : ∀ node, HandlerConfig.OnPaths { config with restrictions } node →
      config.OnPaths node := by
    intro node hnode
    unfold HandlerConfig.OnPaths at hnode ⊢
    rw [List.mem_cons, List.mem_flatMap] at hnode ⊢
    exact hnode.imp_right fun ⟨last, hlast, hstep⟩ => ⟨last, hnodes last hlast, hstep⟩
  refine ⟨h.parent?_root, ?_, ?_, h.nodup_sorts⟩
  · exact fun node hnode => h.rootNode_id node (hnodes node hnode)
  · exact fun a b ha hb => h.eq_of_id a b (hpaths a ha) (hpaths b hb)

namespace Handler
variable {C S : Type} [DecidableEq S] {handler : Handler C S} {criteria : C} {kind : ResultKind}
  {store : Store} {restrictions : List (Restriction C)}

/-! ## A part of the restrictions -/

/-- The handler with a part of its restrictions. -/
def withRestrictions (handler : Handler C S) (restrictions : List (Restriction C))
    (hsubset : restrictions ⊆ handler.config.restrictions) : Handler C S where
  catalog := handler.catalog
  config := { handler.config with restrictions }
  accepted := HandlerConfig.fault?_eq_none_iff.mpr
    ((HandlerConfig.fault?_eq_none_iff.mp handler.accepted).of_subset hsubset)

section Part
variable (hsubset : restrictions ⊆ handler.config.restrictions)

theorem create_withRestrictions :
    create handler.catalog { handler.config with restrictions } =
      .ok (handler.withRestrictions restrictions hsubset) := by
  obtain ⟨other, hother⟩ := exists_create_iff.mpr
    (handler.withRestrictions restrictions hsubset).accepted
  obtain ⟨hcatalog, hconfig⟩ := create_eq_ok hother
  obtain ⟨catalog, config, accepted⟩ := other
  cases hcatalog
  cases hconfig
  exact hother

theorem stock_withRestrictions (hstock : handler.config.Stock) :
    (handler.withRestrictions restrictions hsubset).config.Stock :=
  fun restriction hrestriction => hstock restriction (hsubset hrestriction)

theorem present_withRestrictions_subset :
    (handler.withRestrictions restrictions hsubset).present criteria ⊆ handler.present criteria :=
  List.filterMap_subset _ hsubset

theorem Compilable.withRestrictions {sorts : List (ConfiguredSort S × Direction)}
    (h : handler.Compilable criteria sorts) :
    (handler.withRestrictions restrictions hsubset).Compilable criteria sorts where
  root := h.root
  paths := by
    have hpresent : (handler.withRestrictions restrictions hsubset).present criteria ⊆
      handler.present criteria := present_withRestrictions_subset hsubset
    intro node hnode
    apply h.paths
    rw [List.mem_append] at hnode ⊢
    exact hnode.imp_left fun hmem => List.map_subset _ hpresent hmem
  restrictions := fun a ha => h.restrictions a (present_withRestrictions_subset hsubset ha)
  identity := fun ⟨a, ha, hmany⟩ =>
    h.identity ⟨a, present_withRestrictions_subset hsubset ha, hmany⟩
  sorts := h.sorts

end Part

/-! ## The same restrictions -/

/-- Without sorts, the nodes of a query are those on the paths of its main restrictions. -/
theorem Compiled.mem_nodes_iff {definition : QueryDefinition C S} {plan : SelectPlan}
    (compiled : handler.Compiled kind definition plan) (hnone : compiled.sorts = [])
    (node : JoinNode) : node ∈ compiled.scope.nodes ↔ node = handler.config.root ∨
      ∃ a ∈ handler.main definition.criteria, node ∈ a.node.path := by
  have hends : ∀ last, last ∈ (handler.mainGroups definition.criteria).map (·.node) ↔
      last ∈ (handler.main definition.criteria).map (·.node) := mem_mainNodes_iff
  rw [compiled.spans.nodes_iff, hnone, List.map_nil, List.append_nil, List.mem_flatMap]
  simp only [hends]
  simp only [List.mem_map, exists_exists_and_eq_and]
  exact Iff.rfl

section Same
variable {hsubset : restrictions ⊆ handler.config.restrictions}
  (hsame : ∀ a, a ∈ (handler.withRestrictions restrictions hsubset).present criteria ↔
    a ∈ handler.present criteria)
include hsame

theorem mem_filter_of_same (keep : Applied → Bool) (a : Applied) :
    a ∈ ((handler.withRestrictions restrictions hsubset).present criteria).filter keep ↔
      a ∈ (handler.present criteria).filter keep := by
  rw [List.mem_filter, List.mem_filter, hsame]

theorem selected_iff_of_same (row : Row) :
    (handler.withRestrictions restrictions hsubset).Selected store criteria row ↔
      handler.Selected store criteria row := by
  have hmem : ∀ a, a ∈ (handler.withRestrictions restrictions hsubset).promoted criteria ↔
      a ∈ handler.promoted criteria := mem_filter_of_same hsame _
  have hcatalog : (handler.withRestrictions restrictions hsubset).catalog = handler.catalog := rfl
  exact selected_congr hcatalog rfl rfl hmem row

open Classical in
/-- Without sorts, the restrictions that are present decide how often a root row is returned. -/
theorem Compiled.copies_eq_of_same (hstock : handler.config.Stock)
    {requests : List (SortRequest S)} {plan other : SelectPlan}
    (first : handler.Compiled kind ⟨criteria, requests⟩ plan)
    (second : (handler.withRestrictions restrictions hsubset).Compiled kind ⟨criteria, requests⟩
      other) (hfirst : first.sorts = []) (hsecond : second.sorts = []) :
    other.copies handler.catalog store = plan.copies handler.catalog store := by
  funext row
  have hmain : ∀ a, a ∈ (handler.withRestrictions restrictions hsubset).main criteria ↔
      a ∈ handler.main criteria := mem_filter_of_same hsame _
  have hnodes : ∀ node, node ∈ second.scope.nodes ↔ node ∈ first.scope.nodes := by
    intro node
    rw [second.mem_nodes_iff hsecond, first.mem_nodes_iff hfirst]
    simp only [hmain]
    exact Iff.rfl
  have hchoices : second.choices store row = first.choices store row :=
    first.choices_congr second rfl hfirst hsecond hnodes row
  have haccepted : second.accepted store row = first.accepted store row := by
    unfold Compiled.accepted
    simp only [hmain, hchoices]
  rw [first.copies_eq hstock, ← haccepted]
  exact (second.copies_eq (stock_withRestrictions hsubset hstock) row).trans
    (if_congr (selected_iff_of_same hsame row) rfl rfl)

end Same

/-! ## The order of restrictions -/

section Perm
variable (hperm : restrictions.Perm handler.config.restrictions)
include hperm

theorem mem_present_of_perm (a : Applied) :
    a ∈ (handler.withRestrictions restrictions hperm.subset).present criteria ↔
      a ∈ handler.present criteria := (hperm.filterMap (·.present? criteria)).mem_iff

theorem compilable_iff_of_perm {sorts : List (ConfiguredSort S × Direction)} :
    (handler.withRestrictions restrictions hperm.subset).Compilable criteria sorts ↔
      handler.Compilable criteria sorts :=
  ⟨fun h => h.withRestrictions hperm.symm.subset, fun h => h.withRestrictions hperm.subset⟩

theorem exists_compile_iff_of_perm (hstock : handler.config.Stock)
    (definition : QueryDefinition C S) :
    (∃ draft, (handler.withRestrictions restrictions hperm.subset).compile kind definition =
      .ok draft) ↔ ∃ draft, handler.compile kind definition = .ok draft := by
  rw [exists_compile_iff hstock, exists_compile_iff (stock_withRestrictions hperm.subset hstock)]
  exact and_congr_right fun _ => compilable_iff_of_perm hperm

/-- The order in which restrictions are configured does not matter. A configuration with the same
restrictions in another order is accepted as well, the same definitions compile to a count and to a
list without sorts, and on every store these return the same number and the same rows. -/
theorem results_of_perm (hstock : handler.config.Stock) :
    ∃ other, create handler.catalog { handler.config with restrictions } = .ok other ∧
      ∀ criteria requests,
        ((∃ plan, other.countPlan ⟨criteria, requests⟩ = .ok plan) ↔
          ∃ plan, handler.countPlan ⟨criteria, requests⟩ = .ok plan) ∧
        ((∃ plan, other.entityPlan ⟨criteria, []⟩ = .ok plan) ↔
          ∃ plan, handler.entityPlan ⟨criteria, []⟩ = .ok plan) ∧
        (∀ plan reordered, handler.countPlan ⟨criteria, requests⟩ = .ok plan →
          other.countPlan ⟨criteria, requests⟩ = .ok reordered → ∀ store, ∃ n,
            plan.count handler.catalog store = .ok n ∧
            reordered.count handler.catalog store = .ok n) ∧
        ∀ plan reordered, handler.entityPlan ⟨criteria, []⟩ = .ok plan →
          other.entityPlan ⟨criteria, []⟩ = .ok reordered → ∀ store, ∃ rows,
            plan.entities handler.catalog store = .ok rows ∧
            reordered.entities handler.catalog store = .ok rows := by
  have hother := stock_withRestrictions hperm.subset hstock
  refine ⟨_, create_withRestrictions hperm.subset, ?_⟩
  intro criteria requests
  refine ⟨?_, ?_, ?_, ?_⟩
  · rw [countPlan, countPlan, exists_map_eq_ok, exists_map_eq_ok]
    exact exists_compile_iff_of_perm hperm hstock _
  · rw [entityPlan, entityPlan, exists_map_eq_ok, exists_map_eq_ok]
    exact exists_compile_iff_of_perm hperm hstock _
  · intro plan reordered hplan hreordered store
    obtain ⟨first⟩ := compiled_of_countPlan hplan
    obtain ⟨second⟩ := compiled_of_countPlan hreordered
    refine ⟨_, first.count_eq_copies hstock store, ?_⟩
    rw [← first.copies_eq_of_same (mem_present_of_perm hperm) hstock second
      first.sorts_eq_nil_of_count second.sorts_eq_nil_of_count]
    exact second.count_eq_copies hother store
  · intro plan reordered hplan hreordered store
    obtain ⟨first⟩ := compiled_of_entityPlan hplan
    obtain ⟨second⟩ := compiled_of_entityPlan hreordered
    refine ⟨_, first.entities_eq_copies (first.executable hstock) rfl store, ?_⟩
    rw [← first.copies_eq_of_same (mem_present_of_perm hperm) hstock second
      (first.sorts_eq_nil rfl) (second.sorts_eq_nil rfl)]
    exact second.entities_eq_copies (second.executable hother) rfl store

end Perm

end Handler

/-! ## Two restrictions in the other order -/

namespace People

theorem perm_reverse_employedParentsOfM :
    employedParentsOfM.config.restrictions.reverse.Perm employedParentsOfM.config.restrictions :=
  List.reverse_perm _

theorem results_of_perm_of_employedParentsOfM :
    employedParentsOfM.config.Stock ∧
      employedParentsOfM.config.restrictions.reverse.Perm
        employedParentsOfM.config.restrictions ∧
      ∃ other, Handler.create catalog { employedParentsOfM.config with
          restrictions := employedParentsOfM.config.restrictions.reverse } = .ok other ∧
        ∃ plan reordered, employedParentsOfM.entityPlan ⟨(), []⟩ = .ok plan ∧
          other.entityPlan ⟨(), []⟩ = .ok reordered ∧ ∃ rows, rows.length = 1 ∧
          plan.entities catalog twoParents = .ok rows ∧
          reordered.entities catalog twoParents = .ok rows := by
  obtain ⟨other, hcreate, hall⟩ := @Handler.results_of_perm _ _ _ employedParentsOfM _
    perm_reverse_employedParentsOfM stock_employedParentsOfM
  obtain ⟨-, hcompiles, -, hentities⟩ := hall () []
  obtain ⟨reordered, hreordered⟩ := hcompiles.mpr ⟨_, rfl⟩
  obtain ⟨rows, hrows, hsame⟩ := hentities _ reordered rfl hreordered twoParents
  refine ⟨stock_employedParentsOfM, perm_reverse_employedParentsOfM, other, hcreate, _, reordered,
    rfl, hreordered, rows, ?_, hrows, hsame⟩
  cases hrows
  rfl

end People

end CriteriaQuery
