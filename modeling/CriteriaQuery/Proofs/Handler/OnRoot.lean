import CriteriaQuery.Proofs.Handler.Restricting

/-! Restrictions on the root. They join nothing, so that only the root row decides whether it passes
them (`Handler.mem_entities_iff_of_onRoot`), and one more of them leaves the root rows that it accepts
as often as they were, and no others (`Handler.Adds.copies_eq`). Two restrictions of which every row
passes one split what a query counts (`Handler.counts_of_adds`). -/
namespace CriteriaQuery
open Outcome
set_option autoImplicit false

namespace Handler
variable {C S : Type} [DecidableEq S] {handler : Handler C S} {criteria richer : C} {b : Applied}
  {meaning : Meaning} {store : Store} {kind : ResultKind} {requests : List (SortRequest S)}

theorem path_root (handler : Handler C S) :
    handler.config.root.path = [handler.config.root] :=
  JoinNode.path_of_isRoot handler.isRoot_root

/-! ## Main restrictions on the root only -/

theorem Compiled.passes_iff_of_onRoot {definition : QueryDefinition C S} {plan : SelectPlan}
    (honRoot : ∀ a ∈ handler.main definition.criteria, a.node = handler.config.root)
    (hsettled : handler.Settled store definition.criteria meaning)
    (compiled : handler.Compiled kind definition plan) {row : Row} :
    plan.passes handler.catalog store row = true ↔
      (∀ a ∈ handler.main definition.criteria, meaning a (row.value a.column) = true) ∧
        handler.Selected store definition.criteria row := by
  have hvalue : ∀ choice : Choice, choice handler.config.root = some row →
      ∀ a ∈ handler.main definition.criteria,
        choice.value a.node a.column = row.value a.column := by
    intro choice hroot a ha
    rw [honRoot a ha]
    exact Choice.value_eq_of_eq_some hroot a.column
  rw [compiled.passes_iff_of_settled hsettled]
  apply and_congr_left
  intro _
  constructor
  · rintro ⟨choice, hchoice, hpass⟩ a ha
    rw [← hvalue choice hchoice.root_eq a ha]
    exact hpass a ha
  · intro hpass
    -- all joins lead to sorts, and a left join always finds a row or goes without
    have hinner : ∀ node ∈ compiled.scope.nodes,
        ((JoinModes.resolve ((handler.mainGroups definition.criteria).map (·.node))
          (compiled.sorts.map (·.1.node))).modeOf node).inner = true →
        (node.rowFrom handler.catalog store row).isSome = true := by
      intro node hnode hinner
      have hoff := (compiled.inner_iff hnode).mp hinner
      have hroot : node = handler.config.root := by
        rcases (compiled.spans.nodes_iff node).mp hnode with hroot | hpath
        · exact hroot
        · rw [List.flatMap_append, List.mem_append, or_iff_left hoff] at hpath
          obtain ⟨last, hlast, hstep⟩ := List.mem_flatMap.mp hpath
          obtain ⟨a, ha, rfl⟩ := List.mem_map.mp ((mem_mainNodes_iff last).mp hlast)
          rwa [honRoot a ha, handler.path_root, List.mem_singleton] at hstep
      rw [hroot, JoinNode.rowFrom_of_isRoot handler.isRoot_root]
      rfl
    refine ⟨_, follows_rowFrom hinner, ?_⟩
    intro a ha
    rw [hvalue _ (JoinNode.rowFrom_of_isRoot handler.isRoot_root) a ha]
    exact hpass a ha

/-- Where all main restrictions are on the root, what a list query returns, whatever it is sorted by, are
the root rows that pass them and are selected for the promoted ones. Unsorted it does return. -/
theorem mem_entities_iff_of_onRoot {plan : SelectPlan}
    (honRoot : ∀ a ∈ handler.main criteria, a.node = handler.config.root)
    (hsettled : handler.Settled store criteria meaning)
    (hplan : handler.entityPlan ⟨criteria, requests⟩ = .ok plan) :
    (∀ rows, plan.entities handler.catalog store = .ok rows → ∀ row, row ∈ rows ↔
      row ∈ store.rows handler.config.root.entity ∧
        (∀ a ∈ handler.main criteria, meaning a (row.value a.column) = true) ∧
        handler.Selected store criteria row) ∧
    (requests = [] → ∃ rows, plan.entities handler.catalog store = .ok rows) := by
  obtain ⟨compiled⟩ := compiled_of_entityPlan hplan
  have h := compiled.executable_of_settled hsettled
  refine ⟨?_, fun hnone => ⟨_, compiled.entities_eq_copies h hnone store⟩⟩
  intro rows hrows row
  rw [compiled.mem_entities_iff h hrows, compiled.passes_iff_of_onRoot honRoot hsettled]

/-! ## One more restriction on the root -/

/-- A definition compiles to a count that returns a number. -/
def Counts (handler : Handler C S) (store : Store) (definition : QueryDefinition C S) (n : Nat) :
    Prop :=
  ∃ plan, handler.countPlan definition = .ok plan ∧ plan.count handler.catalog store = .ok n

theorem Counts.unique {definition : QueryDefinition C S} {m n : Nat}
    (hm : handler.Counts store definition m) (hn : handler.Counts store definition n) : m = n := by
  obtain ⟨plan, hplan, hcount⟩ := hm
  obtain ⟨other, hother, hotherCount⟩ := hn
  cases hplan.symm.trans hother
  cases hcount.symm.trans hotherCount
  rfl

/-- A field that was not set is, and only one of the restrictions reads it. -/
theorem mem_present_of_added {added : Restriction C} (hmem : added ∈ handler.config.restrictions)
    (habsent : added.present? criteria = none) (hadded : added.present? richer = some b)
    (hothers : ∀ other ∈ handler.config.restrictions,
      other = added ∨ other.present? richer = other.present? criteria) (a : Applied) :
    a ∈ handler.present richer ↔ a ∈ handler.present criteria ∨ a = b := by
  rw [present, present, List.mem_filterMap, List.mem_filterMap]
  constructor
  · rintro ⟨restriction, hrestriction, hpresent⟩
    rcases hothers restriction hrestriction with rfl | hsame
    · rw [hadded] at hpresent
      exact Or.inr (Option.some.inj hpresent).symm
    · rw [hsame] at hpresent
      exact Or.inl ⟨restriction, hrestriction, hpresent⟩
  · rintro (⟨restriction, hrestriction, hpresent⟩ | rfl)
    · rcases hothers restriction hrestriction with rfl | hsame
      · rw [habsent] at hpresent
        cases hpresent
      · exact ⟨restriction, hrestriction, hsame.trans hpresent⟩
    · exact ⟨added, hmem, hadded⟩

/-- A record makes the restrictions of another one and one more on the root, which can be tested. -/
structure Adds (handler : Handler C S) (store : Store) (criteria richer : C) (b : Applied)
    (meaning : Meaning) : Prop where
  present_iff : ∀ a, a ∈ handler.present richer ↔ a ∈ handler.present criteria ∨ a = b
  node_eq : b.node = handler.config.root
  ready : b.Ready handler.catalog
  uniform : ∀ a ∈ handler.present richer, a.test.Uniform
  settled : handler.Settled store richer meaning

namespace Adds
variable (h : handler.Adds store criteria richer b meaning)
include h

theorem crossesToMany_eq_false : b.node.crossesToMany = false := by
  rw [h.node_eq]
  exact JoinNode.crossesToMany_of_isRoot handler.isRoot_root

theorem mem_main_iff (a : Applied) :
    a ∈ handler.main richer ↔ a ∈ handler.main criteria ∨ a = b := by
  rw [main, main, List.mem_filter, List.mem_filter, h.present_iff, or_and_right]
  apply or_congr_right
  constructor
  · exact And.left
  · rintro rfl
    exact ⟨rfl, by rw [h.crossesToMany_eq_false]; rfl⟩

theorem mem_promoted_iff (a : Applied) :
    a ∈ handler.promoted richer ↔ a ∈ handler.promoted criteria := by
  rw [promoted, promoted, List.mem_filter, List.mem_filter, h.present_iff, or_and_right]
  apply or_iff_left
  rintro ⟨rfl, hmany⟩
  rw [h.crossesToMany_eq_false] at hmany
  cases hmany

theorem settled_fewer : handler.Settled store criteria meaning where
  main a ha := h.settled.main a ((h.mem_main_iff a).mpr (Or.inl ha))
  promoted a ha := h.settled.promoted a ((h.mem_promoted_iff a).mpr ha)

/-! ## Compilation -/

theorem declared {sorts : List (ConfiguredSort S × Direction)}
    (hdeclared : handler.Declared criteria sorts) : handler.Declared richer sorts where
  root := hdeclared.root
  paths := by
    intro node hnode
    rcases List.mem_append.mp hnode with hnode | hnode
    · obtain ⟨a, ha, rfl⟩ := List.mem_map.mp hnode
      rcases (h.present_iff a).mp ha with ha | rfl
      · exact hdeclared.paths _ (List.mem_append_left _ (List.mem_map_of_mem ha))
      · rw [h.node_eq]
        exact JoinNode.pathDeclared_of_isRoot handler.isRoot_root
    · exact hdeclared.paths _ (List.mem_append_right _ hnode)
  identity := by
    rintro ⟨a, ha, hmany⟩
    rcases (h.present_iff a).mp ha with ha | rfl
    · exact hdeclared.identity ⟨a, ha, hmany⟩
    · rw [h.crossesToMany_eq_false] at hmany
      cases hmany
  sorts := hdeclared.sorts

/-- What compiles without the restriction compiles with it. -/
theorem exists_compile (hcompile : ∃ draft, handler.compile kind ⟨criteria, requests⟩ = .ok draft) :
    ∃ draft, handler.compile kind ⟨richer, requests⟩ = .ok draft := by
  have huniform : ∀ a ∈ handler.present criteria, a.test.Uniform :=
    fun a ha => h.uniform a ((h.present_iff a).mpr (Or.inl ha))
  rw [exists_compile_iff_of_uniform huniform] at hcompile
  rw [exists_compile_iff_of_uniform h.uniform]
  obtain ⟨htolerates, hdeclared, hready⟩ := hcompile
  refine ⟨htolerates, h.declared hdeclared, ?_⟩
  intro a ha
  rcases (h.present_iff a).mp ha with ha | rfl
  · exact hready a ha
  · exact h.ready

/-! ## Copies of root rows -/

/-- Of the choices that pass the other restrictions, all or none pass this one too. -/
theorem passing_eq {plan other : SelectPlan}
    (first : handler.Compiled kind ⟨criteria, requests⟩ plan)
    (second : handler.Compiled kind ⟨richer, requests⟩ other) (hfirst : first.sorts = [])
    (hsecond : second.sorts = []) (row : Row) :
    second.passing meaning store row =
      if meaning b (row.value b.column) then first.passing meaning store row else 0 := by
  have hnodes : ∀ node, node ∈ second.scope.nodes ↔ node ∈ first.scope.nodes := by
    intro node
    rw [second.mem_nodes_iff hsecond, first.mem_nodes_iff hfirst]
    have hpath : node ∈ b.node.path ↔ node = handler.config.root := by
      rw [h.node_eq, handler.path_root, List.mem_singleton]
    simp only [h.mem_main_iff, or_and_right, exists_or, exists_eq_left, hpath]
    rw [or_comm, or_assoc, or_self, or_comm]
  have hchoices : second.choices store row = first.choices store row :=
    first.choices_congr second rfl hfirst hsecond hnodes row
  have hpass : ∀ choice ∈ first.choices store row,
      ((∀ a ∈ handler.main richer, meaning a (choice.value a.node a.column) = true) ↔
        meaning b (row.value b.column) = true ∧
          ∀ a ∈ handler.main criteria, meaning a (choice.value a.node a.column) = true) := by
    intro choice hchoice
    have hroot : choice handler.config.root = some row :=
      (first.spans.follows_of_mem hchoice).root_eq
    have hvalue : choice.value b.node b.column = row.value b.column := by
      rw [h.node_eq]
      exact Choice.value_eq_of_eq_some hroot b.column
    rw [← hvalue]
    constructor
    · intro hall
      exact ⟨hall b ((h.mem_main_iff b).mpr (Or.inr rfl)),
        fun a ha => hall a ((h.mem_main_iff a).mpr (Or.inl ha))⟩
    · rintro ⟨hb, hall⟩ a ha
      rcases (h.mem_main_iff a).mp ha with ha | rfl
      · exact hall a ha
      · exact hb
  rw [Compiled.passing, Compiled.passing, hchoices]
  split
  · rename_i hb
    apply Multiset.countP_congr rfl
    intro choice hchoice
    exact propext ((hpass choice hchoice).trans (and_iff_right hb))
  · rename_i hb
    rw [Multiset.countP_eq_zero]
    intro choice hchoice hall
    exact hb ((hpass choice hchoice).mp hall).1

/-- A root row that the restriction accepts is kept as often as before, another one not at all. -/
theorem copies_eq {plan other : SelectPlan}
    (first : handler.Compiled kind ⟨criteria, requests⟩ plan)
    (second : handler.Compiled kind ⟨richer, requests⟩ other) (hfirst : first.sorts = [])
    (hsecond : second.sorts = []) (row : Row) :
    other.copies handler.catalog store row =
      if meaning b (row.value b.column) then plan.copies handler.catalog store row else 0 := by
  classical
  have hselected : handler.Selected store richer row ↔ handler.Selected store criteria row :=
    selected_congr rfl rfl rfl h.mem_promoted_iff row
  rw [second.copies_eq_of_settled h.settled, first.copies_eq_of_settled h.settled_fewer,
    h.passing_eq first second hfirst hsecond]
  simp only [hselected]
  split <;> split <;> rfl

theorem counts {plan : SelectPlan} (hplan : handler.countPlan ⟨criteria, requests⟩ = .ok plan) :
    handler.Counts store ⟨richer, requests⟩
      ((store.rows handler.config.root.entity).flatMap fun row => List.replicate
        (if meaning b (row.value b.column) then plan.copies handler.catalog store row else 0)
        row).length := by
  have hcompile : ∃ draft, handler.compile .count ⟨richer, requests⟩ = .ok draft :=
    h.exists_compile (exists_map_eq_ok.mp ⟨plan, hplan⟩)
  obtain ⟨other, hother⟩ := exists_map_eq_ok.mpr hcompile
  obtain ⟨first⟩ := compiled_of_countPlan hplan
  obtain ⟨second⟩ := compiled_of_countPlan hother
  refine ⟨other, hother, ?_⟩
  simp only [← h.copies_eq first second first.sorts_eq_nil_of_count second.sorts_eq_nil_of_count]
  exact second.count_eq_copies_of_executable (second.executable_of_settled h.settled) store

end Adds

/-- Two restrictions of which every row passes one split what a query counts: with the one and with the
other it compiles and runs as well, and the two counts add up. -/
theorem counts_of_adds {left right : C} {a b : Applied} {first second : Meaning}
    (hleft : handler.Adds store criteria left a first)
    (hright : handler.Adds store criteria right b second)
    (hsplit : ∀ row : Row, second b (row.value b.column) = !first a (row.value a.column))
    (hcompiles : ∃ plan, handler.countPlan ⟨criteria, requests⟩ = .ok plan) :
    ∃ m n, handler.Counts store ⟨left, requests⟩ m ∧ handler.Counts store ⟨right, requests⟩ n ∧
      handler.Counts store ⟨criteria, requests⟩ (m + n) := by
  obtain ⟨plan, hplan⟩ := hcompiles
  refine ⟨_, _, hleft.counts hplan, hright.counts hplan, plan, hplan, ?_⟩
  obtain ⟨compiled⟩ := compiled_of_countPlan hplan
  rw [compiled.count_eq_copies_of_executable (compiled.executable_of_settled hleft.settled_fewer)]
  simp only [List.length_flatMap, List.length_replicate, ← List.sum_map_add]
  congr 3
  funext row
  rw [hsplit]
  cases first a (row.value a.column) <;> simp

end Handler

end CriteriaQuery
