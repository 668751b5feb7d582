import CriteriaQuery.Proofs.Handler.Restricting

/-! Restrictions as a conjunction. Rows chosen for a part of the restrictions and rows chosen for
the rest are put together where the two parts share no step to many rows: what they share is
determined by the root row (`JoinNode.Linked.eq_of_toOne`). So a search finds what both parts find;
where they do share such a step, it finds some of that (`Handler.entities_of_split`). -/
namespace CriteriaQuery
open Outcome
set_option autoImplicit false

/-! ## Determined rows -/

namespace JoinNode
variable {catalog : Catalog} {store : Store} {tree : JoinTree} {node step : JoinNode}
  {choose other : JoinNode → Row}

theorem Linked.of_mem_path (h : node.Linked catalog store choose) (hstep : step ∈ node.path) :
    step.Linked catalog store choose :=
  fun before hbefore => h before ((path_prefix_of_mem hstep).subset hbefore)

theorem Linked.congr (h : node.Linked catalog store choose)
    (hsame : ∀ step ∈ node.path, choose step = other step) : node.Linked catalog store other := by
  intro step hstep parent hparent
  have hup : parent ∈ node.path := (path_prefix_of_mem hstep).subset
    (mem_path_of_parent? hparent parent.self_mem_path)
  rw [← hsame step hstep, ← hsame parent hup]
  exact h step hstep parent hparent

theorem PathDeclared.of_mem_path (h : node.PathDeclared catalog) (hstep : step ∈ node.path) :
    step.PathDeclared catalog :=
  fun before hbefore => h before ((path_prefix_of_mem hstep).subset hbefore)

theorem Linked.mem_rows (h : node.Linked catalog store choose) (htree : node ∈ tree)
    (hdeclared : node.PathDeclared catalog)
    (hrow : choose tree.root ∈ store.rows tree.root.entity) :
    choose node ∈ store.rows node.entity := by
  cases hparent : node.parent? with
  | none =>
    rw [JoinTree.eq_root htree (parent?_eq_none.mp hparent)]
    exact hrow
  | some parent =>
    exact mem_rows_of_related (hdeclared node node.self_mem_path)
      (h node node.self_mem_path parent hparent)

/-- The root row determines the rows behind relations to one row, however they are chosen. -/
theorem Linked.eq_of_toOne (h : node.Linked catalog store choose)
    (hother : node.Linked catalog store other) (hstore : store.Functional catalog)
    (htree : node ∈ tree) (hdeclared : node.PathDeclared catalog)
    (hone : node.crossesToMany = false) (hroot : choose tree.root = other tree.root)
    (hrow : choose tree.root ∈ store.rows tree.root.entity) : choose node = other node := by
  induction node with
  | root mark id entity =>
    rw [JoinTree.eq_root htree rfl]
    exact hroot
  | child mark id entity parent relationship ih =>
    have hself := (JoinNode.child mark id entity parent relationship).self_mem_path
    have hup : parent ∈ (JoinNode.child mark id entity parent relationship).path :=
      mem_path_of_parent? rfl parent.self_mem_path
    have hparent : choose parent = other parent :=
      ih (h.of_mem_path hup) (hother.of_mem_path hup) (JoinTree.parent_mem htree rfl)
        (hdeclared.of_mem_path hup) (crossesToMany_of_mem_path hup hone)
    have hfound := h _ hself parent rfl
    have hfoundOther := hother _ hself parent rfl
    rw [← hparent] at hfoundOther
    have hlength := length_related_le hstore (hdeclared _ hself) rfl hone
      ((h.of_mem_path hup).mem_rows (JoinTree.parent_mem htree rfl) (hdeclared.of_mem_path hup)
        hrow)
    have hhead := head?_eq_some_of_mem hlength hfound
    rw [head?_eq_some_of_mem hlength hfoundOther] at hhead
    exact (Option.some.inj hhead).symm

/-- Whether the last step to a node leads to many rows. -/
def entersMany (node : JoinNode) : Bool := node.relationship?.any Relationship.isToMany

theorem crossesToMany_eq_false (h : ∀ step ∈ node.path, step.entersMany = false) :
    node.crossesToMany = false := by
  induction node with
  | root => rfl
  | child mark id entity parent relationship ih =>
    rw [path, List.forall_mem_append] at h
    rw [crossesToMany, Bool.or_eq_false_iff]
    exact ⟨h.2 _ (List.mem_singleton_self _), ih h.1⟩

end JoinNode

/-! ## Two parts -/

/-- Two lists of restrictions share a step to many rows on their paths. -/
def SharesToMany (left right : List Applied) : Prop :=
  ∃ a ∈ left, ∃ b ∈ right, ∃ step ∈ a.node.path, step ∈ b.node.path ∧ step.entersMany = true

instance (left right : List Applied) : Decidable (SharesToMany left right) :=
  inferInstanceAs (Decidable (∃ a ∈ left, ∃ b ∈ right, ∃ step ∈ a.node.path,
    step ∈ b.node.path ∧ step.entersMany = true))

/-- The rows of one choice on the paths of restrictions, those of another one elsewhere. -/
def splice (applied : List Applied) (choose other : JoinNode → Row) (node : JoinNode) : Row :=
  if node ∈ applied.flatMap (·.node.path) then choose node else other node

theorem splice_of_mem_path {applied : List Applied} {choose other : JoinNode → Row} {a : Applied}
    (ha : a ∈ applied) {step : JoinNode} (hstep : step ∈ a.node.path) :
    splice applied choose other step = choose step :=
  if_pos (List.mem_flatMap.mpr ⟨a, ha, hstep⟩)

theorem splice_of_eq {applied : List Applied} {choose other : JoinNode → Row} {step : JoinNode}
    (h : step ∈ applied.flatMap (·.node.path) → choose step = other step) :
    splice applied choose other step = other step := by
  rw [splice]
  split
  · exact h ‹_›
  · rfl

/-- Restrictions are satisfied jointly if two parts of them are, and no way to many rows leads to a
node that both parts go through. -/
theorem Satisfies.of_parts {catalog : Catalog} {store : Store} {tree : JoinTree} {row : Row}
    {applied left right : List Applied} (hleft : Satisfies catalog store tree.root left row)
    (hright : Satisfies catalog store tree.root right row)
    (hstore : store.Functional catalog) (hrow : row ∈ store.rows tree.root.entity)
    (hcover : ∀ a ∈ applied, a ∈ left ∨ a ∈ right)
    (htree : ∀ a ∈ left, a.node ∈ tree ∧ a.node.PathDeclared catalog)
    (hshared : ∀ a ∈ left, ∀ b ∈ right, ∀ step ∈ a.node.path, step ∈ b.node.path →
      step.crossesToMany = false) : Satisfies catalog store tree.root applied row := by
  obtain ⟨choose, rfl, hchoose⟩ := hleft
  obtain ⟨other, hroot, hother⟩ := hright
  have honLeft : ∀ a ∈ left, ∀ step ∈ a.node.path, choose step = splice left choose other step :=
    fun a ha step hstep => (splice_of_mem_path ha hstep).symm
  -- where a path of the right part runs along the left one, the rows are the same anyway
  have honRight : ∀ b ∈ right, ∀ step ∈ b.node.path,
      other step = splice left choose other step := by
    intro b hb step hstep
    refine (splice_of_eq fun hon => ?_).symm
    obtain ⟨a, ha, hstepLeft⟩ := List.mem_flatMap.mp hon
    have hdeclared := htree a ha
    exact ((hchoose a ha).1.of_mem_path hstepLeft).eq_of_toOne
      ((hother b hb).1.of_mem_path hstep) hstore
      (JoinTree.mem_of_mem_path hdeclared.1 hstepLeft) (hdeclared.2.of_mem_path hstepLeft)
      (hshared a ha b hb step hstepLeft hstep) hroot.symm hrow
  refine ⟨splice left choose other, ?_, ?_⟩
  · rw [splice_of_eq fun _ => hroot.symm, hroot]
  · intro a ha
    rcases hcover a ha with ha | ha
    · refine ⟨(hchoose a ha).1.congr (honLeft a ha), ?_⟩
      rw [← honLeft a ha _ a.node.self_mem_path]
      exact (hchoose a ha).2
    · refine ⟨(hother a ha).1.congr (honRight a ha), ?_⟩
      rw [← honRight a ha _ a.node.self_mem_path]
      exact (hother a ha).2

namespace Handler
variable {C S : Type} [DecidableEq S] {handler : Handler C S} {criteria : C} {store : Store}
  {first second : List (Restriction C)} {plan : SelectPlan}

theorem Matches.withRestrictions (hfirst : first ⊆ handler.config.restrictions) {row : Row}
    (h : handler.Matches store criteria row) :
    (handler.withRestrictions first hfirst).Matches store criteria row := by
  have hpresent : (handler.withRestrictions first hfirst).present criteria ⊆
    handler.present criteria := present_withRestrictions_subset hfirst
  exact ⟨h.1.mono (List.filter_subset _ hpresent), h.2.mono (List.filter_subset _ hpresent)⟩

section Split
variable (hfirst : first ⊆ handler.config.restrictions)
  (hsecond : second ⊆ handler.config.restrictions)
  (hsplit : ∀ restriction ∈ handler.config.restrictions, ∀ a,
    restriction.present? criteria = some a → restriction ∈ first ∨ restriction ∈ second)
include hsplit

theorem mem_present_of_split {a : Applied} (ha : a ∈ handler.present criteria) :
    a ∈ (handler.withRestrictions first hfirst).present criteria ∨
      a ∈ (handler.withRestrictions second hsecond).present criteria := by
  obtain ⟨restriction, hrestriction, hpresent⟩ := List.mem_filterMap.mp ha
  exact (hsplit restriction hrestriction a hpresent).imp
    (fun hmem => List.mem_filterMap.mpr ⟨restriction, hmem, hpresent⟩)
    (fun hmem => List.mem_filterMap.mpr ⟨restriction, hmem, hpresent⟩)

/-- A root row that matches both parts of the restrictions matches all of them, if the parts share
no step to many rows. -/
theorem matches_of_split (hstore : store.Functional handler.catalog)
    (hpaths : ∀ a ∈ handler.present criteria, a.node.PathDeclared handler.catalog)
    (hshared : ¬SharesToMany ((handler.withRestrictions first hfirst).present criteria)
      ((handler.withRestrictions second hsecond).present criteria)) {row : Row}
    (hrow : row ∈ store.rows handler.config.root.entity)
    (hleft : (handler.withRestrictions first hfirst).Matches store criteria row)
    (hright : (handler.withRestrictions second hsecond).Matches store criteria row) :
    handler.Matches store criteria row := by
  have hcover : ∀ keep : Applied → Bool, ∀ a ∈ (handler.present criteria).filter keep,
      a ∈ ((handler.withRestrictions first hfirst).present criteria).filter keep ∨
        a ∈ ((handler.withRestrictions second hsecond).present criteria).filter keep := by
    intro keep a ha
    obtain ⟨hpresent, hkeep⟩ := List.mem_filter.mp ha
    exact (mem_present_of_split hfirst hsecond hsplit hpresent).imp
      (fun hmem => List.mem_filter.mpr ⟨hmem, hkeep⟩)
      (fun hmem => List.mem_filter.mpr ⟨hmem, hkeep⟩)
  have htree : ∀ keep : Applied → Bool,
      ∀ a ∈ ((handler.withRestrictions first hfirst).present criteria).filter keep,
        a.node ∈ handler.tree ∧ a.node.PathDeclared handler.catalog := by
    intro keep a ha
    have hpresent := present_withRestrictions_subset hfirst (List.mem_filter.mp ha).1
    exact ⟨node_mem_tree_of_present hpresent, hpaths a hpresent⟩
  constructor
  · apply hleft.1.of_parts hright.1 hstore hrow (hcover _) (htree _)
    intro a ha b _ step hstep _
    have hmain : a.node.crossesToMany = false := by simpa using (List.mem_filter.mp ha).2
    exact JoinNode.crossesToMany_of_mem_path hstep hmain
  · apply hleft.2.of_parts hright.2 hstore hrow (hcover _) (htree _)
    intro a ha b hb step hstepLeft hstepRight
    apply JoinNode.crossesToMany_eq_false
    -- all that leads to a shared step is shared
    intro before hbefore
    rw [← Bool.not_eq_true]
    intro hmany
    exact hshared ⟨a, (List.mem_filter.mp ha).1, b, (List.mem_filter.mp hb).1, before,
      (JoinNode.path_prefix_of_mem hstepLeft).subset hbefore,
      (JoinNode.path_prefix_of_mem hstepRight).subset hbefore, hmany⟩

end Split

/-! ## Searches for two parts -/

theorem exists_entityPlan_iff (hstock : handler.config.Stock) :
    (∃ plan, handler.entityPlan ⟨criteria, []⟩ = .ok plan) ↔ handler.Compilable criteria [] := by
  have hnone : handler.config.Tolerates [] := Or.inr (by simp)
  rw [entityPlan, exists_map_eq_ok, exists_compile_iff hstock]
  exact and_iff_right fun _ => hnone

open Classical in
theorem entities_eq_matches (hstock : handler.config.Stock)
    (hstore : store.Functional handler.catalog)
    (hid : store.Identified handler.config.root.entity handler.config.idColumn)
    (hplan : handler.entityPlan ⟨criteria, []⟩ = .ok plan) :
    plan.entities handler.catalog store = .ok ((store.rows handler.config.root.entity).filter
      fun row => handler.Matches store criteria row) := by
  obtain ⟨compiled⟩ := compiled_of_entityPlan hplan
  rw [compiled.entities_eq_filter hstock hstore rfl]
  congr 1
  apply List.filter_congr
  intro row hrow
  rw [Bool.eq_iff_iff, decide_eq_true_iff]
  exact compiled.passes_iff_matches hstock hid (compiled.sorts_eq_nil rfl) hrow

open Classical in
/-- Restrictions combine as a conjunction. If the present ones are split into two parts, both parts
compile, and the root rows that are found are among those that each part finds alone. They are all
that both parts find, unless the two share a step to many rows. -/
theorem entities_of_split (hstock : handler.config.Stock)
    (hstore : store.Functional handler.catalog)
    (hid : store.Identified handler.config.root.entity handler.config.idColumn)
    (hfirst : first ⊆ handler.config.restrictions)
    (hsecond : second ⊆ handler.config.restrictions)
    (hsplit : ∀ restriction ∈ handler.config.restrictions, ∀ a,
      restriction.present? criteria = some a → restriction ∈ first ∨ restriction ∈ second)
    (hplan : handler.entityPlan ⟨criteria, []⟩ = .ok plan) :
    ∃ left right leftPlan rightPlan rows leftRows rightRows,
      create handler.catalog { handler.config with restrictions := first } = .ok left ∧
      create handler.catalog { handler.config with restrictions := second } = .ok right ∧
      left.entityPlan ⟨criteria, []⟩ = .ok leftPlan ∧
      right.entityPlan ⟨criteria, []⟩ = .ok rightPlan ∧
      plan.entities handler.catalog store = .ok rows ∧
      leftPlan.entities handler.catalog store = .ok leftRows ∧
      rightPlan.entities handler.catalog store = .ok rightRows ∧
      rows.Sublist leftRows ∧ rows.Sublist rightRows ∧
      (¬SharesToMany (left.present criteria) (right.present criteria) →
        rows = leftRows.filter fun row => row ∈ rightRows) := by
  have hcompilable := (exists_entityPlan_iff hstock).mp ⟨plan, hplan⟩
  obtain ⟨leftPlan, hleft⟩ := (exists_entityPlan_iff (stock_withRestrictions hfirst hstock)).mpr
    (hcompilable.withRestrictions hfirst)
  obtain ⟨rightPlan, hright⟩ := (exists_entityPlan_iff (stock_withRestrictions hsecond hstock)).mpr
    (hcompilable.withRestrictions hsecond)
  have hpaths : ∀ a ∈ handler.present criteria, a.node.PathDeclared handler.catalog := by
    intro a ha
    exact hcompilable.paths _ (List.mem_append_left _ (List.mem_map_of_mem ha))
  have hrows := entities_eq_matches hstock hstore hid hplan
  have hleftRows :=
    entities_eq_matches (stock_withRestrictions hfirst hstock) hstore hid hleft
  have hrightRows :=
    entities_eq_matches (stock_withRestrictions hsecond hstock) hstore hid hright
  refine ⟨_, _, leftPlan, rightPlan, _, _, _, create_withRestrictions hfirst,
    create_withRestrictions hsecond, hleft, hright, hrows, hleftRows, hrightRows, ?_, ?_, ?_⟩
  · apply List.monotone_filter_right
    intro row hmatches
    rw [decide_eq_true_iff] at hmatches ⊢
    exact hmatches.withRestrictions hfirst
  · apply List.monotone_filter_right
    intro row hmatches
    rw [decide_eq_true_iff] at hmatches ⊢
    exact hmatches.withRestrictions hsecond
  · intro hshared
    rw [List.filter_filter]
    apply List.filter_congr
    intro row hrow
    rw [Bool.eq_iff_iff, Bool.and_eq_true, decide_eq_true_iff, decide_eq_true_iff,
      decide_eq_true_iff, List.mem_filter, decide_eq_true_iff]
    constructor
    · intro h
      exact ⟨⟨hrow, h.withRestrictions hsecond⟩, h.withRestrictions hfirst⟩
    · rintro ⟨⟨-, hmatchesRight⟩, hmatchesLeft⟩
      exact matches_of_split hfirst hsecond hsplit hstore hpaths hshared hrow hmatchesLeft
        hmatchesRight

end Handler

/-! ## Employed people and parents -/

namespace People

theorem split_employedParentsOfM (n : Nat) : ∀ restriction ∈ employedParentsOfM.config.restrictions,
    ∀ a, restriction.present? () = some a →
      restriction ∈ employedParentsOfM.config.restrictions.take n ∨
        restriction ∈ employedParentsOfM.config.restrictions.drop n := by
  intro restriction hrestriction _ _
  rw [← List.mem_append, List.take_append_drop]
  exact hrestriction

open Classical in
/-- Bob is the one person in a business, and one of two who have a child whose name starts with an
M. -/
theorem entities_of_split_of_twoParents :
    employedParentsOfM.config.Stock ∧ twoParents.Functional catalog ∧
      twoParents.Identified "Person" "id" ∧
      ∃ plan left right leftPlan rightPlan rows leftRows rightRows,
        employedParentsOfM.entityPlan ⟨(), []⟩ = .ok plan ∧
        Handler.create catalog { employedParentsOfM.config with
          restrictions := employedParentsOfM.config.restrictions.take 1 } = .ok left ∧
        Handler.create catalog { employedParentsOfM.config with
          restrictions := employedParentsOfM.config.restrictions.drop 1 } = .ok right ∧
        left.entityPlan ⟨(), []⟩ = .ok leftPlan ∧ right.entityPlan ⟨(), []⟩ = .ok rightPlan ∧
        plan.entities catalog twoParents = .ok rows ∧
        leftPlan.entities catalog twoParents = .ok leftRows ∧
        rightPlan.entities catalog twoParents = .ok rightRows ∧
        rows.length = 1 ∧ leftRows.length = 1 ∧ rightRows.length = 2 ∧
        ¬SharesToMany (left.present ()) (right.present ()) ∧
        rows = leftRows.filter fun row => row ∈ rightRows := by
  obtain ⟨left, right, leftPlan, rightPlan, rows, leftRows, rightRows, hleft, hright, hleftPlan,
    hrightPlan, hrows, hleftRows, hrightRows, -, -, hinter⟩ := @Handler.entities_of_split _ _ _
    employedParentsOfM () twoParents _ _ _ stock_employedParentsOfM functional_twoParents
    identified_twoParents (List.take_subset 1 _) (List.drop_subset 1 _)
    (split_employedParentsOfM 1) rfl
  cases hleft
  cases hright
  cases hleftPlan
  cases hrightPlan
  cases hrows
  cases hleftRows
  cases hrightRows
  exact ⟨stock_employedParentsOfM, functional_twoParents, identified_twoParents, _, _, _, _, _, _,
    _, _, rfl, rfl, rfl, rfl, rfl, rfl, rfl, rfl, rfl, rfl, rfl, by decide, hinter (by decide)⟩

end People

end CriteriaQuery
