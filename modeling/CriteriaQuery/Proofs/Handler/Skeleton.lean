import CriteriaQuery.Proofs.Handler.Joins
import CriteriaQuery.Proofs.Restriction.Support

/-! The count plan of a definition is the skeleton of its entity plan. Both compilations bring in the
nodes of the main restrictions first, in one order, so that they stay alike apart from how their joins
are made; the joins for the sorts follow behind these and take aliases of their own. Predicates only
ask for the scans of restricted nodes and for the number of the next subquery, and so come out the
same (`Handler.countPlan_skeleton`). -/
namespace CriteriaQuery
open Outcome
set_option autoImplicit false

/-! ## Joins on the same aliases -/

/-- A join as it is made for a restriction. -/
def Join.inner (join : Join) : Join := { join with type := .inner, fetch := false }

theorem JoinNode.inner_join? (aliasFor : JoinNode → String) (modeFor : JoinNode → JoinMode)
    (node : JoinNode) : (node.join? aliasFor modeFor).map Join.inner =
      node.join? aliasFor fun _ => ⟨true, false⟩ := by
  cases node <;> rfl

namespace SelectPlan.JoinGraph
variable {plan other : SelectPlan} {root : JoinNode} {ends otherEnds nodes later : List JoinNode}
  {modeFor : JoinNode → JoinMode} {aliasFor otherAlias : JoinNode → String}

/-- Only the aliases of nodes that are joined matter. -/
theorem withAliases (h : plan.JoinGraph root ends modeFor nodes aliasFor)
    (halias : ∀ node ∈ root :: nodes, aliasFor node = otherAlias node) :
    plan.JoinGraph root ends modeFor nodes otherAlias where
  mem_iff := h.mem_iff
  nodup := h.nodup
  parent_before := h.parent_before
  rootAlias_eq := h.rootAlias_eq.trans (halias root List.mem_cons_self)
  joins_eq := by
    rw [h.joins_eq]
    apply List.map_congr_left
    intro node hnode
    apply JoinNode.join?_congr (halias node (List.mem_cons_of_mem _ hnode)) ?_ rfl
    intro parent hparent
    obtain ⟨before, after, rfl⟩ := List.append_of_mem hnode
    apply halias
    rcases h.parent_before before node after rfl parent hparent with rfl | hmem
    · exact List.mem_cons_self
    · exact List.mem_cons_of_mem _ (List.mem_append_left _ hmem)
  nodup_aliases := by
    rw [← List.map_congr_left halias]
    exact h.nodup_aliases

/-- A plan that joins the first nodes of another one as for restrictions has its first joins. -/
theorem exists_joins_eq (h : plan.JoinGraph root ends (fun _ => ⟨true, false⟩) nodes aliasFor)
    (hother : other.JoinGraph root otherEnds modeFor (nodes ++ later) aliasFor) :
    ∃ kept added, other.joins = kept ++ added ∧ plan.joins = kept.map Join.inner := by
  have hjoins := hother.joins_eq
  rw [List.map_append, List.map_eq_append_iff] at hjoins
  obtain ⟨kept, added, hsplit, hkept, -⟩ := hjoins
  have hinner : plan.joins.map some = (kept.map Join.inner).map some := by
    rw [h.joins_eq, List.map_map]
    change _ = kept.map (Option.map Join.inner ∘ some)
    rw [← List.map_map, hkept, List.map_map]
    apply List.map_congr_left
    intro node _
    exact (node.inner_join? aliasFor modeFor).symm
  exact ⟨kept, added, hsplit, List.map_injective_iff.mpr (fun _ _ => Option.some.inj) hinner⟩

end SelectPlan.JoinGraph

/-! ## Drafts of one query -/

/-- Drafts that number their next scan and their next subquery alike. -/
structure Draft.Alike (a b : Draft) : Prop where
  stem_eq : a.stem = b.stem
  nextAlias_eq : a.nextAlias = b.nextAlias
  subqueries_eq : a.subqueries = b.subqueries

section Draft
variable {a b later : Draft} {catalog : Catalog} {parent scan : Scan} {relationship : Relationship}
  {entity : String}

/-- A join that can be made in a draft can be made in any mode in a draft alike, and gives the same
scan there. -/
theorem Draft.Alike.join {mode : JoinMode} (h : a.Alike b) (otherMode : JoinMode)
    (hjoin : a.join catalog parent relationship entity mode = .ok (later, scan)) :
    ∃ other, b.join catalog parent relationship entity otherMode = .ok (other, scan) ∧
      later.Alike other := by
  obtain ⟨relation, hrelation, hcardinality, htarget, rfl, rfl⟩ := Draft.join_eq_ok.mp hjoin
  have halias : aliasOf a.stem a.nextAlias = aliasOf b.stem b.nextAlias := by
    rw [h.stem_eq, h.nextAlias_eq]
  have hscan : (a.nextJoin parent relation mode).scan =
      (b.nextJoin parent relation otherMode).scan := by
    simp only [Draft.nextJoin, Join.scan, halias]
  have hnext : a.nextAlias + 1 = b.nextAlias + 1 := by rw [h.nextAlias_eq]
  exact ⟨b.withJoin (b.nextJoin parent relation otherMode),
    Draft.join_eq_ok.mpr ⟨relation, hrelation, hcardinality, htarget, rfl, hscan⟩,
    ⟨h.stem_eq, hnext, h.subqueries_eq⟩⟩

end Draft

/-! ## Scopes of one query -/

/-- Scopes with the same scans, whose drafts go on alike. -/
structure Scope.Alike (a b : Scope) : Prop where
  draft : a.draft.Alike b.draft
  scans_eq : a.scans = b.scans

namespace Scope
variable {catalog : Catalog} {modes : JoinModes} {tree : JoinTree} {a b first last later : Scope}
  {node : JoinNode} {scan : Scan}

theorem Alike.get?_eq (h : a.Alike b) (node : JoinNode) : a.get? node = b.get? node := by
  rw [get?, get?, h.scans_eq]

theorem Alike.reach (h : a.Alike b) (otherModes : JoinModes)
    (hreach : reach catalog modes node a = (.ok scan, later)) :
    ∃ other, Scope.reach catalog otherModes node b = (.ok scan, other) ∧ later.Alike other := by
  induction node generalizing scan later with
  | root mark id entity =>
    unfold Scope.reach at hreach ⊢
    rw [← h.get?_eq]
    split at hreach
    · cases hreach
      exact ⟨b, rfl, h⟩
    · cases hreach
  | child mark id entity parent relationship ih =>
    unfold Scope.reach at hreach
    split at hreach
    · rename_i found hfound
      cases hreach
      rw [h.get?_eq] at hfound
      refine ⟨b, ?_, h⟩
      rw [Scope.reach, hfound]
    · rename_i hfresh
      rw [h.get?_eq] at hfresh
      rcases hparent : Scope.reach catalog modes parent a with ⟨outcome, middle⟩
      simp only [hparent] at hreach
      cases outcome with
      | error e => cases hreach
      | ok parentScan =>
        obtain ⟨other, hother, halike⟩ := ih hparent
        simp only at hreach
        split at hreach
        · cases hreach
        · rename_i draft joined hjoin
          cases hreach
          obtain ⟨otherDraft, hotherJoin, hdraft⟩ := halike.draft.join
            (otherModes.modeOf (.child mark id entity parent relationship)) hjoin
          refine ⟨_, reach_of_join_ok hfresh rfl rfl hother hotherJoin, hdraft, ?_⟩
          rw [halike.scans_eq]

/-- Nodes that can be brought into a scope can be brought in any modes into a scope alike, and the
scopes stay alike. -/
theorem Alike.withAll {nodes : List JoinNode} (h : a.Alike b) (otherModes : JoinModes)
    (hall : a.withAll catalog modes nodes = .ok later) :
    ∃ other, b.withAll catalog otherModes nodes = .ok other ∧ later.Alike other := by
  induction nodes generalizing a b with
  | nil =>
    cases hall
    exact ⟨b, rfl, h⟩
  | cons node rest ih =>
    rw [Scope.withAll, reachAll] at hall
    rcases hreach : Scope.reach catalog modes node a with ⟨outcome, middle⟩
    rw [hreach] at hall
    cases outcome with
    | error e => cases hall
    | ok scan =>
      obtain ⟨otherMiddle, hotherReach, halike⟩ := h.reach otherModes hreach
      obtain ⟨other, hother, hlater⟩ := ih halike hall
      refine ⟨other, ?_, hlater⟩
      rw [Scope.withAll, reachAll, hotherReach]
      exact hother

/-! ## Joins behind the others -/

theorem Grown.numbers_eq (h : Grown catalog modes tree first last) :
    last.draft.stem = first.draft.stem ∧ last.draft.subqueries = first.draft.subqueries := by
  induction h with
  | refl => exact ⟨rfl, rfl⟩
  | join _ _ ih => exact ih

/-- What is found in a scope is found in one with further scans behind. -/
theorem get?_of_initial (hinitial : first.scans <+: last.scans) (h : first.get? node = some scan) :
    last.get? node = some scan := by
  obtain ⟨entry, hentry, rfl⟩ := Option.map_eq_some_iff.mp h
  obtain ⟨more, hmore⟩ := hinitial
  rw [get?, ← hmore, List.find?_append, hentry]
  rfl

theorem scan_of_initial (hinitial : first.scans <+: last.scans) (h : first.scan node = .ok scan) :
    last.scan node = .ok scan := by
  unfold Scope.scan at h ⊢
  split at h
  · rename_i found hfound
    cases h
    rw [get?_of_initial hinitial hfound]
  · cases h

end Scope

/-! ## Predicates that do not depend on the draft -/

namespace RestrictionGroup
variable {catalog : Catalog} {scope last : Scope}

theorem predicatesOn_of_stock {scan : Scan} {members : List Applied}
    (hstock : ∀ a ∈ members, a.test.isStock = true) {draft later : Draft}
    {ps : List (Predicate SelectPlan)}
    (h : predicatesOn catalog scan members draft = .ok (later, ps)) (other : Draft) :
    later = draft ∧ predicatesOn catalog scan members other = .ok (other, ps) := by
  induction members generalizing draft ps with
  | nil =>
    cases h
    exact ⟨rfl, rfl⟩
  | cons a rest ih =>
    rw [List.forall_mem_cons] at hstock
    simp only [predicatesOn, bind_eq_ok, pure_eq_ok, Prod.exists, Prod.mk.injEq] at h ⊢
    obtain ⟨next, p, hp, last, qs, hqs, rfl, rfl⟩ := h
    obtain ⟨path, hpath, hbuild⟩ := bind_eq_ok.mp hp
    obtain ⟨rfl, -⟩ := Test.build_asks hstock.1 hbuild
    obtain ⟨rfl, hrest⟩ := ih hstock.2 hqs
    have hfirst : a.build catalog scan other = .ok (other, p) := by
      rw [Applied.build, bind_ok hpath]
      exact Test.build_of_build hstock.1 hbuild other
    exact ⟨rfl, other, p, hfirst, other, qs, hrest, rfl, rfl⟩

theorem predicates_of_stock {groups : List RestrictionGroup}
    (hstock : ∀ group ∈ groups, ∀ a ∈ group.members, a.test.isStock = true)
    (hinitial : scope.scans <+: last.scans) {draft later : Draft}
    {ps : List (Predicate SelectPlan)}
    (h : predicates catalog scope groups draft = .ok (later, ps)) (other : Draft) :
    later = draft ∧ predicates catalog last groups other = .ok (other, ps) := by
  induction groups generalizing draft ps with
  | nil =>
    cases h
    exact ⟨rfl, rfl⟩
  | cons group rest ih =>
    rw [List.forall_mem_cons] at hstock
    simp only [predicates, bind_eq_ok, pure_eq_ok, Prod.exists, Prod.mk.injEq] at h ⊢
    obtain ⟨scan, hscan, next, ps, hps, done, qs, hqs, rfl, rfl⟩ := h
    obtain ⟨rfl, hfirst⟩ := predicatesOn_of_stock hstock.1 hps other
    obtain ⟨rfl, hrest⟩ := ih hstock.2 hqs
    exact ⟨rfl, scan, Scope.scan_of_initial hinitial hscan, other, ps, hfirst, other, qs, hrest, rfl,
      rfl⟩

end RestrictionGroup

namespace Handler
variable {C S : Type} [DecidableEq S] {handler : Handler C S} {definition : QueryDefinition C S}
  {criteria : C} {counted listed : SelectPlan}

/-- Of the outer query, a subquery depends on the stem and on how many subqueries there are. -/
theorem promote_of_numbers {a b later : Draft} (hstem : a.stem = b.stem)
    (hsubqueries : a.subqueries = b.subqueries) {root : Scan} {groups : List RestrictionGroup}
    {p : Predicate SelectPlan} (h : handler.promote a root groups = .ok (later, p)) :
    ∃ other, handler.promote b root groups = .ok (other, p) := by
  simp only [promote, Draft.createSubquery, bind_eq_ok, pure_eq_ok, Prod.exists,
    Prod.mk.injEq] at h ⊢
  obtain ⟨sub, ⟨entity, hentity, rfl⟩, scope, hscope, tested, ps, hps, id, hid, outerId, houterId,
    rfl, rfl⟩ := h
  rw [hstem, hsubqueries] at hscope
  rw [hstem, hsubqueries] at hid
  exact ⟨_, _, ⟨entity, hentity, rfl⟩, scope, hscope, tested, ps, hps, id, hid, outerId, houterId,
    rfl, rfl⟩

/-- The predicates of a query are the same in a scope with further joins. -/
theorem conditions_of_initial (hstock : handler.config.Stock) {root : Scan} {scope last : Scope}
    (hinitial : scope.scans <+: last.scans) (hstem : scope.draft.stem = last.draft.stem)
    (hsubqueries : scope.draft.subqueries = last.draft.subqueries) {draft : Draft}
    {ps : List (Predicate SelectPlan)}
    (h : handler.conditions criteria root scope = .ok (draft, ps)) :
    ∃ other, handler.conditions criteria root last = .ok (other, ps) := by
  have hmain : ∀ group ∈ handler.mainGroups criteria, ∀ a ∈ group.members,
      a.test.isStock = true := by
    intro group hgroup a ha
    have hmem : a ∈ handler.main criteria :=
      (mem_main_iff a).mp (List.mem_flatMap.mpr ⟨group, hgroup, ha⟩)
    exact isStock_of_present hstock (List.mem_filter.mp hmem).1
  simp only [conditions, bind_eq_ok, Prod.exists] at h ⊢
  obtain ⟨next, mains, hmains, hrest⟩ := h
  obtain ⟨rfl, hsame⟩ := RestrictionGroup.predicates_of_stock hmain hinitial hmains last.draft
  split at hrest
  · rename_i hnone
    cases hrest
    exact ⟨last.draft, last.draft, ps, hsame, rfl⟩
  · simp only [bind_eq_ok, pure_eq_ok, Prod.exists, Prod.mk.injEq] at hrest ⊢
    obtain ⟨later, p, hpromote, rfl, rfl⟩ := hrest
    obtain ⟨other, hother⟩ := promote_of_numbers hstem hsubqueries hpromote
    exact ⟨other, last.draft, mains, hsame, other, p, hother, rfl, rfl⟩

/-! ## Two compilations of one definition -/

theorem start_alike {a b : Draft} {root otherRoot : Scan}
    (ha : handler.start .count = .ok (a, root)) (hb : handler.start .entity = .ok (b, otherRoot)) :
    root = otherRoot ∧ a.Alike b := by
  simp only [start, Draft.create, bind_eq_ok, pure_eq_ok, Prod.exists] at ha hb
  obtain ⟨first, scan, ⟨-, -, hfirst⟩, hcount⟩ := ha
  obtain ⟨second, other, ⟨-, -, hsecond⟩, hentity⟩ := hb
  cases hfirst
  cases hsecond
  cases hcount
  cases hentity
  exact ⟨rfl, ⟨rfl, rfl, rfl⟩⟩

section Compiled
variable {kind : ResultKind} {plan : SelectPlan}

/-- The nodes of the sorts are brought in behind those of the main restrictions. -/
theorem Compiled.extended (compiled : handler.Compiled kind definition plan) :
    Scope.Grown handler.catalog
      (JoinModes.resolve ((handler.mainGroups definition.criteria).map (·.node))
        (compiled.sorts.map (·.1.node)))
      handler.tree compiled.middle compiled.scope := by
  obtain ⟨hfresh, hentity, -⟩ := start_eq_ok compiled.start_eq
  have hfirst : Scope.Wired handler.catalog handler.tree _ := Scope.wired_start hfresh hentity
  have hmains : ∀ node ∈ (handler.mainGroups definition.criteria).map (·.node),
      node ∈ handler.tree := keptNodes_mem_tree (!·.crossesToMany)
  have hmiddle := (Scope.withAll_grown hfirst hmains compiled.main_eq).1.wired hfirst
  exact (Scope.withAll_grown hmiddle (sortNodes_mem_tree compiled.sorts_eq) compiled.sort_eq).1

theorem Compiled.scope_eq_middle (compiled : handler.Compiled .count definition plan) :
    compiled.scope = compiled.middle := by
  have hsort := compiled.sort_eq
  rw [compiled.sorts_eq_nil_of_count] at hsort
  exact (Except.ok.inj hsort).symm

theorem Compiled.alike (first : handler.Compiled .count definition counted)
    (second : handler.Compiled .entity definition listed) :
    counted.rootScan = listed.rootScan ∧ first.scope.Alike second.middle := by
  obtain ⟨hroot, hdraft⟩ := start_alike first.start_eq second.start_eq
  have hstart : (Scope.start first.first handler.config.root counted.rootScan).Alike
      (Scope.start second.first handler.config.root listed.rootScan) := by
    refine ⟨hdraft, ?_⟩
    rw [hroot]
    rfl
  obtain ⟨middle, hmiddle, halike⟩ := hstart.withAll _ first.main_eq
  have heq := hmiddle.symm.trans second.main_eq
  cases heq
  rw [first.scope_eq_middle]
  exact ⟨hroot, halike⟩

theorem Compiled.predicates_eq (hstock : handler.config.Stock)
    (first : handler.Compiled .count definition counted)
    (second : handler.Compiled .entity definition listed) :
    first.predicates = second.predicates := by
  obtain ⟨hroot, halike⟩ := first.alike second
  obtain ⟨hstem, hsubqueries⟩ := second.extended.numbers_eq
  have hinitial : first.scope.scans <+: second.scope.scans := by
    rw [halike.scans_eq]
    exact second.extended.scans_prefix
  obtain ⟨other, hother⟩ := conditions_of_initial hstock hinitial
    (halike.draft.stem_eq.trans hstem.symm) (halike.draft.subqueries_eq.trans hsubqueries.symm)
    first.conditions_eq
  rw [hroot] at hother
  have heq := Except.ok.inj (hother.symm.trans second.conditions_eq)
  exact (Prod.mk.inj heq).2

/-- The joins of the count are those of the list up to the sorts, on the same aliases. -/
theorem Compiled.joinGraphs (first : handler.Compiled .count definition counted)
    (second : handler.Compiled .entity definition listed) :
    ∃ nodes later aliasFor,
      counted.JoinGraph handler.config.root ((handler.main definition.criteria).map (·.node))
        (fun _ => ⟨true, false⟩) nodes aliasFor ∧
      listed.JoinGraph handler.config.root
        ((handler.main definition.criteria).map (·.node) ++ second.sorts.map (·.1.node))
        (modeToward (second.sorts.map (·.1.node))) (nodes ++ later) aliasFor := by
  obtain ⟨nodes, hnodes, hcounted⟩ := first.joinGraph
  obtain ⟨allNodes, hallNodes, hlisted⟩ := second.joinGraph
  obtain ⟨-, halike⟩ := first.alike second
  have hinitial : first.scope.scans <+: second.scope.scans := by
    rw [halike.scans_eq]
    exact second.extended.scans_prefix
  obtain ⟨later, rfl⟩ : ∃ later, allNodes = nodes ++ later := by
    obtain ⟨more, hmore⟩ := hinitial.map Prod.fst
    change first.scope.nodes ++ more = second.scope.nodes at hmore
    rw [hnodes, hallNodes, List.cons_append, List.cons_inj_right] at hmore
    exact ⟨more, hmore.symm⟩
  refine ⟨nodes, later, second.scope.aliasFor, ?_, hlisted⟩
  rw [first.sorts_eq_nil_of_count, List.map_nil, List.append_nil] at hcounted
  have hmode : ∀ node ∈ nodes, modeToward [] node = ⟨true, false⟩ := fun _ _ => by
    simp [modeToward]
  refine (hcounted.congr (fun _ => Iff.rfl) hmode).withAliases ?_
  intro node hnode
  rw [← hnodes] at hnode
  obtain ⟨scan, hscan⟩ := Scope.exists_scan hnode
  rw [first.spans.wired.aliasFor_eq hscan,
    second.spans.wired.aliasFor_eq (hinitial.subset hscan)]

end Compiled

/-- The count plan is the skeleton of the entity plan: both have the same root and the same filter, and
the count has the first joins of the list, each made as for a restriction. In the list, a join on the
way to a sort is left and fetching, and the joins behind are those that only sorts ask for. -/
theorem countPlan_skeleton (hstock : handler.config.Stock)
    (hcount : handler.countPlan definition = .ok counted)
    (hentity : handler.entityPlan definition = .ok listed) :
    counted.rootEntity = listed.rootEntity ∧ counted.rootAlias = listed.rootAlias ∧
      counted.filter = listed.filter ∧
      counted.selection = .expr (.count counted.rootAlias) ∧
      listed.selection = .entity listed.rootAlias ∧ counted.orderBy = [] ∧
      (∃ kept added, listed.joins = kept ++ added ∧ counted.joins = kept.map Join.inner) ∧
      ∃ nodes later aliasFor,
        counted.JoinGraph handler.config.root ((handler.main definition.criteria).map (·.node))
          (fun _ => ⟨true, false⟩) nodes aliasFor ∧
        listed.JoinGraph handler.config.root
          ((handler.main definition.criteria).map (·.node) ++
            (handler.sortsOf .entity definition.sorts).map (·.1.node))
          (modeToward ((handler.sortsOf .entity definition.sorts).map (·.1.node)))
          (nodes ++ later) aliasFor := by
  obtain ⟨first⟩ := compiled_of_countPlan hcount
  obtain ⟨second⟩ := compiled_of_entityPlan hentity
  have hroot : counted.rootScan = listed.rootScan := (first.alike second).1
  have hfilter : counted.filter = listed.filter := by
    rw [first.filter_eq, second.filter_eq, first.predicates_eq hstock second]
  have horder : counted.orderBy = [] := by
    rw [first.orderBy_eq, first.sorts_eq_nil_of_count, List.map_nil]
  obtain ⟨nodes, later, aliasFor, hcounted, hlisted⟩ := first.joinGraphs second
  rw [sorts_eq_ok second.sorts_eq] at hlisted
  exact ⟨congrArg Scan.entity hroot, congrArg Scan.aliasName hroot, hfilter, first.selection_eq,
    second.selection_eq, horder, hcounted.exists_joins_eq hlisted, nodes, later, aliasFor, hcounted,
    hlisted⟩

end Handler

/-! ## Sorted by the owner of the business -/

namespace People

/-- The count only joins the business, by an inner join; the list makes that join a left one, which
fetches, and joins the owner behind it. -/
theorem countPlan_skeleton_of_employedParentsOfM :
    employedParentsOfM.config.Stock ∧ ∃ counted listed,
      employedParentsOfM.countPlan byOwner = .ok counted ∧
      employedParentsOfM.entityPlan byOwner = .ok listed ∧
      counted.joins.map (fun join => (join.relation, join.type, join.fetch)) =
        [("employer", .inner, false)] ∧
      listed.joins.map (fun join => (join.relation, join.type, join.fetch)) =
        [("employer", .left, true), ("owner", .left, true)] ∧
      counted.filter = listed.filter ∧
      ∃ kept added, listed.joins = kept ++ added ∧ counted.joins = kept.map Join.inner := by
  obtain ⟨-, -, hfilter, -, -, -, hjoins, -⟩ := @Handler.countPlan_skeleton _ _ _
    employedParentsOfM byOwner _ _ stock_employedParentsOfM rfl rfl
  exact ⟨stock_employedParentsOfM, _, _, rfl, rfl, rfl, rfl, hfilter, hjoins⟩

end People

end CriteriaQuery
