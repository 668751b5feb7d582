import CriteriaQuery.Proofs.Join.Graph
import CriteriaQuery.Proofs.Join.Resolution

/-! Scopes that serve requests in any order, some of which fail. Whatever was asked for before, the
scans of a scope and the joins of its plan are in step: behind the root there is one scan for each
join, and a further request only adds joins behind those (`Scope.requests_in_step`). -/
namespace CriteriaQuery
set_option autoImplicit false

namespace Scope
variable {catalog : Catalog} {modes : JoinModes} {tree : JoinTree} {draft : Draft} {rootScan : Scan}
  {first scope : Scope}

/-! ## Requests -/

/-- What is asked of a scope: one node, or several in order. -/
inductive Request where
  | one (node : JoinNode)
  | several (nodes : List JoinNode)

namespace Request

def nodes : Request → List JoinNode
  | .one node => [node]
  | .several nodes => nodes

def serve (catalog : Catalog) (modes : JoinModes) (request : Request) (scope : Scope) :
    Except Error Unit × Scope :=
  match request with
  | .one node =>
    let (outcome, last) := reach catalog modes node scope
    (outcome.map fun _ => (), last)
  | .several nodes => reachAll catalog modes nodes scope

theorem serve_eq_reachAll (request : Request) :
    request.serve catalog modes scope = reachAll catalog modes request.nodes scope := by
  cases request with
  | several nodes => rfl
  | one node =>
    rw [serve, nodes, reachAll]
    rcases reach catalog modes node scope with ⟨outcome, last⟩
    cases outcome <;> rfl

theorem serve_brings (modes : JoinModes) {request : Request} (h : scope.Tracked tree)
    (hnodes : ∀ node ∈ request.nodes, node ∈ tree) :
    Brings catalog modes tree scope (request.nodes.flatMap JoinNode.path)
      (request.serve catalog modes scope) := by
  rw [serve_eq_reachAll]
  exact reachAll_brings modes h hnodes

end Request

/-- Serves requests one after the other, also behind one that fails. -/
def run (catalog : Catalog) (modes : JoinModes) (requests : List Request) (scope : Scope) : Scope :=
  requests.foldl (fun scope request => (request.serve catalog modes scope).2) scope

theorem run_grown (modes : JoinModes) {requests : List Request} (h : first.Tracked tree)
    (hnodes : ∀ request ∈ requests, ∀ node ∈ request.nodes, node ∈ tree) :
    Grown catalog modes tree first (run catalog modes requests first) := by
  induction requests generalizing first with
  | nil => exact .refl
  | cons request rest ih =>
    rw [List.forall_mem_cons] at hnodes
    have hserved : Brings catalog modes tree first (request.nodes.flatMap JoinNode.path)
        (request.serve catalog modes first) := Request.serve_brings modes h hnodes.1
    exact hserved.grown.trans (ih (hserved.grown.tracked h) hnodes.2)

/-! ## Scans and joins in step -/

/-- A join leads to a node from the scan of its parent, over its relation and in its mode. -/
def Leads (modes : JoinModes) (scans : List (JoinNode × Scan)) (entry : JoinNode × Scan)
    (join : Join) : Prop :=
  ∃ parent parentScan relationship, entry.1.parent? = some parent ∧
    entry.1.relationship? = some relationship ∧ (parent, parentScan) ∈ scans ∧ entry.2 = join.scan ∧
    join = { aliasName := entry.2.aliasName, parentAlias := parentScan.aliasName,
             relation := relationship.relation, entity := entry.1.entity,
             type := if (modes.modeOf entry.1).inner then .inner else .left,
             fetch := (modes.modeOf entry.1).fetch }

/-- The scans of a scope are that of its root and, in order, one for each join of its plan. -/
structure InStep (modes : JoinModes) (root : JoinNode) (rootScan : Scan) (scope : Scope) : Prop where
  nodup_nodes : scope.nodes.Nodup
  nodup_aliases : (scope.scans.map (·.2.aliasName)).Nodup
  rootScan_eq : scope.draft.plan.rootScan = rootScan
  parent_mem : ∀ node ∈ scope.nodes, ∀ parent, node.parent? = some parent → parent ∈ scope.nodes
  length_eq : scope.scans.length = scope.draft.plan.joins.length + 1
  joined : ∃ joined, scope.scans = (root, rootScan) :: joined ∧
    List.Forall₂ (Leads modes scope.scans) joined scope.draft.plan.joins ∧
    ∀ before entry after, joined = before ++ entry :: after →
      ∀ parent, entry.1.parent? = some parent → parent = root ∨ parent ∈ before.map (·.1)

theorem Leads.mono {scans later : List (JoinNode × Scan)} {entry : JoinNode × Scan} {join : Join}
    (h : Leads modes scans entry join) (hsub : ∀ other ∈ scans, other ∈ later) :
    Leads modes later entry join := by
  obtain ⟨parent, parentScan, relationship, hparent, hrelationship, hmem, hscan, hjoin⟩ := h
  exact ⟨parent, parentScan, relationship, hparent, hrelationship, hsub _ hmem, hscan, hjoin⟩

section Step
variable {node parent : JoinNode} {parentScan : Scan} {relationship : Relationship}
  {relation : Relation}

theorem Joinable.leads
    (h : scope.Joinable catalog tree node parent parentScan relationship relation) :
    Leads modes scope.scans
      (node, (scope.draft.nextJoin parentScan relation (modes.modeOf node)).scan)
      (scope.draft.nextJoin parentScan relation (modes.modeOf node)) := by
  have hname : relation.name = relationship.relation :=
    (Catalog.relation?_eq_some h.relation_eq).2
  refine ⟨parent, parentScan, relationship, h.parent_eq, h.relationship_eq, h.scan_mem, rfl, ?_⟩
  rw [← h.target_eq, ← hname]
  rfl

/-- A join for a further node keeps scans and joins in step. -/
theorem InStep.withNode {root : JoinNode} (hstep : scope.InStep modes root rootScan)
    (htracked : scope.Tracked tree)
    (h : scope.Joinable catalog tree node parent parentScan relationship relation) :
    (scope.withNode modes node parentScan relation).InStep modes root rootScan := by
  have hlater : (scope.withNode modes node parentScan relation).Tracked tree := htracked.withNode h
  obtain ⟨joined, hscans, hleads, hbefore⟩ := hstep.joined
  have hsub : ∀ other ∈ scope.scans, other ∈ (scope.withNode modes node parentScan relation).scans :=
    fun other hother => List.mem_append_left _ hother
  refine ⟨hlater.nodup, hlater.nodup_aliases, hstep.rootScan_eq, hlater.parent_mem, ?_,
    joined ++ [(node, (scope.draft.nextJoin parentScan relation (modes.modeOf node)).scan)],
    ?_, ?_, ?_⟩
  · have hlength := hstep.length_eq
    simp only [Scope.withNode, Draft.withJoin, List.length_append, List.length_singleton]
    omega
  · rw [← List.cons_append, ← hscans]
    rfl
  · have hnew : Leads modes (scope.withNode modes node parentScan relation).scans
        (node, (scope.draft.nextJoin parentScan relation (modes.modeOf node)).scan)
        (scope.draft.nextJoin parentScan relation (modes.modeOf node)) := h.leads.mono hsub
    exact List.rel_append (hleads.imp fun _ _ hold => hold.mono hsub) (.cons hnew .nil)
  · intro before entry after hsplit above habove
    rcases List.eq_nil_or_concat after with rfl | ⟨rest, last, rfl⟩
    · obtain ⟨rfl, hlast⟩ := List.append_inj' hsplit rfl
      cases hlast
      -- the parent has a scan already
      have hmem : (parent, parentScan) ∈ (root, rootScan) :: joined := hscans ▸ h.scan_mem
      rw [h.parent_eq, Option.some.injEq] at habove
      rw [← habove]
      rcases List.mem_cons.mp hmem with heq | hin
      · exact Or.inl (congrArg Prod.fst heq)
      · exact Or.inr (List.mem_map_of_mem hin)
    · rw [List.concat_eq_append, ← List.cons_append, ← List.append_assoc] at hsplit
      exact hbefore before entry rest (List.append_inj' hsplit rfl).1 above habove

end Step

theorem inStep_start (hfresh : draft.Fresh rootScan) :
    (start draft tree.root rootScan).InStep modes tree.root rootScan := by
  have htracked : (start draft tree.root rootScan).Tracked tree := tracked_start hfresh
  have hjoins : (start draft tree.root rootScan).draft.plan.joins = [] := hfresh.joins_eq
  refine ⟨htracked.nodup, htracked.nodup_aliases, hfresh.rootScan_eq, htracked.parent_mem, ?_,
    [], rfl, ?_, ?_⟩
  · rw [hjoins]
    rfl
  · rw [hjoins]
    exact .nil
  · intro before entry after hsplit
    simp at hsplit

theorem Grown.inStep (hfresh : draft.Fresh rootScan)
    (h : Grown catalog modes tree (start draft tree.root rootScan) scope) :
    scope.InStep modes tree.root rootScan := by
  induction h with
  | refl => exact inStep_start hfresh
  | join grown joinable ih => exact ih.withNode (grown.tracked (tracked_start hfresh)) joinable

theorem Grown.joins_prefix (h : Grown catalog modes tree first scope) :
    first.draft.plan.joins <+: scope.draft.plan.joins := by
  induction h with
  | refl => exact List.prefix_refl _
  | join _ _ ih => exact ih.trans (List.prefix_append _ _)

/-- After any requests for nodes of a tree, scans and joins are in step. A further request adds to
them: the missing nodes of all paths if it succeeds, those up to the one that is refused if it
fails. For a node that is in, its scan is found and nothing changes. -/
theorem requests_in_step (catalog : Catalog) (modes : JoinModes) (hfresh : draft.Fresh rootScan)
    {requests : List Request} (hrequests : ∀ request ∈ requests, ∀ node ∈ request.nodes, node ∈ tree)
    {scope : Scope} (hscope : scope = run catalog modes requests (start draft tree.root rootScan)) :
    scope.InStep modes tree.root rootScan ∧
    (∀ request : Request, (∀ node ∈ request.nodes, node ∈ tree) →
      ∀ result, request.serve catalog modes scope = result →
        result.2.InStep modes tree.root rootScan ∧ scope.scans <+: result.2.scans ∧
        scope.draft.plan.joins <+: result.2.draft.plan.joins ∧
        (result.1 = .ok () → ∀ n, n ∈ result.2.nodes ↔
          n ∈ scope.nodes ∨ n ∈ request.nodes.flatMap JoinNode.path) ∧
        ∀ e, result.1 = .error e →
          StopsWithin catalog modes scope (request.nodes.flatMap JoinNode.path) result.2 e) ∧
    (∀ node ∈ tree, ∀ scan last, reach catalog modes node scope = (.ok scan, last) →
      (node, scan) ∈ last.scans) ∧
    ∀ entry ∈ scope.scans, reach catalog modes entry.1 scope = (.ok entry.2, scope) := by
  have hstart : (start draft tree.root rootScan).Tracked tree := tracked_start hfresh
  have hgrown : Grown catalog modes tree (start draft tree.root rootScan) scope := by
    rw [hscope]
    exact run_grown modes hstart hrequests
  have htracked := hgrown.tracked hstart
  refine ⟨hgrown.inStep hfresh, ?_, ?_, ?_⟩
  · intro request hnodes result hresult
    have hserved : Brings catalog modes tree scope (request.nodes.flatMap JoinNode.path) result := by
      rw [← hresult]
      exact Request.serve_brings modes htracked hnodes
    exact ⟨(hgrown.trans hserved.grown).inStep hfresh, hserved.grown.scans_prefix,
      hserved.grown.joins_prefix, hserved.nodes_iff, hserved.stopped⟩
  · intro node hnode scan last hreach
    have hreaches : Reaches catalog modes tree scope node (.ok scan, last) := by
      rw [← hreach]
      exact reach_reaches modes htracked hnode
    exact hreaches.scan_mem scan rfl
  · intro entry hentry
    exact reach_of_scan modes htracked hentry

end Scope

namespace People

/-- People and businesses of which only the employers of people are known. -/
def employmentCatalog : Catalog :=
  ((Catalog.withEntity {} personEntity).withEntity businessEntity).withRelation employer

/-- Joins on the way to a sort by the owner. -/
def towardOwner : JoinModes := .resolve [] [Node.owner]

/-- An owner that cannot be joined leaves the business in, on a left join that fetches it, and the
business is not joined once more. -/
theorem requests_in_step_toward_owner :
    (Draft.start .entity "t" "Person").1.Fresh ⟨"t0", "Person"⟩ ∧
    (∀ request ∈ [Scope.Request.one Node.owner, .several [Node.business, Node.child]],
      ∀ node ∈ request.nodes, node ∈ tree) ∧
    ∃ scope, scope = Scope.run employmentCatalog towardOwner
        [.one Node.owner, .several [Node.business, Node.child]]
        (.start (Draft.start .entity "t" "Person").1 Node.person ⟨"t0", "Person"⟩) ∧
      scope.InStep towardOwner Node.person ⟨"t0", "Person"⟩ ∧
      scope.nodes = [Node.person, Node.business] ∧
      scope.draft.plan.joins = [⟨"t1", "t0", "employer", "Business", .left, true⟩] ∧
      Scope.reach employmentCatalog towardOwner Node.business scope =
        (.ok ⟨"t1", "Business"⟩, scope) := by
  have hfresh : (Draft.start .entity "t" "Person").1.Fresh ⟨"t0", "Person"⟩ :=
    Draft.fresh_start _ _ _
  have hrequests : ∀ request ∈ [Scope.Request.one Node.owner, .several [Node.business, Node.child]],
      ∀ node ∈ request.nodes, node ∈ tree := by
    have hall : ∀ request ∈ [Scope.Request.one Node.owner, .several [Node.business, Node.child]],
        ∀ node ∈ request.nodes, node ∈ [Node.person, Node.business, Node.owner, Node.child] := by
      decide
    exact hall
  obtain ⟨hstep, -, -, hreach⟩ :=
    Scope.requests_in_step employmentCatalog towardOwner hfresh hrequests rfl
  have hbusiness := hreach (Node.business, ⟨"t1", "Business"⟩) (by decide)
  exact ⟨hfresh, hrequests, _, rfl, hstep, rfl, rfl, hbusiness⟩

end People

end CriteriaQuery
