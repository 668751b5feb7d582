import CriteriaQuery.Proofs.Join.Growth

/-! Bringing nodes into a scope. A node comes in with the missing part of its path, root first, so
that bringing in nodes of a tree makes a scope grow (`Scope.reachAll_brings`); where it succeeds, the
scope has the nodes of all paths, else those in front of the one that cannot be joined. It succeeds
exactly if the relations that lead to these nodes are declared (`Scope.exists_withAll_iff`). -/
namespace CriteriaQuery.Scope
set_option autoImplicit false

variable {catalog : Catalog} {modes : JoinModes} {tree : JoinTree} {first scope last : Scope}

/-! ## Failures -/

/-- A node is not in and cannot be joined behind its parent, which is. -/
def Refuses (catalog : Catalog) (modes : JoinModes) (scope : Scope) (node : JoinNode) (e : Error) :
    Prop :=
  node ∉ scope.nodes ∧ ∃ parent parentScan relationship, node.parent? = some parent ∧
    node.relationship? = some relationship ∧ (parent, parentScan) ∈ scope.scans ∧
    scope.draft.join catalog parentScan relationship node.entity (modes.modeOf node) = .error e

/-- Steps have been brought in up to one that is refused. -/
def StopsWithin (catalog : Catalog) (modes : JoinModes) (first : Scope) (steps : List JoinNode)
    (last : Scope) (e : Error) : Prop :=
  ∃ above step below, steps = above ++ step :: below ∧
    (∀ n, n ∈ last.nodes ↔ n ∈ first.nodes ∨ n ∈ above) ∧ last.Refuses catalog modes step e

section StopsWithin
variable {steps : List JoinNode} {middle : Scope} {e : Error}

theorem StopsWithin.append_right (h : StopsWithin catalog modes first steps last e)
    (later : List JoinNode) : StopsWithin catalog modes first (steps ++ later) last e := by
  obtain ⟨above, step, below, rfl, hnodes, hrefuses⟩ := h
  exact ⟨above, step, below ++ later, by simp, hnodes, hrefuses⟩

theorem StopsWithin.append_left {earlier : List JoinNode}
    (hmiddle : ∀ n, n ∈ middle.nodes ↔ n ∈ first.nodes ∨ n ∈ earlier)
    (h : StopsWithin catalog modes middle steps last e) :
    StopsWithin catalog modes first (earlier ++ steps) last e := by
  obtain ⟨above, step, below, rfl, hnodes, hrefuses⟩ := h
  refine ⟨earlier ++ above, step, below, by simp, ?_, hrefuses⟩
  intro n
  rw [hnodes, hmiddle, List.mem_append, or_assoc]

end StopsWithin

/-! ## One node -/

/-- What bringing in a node leads to: the scope has grown, on success by the path of the node. -/
structure Reaches (catalog : Catalog) (modes : JoinModes) (tree : JoinTree) (first : Scope)
    (node : JoinNode) (result : Except Error Scan × Scope) : Prop where
  grown : Grown catalog modes tree first result.2
  scan_mem : ∀ scan, result.1 = .ok scan → (node, scan) ∈ result.2.scans
  nodes_iff : ∀ scan, result.1 = .ok scan →
    ∀ n, n ∈ result.2.nodes ↔ n ∈ first.nodes ∨ n ∈ node.path
  stopped : ∀ e, result.1 = .error e → StopsWithin catalog modes first node.path result.2 e

theorem reach_of_scan (modes : JoinModes) {node : JoinNode} {scan : Scan}
    (hfirst : first.Tracked tree) (hentry : (node, scan) ∈ first.scans) :
    reach catalog modes node first = (.ok scan, first) := by
  have hnode : node ∈ tree := hfirst.mem node (List.mem_map_of_mem hentry)
  unfold reach
  rw [(hfirst.get?_eq_some hnode).mpr hentry]

theorem reach_of_mem (modes : JoinModes) {node : JoinNode} (hfirst : first.Tracked tree)
    (hin : node ∈ first.nodes) :
    ∃ scan, (node, scan) ∈ first.scans ∧ reach catalog modes node first = (.ok scan, first) := by
  obtain ⟨scan, hentry⟩ := exists_scan hin
  exact ⟨scan, hentry, reach_of_scan modes hfirst hentry⟩

section Child
variable {node parent : JoinNode} {relationship : Relationship} {middle : Scope}

theorem reach_of_parent_error {e : Error} (hget : first.get? node = none)
    (hnode : node.parent? = some parent)
    (hparent : reach catalog modes parent first = (.error e, middle)) :
    reach catalog modes node first = (.error e, middle) := by
  cases node with
  | root => cases hnode
  | child mark id entity above relationship =>
    cases hnode
    rw [reach, hget]
    simp only [hparent]

/-- A node that cannot be joined leaves its path in place. -/
theorem reach_of_join_error {parentScan : Scan} {e : Error} (hget : first.get? node = none)
    (hnode : node.parent? = some parent) (hrelationship : node.relationship? = some relationship)
    (hparent : reach catalog modes parent first = (.ok parentScan, middle))
    (hjoin : middle.draft.join catalog parentScan relationship node.entity (modes.modeOf node) =
      .error e) : reach catalog modes node first = (.error e, middle) := by
  cases node with
  | root => cases hnode
  | child mark id entity above relationship =>
    cases hnode
    cases hrelationship
    unfold JoinModes.modeOf JoinNode.entity at hjoin
    rw [reach, hget]
    simp only [hparent, hjoin]

theorem reach_of_join_ok {parentScan scan : Scan} {draft : Draft} (hget : first.get? node = none)
    (hnode : node.parent? = some parent) (hrelationship : node.relationship? = some relationship)
    (hparent : reach catalog modes parent first = (.ok parentScan, middle))
    (hjoin : middle.draft.join catalog parentScan relationship node.entity (modes.modeOf node) =
      .ok (draft, scan)) : reach catalog modes node first =
      (.ok scan, { middle with draft, scans := note node scan middle.scans }) := by
  cases node with
  | root => cases hnode
  | child mark id entity above relationship =>
    cases hnode
    cases hrelationship
    unfold JoinModes.modeOf JoinNode.entity at hjoin
    rw [reach, hget]
    simp only [hparent, hjoin]

end Child

theorem Reaches.of_error {node : JoinNode} {e : Error} (h : Grown catalog modes tree first scope)
    (hstopped : StopsWithin catalog modes first node.path scope e) :
    Reaches catalog modes tree first node (.error e, scope) where
  grown := h
  stopped := by
    intro found hfound
    cases hfound
    exact hstopped
  scan_mem := by
    intro scan hscan
    cases hscan
  nodes_iff := by
    intro scan hscan
    cases hscan

theorem reaches_of_mem (modes : JoinModes) {node : JoinNode} (hfirst : first.Tracked tree)
    (hin : node ∈ first.nodes) :
    Reaches catalog modes tree first node (reach catalog modes node first) := by
  obtain ⟨scan, hentry, hreach⟩ := reach_of_mem modes hfirst hin
  rw [hreach]
  refine ⟨.refl, ?_, ?_, nofun⟩
  · intro found hfound
    cases hfound
    exact hentry
  · intro found _ n
    constructor
    · exact Or.inl
    · rintro (hn | hn)
      · exact hn
      · exact hfirst.path_subset hin n hn

/-- Bringing in a node of the tree joins the missing nodes of its path. -/
theorem reach_reaches (modes : JoinModes) {node : JoinNode}
    (hfirst : first.Tracked tree) (hnode : node ∈ tree) :
    Reaches catalog modes tree first node (reach catalog modes node first) := by
  by_cases hin : node ∈ first.nodes
  · exact reaches_of_mem modes hfirst hin
  have hget := (hfirst.get?_eq_none hnode).mpr hin
  induction node with
  | root => exact absurd (JoinTree.eq_root hnode rfl ▸ hfirst.root_mem) hin
  | child mark id entity parent relationship ih =>
    have hparent : parent ∈ tree := JoinTree.parent_mem hnode rfl
    have hreached : Reaches catalog modes tree first parent (reach catalog modes parent first) := by
      by_cases hup : parent ∈ first.nodes
      · exact reaches_of_mem modes hfirst hup
      · exact ih hparent hup ((hfirst.get?_eq_none hparent).mpr hup)
    rcases hreach : reach catalog modes parent first with ⟨outcome, middle⟩
    rw [hreach] at hreached
    cases outcome with
    | error e =>
      rw [reach_of_parent_error hget rfl hreach]
      exact .of_error hreached.grown ((hreached.stopped e rfl).append_right _)
    | ok parentScan =>
      have hnodes := hreached.nodes_iff parentScan rfl
      -- the path of the parent cannot have brought in the node itself
      have hfresh : JoinNode.child mark id entity parent relationship ∉ middle.nodes := by
        rw [hnodes, not_or]
        exact ⟨hin, JoinNode.not_mem_path_parent rfl⟩
      cases hjoin : middle.draft.join catalog parentScan relationship entity
          (modes.modeOf (.child mark id entity parent relationship)) with
      | error e =>
        rw [reach_of_join_error hget rfl rfl hreach hjoin]
        exact .of_error hreached.grown ⟨parent.path, _, [], rfl, hnodes, hfresh, parent, parentScan,
          relationship, rfl, rfl, hreached.scan_mem parentScan rfl, hjoin⟩
      | ok made =>
        obtain ⟨draft, scan⟩ := made
        rw [reach_of_join_ok hget rfl rfl hreach hjoin,
          (hreached.grown.tracked hfirst).note_eq hnode hfresh]
        obtain ⟨relation, hrelation, hcardinality, htarget, rfl, rfl⟩ := Draft.join_eq_ok.mp hjoin
        have hjoinable : middle.Joinable catalog tree (.child mark id entity parent relationship)
            parent parentScan relationship relation :=
          ⟨hnode, rfl, rfl, hfresh, hreached.scan_mem parentScan rfl, hrelation, hcardinality,
            htarget⟩
        refine ⟨Grown.join hreached.grown hjoinable, ?_, ?_, nofun⟩
        · intro found hfound
          cases hfound
          exact List.mem_append_right _ (List.mem_singleton_self _)
        · intro _ _ n
          change n ∈ (middle.withNode modes _ parentScan relation).nodes ↔ _
          rw [nodes_withNode, List.mem_append, hnodes, JoinNode.path, List.mem_append, or_assoc]

/-! ## A list of nodes -/

/-- What bringing in steps leads to: the scope has grown, on success by all of them. -/
structure Brings (catalog : Catalog) (modes : JoinModes) (tree : JoinTree) (first : Scope)
    (steps : List JoinNode) (result : Except Error Unit × Scope) : Prop where
  grown : Grown catalog modes tree first result.2
  nodes_iff : result.1 = .ok () → ∀ n, n ∈ result.2.nodes ↔ n ∈ first.nodes ∨ n ∈ steps
  stopped : ∀ e, result.1 = .error e → StopsWithin catalog modes first steps result.2 e

/-- Bringing in nodes in order joins the missing nodes of their paths. -/
theorem reachAll_brings (modes : JoinModes) {nodes : List JoinNode} (hfirst : first.Tracked tree)
    (hnodes : ∀ node ∈ nodes, node ∈ tree) :
    Brings catalog modes tree first (nodes.flatMap JoinNode.path)
      (reachAll catalog modes nodes first) := by
  induction nodes generalizing first with
  | nil => exact ⟨.refl, by simp [reachAll], nofun⟩
  | cons node rest ih =>
    have hreached : Reaches catalog modes tree first node (reach catalog modes node first) :=
      reach_reaches modes hfirst (hnodes node List.mem_cons_self)
    rw [reachAll, List.flatMap_cons]
    rcases hreach : reach catalog modes node first with ⟨outcome, middle⟩
    rw [hreach] at hreached
    cases outcome with
    | error e =>
      refine ⟨hreached.grown, nofun, ?_⟩
      intro found hfound
      cases hfound
      exact (hreached.stopped e rfl).append_right _
    | ok scan =>
      have hmiddle := hreached.nodes_iff scan rfl
      have hrest := ih (hreached.grown.tracked hfirst)
        fun n hn => hnodes n (List.mem_cons_of_mem _ hn)
      refine ⟨hreached.grown.trans hrest.grown, ?_, ?_⟩
      · intro hok n
        rw [hrest.nodes_iff hok, hmiddle, List.mem_append, or_assoc]
      · intro e he
        exact (hrest.stopped e he).append_left hmiddle

theorem withAll_grown {nodes : List JoinNode} (hfirst : first.Wired catalog tree)
    (hnodes : ∀ node ∈ nodes, node ∈ tree) (h : first.withAll catalog modes nodes = .ok last) :
    Grown catalog modes tree first last ∧
      ∀ n, n ∈ last.nodes ↔ n ∈ first.nodes ∨ n ∈ nodes.flatMap JoinNode.path := by
  have hbrings : Brings catalog modes tree first (nodes.flatMap JoinNode.path)
      (reachAll catalog modes nodes first) := reachAll_brings modes hfirst.toTracked hnodes
  unfold withAll at h
  split at h
  · rename_i hreach
    cases h
    rw [hreach] at hbrings
    exact ⟨hbrings.grown, hbrings.nodes_iff rfl⟩
  · cases h

/-! ## Success -/

theorem exists_reach (modes : JoinModes) {node : JoinNode} (hfirst : first.Wired catalog tree)
    (hnode : node ∈ tree) (hdeclared : node.PathDeclared catalog) :
    ∃ scan last, reach catalog modes node first = (.ok scan, last) := by
  by_cases hin : node ∈ first.nodes
  · obtain ⟨scan, -, hreach⟩ := reach_of_mem modes hfirst.toTracked hin
    exact ⟨scan, first, hreach⟩
  have hget := (hfirst.get?_eq_none hnode).mpr hin
  induction node with
  | root => exact absurd (JoinTree.eq_root hnode rfl ▸ hfirst.root_mem) hin
  | child mark id entity parent relationship ih =>
    have hparent : parent ∈ tree := JoinTree.parent_mem hnode rfl
    have hup : parent.PathDeclared catalog :=
      fun step hstep => hdeclared step (JoinNode.mem_path_of_parent? rfl hstep)
    have hscan : ∃ scan middle, reach catalog modes parent first = (.ok scan, middle) := by
      by_cases hmem : parent ∈ first.nodes
      · obtain ⟨scan, -, hreach⟩ := reach_of_mem modes hfirst.toTracked hmem
        exact ⟨scan, first, hreach⟩
      · exact ih hparent hup hmem ((hfirst.get?_eq_none hparent).mpr hmem)
    obtain ⟨parentScan, middle, hreach⟩ := hscan
    have hreached : Reaches catalog modes tree first parent (.ok parentScan, middle) := by
      rw [← hreach]
      exact reach_reaches modes hfirst.toTracked hparent
    -- the scan of the parent reads the parent's entity, from which the relation is declared
    have hentity : parentScan.entity = parent.entity :=
      (hreached.grown.wired hfirst).entity_eq _ (hreached.scan_mem parentScan rfl)
    obtain ⟨relation, hrelation, hcardinality, htarget⟩ : JoinNode.Declared catalog
        (.child mark id entity parent relationship) := hdeclared _ (JoinNode.self_mem_path _)
    rw [← hentity] at hrelation
    have hjoin : ∃ draft scan, middle.draft.join catalog parentScan relationship entity
        (modes.modeOf (.child mark id entity parent relationship)) = .ok (draft, scan) :=
      ⟨_, _, Draft.join_eq_ok.mpr ⟨relation, hrelation, hcardinality, htarget, rfl, rfl⟩⟩
    obtain ⟨draft, scan, hjoin⟩ := hjoin
    exact ⟨scan, _, reach_of_join_ok hget rfl rfl hreach hjoin⟩

/-- Nodes can be brought in exactly if all of their paths are declared. -/
theorem exists_withAll_iff {nodes : List JoinNode} (hfirst : first.Wired catalog tree)
    (hnodes : ∀ node ∈ nodes, node ∈ tree) :
    (∃ last, first.withAll catalog modes nodes = .ok last) ↔
      ∀ node ∈ nodes, node.PathDeclared catalog := by
  constructor
  · rintro ⟨last, h⟩ node hnode step hstep
    obtain ⟨hgrown, hmem⟩ := withAll_grown hfirst hnodes h
    have hpath : step ∈ nodes.flatMap JoinNode.path := List.mem_flatMap.mpr ⟨node, hnode, hstep⟩
    exact (hgrown.wired hfirst).declared step ((hmem step).mpr (Or.inr hpath))
  · intro hdeclared
    induction nodes generalizing first with
    | nil => exact ⟨first, rfl⟩
    | cons node rest ih =>
      rw [List.forall_mem_cons] at hdeclared
      have hnode : node ∈ tree := hnodes node List.mem_cons_self
      obtain ⟨scan, middle, hreach⟩ := exists_reach modes hfirst hnode hdeclared.1
      have hreached : Reaches catalog modes tree first node (.ok scan, middle) := by
        rw [← hreach]
        exact reach_reaches modes hfirst.toTracked hnode
      obtain ⟨last, hlast⟩ := ih (hreached.grown.wired hfirst)
        (fun n hn => hnodes n (List.mem_cons_of_mem _ hn)) hdeclared.2
      refine ⟨last, ?_⟩
      rw [withAll, reachAll, hreach]
      exact hlast

end CriteriaQuery.Scope
