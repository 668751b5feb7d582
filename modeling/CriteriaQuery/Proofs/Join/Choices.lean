import CriteriaQuery.Proofs.Join.Span
import Mathlib.Data.Multiset.Bind

/-! The choices that the joins of a scope make of a root row, each as often as they make it. A join
for a node needs the row of its parent and no other, so that nodes may be joined in any order that
has parents first (`Choice.all_eq_of_perm`). Left joins lose no choice, and make all that inner
joins make (`Choice.countP_all_le`). -/
namespace CriteriaQuery
set_option autoImplicit false

/-! ## Folds and multisets -/

section Lists
variable {α β : Type}

/-- A step that can be exchanged with all steps behind it may be taken last. -/
theorem foldl_cons_eq_of_comm {f : β → α → β} {a : α} {l : List α}
    (h : ∀ b ∈ l, ∀ z, f (f z a) b = f (f z b) a) (z : β) :
    (a :: l).foldl f z = f (l.foldl f z) a := by
  induction l generalizing z with
  | nil => rfl
  | cons b rest ih =>
    rw [List.forall_mem_cons] at h
    have hrest := ih h.2 (f z b)
    rw [List.foldl_cons] at hrest
    rw [List.foldl_cons, List.foldl_cons, h.1 z, hrest]
    rfl

/-- Steps may be taken in any order that puts none of them before one it depends on. -/
theorem foldl_eq_of_perm {f : β → α → β} {R : α → α → Prop}
    (hcomm : ∀ a b z, ¬R a b → ¬R b a → f (f z a) b = f (f z b) a) {l other : List α}
    (hperm : l.Perm other) (hl : l.Pairwise fun a b => ¬R a b)
    (hother : other.Pairwise fun a b => ¬R a b) (z : β) : l.foldl f z = other.foldl f z := by
  induction other using List.reverseRecOn generalizing l with
  | nil => rw [hperm.eq_nil]
  | append_singleton before a ih =>
    have ha : a ∈ l := hperm.mem_iff.mpr (List.mem_append_right _ (List.mem_singleton_self a))
    obtain ⟨front, back, rfl⟩ := List.append_of_mem ha
    have hrest : (front ++ back).Perm before := by
      have hmiddle := List.perm_middle.symm.trans hperm
      exact (List.perm_cons a).mp (hmiddle.trans (List.perm_append_singleton a before))
    rw [List.pairwise_append] at hother
    have hsub : (front ++ back).Sublist (front ++ a :: back) :=
      (List.Sublist.refl front).append (List.sublist_cons_self a back)
    have hback := (List.pairwise_append.mp hl).2.1
    rw [List.pairwise_cons] at hback
    -- nothing behind the last step depends on it, and it depends on nothing behind it
    have hlast : (a :: back).foldl f (front.foldl f z) = f (back.foldl f (front.foldl f z)) a := by
      apply foldl_cons_eq_of_comm
      intro b hb w
      have hbefore : b ∈ before := hrest.mem_iff.mp (List.mem_append_right _ hb)
      exact hcomm a b w (hback.1 b hb) (hother.2.2 b hbefore a (List.mem_singleton_self a))
    rw [List.foldl_append, hlast, ← List.foldl_append, ih hrest (hl.sublist hsub) hother.1,
      List.foldl_append]
    rfl

/-- What a list has beyond another one can be put behind that one. -/
theorem exists_append_perm [DecidableEq α] {l longer : List α} (hl : l.Nodup)
    (hlonger : longer.Nodup) (hsubset : l ⊆ longer) :
    ∃ rest, rest.Sublist longer ∧ (∀ a ∈ rest, a ∉ l) ∧ (l ++ rest).Perm longer := by
  have hrest : ∀ a ∈ longer.filter (· ∉ l), a ∉ l := by simp
  refine ⟨longer.filter (· ∉ l), List.filter_sublist, hrest, ?_⟩
  have hnodup : (l ++ longer.filter (· ∉ l)).Nodup := by
    rw [List.nodup_append']
    exact ⟨hl, hlonger.filter _, fun a ha hother => hrest a hother ha⟩
  apply (List.perm_ext_iff_of_nodup hnodup hlonger).mpr
  intro a
  rw [List.mem_append]
  by_cases ha : a ∈ l
  · simp [ha, hsubset ha]
  · simp [ha]

theorem bind_le_bind {s t : Multiset α} {f g : α → Multiset β} (hst : s ≤ t)
    (hfg : ∀ a, f a ≤ g a) : s.bind f ≤ t.bind g := by
  obtain ⟨more, rfl⟩ := Multiset.le_iff_exists_add.mp hst
  have hbind : s.bind f ≤ s.bind g := by
    induction s using Multiset.induction with
    | empty => simp
    | cons a s ih =>
      rw [Multiset.cons_bind, Multiset.cons_bind]
      exact add_le_add (hfg a) (ih (Multiset.le_add_right _ _))
  rw [Multiset.add_bind]
  exact hbind.trans (Multiset.le_add_right _ _)

theorem countP_le_countP_bind {P : α → Prop} [DecidablePred P] {s : Multiset α}
    {f : α → Multiset α} (h : ∀ a, P a → ∃ b ∈ f a, P b) :
    s.countP P ≤ (s.bind f).countP P := by
  induction s using Multiset.induction with
  | empty => simp
  | cons a s ih =>
    rw [Multiset.cons_bind, Multiset.countP_add, Multiset.countP_cons]
    split
    · rename_i ha
      obtain ⟨b, hb, hPb⟩ := h a ha
      have hpos : 0 < (f a).countP P := Multiset.countP_pos.mpr ⟨b, hb, hPb⟩
      omega
    · omega

end Lists

/-! ## Options -/

/-- What a join binds its alias to where these rows are related, as often as it does. -/
def JoinType.options (type : JoinType) (rows : List Row) : List (Option Row) :=
  match rows, type with
  | [], .left => [none]
  | rows, _ => rows.map some

theorem JoinType.options_inner (rows : List Row) : JoinType.inner.options rows = rows.map some := by
  cases rows <;> rfl

theorem JoinType.exists_mem_options_left (rows : List Row) :
    ∃ row, row ∈ JoinType.left.options rows := by
  cases rows with
  | nil => exact ⟨none, List.mem_singleton_self _⟩
  | cons row rest => exact ⟨some row, List.mem_cons_self⟩

theorem JoinType.sublist_options (type : JoinType) (rows : List Row) :
    (JoinType.inner.options rows).Sublist (type.options rows) := by
  rw [options_inner]
  unfold options
  split
  · exact List.nil_sublist _
  · exact List.Sublist.refl _

theorem Link.extend_eq (store : Store) (link : Link) (binding : Binding) :
    link.extend store binding = (link.join.type.options (link.rows store binding)).map
      fun row => binding.bind link.join.aliasName row := by
  unfold Link.extend JoinType.options
  cases link.rows store binding with
  | nil =>
    cases link.join.type with
    | inner => rfl
    | left => rfl
  | cons row rest =>
    rw [List.map_map]
    rfl

/-! ## Choices for nodes -/

/-- Nodes of which none stands before its parent. -/
def JoinNode.ParentsFirst (nodes : List JoinNode) : Prop :=
  nodes.Pairwise fun a b => ¬a.parent? = some b

namespace Choice
variable (catalog : Catalog) (store : Store) (modes : JoinModes)

/-- The choices that a join for a node makes of one. -/
def extensions (node : JoinNode) (choice : Choice) : Multiset Choice :=
  match node.parent? with
  | none => {choice}
  | some parent =>
    ((Draft.joinType (modes.modeOf node)).options
      (node.relatedTo catalog store (choice parent)) : Multiset (Option Row)).map
      (Function.update choice node)

def extendAll (choices : Multiset Choice) (nodes : List JoinNode) : Multiset Choice :=
  nodes.foldl (fun choices node => choices.bind (extensions catalog store modes node)) choices

/-- The choices that joins for nodes make of a root row. -/
def all (nodes : List JoinNode) (row : Row) : Multiset Choice :=
  extendAll catalog store modes {fun _ => some row} nodes

variable {catalog store modes} {other : JoinModes} {nodes longer : List JoinNode}

theorem all_append (nodes more : List JoinNode) (row : Row) :
    all catalog store modes (nodes ++ more) row =
      extendAll catalog store modes (all catalog store modes nodes row) more := List.foldl_append

theorem extensions_of_parent? {node parent : JoinNode} (h : node.parent? = some parent)
    (choice : Choice) : extensions catalog store modes node choice =
      ((Draft.joinType (modes.modeOf node)).options
        (node.relatedTo catalog store (choice parent)) : Multiset (Option Row)).map
        (Function.update choice node) := by
  rw [extensions, h]

theorem extensions_of_root {node : JoinNode} (h : node.parent? = none) (choice : Choice) :
    extensions catalog store modes node choice = {choice} := by rw [extensions, h]

theorem bind_extensions_of_root {node : JoinNode} (h : node.parent? = none)
    (choices : Multiset Choice) :
    choices.bind (extensions catalog store modes node) = choices := by
  have hself : extensions catalog store modes node = fun choice => {choice} :=
    funext (extensions_of_root h)
  rw [hself, Multiset.bind_singleton, Multiset.map_id']

/-- Joins for two nodes can be made in either order unless one of them needs the other. -/
theorem extensions_comm {a b : JoinNode} (hab : ¬a.parent? = some b) (hba : ¬b.parent? = some a)
    (choice : Choice) :
    (extensions catalog store modes a choice).bind (extensions catalog store modes b) =
      (extensions catalog store modes b choice).bind (extensions catalog store modes a) := by
  by_cases hsame : a = b
  · rw [hsame]
  cases ha : a.parent? with
  | none =>
    rw [extensions_of_root ha, Multiset.singleton_bind, bind_extensions_of_root ha]
  | some above =>
    cases hb : b.parent? with
    | none =>
      rw [extensions_of_root hb, Multiset.singleton_bind, bind_extensions_of_root hb]
    | some beyond =>
      have hbeyond : beyond ≠ a := by
        rintro rfl
        exact hba hb
      have habove : above ≠ b := by
        rintro rfl
        exact hab ha
      simp only [extensions_of_parent? ha, extensions_of_parent? hb, Multiset.bind_map,
        Function.update_of_ne hbeyond, Function.update_of_ne habove]
      rw [Multiset.bind_map_comm]
      congr 1
      funext y
      congr 1
      funext x
      exact Function.update_comm hsame _ _ _

/-- The choices do not depend on the order in which nodes are joined. -/
theorem all_eq_of_perm (hperm : nodes.Perm longer) (hnodes : JoinNode.ParentsFirst nodes)
    (hlonger : JoinNode.ParentsFirst longer) (row : Row) :
    all catalog store modes nodes row = all catalog store modes longer row := by
  apply foldl_eq_of_perm _ hperm hnodes hlonger
  intro a b choices hab hba
  rw [Multiset.bind_assoc, Multiset.bind_assoc]
  apply Multiset.bind_congr
  intro choice _
  exact extensions_comm hab hba choice

theorem extensions_congr {node : JoinNode}
    (h : (modes.modeOf node).inner = (other.modeOf node).inner) :
    extensions catalog store modes node = extensions catalog store other node := by
  funext choice
  unfold extensions Draft.joinType
  rw [h]

theorem all_congr (h : ∀ node ∈ nodes, (modes.modeOf node).inner = (other.modeOf node).inner)
    (row : Row) : all catalog store modes nodes row = all catalog store other nodes row := by
  apply List.foldl_ext
  intro choices node hnode
  rw [extensions_congr (h node hnode)]

/-! ## Counting choices -/

theorem extensions_le {node : JoinNode} (hinner : (modes.modeOf node).inner = true)
    (choice : Choice) : extensions catalog store modes node choice ≤
      extensions catalog store other node choice := by
  cases hparent : node.parent? with
  | none => rw [extensions_of_root hparent, extensions_of_root hparent]
  | some parent =>
    rw [extensions_of_parent? hparent, extensions_of_parent? hparent, Draft.joinType, hinner]
    exact Multiset.map_le_map (JoinType.sublist_options _ _).subperm

/-- Inner joins make no choice that other joins do not make. -/
theorem all_le (hinner : ∀ node ∈ nodes, (modes.modeOf node).inner = true) (row : Row) :
    all catalog store modes nodes row ≤ all catalog store other nodes row := by
  have hall : ∀ first second : Multiset Choice, first ≤ second →
      extendAll catalog store modes first nodes ≤ extendAll catalog store other second nodes := by
    induction nodes with
    | nil => exact fun _ _ hle => hle
    | cons node rest ih =>
      rw [List.forall_mem_cons] at hinner
      intro first second hle
      exact ih hinner.2 _ _ (bind_le_bind hle (extensions_le hinner.1))
  exact hall _ _ le_rfl

theorem exists_mem_extensions {node : JoinNode} (hleft : (modes.modeOf node).inner = false)
    (choice : Choice) : ∃ more ∈ extensions catalog store modes node choice,
      ∀ n, n ≠ node → choice n = more n := by
  cases hparent : node.parent? with
  | none =>
    rw [extensions_of_root hparent]
    exact ⟨choice, Multiset.mem_singleton_self _, fun _ _ => rfl⟩
  | some parent =>
    rw [extensions_of_parent? hparent, Draft.joinType, hleft]
    obtain ⟨row, hrow⟩ := JoinType.exists_mem_options_left
      (node.relatedTo catalog store (choice parent))
    refine ⟨_, Multiset.mem_map_of_mem _ hrow, ?_⟩
    intro n hn
    rw [Function.update_of_ne hn]

/-- Left joins for further nodes lose no choice. -/
theorem countP_le_extendAll {P : Choice → Prop} [DecidablePred P] (choices : Multiset Choice)
    (hleft : ∀ node ∈ nodes, (modes.modeOf node).inner = false)
    (hcongr : ∀ node ∈ nodes, ∀ choice more : Choice,
      (∀ n, n ≠ node → choice n = more n) → P choice → P more) :
    choices.countP P ≤ (extendAll catalog store modes choices nodes).countP P := by
  induction nodes generalizing choices with
  | nil => exact le_rfl
  | cons node rest ih =>
    rw [List.forall_mem_cons] at hleft hcongr
    refine le_trans ?_ (ih _ hleft.2 hcongr.2)
    apply countP_le_countP_bind
    intro choice hchoice
    obtain ⟨more, hmore, hagree⟩ := exists_mem_extensions hleft.1 choice
    exact ⟨more, hmore, hcongr.1 choice more hagree hchoice⟩

/-- Joining further nodes by left joins, and some of those before by left joins in place of inner
ones, loses no choice that meets a condition on the nodes before. -/
theorem countP_all_le {P : Choice → Prop} [DecidablePred P] (hnodup : nodes.Nodup)
    (hmore : longer.Nodup) (hnodes : JoinNode.ParentsFirst nodes)
    (hlonger : JoinNode.ParentsFirst longer) (hsubset : ∀ node ∈ nodes, node ∈ longer)
    (hparent : ∀ node ∈ nodes, ∀ parent, node.parent? = some parent → parent ∈ nodes)
    (hinner : ∀ node ∈ nodes, (modes.modeOf node).inner = true)
    (hleft : ∀ node ∈ longer, node ∉ nodes → (other.modeOf node).inner = false)
    (hcongr : ∀ choice more : Choice, (∀ node ∈ nodes, choice node = more node) →
      P choice → P more) (row : Row) :
    (all catalog store modes nodes row).countP P ≤
      (all catalog store other longer row).countP P := by
  obtain ⟨rest, hsublist, hrest, hperm⟩ := exists_append_perm hnodup hmore hsubset
  have hfirst : JoinNode.ParentsFirst (nodes ++ rest) := by
    refine List.pairwise_append.mpr ⟨hnodes, hlonger.sublist hsublist, ?_⟩
    intro a ha b hb hup
    exact hrest b hb (hparent a ha b hup)
  rw [← all_eq_of_perm hperm hfirst hlonger, all_append]
  calc (all catalog store modes nodes row).countP P
      ≤ (all catalog store other nodes row).countP P :=
        Multiset.countP_le_of_le P (all_le hinner row)
    _ ≤ (extendAll catalog store other (all catalog store other nodes row) rest).countP P := by
        apply countP_le_extendAll _ fun node hnode =>
          hleft node (hsublist.subset hnode) (hrest node hnode)
        intro node hnode choice more hagree
        apply hcongr
        intro n hn
        apply hagree
        rintro rfl
        exact hrest n hnode hn

end Choice

/-! ## Choices of a scope -/

namespace Scope
variable {catalog : Catalog} {store : Store} {modes : JoinModes} {tree : JoinTree} {scope : Scope}
  {draft : Draft} {rootScan : Scan}

theorem Grown.parentsFirst (hfresh : draft.Fresh rootScan)
    (hentity : rootScan.entity = tree.root.entity)
    (h : Grown catalog modes tree (start draft tree.root rootScan) scope) :
    JoinNode.ParentsFirst scope.nodes := by
  have hstart : (start draft tree.root rootScan).Wired catalog tree := wired_start hfresh hentity
  induction h with
  | refl => exact List.pairwise_singleton _ _
  | @join scope node parent parentScan relationship relation grown joinable ih =>
    rw [nodes_withNode]
    refine List.pairwise_append.mpr ⟨ih, List.pairwise_singleton _ _, ?_⟩
    intro a ha b hb hup
    rw [List.mem_singleton.mp hb] at hup
    exact joinable.fresh ((grown.wired hstart).parent_mem a ha node hup)

/-- The bindings of a grown scope are all choices for its nodes, each as often as joins make it. -/
theorem Grown.bindingsFrom_eq_map (hfresh : draft.Fresh rootScan)
    (hentity : rootScan.entity = tree.root.entity)
    (h : Grown catalog modes tree (start draft tree.root rootScan) scope) (row : Row) :
    (scope.draft.plan.bindingsFrom catalog store row : Multiset Binding) =
      (Choice.all catalog store modes scope.nodes row).map scope.binding := by
  have hstart : (start draft tree.root rootScan).Wired catalog tree := wired_start hfresh hentity
  induction h with
  | refl =>
    have hroot : ∀ choice, Choice.extensions catalog store modes tree.root choice = {choice} :=
      Choice.extensions_of_root tree.parent?_root
    change (draft.plan.bindingsFrom catalog store row : Multiset Binding) =
      (Multiset.bind {fun _ => some row} (Choice.extensions catalog store modes tree.root)).map _
    rw [hfresh.bindingsFrom_eq, Multiset.singleton_bind, hroot, Multiset.map_singleton]
    rfl
  | @join scope node parent parentScan relationship relation grown joinable ih =>
    have hwired := grown.wired hstart
    have hall : Choice.all catalog store modes (scope.nodes ++ [node]) row =
        (Choice.all catalog store modes scope.nodes row).bind
          (Choice.extensions catalog store modes node) := Choice.all_append _ _ _
    rw [joinable.bindingsFrom_eq hwired, ← Multiset.coe_bind, ih, Multiset.bind_map,
      nodes_withNode, hall, Multiset.map_bind]
    apply Multiset.bind_congr
    intro choice _
    rw [Choice.extensions_of_parent? joinable.parent_eq, Multiset.map_map, Link.extend_eq,
      joinable.rows_eq hwired, ← Multiset.map_coe]
    apply Multiset.map_congr rfl
    intro added _
    -- the row of the new node is put behind the others, which stay as they are
    have hold : scope.binding (Function.update choice node added) = scope.binding choice := by
      apply binding_congr
      intro n hn
      apply Function.update_of_ne
      rintro rfl
      exact joinable.fresh hn
    rw [Function.comp_apply, binding_withNode, hold, Function.update_self]

end Scope

namespace SelectPlan.Spans
variable {catalog : Catalog} {store : Store} {modes : JoinModes} {tree : JoinTree}
  {nodes : List JoinNode} {scope : Scope} {plan : SelectPlan}

theorem parentsFirst (h : plan.Spans catalog modes tree nodes scope) :
    JoinNode.ParentsFirst scope.nodes := by
  obtain ⟨draft, hfresh, hgrown⟩ := h.grown
  exact hgrown.parentsFirst hfresh h.rootEntity_eq

theorem bindingsFrom_eq_map (h : plan.Spans catalog modes tree nodes scope) (row : Row) :
    (plan.bindingsFrom catalog store row : Multiset Binding) =
      (Choice.all catalog store modes scope.nodes row).map scope.binding := by
  obtain ⟨draft, hfresh, hgrown⟩ := h.grown
  rw [h.bindingsFrom_eq]
  exact hgrown.bindingsFrom_eq_map hfresh h.rootEntity_eq row

/-- What joins make of a root row follows the relations. -/
theorem follows_of_mem (h : plan.Spans catalog modes tree nodes scope) {row : Row} {choice : Choice}
    (hchoice : choice ∈ Choice.all catalog store modes scope.nodes row) :
    choice.Follows catalog store modes tree.root scope.nodes row := by
  have hbinding : scope.binding choice ∈ plan.bindingsFrom catalog store row := by
    rw [← Multiset.mem_coe, h.bindingsFrom_eq_map]
    exact Multiset.mem_map_of_mem _ hchoice
  obtain ⟨other, hother, heq⟩ := h.mem_bindingsFrom.mp hbinding
  have hagree : ∀ node ∈ scope.nodes, choice node = other node := by
    intro node hnode
    obtain ⟨scan, hscan⟩ := Scope.exists_scan hnode
    rw [← h.wired.row?_binding hscan choice, heq, h.wired.row?_binding hscan]
  refine ⟨?_, ?_⟩
  · rw [hagree _ h.wired.root_mem, hother.root_eq]
  · intro node hnode parent hparent
    rw [hagree node hnode, hagree parent (h.wired.parent_mem node hnode parent hparent)]
    exact hother.admits node hnode parent hparent

end SelectPlan.Spans

end CriteriaQuery
