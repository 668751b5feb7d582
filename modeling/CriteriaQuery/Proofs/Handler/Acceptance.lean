import CriteriaQuery.Join.Scope
import CriteriaQuery.People.Search
import CriteriaQuery.Proofs.Join.Tree
import CriteriaQuery.Proofs.Outcome

/-! Which configurations a handler is made for. The checks of a configuration run over lists and
compare with what they have seen so far; together they find no fault exactly if no two nodes of the
configuration share an identifier, and the tree is that of the root
(`HandlerConfig.fault?_eq_none_iff`). What a handler keeps by identifier is then kept by node
(`Handler.create_succeeds_iff`). -/
namespace CriteriaQuery
open Outcome
set_option autoImplicit false

namespace HandlerConfig
variable {C S : Type}

/-! ## Checks that run over a list -/

theorem clash?_eq_none {seen nodes : List JoinNode}
    (h : ∀ a ∈ seen ++ nodes, ∀ b ∈ seen ++ nodes, a.id = b.id → a = b) :
    clash? seen nodes = none := by
  induction nodes generalizing seen with
  | nil => rfl
  | cons node rest ih =>
    have hnode : node ∈ seen ++ node :: rest := by simp
    rw [clash?]
    cases hfind : seen.find? (·.id = node.id) with
    | some other =>
      have hmem : other ∈ seen := List.mem_of_find?_eq_some hfind
      have hid : other.id = node.id := by simpa using List.find?_some hfind
      have heq : other = node := h other (List.mem_append_left _ hmem) node hnode hid
      have hkeep : ∀ a ∈ seen ++ rest, a ∈ seen ++ node :: rest := by
        intro a ha
        rw [List.mem_append] at ha ⊢
        exact ha.imp_right (List.mem_cons_of_mem node)
      simp only [heq, if_true]
      exact ih fun a ha b hb => h a (hkeep a ha) b (hkeep b hb)
    | none =>
      simp only
      apply ih
      simpa using h

/-- Nodes of which no two share an identifier may be followed by others without a clash exactly if
that stays so. The search compares with one node of each identifier only, which is enough. -/
theorem clash?_eq_none_iff {seen nodes : List JoinNode}
    (hseen : ∀ a ∈ seen, ∀ b ∈ seen, a.id = b.id → a = b) : clash? seen nodes = none ↔
      ∀ a ∈ seen ++ nodes, ∀ b ∈ seen ++ nodes, a.id = b.id → a = b :=
  ⟨fun h => eq_of_clash?_eq_none h hseen, clash?_eq_none⟩

theorem repeated?_eq_none_iff [DecidableEq S] {seen items : List S} :
    repeated? seen items = none ↔ items.Nodup ∧ ∀ item ∈ items, item ∉ seen := by
  induction items generalizing seen with
  | nil => simp [repeated?]
  | cons item rest ih =>
    rw [repeated?, List.nodup_cons, List.forall_mem_cons]
    by_cases hin : item ∈ seen
    · simp [hin]
    · rw [if_neg hin, ih]
      simp only [List.mem_cons, not_or]
      constructor
      · rintro ⟨hrest, hnew⟩
        have hitem : item ∉ rest := fun hmem => (hnew item hmem).1 rfl
        exact ⟨⟨hitem, hrest⟩, hin, fun other hother => (hnew other hother).2⟩
      · rintro ⟨⟨hitem, hrest⟩, -, hnew⟩
        refine ⟨hrest, fun other hother => ⟨?_, hnew other hother⟩⟩
        rintro rfl
        exact hitem hother

/-! ## Faults -/

theorem rootFault?_eq_none_iff {config : HandlerConfig C S} :
    config.rootFault? = none ↔ config.root.parent? = none := by
  rw [JoinNode.parent?_eq_none, rootFault?]
  split <;> simp_all

theorem foreignFault?_eq_none_iff {config : HandlerConfig C S} :
    config.foreignFault? = none ↔ ∀ node ∈ config.nodes, node.rootNode.id = config.root.id := by
  simp [foreignFault?]

theorem nodeFault?_eq_none_iff {config : HandlerConfig C S} : config.nodeFault? = none ↔
    ∀ a b, config.OnPaths a → config.OnPaths b → a.id = b.id → a = b := by
  have hroot : ∀ a ∈ [config.root], ∀ b ∈ [config.root], a.id = b.id → a = b := by
    intro a ha b hb _
    rw [List.mem_singleton.mp ha, List.mem_singleton.mp hb]
  rw [nodeFault?, Option.map_eq_none_iff, clash?_eq_none_iff hroot]
  exact ⟨fun h a b ha hb => h a ha b hb, fun h a ha b hb => h a b ha hb⟩

variable [DecidableEq S]

theorem sortFault?_eq_none_iff {config : HandlerConfig C S} :
    config.sortFault? = none ↔ (config.sorts.map (·.identifier)).Nodup := by
  simp [sortFault?, repeated?_eq_none_iff]

/-- A configuration in which identifiers stand for nodes: the root has no parent, all nodes are
rooted under its identifier, no two nodes on their paths share one, nor do two sorts. -/
structure Unambiguous (config : HandlerConfig C S) : Prop where
  parent?_root : config.root.parent? = none
  rootNode_id : ∀ node ∈ config.nodes, node.rootNode.id = config.root.id
  eq_of_id : ∀ a b, config.OnPaths a → config.OnPaths b → a.id = b.id → a = b
  nodup_sorts : (config.sorts.map (·.identifier)).Nodup

theorem fault?_eq_none_iff {config : HandlerConfig C S} :
    config.fault? = none ↔ config.Unambiguous := by
  rw [fault?, Option.or_eq_none_iff, Option.or_eq_none_iff, Option.or_eq_none_iff,
    rootFault?_eq_none_iff, foreignFault?_eq_none_iff, nodeFault?_eq_none_iff,
    sortFault?_eq_none_iff]
  constructor
  · rintro ⟨hroot, hforeign, hnodes, hsorts⟩
    exact ⟨hroot, hforeign, hnodes, hsorts⟩
  · rintro ⟨hroot, hforeign, hnodes, hsorts⟩
    exact ⟨hroot, hforeign, hnodes, hsorts⟩

end HandlerConfig

/-! ## Handlers -/

namespace Handler
variable {C S : Type} [DecidableEq S] {catalog : Catalog} {config : HandlerConfig C S}
  {handler : Handler C S}

theorem create_eq_ok (h : create catalog config = .ok handler) :
    handler.catalog = catalog ∧ handler.config = config := by
  unfold create at h
  split at h
  · cases h
    exact ⟨rfl, rfl⟩
  · cases h

theorem exists_create_iff :
    (∃ handler, create catalog config = .ok handler) ↔ config.fault? = none := by
  constructor
  · rintro ⟨handler, h⟩
    rw [← (create_eq_ok h).2]
    exact handler.accepted
  · intro h
    refine ⟨⟨catalog, config, h⟩, ?_⟩
    unfold create
    split
    · rfl
    · rename_i fault hfault
      rw [h] at hfault
      cases hfault

/-- A handler is made exactly for a configuration in which identifiers stand for nodes. In it, nodes
on the paths share an identifier, and with it an entry among modes and among scans, only if they are
one node. -/
theorem create_succeeds_iff (catalog : Catalog) (config : HandlerConfig C S) :
    ((∃ handler, create catalog config = .ok handler) ↔ config.Unambiguous) ∧
      ∀ handler, create catalog config = .ok handler →
        handler.catalog = catalog ∧ handler.config = config ∧
        ∀ a b, config.OnPaths a → config.OnPaths b → (a.id = b.id ↔ a = b) ∧
          (∀ (modes : JoinModes) (mode : JoinMode), (JoinModes.require mode a modes).get? b =
            if a = b then some (((modes.get? a).getD .identity).merge mode) else modes.get? b) ∧
          ∀ (scope : Scope) (scan : Scan),
            ({ scope with scans := Scope.note a scan scope.scans } : Scope).get? b =
              if a = b then some scan else scope.get? b := by
  refine ⟨exists_create_iff.trans HandlerConfig.fault?_eq_none_iff, ?_⟩
  intro handler h
  obtain ⟨hcatalog, hconfig⟩ := create_eq_ok h
  have hfault : config.fault? = none := exists_create_iff.mp ⟨handler, h⟩
  refine ⟨hcatalog, hconfig, ?_⟩
  intro a b ha hb
  have hid : a.id = b.id ↔ a = b :=
    ⟨(HandlerConfig.fault?_eq_none_iff.mp hfault).eq_of_id a b ha hb, congrArg JoinNode.id⟩
  refine ⟨hid, ?_, ?_⟩
  · intro modes mode
    rw [JoinModes.get?_require]
    simp only [hid]
  · intro scope scan
    rw [Scope.get?_note]
    simp only [hid]

end Handler

namespace People

/-- People by what they can be sorted by, and nothing else. -/
def onlySorts (sorts : List (ConfiguredSort PersonSort)) : HandlerConfig Unit PersonSort where
  root := Node.person
  idColumn := "id"
  restrictions := []
  sorts := sorts
  showSort := PersonSort.shown

/-- A node that is not the business of a person, though it bears its identifier. -/
def otherBusiness : JoinNode := .child 4 "business" "Business" Node.person ⟨"employer", .single⟩

theorem create_succeeds_iff_of_otherBusiness :
    (onlySorts sorts).Unambiguous ∧
      (∀ a b, (onlySorts sorts).OnPaths a → (onlySorts sorts).OnPaths b → (a.id = b.id ↔ a = b)) ∧
      ¬(onlySorts (⟨.noMapping, otherBusiness, "name"⟩ :: sorts)).Unambiguous := by
  refine ⟨(Handler.create_succeeds_iff catalog (onlySorts sorts)).1.mp ⟨_, rfl⟩, ?_, ?_⟩
  · intro a b ha hb
    exact (((Handler.create_succeeds_iff catalog (onlySorts sorts)).2 _ rfl).2.2 a b ha hb).1
  · intro h
    obtain ⟨handler, hcreate⟩ := (Handler.create_succeeds_iff catalog _).1.mpr h
    cases hcreate

end People

end CriteriaQuery
