import CriteriaQuery.People.Model
import CriteriaQuery.Proofs.Execution.Executable
import CriteriaQuery.Proofs.Plan.Draft

/-! The join stage as a list of tuples of positions. Each tuple takes a stored row for the root and
one for each join, or none where a left join finds none; the join stage returns every such tuple
once, in the order of the positions (`SelectPlan.joined_eq_tuples`). -/
namespace CriteriaQuery
open Outcome
set_option autoImplicit false

/-! ## Tuples -/

/-- The positions of the stored rows that a plan puts together: that of the root row, then one for
each join, `none` where nothing is joined. -/
structure Tuple where
  root : Nat
  slots : List (Option Nat)
deriving DecidableEq

namespace Tuple

def positions (t : Tuple) : List (Option Nat) := some t.root :: t.slots

/-- Positions are compared with positions only. -/
inductive SlotBefore : Option Nat → Option Nat → Prop
  | position {p q : Nat} (h : p < q) : SlotBefore (some p) (some q)

/-- A tuple comes before another one if it does so at the first slot in which they differ. -/
def Before (t u : Tuple) : Prop := List.Lex SlotBefore t.positions u.positions

theorem SlotBefore.irrefl (slot : Option Nat) : ¬SlotBefore slot slot := by
  rintro ⟨h⟩
  exact Nat.lt_irrefl _ h

theorem Before.ne {t u : Tuple} (h : t.Before u) : t ≠ u := by
  rintro rfl
  exact List.lex_irrefl SlotBefore.irrefl _ h

end Tuple

/-! ## What a plan asks of a tuple -/

namespace SelectPlan
variable (plan : SelectPlan) (catalog : Catalog) (store : Store)

/-- The relation that a join follows from the entity of its parent. -/
def relationOf? (join : Join) : Option Relation :=
  (plan.entityOf join.parentAlias).toOption.bind (catalog.relation? · join.relation)

/-- The root and all joins are declared, and each join hangs on the root or on an earlier join. -/
structure WellJoined : Prop where
  root_declared : ∃ entity, catalog.entity plan.rootEntity = .ok entity
  parent_mem : ∀ i join, plan.joins[i]? = some join →
    join.parentAlias ∈ plan.rootAlias :: (plan.joins.take i).map (·.aliasName)
  relation_declared : ∀ join ∈ plan.joins, ∃ relation, plan.relationOf? catalog join = some relation

/-- The row at a position among the stored rows of a join's target. -/
def slotRow? (join : Join) (slot : Option Nat) : Option Row := do
  let relation ← plan.relationOf? catalog join
  (store.rows relation.target)[← slot]?

/-- The binding of all aliases to the rows at the positions of a tuple. -/
def bindingOf (t : Tuple) : Binding where
  slots := (plan.rootAlias, (store.rows plan.rootEntity)[t.root]?) ::
    List.zipWith (fun join slot => (join.aliasName, plan.slotRow? catalog store join slot))
      plan.joins t.slots

/-- The key by which a join looks for rows: what the row in its parent's slot holds in the source
field, if that is not null. -/
def key? (t : Tuple) (join : Join) : Option Value := do
  let relation ← plan.relationOf? catalog join
  let row ← (plan.bindingOf catalog store t).row? join.parentAlias
  (row.get? relation.sourceField).filter (!·.isNull)

/-- The row at a position holds the key of a join in the target field. -/
def Matches (t : Tuple) (join : Join) (p : Nat) : Prop :=
  ∃ relation key row value, plan.relationOf? catalog join = some relation ∧
    plan.key? catalog store t join = some key ∧
    (store.rows relation.target)[p]? = some row ∧ row.get? relation.targetField = some value ∧
    key.equal value = true

/-- A join fills its slot with a row that matches; a left join leaves it empty if there is none. -/
def Fills (t : Tuple) (join : Join) : Option Nat → Prop
  | some p => plan.Matches catalog store t join p
  | none => join.type = .left ∧ ∀ p, ¬plan.Matches catalog store t join p

/-- The tuples that a plan puts together. -/
structure IsTuple (t : Tuple) : Prop where
  root_lt : t.root < (store.rows plan.rootEntity).length
  fills : List.Forall₂ (plan.Fills catalog store t) plan.joins t.slots

end SelectPlan

/-! ## The slots of a link -/

theorem forall₂_iff_of_mem {α β : Type} {R T : α → β → Prop} {l : List α} {r : List β}
    (h : ∀ a ∈ l, ∀ b, R a b ↔ T a b) : List.Forall₂ R l r ↔ List.Forall₂ T l r := by
  induction l generalizing r with
  | nil => simp
  | cons a l ih =>
    obtain ⟨hfirst, hrest⟩ := List.forall_mem_cons.mp h
    cases r with
    | nil => simp
    | cons b r => rw [List.forall₂_cons, List.forall₂_cons, hfirst, ih hrest]

theorem map_getElem?_range {α : Type} (l : List α) :
    (List.range l.length).map (l[·]?) = l.map some :=
  List.ext_getElem (by simp) (by simp)

/-- The positions of the items that pass a test, in order, lead to these items. -/
theorem map_getElem?_filter_range {α : Type} (l : List α) (test : α → Bool) :
    ((List.range l.length).filter (l[·]?.any test)).map (l[·]?) = (l.filter test).map some := by
  have hrange := congrArg (List.filter (Option.any test)) (map_getElem?_range l)
  rwa [List.filter_map, List.filter_map] at hrange

namespace Link
variable {store : Store} {link : Link} {links : List Link} {binding : Binding}

/-- The key by which a link looks for rows. -/
def key? (link : Link) (binding : Binding) : Option Value :=
  (binding.row? link.join.parentAlias).bind fun row =>
    (row.get? link.relation.sourceField).filter (!·.isNull)

/-- A row holds the key of a link. -/
def keyedBy (link : Link) (binding : Binding) (row : Row) : Bool :=
  (link.key? binding).any fun key => (row.get? link.relation.targetField).any key.equal

theorem rows_eq_filter : link.rows store binding =
    (store.rows link.relation.target).filter (link.keyedBy binding) := by
  have hrelates : ∀ source row, link.relation.relates source row =
      ((source.get? link.relation.sourceField).filter (!·.isNull)).any fun key =>
        (row.get? link.relation.targetField).any key.equal := by
    intro source row
    unfold Relation.relates
    cases source.get? link.relation.sourceField with
    | none => rfl
    | some key =>
      cases hnull : key.isNull <;> cases row.get? link.relation.targetField <;>
        simp [Option.filter, hnull]
  unfold rows keyedBy key? Relation.related
  cases binding.row? link.join.parentAlias with
  | none => simp
  | some source => exact congrArg (List.filter · _) (funext (hrelates source))

/-- The positions of the rows that a link finds. -/
def positions (store : Store) (link : Link) (binding : Binding) : List Nat :=
  (List.range (store.rows link.relation.target).length).filter
    ((store.rows link.relation.target)[·]?.any (link.keyedBy binding))

/-- The slots that a link adds to a binding. -/
def slots (store : Store) (link : Link) (binding : Binding) : List (Option Nat) :=
  match link.positions store binding, link.join.type with
  | [], .left => [none]
  | positions, _ => positions.map some

def slotRow? (store : Store) (link : Link) (slot : Option Nat) : Option Row :=
  slot.bind fun p => (store.rows link.relation.target)[p]?

def bindSlot (store : Store) (link : Link) (binding : Binding) (slot : Option Nat) : Binding :=
  binding.bind link.join.aliasName (link.slotRow? store slot)

theorem extend_eq_slots :
    link.extend store binding = (link.slots store binding).map (link.bindSlot store binding) := by
  have hrows : (link.positions store binding).map ((store.rows link.relation.target)[·]?) =
      (link.rows store binding).map some := by
    rw [rows_eq_filter]
    exact map_getElem?_filter_range _ _
  have hmap : (link.rows store binding).map (fun row => binding.bind link.join.aliasName (some row)) =
      ((link.positions store binding).map some).map (link.bindSlot store binding) := by
    have := congrArg (List.map (binding.bind link.join.aliasName)) hrows
    rw [List.map_map, List.map_map] at this
    rw [List.map_map]
    exact this.symm
  unfold extend slots
  cases hpositions : link.positions store binding with
  | nil =>
    have hnil : link.rows store binding = [] := by simpa [hpositions] using hrows.symm
    rw [hnil]
    cases link.join.type <;> rfl
  | cons p ps =>
    rw [hpositions] at hrows hmap
    cases hfound : link.rows store binding with
    | nil => simp [hfound] at hrows
    | cons row rest =>
      rw [hfound] at hmap
      exact hmap

theorem mem_positions {p : Nat} : p ∈ link.positions store binding ↔ ∃ key row value,
    link.key? binding = some key ∧ (store.rows link.relation.target)[p]? = some row ∧
      row.get? link.relation.targetField = some value ∧ key.equal value = true := by
  unfold positions keyedBy
  rw [List.mem_filter, List.mem_range]
  simp only [Option.any_eq_true]
  constructor
  · rintro ⟨-, row, hrow, key, hkey, value, hvalue, hequal⟩
    exact ⟨key, row, value, hkey, hrow, hvalue, hequal⟩
  · rintro ⟨key, row, value, hkey, hrow, hvalue, hequal⟩
    exact ⟨(List.getElem?_eq_some_iff.mp hrow).1, row, hrow, key, hkey, value, hvalue, hequal⟩

theorem some_mem_slots {p : Nat} :
    some p ∈ link.slots store binding ↔ p ∈ link.positions store binding := by
  unfold slots
  split
  · next hnil _ => simp [hnil]
  · simp

theorem none_mem_slots : none ∈ link.slots store binding ↔
    link.join.type = .left ∧ ∀ p, p ∉ link.positions store binding := by
  unfold slots
  split
  · next hnil hleft => simp [hnil, hleft]
  · next hnot =>
    refine iff_of_false (by simp) ?_
    rintro ⟨hleft, hnone⟩
    exact hnot (List.eq_nil_iff_forall_not_mem.mpr hnone) hleft

theorem pairwise_slots : (link.slots store binding).Pairwise Tuple.SlotBefore := by
  unfold slots
  split
  · exact List.pairwise_singleton _ _
  · rw [List.pairwise_map]
    exact (List.pairwise_lt_range.filter _).imp .position

/-! ## Chains of links -/

/-- The slots that links add to a binding one after the other. -/
def chains (store : Store) : List Link → Binding → List (List (Option Nat))
  | [], _ => [[]]
  | link :: links, binding => (link.slots store binding).flatMap fun slot =>
      (chains store links (link.bindSlot store binding slot)).map (slot :: ·)

def bindSlots (store : Store) : List Link → List (Option Nat) → Binding → Binding
  | link :: links, slot :: slots, binding =>
    bindSlots store links slots (link.bindSlot store binding slot)
  | _, _, binding => binding

theorem extendAll_eq_chains (links : List Link) (binding : Binding) :
    Link.extendAll store links [binding] =
      (chains store links binding).map (bindSlots store links · binding) := by
  induction links generalizing binding with
  | nil => rfl
  | cons link links ih =>
    rw [extendAll_cons, List.flatMap_singleton, extendAll_eq_flatMap, extend_eq_slots,
      List.flatMap_map, chains, List.map_flatMap]
    congr 1
    funext slot
    rw [ih, List.map_map]
    rfl

theorem pairwise_chains (links : List Link) (binding : Binding) :
    (chains store links binding).Pairwise (List.Lex Tuple.SlotBefore) := by
  induction links generalizing binding with
  | nil => exact List.pairwise_singleton _ _
  | cons link links ih =>
    rw [chains, List.pairwise_flatMap]
    constructor
    · intro slot _
      rw [List.pairwise_map]
      exact (ih _).imp .cons
    · refine pairwise_slots.imp ?_
      intro first second hbefore
      simp only [List.mem_map]
      rintro _ ⟨rest, -, rfl⟩ _ ⟨other, -, rfl⟩
      exact .rel hbefore

theorem slots_bindSlots (links : List Link) (slots : List (Option Nat)) (binding : Binding) :
    (bindSlots store links slots binding).slots = binding.slots ++
      List.zipWith (fun link slot => (link.join.aliasName, link.slotRow? store slot)) links slots := by
  induction links generalizing slots binding with
  | nil => simp [bindSlots]
  | cons link links ih =>
    cases slots with
    | nil => simp [bindSlots]
    | cons slot slots => simp [bindSlots, ih, bindSlot, Binding.bind]

/-- What is bound later does not hide what was bound before. -/
theorem row?_bindSlots {aliasName : String} (slots : List (Option Nat))
    (h : aliasName ∈ binding.aliases) :
    (bindSlots store links slots binding).row? aliasName = binding.row? aliasName := by
  obtain ⟨row, hrow⟩ := Binding.find?_isSome h
  unfold Binding.row?
  rw [slots_bindSlots, List.find?_append, hrow]
  rfl

theorem slots_congr {other : Binding}
    (h : other.row? link.join.parentAlias = binding.row? link.join.parentAlias) :
    link.slots store other = link.slots store binding := by
  unfold slots positions keyedBy key?
  rw [h]

/-- A chain of slots is one in which each link finds its slot in the binding of all of them. -/
theorem mem_chains {catalog : Catalog} {scans : List Scan} {joins : List Join}
    (hlinks : Join.links? catalog scans joins = some links)
    (haliases : binding.aliases = scans.map (·.aliasName)) (slots : List (Option Nat)) :
    slots ∈ chains store links binding ↔
      List.Forall₂ (fun link slot => slot ∈ link.slots store (bindSlots store links slots binding))
        links slots := by
  induction joins generalizing scans links binding slots with
  | nil =>
    cases hlinks
    simp [chains]
  | cons join rest ih =>
    obtain ⟨link, others, hlink, hothers, rfl⟩ := Join.links?_cons.mp hlinks
    obtain ⟨entity, relation, hentity, -, rfl⟩ := Join.link?_eq_some.mp hlink
    have hparent : join.parentAlias ∈ binding.aliases := by
      rw [haliases]
      exact List.mem_map.mpr ⟨_, Scan.mem_of_entityIn? hentity, rfl⟩
    rw [chains, List.mem_flatMap]
    simp only [List.mem_map]
    cases slots with
    | nil => simp
    | cons slot slots =>
      have hnext : ((⟨join, relation⟩ : Link).bindSlot store binding slot).aliases =
          (scans ++ [join.scan]).map (·.aliasName) := by
        rw [bindSlot, Binding.aliases_bind, haliases]
        simp [Join.scan]
      rw [List.forall₂_cons, slots_congr (row?_bindSlots _ hparent), bindSlots, ← ih hothers hnext]
      constructor
      · rintro ⟨first, hfirst, chain, hchain, heq⟩
        cases heq
        exact ⟨hfirst, hchain⟩
      · rintro ⟨hfirst, hchain⟩
        exact ⟨slot, hfirst, slots, hchain, rfl⟩

end Link

/-! ## The joins of a plan -/

namespace SelectPlan
variable {plan : SelectPlan} {catalog : Catalog} {store : Store} {links : List Link}

theorem exists_links {scans : List Scan} {joins : List Join}
    (hscans : plan.scans = scans ++ joins.map Join.scan)
    (hparent : ∀ i join, joins[i]? = some join →
      join.parentAlias ∈ (scans ++ (joins.take i).map Join.scan).map (·.aliasName))
    (hrelation : ∀ join ∈ joins, ∃ relation, plan.relationOf? catalog join = some relation) :
    ∃ links, Join.links? catalog scans joins = some links ∧
      ∀ link ∈ links, plan.relationOf? catalog link.join = some link.relation := by
  induction joins generalizing scans with
  | nil => exact ⟨[], rfl, nofun⟩
  | cons join rest ih =>
    have hscans' : plan.scans = (scans ++ [join.scan]) ++ rest.map Join.scan := by
      rw [hscans]
      simp
    obtain ⟨links, hlinks, hall⟩ := ih hscans'
      (fun i other hother => by simpa using hparent (i + 1) other hother)
      (fun other hother => hrelation other (List.mem_cons_of_mem _ hother))
    obtain ⟨relation, hrelation⟩ := hrelation join List.mem_cons_self
    have hbound : join.parentAlias ∈ scans.map (·.aliasName) := by simpa using hparent 0 join rfl
    obtain ⟨entity, hentity⟩ : ∃ entity, Scan.entityIn? scans join.parentAlias = some entity := by
      obtain ⟨scan, hscan, heq⟩ := List.mem_map.mp hbound
      have hfound : (scans.find? (·.aliasName = join.parentAlias)).isSome :=
        List.find?_isSome.mpr ⟨scan, hscan, by simpa using heq⟩
      obtain ⟨found, hfound⟩ := Option.isSome_iff_exists.mp hfound
      exact ⟨found.entity, by rw [Scan.entityIn?, hfound]; rfl⟩
    have hof : plan.entityOf join.parentAlias = .ok entity := by
      apply entityOf_eq
      rw [hscans]
      exact Scan.entityIn?_append _ hentity
    have hdeclared : catalog.relation? entity join.relation = some relation := by
      rw [relationOf?, hof] at hrelation
      exact hrelation
    refine ⟨⟨join, relation⟩ :: links, Join.links?_cons.mpr ⟨_, links, ?_, hlinks, rfl⟩, ?_⟩
    · exact Join.link?_eq_some.mpr ⟨entity, relation, hentity, hdeclared, rfl⟩
    · exact List.forall_mem_cons.mpr ⟨hrelation, hall⟩

theorem WellJoined.exists_links (h : plan.WellJoined catalog) :
    ∃ links, plan.links? catalog = some links ∧
      ∀ link ∈ links, plan.relationOf? catalog link.join = some link.relation := by
  refine SelectPlan.exists_links rfl ?_ h.relation_declared
  intro i join hjoin
  have hmem := h.parent_mem i join hjoin
  simpa [rootScan, Join.scan, Function.comp_def] using hmem

/-- The root alias alone, bound to the row at a position. -/
def rootBinding (plan : SelectPlan) (store : Store) (root : Nat) : Binding :=
  ⟨[(plan.rootAlias, (store.rows plan.rootEntity)[root]?)]⟩

theorem fills_iff {link : Link}
    (hrelation : plan.relationOf? catalog link.join = some link.relation) (t : Tuple)
    (slot : Option Nat) :
    plan.Fills catalog store t link.join slot ↔
      slot ∈ link.slots store (plan.bindingOf catalog store t) := by
  have hkey : plan.key? catalog store t link.join = link.key? (plan.bindingOf catalog store t) := by
    rw [key?, hrelation]
    rfl
  have hmatches : ∀ p, plan.Matches catalog store t link.join p ↔
      p ∈ link.positions store (plan.bindingOf catalog store t) := by
    intro p
    rw [Link.mem_positions, Matches, hrelation, hkey]
    constructor
    · rintro ⟨relation, key, row, value, hsome, h⟩
      cases hsome
      exact ⟨key, row, value, h⟩
    · rintro ⟨key, row, value, h⟩
      exact ⟨_, key, row, value, rfl, h⟩
  cases slot with
  | some p => rw [Link.some_mem_slots, ← hmatches]; exact Iff.rfl
  | none => rw [Link.none_mem_slots]; simp only [← hmatches]; exact Iff.rfl

section Links
variable (hlinks : plan.links? catalog = some links)
  (hrelations : ∀ link ∈ links, plan.relationOf? catalog link.join = some link.relation)
include hlinks hrelations

theorem bindingOf_eq (t : Tuple) : plan.bindingOf catalog store t =
    Link.bindSlots store links t.slots (plan.rootBinding store t.root) := by
  have hzip : ∀ (part : List Link) (slots : List (Option Nat)), part ⊆ links →
      List.zipWith (fun link slot => (link.join.aliasName, plan.slotRow? catalog store link.join slot))
        part slots =
      List.zipWith (fun link slot => (link.join.aliasName, link.slotRow? store slot)) part slots := by
    intro part
    induction part with
    | nil => exact fun _ _ => rfl
    | cons link part ih =>
      intro slots hsubset
      cases slots with
      | nil => rfl
      | cons slot slots =>
        obtain ⟨hlink, hpart⟩ := List.cons_subset.mp hsubset
        rw [List.zipWith_cons_cons, List.zipWith_cons_cons, ih slots hpart, slotRow?,
          hrelations link hlink]
        cases slot <;> rfl
  have hbinding : (Link.bindSlots store links t.slots (plan.rootBinding store t.root)).slots =
      (plan.bindingOf catalog store t).slots := by
    rw [Link.slots_bindSlots, bindingOf, ← Join.map_join_of_links? hlinks, List.zipWith_map_left,
      hzip links t.slots (List.Subset.refl _)]
    rfl
  exact congrArg Binding.mk hbinding.symm

/-- The tuples of a plan are the chains of slots of its links behind the root rows. -/
theorem isTuple_iff (t : Tuple) : plan.IsTuple catalog store t ↔
    t.root < (store.rows plan.rootEntity).length ∧
      t.slots ∈ Link.chains store links (plan.rootBinding store t.root) := by
  have hjoins : links.map (·.join) = plan.joins := Join.map_join_of_links? hlinks
  have hfills : List.Forall₂ (plan.Fills catalog store t) plan.joins t.slots ↔
      List.Forall₂ (fun link slot => slot ∈ link.slots store (plan.bindingOf catalog store t)) links
        t.slots := by
    rw [← hjoins, List.forall₂_map_left_iff]
    exact forall₂_iff_of_mem fun link hlink => fills_iff (hrelations link hlink) t
  rw [Link.mem_chains hlinks rfl, ← bindingOf_eq hlinks hrelations, ← hfills]
  exact ⟨fun h => ⟨h.root_lt, h.fills⟩, fun h => ⟨h.1, h.2⟩⟩

end Links

/-- All tuples of a plan, in the order of the join stage. -/
def tuples (plan : SelectPlan) (store : Store) (links : List Link) : List Tuple :=
  (List.range (store.rows plan.rootEntity).length).flatMap fun root =>
    (Link.chains store links (plan.rootBinding store root)).map (Tuple.mk root)

theorem pairwise_tuples (plan : SelectPlan) (store : Store) (links : List Link) :
    (plan.tuples store links).Pairwise Tuple.Before := by
  unfold tuples
  rw [List.pairwise_flatMap]
  constructor
  · intro root _
    rw [List.pairwise_map]
    exact (Link.pairwise_chains links _).imp .cons
  · refine List.pairwise_lt_range.imp ?_
    intro first second hlt
    simp only [List.mem_map]
    rintro _ ⟨slots, -, rfl⟩ _ ⟨others, -, rfl⟩
    exact .rel (.position hlt)

theorem mem_tuples {t : Tuple} : t ∈ plan.tuples store links ↔
    t.root < (store.rows plan.rootEntity).length ∧
      t.slots ∈ Link.chains store links (plan.rootBinding store t.root) := by
  unfold tuples
  rw [List.mem_flatMap]
  simp only [List.mem_range, List.mem_map]
  constructor
  · rintro ⟨root, hroot, slots, hslots, rfl⟩
    exact ⟨hroot, hslots⟩
  · rintro ⟨hroot, hslots⟩
    exact ⟨t.root, hroot, t.slots, hslots, rfl⟩

theorem joined_eq_map_tuples {entity : Entity} (hlinks : plan.links? catalog = some links)
    (hrelations : ∀ link ∈ links, plan.relationOf? catalog link.join = some link.relation)
    (hroot : catalog.entity? plan.rootEntity = some entity) :
    plan.joined catalog store =
      .ok ((plan.tuples store links).map (plan.bindingOf catalog store)) := by
  have hrow : ∀ row, plan.bindingsFrom catalog store row =
      Link.extendAll store links [Binding.root plan.rootAlias row] := by
    intro row
    rw [bindingsFrom, hlinks]
  have hrows : (store.rows plan.rootEntity).flatMap (plan.bindingsFrom catalog store) =
      (List.range (store.rows plan.rootEntity).length).flatMap fun root =>
        Link.extendAll store links [plan.rootBinding store root] := by
    have hrange := congrArg (List.flatMap fun row? => Link.extendAll store links
      [⟨[(plan.rootAlias, row?)]⟩]) (map_getElem?_range (store.rows plan.rootEntity))
    rw [List.flatMap_map, List.flatMap_map] at hrange
    rw [funext hrow]
    exact hrange.symm
  rw [joined_eq store hroot hlinks, hrows, tuples, List.map_flatMap]
  congr 2
  funext root
  rw [Link.extendAll_eq_chains, List.map_map]
  refine List.map_congr_left fun slots _ => ?_
  exact (bindingOf_eq hlinks hrelations ⟨root, slots⟩).symm

/-- The join stage loses nothing and invents nothing. It binds the aliases of a plan to the rows of
each of its tuples once, in the lexicographic order of positions. A join whose parent has no row, or
a row without a key, is left empty in all of them. Aliases may repeat; the first one counts. -/
theorem joined_eq_tuples (store : Store) (h : plan.WellJoined catalog) :
    ∃ tuples : List Tuple,
      plan.joined catalog store = .ok (tuples.map (plan.bindingOf catalog store)) ∧
      tuples.Nodup ∧ tuples.Pairwise Tuple.Before ∧
      (∀ t, t ∈ tuples ↔ plan.IsTuple catalog store t) ∧
      ∀ t ∈ tuples, List.Forall₂ (fun join slot =>
        plan.key? catalog store t join = none → join.type = .left ∧ slot = none) plan.joins
        t.slots := by
  obtain ⟨links, hlinks, hrelations⟩ := h.exists_links
  obtain ⟨entity, hentity⟩ := h.root_declared
  have hpairwise := pairwise_tuples plan store links
  have hmem : ∀ t, t ∈ plan.tuples store links ↔ plan.IsTuple catalog store t := fun t =>
    mem_tuples.trans (isTuple_iff hlinks hrelations t).symm
  refine ⟨plan.tuples store links, ?_, hpairwise.imp Tuple.Before.ne, hpairwise, hmem, ?_⟩
  · exact joined_eq_map_tuples hlinks hrelations (Catalog.entity?_of_entity_eq_ok hentity)
  · intro t ht
    refine ((hmem t).mp ht).fills.imp fun join slot hfills hnone => ?_
    cases slot with
    | some p =>
      obtain ⟨_, _, _, _, -, hkey, -⟩ := hfills
      rw [hnone] at hkey
      cases hkey
    | none => exact ⟨hfills.1, rfl⟩

end SelectPlan

/-! ## The children of one parent -/

namespace People

def parentOfTwo : Store :=
  .withRows {} "Person" [⟨[("id", .int64 1)]⟩, ⟨[("id", .int64 2), ("parentId", .int64 1)]⟩,
    ⟨[("id", .int32 3), ("parentId", .int32 1)]⟩]

/-- People with their children, and from each child back to the parent. -/
def thereAndBack : SelectPlan :=
  { SelectPlan.scan "Person" "t0" with
    joins := [⟨"t1", "t0", "children", "Person", .left, true⟩,
      ⟨"t2", "t1", "parent", "Person", .inner, false⟩] }

/-- Those without children get past the first join, but not past the second one. -/
theorem joined_eq_tuples_of_parentOfTwo :
    thereAndBack.WellJoined catalog ∧ ∃ tuples : List Tuple,
      thereAndBack.joined catalog parentOfTwo =
        .ok (tuples.map (thereAndBack.bindingOf catalog parentOfTwo)) ∧
      tuples.length = 2 ∧ tuples.Nodup ∧ tuples.Pairwise Tuple.Before ∧
      ∀ t, t ∈ tuples ↔ thereAndBack.IsTuple catalog parentOfTwo t := by
  have hwell : thereAndBack.WellJoined catalog := by
    refine ⟨⟨_, rfl⟩, ?_, ?_⟩
    · intro i join hjoin
      match i, hjoin with
      | 0, rfl => exact List.mem_cons_self
      | 1, rfl => exact List.mem_cons_of_mem _ List.mem_cons_self
    · exact List.forall_mem_cons.mpr ⟨⟨_, rfl⟩, List.forall_mem_cons.mpr ⟨⟨_, rfl⟩, nofun⟩⟩
  obtain ⟨tuples, hjoined, hnodup, hpairwise, hmem, -⟩ :=
    SelectPlan.joined_eq_tuples parentOfTwo hwell
  obtain ⟨bindings, hbindings, hlength⟩ : ∃ bindings,
      thereAndBack.joined catalog parentOfTwo = .ok bindings ∧ bindings.length = 2 := ⟨_, rfl, rfl⟩
  refine ⟨hwell, tuples, hjoined, ?_, hnodup, hpairwise, hmem⟩
  cases hbindings.symm.trans hjoined
  rwa [List.length_map] at hlength

end People

end CriteriaQuery
