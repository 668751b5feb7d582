import CriteriaQuery.Sorted
import Mathlib.Data.List.Sort
import Mathlib.Data.List.Basic

/-! Stable sorting. A list is a stable sort of another if it has the same items in order, and the
items on each level in the order in which they were. There is only one such list
(`Sorted.StableSort.unique`), and merging from either end gives it (`Sorted.StableSort.merge`). -/
namespace CriteriaQuery
set_option autoImplicit false

namespace Sorted
variable {α β : Type} {before : α → α → Bool} {P : α → Prop} {r : α → α → Prop}

/-! ## Orders -/

/-- A strict order of the items of which `P` holds, as far as it tells them apart. -/
structure WeakOrder (before : α → α → Bool) (P : α → Prop) : Prop where
  asymm : ∀ {x y : α}, P x → P y → before x y = true → before y x = false
  trans : ∀ {x y z : α}, P x → P y → P z → before x y = false → before y z = false →
    before x z = false

namespace WeakOrder
variable {x y z : α}

theorem comap (h : WeakOrder before P) (f : β → α) :
    WeakOrder (fun x y => before (f x) (f y)) fun x => P (f x) where
  asymm := h.asymm
  trans := h.trans

theorem map {f : β → α} {P : β → Prop} (h : WeakOrder (fun x y => before (f x) (f y)) P) :
    WeakOrder before fun x => ∃ y, P y ∧ f y = x where
  asymm := by
    rintro _ _ ⟨x, hx, rfl⟩ ⟨y, hy, rfl⟩
    exact h.asymm hx hy
  trans := by
    rintro _ _ _ ⟨x, hx, rfl⟩ ⟨y, hy, rfl⟩ ⟨z, hz, rfl⟩
    exact h.trans hx hy hz

theorem flip (h : WeakOrder before P) : WeakOrder (fun x y => before y x) P where
  asymm hx hy := h.asymm hy hx
  trans hx hy hz hxy hyz := h.trans hz hy hx hyz hxy

theorem irrefl (h : WeakOrder before P) (hx : P x) : before x x = false := by
  by_contra hself
  rw [Bool.not_eq_false] at hself
  exact Bool.false_ne_true ((h.asymm hx hx hself).symm.trans hself)

/-- An item before another one is before all that do not come before that one. -/
theorem before_of_before (h : WeakOrder before P) (hx : P x) (hy : P y) (hz : P z)
    (hxy : before x y = true) (hzy : before z y = false) : before x z = true := by
  by_contra hxz
  rw [Bool.not_eq_true] at hxz
  exact Bool.false_ne_true ((h.trans hx hz hy hxz hzy).symm.trans hxy)

end WeakOrder

/-- Neither item comes before the other. -/
def level (before : α → α → Bool) (x y : α) : Bool := !before x y && !before y x

theorem level_eq_true {x y : α} :
    level before x y = true ↔ before x y = false ∧ before y x = false := by
  rw [level, Bool.and_eq_true, Bool.not_eq_true', Bool.not_eq_true']

theorem level_flip (x : α) : level (fun x y => before y x) x = level before x :=
  funext fun _ => Bool.and_comm _ _

/-- If an item comes before all of a list, then nothing on its level is in there. -/
theorem filter_level_eq_nil (h : WeakOrder before P) {x y : α} {items : List α} (hx : P x)
    (hy : P y) (hitems : ∀ z ∈ items, P z) (hlevel : level before x y = true)
    (hbefore : ∀ z ∈ items, before y z = true) : items.filter (level before x) = [] := by
  rw [List.filter_eq_nil_iff]
  intro z hz hxz
  have hyz := h.trans hy hx (hitems z hz) (level_eq_true.mp hlevel).2 (level_eq_true.mp hxz).1
  exact Bool.false_ne_true (hyz.symm.trans (hbefore z hz))

/-! ## Stable sorts -/

/-- No item comes before an earlier one. -/
def Ordered (before : α → α → Bool) (items : List α) : Prop :=
  items.Pairwise fun x y => before y x = false

/-- Ordered lists with the same items on the level of each start with the same item. -/
theorem Ordered.head_eq (hweak : WeakOrder before P) {x y : α} {xs ys : List α} (hx : P x)
    (hxs : Ordered before (x :: xs)) (hys : Ordered before (y :: ys)) (hy : P y)
    (hmem : x ∈ y :: ys) (hmem' : y ∈ x :: xs)
    (hlevel : (x :: xs).filter (level before x) = (y :: ys).filter (level before x)) : x = y := by
  have hyx : before y x = false := by
    rcases List.mem_cons.mp hmem' with rfl | h
    · exact hweak.irrefl hy
    · exact List.rel_of_pairwise_cons hxs h
  have hxy : before x y = false := by
    rcases List.mem_cons.mp hmem with rfl | h
    · exact hweak.irrefl hx
    · exact List.rel_of_pairwise_cons hys h
  have hself := hweak.irrefl hx
  rw [List.filter_cons_of_pos (level_eq_true.mpr ⟨hself, hself⟩),
    List.filter_cons_of_pos (level_eq_true.mpr ⟨hxy, hyx⟩)] at hlevel
  exact (List.cons.inj hlevel).1

/-- Ordered lists with the same items on the level of each are the same. -/
theorem Ordered.eq_of_level (hweak : WeakOrder before P) {xs ys : List α} (hperm : xs.Perm ys)
    (hxs : Ordered before xs) (hys : Ordered before ys) (hP : ∀ x ∈ xs, P x)
    (hlevel : ∀ x, P x → xs.filter (level before x) =
      ys.filter (level before x)) : xs = ys := by
  induction xs generalizing ys with
  | nil => exact hperm.nil_eq
  | cons x xs ih =>
    cases ys with
    | nil => exact hperm.eq_nil
    | cons y ys =>
      have hx : P x := hP x List.mem_cons_self
      have hy : P y := hP y (hperm.mem_iff.mpr List.mem_cons_self)
      obtain rfl : x = y := Ordered.head_eq hweak hx hxs hys hy
        (hperm.mem_iff.mp List.mem_cons_self) (hperm.mem_iff.mpr List.mem_cons_self) (hlevel x hx)
      rw [ih hperm.cons_inv hxs.of_cons hys.of_cons
        (fun z hz => hP z (List.mem_cons_of_mem x hz))]
      intro z hz
      have h := hlevel z hz
      rw [List.filter_cons, List.filter_cons] at h
      split at h
      · exact (List.cons.inj h).2
      · exact h

/-- A list has the items of another one in order, and those on the level of each item of which `P`
holds in the order in which they were. -/
structure StableSort (before : α → α → Bool) (P : α → Prop) (items sorted : List α) : Prop where
  perm : sorted.Perm items
  ordered : Ordered before sorted
  levelwise : ∀ x, P x → sorted.filter (level before x) = items.filter (level before x)

/-- An item stands rightly in front of another: it comes before it, or the other one does not, and
`r` puts it first. -/
def InPlace (before : α → α → Bool) (r : α → α → Prop) (x y : α) : Prop :=
  before x y = true ∨ before y x = false ∧ r x y

namespace StableSort
variable {items sorted : List α}

theorem refl (h : Ordered before items) : StableSort before P items items :=
  ⟨.refl _, h, fun _ _ => rfl⟩

theorem forall_mem (h : StableSort before P items sorted) (hitems : ∀ x ∈ items, P x) :
    ∀ x ∈ sorted, P x := fun x hx => hitems x (h.perm.mem_iff.mp hx)

theorem reverse (h : StableSort before P items sorted) :
    StableSort (fun x y => before y x) P items.reverse sorted.reverse where
  perm := (List.reverse_perm _).trans (h.perm.trans (List.reverse_perm _).symm)
  ordered := List.pairwise_reverse.mpr h.ordered
  levelwise x hx := by
    rw [level_flip, List.filter_reverse, List.filter_reverse, h.levelwise x hx]

/-- Items stand in place, and where they are level in the order in which they were. -/
theorem pairwise (h : StableSort before P items sorted) (hweak : WeakOrder before P)
    (hitems : ∀ x ∈ items, P x) (hr : items.Pairwise r) :
    sorted.Pairwise (InPlace before r) := by
  rw [List.pairwise_iff_forall_sublist]
  intro x y hxy
  have hyx : before y x = false := List.pairwise_iff_forall_sublist.mp h.ordered hxy
  by_cases hbefore : before x y = true
  · exact .inl hbefore
  rw [Bool.not_eq_true] at hbefore
  have hx : P x := h.forall_mem hitems x (hxy.subset List.mem_cons_self)
  have hself := hweak.irrefl hx
  -- both items are on the level of the first one
  have hpair := hxy.filter (level before x)
  rw [List.filter_cons_of_pos (level_eq_true.mpr ⟨hself, hself⟩),
    List.filter_cons_of_pos (level_eq_true.mpr ⟨hbefore, hyx⟩), h.levelwise x hx] at hpair
  exact .inr ⟨hyx, List.pairwise_iff_forall_sublist.mp hr (hpair.trans List.filter_sublist)⟩

theorem unique (hweak : WeakOrder before P) {sorted' : List α}
    (h : StableSort before P items sorted) (h' : StableSort before P items sorted')
    (hitems : ∀ x ∈ items, P x) : sorted = sorted' :=
  Ordered.eq_of_level hweak (h.perm.trans h'.perm.symm) h.ordered h'.ordered (h.forall_mem hitems)
    fun x hx => (h.levelwise x hx).trans (h'.levelwise x hx).symm

end StableSort

/-! ## Merging -/

section
variable {left right xs ys : List α}

theorem mergeFront_nil (right : List α) : mergeFront before [] right = right := by
  rw [mergeFront, List.nil_merge]

theorem mergeFront_nil_right (left : List α) : mergeFront before left [] = left := by
  rw [mergeFront, List.merge_right]

theorem mergeFront_cons_cons (x y : α) (left right : List α) :
    mergeFront before (x :: left) (y :: right) =
      if before y x then y :: mergeFront before (x :: left) right
      else x :: mergeFront before left (y :: right) := by
  rw [mergeFront, List.cons_merge_cons]
  cases before y x <;> rfl

theorem mergeFront_perm (before : α → α → Bool) (left right : List α) :
    (mergeFront before left right).Perm (left ++ right) := List.merge_perm_append _

theorem mergeBack_perm (before : α → α → Bool) (left right : List α) :
    (mergeBack before left right).Perm (left ++ right) := by
  have h := mergeFront_perm (fun x y => before y x) right.reverse left.reverse
  rw [← List.reverse_append] at h
  exact (List.reverse_perm _).trans (h.trans (List.reverse_perm _))

theorem merge_perm (before : α → α → Bool) (left right : List α) :
    (merge before left right).Perm (left ++ right) := by
  rw [merge]
  split
  · exact mergeFront_perm before left right
  · exact mergeBack_perm before left right

/-- Merging ordered lists keeps the order, and on each level has the items of the left list first. -/
theorem mergeFront_ordered (hweak : WeakOrder before P) (hleft : Ordered before left)
    (hright : Ordered before right) (hl : ∀ x ∈ left, P x) (hr : ∀ y ∈ right, P y) :
    Ordered before (mergeFront before left right) ∧
      ∀ z, P z → (mergeFront before left right).filter (level before z) =
        left.filter (level before z) ++ right.filter (level before z) := by
  induction left generalizing right with
  | nil =>
    rw [mergeFront_nil]
    exact ⟨hright, fun z _ => rfl⟩
  | cons x left ihleft =>
    induction right with
    | nil =>
      rw [mergeFront_nil_right]
      exact ⟨hleft, fun z _ => (List.append_nil _).symm⟩
    | cons y right ihright =>
      have hx := hl x List.mem_cons_self
      have hy := hr y List.mem_cons_self
      have hpairs := List.pairwise_cons.mp hleft
      have hpairs' := List.pairwise_cons.mp hright
      have hl' : ∀ z ∈ left, P z := fun z hz => hl z (List.mem_cons_of_mem x hz)
      have hr' : ∀ z ∈ right, P z := fun z hz => hr z (List.mem_cons_of_mem y hz)
      rw [mergeFront_cons_cons]
      by_cases hbefore : before y x = true
      -- the right item is before all of the left list
      · have habove : ∀ z ∈ x :: left, before y z = true := by
          rw [List.forall_mem_cons]
          exact ⟨hbefore, fun z hz =>
            hweak.before_of_before hy hx (hl' z hz) hbefore (hpairs.1 z hz)⟩
        obtain ⟨hordered, hlevel⟩ := ihright hpairs'.2 hr'
        rw [if_pos hbefore]
        refine ⟨List.pairwise_cons.mpr ⟨fun z hz => ?_, hordered⟩, fun z hz => ?_⟩
        · rcases List.mem_append.mp ((mergeFront_perm before _ _).mem_iff.mp hz) with hz | hz
          · exact hweak.asymm hy (hl z hz) (habove z hz)
          · exact hpairs'.1 z hz
        · rw [List.filter_cons, List.filter_cons (x := y), hlevel z hz]
          split
          · next hzy =>
            rw [filter_level_eq_nil hweak hz hy hl hzy habove]
            rfl
          · rfl
      · obtain ⟨hordered, hlevel⟩ := ihleft hpairs.2 hright hl' hr
        rw [if_neg hbefore]
        rw [Bool.not_eq_true] at hbefore
        refine ⟨List.pairwise_cons.mpr ⟨fun z hz => ?_, hordered⟩, fun z hz => ?_⟩
        · rcases List.mem_append.mp ((mergeFront_perm before _ _).mem_iff.mp hz) with hz | hz
          · exact hpairs.1 z hz
          · rcases List.mem_cons.mp hz with rfl | hz
            · exact hbefore
            · exact hweak.trans (hr' z hz) hy hx (hpairs'.1 z hz) hbefore
        · rw [List.filter_cons, List.filter_cons (x := x), hlevel z hz]
          split <;> rfl

end

namespace StableSort
variable {items xs ys left right : List α}

theorem mergeFront (hweak : WeakOrder before P) (hleft : StableSort before P xs left)
    (hright : StableSort before P ys right) (hxs : ∀ x ∈ xs, P x) (hys : ∀ y ∈ ys, P y) :
    StableSort before P (xs ++ ys) (mergeFront before left right) := by
  obtain ⟨hordered, hlevel⟩ := mergeFront_ordered hweak hleft.ordered hright.ordered
    (hleft.forall_mem hxs) (hright.forall_mem hys)
  refine ⟨(mergeFront_perm before left right).trans (hleft.perm.append hright.perm), hordered, ?_⟩
  intro z hz
  rw [hlevel z hz, hleft.levelwise z hz, hright.levelwise z hz, List.filter_append]

/-- Merging from the back is merging from the front, seen from the other side. -/
theorem mergeBack (hweak : WeakOrder before P) (hleft : StableSort before P xs left)
    (hright : StableSort before P ys right) (hxs : ∀ x ∈ xs, P x) (hys : ∀ y ∈ ys, P y) :
    StableSort before P (xs ++ ys) (mergeBack before left right) := by
  have h := hright.reverse.mergeFront hweak.flip hleft.reverse
    (fun y hy => hys y (List.mem_reverse.mp hy)) (fun x hx => hxs x (List.mem_reverse.mp hx))
  rw [← List.reverse_append] at h
  have h' := h.reverse
  rw [List.reverse_reverse] at h'
  exact h'

theorem merge (hweak : WeakOrder before P) (hleft : StableSort before P xs left)
    (hright : StableSort before P ys right) (hxs : ∀ x ∈ xs, P x) (hys : ∀ y ∈ ys, P y) :
    StableSort before P (xs ++ ys) (merge before left right) := by
  rw [CriteriaQuery.Sorted.merge]
  split
  · exact hleft.mergeFront hweak hright hxs hys
  · exact hleft.mergeBack hweak hright hxs hys

end StableSort

theorem mergeBack_eq (hweak : WeakOrder before P) {left right : List α}
    (hleft : Ordered before left) (hright : Ordered before right) (hl : ∀ x ∈ left, P x)
    (hr : ∀ y ∈ right, P y) : mergeBack before left right = mergeFront before left right := by
  have hback := (StableSort.refl hleft).mergeBack hweak (.refl hright) hl hr
  have hfront := (StableSort.refl hleft).mergeFront hweak (.refl hright) hl hr
  exact hback.unique hweak hfront (List.forall_mem_append.mpr ⟨hl, hr⟩)

/-! ## Insertion -/

section
variable (before)

theorem insert_reverse (item : α) (done : List α) :
    insert before item done.reverse = (mergeBack before done [item]).reverse := by
  rw [mergeBack, List.reverse_reverse, List.reverse_singleton]
  induction done.reverse with
  | nil => rw [mergeFront_nil_right, insert]
  | cons last rest ih =>
    rw [insert, mergeFront_cons_cons, mergeFront_nil, ih]

theorem insertAll_cons (done : List α) (item : α) (rest : List α) :
    insertAll before done (item :: rest) = insertAll before (mergeBack before done [item]) rest := by
  rw [insertAll, insertAll, List.foldl_cons, insert_reverse]

theorem insertAll_perm (done items : List α) :
    (insertAll before done items).Perm (done ++ items) := by
  induction items generalizing done with
  | nil =>
    rw [insertAll, List.foldl_nil, List.reverse_reverse, List.append_nil]
  | cons item rest ih =>
    rw [insertAll_cons]
    refine (ih _).trans (((mergeBack_perm before done [item]).append_right rest).trans ?_)
    rw [List.append_assoc, List.singleton_append]

theorem ofList_perm (items : List α) : (ofList before items).Perm items :=
  insertAll_perm before [] items

end

namespace StableSort

theorem insertAll (hweak : WeakOrder before P) {xs done items : List α}
    (h : StableSort before P xs done) (hxs : ∀ x ∈ xs, P x) (hitems : ∀ x ∈ items, P x) :
    StableSort before P (xs ++ items) (insertAll before done items) := by
  induction items generalizing xs done with
  | nil =>
    rw [CriteriaQuery.Sorted.insertAll, List.foldl_nil, List.reverse_reverse, List.append_nil]
    exact h
  | cons item rest ih =>
    rw [List.forall_mem_cons] at hitems
    have hitem : ∀ x ∈ [item], P x := List.forall_mem_singleton.mpr hitems.1
    rw [insertAll_cons, List.append_cons]
    exact ih (h.mergeBack hweak (.refl (List.pairwise_singleton _ item)) hxs hitem)
      (List.forall_mem_append.mpr ⟨hxs, hitem⟩) hitems.2

theorem ofList (hweak : WeakOrder before P) {items : List α} (hitems : ∀ x ∈ items, P x) :
    StableSort before P items (ofList before items) :=
  insertAll hweak (.refl List.Pairwise.nil) (fun _ h => absurd h List.not_mem_nil) hitems

end StableSort

end Sorted

end CriteriaQuery
