import CriteriaQuery.Proofs.Sorted.Stable
import Mathlib.Algebra.Order.Group.Multiset
import Mathlib.Tactic.Abel

/-! Blocks. The halves of a block are merged from both ends at once. What one end has taken from the
halves is a cut of both, and two cuts of the same lists are in line (`Sorted.Cut.length_le`): under
an order the ends meet, and the block is sorted (`Sorted.exists_block`). Whatever the comparison is,
a block that is sorted keeps its items (`Sorted.block_perm`). -/
namespace CriteriaQuery
set_option autoImplicit false

namespace Sorted
variable {α : Type} {before : α → α → Bool} {P : α → Prop}

/-! ## Taking from a merge -/

/-- What is taken from a merge are beginnings of both lists, and the rest is merged behind it. -/
theorem takeMerged_split (before : α → α → Bool) (n : Nat) (left right : List α) :
    ∃ l r, left = l ++ (takeMerged before n left right).left ∧
      right = r ++ (takeMerged before n left right).right ∧
      (takeMerged before n left right).items.Perm (l ++ r) ∧
      mergeFront before left right = (takeMerged before n left right).items ++
        mergeFront before (takeMerged before n left right).left
          (takeMerged before n left right).right := by
  fun_induction takeMerged before n left right with
  | case1 left right => exact ⟨[], [], rfl, rfl, .refl _, rfl⟩
  | case2 n x left y right hbefore ih =>
    obtain ⟨l, r, hl, hr, hperm, hmerge⟩ := ih
    refine ⟨l, y :: r, hl, congrArg (y :: ·) hr, (hperm.cons y).trans List.perm_middle.symm, ?_⟩
    rw [mergeFront_cons_cons, if_pos hbefore, hmerge]
    rfl
  | case3 n x left y right hbefore ih =>
    obtain ⟨l, r, hl, hr, hperm, hmerge⟩ := ih
    refine ⟨x :: l, r, congrArg (x :: ·) hl, hr, hperm.cons x, ?_⟩
    rw [mergeFront_cons_cons, if_neg hbefore, hmerge]
    rfl
  | case4 n x left ih =>
    obtain ⟨l, r, hl, hr, hperm, hmerge⟩ := ih
    refine ⟨x :: l, r, congrArg (x :: ·) hl, hr, hperm.cons x, ?_⟩
    rw [mergeFront_nil_right] at hmerge ⊢
    exact congrArg (x :: ·) hmerge
  | case5 n y right ih =>
    obtain ⟨l, r, hl, hr, hperm, hmerge⟩ := ih
    refine ⟨l, y :: r, hl, congrArg (y :: ·) hr, (hperm.cons y).trans List.perm_middle.symm, ?_⟩
    rw [mergeFront_nil] at hmerge ⊢
    exact congrArg (y :: ·) hmerge
  | case6 n => exact ⟨[], [], rfl, rfl, .refl _, rfl⟩

theorem length_takeMerged (before : α → α → Bool) {n : Nat} {left right : List α}
    (h : n ≤ left.length + right.length) :
    (takeMerged before n left right).items.length = n := by
  fun_induction takeMerged before n left right with
  | case1 left right => rfl
  | case2 n x left y right hbefore ih => exact congrArg (· + 1) (ih (Nat.le_of_succ_le_succ h))
  | case3 n x left y right hbefore ih =>
    rw [List.length_cons, Nat.add_right_comm] at h
    exact congrArg (· + 1) (ih (Nat.le_of_succ_le_succ h))
  | case4 n x left ih =>
    rw [List.length_cons, Nat.add_right_comm] at h
    exact congrArg (· + 1) (ih (Nat.le_of_succ_le_succ h))
  | case5 n y right ih => exact congrArg (· + 1) (ih (Nat.le_of_succ_le_succ h))
  | case6 n => exact absurd h (Nat.not_succ_le_zero n)

/-! ## Cuts -/

/-- A merge can take the beginnings `l` and `r` of two lists before their ends `l'` and `r'`. -/
structure Cut (before : α → α → Bool) (l r l' r' : List α) : Prop where
  left : ∀ x ∈ l, ∀ y ∈ r', before y x = false
  right : ∀ y ∈ r, ∀ x ∈ l', before y x = true

theorem eq_nil_or_eq_nil {a b : List α} (hleft : ∀ x ∈ a, ∀ y ∈ b, before y x = false)
    (hright : ∀ y ∈ b, ∀ x ∈ a, before y x = true) : a = [] ∨ b = [] := by
  rcases a with _ | ⟨x, a⟩
  · exact .inl rfl
  rcases b with _ | ⟨y, b⟩
  · exact .inr rfl
  have htrue := hright y List.mem_cons_self x List.mem_cons_self
  exact absurd ((hleft x List.mem_cons_self y List.mem_cons_self).symm.trans htrue)
    Bool.false_ne_true

/-- Of two cuts of the same lists, the one that takes fewer items takes no more from either list. -/
theorem Cut.length_le {l r l' r' m s m' s' : List α} (h : Cut before l r l' r')
    (h' : Cut before m s m' s') (hleft : l ++ l' = m ++ m') (hright : r ++ r' = s ++ s')
    (hlength : l.length + r.length ≤ m.length + s.length) :
    l.length ≤ m.length ∧ r.length ≤ s.length := by
  rcases List.append_eq_append_iff.mp hleft with ⟨a, rfl, rfl⟩ | ⟨a, rfl, rfl⟩ <;>
    rcases List.append_eq_append_iff.mp hright with ⟨b, rfl, rfl⟩ | ⟨b, rfl, rfl⟩ <;>
    simp only [List.length_append] at hlength ⊢
  · omega
  -- cuts that cross have nothing between them in one of the lists
  · have hnil : a = [] ∨ b = [] := eq_nil_or_eq_nil
      (fun x hx y hy => h'.left x (List.mem_append_right l hx) y (List.mem_append_left r' hy))
      (fun y hy x hx => h.right y (List.mem_append_right s hy) x (List.mem_append_left m' hx))
    rcases hnil with rfl | rfl <;> simp only [List.length_nil] at hlength ⊢ <;> omega
  · have hnil : a = [] ∨ b = [] := eq_nil_or_eq_nil
      (fun x hx y hy => h.left x (List.mem_append_right m hx) y (List.mem_append_left s' hy))
      (fun y hy x hx => h'.right y (List.mem_append_right r hy) x (List.mem_append_left l' hx))
    rcases hnil with rfl | rfl <;> simp only [List.length_nil] at hlength ⊢ <;> omega
  · omega

/-- What is taken from the merge of ordered lists is a cut. -/
theorem exists_cut (hweak : WeakOrder before P) (n : Nat) {left right : List α}
    (hleft : Ordered before left) (hright : Ordered before right) (hl : ∀ x ∈ left, P x)
    (hr : ∀ y ∈ right, P y) :
    ∃ l r, left = l ++ (takeMerged before n left right).left ∧
      right = r ++ (takeMerged before n left right).right ∧
      Cut before l r (takeMerged before n left right).left
        (takeMerged before n left right).right := by
  fun_induction takeMerged before n left right with
  | case1 left right => exact ⟨[], [], rfl, rfl, ⟨nofun, nofun⟩⟩
  | case2 n x left y right hbefore ih =>
    have hpairs := List.pairwise_cons.mp hleft
    rw [List.forall_mem_cons] at hr
    obtain ⟨l, r, hleft', hright', hcut⟩ := ih hleft hright.of_cons hl hr.2
    refine ⟨l, y :: r, hleft', congrArg (y :: ·) hright', hcut.left, ?_⟩
    refine List.forall_mem_cons.mpr ⟨fun z hz => ?_, hcut.right⟩
    have hz : z ∈ x :: left := hleft' ▸ List.mem_append_right l hz
    rcases List.mem_cons.mp hz with rfl | hz'
    · exact hbefore
    · exact hweak.before_of_before hr.1 (hl x List.mem_cons_self) (hl z hz) hbefore
        (hpairs.1 z hz')
  | case3 n x left y right hbefore ih =>
    rw [Bool.not_eq_true] at hbefore
    have hpairs := List.pairwise_cons.mp hright
    rw [List.forall_mem_cons] at hl
    obtain ⟨l, r, hleft', hright', hcut⟩ := ih hleft.of_cons hright hl.2 hr
    refine ⟨x :: l, r, congrArg (x :: ·) hleft', hright', ?_, hcut.right⟩
    refine List.forall_mem_cons.mpr ⟨fun z hz => ?_, hcut.left⟩
    have hz : z ∈ y :: right := hright' ▸ List.mem_append_right r hz
    rcases List.mem_cons.mp hz with rfl | hz'
    · exact hbefore
    · exact hweak.trans (hr z hz) (hr y List.mem_cons_self) hl.1 (hpairs.1 z hz') hbefore
  | case4 n x left ih =>
    rw [List.forall_mem_cons] at hl
    obtain ⟨l, r, hleft', hright', hcut⟩ := ih hleft.of_cons hright hl.2 hr
    refine ⟨x :: l, r, congrArg (x :: ·) hleft', hright', ?_, hcut.right⟩
    have hnone := (List.append_eq_nil_iff.mp hright'.symm).2
    rw [Taken.behind, hnone]
    exact fun _ _ => nofun
  | case5 n y right ih =>
    rw [List.forall_mem_cons] at hr
    obtain ⟨l, r, hleft', hright', hcut⟩ := ih hleft hright.of_cons hl hr.2
    refine ⟨l, y :: r, hleft', congrArg (y :: ·) hright', hcut.left, ?_⟩
    have hnone := (List.append_eq_nil_iff.mp hleft'.symm).2
    rw [Taken.behind, hnone]
    exact fun _ _ => nofun
  | case6 n => exact ⟨[], [], rfl, rfl, ⟨nofun, nofun⟩⟩

theorem Cut.reverse {l r l' r' : List α} (h : Cut (fun x y => before y x) r l r' l') :
    Cut before l'.reverse r'.reverse l.reverse r.reverse where
  left x hx y hy := h.left y (List.mem_reverse.mp hy) x (List.mem_reverse.mp hx)
  right y hy x hx := h.right x (List.mem_reverse.mp hx) y (List.mem_reverse.mp hy)

theorem length_of_takeMerged {n : Nat} {left right l r : List α}
    (h : n ≤ left.length + right.length)
    (hl : left = l ++ (takeMerged before n left right).left)
    (hr : right = r ++ (takeMerged before n left right).right) : l.length + r.length = n := by
  obtain ⟨l', r', hl', hr', hperm, -⟩ := takeMerged_split before n left right
  have hlength := hperm.length_eq
  rw [length_takeMerged before h, List.length_append] at hlength
  rw [List.append_cancel_right (hl.symm.trans hl'), List.append_cancel_right (hr.symm.trans hr')]
  exact hlength.symm

/-! ## Merging from both ends -/

section
variable {left right : List α} {front back : Taken α}

/-- The middle item comes from one of both lists, or there is none. -/
theorem Taken.exists_middle (left right : List α) (front back : Taken α) :
    ∃ l r, front.left = l ++ (Taken.middle left right front back).left ∧
      front.right = r ++ (Taken.middle left right front back).right ∧
      (Taken.middle left right front back).items = l ++ r ∧ (l ++ r).length ≤ 1 := by
  unfold Taken.middle
  split
  · exact ⟨[], [], rfl, rfl, rfl, Nat.zero_le 1⟩
  split
  · refine ⟨front.left.take 1, [], (List.take_append_drop 1 _).symm, rfl,
      (List.append_nil _).symm, ?_⟩
    rw [List.append_nil]
    exact List.length_take_le 1 _
  · exact ⟨[], front.right.take 1, rfl, (List.take_append_drop 1 _).symm, rfl,
      List.length_take_le 1 _⟩

/-- A list of which one end is cut off in front and another behind, so that both make it up. -/
theorem eq_append_reverse {items a rest b others : List α} (hfront : items = a ++ rest)
    (hback : items.reverse = b ++ others) (hlength : rest.length + others.length = items.length) :
    items = a ++ b.reverse := by
  have hback' : items = others.reverse ++ b.reverse := by
    rw [← List.reverse_append, ← hback, List.reverse_reverse]
  have hfirst : a.length = others.reverse.length := by
    have hsum := congrArg List.length hfront
    rw [List.length_append] at hsum
    rw [List.length_reverse]
    omega
  rw [List.append_inj_left (hfront.symm.trans hback') hfirst]
  exact hback'

/-- If the ends meet, then all items have been taken once. -/
theorem meet_perm {merged : List α} (h : meet before left right = some merged) :
    merged.Perm (left ++ right) := by
  obtain ⟨l, r, hl, hr, hperm, -⟩ := takeMerged_split before left.length left right
  obtain ⟨r', l', hr', hl', hperm', -⟩ :=
    takeMerged_split (fun x y => before y x) left.length right.reverse left.reverse
  obtain ⟨ml, mr, hml, hmr, hitems, -⟩ := Taken.exists_middle left right
    (takeMerged before left.length left right)
    (takeMerged (fun x y => before y x) left.length right.reverse left.reverse)
  rw [hml, ← List.append_assoc] at hl
  rw [hmr, ← List.append_assoc] at hr
  rw [meet] at h
  split at h
  · next hmet =>
    have hlefts := eq_append_reverse hl hl' hmet.1
    have hrights := eq_append_reverse hr hr' hmet.2
    cases h
    rw [hitems]
    refine ((hperm.append_right _).append ((List.reverse_perm _).trans hperm')).trans ?_
    rw [hlefts, hrights, ← Multiset.coe_eq_coe]
    simp only [← Multiset.coe_add, Multiset.coe_reverse]
    abel
  · cases h

/-- The ends meet if together they take half of the items each and neither takes what the other one
has taken: `l` and `r` are what the front takes. -/
theorem Taken.length_middle {l r : List α} (hlength : right.length = left.length ∨
      right.length = left.length + 1) (hl : left = l ++ front.left) (hr : right = r ++ front.right)
    (hhalf : l.length + r.length = left.length)
    (hrest : back.right.length + back.left.length = right.length)
    (hfits : back.right.length ≤ left.length)
    (hline : l.length ≤ back.right.length ∧ r.length ≤ back.left.length) :
    (Taken.middle left right front back).left.length + back.right.length = left.length ∧
      (Taken.middle left right front back).right.length + back.left.length = right.length := by
  have hlefts := congrArg List.length hl
  have hrights := congrArg List.length hr
  rw [List.length_append] at hlefts hrights
  unfold Taken.middle
  split
  · dsimp only
    constructor <;> omega
  split
  · simp only [List.length_drop]
    constructor <;> omega
  · simp only [List.length_drop]
    constructor <;> omega

/-- Under an order the ends meet. -/
theorem exists_meet (hweak : WeakOrder before P) (hleft : Ordered before left)
    (hright : Ordered before right) (hl : ∀ x ∈ left, P x) (hr : ∀ y ∈ right, P y)
    (hlength : right.length = left.length ∨ right.length = left.length + 1) :
    ∃ middle : List α, middle.length ≤ 1 ∧ meet before left right =
      some ((takeMerged before left.length left right).items ++ middle ++
        (takeMerged (fun x y => before y x) left.length right.reverse
          left.reverse).items.reverse) := by
  obtain ⟨l, r, hlefts, hrights, hcut⟩ := exists_cut hweak left.length hleft hright hl hr
  obtain ⟨r', l', hrights', hlefts', hcut'⟩ := exists_cut hweak.flip left.length
    (List.pairwise_reverse.mpr hright) (List.pairwise_reverse.mpr hleft)
    (fun y hy => hr y (List.mem_reverse.mp hy)) (fun x hx => hl x (List.mem_reverse.mp hx))
  have hfront := length_of_takeMerged (by omega) hlefts hrights
  have hback := length_of_takeMerged (by simp only [List.length_reverse]; omega) hrights' hlefts'
  obtain ⟨_, _, _, _, hitems, hmiddle⟩ := Taken.exists_middle left right
    (takeMerged before left.length left right)
    (takeMerged (fun x y => before y x) left.length right.reverse left.reverse)
  refine ⟨_, hitems ▸ hmiddle, if_pos ?_⟩
  generalize takeMerged before left.length left right = front at *
  generalize takeMerged (fun x y => before y x) left.length right.reverse left.reverse = back at *
  have hsum := congrArg List.length hrights'
  have hsum' := congrArg List.length hlefts'
  rw [List.length_reverse, List.length_append] at hsum hsum'
  have hrest : back.right.length + back.left.length = right.length := by omega
  apply Taken.length_middle hlength hlefts hrights hfront hrest (by omega)
  have hline := hcut.length_le hcut'.reverse
    (by rw [← hlefts, ← List.reverse_append, ← hlefts', List.reverse_reverse])
    (by rw [← hrights, ← List.reverse_append, ← hrights', List.reverse_reverse])
    (by simp only [List.length_reverse]; omega)
  simpa only [List.length_reverse] using hline

theorem eq_of_perm_between {a b m w : List α} (h : (a ++ m ++ b).Perm (a ++ w ++ b))
    (hm : m.length ≤ 1) : m = w := by
  have hperm := (List.perm_append_left_iff a).mp ((List.perm_append_right_iff b).mp h)
  match m with
  | [] => exact hperm.nil_eq
  | [x] => exact (List.perm_singleton.mp hperm.symm).symm

/-- Under an order, merging from both ends is merging. -/
theorem meet_eq_mergeFront (hweak : WeakOrder before P) (hleft : Ordered before left)
    (hright : Ordered before right) (hl : ∀ x ∈ left, P x) (hr : ∀ y ∈ right, P y)
    (hlength : right.length = left.length ∨ right.length = left.length + 1) :
    meet before left right = some (mergeFront before left right) := by
  obtain ⟨middle, hmiddle, hmeet⟩ := exists_meet hweak hleft hright hl hr hlength
  have hperm := (meet_perm hmeet).trans (mergeFront_perm before left right).symm
  obtain ⟨_, _, _, _, _, hfront⟩ := takeMerged_split before left.length left right
  obtain ⟨_, _, _, _, _, hback⟩ :=
    takeMerged_split (fun x y => before y x) left.length right.reverse left.reverse
  have hitems : (takeMerged before left.length left right).items.length = left.length :=
    length_takeMerged before (by omega)
  have hitems' : (takeMerged (fun x y => before y x) left.length right.reverse
      left.reverse).items.length = left.length :=
    length_takeMerged _ (by simp only [List.length_reverse]; omega)
  have hreverse := congrArg List.reverse hback
  rw [← mergeBack, mergeBack_eq hweak hleft hright hl hr, List.reverse_append] at hreverse
  generalize (takeMerged before left.length left right).items = first at *
  generalize (takeMerged (fun x y => before y x) left.length right.reverse left.reverse).items =
    last at *
  -- the merge starts with what the front takes and ends with what the back takes
  obtain ⟨between, hbetween⟩ : ∃ between,
      mergeFront before left right = first ++ between ++ last.reverse := by
    have hlengths := congrArg List.length hreverse
    have htotal := (mergeFront_perm before left right).length_eq
    rw [List.length_append, @List.length_reverse _ last] at hlengths
    rw [List.length_append] at htotal
    obtain ⟨between, hbetween⟩ :=
      List.prefix_of_prefix_length_le ⟨_, hfront.symm⟩ ⟨_, hreverse.symm⟩ (by omega)
    exact ⟨between, by rw [hbetween, ← hreverse]⟩
  rw [hmeet, hbetween]
  rw [hbetween] at hperm
  rw [eq_of_perm_between hperm hmiddle]

end

/-! ## Halves and blocks -/

theorem between_eq (first x y last : α) :
    between before first x y last = first :: (mergeFront before [x] [y] ++ [last]) := by
  rw [between, ordered, mergeFront_cons_cons, mergeFront_nil, mergeFront_nil_right]
  cases before y x <;> rfl

theorem between_perm (first x y last : α) :
    (between before first x y last).Perm [first, x, y, last] := by
  rw [between_eq]
  exact ((mergeFront_perm before [x] [y]).append_right [last]).cons first

theorem ordered_eq (x y : α) :
    [(ordered before x y).1, (ordered before x y).2] = mergeFront before [x] [y] := by
  rw [ordered, mergeFront_cons_cons, mergeFront_nil, mergeFront_nil_right]
  cases before y x <;> rfl

theorem four_perm (p q r s : α) : (four before p q r s).Perm [p, q, r, s] := by
  have hpairs := (mergeFront_perm before [p] [q]).append (mergeFront_perm before [r] [s])
  rw [← ordered_eq, ← ordered_eq] at hpairs
  refine List.Perm.trans ?_ hpairs
  rw [four]
  generalize ordered before p q = ab, ordered before r s = cd
  obtain ⟨a, b⟩ := ab
  obtain ⟨c, d⟩ := cd
  have hthird : [c, a, b, d].Perm [a, b, c, d] := (@List.perm_middle _ c [a, b] [d]).symm
  dsimp only
  split
  · exact between_perm a b c d
  · exact (between_perm a c d b).trans ((@List.perm_middle _ b [c, d] []).cons a)
  · exact (between_perm c a b d).trans hthird
  · exact (between_perm c a d b).trans ((((List.Perm.swap b d []).cons a).cons c).trans hthird)

theorem stable_pair (hweak : WeakOrder before P) {x y : α} (hx : P x) (hy : P y) :
    StableSort before P [x, y] (mergeFront before [x] [y]) :=
  (StableSort.refl (List.pairwise_singleton _ x)).mergeFront hweak
    (.refl (List.pairwise_singleton _ y)) (List.forall_mem_singleton.mpr hx)
    (List.forall_mem_singleton.mpr hy)

/-- Under an order, four items are sorted by merging two pairs. -/
theorem four_eq (hweak : WeakOrder before P) {p q r s : α} (hp : P p) (hq : P q) (hr : P r)
    (hs : P s) : four before p q r s =
      mergeFront before (mergeFront before [p] [q]) (mergeFront before [r] [s]) := by
  have hpq := stable_pair hweak hp hq
  have hrs := stable_pair hweak hr hs
  have hpq' := hpq.forall_mem (by simp [hp, hq])
  have hrs' := hrs.forall_mem (by simp [hr, hs])
  rw [← ordered_eq] at hpq hrs hpq' hrs' ⊢
  rw [← ordered_eq, four]
  generalize ordered before p q = ab, ordered before r s = cd at *
  obtain ⟨a, b⟩ := ab
  obtain ⟨c, d⟩ := cd
  obtain ⟨ha, hb⟩ : P a ∧ P b := by simpa using hpq'
  obtain ⟨hc, hd⟩ : P c ∧ P d := by simpa using hrs'
  have hba : before b a = false := List.rel_of_pairwise_cons hpq.ordered List.mem_cons_self
  have hdc : before d c = false := List.rel_of_pairwise_cons hrs.ordered List.mem_cons_self
  dsimp only
  split
  · next hca hdb =>
    cases hcb : before c b <;>
      simp [between_eq, mergeFront_cons_cons, mergeFront_nil, mergeFront_nil_right, hca, hdb, hcb]
  · next hca hdb =>
    have hcb : before c b = true := by
      by_contra h
      rw [Bool.not_eq_true] at h
      exact Bool.false_ne_true ((hweak.trans hd hc hb hdc h).symm.trans hdb)
    simp [between_eq, mergeFront_cons_cons, mergeFront_nil, mergeFront_nil_right, hca, hdb, hcb,
      hdc]
  · next hca hdb =>
    have hda := hweak.trans hd hb ha hdb hba
    simp [between_eq, mergeFront_cons_cons, mergeFront_nil, hca, hdb, hda, hba]
  · next hca hdb =>
    cases hda : before d a <;>
      simp [between_eq, mergeFront_cons_cons, mergeFront_nil, mergeFront_nil_right, hca, hdb, hda]

theorem half_perm (before : α → α → Bool) (eight : Bool) (items : List α) :
    (half before eight items).Perm items := by
  unfold half
  split
  · next p q r s rest =>
    exact (insertAll_perm before _ rest).trans ((four_perm p q r s).append_right rest)
  · exact ofList_perm before _

theorem half_stable (hweak : WeakOrder before P) (eight : Bool) {items : List α}
    (hitems : ∀ x ∈ items, P x) : StableSort before P items (half before eight items) := by
  unfold half
  split
  · next p q r s rest =>
    obtain ⟨hp, hq, hr, hs, hrest⟩ : P p ∧ P q ∧ P r ∧ P s ∧ ∀ x ∈ rest, P x := by
      simpa only [List.forall_mem_cons] using hitems
    have hpairs := (stable_pair hweak hp hq).mergeFront hweak (stable_pair hweak hr hs)
      (by simp [hp, hq]) (by simp [hr, hs])
    rw [← four_eq hweak hp hq hr hs] at hpairs
    exact hpairs.insertAll hweak (by simp [hp, hq, hr, hs]) hrest
  · exact StableSort.ofList hweak hitems

/-- Under an order, a block is sorted. -/
theorem exists_block (hweak : WeakOrder before P) {items : List α} (hitems : ∀ x ∈ items, P x) :
    ∃ sorted, block before items = some sorted ∧ StableSort before P items sorted := by
  have hfirst : ∀ x ∈ items.take (items.length / 2), P x :=
    fun x hx => hitems x (List.mem_of_mem_take hx)
  have hlast : ∀ x ∈ items.drop (items.length / 2), P x :=
    fun x hx => hitems x (List.mem_of_mem_drop hx)
  have hleft := half_stable hweak (8 ≤ items.length) hfirst
  have hright := half_stable hweak (8 ≤ items.length) hlast
  have hmerged := hleft.mergeFront hweak hright hfirst hlast
  rw [List.take_append_drop] at hmerged
  refine ⟨_, meet_eq_mergeFront hweak hleft.ordered hright.ordered (hleft.forall_mem hfirst)
    (hright.forall_mem hlast) ?_, hmerged⟩
  rw [hleft.perm.length_eq, hright.perm.length_eq, List.length_take, List.length_drop]
  omega

theorem block_perm {items sorted : List α} (h : block before items = some sorted) :
    sorted.Perm items := by
  have hhalves := (half_perm before (8 ≤ items.length) (items.take (items.length / 2))).append
    (half_perm before (8 ≤ items.length) (items.drop (items.length / 2)))
  rw [List.take_append_drop] at hhalves
  exact (meet_perm h).trans hhalves

end Sorted

end CriteriaQuery
