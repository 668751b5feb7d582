import CriteriaQuery.Proofs.Sorted.Runs

/-! Quick sort, and the sort that is made of all parts. Under an order both sides of a pivot can be
sorted apart (`Sorted.StableSort.append`), and what is known to lie on the level of the pivot needs
no sorting. So the sort has the result of insertion where the comparison is an order of the items
(`Sorted.sort_eq_ofList`), and for up to twenty items always. Whenever it returns a list, that has
the items that it was given (`Sorted.sort_perm`). -/
namespace CriteriaQuery
set_option autoImplicit false

namespace Sorted
variable {α : Type} {before : α → α → Bool} {P : α → Prop}

/-! ## Pivots -/

theorem median_eq (less : Nat → Nat → Bool) (a b c : Nat) :
    median less a b c = a ∨ median less a b c = b ∨ median less a b c = c := by
  unfold median
  dsimp only
  split
  · split
    · exact .inr (.inr rfl)
    · exact .inr (.inl rfl)
  · exact .inl rfl

theorem pivotFrom_lt (less : Nat → Nat → Bool) {start n : Nat} (h : 0 < n) :
    pivotFrom less start n < start + n := by
  fun_induction pivotFrom less start n with
  | case1 start n hshort => omega
  | case2 start n hlong part ih₁ ih₂ ih₃ =>
    have hpart : 0 < part := Nat.div_pos (by omega) (by omega)
    have h₁ := ih₁ hpart
    have h₂ := ih₂ hpart
    have h₃ := ih₃ hpart
    have hall : 8 * part ≤ n := Nat.mul_div_le n 8
    rcases median_eq less (pivotFrom less start part) (pivotFrom less (start + 4 * part) part)
      (pivotFrom less (start + 7 * part) part) with heq | heq | heq <;> omega

theorem pivot_lt {items : List α} (h : 0 < items.length) : pivot before items < items.length := by
  rw [pivot]
  exact (pivotFrom_lt _ h).trans_eq (Nat.zero_add _)

/-! ## Parts -/

theorem WeakOrder.congr_level (hweak : WeakOrder before P) {x y z : α} (hx : P x) (hy : P y)
    (hz : P z) (h : level before x y = true) :
    before x z = before y z ∧ before z x = before z y := by
  obtain ⟨hxy, hyx⟩ := level_eq_true.mp h
  constructor <;> rw [Bool.eq_iff_iff, ← not_iff_not, Bool.not_eq_true, Bool.not_eq_true]
  · exact ⟨hweak.trans hy hx hz hyx, hweak.trans hx hy hz hxy⟩
  · exact ⟨fun hzx => hweak.trans hz hx hy hzx hxy, fun hzy => hweak.trans hz hy hx hzy hyx⟩

theorem filter_level_and {items : List α} {z : α} {test : α → Bool} {value : Bool}
    (h : ∀ y ∈ items, level before z y = true → test y = value) :
    items.filter (fun y => level before z y && test y) =
      if value then items.filter (level before z) else [] := by
  have hvalue : items.filter (fun y => level before z y && test y) =
      items.filter fun y => level before z y && value := by
    refine List.filter_congr fun y hy => ?_
    cases hz : level before z y with
    | false => rfl
    | true => rw [h y hy hz]
  rw [hvalue]
  cases value <;> simp

/-- Two parts of a list that share no level can be sorted apart. -/
theorem StableSort.append {items low high : List α} {test : α → Bool}
    (hlow : StableSort before P (items.filter test) low)
    (hhigh : StableSort before P (items.filter fun x => !test x) high)
    (hitems : ∀ x ∈ items, P x)
    (hlevel : ∀ x y, P x → P y → level before x y = true → test y = test x)
    (hbetween : ∀ x ∈ items, ∀ y ∈ items, test x = true → test y = false → before y x = false) :
    StableSort before P items (low ++ high) where
  perm := (hlow.perm.append hhigh.perm).trans (List.filter_append_perm test items)
  ordered := by
    refine List.pairwise_append.mpr ⟨hlow.ordered, hhigh.ordered, fun x hx y hy => ?_⟩
    obtain ⟨hx, hxtest⟩ := List.mem_filter.mp (hlow.perm.mem_iff.mp hx)
    obtain ⟨hy, hytest⟩ := List.mem_filter.mp (hhigh.perm.mem_iff.mp hy)
    exact hbetween x hx y hy hxtest (Bool.not_eq_true' _ ▸ hytest)
  levelwise z hz := by
    have htest : ∀ y ∈ items, level before z y = true → test y = test z :=
      fun y hy => hlevel z y hz (hitems y hy)
    rw [List.filter_append, hlow.levelwise z hz, hhigh.levelwise z hz, List.filter_filter,
      List.filter_filter, filter_level_and htest,
      filter_level_and fun y hy h => congrArg Bool.not (htest y hy h)]
    -- what is on one level is in one of the two parts
    cases test z with
    | true => exact List.append_nil _
    | false => rfl

/-- A pivot and the items that pass a test, together with those that do not, are all items. -/
theorem around_append_perm (test : α → Bool) (earlier : List α) (pivot : α) (later : List α) :
    (around test earlier pivot later ++ (earlier ++ later).filter fun x => !test x).Perm
      (earlier ++ pivot :: later) := by
  have haround : (around test earlier pivot later).Perm
      (pivot :: (earlier ++ later).filter test) := by
    rw [around, List.filter_append]
    exact List.perm_middle
  have hall := (List.filter_append_perm test (earlier ++ later)).cons pivot
  exact (haround.append_right _).trans (hall.trans List.perm_middle.symm)

theorem around_eq {test : α → Bool} {pivot : α} (h : test pivot = true) (earlier later : List α) :
    around test earlier pivot later = (earlier ++ pivot :: later).filter test := by
  rw [around, List.filter_append, List.filter_cons_of_pos h]

theorem filter_around {test : α → Bool} {pivot : α} (h : test pivot = false)
    (earlier later : List α) :
    (earlier ++ later).filter test = (earlier ++ pivot :: later).filter test := by
  rw [List.filter_append, List.filter_append, List.filter_cons_of_neg (Bool.not_eq_true _ ▸ h)]

/-! ## Quick sort -/

/-- None of the items comes before the one that is known to be below. -/
def Bounded (before : α → α → Bool) (P : α → Prop) (below : Option α) (items : List α) : Prop :=
  ∀ least ∈ below, P least ∧ ∀ x ∈ items, before x least = false

/-- The comparison is an order of items above a bound. -/
structure OrdersAbove (before : α → α → Bool) (P : α → Prop) (below : Option α)
    (items : List α) : Prop extends Orders before P items where
  bounded : Bounded before P below items

namespace OrdersAbove
variable {below below' : Option α} {items others earlier later : List α} {pivot : α}

theorem subset_of (h : OrdersAbove before P below items) (hsubset : others ⊆ items)
    (hbounded : Bounded before P below' others) : OrdersAbove before P below' others :=
  ⟨h.toOrders.subset hsubset, hbounded⟩

theorem low (h : OrdersAbove before P below items) (hsubset : others ⊆ items) :
    OrdersAbove before P below others :=
  h.subset_of hsubset fun least hleast =>
    ⟨(h.bounded least hleast).1, fun x hx => (h.bounded least hleast).2 x (hsubset hx)⟩

/-- The items that do not come before the pivot are above it. -/
theorem high (h : OrdersAbove before P below (earlier ++ pivot :: later)) :
    OrdersAbove before P (some pivot)
      (around (fun item => !before item pivot) earlier pivot later) := by
  have hpivot : P pivot := h.holds pivot (List.mem_append_right _ List.mem_cons_self)
  rw [around_eq (by rw [h.weak.irrefl hpivot]; rfl)]
  refine h.subset_of List.filter_sublist.subset ?_
  rintro _ ⟨⟩
  exact ⟨hpivot, fun x hx => Bool.not_eq_true' _ ▸ (List.mem_filter.mp hx).2⟩

/-- Nothing comes before the pivot if it is on the level of a lower bound or nothing was found. -/
theorem level (h : OrdersAbove before P below (earlier ++ pivot :: later))
    (hequal : (below.any (fun least => !before least pivot) ||
      ((earlier ++ later).filter fun item => before item pivot).isEmpty) = true) :
    ∀ x ∈ earlier ++ pivot :: later, before x pivot = false := by
  have hpivot : P pivot := h.holds pivot (List.mem_append_right _ List.mem_cons_self)
  rcases (Bool.or_eq_true _ _).mp hequal with hlevel | hempty
  · cases below with
    | none => cases hlevel
    | some least =>
      obtain ⟨hleast, habove⟩ := h.bounded least rfl
      have hlevel : before least pivot = false := Bool.not_eq_true' _ ▸ hlevel
      exact fun x hx => h.weak.trans (h.holds x hx) hleast hpivot (habove x hx) hlevel
  · have hnone := List.isEmpty_iff.mp hempty
    rw [@filter_around _ (fun item => before item pivot) pivot (h.weak.irrefl hpivot),
      List.filter_eq_nil_iff] at hnone
    exact fun x hx => Bool.not_eq_true _ ▸ hnone x hx

end OrdersAbove

section
variable {below : Option α} {earlier later low high rest : List α} {pivot : α}

/-- If nothing comes before the pivot, then what does not come behind it is on its level and sorted
already. -/
theorem sortOf_level
    (hlevel : OrdersAbove before P below (earlier ++ pivot :: later) →
      ∀ x ∈ earlier ++ pivot :: later, before x pivot = false)
    (hrest : SortOf before P (OrdersAbove before P below (earlier ++ pivot :: later))
      ((earlier ++ later).filter fun item => before pivot item) rest) :
    SortOf before P (OrdersAbove before P below (earlier ++ pivot :: later))
      (earlier ++ pivot :: later)
      (around (fun item => !before pivot item) earlier pivot later ++ rest) := by
  have hnot : (fun item => before pivot item) = fun item => !!before pivot item := by
    funext item
    exact (Bool.not_not _).symm
  rw [hnot] at hrest
  refine ⟨(hrest.perm.append_left _).trans (around_append_perm _ _ _ _), fun h => ?_⟩
  have hpivot : P pivot := h.holds pivot (List.mem_append_right _ List.mem_cons_self)
  have hself := h.weak.irrefl hpivot
  have hsorted := hrest.stable h
  rw [filter_around (by rw [hself]; rfl)] at hsorted
  rw [around_eq (by rw [hself]; rfl)]
  -- an item that is not above the pivot does not come behind any other
  have hfirst : ∀ x ∈ earlier ++ pivot :: later, ∀ y ∈ earlier ++ pivot :: later,
      (!before pivot x) = true → before y x = false := by
    intro x hx y hy hxtest
    rw [Bool.not_eq_true'] at hxtest
    exact h.weak.trans (h.holds y hy) hpivot (h.holds x hx) (hlevel h y hy) hxtest
  refine (StableSort.refl ?_).append hsorted h.holds (fun x y hx hy hxy => ?_)
    (fun x hx y hy hxtest _ => hfirst x hx y hy hxtest)
  · refine List.pairwise_of_forall_mem_list fun x hx y hy => ?_
    obtain ⟨hx, hxtest⟩ := List.mem_filter.mp hx
    exact hfirst x hx y (List.mem_filter.mp hy).1 hxtest
  · rw [(h.weak.congr_level hx hy hpivot hxy).2]

/-- What comes before the pivot and what does not are sorted apart. -/
theorem sortOf_parts
    (hlow : SortOf before P (OrdersAbove before P below (earlier ++ pivot :: later))
      ((earlier ++ later).filter fun item => before item pivot) low)
    (hhigh : SortOf before P (OrdersAbove before P below (earlier ++ pivot :: later))
      (around (fun item => !before item pivot) earlier pivot later) high) :
    SortOf before P (OrdersAbove before P below (earlier ++ pivot :: later))
      (earlier ++ pivot :: later) (low ++ high) := by
  refine ⟨?_, fun h => ?_⟩
  · have hparts := around_append_perm (fun item => !before item pivot) earlier pivot later
    simp only [Bool.not_not] at hparts
    exact (hlow.perm.append hhigh.perm).trans (List.perm_append_comm.trans hparts)
  have hpivot : P pivot := h.holds pivot (List.mem_append_right _ List.mem_cons_self)
  have hself := h.weak.irrefl hpivot
  have hlow := hlow.stable h
  have hhigh := hhigh.stable h
  rw [@filter_around _ (fun item => before item pivot) pivot hself] at hlow
  rw [around_eq (by rw [hself]; rfl)] at hhigh
  refine hlow.append hhigh h.holds (fun x y hx hy hxy => ?_) (fun x hx y hy hxtest hytest => ?_)
  · rw [(h.weak.congr_level hx hy hpivot hxy).1]
  · exact h.weak.trans (h.holds y hy) hpivot (h.holds x hx) hytest
      (h.weak.asymm (h.holds x hx) hpivot hxtest)

end

theorem quick_gives (limit : Nat) (below : Option α) (items : List α) :
    Gives (OrdersAbove before P below items)
      (SortOf before P (OrdersAbove before P below items) items)
      (quick before limit below items) := by
  induction limit generalizing below items with
  | zero =>
    unfold quick
    split
    · exact (block_sorts items).of_imp (·.toOrders)
    · exact (byRuns_sorts block_sorts 0 true items).of_imp (·.toOrders)
  | succ limit ih =>
    unfold quick
    split
    · exact (block_sorts items).of_imp (·.toOrders)
    · next hlong =>
      dsimp only
      split
      · next hnone =>
        have hpivot : pivot before items < items.length :=
          pivot_lt (Nat.zero_lt_of_lt (Nat.lt_of_not_le hlong))
        exact absurd (List.drop_eq_nil_iff.mp hnone) (Nat.not_le.mpr hpivot)
      · next pivot later hdrop =>
        obtain ⟨earlier, hearlier⟩ : ∃ earlier, items.take (Sorted.pivot before items) = earlier :=
          ⟨_, rfl⟩
        obtain rfl : items = earlier ++ pivot :: later := by
          rw [← hearlier, ← hdrop, List.take_append_drop]
        rw [hearlier]
        have hfilter (test : α → Bool) :
            (earlier ++ later).filter test ⊆ earlier ++ pivot :: later :=
          List.Subset.trans List.filter_sublist.subset
            ((List.sublist_cons_self pivot later).append_left earlier).subset
        split
        · next hequal =>
          exact ((ih none _).of_imp (·.subset_of (hfilter _) nofun)).bind fun rest hrest =>
            .some (sortOf_level (·.level hequal) hrest)
        · exact ((ih (some pivot) _).of_imp OrdersAbove.high).bind fun high hhigh =>
            ((ih below _).of_imp (·.low (hfilter _))).bind fun low hlow =>
              .some (sortOf_parts hlow hhigh)

theorem quickAll_sorts : Sorts before P (quickAll before) := fun items =>
  (quick_gives _ none items).of_imp fun h => ⟨h, nofun⟩

/-! ## The sort -/

theorem ofList_sortOf (items : List α) :
    SortOf before P (Orders before P items) items (ofList before items) :=
  ⟨ofList_perm before items, fun h => .ofList h.weak h.holds⟩

theorem sort_sorts : Sorts before P (sort before) := by
  intro items
  unfold sort
  split
  · exact .some (ofList_sortOf items)
  · exact byRuns_sorts quickAll_sorts _ _ items

theorem sort_perm {items sorted : List α} (h : sort before items = some sorted) :
    sorted.Perm items :=
  ((sort_sorts (P := fun _ => True) items).sound sorted h).perm

/-- A list of which the comparison is an order is sorted as by insertion. -/
theorem sort_eq_ofList (hweak : WeakOrder before P) {items : List α} (hitems : ∀ x ∈ items, P x) :
    sort before items = some (ofList before items) := by
  have horders : Orders before P items := ⟨hweak, hitems⟩
  obtain ⟨sorted, h⟩ := (sort_sorts items).complete horders
  have hstable := ((sort_sorts items).sound sorted h).stable horders
  rw [h, hstable.unique hweak (.ofList hweak hitems) hitems]

theorem sort_of_short {items : List α} (h : items.length ≤ 20) :
    sort before items = some (ofList before items) := if_pos h

end Sorted

end CriteriaQuery
