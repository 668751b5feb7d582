import CriteriaQuery.Proofs.Sorted.Block

/-! Sorting by runs. What a step of the sort returns has the items that it was given, and under an
order it returns something, which is stably sorted (`Sorted.Gives`, `Sorted.SortOf`). That holds of
each run that is cut off, of runs that are joined, and so of the whole list, in whatever order
neighbouring runs are joined (`Sorted.byRuns_sorts`). -/
namespace CriteriaQuery
set_option autoImplicit false

namespace Sorted
variable {α β γ : Type} {before : α → α → Bool} {P : α → Prop} {C D : Prop}

/-! ## Steps that may give up -/

/-- What a step returns is as `Q` says, and under a condition it returns something. -/
structure Gives (C : Prop) (Q : β → Prop) (result : Option β) : Prop where
  sound : ∀ b, result = some b → Q b
  complete : C → ∃ b, result = some b

namespace Gives
variable {Q : β → Prop} {R : γ → Prop} {result : Option β}

theorem some {b : β} (h : Q b) : Gives C Q (.some b) where
  sound _ hb := Option.some.inj hb ▸ h
  complete _ := ⟨b, rfl⟩

theorem bind {f : β → Option γ} (h : Gives C Q result) (hf : ∀ b, Q b → Gives C R (f b)) :
    Gives C R (result >>= f) where
  sound c hc := by
    obtain ⟨b, hb, hc⟩ := Option.bind_eq_some_iff.mp hc
    exact (hf b (h.sound b hb)).sound c hc
  complete hC := by
    obtain ⟨b, hb⟩ := h.complete hC
    obtain ⟨c, hc⟩ := (hf b (h.sound b hb)).complete hC
    exact ⟨c, Option.bind_eq_some_iff.mpr ⟨b, hb, hc⟩⟩

theorem mono {R : β → Prop} (h : Gives C Q result) (hC : D → C) (hQ : ∀ b, Q b → R b) :
    Gives D R result where
  sound b hb := hQ b (h.sound b hb)
  complete hD := h.complete (hC hD)

theorem map {f : β → γ} (h : Gives C Q result) (hf : ∀ b, Q b → R (f b)) :
    Gives C R (result.map f) := by
  rw [Option.map_eq_bind]
  exact h.bind fun b hb => some (hf b hb)

end Gives

/-- The comparison is an order of some items. -/
structure Orders (before : α → α → Bool) (P : α → Prop) (items : List α) : Prop where
  weak : WeakOrder before P
  holds : ∀ x ∈ items, P x

theorem Orders.subset {items others : List α} (h : Orders before P items)
    (hsubset : others ⊆ items) : Orders before P others :=
  ⟨h.weak, fun x hx => h.holds x (hsubset hx)⟩

theorem Gives.of_subset {items others : List α} {Q : β → Prop} {result : Option β}
    (h : Gives (Orders before P others) Q result) (hsubset : others ⊆ items) :
    Gives (Orders before P items) Q result := h.mono (·.subset hsubset) fun _ => id

/-- A list has the items of another one, and is a stable sort of it under a condition. -/
structure SortOf (before : α → α → Bool) (P : α → Prop) (C : Prop) (items sorted : List α) :
    Prop where
  perm : sorted.Perm items
  stable : C → StableSort before P items sorted

theorem SortOf.mono {items sorted : List α} (h : SortOf before P C items sorted) (hC : D → C) :
    SortOf before P D items sorted := ⟨h.perm, fun hD => h.stable (hC hD)⟩

theorem Gives.of_imp {items : List α} {result : Option (List α)}
    (h : Gives D (SortOf before P D items) result) (hC : C → D) :
    Gives C (SortOf before P C items) result := h.mono hC fun _ hsorted => hsorted.mono hC

/-- A sort that returns the items that it was given, and stably sorts what it has an order of. -/
def Sorts (before : α → α → Bool) (P : α → Prop) (sort : List α → Option (List α)) : Prop :=
  ∀ items, Gives (Orders before P items) (SortOf before P (Orders before P items) items)
    (sort items)

theorem block_sorts : Sorts before P (block before) := by
  refine fun items => ⟨fun sorted h => ⟨block_perm h, fun horders => ?_⟩, fun horders => ?_⟩
  · obtain ⟨sorted', h', hstable⟩ := exists_block horders.weak horders.holds
    cases h.symm.trans h'
    exact hstable
  · obtain ⟨sorted, h, -⟩ := exists_block horders.weak horders.holds
    exact ⟨sorted, h⟩

/-! ## Cutting runs off -/

namespace Run
variable {items : List α}

/-- A run that stands for items: it has them as they are, or sorted. -/
structure Covers (before : α → α → Bool) (P : α → Prop) (run : Run α) (items : List α) : Prop where
  sorted : run.sorted = true → SortOf before P (Orders before P items) items run.items
  plain : run.sorted = false → run.items = items

theorem covers_sorted {sorted : List α}
    (h : SortOf before P (Orders before P items) items sorted) :
    Covers before P ⟨sorted, true⟩ items := ⟨fun _ => h, nofun⟩

theorem covers_plain (items : List α) : Covers before P ⟨items, false⟩ items :=
  ⟨nofun, fun _ => rfl⟩

/-- In a run, all later items come before an earlier one if it falls, and none does if not. -/
theorem pairwise_extent (h : WeakOrder before P) (falls : Bool) {last : α} {rest : List α}
    (hlast : P last) (hrest : ∀ x ∈ rest.take (extent before falls last rest), P x) :
    (last :: rest.take (extent before falls last rest)).Pairwise
      fun x y => before y x = falls := by
  induction rest generalizing last with
  | nil => exact List.pairwise_singleton _ last
  | cons item rest ih =>
    rw [extent] at hrest ⊢
    split at hrest
    · next hitem =>
      rw [if_pos hitem]
      rw [List.take_succ_cons, List.forall_mem_cons] at hrest
      have hpairs := ih hrest.1 hrest.2
      refine List.pairwise_cons.mpr ⟨fun y hy => ?_, hpairs⟩
      rcases List.mem_cons.mp hy with rfl | hy
      · exact hitem
      have hyitem : before y item = falls := (List.pairwise_cons.mp hpairs).1 y hy
      cases falls with
      | false => exact h.trans (hrest.2 y hy) hrest.1 hlast hyitem hitem
      | true =>
        exact h.before_of_before (hrest.2 y hy) hrest.1 hlast hyitem
          (h.asymm hrest.1 hlast hitem)
    · next hitem =>
      rw [if_neg hitem]
      exact List.pairwise_singleton _ last

theorem start_pairwise (h : Orders before P (items.take (start before items).2)) :
    (items.take (start before items).2).Pairwise
      fun x y => before y x = (start before items).1 := by
  match items with
  | [] => exact List.Pairwise.nil
  | [x] => exact List.pairwise_singleton _ x
  | first :: second :: rest =>
    have hextent : (start before (first :: second :: rest)).2 =
        extent before (before second first) first (second :: rest) + 1 := by
      rw [extent, if_pos rfl]
      rfl
    rw [hextent, List.take_succ_cons] at h ⊢
    obtain ⟨hfirst, hrest⟩ := List.forall_mem_cons.mp h.holds
    exact pairwise_extent h.weak (before second first) hfirst hrest

theorem start_pos (h : items ≠ []) : 0 < (start before items).2 := by
  match items with
  | [x] => exact Nat.one_pos
  | first :: second :: rest => exact Nat.succ_pos _

end Run

/-- A list that strictly falls is sorted by turning it around. -/
theorem StableSort.of_falling (hweak : WeakOrder before P) {items : List α}
    (hitems : ∀ x ∈ items, P x) (h : items.Pairwise fun x y => before y x = true) :
    StableSort before P items items.reverse := by
  refine ⟨List.reverse_perm items, List.pairwise_reverse.mpr ?_, fun z hz => ?_⟩
  · exact h.imp_of_mem fun hx hy hbefore => hweak.asymm (hitems _ hy) (hitems _ hx) hbefore
  induction items with
  | nil => rfl
  | cons x rest ih =>
    rw [List.forall_mem_cons] at hitems
    have hpairs := List.pairwise_cons.mp h
    rw [List.reverse_cons, List.filter_append, ih hitems.2 hpairs.2, List.filter_cons,
      List.filter_nil, List.filter_cons]
    split
    -- what is on the level of the first item does not come later, since all of that is before it
    · next hzx =>
      have hnone := filter_level_eq_nil hweak.flip hz hitems.1 hitems.2
        ((congrFun (level_flip z) x).trans hzx) hpairs.1
      rw [level_flip] at hnone
      rw [hnone]
      rfl
    · exact List.append_nil _

namespace Run
variable {items : List α}

/-- The first run stands for the items that it takes off the list. -/
theorem first_covers (eager : Bool) (least : Nat) (items : List α) :
    Gives (Orders before P items)
      (Covers before P · (items.take (first before eager least items).2))
      (first before eager least items).1 := by
  unfold first
  dsimp only
  split
  · refine .some (covers_sorted ⟨?_, fun horders => ?_⟩)
    · split
      · exact List.reverse_perm _
      · exact .refl _
    · have hpairs := start_pairwise horders
      split
      · next hfalls =>
        rw [hfalls] at hpairs
        exact .of_falling horders.weak horders.holds hpairs
      · next hfalls =>
        rw [Bool.not_eq_true] at hfalls
        rw [hfalls] at hpairs
        exact .refl hpairs
  split
  · exact ((block_sorts _).of_subset (List.take_subset blockLength items)).map
      fun _ => covers_sorted
  · exact .some (covers_plain _)

theorem first_pos (eager : Bool) {least : Nat} (hleast : 0 < least) (h : items ≠ []) :
    0 < (first before eager least items).2 := by
  unfold first
  dsimp only
  split
  · exact start_pos h
  split
  · exact Nat.succ_pos 31
  · exact hleast

/-- Runs that stand for consecutive parts of a list. -/
inductive AllCover (before : α → α → Bool) (P : α → Prop) : List (Run α) → List α → Prop
  | nil : AllCover before P [] []
  | cons {run : Run α} {runs : List (Run α)} {xs ys : List α} (first : Covers before P run xs)
    (others : AllCover before P runs ys) : AllCover before P (run :: runs) (xs ++ ys)

theorem all_cover (eager : Bool) {least : Nat} (hleast : 0 < least) (items : List α) :
    Gives (Orders before P items) (AllCover before P · items) (all before eager least items) := by
  fun_induction all before eager least items with
  | case1 => exact .some .nil
  | case2 items hitems first? length hfirst ih =>
    have hrun : Gives (Orders before P items)
        (Covers before P · (items.take (first before eager least items).2))
        (first before eager least items).1 := first_covers eager least items
    have hpos : 0 < (first before eager least items).2 := first_pos eager hleast hitems
    rw [hfirst] at hrun hpos
    rw [Nat.max_eq_left hpos] at ih ⊢
    refine hrun.bind fun run hrun =>
      (ih.of_subset (List.drop_subset length items)).bind fun others hothers => .some ?_
    have hcover := AllCover.cons hrun hothers
    rw [List.take_append_drop] at hcover
    exact hcover

/-! ## Joining runs -/

variable {finish : List α → Option (List α)} {room : Nat}

theorem finished_gives (hfinish : Sorts before P finish) {run : Run α}
    (h : run.Covers before P items) :
    Gives (Orders before P items) (SortOf before P (Orders before P items) items)
      (run.finished finish) := by
  rw [finished]
  split
  · next hsorted => exact .some (h.sorted hsorted)
  · next hsorted =>
    rw [h.plain (Bool.not_eq_true _ ▸ hsorted)]
    exact hfinish items

end Run

theorem SortOf.merge {xs ys left right : List α}
    (hleft : SortOf before P (Orders before P xs) xs left)
    (hright : SortOf before P (Orders before P ys) ys right) :
    SortOf before P (Orders before P (xs ++ ys)) (xs ++ ys) (merge before left right) where
  perm := (merge_perm before left right).trans (hleft.perm.append hright.perm)
  stable horders := by
    have hxs := horders.subset (List.subset_append_left xs ys)
    have hys := horders.subset (List.subset_append_right xs ys)
    exact (hleft.stable hxs).merge horders.weak (hright.stable hys) hxs.holds hys.holds

namespace Run
variable {items xs ys zs : List α} {finish : List α → Option (List α)} {room : Nat}

/-- Runs that are joined stand for the items of both. -/
theorem join_covers (hfinish : Sorts before P finish) {left right : Run α}
    (hleft : left.Covers before P xs) (hright : right.Covers before P ys) :
    Gives (Orders before P (xs ++ ys)) (Covers before P · (xs ++ ys))
      (join before finish room left right) := by
  rw [join]
  split
  · have hxs := (finished_gives hfinish hleft).of_subset (List.subset_append_left xs ys)
    have hys := (finished_gives hfinish hright).of_subset (List.subset_append_right xs ys)
    exact hxs.bind fun lefts hlefts => hys.bind fun rights hrights =>
      .some (covers_sorted (hlefts.merge hrights))
  · next hplain =>
    simp only [Bool.or_eq_true, not_or, Bool.not_eq_true] at hplain
    rw [hleft.plain hplain.1.1, hright.plain hplain.1.2]
    exact .some (covers_plain _)

/-- Runs in front of others, the last one first, that stand for consecutive parts of a list. -/
inductive EarlierCover (before : α → α → Bool) (P : α → Prop) :
    List (Run α × Nat) → List α → Prop
  | nil : EarlierCover before P [] []
  | cons {run : Run α} {depth : Nat} {earlier : List (Run α × Nat)} {xs ys : List α}
    (others : EarlierCover before P earlier xs) (last : Covers before P run ys) :
    EarlierCover before P ((run, depth) :: earlier) (xs ++ ys)

/-- However many of the runs in front of a run are joined with it, all stand for the same items. -/
theorem collapse_covers (hfinish : Sorts before P finish) (least : Nat) {run : Run α}
    {earlier : List (Run α × Nat)} (hearlier : EarlierCover before P earlier xs)
    (hrun : run.Covers before P ys) :
    Gives (Orders before P (xs ++ ys))
      (fun result => ∃ xs' ys', EarlierCover before P result.2 xs' ∧
        result.1.Covers before P ys' ∧ xs' ++ ys' = xs ++ ys ∧ (least = 0 → xs' = []))
      (collapse before finish room least run earlier) := by
  induction hearlier generalizing run ys with
  | nil =>
    rw [collapse]
    exact .some ⟨[], ys, .nil, hrun, rfl, fun _ => rfl⟩
  | @cons left depth earlier ws xs others last ih =>
    rw [collapse]
    split
    · rw [List.append_assoc]
      exact ((join_covers hfinish last hrun).of_subset (List.subset_append_right ws _)).bind
        fun joined hjoined => ih hjoined
    · next hdepth =>
      exact .some ⟨_, ys, .cons others last, hrun, rfl, fun hzero => by omega⟩

/-- Joining all runs of a list gives one that stands for the whole list. -/
theorem joinAll_covers (hfinish : Sorts before P finish) (n : Nat) {last : Run α} (middle : Nat)
    {earlier : List (Run α × Nat)} {others : List (Run α)}
    (hearlier : EarlierCover before P earlier xs) (hlast : last.Covers before P ys)
    (hothers : AllCover before P others zs) :
    Gives (Orders before P (xs ++ ys ++ zs)) (Covers before P · (xs ++ ys ++ zs))
      (joinAll before finish room n last middle earlier others) := by
  induction hothers generalizing last middle earlier xs ys with
  | nil =>
    rw [joinAll, List.append_nil]
    refine (collapse_covers hfinish 0 hearlier hlast).map ?_
    rintro ⟨run, rest⟩ ⟨xs', ys', -, hrun, heq, hnil⟩
    rw [hnil rfl, List.nil_append] at heq
    exact heq ▸ hrun
  | @cons next runs ws zs first others ih =>
    rw [joinAll, ← List.append_assoc]
    have hcollapsed : Gives (Orders before P (xs ++ ys)) _ (collapse before finish room
        (depth n (middle - last.items.length) middle (middle + next.items.length)) last earlier) :=
      collapse_covers hfinish _ hearlier hlast
    refine ((hcollapsed.of_subset (List.subset_append_left _ ws)).of_subset
      (List.subset_append_left _ zs)).bind ?_
    rintro ⟨run, rest⟩ ⟨xs', ys', hrest, hrun, heq, -⟩
    rw [← heq]
    exact ih _ (.cons hrest hrun) first

end Run

/-! ## The whole list -/

theorem leastRun_pos {n : Nat} (h : 0 < n) : 0 < leastRun n := by
  unfold leastRun
  split
  · omega
  · next hlong =>
    have hlog : 1 ≤ n.log2 := (Nat.le_log2 (by omega)).mpr (by omega)
    have hpow : Nat.pow 2 1 ≤ Nat.pow 2 ((1 + n.log2) / 2) :=
      Nat.pow_le_pow_right Nat.two_pos (by omega)
    exact Nat.div_pos (hpow.trans (Nat.le_add_right _ _)) Nat.two_pos

theorem byRuns_sorts {finish : List α → Option (List α)} (hfinish : Sorts before P finish)
    (room : Nat) (eager : Bool) : Sorts before P (byRuns before finish room eager) := by
  intro items
  by_cases hitems : items = []
  · rw [hitems, byRuns, Run.all, if_pos rfl]
    exact .some ⟨.refl _, fun _ => .refl List.Pairwise.nil⟩
  have hleast := leastRun_pos (List.length_pos_iff.mpr hitems)
  refine (Run.all_cover eager hleast items).bind ?_
  rintro _ (_ | @⟨first, others, xs, ys, hfirst, hothers⟩)
  · exact absurd rfl hitems
  · exact (Run.joinAll_covers hfinish _ first.items.length .nil hfirst hothers).bind
      fun run hrun => Run.finished_gives hfinish hrun

end Sorted

end CriteriaQuery
