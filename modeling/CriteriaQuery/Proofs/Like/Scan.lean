import CriteriaQuery.Proofs.Like.Split

/-! The scan of a value for a LIKE pattern. Going back to the last run alone loses nothing: what
an earlier run could take more, the last one can take instead, as there are only cells between a
run and the cursor (`Cursor.promising_iff`). The scan ends, looks for nothing outside of the value
and the items, and accepts the values that split along the pattern (`isMatch_iff_splits`). -/
namespace CriteriaQuery.Like
set_option autoImplicit false

namespace Cursor
variable {value : Array Char} {items : Array Item} {s t : Cursor}

/-! ## What is still possible -/

/-- Only cells lie between the last run and the cursor, and each has passed one character. -/
def Aligned (items : Array Item) (s : Cursor) : Prop :=
  ∀ run, s.last = some run → ∃ cells : List Cell,
    items.toList.drop (run.index + 1) = cells.map .cell ++ items.toList.drop s.item ∧
      s.place = run.taken + cells.length

/-- The value splits along the items from the cursor on. -/
def SplitsAhead (value : Array Char) (items : Array Item) (s : Cursor) : Prop :=
  Splits (items.toList.drop s.item) (value.toList.drop s.place)

/-- From some place on, at `place` or behind it, the value splits along the items from `item` on. -/
def SplitsFrom (value : Array Char) (items : Array Item) (place item : Nat) : Prop :=
  ∃ k, place ≤ k ∧ k ≤ value.size ∧ Splits (items.toList.drop item) (value.toList.drop k)

/-- The value splits along the items behind the last run once that has taken more characters. -/
def SplitsLater (value : Array Char) (items : Array Item) (s : Cursor) : Prop :=
  ∃ run, s.last = some run ∧ SplitsFrom value items (run.taken + 1) (run.index + 1)

/-- The value can still be split along the items. -/
def Promising (value : Array Char) (items : Array Item) (s : Cursor) : Prop :=
  s.SplitsAhead value items ∨ s.SplitsLater value items

theorem splitsFrom_iff {place item : Nat} (hplace : place ≤ value.size) :
    SplitsFrom value items place item ↔
      Splits (items.toList.drop item) (value.toList.drop place) ∨
        SplitsFrom value items (place + 1) item := by
  constructor
  · rintro ⟨k, hk, hsize, hsplits⟩
    rcases Nat.eq_or_lt_of_le hk with rfl | hlt
    · exact .inl hsplits
    · exact .inr ⟨k, hlt, hsize, hsplits⟩
  · rintro (hsplits | ⟨k, hk, hsize, hsplits⟩)
    · exact ⟨place, Nat.le_refl _, hplace, hsplits⟩
    · exact ⟨k, Nat.le_of_succ_le hk, hsize, hsplits⟩

theorem splitsLater_iff (run : LastRun) (hlast : s.last = some run) :
    s.SplitsLater value items ↔ SplitsFrom value items (run.taken + 1) (run.index + 1) := by
  constructor
  · rintro ⟨other, hother, h⟩
    cases hlast.symm.trans hother
    exact h
  · exact fun h => ⟨run, hlast, h⟩

theorem drop_item {item : Item} (h : items[s.item]? = some item) :
    items.toList.drop s.item = item :: items.toList.drop (s.item + 1) := by
  obtain ⟨hlt, rfl⟩ := Array.getElem?_eq_some_iff.mp h
  rw [List.drop_eq_getElem_cons (by simpa using hlt)]
  rfl

theorem drop_place {c : Char} (h : value[s.place]? = some c) :
    value.toList.drop s.place = c :: value.toList.drop (s.place + 1) := by
  obtain ⟨hlt, rfl⟩ := Array.getElem?_eq_some_iff.mp h
  rw [List.drop_eq_getElem_cons (by simpa using hlt)]
  rfl

theorem Stuck.not_splitsAhead (hplace : s.place < value.size) (hstuck : s.Stuck value items) :
    ¬s.SplitsAhead value items := by
  intro h
  unfold SplitsAhead at h
  have hchar : value[s.place]? = some value[s.place] := Array.getElem?_eq_getElem hplace
  rw [drop_place hchar] at h
  cases hitem : items[s.item]? with
  | none =>
    have hsize : items.size ≤ s.item := Array.getElem?_eq_none_iff.mp hitem
    rw [List.drop_eq_nil_of_le (by simpa using hsize)] at h
    exact List.cons_ne_nil _ _ (cut_nil.mp h)
  | some item =>
    obtain ⟨cell, c, rfl, hc, hfits⟩ := hstuck item hitem
    rw [drop_item hitem] at h
    obtain ⟨d, rest, heq, hd, -⟩ := splits_cell.mp h
    cases hc.symm.trans hchar
    cases heq
    rw [hfits] at hd
    exact Bool.false_ne_true hd

/-- A run in front of the cursor can take any characters from there on. -/
theorem splitsAhead_of_run (hplace : s.place ≤ value.size) (hitem : items[s.item]? = some .run) :
    s.SplitsAhead value items ↔ SplitsFrom value items s.place (s.item + 1) := by
  unfold SplitsAhead SplitsFrom
  rw [drop_item hitem, splits_run]
  constructor
  · rintro ⟨k, hk, hsplits⟩
    rw [List.length_drop, Array.length_toList] at hk
    rw [List.drop_drop] at hsplits
    exact ⟨s.place + k, by omega, by omega, hsplits⟩
  · rintro ⟨k, hk, hsize, hsplits⟩
    refine ⟨k - s.place, by simp; omega, ?_⟩
    rwa [List.drop_drop, Nat.add_sub_cancel' hk]

/-- What an earlier run could take more, a run in front of the cursor can take instead. -/
theorem Aligned.splitsAhead_of_later (haligned : s.Aligned items)
    (hitem : items[s.item]? = some .run) (h : s.SplitsLater value items) :
    s.SplitsAhead value items := by
  obtain ⟨run, hlast, k, hk, -, hsplits⟩ := h
  obtain ⟨cells, hcells, hplace⟩ := haligned run hlast
  rw [hcells] at hsplits
  obtain ⟨-, hrest⟩ := splits_cells hsplits
  -- That run takes more than before, so that the cells behind it end behind the cursor.
  have hdrop : (value.toList.drop k).drop cells.length =
      (value.toList.drop s.place).drop (k - run.taken) := by
    rw [List.drop_drop, List.drop_drop]
    congr 1
    omega
  rw [hdrop, drop_item hitem] at hrest
  unfold SplitsAhead
  rw [drop_item hitem]
  exact splits_run_of_drop hrest

/-! ## One turn -/

theorem Moves.aligned (hmoves : Moves value items s t) (haligned : s.Aligned items) :
    t.Aligned items := by
  cases hmoves with
  | run =>
    rintro _ ⟨⟩
    exact ⟨[], rfl, rfl⟩
  | @cell cell c hitem hchar hfits =>
    intro run hlast
    obtain ⟨cells, hcells, hplace⟩ := haligned run hlast
    refine ⟨cells ++ [cell], ?_, ?_⟩
    · rw [hcells, drop_item hitem]
      simp
    · rw [List.length_append, List.length_singleton, ← Nat.add_assoc, ← hplace]
  | retry =>
    rintro _ ⟨⟩
    exact ⟨[], rfl, rfl⟩

/-- A turn neither loses a way to split the value nor wins one. -/
theorem Moves.promising_iff (hmoves : Moves value items s t) (hwithin : s.Within value items)
    (haligned : s.Aligned items) (hplace : s.place < value.size) :
    t.Promising value items ↔ s.Promising value items := by
  cases hmoves with
  | run hitem =>
    have hahead : s.Promising value items ↔ s.SplitsAhead value items :=
      ⟨fun h => h.elim id (haligned.splitsAhead_of_later hitem), .inl⟩
    rw [hahead, splitsAhead_of_run (Nat.le_of_lt hplace) hitem,
      splitsFrom_iff (Nat.le_of_lt hplace)]
    exact or_congr Iff.rfl (splitsLater_iff ⟨s.item, s.place⟩ rfl)
  | cell hitem hchar hfits =>
    refine or_congr ?_ Iff.rfl
    unfold SplitsAhead
    rw [drop_item hitem, drop_place hchar, splits_cell]
    constructor
    · exact fun h => ⟨_, _, rfl, hfits, h⟩
    · rintro ⟨c, rest, heq, -, h⟩
      cases heq
      exact h
  | @retry run hlast hstuck =>
    have hahead : s.Promising value items ↔ s.SplitsLater value items :=
      or_iff_right (hstuck.not_splitsAhead hplace)
    have htaken : run.taken + 1 ≤ value.size :=
      Nat.lt_of_le_of_lt (hwithin.taken_le run hlast) hplace
    rw [hahead, splitsLater_iff run hlast, splitsFrom_iff htaken]
    exact or_congr Iff.rfl (splitsLater_iff ⟨run.index, run.taken + 1⟩ rfl)

/-- The last turn tells whether the value can be split. -/
theorem promising_of_done {verdict : Bool} (hwithin : s.Within value items)
    (haligned : s.Aligned items) (hstep : s.step value items = .done verdict) :
    s.Promising value items ↔ verdict = true := by
  by_cases hplace : s.place < value.size
  · rcases moves_or_stuck items hplace with ⟨t, ht, -⟩ | hstuck
    · rw [ht] at hstep
      cases hstep
    · rw [step_of_stuck hplace hstuck, retry] at hstep
      split at hstep
      · cases hstep
      · next hlast =>
        cases hstep
        refine iff_of_false ?_ Bool.false_ne_true
        rintro (h | ⟨run, hrun, -⟩)
        · exact hstuck.not_splitsAhead hplace h
        · cases hlast.symm.trans hrun
  · rw [step, if_neg hplace, if_pos hwithin.item_le] at hstep
    cases hstep
    have hend : value.toList.drop s.place = [] := List.drop_eq_nil_of_le (by simpa using hplace)
    have hahead : s.SplitsAhead value items ↔
        (items.toList.drop s.item).all (· == .run) = true := by
      rw [SplitsAhead, hend, splits_empty]
    rw [Promising, hahead, or_iff_left]
    -- The cells behind the last run need all characters from where it ends on.
    rintro ⟨run, hlast, k, hk, hsize, hsplits⟩
    obtain ⟨cells, hcells, heq⟩ := haligned run hlast
    rw [hcells] at hsplits
    have hlength := (splits_cells hsplits).1
    simp only [List.length_drop, Array.length_toList] at hlength
    have hplace_le := hwithin.place_le
    omega

/-! ## The whole scan -/

theorem verdict_iff_promising (h : s.Within value items) (haligned : s.Aligned items) :
    s.verdict value items h = true ↔ s.Promising value items := by
  fun_induction verdict value items s h with
  | case1 s h t hstep ih =>
    obtain ⟨hplace, hmoves⟩ := moves_of_step hstep
    rw [ih (hmoves.aligned haligned), hmoves.promising_iff h haligned hplace]
  | case2 s h b hstep => exact (promising_of_done h haligned hstep).symm

/-- The state of a scan after a number of turns. -/
def turns (value : Array Char) (items : Array Item) (s : Cursor) : Nat → Turn
  | 0 => .next s
  | n + 1 =>
    match s.step value items with
    | .next t => t.turns value items n
    | turn => turn

theorem exists_turns_eq_done (h : s.Within value items) :
    ∃ n ≤ s.distance value items + 1, s.turns value items n = .done (s.verdict value items h) := by
  fun_induction verdict value items s h with
  | case1 s h t hstep ih =>
    obtain ⟨n, hn, hdone⟩ := ih
    have hlt := h.distance_lt hstep
    refine ⟨n + 1, by omega, ?_⟩
    rw [turns, hstep]
    exact hdone
  | case2 s h b hstep =>
    refine ⟨1, Nat.succ_le_succ (Nat.zero_le _), ?_⟩
    rw [turns, hstep]

/-- On its way, a scan stays within the value and the items and does not look outside. -/
theorem turns_within (h : s.Within value items) (n : Nat) :
    s.turns value items n ≠ .outside ∧
      ∀ t, s.turns value items n = .next t → t.Within value items := by
  induction n generalizing s with
  | zero =>
    refine ⟨nofun, ?_⟩
    rintro _ ⟨⟩
    exact h
  | succ n ih =>
    rw [turns]
    split
    · next t hstep => exact ih (h.next hstep)
    · next hnext =>
      exact ⟨h.step_ne_outside, fun t hstep => (hnext t hstep).elim⟩

end Cursor

theorem isMatch_of_items? {pattern : List Char} {items : List Item} (value : List Char)
    (h : items? pattern = some items) : isMatch value pattern =
      Cursor.start.verdict value.toArray items.toArray (Cursor.within_start _ _) := by
  unfold isMatch
  split
  · next hnone => rw [h] at hnone; cases hnone
  · next others hsome =>
    cases h.symm.trans hsome
    rfl

theorem verdict_start_iff (value : List Char) (items : List Item) :
    Cursor.start.verdict value.toArray items.toArray (Cursor.within_start _ _) = true ↔
      Splits items value := by
  have haligned : Cursor.start.Aligned items.toArray := nofun
  have hlater : ¬Cursor.start.SplitsLater value.toArray items.toArray := by
    rintro ⟨run, hlast, -⟩
    cases hlast
  rw [Cursor.verdict_iff_promising _ haligned, Cursor.Promising, or_iff_left hlater]
  exact Iff.rfl

/-- A value matches a pattern that has been read if it can be split along the items. -/
theorem isMatch_iff_of_items? {pattern : List Char} {items : List Item} (value : List Char)
    (h : items? pattern = some items) : isMatch value pattern = true ↔ Splits items value := by
  rw [isMatch_of_items? value h, verdict_start_iff]

theorem exists_items?_of_isMatch {value pattern : List Char} (h : isMatch value pattern = true) :
    ∃ items, items? pattern = some items ∧ Splits items value := by
  cases hitems : items? pattern with
  | none =>
    unfold isMatch at h
    rw [hitems] at h
    cases h
  | some items => exact ⟨items, rfl, (isMatch_iff_of_items? value hitems).mp h⟩

/-- A value matches a pattern just if the pattern does not end in a lone escape and the value can be
split along its items. The scan comes to this verdict after at most so many turns, and on its way
looks for no character and no item that is not there. -/
theorem isMatch_iff_splits (value pattern : List Char) :
    (isMatch value pattern = true ↔
      ¬EndsInEscape pattern ∧ ∃ items, Spells items pattern ∧ Splits items value) ∧
    ∀ items, Spells items pattern →
      (∃ n ≤ (items.length + value.length + 1) * (value.length + 1),
        Cursor.start.turns value.toArray items.toArray n = .done (isMatch value pattern)) ∧
      ∀ n, Cursor.start.turns value.toArray items.toArray n ≠ .outside ∧
        ∀ s, Cursor.start.turns value.toArray items.toArray n = .next s →
          s.place ≤ value.length ∧ s.item ≤ items.length := by
  constructor
  · rw [← items?_eq_none_iff]
    cases hitems : items? pattern with
    | none =>
      have hfalse : isMatch value pattern = false := by unfold isMatch; rw [hitems]
      rw [hfalse]
      exact iff_of_false Bool.false_ne_true fun h => h.1 rfl
    | some items =>
      rw [isMatch_of_items? value hitems, verdict_start_iff]
      constructor
      · exact fun h => ⟨nofun, items, items?_eq_some_iff.mp hitems, h⟩
      · rintro ⟨-, others, hothers, h⟩
        cases hitems.symm.trans (items?_eq_some_iff.mpr hothers)
        exact h
  · intro items hspells
    have hwithin := Cursor.within_start value.toArray items.toArray
    constructor
    · obtain ⟨n, hn, hdone⟩ := Cursor.exists_turns_eq_done hwithin
      rw [← isMatch_of_items? value (items?_eq_some_iff.mpr hspells)] at hdone
      refine ⟨n, Nat.le_trans hn (Nat.le_of_eq ?_), hdone⟩
      rw [Nat.succ_mul]
      rfl
    · intro n
      obtain ⟨hne, hall⟩ := Cursor.turns_within hwithin n
      exact ⟨hne, fun s hs => ⟨(hall s hs).place_le, (hall s hs).item_le⟩⟩

/-- The run first takes nothing, and at last the three characters in front. -/
theorem isMatch_iff_splits_of_retries :
    Spells [.run, .cell (some 'a'), .cell none, .cell (some 'b')] ['%', 'a', '_', '\\', 'b'] ∧
    isMatch ['a', 'x', 'b', 'a', 'y', 'b'] ['%', 'a', '_', '\\', 'b'] = true ∧
    ∃ n ≤ 77, Cursor.start.turns #['a', 'x', 'b', 'a', 'y', 'b']
      #[.run, .cell (some 'a'), .cell none, .cell (some 'b')] n = .done true := by
  have hspells : Spells [.run, .cell (some 'a'), .cell none, .cell (some 'b')]
      ['%', 'a', '_', '\\', 'b'] := items?_eq_some_iff.mp rfl
  have hsplits : Splits [.run, .cell (some 'a'), .cell none, .cell (some 'b')]
      ['a', 'x', 'b', 'a', 'y', 'b'] :=
    ⟨[['a', 'x', 'b'], ['a'], ['y'], ['b']],
      .cons (.run _) (.cons (.char _) (.cons (.any _) (.cons (.char _) .nil))), rfl⟩
  obtain ⟨hiff, hscan⟩ :=
    isMatch_iff_splits ['a', 'x', 'b', 'a', 'y', 'b'] ['%', 'a', '_', '\\', 'b']
  have hmatch := hiff.mpr ⟨by decide, _, hspells, hsplits⟩
  have hturns := (hscan _ hspells).1
  rw [hmatch] at hturns
  exact ⟨hspells, hmatch, hturns⟩

end CriteriaQuery.Like
