/-! LIKE patterns. In a pattern `%` stands for any run of characters and `_` for any one
character; a backslash takes the next character literally. A value is scanned item by item. A run
takes nothing at first; when an item does not fit, the last run takes one character more, and the
scan goes on behind it. -/
namespace CriteriaQuery.Like
set_option autoImplicit false

/-! ## Patterns -/

/-- A place for one character: a character of its own, or any. -/
abbrev Cell := Option Char

/-- What a pattern is made of. -/
inductive Item where
  | run
  | cell (c : Cell)
deriving DecidableEq, Repr

/-- The items of a pattern, `none` if it ends in a backslash that escapes nothing. -/
def items? : List Char → Option (List Item)
  | [] => some []
  | '%' :: rest => (items? rest).map (.run :: ·)
  | '_' :: rest => (items? rest).map (.cell none :: ·)
  | '\\' :: c :: rest => (items? rest).map (.cell (some c) :: ·)
  | '\\' :: [] => none
  | c :: rest => (items? rest).map (.cell (some c) :: ·)

def Cell.fits (cell : Cell) (c : Char) : Bool := cell.all (· == c)

/-! ## The scan -/

/-- A run that has been passed, with the number of characters up to the end of what it takes. -/
structure LastRun where
  index : Nat
  taken : Nat

/-- How far a scan has come: the numbers of characters and of items that it has passed, and the
last run among the items. -/
structure Cursor where
  place : Nat
  item : Nat
  last : Option LastRun

/-- What comes of one turn of a scan. -/
inductive Turn where
  | next (cursor : Cursor)
  | done (verdict : Bool)
  /-- The turn asked for a character or for an item that is not there. -/
  | outside

namespace Cursor

def start : Cursor := ⟨0, 0, none⟩

/-- Lets the last run take one character more. -/
def retry (s : Cursor) : Turn :=
  match s.last with
  | some run => .next ⟨run.taken + 1, run.index + 1, some ⟨run.index, run.taken + 1⟩⟩
  | none => .done false

/-- One turn. Behind the last character only runs may be left, which then take nothing. -/
def step (value : Array Char) (items : Array Item) (s : Cursor) : Turn :=
  if s.place < value.size then
    match items[s.item]? with
    | some .run => .next ⟨s.place, s.item + 1, some ⟨s.item, s.place⟩⟩
    | some (.cell cell) =>
      match value[s.place]? with
      | some c => if cell.fits c then .next ⟨s.place + 1, s.item + 1, s.last⟩ else s.retry
      | none => .outside
    | none => s.retry
  else if s.item ≤ items.size then .done ((items.toList.drop s.item).all (· == .run))
  else .outside

/-! ## The end of the scan

A scan that goes back does so to a later place than the time before, or behind a later run. -/

/-- A cursor stands within the value and the pattern, and its last run lies behind it. -/
structure Within (value : Array Char) (items : Array Item) (s : Cursor) : Prop where
  place_le : s.place ≤ value.size
  item_le : s.item ≤ items.size
  index_lt : ∀ run, s.last = some run → run.index < s.item
  taken_le : ∀ run, s.last = some run → run.taken ≤ s.place

/-- How far the last run has come, in items and in characters. -/
def progress (s : Cursor) : Nat :=
  match s.last with
  | some run => run.index + 1 + run.taken
  | none => 0

/-- A bound on the number of turns that are still to come. -/
def distance (value : Array Char) (items : Array Item) (s : Cursor) : Nat :=
  (items.size + value.size - s.progress) * (value.size + 1) + (value.size - s.place)

/-- The item in front of a cursor does not fit, or there is none. -/
def Stuck (value : Array Char) (items : Array Item) (s : Cursor) : Prop :=
  ∀ item, items[s.item]? = some item →
    ∃ cell c, item = .cell cell ∧ value[s.place]? = some c ∧ cell.fits c = false

/-- How a cursor moves on: behind a run, behind a cell that fits, or behind the last run. -/
inductive Moves (value : Array Char) (items : Array Item) (s : Cursor) : Cursor → Prop
  | run (hitem : items[s.item]? = some .run) :
      Moves value items s ⟨s.place, s.item + 1, some ⟨s.item, s.place⟩⟩
  | cell {cell : Cell} {c : Char} (hitem : items[s.item]? = some (.cell cell))
      (hchar : value[s.place]? = some c) (hfits : cell.fits c = true) :
      Moves value items s ⟨s.place + 1, s.item + 1, s.last⟩
  | retry {run : LastRun} (hlast : s.last = some run) (hstuck : s.Stuck value items) :
      Moves value items s ⟨run.taken + 1, run.index + 1, some ⟨run.index, run.taken + 1⟩⟩

section
variable {value : Array Char} {items : Array Item} {s t : Cursor}

theorem step_of_stuck (hplace : s.place < value.size) (hstuck : s.Stuck value items) :
    s.step value items = s.retry := by
  rw [step, if_pos hplace]
  cases hitem : items[s.item]? with
  | none => rfl
  | some item =>
    obtain ⟨cell, c, rfl, hchar, hfits⟩ := hstuck item hitem
    simp only [hchar, hfits]
    rfl

variable (items) in
/-- A cursor in front of a character takes a run, a cell that fits, or is stuck. -/
theorem moves_or_stuck (hplace : s.place < value.size) :
    (∃ t, s.step value items = .next t ∧ Moves value items s t) ∨
      s.Stuck value items := by
  obtain ⟨c, hchar⟩ : ∃ c, value[s.place]? = some c := ⟨_, Array.getElem?_eq_getElem hplace⟩
  cases hitem : items[s.item]? with
  | none => exact .inr fun item h => by simp [hitem] at h
  | some item =>
    cases item with
    | run => exact .inl ⟨_, by simp only [step, if_pos hplace, hitem], .run hitem⟩
    | cell cell =>
      cases hfits : cell.fits c with
      | true =>
        refine .inl ⟨_, ?_, .cell hitem hchar hfits⟩
        simp only [step, if_pos hplace, hitem, hchar, hfits, if_true]
      | false =>
        refine .inr fun item h => ⟨cell, c, ?_, hchar, hfits⟩
        exact (Option.some.inj (hitem.symm.trans h)).symm

theorem moves_of_step (h : s.step value items = .next t) :
    s.place < value.size ∧ Moves value items s t := by
  by_cases hplace : s.place < value.size
  · refine ⟨hplace, ?_⟩
    rcases moves_or_stuck items hplace with ⟨other, hother, hmoves⟩ | hstuck
    · rw [h] at hother
      cases hother
      exact hmoves
    · rw [step_of_stuck hplace hstuck, retry] at h
      split at h
      · next run hlast =>
        cases h
        exact .retry hlast hstuck
      · cases h
  · rw [step, if_neg hplace] at h
    split at h <;> cases h

namespace Within
variable (h : s.Within value items)
include h

theorem progress_le : s.progress ≤ items.size + value.size := by
  have hplace := h.place_le
  have hitem := h.item_le
  unfold progress
  split
  · next run hlast =>
    have hindex := h.index_lt run hlast
    have htaken := h.taken_le run hlast
    omega
  · exact Nat.zero_le _

/-- A cursor that stands within the value and the pattern does not look outside of them. -/
theorem step_ne_outside : s.step value items ≠ .outside := by
  by_cases hplace : s.place < value.size
  · rcases moves_or_stuck items hplace with ⟨t, ht, -⟩ | hstuck
    · rw [ht]
      exact nofun
    · rw [step_of_stuck hplace hstuck, retry]
      split <;> exact nofun
  · rw [step, if_neg hplace, if_pos h.item_le]
    exact nofun

theorem next (hstep : s.step value items = .next t) : t.Within value items := by
  obtain ⟨hplace, hmoves⟩ := moves_of_step hstep
  have hplace_le := h.place_le
  have hlt : ∀ item, items[s.item]? = some item → s.item < items.size :=
    fun _ hitem => (Array.getElem?_eq_some_iff.mp hitem).1
  cases hmoves with
  | run hitem =>
    refine ⟨h.place_le, hlt _ hitem, ?_, ?_⟩
    · rintro _ ⟨⟩
      exact Nat.lt_succ_self _
    · rintro _ ⟨⟩
      exact Nat.le_refl _
  | cell hitem =>
    refine ⟨hplace, hlt _ hitem, fun run hlast => ?_, fun run hlast => ?_⟩
    · exact Nat.lt_succ_of_lt (h.index_lt run hlast)
    · exact Nat.le_succ_of_le (h.taken_le run hlast)
  | retry hlast =>
    have htaken := h.taken_le _ hlast
    have hindex := h.index_lt _ hlast
    have hitem := h.item_le
    refine ⟨by dsimp only; omega, by dsimp only; omega, ?_, ?_⟩
    · rintro _ ⟨⟩
      exact Nat.lt_succ_self _
    · rintro _ ⟨⟩
      exact Nat.le_refl _

theorem distance_lt (hstep : s.step value items = .next t) :
    t.distance value items < s.distance value items := by
  obtain ⟨hplace, hmoves⟩ := moves_of_step hstep
  have hprogress : t.progress ≤ items.size + value.size := (h.next hstep).progress_le
  -- A run that is passed or takes one character more outweighs all characters in front of it.
  have hlt : s.progress < t.progress → t.distance value items < s.distance value items := by
    intro hmore
    have hmul : (items.size + value.size - t.progress + 1) * (value.size + 1) ≤
        (items.size + value.size - s.progress) * (value.size + 1) :=
      Nat.mul_le_mul_right _ (by omega)
    rw [Nat.succ_mul] at hmul
    unfold distance
    omega
  cases hmoves with
  | run hitem =>
    apply hlt
    unfold progress
    split
    · next run hlast =>
      have hindex := h.index_lt run hlast
      have htaken := h.taken_le run hlast
      dsimp only
      omega
    · dsimp only
      omega
  | cell =>
    have hsame : progress ⟨s.place + 1, s.item + 1, s.last⟩ = s.progress := rfl
    unfold distance
    rw [hsame]
    dsimp only
    omega
  | retry hlast =>
    apply hlt
    unfold progress
    rw [hlast]
    dsimp only
    omega

end Within
end

/-- The verdict of a cursor on the characters and items in front of it. -/
@[semireducible]
def verdict (value : Array Char) (items : Array Item) (s : Cursor) (h : s.Within value items) :
    Bool :=
  match hstep : s.step value items with
  | .next t => t.verdict value items (h.next hstep)
  | .done b => b
  | .outside => (h.step_ne_outside hstep).elim
termination_by s.distance value items
decreasing_by exact h.distance_lt hstep

theorem within_start (value : Array Char) (items : Array Item) : start.Within value items where
  place_le := Nat.zero_le _
  item_le := Nat.zero_le _
  index_lt := nofun
  taken_le := nofun

end Cursor

def isMatch (value pattern : List Char) : Bool :=
  match items? pattern with
  | none => false
  | some items => Cursor.start.verdict value.toArray items.toArray (Cursor.within_start _ _)

end CriteriaQuery.Like
