import CriteriaQuery.Execution.Sorted
import CriteriaQuery.Proofs.Value.Order

/-! The order of rows of sort keys. It is the lexicographic one of the columns: turning two rows
around turns it around, and it is transitive just if each column is in order
(`compareKeys_laws`). -/
namespace CriteriaQuery
open Std
set_option autoImplicit false

theorem compareKeys_swap (directions : List Direction) (as bs : List Value) :
    compareKeys directions bs as = (compareKeys directions as bs).swap := by
  induction directions generalizing as bs with
  | nil => rfl
  | cons direction directions ih =>
    cases as with
    | nil => cases bs <;> rfl
    | cons a as =>
      cases bs with
      | nil => rfl
      | cons b bs =>
        rw [compareKeys, compareKeys, Ordering.swap_then, Value.sortOrder_swap, ih]

instance (direction : Direction) : OrientedCmp (Value.sortOrder direction) where
  eq_swap := Value.sortOrder_swap direction _ _

instance (directions : List Direction) : OrientedCmp (compareKeys directions) where
  eq_swap := compareKeys_swap directions _ _

/-- Rows of keys, one from each column. -/
abbrev Keys (columns : List (Set Value)) : Type :=
  {keys : List Value // List.Forall₂ (· ∈ ·) keys columns}

section
variable {directions : List Direction} {direction : Direction} {column : Set Value}
  {columns : List (Set Value)}

theorem exists_keys (h : ∀ column ∈ columns, column.Nonempty) : Nonempty (Keys columns) := by
  induction columns with
  | nil => exact ⟨[], .nil⟩
  | cons column columns ih =>
    obtain ⟨a, ha⟩ := h column List.mem_cons_self
    obtain ⟨as, has⟩ := ih fun other hother => h other (List.mem_cons_of_mem column hother)
    exact ⟨a :: as, .cons ha has⟩

theorem transCmp_sortOrder_iff :
    (TransCmp fun a b : column => Value.sortOrder direction a b) ↔ Orderly column := by
  have hdescending : (fun a b : column => Value.sortOrder .descending a b) =
      fun a b : column => Value.ascending b a := by
    funext a b
    exact (Value.ascending_swap a b).symm
  cases direction with
  | ascending => exact ⟨Orderly.of_transCmp, Orderly.transCmp⟩
  | descending =>
    rw [hdescending]
    constructor
    · intro h
      have hopposite : TransCmp fun a b : column => Value.ascending a b := @TransCmp.opposite _ _ h
      exact .of_transCmp hopposite
    · intro h
      exact @TransCmp.opposite _ _ h.transCmp

theorem TransCmp.comap {α β : Type} {cmp : β → β → Ordering} (h : TransCmp cmp) (f : α → β) :
    TransCmp fun a b => cmp (f a) (f b) where
  eq_swap := h.eq_swap
  isLE_trans := h.isLE_trans

/-- Rows of keys from columns in order are in order. -/
theorem transCmp_of_orderly (h : ∀ column ∈ columns, Orderly column) :
    TransCmp fun as bs : Keys columns => compareKeys directions as.1 bs.1 := by
  induction columns generalizing directions with
  | nil =>
    refine @TransCmp.mk _ _ ⟨compareKeys_swap _ _ _⟩ ?_
    rintro ⟨_, ⟨⟩⟩ ⟨_, ⟨⟩⟩ ⟨_, ⟨⟩⟩ - -
    cases directions <;> rfl
  | cons column columns ih =>
    cases directions with
    | nil => exact @TransCmp.mk _ _ ⟨rfl⟩ fun _ _ => rfl
    | cons direction directions =>
      rw [List.forall_mem_cons] at h
      have hfirst : TransCmp fun a b : column => Value.sortOrder direction a b :=
        transCmp_sortOrder_iff.mpr h.1
      have hrest : TransCmp fun as bs : Keys columns => compareKeys directions as.1 bs.1 := ih h.2
      have hfirsts := TransCmp.comap hfirst (Prod.fst : column × Keys columns → column)
      have hothers := TransCmp.comap hrest (Prod.snd : column × Keys columns → Keys columns)
      have hlex : TransCmp fun p q : column × Keys columns =>
          (Value.sortOrder direction p.1 q.1).then (compareKeys directions p.2.1 q.2.1) :=
        inferInstanceAs (TransCmp (compareLex _ _))
      refine @TransCmp.mk _ _ ⟨compareKeys_swap _ _ _⟩ ?_
      rintro ⟨_, hx⟩ ⟨_, hy⟩ ⟨_, hz⟩
      obtain ⟨a, as, ha, has, rfl⟩ := List.forall₂_cons_right_iff.mp hx
      obtain ⟨b, bs, hb, hbs, rfl⟩ := List.forall₂_cons_right_iff.mp hy
      obtain ⟨c, cs, hc, hcs, rfl⟩ := List.forall₂_cons_right_iff.mp hz
      exact @hlex.isLE_trans (⟨a, ha⟩, ⟨as, has⟩) (⟨b, hb⟩, ⟨bs, hbs⟩) (⟨c, hc⟩, ⟨cs, hcs⟩)

/-- If rows of keys are in order, then so is each column: rows that differ in one key alone are in
the order of this key. -/
theorem orderly_of_transCmp (hlength : columns.length = directions.length)
    (hcolumns : ∀ column ∈ columns, column.Nonempty)
    (h : TransCmp fun as bs : Keys columns => compareKeys directions as.1 bs.1) :
    ∀ column ∈ columns, Orderly column := by
  induction columns generalizing directions with
  | nil => exact fun column hcolumn => absurd hcolumn List.not_mem_nil
  | cons column columns ih =>
    obtain ⟨direction, directions, rfl⟩ := List.exists_cons_of_length_eq_add_one hlength.symm
    rw [List.forall_mem_cons] at hcolumns ⊢
    obtain ⟨⟨first, hfirst⟩, hrest⟩ := hcolumns
    obtain ⟨others, hothers⟩ := exists_keys hrest
    constructor
    · have hsort := TransCmp.comap h fun a : column =>
        (⟨a.1 :: others, .cons a.2 hothers⟩ : Keys (column :: columns))
      have hself : compareKeys directions others others = .eq := ReflCmp.compare_self
      simp only [compareKeys, hself, Ordering.then_eq] at hsort
      exact transCmp_sortOrder_iff.mp hsort
    · have hkeys := TransCmp.comap h fun as : Keys columns =>
        (⟨first :: as.1, .cons hfirst as.2⟩ : Keys (column :: columns))
      have hself : Value.sortOrder direction first first = .eq := ReflCmp.compare_self
      simp only [compareKeys, hself, Ordering.eq_then] at hkeys
      exact ih (by simpa using hlength) hrest hkeys

end

/-- On rows with one key from each column, not to come after one another is transitive, and neither
to come before nor after one another is. -/
def KeysTransitive (directions : List Direction) (columns : List (Set Value)) : Prop :=
  ∀ as bs cs : List Value, List.Forall₂ (· ∈ ·) as columns → List.Forall₂ (· ∈ ·) bs columns →
    List.Forall₂ (· ∈ ·) cs columns →
      (compareKeys directions as bs ≠ .gt → compareKeys directions bs cs ≠ .gt →
        compareKeys directions as cs ≠ .gt) ∧
      (compareKeys directions as bs = .eq → compareKeys directions bs cs = .eq →
        compareKeys directions as cs = .eq)

theorem keysTransitive_iff_transCmp {directions : List Direction} {columns : List (Set Value)} :
    KeysTransitive directions columns ↔
      TransCmp fun as bs : Keys columns => compareKeys directions as.1 bs.1 := by
  constructor
  · intro h
    refine @TransCmp.mk _ _ ⟨compareKeys_swap _ _ _⟩ ?_
    rintro ⟨as, has⟩ ⟨bs, hbs⟩ ⟨cs, hcs⟩ hab hbc
    rw [← Ordering.ne_gt_iff_isLE] at hab hbc ⊢
    exact (h as bs cs has hbs hcs).1 hab hbc
  · intro h as bs cs has hbs hcs
    simp only [ne_eq, Ordering.ne_gt_iff_isLE]
    exact ⟨@h.isLE_trans ⟨as, has⟩ ⟨bs, hbs⟩ ⟨cs, hcs⟩,
      @TransCmp.eq_trans _ _ h ⟨as, has⟩ ⟨bs, hbs⟩ ⟨cs, hcs⟩⟩

/-- Exchanging two rows of keys turns their order around. It is transitive on the rows with a key
from each column just if the values of each column are in order. -/
theorem compareKeys_laws (directions : List Direction) :
    (∀ as bs, compareKeys directions bs as = (compareKeys directions as bs).swap) ∧
    ∀ columns : List (Set Value), columns.length = directions.length →
      (∀ column ∈ columns, column.Nonempty) →
        (KeysTransitive directions columns ↔ ∀ column ∈ columns, Orderly column) := by
  refine ⟨compareKeys_swap directions, fun columns hlength hcolumns => ?_⟩
  rw [keysTransitive_iff_transCmp]
  exact ⟨orderly_of_transCmp hlength hcolumns, transCmp_of_orderly⟩

/-- Integers of both widths and nulls are in order, and so are texts. -/
theorem keysTransitive_integers_strings :
    KeysTransitive [.descending, .ascending]
      [{v | v = .null ∨ v.int?.isSome = true}, {v | v.string?.isSome = true}] := by
  refine ((compareKeys_laws [.descending, .ascending]).2 _ rfl ?_).mpr ?_
  · rw [List.forall_mem_cons, List.forall_mem_singleton]
    exact ⟨⟨.null, .inl rfl⟩, ⟨.string "", rfl⟩⟩
  · rw [List.forall_mem_cons, List.forall_mem_singleton]
    constructor
    · refine @Orderly.of_kind _ .number ?_ ?_
      · rintro v (hnull | hint)
        · exact .inl hnull
        · obtain ⟨n, hn⟩ := Option.isSome_iff_exists.mp hint
          exact .inr (.of_int hn)
      · rintro x (hnull | hint)
        · cases hnull
        · cases hint
    · refine @Orderly.of_kind _ .string ?_ ?_
      · intro v hv
        cases v <;> first | exact .inr (.string _) | cases hv
      · intro x hx
        cases hx

/-- A text is level with both truth values, and a floating-point number with two large integers, none
of which are level with each other. -/
theorem compareKeys_not_transitive :
    (compareKeys [.ascending] [.bool true] [.string "a"] = .eq ∧
      compareKeys [.ascending] [.string "a"] [.bool false] = .eq ∧
      compareKeys [.ascending] [.bool true] [.bool false] = .gt) ∧
    (compareKeys [.ascending] [.int64 9007199254740993]
        [.float64 (Value.nearestFloat 9007199254740992)] = .eq ∧
      compareKeys [.ascending] [.float64 (Value.nearestFloat 9007199254740992)]
        [.int64 9007199254740992] = .eq ∧
      compareKeys [.ascending] [.int64 9007199254740993] [.int64 9007199254740992] = .gt) := by
  decide +kernel

end CriteriaQuery
