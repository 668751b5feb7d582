import CriteriaQuery.Like
import Mathlib.Data.List.Forall2

/-! What a LIKE pattern means: its items, as they are spelled in it, and the values that can be
split along them. Reading a pattern finds these items unless the pattern ends in a lone backslash,
that is, in an odd number of backslashes. -/
namespace CriteriaQuery.Like
set_option autoImplicit false

/-! ## Cutting a text along items -/

/-- A text falls into pieces, one for each item. -/
def Cut (R : Item → List Char → Prop) (items : List Item) (text : List Char) : Prop :=
  ∃ pieces, List.Forall₂ R items pieces ∧ pieces.flatten = text

section
variable {R : Item → List Char → Prop} {item : Item} {items : List Item} {text : List Char}

theorem cut_nil : Cut R [] text ↔ text = [] := by
  constructor
  · rintro ⟨pieces, hpieces, rfl⟩
    cases hpieces
    rfl
  · rintro rfl
    exact ⟨[], .nil, rfl⟩

theorem cut_cons : Cut R (item :: items) text ↔
    ∃ piece rest, R item piece ∧ Cut R items rest ∧ text = piece ++ rest := by
  constructor
  · rintro ⟨pieces, hpieces, rfl⟩
    cases hpieces with
    | cons hfirst hrest => exact ⟨_, _, hfirst, ⟨_, hrest, rfl⟩, rfl⟩
  · rintro ⟨piece, rest, hfirst, ⟨pieces, hrest, rfl⟩, rfl⟩
    exact ⟨piece :: pieces, .cons hfirst hrest, rfl⟩

end

/-! ## Spelling -/

/-- How an item stands in a pattern. -/
inductive Item.Spelled : Item → List Char → Prop
  | run : Spelled .run ['%']
  | any : Spelled (.cell none) ['_']
  | plain (c : Char) (hrun : c ≠ '%') (hany : c ≠ '_') (hescape : c ≠ '\\') :
      Spelled (.cell (some c)) [c]
  | escaped (c : Char) : Spelled (.cell (some c)) ['\\', c]

/-- A pattern is made up of the spellings of items. -/
abbrev Spells (items : List Item) (pattern : List Char) : Prop := Cut Item.Spelled items pattern

/-- A pattern ends in a backslash that is not itself escaped. -/
def EndsInEscape (pattern : List Char) : Prop :=
  (pattern.reverse.takeWhile (· == '\\')).length % 2 = 1

instance (pattern : List Char) : Decidable (EndsInEscape pattern) :=
  inferInstanceAs (Decidable (_ = _))

/-- A pattern is empty, a lone backslash, or an item in front of a pattern. -/
@[elab_as_elim]
theorem pattern_induction {P : List Char → Prop} (nil : P []) (lone : P ['\\'])
    (piece : ∀ {item piece rest}, Item.Spelled item piece → P rest → P (piece ++ rest))
    (pattern : List Char) : P pattern := by
  fun_induction items? pattern with
  | case1 => exact nil
  | case2 rest ih => exact piece .run ih
  | case3 rest ih => exact piece .any ih
  | case4 c rest ih => exact piece (.escaped c) ih
  | case5 => exact lone
  | case6 c rest hrun hany hescape hlone ih =>
    refine piece (.plain c hrun hany fun hc => ?_) ih
    cases rest with
    | nil => exact hlone hc rfl
    | cons d rest => exact hescape d rest hc rfl

theorem items?_piece {item : Item} {piece : List Char} (h : item.Spelled piece)
    (rest : List Char) : items? (piece ++ rest) = (items? rest).map (item :: ·) := by
  cases h with
  | run => rfl
  | any => rfl
  | plain c hrun hany hescape =>
    rw [List.singleton_append, items?]
    · exact hrun
    · exact hany
    · exact fun _ _ hc => absurd hc hescape
    · exact fun hc => absurd hc hescape
  | escaped c => rfl

/-- Reading a pattern finds the items that are spelled in it. -/
theorem items?_eq_some_iff {pattern : List Char} {items : List Item} :
    items? pattern = some items ↔ Spells items pattern := by
  constructor
  · intro h
    induction pattern using pattern_induction generalizing items with
    | nil =>
      cases h
      exact cut_nil.mpr rfl
    | lone => cases h
    | piece hitem ih =>
      rw [items?_piece hitem, Option.map_eq_some_iff] at h
      obtain ⟨others, hothers, rfl⟩ := h
      exact cut_cons.mpr ⟨_, _, hitem, ih hothers, rfl⟩
  · intro h
    induction items generalizing pattern with
    | nil =>
      rw [cut_nil.mp h]
      rfl
    | cons item items ih =>
      obtain ⟨piece, rest, hitem, hrest, rfl⟩ := cut_cons.mp h
      rw [items?_piece hitem, ih hrest]
      rfl

theorem Item.Spelled.even_escapes {item : Item} {piece : List Char} (h : item.Spelled piece) :
    (piece.reverse.takeWhile (· == '\\')).length % 2 = 0 := by
  cases h with
  | run => rfl
  | any => rfl
  | plain c _ _ hescape => simp [hescape]
  | escaped c => by_cases hc : c = '\\' <;> simp [hc]

theorem endsInEscape_piece {item : Item} {piece : List Char} (h : item.Spelled piece)
    (rest : List Char) : EndsInEscape (piece ++ rest) ↔ EndsInEscape rest := by
  have heven := h.even_escapes
  unfold EndsInEscape
  rw [List.reverse_append, List.takeWhile_append]
  split
  · next hall =>
    rw [List.length_append, hall]
    omega
  · exact Iff.rfl

theorem items?_eq_none_iff {pattern : List Char} :
    items? pattern = none ↔ EndsInEscape pattern := by
  induction pattern using pattern_induction with
  | nil => exact iff_of_false nofun (by simp [EndsInEscape])
  | lone => exact iff_of_true rfl rfl
  | piece hitem ih => rw [items?_piece hitem, Option.map_eq_none_iff, endsInEscape_piece hitem, ih]

/-! ## Splitting values -/

/-- What an item takes of a value. -/
inductive Item.Takes : Item → List Char → Prop
  | run (part : List Char) : Takes .run part
  | any (c : Char) : Takes (.cell none) [c]
  | char (c : Char) : Takes (.cell (some c)) [c]

/-- A value can be split into parts that the items take one by one. -/
abbrev Splits (items : List Item) (value : List Char) : Prop := Cut Item.Takes items value

section
variable {items : List Item} {value : List Char}

theorem takes_cell_iff {cell : Cell} {part : List Char} :
    (Item.cell cell).Takes part ↔ ∃ c, cell.fits c = true ∧ part = [c] := by
  constructor
  · rintro (_ | c | c)
    · exact ⟨c, rfl, rfl⟩
    · exact ⟨c, by simp [Cell.fits], rfl⟩
  · rintro ⟨c, hfits, rfl⟩
    cases cell with
    | none => exact .any c
    | some d =>
      have hd : d = c := by simpa [Cell.fits] using hfits
      subst hd
      exact .char d

theorem splits_cell {cell : Cell} : Splits (.cell cell :: items) value ↔
    ∃ c rest, value = c :: rest ∧ cell.fits c = true ∧ Splits items rest := by
  refine cut_cons.trans ⟨?_, ?_⟩
  · rintro ⟨part, rest, htakes, hrest, rfl⟩
    obtain ⟨c, hfits, rfl⟩ := takes_cell_iff.mp htakes
    exact ⟨c, rest, rfl, hfits, hrest⟩
  · rintro ⟨c, rest, rfl, hfits, hrest⟩
    exact ⟨[c], rest, takes_cell_iff.mpr ⟨c, hfits, rfl⟩, hrest, rfl⟩

theorem splits_run : Splits (.run :: items) value ↔
    ∃ k ≤ value.length, Splits items (value.drop k) := by
  refine cut_cons.trans ⟨?_, ?_⟩
  · rintro ⟨part, rest, -, hrest, rfl⟩
    refine ⟨part.length, by simp, ?_⟩
    rwa [List.drop_left]
  · rintro ⟨k, -, hrest⟩
    exact ⟨value.take k, value.drop k, .run _, hrest, (List.take_append_drop k value).symm⟩

/-- A run takes what stands in front of a part that it could stand in front of. -/
theorem splits_run_of_drop {k : Nat} (h : Splits (.run :: items) (value.drop k)) :
    Splits (.run :: items) value := by
  obtain ⟨part, rest, -, hrest, heq⟩ := cut_cons.mp h
  refine cut_cons.mpr ⟨value.take k ++ part, rest, .run _, hrest, ?_⟩
  rw [List.append_assoc, ← heq, List.take_append_drop]

/-- Cells take one character each. -/
theorem splits_cells {cells : List Cell} (h : Splits (cells.map .cell ++ items) value) :
    cells.length ≤ value.length ∧ Splits items (value.drop cells.length) := by
  induction cells generalizing value with
  | nil => exact ⟨Nat.zero_le _, h⟩
  | cons cell cells ih =>
    obtain ⟨c, rest, rfl, -, hrest⟩ := splits_cell.mp h
    obtain ⟨hlength, hdrop⟩ := ih hrest
    exact ⟨Nat.succ_le_succ hlength, hdrop⟩

/-- The empty value is split by runs only. -/
theorem splits_empty : Splits items [] ↔ items.all (· == .run) = true := by
  induction items with
  | nil => exact iff_of_true (cut_nil.mpr rfl) rfl
  | cons item items ih =>
    cases item with
    | run => simp [splits_run, ih]
    | cell cell => simp [splits_cell]

end

end CriteriaQuery.Like
