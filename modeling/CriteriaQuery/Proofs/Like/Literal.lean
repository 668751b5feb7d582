import CriteriaQuery.Proofs.Like.Scan

/-! Patterns made of a text with runs around it. A text without wildcards and without backslashes
stands for itself there, so that the pattern asks for a prefix (`isMatch_prefix_iff`) or for an
infix (`isMatch_infix_iff`). Every other text also stands for one that it does not occur in
(`exists_stand_in`). -/
namespace CriteriaQuery.Like
set_option autoImplicit false

/-! ## Literal texts -/

/-- Whether a character has a meaning of its own in patterns. -/
def isSpecial (c : Char) : Bool := c = '%' || c = '_' || c = '\\'

theorem isSpecial_iff {c : Char} : isSpecial c = true ↔ c = '%' ∨ c = '_' ∨ c = '\\' := by
  simp only [isSpecial, Bool.or_eq_true, decide_eq_true_iff, or_assoc]

theorem isSpecial_eq_false_iff {c : Char} :
    isSpecial c = false ↔ c ≠ '%' ∧ c ≠ '_' ∧ c ≠ '\\' := by
  rw [← Bool.not_eq_true, isSpecial_iff, not_or, not_or]

/-- A text that patterns take as it is. -/
def Literal (text : List Char) : Prop := ∀ c ∈ text, isSpecial c = false

instance (text : List Char) : Decidable (Literal text) :=
  inferInstanceAs (Decidable (∀ c ∈ text, isSpecial c = false))

/-- The items that take a text character by character. -/
def literalItems (text : List Char) : List Item := text.map fun c => .cell (some c)

section
variable {text rest value : List Char} {items : List Item}

theorem Item.spelled_of_not_special {c : Char} (h : isSpecial c = false) :
    Item.Spelled (.cell (some c)) [c] := by
  obtain ⟨hrun, hany, hescape⟩ := isSpecial_eq_false_iff.mp h
  exact .plain c hrun hany hescape

theorem literal_cons {c : Char} : Literal (c :: text) ↔ isSpecial c = false ∧ Literal text :=
  List.forall_mem_cons

theorem items?_literal (h : Literal text) (rest : List Char) :
    items? (text ++ rest) = (items? rest).map (literalItems text ++ ·) := by
  induction text with
  | nil => exact Option.map_id'.symm
  | cons c text ih =>
    obtain ⟨hc, htext⟩ := literal_cons.mp h
    have hpiece := items?_piece (Item.spelled_of_not_special hc) (text ++ rest)
    rw [List.singleton_append] at hpiece
    rw [List.cons_append, hpiece, ih htext, Option.map_map]
    rfl

theorem splits_literalItems : Splits (literalItems text ++ items) value ↔
    ∃ rest, value = text ++ rest ∧ Splits items rest := by
  induction text generalizing value with
  | nil => simp [literalItems]
  | cons c text ih =>
    have hcons : literalItems (c :: text) ++ items =
        .cell (some c) :: (literalItems text ++ items) := rfl
    rw [hcons, splits_cell]
    constructor
    · rintro ⟨d, others, rfl, hfits, hothers⟩
      obtain ⟨rest, rfl, hrest⟩ := ih.mp hothers
      have hd : c = d := by simpa [Cell.fits] using hfits
      exact ⟨rest, by rw [hd, List.cons_append], hrest⟩
    · rintro ⟨rest, rfl, hrest⟩
      exact ⟨c, text ++ rest, rfl, by simp [Cell.fits], ih.mpr ⟨rest, rfl, hrest⟩⟩

/-- A run at the end takes whatever is left. -/
theorem splits_last_run (value : List Char) : Splits [.run] value :=
  ⟨[value], .cons (.run value) .nil, by simp⟩

theorem splits_behind : Splits (literalItems text ++ [.run]) value ↔ text <+: value := by
  rw [splits_literalItems]
  constructor
  · rintro ⟨rest, rfl, -⟩
    exact List.prefix_append text rest
  · rintro ⟨rest, rfl⟩
    exact ⟨rest, rfl, splits_last_run rest⟩

theorem splits_around : Splits (.run :: literalItems text ++ [.run]) value ↔ text <:+: value := by
  refine cut_cons.trans ⟨?_, ?_⟩
  · rintro ⟨before, rest, -, hrest, rfl⟩
    exact (splits_behind.mp hrest).isInfix.trans (List.suffix_append before rest).isInfix
  · rintro ⟨before, after, rfl⟩
    refine ⟨before, text ++ after, .run before, ?_, List.append_assoc _ _ _⟩
    exact splits_behind.mpr (List.prefix_append text after)

theorem isMatch_prefix_iff (h : Literal text) :
    isMatch value (text ++ ['%']) = true ↔ text <+: value := by
  have hitems : items? (text ++ ['%']) = some (literalItems text ++ [.run]) := by
    rw [items?_literal h]
    rfl
  rw [isMatch_iff_of_items? value hitems, splits_behind]

theorem isMatch_infix_iff (h : Literal text) :
    isMatch value ('%' :: text ++ ['%']) = true ↔ text <:+: value := by
  have hitems : items? ('%' :: text ++ ['%']) = some (.run :: literalItems text ++ [.run]) := by
    rw [List.cons_append, items?, items?_literal h]
    rfl
  rw [isMatch_iff_of_items? value hitems, splits_around]

end

/-! ## A shortest match

Of the texts that an item takes, one is as short as can be. A pattern is longer than what its items
take in this way, unless each of its characters takes one. -/

/-- A shortest text that an item takes. -/
def Item.sample : Item → List Char
  | .run => []
  | .cell none => ['a']
  | .cell (some c) => [c]

theorem Item.takes_sample (item : Item) : item.Takes item.sample := by
  rcases item with _ | _ | c
  · exact .run []
  · exact .any 'a'
  · exact .char c

theorem splits_sample (items : List Item) : Splits items (items.flatMap Item.sample) := by
  refine ⟨items.map Item.sample, ?_, rfl⟩
  rw [List.forall₂_map_right_iff, List.forall₂_same]
  exact fun item _ => item.takes_sample

/-- A text with a run behind it takes a text that is no longer, and that is itself only if it is
literal. -/
theorem exists_sample (text : List Char) : ∃ items, items? (text ++ ['%']) = some items ∧
    (items.flatMap Item.sample).length ≤ text.length ∧
    (items.flatMap Item.sample = text → Literal text) := by
  induction text using pattern_induction with
  | nil => exact ⟨[.run], rfl, Nat.le_refl 0, fun _ => nofun⟩
  | lone => exact ⟨[.cell (some '%')], rfl, Nat.le_refl 1, nofun⟩
  | @piece item piece rest hitem ih =>
    obtain ⟨items, hitems, hlength, hself⟩ := ih
    refine ⟨item :: items, ?_, ?_⟩
    · rw [List.append_assoc, items?_piece hitem, hitems]
      rfl
    · rw [List.flatMap_cons]
      cases hitem with
      | run =>
        have hshort : (items.flatMap Item.sample).length < (['%'] ++ rest).length :=
          Nat.lt_succ_of_le hlength
        refine ⟨Nat.le_of_lt hshort, fun h => ?_⟩
        rw [Item.sample, List.nil_append] at h
        exact absurd (congrArg List.length h) (Nat.ne_of_lt hshort)
      | any =>
        refine ⟨Nat.succ_le_succ hlength, fun h => ?_⟩
        have hfirst : 'a' = '_' := (List.cons.inj h).1
        exact absurd hfirst (by decide)
      | plain c hrun hany hescape =>
        refine ⟨Nat.succ_le_succ hlength, fun h => ?_⟩
        have hrest : items.flatMap Item.sample = rest := (List.cons.inj h).2
        exact literal_cons.mpr ⟨isSpecial_eq_false_iff.mpr ⟨hrun, hany, hescape⟩, hself hrest⟩
      | escaped c =>
        have hshort : ([c] ++ items.flatMap Item.sample).length < (['\\', c] ++ rest).length :=
          Nat.succ_lt_succ (Nat.lt_succ_of_le hlength)
        refine ⟨Nat.le_of_lt hshort, fun h => ?_⟩
        exact absurd (congrArg List.length h) (Nat.ne_of_lt hshort)

/-- A text that is not literal stands in patterns for a text that it does not occur in. -/
theorem exists_stand_in {text : List Char} (h : ¬Literal text) : ∃ value,
    isMatch value (text ++ ['%']) = true ∧ isMatch value ('%' :: text ++ ['%']) = true ∧
      ¬text <:+: value := by
  obtain ⟨items, hitems, hlength, hself⟩ := exists_sample text
  have hrun : items? ('%' :: text ++ ['%']) = some (.run :: items) := by
    rw [List.cons_append, items?, hitems]
    rfl
  refine ⟨items.flatMap Item.sample, ?_, ?_, fun hpart => ?_⟩
  · exact (isMatch_iff_of_items? _ hitems).mpr (splits_sample items)
  · exact (isMatch_iff_of_items? _ hrun).mpr (splits_sample (.run :: items))
  · exact h (hself (hpart.sublist.eq_of_length_le hlength).symm)

end CriteriaQuery.Like
