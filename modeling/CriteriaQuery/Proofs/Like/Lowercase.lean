import CriteriaQuery.Proofs.Like.Literal
import CriteriaQuery.Proofs.Text.Lowercase

/-! Patterns and values that are lower-cased apart from each other. A value that matches a pattern
still does so when both are lower-cased, unless a capital sigma of the pattern has no surroundings
there that settle its image, or a wildcard for one character takes a dotted capital I, whose image
is two (`isMatch_lowercaseFrom`). -/
namespace CriteriaQuery.Like
open Text
set_option autoImplicit false

/-! ## Surroundings in a pattern -/

/-- Whether the nearest character that is not passed over has a case, in every value at once. That
depends on the value if a wildcard or a backslash stands there. -/
def nearestCased? (cs : List Char) : Option Bool :=
  match cs.dropWhile isCaseIgnorable with
  | c :: _ => if isSpecial c then none else some (isCased c)
  | [] => some false

/-- Whether a capital sigma between `before`, read backwards, and `after` has one image in all
values. -/
def settles (before after : List Char) : Bool :=
  match nearestCased? before, nearestCased? after with
  | some false, _ | _, some true => true
  | some true, some false => true
  | _, _ => false

/-- Whether this is so for all capital sigmas of a pattern that follows `before`, read backwards. -/
def settledFrom (before : List Char) : List Char → Bool
  | [] => true
  | c :: rest => (c != 'Σ' || settles before rest) && settledFrom (c :: before) rest

theorem isCaseIgnorable_of_special {c : Char} (h : isSpecial c = true) :
    isCaseIgnorable c = false := by
  rcases isSpecial_iff.mp h with rfl | rfl | rfl <;> decide +kernel

theorem isCased_of_special {c : Char} (h : isSpecial c = true) : isCased c = false := by
  rcases isSpecial_iff.mp h with rfl | rfl | rfl <;> decide +kernel

theorem lowercaseChar_of_special {c : Char} (h : isSpecial c = true) : lowercaseChar c = [c] := by
  rcases isSpecial_iff.mp h with rfl | rfl | rfl <;> decide

theorem ne_sigma_of_special {c : Char} (h : isSpecial c = true) : c ≠ 'Σ' := by
  rintro rfl
  exact absurd h (by decide)

theorem nearestCased?_special {c : Char} (h : isSpecial c = true) (cs : List Char) :
    nearestCased? (c :: cs) = none := by
  simp [nearestCased?, isCaseIgnorable_of_special h, h]

theorem nearestCased?_plain {c : Char} (h : isSpecial c = false) (cs : List Char) :
    nearestCased? (c :: cs) = if isCaseIgnorable c then nearestCased? cs else some (isCased c) := by
  unfold nearestCased?
  rw [List.dropWhile_cons]
  by_cases hc : isCaseIgnorable c = true
  · simp only [hc, if_true]
  · simp only [hc, h, if_false, Bool.false_eq_true]

/-! ## Surroundings in a value -/

/-- What a pattern says of the surroundings of a place is true of a value there. -/
def Agrees (pattern value : List Char) : Prop :=
  ∀ cased, nearestCased? pattern = some cased → meetsCased value = cased

namespace Agrees
variable {pattern value : List Char}

theorem of_special {c : Char} (h : isSpecial c = true) (pattern value : List Char) :
    Agrees (c :: pattern) value := by
  intro cased hcased
  rw [nearestCased?_special h] at hcased
  cases hcased

theorem cons {c : Char} (h : isSpecial c = false) (hagrees : Agrees pattern value) :
    Agrees (c :: pattern) (c :: value) := by
  intro cased hcased
  rw [nearestCased?_plain h] at hcased
  rw [meetsCased_cons]
  split at hcased
  · next hignorable =>
    rw [if_pos hignorable]
    exact hagrees cased hcased
  · next hignorable =>
    rw [if_neg hignorable]
    exact Option.some.inj hcased

theorem refl (cs : List Char) : Agrees cs cs := by
  induction cs with
  | nil =>
    rintro _ ⟨⟩
    rfl
  | cons c cs ih =>
    cases h : isSpecial c with
    | true => exact of_special h cs (c :: cs)
    | false => exact cons h ih

/-- A pattern agrees with the values that it takes. -/
theorem of_splits {items : List Item} (hitems : items? pattern = some items)
    (hsplits : Splits items value) : Agrees pattern value := by
  induction pattern using pattern_induction generalizing items value with
  | nil =>
    cases hitems
    rw [cut_nil.mp hsplits]
    exact refl []
  | lone => cases hitems
  | @piece item piece rest hitem ih =>
    rw [items?_piece hitem, Option.map_eq_some_iff] at hitems
    obtain ⟨others, hothers, rfl⟩ := hitems
    cases hitem with
    | run => exact of_special rfl rest value
    | any => exact of_special rfl rest value
    | escaped c => exact of_special rfl (c :: rest) value
    | plain c hrun hany hescape =>
      obtain ⟨d, after, rfl, hfits, hafter⟩ := splits_cell.mp hsplits
      have hd : c = d := by simpa [Cell.fits] using hfits
      subst hd
      exact cons (isSpecial_eq_false_iff.mpr ⟨hrun, hany, hescape⟩) (ih hothers hafter)

end Agrees

/-- Surroundings that settle the image of a capital sigma give it the same image in a value. -/
theorem endsWord_of_settles {before after before' after' : List Char}
    (h : settles before after = true) (hbefore : Agrees before before')
    (hafter : Agrees after after') : endsWord before after = endsWord before' after' := by
  have hself := Agrees.refl before
  have hself' := Agrees.refl after
  unfold settles at h
  unfold endsWord
  split at h
  · next hcased => rw [hself _ hcased, hbefore _ hcased, Bool.false_and, Bool.false_and]
  · next hcased _ =>
    rw [hself' _ hcased, hafter _ hcased, Bool.not_true, Bool.and_false, Bool.and_false]
  · next hcased hcased' =>
    rw [hself _ hcased, hself' _ hcased', hbefore _ hcased, hafter _ hcased']
  · cases h

/-! ## Images in a pattern -/

section
variable {before after : List Char} {c : Char}

theorem literal_imageIn (h : isSpecial c = false) : Literal (imageIn before after c) := by
  intro d hd
  by_contra hspecial
  rw [Bool.not_eq_false] at hspecial
  have hcode : 0 < d.toNat ∧ d.toNat ≤ 0x5F := by
    rcases isSpecial_iff.mp hspecial with rfl | rfl | rfl <;> decide
  rw [eq_of_mem_imageIn hd hcode.1 hcode.2, h] at hspecial
  cases hspecial

theorem imageIn_of_special (h : isSpecial c = true) : imageIn before after c = [c] := by
  rw [imageIn, if_neg fun hand => ne_sigma_of_special h hand.1, lowercaseChar_of_special h]

/-- The image of a character behind a backslash is read character by character. -/
theorem items?_escaped_imageIn (rest : List Char) :
    items? ('\\' :: imageIn before after c ++ rest) =
      (items? rest).map (literalItems (imageIn before after c) ++ ·) := by
  cases h : isSpecial c with
  | true =>
    rw [imageIn_of_special h]
    exact items?_piece (.escaped c) rest
  | false =>
    have hliteral : Literal (imageIn before after c) := literal_imageIn h
    cases himage : imageIn before after c with
    | nil => exact absurd himage (imageIn_ne_nil before after c)
    | cons d ds =>
      rw [himage] at hliteral
      have hpiece := items?_piece (.escaped d) (ds ++ rest)
      rw [items?_literal (literal_cons.mp hliteral).2, Option.map_map] at hpiece
      exact hpiece

end

/-! ## Lower-casing both -/

/-- The image of a value behind `before'` splits along the image of a pattern behind `before`. -/
def Lowers (before before' pattern value : List Char) : Prop :=
  ∃ items, items? (lowercaseFrom before pattern) = some items ∧
    Splits items (lowercaseFrom before' value)

namespace Lowers
variable {before before' pattern value : List Char}

theorem nil : Lowers before before' [] [] := ⟨[], rfl, cut_nil.mpr rfl⟩

theorem run {part : List Char}
    (h : Lowers ('%' :: before) (part.reverse ++ before') pattern value) :
    Lowers before before' ('%' :: pattern) (part ++ value) := by
  obtain ⟨items, hitems, hsplits⟩ := h
  obtain ⟨image, himage⟩ := lowercaseFrom_suffix before' part value
  refine ⟨.run :: items, ?_, cut_cons.mpr ⟨image, _, .run image, hsplits, himage.symm⟩⟩
  rw [lowercaseFrom_cons, imageIn_of_special rfl, List.singleton_append, items?, hitems]
  rfl

theorem any {c : Char} (hc : c ≠ 'İ') (h : Lowers ('_' :: before) (c :: before') pattern value) :
    Lowers before before' ('_' :: pattern) (c :: value) := by
  obtain ⟨items, hitems, hsplits⟩ := h
  obtain ⟨d, hd⟩ := imageIn_eq_singleton before' value hc
  refine ⟨.cell none :: items, ?_, ?_⟩
  · rw [lowercaseFrom_cons, imageIn_of_special rfl, List.singleton_append, items?, hitems]
    rfl
  · rw [lowercaseFrom_cons, hd]
    exact splits_cell.mpr ⟨d, _, rfl, rfl, hsplits⟩

theorem plain {c : Char} (hc : isSpecial c = false)
    (himage : imageIn before pattern c = imageIn before' value c)
    (h : Lowers (c :: before) (c :: before') pattern value) :
    Lowers before before' (c :: pattern) (c :: value) := by
  obtain ⟨items, hitems, hsplits⟩ := h
  refine ⟨literalItems (imageIn before pattern c) ++ items, ?_, ?_⟩
  · rw [lowercaseFrom_cons, items?_literal (literal_imageIn hc), hitems]
    rfl
  · rw [lowercaseFrom_cons, ← himage]
    exact splits_literalItems.mpr ⟨_, rfl, hsplits⟩

theorem escaped {c : Char} (himage : imageIn ('\\' :: before) pattern c = imageIn before' value c)
    (h : Lowers (c :: '\\' :: before) (c :: before') pattern value) :
    Lowers before before' ('\\' :: c :: pattern) (c :: value) := by
  obtain ⟨items, hitems, hsplits⟩ := h
  refine ⟨literalItems (imageIn ('\\' :: before) pattern c) ++ items, ?_, ?_⟩
  · rw [lowercaseFrom_cons, imageIn_of_special rfl, lowercaseFrom_cons, List.singleton_append,
      ← List.cons_append, items?_escaped_imageIn, hitems]
    rfl
  · rw [lowercaseFrom_cons, ← himage]
    exact splits_literalItems.mpr ⟨_, rfl, hsplits⟩

end Lowers

/-- Settled surroundings give a character of a pattern the same image as in a value. -/
theorem imageIn_eq_of_settles {before before' after after' : List Char} {c : Char}
    (hsettled : (c != 'Σ' || settles before after) = true) (hbefore : Agrees before before')
    (hafter : Agrees after after') : imageIn before after c = imageIn before' after' c := by
  apply imageIn_congr
  rintro rfl
  exact endsWord_of_settles (by simpa using hsettled) hbefore hafter

/-- No dotted capital I can meet a wildcard for one character. -/
def Undotted (items : List Item) (value : List Char) : Prop :=
  'İ' ∈ value → Item.cell none ∉ items

theorem Undotted.tail {item : Item} {items : List Item} {part value : List Char}
    (h : Undotted (item :: items) (part ++ value)) : Undotted items value :=
  fun hvalue hmem => h (List.mem_append_right part hvalue) (List.mem_cons_of_mem item hmem)

/-- Behind surroundings that agree, the image of a value splits along the image of a pattern. -/
theorem lowers_of_splits {pattern value before before' : List Char} {items : List Item}
    (hitems : items? pattern = some items) (hsplits : Splits items value)
    (hbefore : Agrees before before') (hsettled : settledFrom before pattern = true)
    (hdotted : Undotted items value) : Lowers before before' pattern value := by
  induction pattern using pattern_induction generalizing items value before before' with
  | nil =>
    cases hitems
    rw [cut_nil.mp hsplits]
    exact Lowers.nil
  | lone => cases hitems
  | @piece item piece rest hitem ih =>
    rw [items?_piece hitem, Option.map_eq_some_iff] at hitems
    obtain ⟨others, hothers, rfl⟩ := hitems
    obtain ⟨part, after, htakes, hafter, rfl⟩ := cut_cons.mp hsplits
    have hnext : Agrees rest after := Agrees.of_splits hothers hafter
    have hrest : ∀ {b b' : List Char}, Agrees b b' → settledFrom b rest = true →
        Lowers b b' rest after :=
      fun hb hs => ih hothers hafter hb hs hdotted.tail
    -- what stands behind the piece agrees too: a special character says nothing of the value
    cases hitem with
    | run => exact Lowers.run (hrest (Agrees.of_special rfl before _) hsettled)
    | any =>
      cases htakes with
      | any c =>
        have hc : c ≠ 'İ' := by
          rintro rfl
          exact hdotted List.mem_cons_self List.mem_cons_self
        exact Lowers.any hc (hrest (Agrees.of_special rfl before _) hsettled)
    | plain c hrun hany hescape =>
      cases htakes with
      | char =>
        have hspecial : isSpecial c = false := isSpecial_eq_false_iff.mpr ⟨hrun, hany, hescape⟩
        rw [List.singleton_append, settledFrom, Bool.and_eq_true] at hsettled
        have himage := imageIn_eq_of_settles hsettled.1 hbefore hnext
        exact Lowers.plain hspecial himage (hrest (hbefore.cons hspecial) hsettled.2)
    | escaped c =>
      cases htakes with
      | char =>
        have hback : Agrees ('\\' :: before) before' := Agrees.of_special rfl before before'
        have hc : Agrees (c :: '\\' :: before) (c :: before') := by
          cases hspecial : isSpecial c with
          | true => exact Agrees.of_special hspecial _ _
          | false => exact hback.cons hspecial
        rw [List.cons_append, List.singleton_append, settledFrom, Bool.and_eq_true, settledFrom,
          Bool.and_eq_true] at hsettled
        have himage := imageIn_eq_of_settles hsettled.2.1 hback hnext
        exact Lowers.escaped himage (hrest hc hsettled.2.2)

/-- Whether a wildcard for one character occurs in a pattern. -/
def takesAny (pattern : List Char) : Bool :=
  (items? pattern).any fun items => decide (Item.cell none ∈ items)

/-- Lower-casing both takes no match away: each capital sigma of the pattern has one image in all
values, and no wildcard can take a character whose image is two. -/
structure CaseSafe (pattern value : List Char) : Prop where
  settled : settledFrom [] pattern = true
  undotted : 'İ' ∈ value → takesAny pattern = false

theorem isMatch_lowercaseFrom {value pattern : List Char} (hsafe : CaseSafe pattern value)
    (h : isMatch value pattern = true) :
    isMatch (lowercaseFrom [] value) (lowercaseFrom [] pattern) = true := by
  obtain ⟨items, hitems, hsplits⟩ := exists_items?_of_isMatch h
  have hdotted : Undotted items value := by
    intro hvalue hmem
    have hnone := hsafe.undotted hvalue
    rw [takesAny, hitems, Option.any_some, decide_eq_false_iff_not] at hnone
    exact hnone hmem
  obtain ⟨lowered, hlowered, hlower⟩ :=
    lowers_of_splits hitems hsplits (Agrees.refl []) hsafe.settled hdotted
  exact (isMatch_iff_of_items? _ hlowered).mpr hlower

/-! ## Patterns with runs around them -/

theorem lowercaseFrom_run_behind (text : List Char) :
    lowercaseFrom [] (text ++ ['%']) = lowercaseFrom [] text ++ ['%'] :=
  lowercaseFrom_concat (isCaseIgnorable_of_special rfl) (isCased_of_special rfl) [] text
    (lowercaseChar_of_special rfl) (ne_sigma_of_special rfl)

theorem lowercaseFrom_runs_around (text : List Char) :
    lowercaseFrom [] ('%' :: text ++ ['%']) = '%' :: lowercaseFrom [] text ++ ['%'] := by
  have hbehind := lowercaseFrom_behind (isCaseIgnorable_of_special (c := '%') rfl)
    (isCased_of_special rfl) [] (text ++ ['%'])
  rw [List.cons_append, lowercaseFrom_cons, imageIn_of_special rfl, List.singleton_append]
  rw [List.nil_append] at hbehind
  rw [hbehind, lowercaseFrom_run_behind]
  rfl

end CriteriaQuery.Like
