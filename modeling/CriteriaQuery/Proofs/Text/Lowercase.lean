import CriteriaQuery.Text.Lowercase
import Mathlib.Data.List.Basic

/-! Lower-casing a text part by part. The image of a character depends on its surroundings only for
capital sigma (`imageIn_congr`), and apart from the dotted capital I it is one character. No other
character has punctuation or a digit in its image (`eq_of_mem_imageIn`). -/
namespace CriteriaQuery.Text
set_option autoImplicit false

/-! ## Images of single characters -/

theorem lowercaseRuns_high : ∀ run ∈ lowercaseRuns, 0x5F < (run.first : Int) + run.shift := by
  decide +kernel

theorem toNat_toLower_ascii : ∀ n < 0x80, (Char.ofNat n).toLower = Char.ofNat n ∨
    0x5F < (Char.ofNat n).toLower.toNat := by
  decide

/-- What stands below the small letters is the image of nothing but itself. -/
theorem eq_of_mem_lowercaseChar {c d : Char} (h : d ∈ lowercaseChar c) (hpos : 0 < d.toNat)
    (hlow : d.toNat ≤ 0x5F) : d = c := by
  unfold lowercaseChar at h
  split_ifs at h with hascii hsigma hdotted
  · rw [List.mem_singleton] at h
    have hlower := toNat_toLower_ascii c.toNat hascii
    rw [Char.ofNat_toNat, ← h] at hlower
    exact hlower.resolve_right (Nat.not_lt.mpr hlow)
  · rw [List.mem_singleton] at h
    rw [h] at hlow
    exact absurd hlow (by decide)
  · rcases List.mem_pair.mp h with rfl | rfl
    · exact absurd hlow (by decide)
    · exact absurd hlow (by decide)
  · split at h
    · next run hrun =>
      rw [List.mem_singleton] at h
      have hhigh := lowercaseRuns_high run (List.mem_of_find?_eq_some hrun)
      have hhas := List.find?_some hrun
      simp only [CaseRun.has, Bool.and_eq_true, decide_eq_true_iff] at hhas
      have hfirst : run.first ≤ c.toNat := hhas.1.1
      by_cases hvalid : ((c.toNat : Int) + run.shift).toNat.isValidChar
      · rw [Char.ofNat, dif_pos hvalid] at h
        have htoNat : d.toNat = ((c.toNat : Int) + run.shift).toNat := by rw [h]; rfl
        omega
      · rw [Char.ofNat, dif_neg hvalid] at h
        rw [h] at hpos
        exact absurd hpos (by decide)
    · exact List.mem_singleton.mp h

theorem lowercaseChar_eq_singleton {c : Char} (h : c ≠ 'İ') : ∃ d, lowercaseChar c = [d] := by
  unfold lowercaseChar
  split_ifs
  · exact ⟨_, rfl⟩
  · exact ⟨_, rfl⟩
  · split
    · exact ⟨_, rfl⟩
    · exact ⟨_, rfl⟩

/-! ## Images in a text -/

/-- The image of a character between `before`, read backwards, and `after`. -/
def imageIn (before after : List Char) (c : Char) : List Char :=
  if c = 'Σ' ∧ endsWord before after then ['ς'] else lowercaseChar c

theorem lowercaseFrom_cons (before : List Char) (c : Char) (rest : List Char) :
    lowercaseFrom before (c :: rest) =
      imageIn before rest c ++ lowercaseFrom (c :: before) rest := rfl

theorem imageIn_congr {before after before' after' : List Char} {c : Char}
    (h : c = 'Σ' → endsWord before after = endsWord before' after') :
    imageIn before after c = imageIn before' after' c := by
  unfold imageIn
  by_cases hc : c = 'Σ'
  · rw [h hc]
  · rw [if_neg fun hand => hc hand.1, if_neg fun hand => hc hand.1]

theorem eq_of_mem_imageIn {before after : List Char} {c d : Char} (h : d ∈ imageIn before after c)
    (hpos : 0 < d.toNat) (hlow : d.toNat ≤ 0x5F) : d = c := by
  unfold imageIn at h
  split_ifs at h
  · rw [List.mem_singleton] at h
    rw [h] at hlow
    exact absurd hlow (by decide)
  · exact eq_of_mem_lowercaseChar h hpos hlow

theorem imageIn_eq_singleton (before after : List Char) {c : Char} (h : c ≠ 'İ') :
    ∃ d, imageIn before after c = [d] := by
  unfold imageIn
  split_ifs
  · exact ⟨_, rfl⟩
  · exact lowercaseChar_eq_singleton h

theorem imageIn_ne_nil (before after : List Char) (c : Char) : imageIn before after c ≠ [] := by
  by_cases hc : c = 'İ'
  · rw [hc, imageIn, if_neg fun hand => absurd hand.1 (by decide)]
    decide
  · obtain ⟨d, hd⟩ := imageIn_eq_singleton before after hc
    rw [hd]
    exact List.cons_ne_nil _ _

/-- The image of a text ends in the image of its end. -/
theorem lowercaseFrom_suffix (before part rest : List Char) :
    lowercaseFrom (part.reverse ++ before) rest <:+ lowercaseFrom before (part ++ rest) := by
  induction part generalizing before with
  | nil => exact List.suffix_refl _
  | cons c part ih =>
    have h := ih (c :: before)
    rw [List.reverse_cons, List.append_assoc, List.singleton_append, List.cons_append,
      lowercaseFrom_cons]
    exact h.trans (List.suffix_append _ _)

/-! ## The ends of words -/

theorem meetsCased_nil : meetsCased [] = false := rfl

theorem meetsCased_cons (c : Char) (cs : List Char) :
    meetsCased (c :: cs) = if isCaseIgnorable c then meetsCased cs else isCased c := by
  unfold meetsCased
  rw [List.dropWhile_cons]
  by_cases h : isCaseIgnorable c = true
  · simp only [h, if_true]
  · simp only [h, if_false, Bool.false_eq_true]

section
variable {mark : Char} (hignorable : isCaseIgnorable mark = false) (hcased : isCased mark = false)
include hignorable hcased

/-- What neither has a case nor is passed over may as well be the end of the text. -/
theorem meetsCased_concat (cs : List Char) : meetsCased (cs ++ [mark]) = meetsCased cs := by
  induction cs with
  | nil =>
    rw [List.nil_append, meetsCased_cons, if_neg (by simp [hignorable]), hcased, meetsCased_nil]
  | cons c cs ih => rw [List.cons_append, meetsCased_cons, meetsCased_cons, ih]

theorem lowercaseFrom_concat (before text : List Char) (himage : lowercaseChar mark = [mark])
    (hsigma : mark ≠ 'Σ') :
    lowercaseFrom before (text ++ [mark]) = lowercaseFrom before text ++ [mark] := by
  induction text generalizing before with
  | nil =>
    rw [List.nil_append, lowercaseFrom_cons, imageIn, if_neg fun hand => hsigma hand.1, himage]
    rfl
  | cons c text ih =>
    have himages : imageIn before (text ++ [mark]) c = imageIn before text c := by
      apply imageIn_congr
      intro _
      unfold endsWord
      rw [meetsCased_concat hignorable hcased]
    rw [List.cons_append, lowercaseFrom_cons, himages, ih, lowercaseFrom_cons, List.append_assoc]

theorem lowercaseFrom_behind (before text : List Char) :
    lowercaseFrom (before ++ [mark]) text = lowercaseFrom before text := by
  induction text generalizing before with
  | nil => rfl
  | cons c text ih =>
    have himages : imageIn (before ++ [mark]) text c = imageIn before text c := by
      apply imageIn_congr
      intro _
      unfold endsWord
      rw [meetsCased_concat hignorable hcased]
    have hrest := ih (c :: before)
    rw [List.cons_append] at hrest
    rw [lowercaseFrom_cons, lowercaseFrom_cons, himages, hrest]

end

end CriteriaQuery.Text
