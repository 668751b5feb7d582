import CriteriaQuery.Json.Printer
import CriteriaQuery.Json.Reader
import CriteriaQuery.Proofs.Json.Token

/-! A JSON value is read back from its text. The machine that reads tokens completes a value where
its last token is, with the containers around it as they were (`foldlM_step_toTokens`); the tokens
are told apart because a comma or a bracket stands behind every number. So `parse?_compact` holds of
every value whose numbers the grammar has and whose strings are texts. -/
namespace CriteriaQuery.Json
set_option autoImplicit false

/-! ## Induction on values -/

@[elab_as_elim]
theorem induction {P : Json → Prop} (null : P .null) (bool : ∀ b, P (.bool b))
    (number : ∀ n, P (.number n)) (string : ∀ s, P (.string s))
    (array : ∀ items, (∀ v ∈ items, P v) → P (.array items))
    (object : ∀ members, (∀ m ∈ members, P m.2) → P (.object members)) (v : Json) : P v :=
  @Json.rec P (fun items => ∀ v ∈ items, P v) (fun members => ∀ m ∈ members, P m.2)
    (fun m => P m.2) null bool number string array object
    (fun _ h => (List.not_mem_nil h).elim) (fun _ _ hv hrest => List.forall_mem_cons.mpr ⟨hv, hrest⟩)
    (fun _ h => (List.not_mem_nil h).elim) (fun _ _ hm hrest => List.forall_mem_cons.mpr ⟨hm, hrest⟩)
    (fun _ _ hv => hv) v

/-- Whether the text of a value says all of it: numbers are as the grammar has them, and no string
is half a surrogate pair. -/
inductive WellFormed : Json → Prop where
  | null : WellFormed .null
  | bool (b : Bool) : WellFormed (.bool b)
  | number {n : Decimal.Literal} (h : n.WellFormed) : WellFormed (.number n)
  | str (s : String) : WellFormed (.str s)
  | array {items : List Json} (h : ∀ v ∈ items, WellFormed v) : WellFormed (.array items)
  | object {members : List (Json.Text × Json)} (hnames : ∀ m ∈ members, m.1.isSome = true)
      (hvalues : ∀ m ∈ members, WellFormed m.2) : WellFormed (.object members)

/-! ## The tokens of containers -/

/-- An item behind another one. -/
def nextItem (v : Json) : List Token := .comma :: v.toTokens

theorem itemTokens_cons (v : Json) (rest : List Json) :
    itemTokens (v :: rest) = v.toTokens ++ rest.flatMap nextItem := by
  induction rest generalizing v with
  | nil => rw [itemTokens, List.flatMap_nil, List.append_nil]
  | cons w rest ih =>
    rw [itemTokens, ih, List.flatMap_cons, nextItem, List.cons_append]
    exact List.cons_ne_nil w rest

def namedTokens (m : Json.Text × Json) : List Token := .string m.1 :: .colon :: m.2.toTokens

/-- A member behind another one. -/
def nextMember (m : Json.Text × Json) : List Token := .comma :: namedTokens m

theorem memberTokens_cons (m : Json.Text × Json) (rest : List (Json.Text × Json)) :
    memberTokens (m :: rest) = namedTokens m ++ rest.flatMap nextMember := by
  induction rest generalizing m with
  | nil => rw [memberTokens, List.flatMap_nil, List.append_nil, namedTokens]
  | cons w rest ih =>
    rw [memberTokens, ih, List.flatMap_cons, nextMember, namedTokens, List.cons_append]
    · rfl
    · exact List.cons_ne_nil w rest

section Members
variable {Q : Token → Prop}

theorem forall_mem_itemTokens {items : List Json} (hcomma : Q .comma)
    (h : ∀ v ∈ items, ∀ t ∈ v.toTokens, Q t) : ∀ t ∈ itemTokens items, Q t := by
  cases items with
  | nil => exact fun t ht => (List.not_mem_nil ht).elim
  | cons v rest =>
    obtain ⟨hv, hrest⟩ := List.forall_mem_cons.mp h
    rw [itemTokens_cons, List.forall_mem_append]
    refine ⟨hv, fun t ht => ?_⟩
    obtain ⟨w, hw, ht⟩ := List.mem_flatMap.mp ht
    exact List.forall_mem_cons.mpr ⟨hcomma, hrest w hw⟩ t ht

theorem forall_mem_memberTokens {members : List (Json.Text × Json)} (hcomma : Q .comma)
    (h : ∀ m ∈ members, ∀ t ∈ namedTokens m, Q t) : ∀ t ∈ memberTokens members, Q t := by
  cases members with
  | nil => exact fun t ht => (List.not_mem_nil ht).elim
  | cons m rest =>
    obtain ⟨hm, hrest⟩ := List.forall_mem_cons.mp h
    rw [memberTokens_cons, List.forall_mem_append]
    refine ⟨hm, fun t ht => ?_⟩
    obtain ⟨w, hw, ht⟩ := List.mem_flatMap.mp ht
    exact List.forall_mem_cons.mpr ⟨hcomma, hrest w hw⟩ t ht

end Members

/-- The tokens of a well-formed value are well-formed. -/
theorem WellFormed.of_mem_toTokens {v : Json} (h : v.WellFormed) :
    ∀ t ∈ v.toTokens, t.WellFormed := by
  induction h with
  | null => exact List.forall_mem_singleton.mpr trivial
  | bool b => exact List.forall_mem_singleton.mpr trivial
  | number h => exact List.forall_mem_singleton.mpr h
  | str s => exact List.forall_mem_singleton.mpr rfl
  | array h ih =>
    have hitems := forall_mem_itemTokens (Q := Token.WellFormed) trivial ih
    exact List.forall_mem_cons.mpr ⟨trivial,
      List.forall_mem_append.mpr ⟨hitems, List.forall_mem_singleton.mpr trivial⟩⟩
  | object hnames hvalues ih =>
    have hmembers := forall_mem_memberTokens (Q := Token.WellFormed) trivial fun m hm =>
      List.forall_mem_cons.mpr ⟨hnames m hm, List.forall_mem_cons.mpr ⟨trivial, ih m hm⟩⟩
    exact List.forall_mem_cons.mpr ⟨trivial,
      List.forall_mem_append.mpr ⟨hmembers, List.forall_mem_singleton.mpr trivial⟩⟩

/-! ## No two numbers side by side -/

/-- Whether any token may stand before these. -/
def Loose (tokens : List Token) : Prop :=
  tokens.IsChain Token.Before ∧ ∀ t ∈ tokens.head?, t.isNumber = false

theorem loose_nil : Loose [] := ⟨List.isChain_nil, fun t ht => by cases ht⟩

theorem Loose.chain_cons {tokens : List Token} (h : Loose tokens) (t : Token) :
    (t :: tokens).IsChain Token.Before :=
  List.isChain_cons.mpr ⟨fun next hnext _ => h.2 next hnext, h.1⟩

/-- A token that is no number may stand before all tokens and behind all tokens. -/
theorem loose_cons {t : Token} {tokens : List Token} (ht : t.isNumber = false)
    (h : tokens.IsChain Token.Before) : Loose (t :: tokens) := by
  refine ⟨List.isChain_cons.mpr ⟨fun next _ hnumber => ?_, h⟩, fun next hnext => ?_⟩
  · rw [ht] at hnumber
    cases hnumber
  · rw [← Option.some.inj hnext]
    exact ht

theorem loose_flatMap {α : Type} {tokensOf : α → List Token} {as : List α} {tokens : List Token}
    (h : ∀ a ∈ as, ∀ more, Loose more → Loose (tokensOf a ++ more)) (htokens : Loose tokens) :
    Loose (as.flatMap tokensOf ++ tokens) := by
  induction as with
  | nil => exact htokens
  | cons a as ih =>
    obtain ⟨ha, has⟩ := List.forall_mem_cons.mp h
    rw [List.flatMap_cons, List.append_assoc]
    exact ha _ (ih has)

theorem isChain_toTokens_append (v : Json) {tokens : List Token} (h : Loose tokens) :
    (v.toTokens ++ tokens).IsChain Token.Before := by
  induction v using Json.induction generalizing tokens with
  | null => exact h.chain_cons .null
  | bool b => exact h.chain_cons (.bool b)
  | number n => exact h.chain_cons (.number n)
  | string s => exact h.chain_cons (.string s)
  | array items ih =>
    have hclose : Loose (.closeBracket :: tokens) := loose_cons rfl h.1
    rw [toTokens, List.append_assoc, List.cons_append]
    refine (loose_cons rfl ?_).1
    cases items with
    | nil => exact hclose.1
    | cons v rest =>
      obtain ⟨hv, hrest⟩ := List.forall_mem_cons.mp ih
      rw [itemTokens_cons, List.append_assoc]
      exact hv (loose_flatMap (fun w hw more hmore => loose_cons rfl (hrest w hw hmore)) hclose)
  | object members ih =>
    have hclose : Loose (.closeBrace :: tokens) := loose_cons rfl h.1
    have hnamed : ∀ m ∈ members, ∀ more, Loose more → Loose (namedTokens m ++ more) :=
      fun m hm more hmore => loose_cons rfl (loose_cons rfl (ih m hm hmore)).1
    rw [toTokens, List.append_assoc, List.cons_append]
    refine (loose_cons rfl ?_).1
    cases members with
    | nil => exact hclose.1
    | cons m rest =>
      obtain ⟨hm, hrest⟩ := List.forall_mem_cons.mp hnamed
      rw [memberTokens_cons, List.append_assoc]
      exact (hm _ (loose_flatMap
        (fun w hw more hmore => loose_cons rfl (hrest w hw more hmore).1) hclose)).1

/-! ## The machine -/

/-- The first token of a value does not close an array. -/
theorem toTokens_eq_cons (v : Json) : ∃ t tokens, v.toTokens = t :: tokens ∧ t ≠ .closeBracket := by
  cases v <;> exact ⟨_, _, rfl, by simp⟩

theorem step_items {t : Token} (h : t ≠ .closeBracket) (around : List Frame) :
    Reading.step (.items around) t = Reading.step (.value (.array [] :: around)) t := by
  cases t with
  | closeBracket => exact absurd rfl h
  | _ => rfl

theorem foldlM_step_items (v : Json) (around : List Frame) (tokens : List Token) :
    (v.toTokens ++ tokens).foldlM Reading.step (.items around) =
      (v.toTokens ++ tokens).foldlM Reading.step (.value (.array [] :: around)) := by
  obtain ⟨t, rest, hv, ht⟩ := toTokens_eq_cons v
  rw [hv, List.cons_append, List.foldlM_cons, List.foldlM_cons, step_items ht]

/-- Whether the tokens of a value complete it, whatever it stands in and whatever follows. -/
def Completes (v : Json) : Prop :=
  ∀ around tokens, (v.toTokens ++ tokens).foldlM Reading.step (.value around) =
    tokens.foldlM Reading.step (.complete v around)

section Containers
variable (around : List Frame) (tokens : List Token)

theorem foldlM_step_nextItems {rest : List Json} (h : ∀ w ∈ rest, w.Completes) (v : Json)
    (done : List Json) :
    (rest.flatMap nextItem ++ .closeBracket :: tokens).foldlM Reading.step
        (.complete v (.array done :: around)) =
      tokens.foldlM Reading.step (.complete (.array (done.reverse ++ v :: rest)) around) := by
  induction rest generalizing v done with
  | nil =>
    rw [List.flatMap_nil, List.nil_append, List.foldlM_cons, ← List.reverse_cons]
    rfl
  | cons w rest ih =>
    obtain ⟨hw, hrest⟩ := List.forall_mem_cons.mp h
    have hnext := ih hrest w (v :: done)
    rw [List.reverse_cons, List.append_assoc, List.singleton_append] at hnext
    rw [List.flatMap_cons, List.append_assoc, nextItem, List.cons_append, List.foldlM_cons]
    exact (hw (.array (v :: done) :: around) _).trans hnext

theorem foldlM_step_named {m : Json.Text × Json} (h : m.2.Completes)
    (entries : List (Json.Text × Json)) :
    (namedTokens m ++ tokens).foldlM Reading.step (.name entries around) =
      tokens.foldlM Reading.step (.complete m.2 (.object entries m.1 :: around)) :=
  h (.object entries m.1 :: around) tokens

theorem foldlM_step_nextMembers {rest : List (Json.Text × Json)} (h : ∀ w ∈ rest, w.2.Completes)
    (m : Json.Text × Json) (entries : List (Json.Text × Json)) :
    (rest.flatMap nextMember ++ .closeBrace :: tokens).foldlM Reading.step
        (.complete m.2 (.object entries m.1 :: around)) =
      tokens.foldlM Reading.step (.complete (.object (entries.reverse ++ m :: rest)) around) := by
  induction rest generalizing m entries with
  | nil =>
    rw [List.flatMap_nil, List.nil_append, List.foldlM_cons, ← List.reverse_cons]
    rfl
  | cons w rest ih =>
    obtain ⟨hw, hrest⟩ := List.forall_mem_cons.mp h
    have hnext := ih hrest w (m :: entries)
    rw [List.reverse_cons, List.append_assoc, List.singleton_append] at hnext
    rw [List.flatMap_cons, List.append_assoc, nextMember, List.cons_append, List.foldlM_cons]
    exact (foldlM_step_named around _ hw (m :: entries)).trans hnext

end Containers

theorem completes (v : Json) : v.Completes := by
  induction v using Json.induction with
  | null => exact fun _ _ => rfl
  | bool b => exact fun _ _ => rfl
  | number n => exact fun _ _ => rfl
  | string s => exact fun _ _ => rfl
  | array items ih =>
    intro around tokens
    rw [toTokens, List.append_assoc, List.cons_append, List.foldlM_cons]
    cases items with
    | nil => rfl
    | cons v rest =>
      obtain ⟨hv, hrest⟩ := List.forall_mem_cons.mp ih
      rw [itemTokens_cons, List.append_assoc]
      have hfirst := hv (.array [] :: around) (rest.flatMap nextItem ++ (.closeBracket :: tokens))
      have hall := hfirst.trans (foldlM_step_nextItems around tokens hrest v [])
      exact (foldlM_step_items v around _).trans hall
  | object members ih =>
    intro around tokens
    rw [toTokens, List.append_assoc, List.cons_append, List.foldlM_cons]
    cases members with
    | nil => rfl
    | cons m rest =>
      obtain ⟨hm, hrest⟩ := List.forall_mem_cons.mp ih
      rw [memberTokens_cons, List.append_assoc]
      -- A name has to come after the brace, as after a comma.
      have hfirst :=
        foldlM_step_named around (rest.flatMap nextMember ++ (.closeBrace :: tokens)) hm []
      exact hfirst.trans (foldlM_step_nextMembers around tokens hrest m [])

theorem ofTokens?_toTokens (v : Json) : ofTokens? v.toTokens = some v := by
  have h := completes v [] []
  rw [List.append_nil] at h
  rw [ofTokens?, h]
  rfl

/-- A well-formed value is read back from its text without blanks. -/
theorem parse?_compact {v : Json} (h : v.WellFormed) : parse? v.compact = some v := by
  have hapart := isChain_toTokens_append v loose_nil
  rw [List.append_nil] at hapart
  rw [parse?, compact, tokens?_chars h.of_mem_toTokens hapart, Option.bind_some]
  exact ofTokens?_toTokens v

end CriteriaQuery.Json
