import CriteriaQuery.Proofs.Calendar.Date
import CriteriaQuery.Proofs.Plan.Shown

/-! A reader for the parts of the text of a plan. It takes one part after the other from the front of
a text, looking no further than the next name and the character behind it. Literals, expressions,
sort keys and joins are read back, each where a blank, a comma or a closing parenthesis follows. -/
namespace CriteriaQuery
open Text Calendar
set_option autoImplicit false

namespace PlanReader

/-! ## Names and fixed words -/

def takeName (cs : List Char) : String × List Char :=
  (String.ofList (cs.takeWhile isNameChar), cs.dropWhile isNameChar)

/-- What is left behind a word, if the text begins with it. -/
def skip (word : String) (cs : List Char) : Option (List Char) := word.toList.isPrefixOf? cs

/-- Whether a text is empty or begins with what may stand behind a part of a plan. -/
def Breaks (rest : List Char) : Prop := ∀ c ∈ rest.head?, c ∈ [' ', ')', ',']

theorem skip_append (word : String) (rest : List Char) :
    skip word (word.toList ++ rest) = some rest := by
  unfold skip
  induction word.toList with
  | nil => rfl
  | cons c cs ih => rw [List.cons_append, List.isPrefixOf?, if_pos BEq.rfl, ih]

theorem breaks_nil : Breaks [] := nofun

theorem breaks_cons {c : Char} (rest : List Char) (h : c ∈ [' ', ')', ',']) : Breaks (c :: rest) := by
  intro d hd
  rwa [← Option.some.inj hd]

theorem breaks_word {word : String} (h : word.toList.head? = some ' ') (rest : List Char) :
    Breaks (word.toList ++ rest) := by
  obtain ⟨more, hmore⟩ := List.head?_eq_some_iff.mp h
  rw [hmore]
  exact breaks_cons _ (by decide)

theorem Breaks.cases {rest : List Char} (h : Breaks rest) :
    rest = [] ∨ (∃ more, rest = ' ' :: more) ∨ (∃ more, rest = ')' :: more) ∨
      ∃ more, rest = ',' :: more := by
  cases rest with
  | nil => exact .inl rfl
  | cons c more =>
    have hc := h c rfl
    simp only [List.mem_cons, List.not_mem_nil, or_false] at hc
    rcases hc with rfl | rfl | rfl
    · exact .inr (.inl ⟨more, rfl⟩)
    · exact .inr (.inr (.inl ⟨more, rfl⟩))
    · exact .inr (.inr (.inr ⟨more, rfl⟩))

theorem Breaks.forall_head {rest : List Char} (h : Breaks rest) {P : Char → Prop} (hblank : P ' ')
    (hclose : P ')') (hcomma : P ',') : ∀ c ∈ rest.head?, P c := by
  intro c hc
  rcases h.cases with rfl | ⟨more, rfl⟩ | ⟨more, rfl⟩ | ⟨more, rfl⟩ <;> cases hc
  · exact hblank
  · exact hclose
  · exact hcomma

section Name
variable {name : String} {rest : List Char}

theorem takeName_append (h : IsName name) (hrest : ∀ c ∈ rest.head?, isNameChar c = false) :
    takeName (name.toList ++ rest) = (name, rest) := by
  rw [takeName, takeWhile_append_of_head h hrest, dropWhile_append_of_head h hrest,
    String.ofList_toList]

theorem takeName_cons {c : Char} (h : IsName name) (hc : isNameChar c = false) :
    takeName (name.toList ++ c :: rest) = (name, c :: rest) := by
  apply takeName_append h
  intro d hd
  rwa [← Option.some.inj hd]

theorem takeName_of_breaks (h : IsName name) (hrest : Breaks rest) :
    takeName (name.toList ++ rest) = (name, rest) :=
  takeName_append h (hrest.forall_head rfl rfl rfl)

end Name

/-! ## Rows of items -/

/-- Takes items as long as there are any, at most so many. -/
def takeMany {α : Type} (take : List Char → Option (α × List Char)) :
    Nat → List Char → List α × List Char
  | 0, cs => ([], cs)
  | fuel + 1, cs =>
    match take cs with
    | none => ([], cs)
    | some (a, rest) =>
      let (items, rest) := takeMany take fuel rest
      (a :: items, rest)

section Many
variable {α β : Type} {take : List Char → Option (β × List Char)} {chars : α → List Char}
  {f : α → β} {items : List α} {rest : List Char}

theorem breaks_flatMap (hchars : ∀ a, ∃ c ∈ [' ', ')', ','], ∃ more, chars a = c :: more)
    (hrest : Breaks rest) : Breaks (items.flatMap chars ++ rest) := by
  cases items with
  | nil => exact hrest
  | cons a items =>
    obtain ⟨c, hc, more, hmore⟩ := hchars a
    rw [List.flatMap_cons, hmore]
    exact breaks_cons _ hc

theorem takeMany_of_stop (hstop : take rest = none) (fuel : Nat) :
    takeMany take fuel rest = ([], rest) := by
  cases fuel with
  | zero => rfl
  | succ fuel => rw [takeMany, hstop]

theorem takeMany_of_fuel
    (htake : ∀ a ∈ items, ∀ more, Breaks more → take (chars a ++ more) = some (f a, more))
    (hchars : ∀ a, ∃ c ∈ [' ', ')', ','], ∃ more, chars a = c :: more) (hrest : Breaks rest)
    (hstop : take rest = none)
    {fuel : Nat} (hfuel : items.length ≤ fuel) :
    takeMany take fuel (items.flatMap chars ++ rest) = (items.map f, rest) := by
  induction items generalizing fuel with
  | nil => exact takeMany_of_stop hstop fuel
  | cons a items ih =>
    rw [List.forall_mem_cons] at htake
    rw [List.length_cons] at hfuel
    obtain ⟨fuel, rfl⟩ := Nat.exists_eq_add_of_lt (show 0 < fuel by omega)
    rw [List.flatMap_cons, List.append_assoc, takeMany, htake.1 _ (breaks_flatMap hchars hrest)]
    simp only [ih htake.2 (show items.length ≤ 0 + fuel by omega), List.map_cons]

theorem length_le_length_flatMap (h : ∀ a, chars a ≠ []) :
    items.length ≤ (items.flatMap chars).length := by
  induction items with
  | nil => exact Nat.le_refl 0
  | cons a items ih =>
    have hpos := List.length_pos_iff.mpr (h a)
    rw [List.flatMap_cons, List.length_append, List.length_cons]
    omega

/-- Items are read back if each of them begins with what may stand behind another one. -/
theorem takeMany_append
    (htake : ∀ a ∈ items, ∀ more, Breaks more → take (chars a ++ more) = some (f a, more))
    (hchars : ∀ a, ∃ c ∈ [' ', ')', ','], ∃ more, chars a = c :: more) (hrest : Breaks rest)
    (hstop : take rest = none) :
    takeMany take (items.flatMap chars ++ rest).length (items.flatMap chars ++ rest) =
      (items.map f, rest) := by
  have hlength : items.length ≤ (items.flatMap chars).length := by
    apply length_le_length_flatMap
    intro a
    obtain ⟨c, -, more, hmore⟩ := hchars a
    rw [hmore]
    exact List.cons_ne_nil _ _
  apply takeMany_of_fuel htake hchars hrest hstop
  rw [List.length_append]
  omega

end Many

/-! ## Literals -/

/-- Takes what stands between quotes, behind the first of them. A quote that is written twice does
not end it. -/
def takeQuoted : List Char → Option (List Char × List Char)
  | [] => none
  | '\'' :: '\'' :: rest => (takeQuoted rest).map fun (cs, rest) => ('\'' :: cs, rest)
  | '\'' :: rest => some ([], rest)
  | c :: rest => (takeQuoted rest).map fun (cs, rest) => (c :: cs, rest)

def takeDate (cs : List Char) : Option (Value × List Char) := do
  let (day, rest) ← takeQuoted (← skip " '" cs)
  return (.date (← Date.parse? (String.ofList day)), rest)

/-- Takes a literal. A row of digits is a wide integer. -/
def takeValue (cs : List Char) : Option (Value × List Char) :=
  match takeName cs with
  | (word, rest) =>
    if word = "" then
      match rest with
      | '\'' :: rest => (takeQuoted rest).map fun (cs, rest) => (.string (String.ofList cs), rest)
      | '-' :: rest =>
        let (digits, rest) := takeName rest
        some (.int64 (.ofInt (-(digitsValue digits.toList))), rest)
      | _ => none
    else if word = "NULL" then some (.null, rest)
    else if word = "true" then some (.bool true, rest)
    else if word = "false" then some (.bool false, rest)
    else if word = "DATE" then takeDate rest
    else some (.int64 (.ofInt (digitsValue word.toList)), rest)

theorem takeQuoted_append (cs : List Char) {rest : List Char} (hrest : ∀ c ∈ rest.head?, c ≠ '\'') :
    takeQuoted (cs.flatMap Value.quotedChar ++ '\'' :: rest) = some (cs, rest) := by
  induction cs with
  | nil =>
    rw [List.flatMap_nil, List.nil_append]
    cases rest with
    | nil => rfl
    | cons c rest =>
      have hc := hrest c rfl
      rw [takeQuoted]
      intro more heq
      exact hc (List.cons.inj heq).1
  | cons c cs ih =>
    rw [List.flatMap_cons, List.append_assoc]
    by_cases hc : c = '\''
    · rw [hc, Value.quotedChar, if_pos rfl]
      simp only [List.cons_append, List.nil_append, takeQuoted, ih, Option.map_some]
    · rw [Value.quotedChar, if_neg hc, List.singleton_append, takeQuoted, ih]
      · rfl
      · exact fun _ heq _ => hc heq
      · exact hc

end PlanReader

/-! ## Values -/

theorem Calendar.Date.ne_quote_of_mem_text (date : Date) : ∀ c ∈ date.text.toList, c ≠ '\'' := by
  have hdigits : ∀ width n, ∀ c ∈ paddedDigits width n, c ≠ '\'' := by
    rintro width n c hc rfl
    cases isDigit_of_mem_paddedDigits hc
  have hyear : ∀ c ∈ yearChars date.year, c ≠ '\'' := by
    intro c hc
    rcases List.mem_append.mp hc with hsign | hc
    · split at hsign
      · cases hsign
      · split at hsign
        · rw [List.mem_singleton.mp hsign]
          decide
        · rw [List.mem_singleton.mp hsign]
          decide
    · exact hdigits 4 _ c hc
  intro c hc
  rw [date.toList_text] at hc
  simp only [List.mem_append, List.mem_cons, List.not_mem_nil, or_false] at hc
  rcases hc with hc | rfl | hc | rfl | hc
  · exact hyear c hc
  · decide
  · exact hdigits 2 _ c hc
  · decide
  · exact hdigits 2 _ c hc

namespace PlanReader
variable {rest : List Char}

theorem Breaks.ne_quote (h : Breaks rest) : ∀ c ∈ rest.head?, c ≠ '\'' :=
  h.forall_head (by decide) (by decide) (by decide)

theorem isName_digitsOf (n : Nat) : IsName (String.ofList (digitsOf n)) := by
  intro c hc
  rw [String.toList_ofList] at hc
  have hdigit := isDigit_of_mem_digitsOf hc
  simp [isNameChar, Char.isAlphanum, hdigit]

theorem digitsOf_ne {n : Nat} {word : String} (h : word.toList.all Char.isDigit = false) :
    String.ofList (digitsOf n) ≠ word := by
  rintro rfl
  rw [String.toList_ofList, List.all_eq_false] at h
  obtain ⟨c, hc, hdigit⟩ := h
  exact hdigit (isDigit_of_mem_digitsOf hc)

theorem flatMap_quotedChar {cs : List Char} (h : ∀ c ∈ cs, c ≠ '\'') :
    cs.flatMap Value.quotedChar = cs := by
  induction cs with
  | nil => rfl
  | cons c cs ih =>
    rw [List.forall_mem_cons] at h
    rw [List.flatMap_cons, Value.quotedChar, if_neg h.1, ih h.2, List.singleton_append]

theorem takeValue_int (n : Int) (hrest : Breaks rest) :
    takeValue ((Value.intText n).toList ++ rest) = some (.int64 (.ofInt n), rest) := by
  have hname := takeName_of_breaks (isName_digitsOf n.natAbs) hrest
  rw [String.toList_ofList] at hname
  by_cases hn : n < 0
  · have hchars : (Value.intText n).toList = '-' :: digitsOf n.natAbs := by
      simp [Value.intText, Decimal.Literal.text, Decimal.Literal.chars, Decimal.Literal.ofInt, hn]
    have hvalue : -((n.natAbs : Nat) : Int) = n := by omega
    rw [hchars, List.cons_append, takeValue]
    change some (Value.int64
      (.ofInt (-(digitsValue (takeName (digitsOf n.natAbs ++ rest)).1.toList))),
      (takeName (digitsOf n.natAbs ++ rest)).2) = _
    rw [hname, String.toList_ofList, digitsValue_digitsOf, hvalue]
  · have hchars : (Value.intText n).toList = digitsOf n.natAbs := by
      simp [Value.intText, Decimal.Literal.text, Decimal.Literal.chars, Decimal.Literal.ofInt, hn]
    have hvalue : ((n.natAbs : Nat) : Int) = n := by omega
    rw [hchars, takeValue, hname]
    simp only
    have hne : String.ofList (digitsOf n.natAbs) ≠ "" :=
      fun h => digitsOf_ne_nil n.natAbs (String.ofList_eq_empty_iff.mp h)
    rw [if_neg hne, if_neg (digitsOf_ne rfl), if_neg (digitsOf_ne rfl), if_neg (digitsOf_ne rfl),
      if_neg (digitsOf_ne rfl), String.toList_ofList, digitsValue_digitsOf, hvalue]

theorem takeValue_text {v : Value} (h : ∀ x, v ≠ .float64 x) (hrest : Breaks rest) :
    takeValue (v.text.toList ++ rest) = some (v.shown, rest) := by
  cases v with
  | float64 x => exact absurd rfl (h x)
  | null =>
    have hname : takeName ("NULL".toList ++ rest) = ("NULL", rest) :=
      takeName_of_breaks (by decide) hrest
    rw [Value.text, takeValue, hname]
    rfl
  | bool b =>
    have hname : takeName ((Value.boolText b).toList ++ rest) = (Value.boolText b, rest) :=
      takeName_of_breaks (by cases b <;> decide) hrest
    rw [Value.text, takeValue, hname]
    cases b <;> rfl
  | int32 n =>
    rw [Value.text, takeValue_int _ hrest, Int64.ofInt_int32ToInt]
    rfl
  | int64 n =>
    rw [Value.text, takeValue_int _ hrest, Int64.ofInt_toInt]
    rfl
  | string s =>
    have hquoted := takeQuoted_append s.toList hrest.ne_quote
    rw [Value.text, Value.quotedText, String.toList_ofList]
    simp only [List.cons_append, List.append_assoc, List.nil_append]
    change (takeQuoted _).map _ = _
    rw [hquoted, Option.map_some]
    simp only [String.ofList_toList]
    rfl
  | date d =>
    have hquoted := takeQuoted_append d.text.toList hrest.ne_quote
    rw [flatMap_quotedChar d.ne_quote_of_mem_text] at hquoted
    have hname : takeName ("DATE".toList ++ (" '".toList ++ (d.text.toList ++ '\'' :: rest))) =
        ("DATE", " '".toList ++ (d.text.toList ++ '\'' :: rest)) :=
      takeName_of_breaks (by decide) (breaks_cons _ (by decide))
    have htext : (Value.date d).text.toList ++ rest =
        "DATE".toList ++ (" '".toList ++ (d.text.toList ++ '\'' :: rest)) := by
      simp [Value.text]
    rw [htext, takeValue, hname]
    change takeDate _ = _
    simp only [takeDate, skip_append, hquoted, Option.bind_eq_bind, Option.bind_some,
      String.ofList_toList, d.parse?_text, Option.pure_def]
    rfl

/-! ## Expressions, sort keys and joins -/

def takeScalar (cs : List Char) : Option (Scalar × List Char) :=
  match takeName cs with
  | (aliasName, '.' :: rest) =>
    let (name, rest) := takeName rest
    some (.column aliasName name, rest)
  | (word, '(' :: rest) =>
    if word = "COUNT" then
      let (aliasName, rest) := takeName rest
      (skip ")" rest).map (.count aliasName, ·)
    else none
  | _ => none

def takeSelection (cs : List Char) : Option (Selection × List Char) :=
  match takeScalar cs with
  | some (e, rest) => some (.expr e, rest)
  | none =>
    let (aliasName, rest) := takeName cs
    some (.entity aliasName, rest)

def takeKey (cs : List Char) : Option (OrderKey × List Char) := do
  let (e, rest) ← takeScalar cs
  (skip " ASC" rest).map (⟨e, .ascending⟩, ·) <|> (skip " DESC" rest).map (⟨e, .descending⟩, ·)

def takeJoinType (cs : List Char) : Option (JoinType × List Char) :=
  (skip " JOIN " cs).map (.inner, ·) <|> (skip " LEFT JOIN " cs).map (.left, ·)

/-- Whether a word stands in front of the relation. -/
def takeFetch (cs : List Char) : Bool × List Char :=
  match takeName cs with
  | (_, ' ' :: rest) => (true, rest)
  | _ => (false, cs)

def takeJoin (cs : List Char) : Option (Join × List Char) := do
  let (type, rest) ← takeJoinType cs
  let (fetch, rest) := takeFetch rest
  let (parentAlias, rest) := takeName rest
  let (relation, rest) := takeName (← skip "." rest)
  let (aliasName, rest) := takeName (← skip " " rest)
  return (⟨aliasName, parentAlias, relation, "", type, fetch⟩, rest)

theorem takeScalar_text {e : Scalar} (h : e.Legible) (hrest : Breaks rest) :
    takeScalar (e.text.toList ++ rest) = some (e, rest) := by
  cases e with
  | column aliasName name =>
    have htext : (Scalar.column aliasName name).text.toList ++ rest =
        aliasName.toList ++ '.' :: (name.toList ++ rest) := by
      simp [Scalar.text]
    rw [htext, takeScalar, takeName_cons h.1 (by decide)]
    simp only [takeName_of_breaks h.2 hrest]
  | count aliasName =>
    have htext : (Scalar.count aliasName).text.toList ++ rest =
        "COUNT".toList ++ '(' :: (aliasName.toList ++ ')' :: rest) := by
      simp [Scalar.text]
    rw [htext, takeScalar, takeName_cons (by decide) (by decide)]
    simp only [takeName_cons h (show isNameChar ')' = false by decide)]
    rfl

theorem takeScalar_of_blank {word : String} (h : IsName word) :
    takeScalar (word.toList ++ ' ' :: rest) = none := by
  rw [takeScalar, takeName_cons h (by decide)]
  rfl

theorem takeSelection_text {selection : Selection} (h : selection.Legible) :
    takeSelection (selection.text.toList ++ ' ' :: rest) = some (selection, ' ' :: rest) := by
  cases selection with
  | expr e =>
    have hscalar := takeScalar_text h (breaks_cons rest (show ' ' ∈ [' ', ')', ','] by decide))
    rw [Selection.text, takeSelection, hscalar]
  | entity aliasName =>
    rw [Selection.text, takeSelection, takeScalar_of_blank h, takeName_cons h (by decide)]

theorem takeKey_text {key : OrderKey} (h : key.expr.Legible) :
    takeKey (key.text.toList ++ rest) = some (key, rest) := by
  obtain ⟨e, direction⟩ := key
  cases direction with
  | ascending =>
    have hscalar : takeScalar (e.text.toList ++ (" ASC".toList ++ rest)) =
        some (e, " ASC".toList ++ rest) := takeScalar_text h (breaks_cons _ (by decide))
    rw [OrderKey.text, String.toList_append, List.append_assoc, takeKey, hscalar]
    rfl
  | descending =>
    have hscalar : takeScalar (e.text.toList ++ (" DESC".toList ++ rest)) =
        some (e, " DESC".toList ++ rest) := takeScalar_text h (breaks_cons _ (by decide))
    rw [OrderKey.text, String.toList_append, List.append_assoc, takeKey, hscalar]
    rfl

def joinWords (join : Join) : String :=
  match join.type with
  | .inner => " JOIN "
  | .left => " LEFT JOIN "

def fetchWords (join : Join) : String := if join.fetch then "FETCH " else ""

theorem toList_joinText (join : Join) : join.text.toList ++ rest =
    (joinWords join).toList ++ ((fetchWords join).toList ++ (join.parentAlias.toList ++
      '.' :: (join.relation.toList ++ ' ' :: (join.aliasName.toList ++ rest)))) := by
  obtain ⟨aliasName, parentAlias, relation, entity, type, fetch⟩ := join
  cases type <;> cases fetch <;> simp [Join.text, joinWords, fetchWords]

theorem joinText_eq_cons (join : Join) : ∃ more, join.text.toList = ' ' :: more := by
  have htext := @toList_joinText [] join
  rw [List.append_nil] at htext
  rw [htext, joinWords]
  cases join.type <;> exact ⟨_, rfl⟩

theorem takeJoin_text {join : Join} (h : join.Legible) (hrest : Breaks rest) :
    takeJoin (join.text.toList ++ rest) = some (join.shown, rest) := by
  obtain ⟨haliasName, hparent, hrelation⟩ := h
  have htype : ∀ more, takeJoinType ((joinWords join).toList ++ more) = some (join.type, more) := by
    intro more
    unfold joinWords
    cases join.type <;> rfl
  have hparentName : ∀ more, takeName (join.parentAlias.toList ++ '.' :: more) =
      (join.parentAlias, '.' :: more) := fun more => takeName_cons hparent (by decide)
  have hfetch : ∀ more, takeFetch ((fetchWords join).toList ++ (join.parentAlias.toList ++
      '.' :: more)) = (join.fetch, join.parentAlias.toList ++ '.' :: more) := by
    intro more
    unfold fetchWords
    cases join.fetch with
    | true => rfl
    | false =>
      change takeFetch (join.parentAlias.toList ++ '.' :: more) = _
      rw [takeFetch, hparentName]
      rfl
  have hrelationName : ∀ more, takeName (join.relation.toList ++ ' ' :: more) =
      (join.relation, ' ' :: more) := fun more => takeName_cons hrelation (by decide)
  have hdot : ∀ more, skip "." ('.' :: more) = some more := fun _ => rfl
  have hblank : ∀ more, skip " " (' ' :: more) = some more := fun _ => rfl
  rw [toList_joinText, takeJoin, htype]
  simp only [hfetch, hparentName, hdot, hblank, hrelationName, takeName_of_breaks haliasName hrest,
    Option.bind_eq_bind, Option.bind_some, Option.pure_def]
  rfl

end PlanReader

end CriteriaQuery
