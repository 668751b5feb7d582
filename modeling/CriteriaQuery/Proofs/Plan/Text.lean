import CriteriaQuery.Proofs.Plan.Reader

/-! The text of a plan tells the plan. Conditions and subqueries stand inside one another; a reader
that may follow so many of them reads all whose text is shorter (`PlanReader.readsWithin`). So plans
of the same text are the same as far as a text shows them (`SelectPlan.text_tells`). -/
namespace CriteriaQuery
set_option autoImplicit false

/-! ## Reading plans -/

namespace PlanReader

def takeFilter (condition : List Char → Option (Predicate SelectPlan × List Char))
    (cs : List Char) : Option (Option (Predicate SelectPlan) × List Char) :=
  match skip " WHERE " cs with
  | none => some (none, cs)
  | some rest => (condition rest).map fun (p, rest) => (some p, rest)

def takeNextKey (cs : List Char) : Option (OrderKey × List Char) := (skip ", " cs).bind takeKey

def takeOrder (cs : List Char) : Option (List OrderKey × List Char) :=
  match skip " ORDER BY " cs with
  | none => some ([], cs)
  | some rest => do
    let (key, rest) ← takeKey rest
    let (keys, rest) := takeMany takeNextKey rest.length rest
    return (key :: keys, rest)

def takePlan (condition : List Char → Option (Predicate SelectPlan × List Char))
    (cs : List Char) : Option (SelectPlan × List Char) := do
  let (selection, rest) ← takeSelection (← skip "SELECT " cs)
  let (rootEntity, rest) := takeName (← skip " FROM " rest)
  let (rootAlias, rest) := takeName (← skip " " rest)
  let (joins, rest) := takeMany takeJoin rest.length rest
  let (filter, rest) ← takeFilter condition rest
  let (orderBy, rest) ← takeOrder rest
  return (⟨rootEntity, rootAlias, selection, joins, filter, orderBy⟩, rest)

/-- Whether a text is empty or begins with the parenthesis behind a subquery. -/
def Closes (rest : List Char) : Prop := rest = [] ∨ ∃ more, rest = ')' :: more

/-- Whether a condition may end before a text. -/
structure EndsCondition (rest : List Char) : Prop where
  breaks : Breaks rest
  skip_eq : skip " AND " rest = none

section
variable {rest : List Char} {keys : List OrderKey}

theorem Closes.endsCondition (h : Closes rest) : EndsCondition rest := by
  rcases h with rfl | ⟨more, rfl⟩
  · exact ⟨breaks_nil, rfl⟩
  · exact ⟨breaks_cons _ (by decide), rfl⟩

theorem toList_orderText (key : OrderKey) (keys : List OrderKey) :
    (SelectPlan.orderText (key :: keys)).toList = " ORDER BY ".toList ++ (key.text.toList ++
      keys.flatMap fun key => ", ".toList ++ key.text.toList) := by
  rw [SelectPlan.orderText, if_neg (List.cons_ne_nil _ _), String.toList_append]
  congr 1
  induction keys generalizing key with
  | nil => simp
  | cons next keys ih =>
    rw [List.map_cons, List.map_cons, String.intercalate_cons_cons, ← List.map_cons,
      String.toList_append, String.toList_append, ih, List.flatMap_cons]
    simp only [List.append_assoc]

theorem takeOrder_text (h : ∀ key ∈ keys, key.expr.Legible) (hrest : Closes rest) :
    takeOrder ((SelectPlan.orderText keys).toList ++ rest) = some (keys, rest) := by
  cases keys with
  | nil => rcases hrest with rfl | ⟨more, rfl⟩ <;> rfl
  | cons key keys =>
    rw [List.forall_mem_cons] at h
    have hnext : ∀ next ∈ keys, ∀ more, Breaks more →
        takeNextKey ((", ".toList ++ next.text.toList) ++ more) = some (id next, more) := by
      intro next hnext more _
      rw [List.append_assoc, takeNextKey, skip_append]
      exact takeKey_text (h.2 next hnext)
    have hstop : takeNextKey rest = none := by
      rcases hrest with rfl | ⟨more, rfl⟩ <;> rfl
    have hmany := takeMany_append hnext (fun next => ⟨',', by decide, ' ' :: next.text.toList, rfl⟩)
      hrest.endsCondition.breaks hstop
    rw [toList_orderText, List.append_assoc, List.append_assoc, takeOrder, skip_append]
    simp only [takeKey_text h.1, hmany, Option.bind_eq_bind, Option.bind_some, List.map_id]
    rfl

theorem endsCondition_order (keys : List OrderKey) (hrest : Closes rest) :
    EndsCondition ((SelectPlan.orderText keys).toList ++ rest) := by
  cases keys with
  | nil => exact hrest.endsCondition
  | cons key keys =>
    rw [toList_orderText, List.append_assoc]
    exact ⟨breaks_cons _ (by decide), rfl⟩

theorem skip_where_order (keys : List OrderKey) (hrest : Closes rest) :
    skip " WHERE " ((SelectPlan.orderText keys).toList ++ rest) = none := by
  cases keys with
  | nil => rcases hrest with rfl | ⟨more, rfl⟩ <;> rfl
  | cons key keys =>
    rw [toList_orderText, List.append_assoc]
    rfl

/-- No further join stands behind the joins of a plan. -/
theorem takeJoin_where (filter : Option (Predicate SelectPlan)) (keys : List OrderKey)
    (hrest : Closes rest) : takeJoin ((SelectPlan.whereText filter).toList ++
      ((SelectPlan.orderText keys).toList ++ rest)) = none := by
  cases filter with
  | some p =>
    rw [SelectPlan.whereText, String.toList_append, List.append_assoc]
    rfl
  | none =>
    cases keys with
    | nil => rcases hrest with rfl | ⟨more, rfl⟩ <;> rfl
    | cons key keys =>
      rw [toList_orderText, List.append_assoc]
      rfl

theorem breaks_where (filter : Option (Predicate SelectPlan)) (keys : List OrderKey)
    (hrest : Closes rest) : Breaks ((SelectPlan.whereText filter).toList ++
      ((SelectPlan.orderText keys).toList ++ rest)) := by
  cases filter with
  | some p =>
    rw [SelectPlan.whereText, String.toList_append, List.append_assoc]
    exact breaks_cons _ (by decide)
  | none => exact (endsCondition_order keys hrest).breaks

end

section Condition
variable {condition : List Char → Option (Predicate SelectPlan × List Char)} {rest : List Char}

/-- A reader takes a predicate wherever a condition may end. -/
def Takes (condition : List Char → Option (Predicate SelectPlan × List Char))
    (p : Predicate SelectPlan) : Prop :=
  ∀ rest, EndsCondition rest → condition ((SelectPlan.predicateText p).toList ++ rest) =
    some (SelectPlan.predicateShown p, rest)

theorem takeFilter_text {filter : Option (Predicate SelectPlan)}
    (h : ∀ p ∈ filter, Takes condition p) (hends : EndsCondition rest)
    (hstop : skip " WHERE " rest = none) :
    takeFilter condition ((SelectPlan.whereText filter).toList ++ rest) =
      some (filter.map SelectPlan.predicateShown, rest) := by
  cases filter with
  | none =>
    change takeFilter condition rest = _
    rw [takeFilter, hstop]
    rfl
  | some p =>
    have hp := h p rfl rest hends
    rw [SelectPlan.whereText, String.toList_append, List.append_assoc, takeFilter, skip_append]
    simp only [hp, Option.map_some]

theorem toList_planText (plan : SelectPlan) : plan.text.toList ++ rest =
    "SELECT ".toList ++ (plan.selection.text.toList ++ (" FROM ".toList ++
      (plan.rootEntity.toList ++ (" ".toList ++ (plan.rootAlias.toList ++
        (plan.joins.flatMap (·.text.toList) ++ ((SelectPlan.whereText plan.filter).toList ++
          ((SelectPlan.orderText plan.orderBy).toList ++ rest)))))))) := by
  rw [SelectPlan.text_eq]
  simp only [String.toList_append, String.toList_join, List.flatMap_map, List.append_assoc]

/-- A plan is read back if its condition is. -/
theorem takePlan_text {plan : SelectPlan} (h : plan.Legible)
    (hfilter : ∀ p ∈ plan.filter, Takes condition p) (hrest : Closes rest) :
    takePlan condition (plan.text.toList ++ rest) = some (plan.shown, rest) := by
  obtain ⟨hentity, halias, hselection, hjoins, -, hkeys⟩ := SelectPlan.legible_iff.mp h
  have htail := breaks_where plan.filter plan.orderBy hrest
  have hchars : ∀ join : Join, ∃ c ∈ [' ', ')', ','], ∃ more, join.text.toList = c :: more :=
    fun join => ⟨' ', by decide, joinText_eq_cons join⟩
  have hmany := takeMany_append (fun join hjoin _ => takeJoin_text (hjoins join hjoin)) hchars htail
    (takeJoin_where plan.filter plan.orderBy hrest)
  have hwhere := takeFilter_text hfilter (endsCondition_order plan.orderBy hrest)
    (skip_where_order plan.orderBy hrest)
  have hselect : ∀ more, takeSelection (plan.selection.text.toList ++ (" FROM ".toList ++ more)) =
      some (plan.selection, " FROM ".toList ++ more) := fun _ => takeSelection_text hselection
  have hentityName : ∀ more, takeName (plan.rootEntity.toList ++ (" ".toList ++ more)) =
      (plan.rootEntity, " ".toList ++ more) := fun _ => takeName_cons hentity (by decide)
  have hbreaks : Breaks (plan.joins.flatMap (·.text.toList) ++
      ((SelectPlan.whereText plan.filter).toList ++
        ((SelectPlan.orderText plan.orderBy).toList ++ rest))) := breaks_flatMap hchars htail
  rw [toList_planText, takePlan, skip_append, SelectPlan.shown_eq]
  simp only [hselect, skip_append, hentityName, takeName_of_breaks halias hbreaks, hmany, hwhere,
    takeOrder_text hkeys hrest, Option.bind_eq_bind, Option.bind_some, Option.pure_def]

end Condition

/-! ## Reading conditions -/

def takeSign (cs : List Char) : Option (Comparison × List Char) :=
  [Comparison.eq, .ne, .lt, .le, .gt, .ge].findSome? fun comparison =>
    (skip (" " ++ comparison.sign ++ " ") cs).map (comparison, ·)

/-- Takes a test of an expression, behind the expression. -/
def takeTest (condition : List Char → Option (Predicate SelectPlan × List Char)) (e : Scalar)
    (cs : List Char) : Option (Predicate SelectPlan × List Char) :=
  (skip " IS NULL" cs).map (.isNull e, ·) <|>
  (skip " IS NOT NULL" cs).map (.isNotNull e, ·) <|>
  (do
    let (pattern, rest) ← takeQuoted (← skip " LIKE '" cs)
    return (.like e (String.ofList pattern) .sensitive, rest)) <|>
  (do
    let (set, rest) ← takePlan condition (← skip " IN (" cs)
    return (.member e set, ← skip ")" rest)) <|>
  (do
    let (comparison, rest) ← takeSign cs
    let (v, rest) ← takeValue rest
    return (.compare comparison e v, rest))

/-- Takes what is negated, behind the word for that. -/
def takeNegated (condition : List Char → Option (Predicate SelectPlan × List Char))
    (cs : List Char) : Option (Predicate SelectPlan × List Char) := do
  let (p, rest) ← condition (← skip " (" cs)
  return (.not p, ← skip ")" rest)

/-- Takes a member of a conjunction. A word in front that is no expression tells what it is. -/
def takeConjunct (condition : List Char → Option (Predicate SelectPlan × List Char))
    (cs : List Char) : Option (Predicate SelectPlan × List Char) :=
  match takeScalar cs with
  | some (e, rest) => takeTest condition e rest
  | none =>
    match takeName cs with
    | (word, '(' :: rest) =>
      if word = "LOWER" then do
        let (e, rest) ← takeScalar rest
        let (pattern, rest) ← takeQuoted (← skip ") LIKE '" rest)
        return (.like e (String.ofList pattern) .insensitive, rest)
      else do
        let (p, rest) ← condition rest
        return (p, ← skip ")" rest)
    | (word, rest) =>
      if word = "TRUE" then some (.and [], rest) else takeNegated condition rest

def takeNextConjunct (condition : List Char → Option (Predicate SelectPlan × List Char))
    (cs : List Char) : Option (Predicate SelectPlan × List Char) :=
  (skip " AND " cs).bind (takeConjunct condition)

/-- Takes a condition in which at most so many stand inside one another. -/
def takeCondition : Nat → List Char → Option (Predicate SelectPlan × List Char)
  | 0, _ => none
  | nesting + 1, cs => do
    let (first, rest) ← takeConjunct (takeCondition nesting) cs
    let (others, rest) := takeMany (takeNextConjunct (takeCondition nesting)) rest.length rest
    return (.all (first :: others), rest)

section Test
variable {condition : List Char → Option (Predicate SelectPlan × List Char)} {e : Scalar}
  {rest : List Char}

theorem takeTest_isNull :
    takeTest condition e (" IS NULL".toList ++ rest) = some (.isNull e, rest) := rfl

theorem takeTest_isNotNull :
    takeTest condition e (" IS NOT NULL".toList ++ rest) = some (.isNotNull e, rest) := rfl

theorem takeTest_like (pattern : String) (hrest : Breaks rest) :
    takeTest condition e (" LIKE ".toList ++ ((Value.quotedText pattern).toList ++ rest)) =
      some (.like e pattern .sensitive, rest) := by
  have htext : " LIKE ".toList ++ ((Value.quotedText pattern).toList ++ rest) =
      " LIKE '".toList ++ (pattern.toList.flatMap Value.quotedChar ++ '\'' :: rest) := by
    simp [Value.quotedText]
  have hnull : ∀ more, skip " IS NULL" (" LIKE '".toList ++ more) = none := fun _ => rfl
  have hnotNull : ∀ more, skip " IS NOT NULL" (" LIKE '".toList ++ more) = none := fun _ => rfl
  rw [htext, takeTest, hnull, hnotNull, skip_append]
  simp only [Option.map_none, Option.bind_eq_bind, Option.bind_some,
    takeQuoted_append pattern.toList hrest.ne_quote, String.ofList_toList]
  rfl

theorem takeTest_member {set : SelectPlan}
    (h : takePlan condition (set.text.toList ++ ')' :: rest) = some (set.shown, ')' :: rest)) :
    takeTest condition e (" IN (".toList ++ (set.text.toList ++ ')' :: rest)) =
      some (.member e set.shown, rest) := by
  have hnull : ∀ more, skip " IS NULL" (" IN (".toList ++ more) = none := fun _ => rfl
  have hnotNull : ∀ more, skip " IS NOT NULL" (" IN (".toList ++ more) = none := fun _ => rfl
  have hlike : ∀ more, skip " LIKE '" (" IN (".toList ++ more) = none := fun _ => rfl
  rw [takeTest, hnull, hnotNull, hlike, skip_append]
  simp only [Option.map_none, Option.bind_eq_bind, Option.bind_none, Option.bind_some, h]
  rfl

theorem takeSign_text (comparison : Comparison) :
    takeSign ((" " ++ comparison.sign ++ " ").toList ++ rest) = some (comparison, rest) := by
  cases comparison <;> rfl

theorem takeTest_compare (comparison : Comparison) {v : Value} (h : ∀ x, v ≠ .float64 x)
    (hrest : Breaks rest) :
    takeTest condition e ((" " ++ comparison.sign ++ " ").toList ++ (v.text.toList ++ rest)) =
      some (.compare comparison e v.shown, rest) := by
  have hskip : ∀ word ∈ [" IS NULL", " IS NOT NULL", " LIKE '", " IN ("], ∀ more,
      skip word ((" " ++ comparison.sign ++ " ").toList ++ more) = none := by
    simp only [List.forall_mem_cons]
    cases comparison <;> exact ⟨fun _ => rfl, fun _ => rfl, fun _ => rfl, fun _ => rfl, nofun⟩
  simp only [List.forall_mem_cons] at hskip
  obtain ⟨hnull, hnotNull, hlike, hmember, -⟩ := hskip
  rw [takeTest, hnull, hnotNull, hlike, hmember]
  simp only [Option.map_none, Option.bind_eq_bind, Option.bind_none, Option.bind_some, takeSign_text,
    takeValue_text h hrest]
  rfl

theorem takeConjunct_of_scalar (h : e.Legible) (hrest : Breaks rest) :
    takeConjunct condition (e.text.toList ++ rest) = takeTest condition e rest := by
  rw [takeConjunct, takeScalar_text h hrest]

theorem takeConjunct_true (hrest : Breaks rest) :
    takeConjunct condition ("TRUE".toList ++ rest) = some (.and [], rest) := by
  rcases hrest.cases with rfl | ⟨more, rfl⟩ | ⟨more, rfl⟩ | ⟨more, rfl⟩ <;> rfl

theorem takeConjunct_lower (h : e.Legible) (pattern : String) (hrest : Breaks rest) :
    takeConjunct condition ("LOWER(".toList ++ (e.text.toList ++ (") LIKE ".toList ++
      ((Value.quotedText pattern).toList ++ rest)))) = some (.like e pattern .insensitive, rest) := by
  have htext : ") LIKE ".toList ++ ((Value.quotedText pattern).toList ++ rest) =
      ") LIKE '".toList ++ (pattern.toList.flatMap Value.quotedChar ++ '\'' :: rest) := by
    simp [Value.quotedText]
  have hname : ∀ more, takeName ("LOWER(".toList ++ more) = ("LOWER", '(' :: more) := fun _ => rfl
  have hscalar : ∀ more, takeScalar ("LOWER(".toList ++ more) = none := fun _ => rfl
  have he : ∀ more, takeScalar (e.text.toList ++ (") LIKE '".toList ++ more)) =
      some (e, ") LIKE '".toList ++ more) := fun _ => takeScalar_text h (breaks_cons _ (by decide))
  rw [htext, takeConjunct, hscalar, hname]
  simp only [if_true, he, skip_append, takeQuoted_append pattern.toList hrest.ne_quote,
    Option.bind_eq_bind, Option.bind_some, String.ofList_toList, Option.pure_def]

theorem takeConjunct_not {p : Predicate SelectPlan} {cs : List Char}
    (h : condition (cs ++ ')' :: rest) = some (p, ')' :: rest)) :
    takeConjunct condition ("NOT (".toList ++ (cs ++ ')' :: rest)) = some (.not p, rest) := by
  change takeNegated condition (" (".toList ++ (cs ++ ')' :: rest)) = _
  rw [takeNegated, skip_append]
  simp only [h, Option.bind_eq_bind, Option.bind_some]
  rfl

theorem takeConjunct_group {p : Predicate SelectPlan} {cs : List Char}
    (h : condition (cs ++ ')' :: rest) = some (p, ')' :: rest)) :
    takeConjunct condition ("(".toList ++ (cs ++ ')' :: rest)) = some (p, rest) := by
  have hname : ∀ more, takeName ("(".toList ++ more) = ("", '(' :: more) := fun _ => rfl
  have hscalar : ∀ more, takeScalar ("(".toList ++ more) = none := fun _ => rfl
  have hword : ¬"" = "LOWER" := by decide
  rw [takeConjunct, hscalar, hname]
  simp only [if_neg hword, h, Option.bind_eq_bind, Option.bind_some]
  rfl

end Test

/-! ## Nesting -/

/-- Whether all predicates of shorter texts are read back, where at most so many conditions may be
inside one another. -/
def ReadsWithin (nesting : Nat) : Prop :=
  ∀ p, SelectPlan.PredicateLegible p → (SelectPlan.predicateText p).length < nesting →
    Takes (takeCondition nesting) p

theorem ReadsWithin.plan {nesting : Nat} (h : ReadsWithin nesting) {plan : SelectPlan}
    (hlegible : plan.Legible) (hlength : plan.text.length ≤ nesting) {rest : List Char}
    (hrest : Closes rest) :
    takePlan (takeCondition nesting) (plan.text.toList ++ rest) = some (plan.shown, rest) := by
  apply takePlan_text hlegible _ hrest
  intro p hp
  obtain ⟨-, -, -, -, hfilter, -⟩ := SelectPlan.legible_iff.mp hlegible
  apply h p (hfilter p hp)
  rw [SelectPlan.text_eq, hp, SelectPlan.whereText] at hlength
  simp only [String.length_append] at hlength
  have hselect : "SELECT ".length = 7 := rfl
  omega

theorem length_lt_of_closed {outer inner : String} {front rest : List Char}
    (h : outer.toList ++ rest = front ++ (inner.toList ++ ')' :: rest)) :
    inner.length < outer.length := by
  have hlist := congrArg List.length h
  simp only [List.length_append, String.length_toList, List.length_cons] at hlist
  omega

/-- The members of conditions are read back if predicates of shorter texts are. -/
theorem ReadsWithin.conjunct {nesting : Nat} (h : ReadsWithin nesting) {p : Predicate SelectPlan}
    (hlegible : SelectPlan.PredicateLegible p)
    (hlength : (SelectPlan.conjunctText p).length ≤ nesting) {rest : List Char}
    (hrest : Breaks rest) : takeConjunct (takeCondition nesting)
      ((SelectPlan.conjunctText p).toList ++ rest) = some (SelectPlan.predicateShown p, rest) := by
  have hclose : Closes (')' :: rest) := .inr ⟨rest, rfl⟩
  cases p with
  | compare comparison e v =>
    have htext : (SelectPlan.conjunctText (.compare comparison e v)).toList ++ rest =
        e.text.toList ++ ((" " ++ comparison.sign ++ " ").toList ++ (v.text.toList ++ rest)) := by
      simp [SelectPlan.conjunctText, Predicate.map, Predicate.conjunctText, Predicate.text]
    have hword : (" " ++ comparison.sign ++ " ").toList.head? = some ' ' := by
      cases comparison <;> rfl
    rw [htext, takeConjunct_of_scalar hlegible.1 (breaks_word hword _),
      takeTest_compare comparison hlegible.2 hrest]
    rfl
  | isNull e =>
    have htext : (SelectPlan.conjunctText (.isNull e)).toList ++ rest =
        e.text.toList ++ (" IS NULL".toList ++ rest) := by
      simp [SelectPlan.conjunctText, Predicate.map, Predicate.conjunctText, Predicate.text]
    have hword : " IS NULL".toList.head? = some ' ' := rfl
    rw [htext, takeConjunct_of_scalar hlegible (breaks_word hword _), takeTest_isNull]
    rfl
  | isNotNull e =>
    have htext : (SelectPlan.conjunctText (.isNotNull e)).toList ++ rest =
        e.text.toList ++ (" IS NOT NULL".toList ++ rest) := by
      simp [SelectPlan.conjunctText, Predicate.map, Predicate.conjunctText, Predicate.text]
    have hword : " IS NOT NULL".toList.head? = some ' ' := rfl
    rw [htext, takeConjunct_of_scalar hlegible (breaks_word hword _), takeTest_isNotNull]
    rfl
  | like e pattern rule =>
    cases rule with
    | sensitive =>
      have htext : (SelectPlan.conjunctText (.like e pattern .sensitive)).toList ++ rest =
          e.text.toList ++ (" LIKE ".toList ++ ((Value.quotedText pattern).toList ++ rest)) := by
        simp [SelectPlan.conjunctText, Predicate.map, Predicate.conjunctText, Predicate.text]
      have hword : " LIKE ".toList.head? = some ' ' := rfl
      rw [htext, takeConjunct_of_scalar hlegible (breaks_word hword _), takeTest_like pattern hrest]
      rfl
    | insensitive =>
      have htext : (SelectPlan.conjunctText (.like e pattern .insensitive)).toList ++ rest =
          "LOWER(".toList ++ (e.text.toList ++ (") LIKE ".toList ++
            ((Value.quotedText pattern).toList ++ rest))) := by
        simp [SelectPlan.conjunctText, Predicate.map, Predicate.conjunctText, Predicate.text]
      rw [htext, takeConjunct_lower hlegible pattern hrest]
      rfl
  | member e set =>
    have htext : (SelectPlan.conjunctText (.member e set)).toList ++ rest =
        e.text.toList ++ (" IN (".toList ++ (set.text.toList ++ ')' :: rest)) := by
      simp [SelectPlan.conjunctText, Predicate.map, Predicate.conjunctText, Predicate.text]
    have hinner := length_lt_of_closed (htext.trans (List.append_assoc _ _ _).symm)
    have hset : set.text.length ≤ nesting := by omega
    have hword : " IN (".toList.head? = some ' ' := rfl
    rw [htext, takeConjunct_of_scalar hlegible.1 (breaks_word hword _),
      takeTest_member (h.plan hlegible.2 hset hclose)]
    rfl
  | not p =>
    have htext : (SelectPlan.conjunctText (.not p)).toList ++ rest =
        "NOT (".toList ++ ((SelectPlan.predicateText p).toList ++ ')' :: rest) := by
      simp [SelectPlan.conjunctText, SelectPlan.predicateText, Predicate.map, Predicate.conjunctText,
        Predicate.text]
    have hinner := Nat.lt_of_lt_of_le (length_lt_of_closed htext) hlength
    rw [htext, takeConjunct_not (h p hlegible hinner _ hclose.endsCondition)]
    rfl
  | and ps =>
    have htext : (SelectPlan.conjunctText (.and ps)).toList ++ rest =
        "(".toList ++ ((SelectPlan.predicateText (.and ps)).toList ++ ')' :: rest) := by
      simp [SelectPlan.conjunctText, SelectPlan.predicateText, Predicate.map, Predicate.conjunctText]
    have hinner := Nat.lt_of_lt_of_le (length_lt_of_closed htext) hlength
    exact htext ▸ takeConjunct_group (h (.and ps) hlegible hinner _ hclose.endsCondition)

theorem ReadsWithin.succ {nesting : Nat} (h : ReadsWithin nesting) : ReadsWithin (nesting + 1) := by
  intro p hlegible hlength rest hends
  have hstop : takeNextConjunct (takeCondition nesting) rest = none := by
    rw [takeNextConjunct, hends.skip_eq]
    rfl
  rw [takeCondition, SelectPlan.predicateShown_eq]
  cases hconjuncts : p.conjuncts with
  | nil =>
    -- only the empty conjunction has no members, and only it has a word of its own
    obtain rfl : p = .and [] := by
      cases p <;> cases hconjuncts
      rfl
    have htext : SelectPlan.predicateText (.and []) = "TRUE" := by
      simp [SelectPlan.predicateText, Predicate.map, Predicate.mapAll, Predicate.text]
    rw [htext, takeConjunct_true hends.breaks]
    simp only [takeMany_of_stop hstop, Option.bind_eq_bind, Option.bind_some]
    rfl
  | cons first others =>
    have hmembers := hlegible.conjuncts
    rw [hconjuncts, List.forall_mem_cons] at hmembers
    have hlengths : ∀ c ∈ first :: others, (SelectPlan.conjunctText c).length ≤ nesting := by
      intro c hc
      rw [← hconjuncts] at hc
      have hle := SelectPlan.length_conjunctText_le hc
      omega
    rw [List.forall_mem_cons] at hlengths
    have htext := SelectPlan.predicateText_of_conjuncts hconjuncts
    have hchars : (SelectPlan.predicateText p).toList ++ rest =
        (SelectPlan.conjunctText first).toList ++ (others.flatMap (fun other =>
          " AND ".toList ++ (SelectPlan.conjunctText other).toList) ++ rest) := by
      rw [htext]
      simp only [String.toList_append, String.toList_join, List.flatMap_map, List.append_assoc]
    have hnext : ∀ other ∈ others, ∀ more, Breaks more →
        takeNextConjunct (takeCondition nesting)
          ((" AND ".toList ++ (SelectPlan.conjunctText other).toList) ++ more) =
            some (SelectPlan.predicateShown other, more) := by
      intro other hother more hmore
      rw [List.append_assoc, takeNextConjunct, skip_append]
      exact h.conjunct (hmembers.2 other hother) (hlengths.2 other hother) hmore
    have hstart : ∀ other, ∃ c ∈ [' ', ')', ','], ∃ more,
        " AND ".toList ++ (SelectPlan.conjunctText other).toList = c :: more :=
      fun other => ⟨' ', by decide, _, rfl⟩
    rw [hchars, h.conjunct hmembers.1 hlengths.1 (breaks_flatMap hstart hends.breaks)]
    simp only [takeMany_append hnext hstart hends.breaks hstop, Option.bind_eq_bind,
      Option.bind_some, List.map_cons]
    rfl

theorem readsWithin (nesting : Nat) : ReadsWithin nesting := by
  induction nesting with
  | zero => exact fun p _ hlength => absurd hlength (Nat.not_lt_zero _)
  | succ nesting ih => exact ih.succ

end PlanReader

/-! ## Plans of one text -/

/-- A literal ends where its closing quote stands, whatever is written in it. -/
theorem Value.quotedText_append_inj {s t rest later : String} (hrest : rest.toList.head? ≠ some '\'')
    (hlater : later.toList.head? ≠ some '\'')
    (h : quotedText s ++ rest = quotedText t ++ later) : s = t ∧ rest = later := by
  have hreads : ∀ s rest : String, rest.toList.head? ≠ some '\'' →
      PlanReader.takeQuoted ((quotedText s ++ rest).toList.drop 1) =
        some (s.toList, rest.toList) := by
    intro s rest hrest
    have hchars : (quotedText s ++ rest).toList.drop 1 =
        s.toList.flatMap quotedChar ++ '\'' :: rest.toList := by
      simp [quotedText]
    rw [hchars]
    exact PlanReader.takeQuoted_append _ fun c hc heq => hrest (heq ▸ hc)
  have hsame := hreads s rest hrest
  rw [h, hreads t later hlater, Option.some.injEq, Prod.mk.injEq] at hsame
  exact ⟨String.toList_inj.mp hsame.1.symm, String.toList_inj.mp hsame.2.symm⟩

namespace SelectPlan

/-- Plans of the same text are the same as far as a text shows them: up to conjunctions of one
predicate, the width of integers and the entities that joins lead to. No literal can be taken for
another one with more behind it. -/
theorem text_tells :
    (∀ p q : SelectPlan, p.Legible → q.Legible → p.text = q.text → p.shown = q.shown) ∧
    ∀ s t rest later : String, rest.toList.head? ≠ some '\'' → later.toList.head? ≠ some '\'' →
      Value.quotedText s ++ rest = Value.quotedText t ++ later → s = t ∧ rest = later := by
  have hreads : ∀ plan : SelectPlan, plan.Legible →
      PlanReader.takePlan (PlanReader.takeCondition plan.text.length) (plan.text.toList ++ []) =
        some (plan.shown, []) := by
    intro plan hplan
    exact (PlanReader.readsWithin plan.text.length).plan hplan (Nat.le_refl _) (.inl rfl)
  refine ⟨?_, fun _ _ _ _ => Value.quotedText_append_inj⟩
  intro p q hp hq h
  have hsame := hreads p hp
  rw [h, hreads q hq, Option.some.injEq, Prod.mk.injEq] at hsame
  exact hsame.1.symm

/-- People of a family name at a business, whose number is narrow or wide. -/
def colleagues (entity : String) (number : Value) : SelectPlan :=
  { scan "Person" "t0" with
    joins := [⟨"t1", "t0", "employer", entity, .inner, false⟩]
    filter := some (.and [.and [.compare .eq (.column "t1" "id") number],
      .compare .eq (.column "t0" "lastName") (.string "O'Hara' AND 'x")]) }

theorem text_tells_colleagues :
    (colleagues "Business" (.int32 7)).Legible ∧ (colleagues "Company" (.int64 7)).Legible ∧
      (colleagues "Business" (.int32 7)).text =
        "SELECT t0 FROM Person t0 JOIN t0.employer t1 WHERE (t1.id = 7) AND " ++
          "t0.lastName = 'O''Hara'' AND ''x'" ∧
      (colleagues "Business" (.int32 7)).text = (colleagues "Company" (.int64 7)).text ∧
      (colleagues "Business" (.int32 7)).shown = (colleagues "Company" (.int64 7)).shown := by
  have hlegible : ∀ entity number, (∀ x, number ≠ Value.float64 x) →
      (colleagues entity number).Legible := by
    intro entity number hnumber
    have hnames : ∀ name ∈ ["Person", "t0", "t1", "id", "lastName", "employer"],
        Text.IsName name := by
      decide
    simp only [List.forall_mem_cons] at hnames
    obtain ⟨hperson, ht0, ht1, hid, hlastName, hemployer, -⟩ := hnames
    rw [legible_iff]
    refine ⟨hperson, ht0, ht0, List.forall_mem_singleton.mpr ⟨ht1, ht0, hemployer⟩, ?_, nofun⟩
    rintro p ⟨⟩
    exact ⟨⟨⟨⟨ht1, hid⟩, hnumber⟩, trivial⟩, ⟨⟨ht0, hlastName⟩, nofun⟩, trivial⟩
  have hnarrow := hlegible "Business" (.int32 7) nofun
  have hwide := hlegible "Company" (.int64 7) nofun
  have hread : ∀ entity (number : Value), number.text = "7" → (colleagues entity number).text =
      "SELECT t0 FROM Person t0 JOIN t0.employer t1 WHERE (t1.id = 7) AND " ++
        "t0.lastName = 'O''Hara'' AND ''x'" := by
    intro entity number hnumber
    simp only [text_eq, colleagues, whereText, predicateText, Predicate.map, Predicate.mapAll,
      Predicate.text, Predicate.conjunctText, Predicate.conjunctsText, hnumber]
    rfl
  have htext := hread "Business" (.int32 7) rfl
  have hsame := htext.trans (hread "Company" (.int64 7) rfl).symm
  exact ⟨hnarrow, hwide, htext, hsame, text_tells.1 _ _ hnarrow hwide hsame⟩

end SelectPlan

end CriteriaQuery
