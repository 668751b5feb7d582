import CriteriaQuery.Plan

/-! The text of a plan: a statement in which joins follow relations by name. -/
namespace CriteriaQuery
set_option autoImplicit false

namespace Scalar

def text : Scalar → String
  | .column aliasName name => aliasName ++ "." ++ name
  | .count aliasName => "COUNT(" ++ aliasName ++ ")"

end Scalar

def Comparison.sign : Comparison → String
  | .eq => "="
  | .ne => "<>"
  | .lt => "<"
  | .le => "<="
  | .gt => ">"
  | .ge => ">="

namespace Predicate

mutual

/-- The text of a predicate whose sets have been written already. -/
def text : Predicate String → String
  | .compare c e v => e.text ++ " " ++ c.sign ++ " " ++ v.text
  | .isNull e => e.text ++ " IS NULL"
  | .isNotNull e => e.text ++ " IS NOT NULL"
  | .like e pattern .sensitive => e.text ++ " LIKE " ++ Value.quotedText pattern
  | .like e pattern .insensitive => "LOWER(" ++ e.text ++ ") LIKE " ++ Value.quotedText pattern
  | .member e set => e.text ++ " IN (" ++ set ++ ")"
  | .not p => "NOT (" ++ p.text ++ ")"
  | .and [] => "TRUE"
  | .and (p :: ps) => conjunctText p ++ conjunctsText ps

/-- A member of a conjunction; a conjunction inside another stands in parentheses. -/
def conjunctText : Predicate String → String
  | .and ps => "(" ++ text (.and ps) ++ ")"
  | p => p.text

/-- The members of a conjunction behind the first one. -/
def conjunctsText : List (Predicate String) → String
  | [] => ""
  | p :: ps => " AND " ++ conjunctText p ++ conjunctsText ps

end

end Predicate

def Selection.text : Selection → String
  | .entity aliasName => aliasName
  | .expr e => e.text

/-- A join, with the way it is made. -/
def Join.text (join : Join) : String :=
  (match join.type with
    | .inner => " JOIN"
    | .left => " LEFT JOIN") ++
    (if join.fetch then " FETCH " else " ") ++
    join.parentAlias ++ "." ++ join.relation ++ " " ++ join.aliasName

def OrderKey.text (key : OrderKey) : String :=
  key.expr.text ++
    match key.direction with
    | .ascending => " ASC"
    | .descending => " DESC"

namespace SelectPlan

/-- The text of a plan around a filter that has been written already. -/
def textAround (plan : SelectPlan) (filter : Option String) : String :=
  "SELECT " ++ plan.selection.text ++ " FROM " ++ plan.rootEntity ++ " " ++ plan.rootAlias ++
    String.join (plan.joins.map Join.text) ++
    (match filter with
      | some condition => " WHERE " ++ condition
      | none => "") ++
    if plan.orderBy = [] then ""
    else " ORDER BY " ++ ", ".intercalate (plan.orderBy.map OrderKey.text)

def text (plan : SelectPlan) : String :=
  plan.fold fun plan filter => plan.textAround (filter.map Predicate.text)

end SelectPlan

end CriteriaQuery
