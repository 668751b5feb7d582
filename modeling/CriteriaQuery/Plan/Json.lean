import CriteriaQuery.Criteria
import CriteriaQuery.Plan

/-! The JSON form of plans. -/
namespace CriteriaQuery
set_option autoImplicit false

/-! ## Writing -/

def Scalar.toJson : Scalar → Json
  | .column aliasName name =>
    .obj [("Column", .obj [("alias", .str aliasName), ("column", .str name)])]
  | .count aliasName => .obj [("Count", .obj [("alias", .str aliasName)])]

def Selection.toJson : Selection → Json
  | .entity aliasName => .obj [("Entity", .obj [("alias", .str aliasName)])]
  | .expr e => .obj [("Expr", e.toJson)]

def JoinType.name : JoinType → String
  | .inner => "Inner"
  | .left => "Left"

def Join.toJson (join : Join) : Json :=
  .obj [("alias", .str join.aliasName), ("parent_alias", .str join.parentAlias),
    ("relation", .str join.relation), ("entity", .str join.entity),
    ("join_type", .str join.type.name), ("fetch", .bool join.fetch)]

def CaseRule.name : CaseRule → String
  | .sensitive => "Sensitive"
  | .insensitive => "Insensitive"

def Comparison.name : Comparison → String
  | .eq => "Eq"
  | .ne => "Ne"
  | .lt => "Lt"
  | .le => "Le"
  | .gt => "Gt"
  | .ge => "Ge"

mutual

/-- The JSON form of a predicate whose sets have been written already. -/
def Predicate.toJson : Predicate Json → Json
  | .compare c e v => .obj [(c.name, .obj [("expr", e.toJson), ("value", v.toJson)])]
  | .isNull e => .obj [("IsNull", .obj [("expr", e.toJson)])]
  | .isNotNull e => .obj [("IsNotNull", .obj [("expr", e.toJson)])]
  | .like e pattern rule =>
    .obj [("Like", .obj [("expr", e.toJson), ("pattern", .str pattern), ("case", .str rule.name)])]
  | .member e set => .obj [("InSubquery", .obj [("expr", e.toJson), ("subquery", set)])]
  | .not p => .obj [("Not", p.toJson)]
  | .and ps => .obj [("And", .array (Predicate.allToJson ps))]

/-- The JSON forms of the members of a conjunction. -/
def Predicate.allToJson : List (Predicate Json) → List Json
  | [] => []
  | p :: ps => p.toJson :: Predicate.allToJson ps

end

def OrderKey.toJson (key : OrderKey) : Json :=
  .obj [("expr", key.expr.toJson), ("direction", key.direction.toJson)]

namespace SelectPlan

/-- The JSON form of a plan around a filter that has been written already. -/
def jsonAround (plan : SelectPlan) (filter : Option Json) : Json :=
  .obj [("root_entity", .str plan.rootEntity), ("root_alias", .str plan.rootAlias),
    ("selection", plan.selection.toJson), ("joins", .array (plan.joins.map Join.toJson)),
    ("filter", .ofOption (fun j => j) filter),
    ("order_by", .array (plan.orderBy.map OrderKey.toJson))]

def toJson (plan : SelectPlan) : Json :=
  plan.fold fun plan filter => plan.jsonAround (filter.map Predicate.toJson)

def predicateJson (p : Predicate SelectPlan) : Json := (p.map toJson).toJson

end SelectPlan

/-! ## Reading -/

def Scalar.decoder : Decoder Scalar := fun levels v => do
  match ← Decoder.choice levels v with
  | ("Column", some (levels, v)) =>
    match ← Decoder.record ["alias", "column"] levels v with
    | [aliasName, name] =>
      return .column (← aliasName.required Decoder.string) (← name.required Decoder.string)
    | _ => none
  | ("Count", some (levels, v)) =>
    match ← Decoder.record ["alias"] levels v with
    | [aliasName] => return .count (← aliasName.required Decoder.string)
    | _ => none
  | _ => none

def Selection.decoder : Decoder Selection := fun levels v => do
  match ← Decoder.choice levels v with
  | ("Entity", some (levels, v)) =>
    match ← Decoder.record ["alias"] levels v with
    | [aliasName] => return .entity (← aliasName.required Decoder.string)
    | _ => none
  | ("Expr", some (levels, v)) => return .expr (← Scalar.decoder levels v)
  | _ => none

def JoinType.decoder : Decoder JoinType :=
  Decoder.named [("Inner", .inner), ("Left", .left)]

def Join.decoder : Decoder Join := fun levels v => do
  match ← Decoder.record ["alias", "parent_alias", "relation", "entity", "join_type", "fetch"]
      levels v with
  | [aliasName, parentAlias, relation, entity, type, fetch] =>
    return ⟨← aliasName.required Decoder.string, ← parentAlias.required Decoder.string,
      ← relation.required Decoder.string, ← entity.required Decoder.string,
      ← type.required JoinType.decoder, ← fetch.required Decoder.bool⟩
  | _ => none

def CaseRule.decoder : Decoder CaseRule :=
  Decoder.named [("Sensitive", .sensitive), ("Insensitive", .insensitive)]

def Comparison.ofName? : String → Option Comparison
  | "Eq" => some .eq
  | "Ne" => some .ne
  | "Lt" => some .lt
  | "Le" => some .le
  | "Gt" => some .gt
  | "Ge" => some .ge
  | _ => none

def OrderKey.decoder : Decoder OrderKey := fun levels v => do
  match ← Decoder.record ["expr", "direction"] levels v with
  | [expr, direction] =>
    return ⟨← expr.required Scalar.decoder, ← direction.required Direction.decoder⟩
  | _ => none

/-- Reads the expression of a predicate that has nothing else. -/
def Predicate.exprDecoder : Decoder Scalar := fun levels v => do
  match ← Decoder.record ["expr"] levels v with
  | [expr] => expr.required Scalar.decoder
  | _ => none

mutual

/-- Reads a predicate with at most `nesting` predicates and plans inside one another. -/
def Predicate.decodeWithin : (nesting : Nat) → Decoder (Predicate SelectPlan)
  | 0 => fun _ _ => none
  | nesting + 1 => fun levels v => do
    match ← Decoder.choice levels v with
    | ("IsNull", some (levels, v)) => return .isNull (← Predicate.exprDecoder levels v)
    | ("IsNotNull", some (levels, v)) => return .isNotNull (← Predicate.exprDecoder levels v)
    | ("Like", some (levels, v)) =>
      match ← Decoder.record ["expr", "pattern", "case"] levels v with
      | [expr, pattern, rule] =>
        return .like (← expr.required Scalar.decoder) (← pattern.required Decoder.string)
          (← rule.required CaseRule.decoder)
      | _ => none
    | ("InSubquery", some (levels, v)) =>
      match ← Decoder.record ["expr", "subquery"] levels v with
      | [expr, subquery] =>
        return .member (← expr.required Scalar.decoder)
          (← subquery.required (SelectPlan.decodeWithin nesting))
      | _ => none
    | ("Not", some (levels, v)) => return .not (← Predicate.decodeWithin nesting levels v)
    | ("And", some (levels, v)) =>
      return .and (← Decoder.list (Predicate.decodeWithin nesting) levels v)
    | (name, some (levels, v)) =>
      let comparison ← Comparison.ofName? name
      match ← Decoder.record ["expr", "value"] levels v with
      | [expr, value] =>
        return .compare comparison (← expr.required Scalar.decoder) (← value.required Value.decoder)
      | _ => none
    | _ => none

/-- Reads a plan with at most `nesting` predicates and plans inside one another. -/
def SelectPlan.decodeWithin : (nesting : Nat) → Decoder SelectPlan
  | 0 => fun _ _ => none
  | nesting + 1 => fun levels v => do
    match ← Decoder.record
        ["root_entity", "root_alias", "selection", "joins", "filter", "order_by"] levels v with
    | [rootEntity, rootAlias, selection, joins, filter, orderBy] =>
      return ⟨← rootEntity.required Decoder.string, ← rootAlias.required Decoder.string,
        ← selection.required Selection.decoder, ← joins.required (Decoder.list Join.decoder),
        ← filter.optional (Predicate.decodeWithin nesting),
        ← orderBy.required (Decoder.list OrderKey.decoder)⟩
    | _ => none

end

/-- Reads a predicate. Every predicate and every plan is a container, so that no more of them are
inside one another than there are levels. -/
def Predicate.decoder : Decoder (Predicate SelectPlan) := fun levels v =>
  Predicate.decodeWithin levels levels v

def SelectPlan.decoder : Decoder SelectPlan := fun levels v =>
  SelectPlan.decodeWithin levels levels v

end CriteriaQuery
