import CriteriaQuery.Plan.Json
import CriteriaQuery.Proofs.Calendar.Date
import CriteriaQuery.Proofs.Json.Decoder

/-! The JSON forms of values, expressions and plans are read back. Predicates and plans stand inside
one another; a reader that may follow so many of them reads all that nest no deeper
(`SelectPlan.readsWithin`), because each of them is a container. A floating-point number may be read
back as another one, so none may be among the operands of a plan. -/
namespace CriteriaQuery
open Decoder
set_option autoImplicit false

/-! ## Values -/

theorem Value.reads_toJson {v : Value} (h : ∀ x, v ≠ .float64 x) :
    Value.decoder.Reads v.toJson v := by
  cases v with
  | null => exact ⟨.str "Null", fun _ _ => rfl⟩
  | bool b => exact reads_tagged "Bool" ((reads_bool b).map Value.bool)
  | int32 n => exact reads_tagged "Int32" ((reads_int32 n).map Value.int32)
  | int64 n => exact reads_tagged "Int64" ((reads_int64 n).map Value.int64)
  | float64 x => exact absurd rfl (h x)
  | string s => exact reads_tagged "String" ((reads_string s).map Value.string)
  | date d =>
    have hd := (reads_string d.text).refine d.parse?_text
    exact reads_tagged "Date" (hd.map Value.date)

/-! ## Expressions -/

theorem Scalar.reads_toJson (e : Scalar) : Scalar.decoder.Reads e.toJson e := by
  cases e with
  | column aliasName name =>
    exact reads_tagged "Column" (reads_twoFields (by decide) (reads_string aliasName)
      (reads_string name) Scalar.column fun _ => rfl)
  | count aliasName =>
    exact reads_tagged "Count" (reads_record ["alias"] [.str aliasName] (by decide) rfl (by simp)
      fun _ _ => rfl)

theorem Selection.reads_toJson (selection : Selection) :
    Selection.decoder.Reads selection.toJson selection := by
  cases selection with
  | entity aliasName =>
    exact reads_tagged "Entity" (reads_record ["alias"] [.str aliasName] (by decide) rfl (by simp)
      fun _ _ => rfl)
  | expr e => exact reads_tagged "Expr" (e.reads_toJson.map Selection.expr)

theorem JoinType.reads_name (type : JoinType) : JoinType.decoder.Reads (.str type.name) type :=
  reads_named (by cases type <;> rfl)

theorem Join.reads_toJson (join : Join) : Join.decoder.Reads join.toJson join := by
  refine reads_record ["alias", "parent_alias", "relation", "entity", "join_type", "fetch"]
    [.str join.aliasName, .str join.parentAlias, .str join.relation, .str join.entity,
      .str join.type.name, .bool join.fetch] (by decide) rfl (by simp) fun n _ => ?_
  have htype := join.type.reads_name.eq_some n (Nat.zero_le n)
  simp [Slot.required, htype]

theorem CaseRule.reads_name (rule : CaseRule) : CaseRule.decoder.Reads (.str rule.name) rule :=
  reads_named (by cases rule <;> rfl)

theorem Direction.reads_toJson (d : Direction) : Direction.decoder.Reads d.toJson d :=
  reads_named (by cases d <;> rfl)

theorem OrderKey.reads_toJson (key : OrderKey) : OrderKey.decoder.Reads key.toJson key :=
  reads_twoFields (by decide) key.expr.reads_toJson key.direction.reads_toJson OrderKey.mk
    fun _ => rfl

theorem Predicate.reads_expr (e : Scalar) :
    Predicate.exprDecoder.Reads (.obj [("expr", e.toJson)]) e := by
  have he := e.reads_toJson
  exact reads_record ["expr"] [e.toJson] (by decide) rfl (by simp [he.wellFormed])
    fun n hn => he.eq_some n (hn _ List.mem_cons_self)

theorem Predicate.allToJson_eq_map (ps : List (Predicate Json)) :
    Predicate.allToJson ps = ps.map Predicate.toJson := by
  induction ps with
  | nil => rfl
  | cons p ps ih => rw [allToJson, ih, List.map_cons]

/-! ## Operands -/

mutual

/-- The operands of a predicate over sets with operands of their own. -/
def Predicate.operands : Predicate (List Value) → List Value
  | .compare _ _ v => [v]
  | .isNull _ | .isNotNull _ | .like _ _ _ => []
  | .member _ operands => operands
  | .not p => p.operands
  | .and ps => Predicate.allOperands ps

/-- The operands of the members of a conjunction. -/
def Predicate.allOperands : List (Predicate (List Value)) → List Value
  | [] => []
  | p :: ps => p.operands ++ Predicate.allOperands ps

end

theorem Predicate.allOperands_eq_flatMap (ps : List (Predicate (List Value))) :
    Predicate.allOperands ps = ps.flatMap Predicate.operands := by
  induction ps with
  | nil => rfl
  | cons p ps ih => rw [allOperands, ih, List.flatMap_cons]

namespace SelectPlan

/-- The operands of all comparisons in a plan and in its subqueries. -/
def operands (plan : SelectPlan) : List Value :=
  plan.fold fun _ filter => (filter.map Predicate.operands).getD []

def predicateOperands (p : Predicate SelectPlan) : List Value := (p.map operands).operands

theorem predicateOperands_and (ps : List (Predicate SelectPlan)) :
    predicateOperands (.and ps) = ps.flatMap predicateOperands := by
  rw [predicateOperands, Predicate.map, Predicate.operands, Predicate.allOperands_eq_flatMap,
    Predicate.mapAll_eq_map, List.flatMap_map]
  rfl

theorem operands_of_filter {plan : SelectPlan} {p : Predicate SelectPlan}
    (h : plan.filter = some p) : plan.operands = predicateOperands p := by
  rw [operands, fold_eq, h]
  rfl

/-! ## Predicates and plans -/

theorem predicateJson_and (ps : List (Predicate SelectPlan)) :
    predicateJson (.and ps) = .obj [("And", .array (ps.map predicateJson))] := by
  rw [predicateJson, Predicate.map, Predicate.toJson, Predicate.allToJson_eq_map,
    Predicate.mapAll_eq_map, List.map_map]
  rfl

theorem toJson_eq (plan : SelectPlan) :
    plan.toJson = .obj [("root_entity", .str plan.rootEntity), ("root_alias", .str plan.rootAlias),
      ("selection", plan.selection.toJson), ("joins", .array (plan.joins.map Join.toJson)),
      ("filter", .ofOption predicateJson plan.filter),
      ("order_by", .array (plan.orderBy.map OrderKey.toJson))] := by
  rw [toJson, fold_eq, jsonAround]
  cases plan.filter <;> rfl

theorem predicateJson_ne_null (p : Predicate SelectPlan) : predicateJson p ≠ .null := by
  cases p <;> exact Json.noConfusion

/-- No floating-point number is among some operands. -/
def FloatFree (operands : List Value) : Prop := ∀ v ∈ operands, ∀ x, v ≠ .float64 x

/-- Whether all predicates and plans that nest no deeper are read back, where at most so many may
be inside one another. -/
structure ReadsWithin (nesting : Nat) : Prop where
  predicate : ∀ p, FloatFree (predicateOperands p) → (predicateJson p).depth ≤ nesting →
    (Predicate.decodeWithin nesting).Reads (predicateJson p) p
  plan : ∀ plan : SelectPlan, FloatFree plan.operands → plan.toJson.depth ≤ nesting →
    (SelectPlan.decodeWithin nesting).Reads plan.toJson plan

/-- One more predicate around predicates and plans. -/
theorem ReadsWithin.predicate_succ {nesting : Nat} (h : ReadsWithin nesting)
    {p : Predicate SelectPlan} (hfree : FloatFree (predicateOperands p))
    (hdepth : (predicateJson p).depth ≤ nesting + 1) :
    (Predicate.decodeWithin (nesting + 1)).Reads (predicateJson p) p := by
  cases p with
  | compare comparison e v =>
    have hv := Value.reads_toJson (hfree v List.mem_cons_self)
    cases comparison <;>
      exact reads_tagged _ (reads_twoFields (by decide) e.reads_toJson hv (Predicate.compare _)
        fun _ => rfl)
  | isNull e => exact reads_tagged "IsNull" ((Predicate.reads_expr e).map Predicate.isNull)
  | isNotNull e => exact reads_tagged "IsNotNull" ((Predicate.reads_expr e).map Predicate.isNotNull)
  | like e pattern rule =>
    have he := e.reads_toJson
    have hrule := rule.reads_name
    refine reads_tagged "Like" (reads_record ["expr", "pattern", "case"]
      [e.toJson, .str pattern, .str rule.name] (by decide) rfl (by simp [he.wellFormed])
      fun n hn => ?_)
    simp [Slot.required, he.eq_some n (hn _ List.mem_cons_self), hrule.eq_some n (Nat.zero_le n)]
  | member e set =>
    have hpayload := Json.depth_obj_le_iff.mp hdepth _ List.mem_cons_self
    obtain ⟨n, rfl, hfields⟩ := Json.levels_of_obj hpayload
    have hinner := hfields ("subquery", set.toJson) (by simp)
    have hset := h.plan set hfree (hinner.trans (Nat.le_succ n))
    exact reads_tagged "InSubquery" (reads_twoFields (by decide) e.reads_toJson hset
      Predicate.member fun _ => rfl)
  | not p =>
    have hpayload := Json.depth_obj_le_iff.mp hdepth _ List.mem_cons_self
    exact reads_tagged "Not" ((h.predicate p hfree hpayload).map Predicate.not)
  | and ps =>
    rw [predicateJson_and] at hdepth ⊢
    rw [predicateOperands_and] at hfree
    have hpayload := Json.depth_obj_le_iff.mp hdepth _ List.mem_cons_self
    obtain ⟨n, rfl, hitems⟩ := Json.levels_of_array hpayload
    have hps : ∀ p ∈ ps, (Predicate.decodeWithin (n + 1)).Reads (predicateJson p) p := by
      intro p hp
      have hinner := hitems _ (List.mem_map_of_mem hp)
      exact h.predicate p (fun v hv => hfree v (List.mem_flatMap.mpr ⟨p, hp, hv⟩))
        (hinner.trans (Nat.le_succ n))
    exact reads_tagged "And" ((reads_list hps).map Predicate.and)

theorem ReadsWithin.plan_succ {nesting : Nat} (h : ReadsWithin nesting) {plan : SelectPlan}
    (hfree : FloatFree plan.operands) (hdepth : plan.toJson.depth ≤ nesting + 1) :
    (SelectPlan.decodeWithin (nesting + 1)).Reads plan.toJson plan := by
  rw [toJson_eq] at hdepth ⊢
  have hselection := plan.selection.reads_toJson
  have hjoins := reads_list fun join (_ : join ∈ plan.joins) => join.reads_toJson
  have hkeys := reads_list fun key (_ : key ∈ plan.orderBy) => key.reads_toJson
  have hfilter : (optional (Predicate.decodeWithin nesting)).Reads
      (.ofOption predicateJson plan.filter) plan.filter := by
    apply reads_ofOption _ predicateJson_ne_null
    intro p hp
    rw [operands_of_filter hp] at hfree
    have hinner := Json.depth_obj_le_iff.mp hdepth ("filter", predicateJson p)
      (by simp [Option.mem_def.mp hp, Json.ofOption])
    exact h.predicate p hfree hinner
  refine reads_record ["root_entity", "root_alias", "selection", "joins", "filter", "order_by"]
    [.str plan.rootEntity, .str plan.rootAlias, plan.selection.toJson,
      .array (plan.joins.map Join.toJson), .ofOption predicateJson plan.filter,
      .array (plan.orderBy.map OrderKey.toJson)] (by decide) rfl
    (by simp [hselection.wellFormed, hjoins.wellFormed, hfilter.wellFormed, hkeys.wellFormed])
    fun n hn => ?_
  simp only [List.forall_mem_cons] at hn
  obtain ⟨-, -, hselectionDepth, hjoinsDepth, hfilterDepth, hkeysDepth, -⟩ := hn
  simp only [List.map_cons, List.map_nil, Slot.required, Slot.optional, string_str,
    hselection.eq_some n hselectionDepth, hjoins.eq_some n hjoinsDepth,
    hfilter.eq_some n hfilterDepth, hkeys.eq_some n hkeysDepth]
  cases plan
  rfl

theorem readsWithin (nesting : Nat) : ReadsWithin nesting := by
  induction nesting with
  | zero =>
    -- Every predicate and every plan is an object.
    constructor
    · intro p _ hdepth
      cases p <;> exact absurd hdepth (Nat.not_succ_le_zero _)
    · intro plan _ hdepth
      rw [toJson_eq] at hdepth
      exact absurd hdepth (Nat.not_succ_le_zero _)
  | succ nesting ih =>
    exact ⟨fun p => ih.predicate_succ, fun plan => ih.plan_succ⟩

theorem reads_toJson {plan : SelectPlan} (h : FloatFree plan.operands) :
    SelectPlan.decoder.Reads plan.toJson plan where
  wellFormed := ((readsWithin _).plan plan h (Nat.le_refl _)).wellFormed
  eq_some levels hlevels := ((readsWithin levels).plan plan h hlevels).eq_some levels hlevels

end SelectPlan

end CriteriaQuery
