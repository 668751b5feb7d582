import CriteriaQuery.People.Criteria
import CriteriaQuery.Proofs.Plan.Json

/-! The JSON form of plans and of searches for people loses nothing: what was written is read back
from its text, with every difference that a value can make (`decode?_compact_toJson`). A plan may
nest as deep as a reader follows, and no floating-point number may be among its operands; a search
for people has no such limits. -/
namespace CriteriaQuery
open Decoder
set_option autoImplicit false

/-! ## Criteria fields, sorts and definitions -/

theorem Operator.lookup_name (op : Operator) :
    (Operator.all.map fun op => (op.name, op)).lookup op.name = some op := by
  cases op <;> rfl

theorem Operator.reads_toJson (op : Operator) : Operator.decoder.Reads op.toJson op :=
  reads_named op.lookup_name

theorem CriteriaField.reads_toJson {V : Type} {d : Decoder V} {encode : V → Json}
    (h : ∀ v, d.Reads (encode v) v) (hnull : ∀ v, encode v ≠ .null) (field : CriteriaField V) :
    (CriteriaField.decoder d).Reads (field.toJson encode) field := by
  have hvalue := reads_ofOption (o := field.value) (fun v _ => h v) hnull
  exact reads_twoFields (by decide) field.op.reads_toJson hvalue CriteriaField.mk fun _ => rfl

theorem SortRequest.reads_toJson {S : Type} {d : Decoder S} {encode : S → Json}
    (h : ∀ s, d.Reads (encode s) s) (sort : SortRequest S) :
    (SortRequest.decoder d).Reads (sort.toJson encode) sort :=
  reads_twoFields (by decide) (h sort.identifier) sort.direction.reads_toJson SortRequest.mk
    fun _ => rfl

/-- A definition is read back if its criteria and its identifiers are. -/
theorem QueryDefinition.reads_toJson {C S : Type} {d : Decoder C} {criteria : Slot → Option C}
    {identifier : Decoder S} {encode : C → Json} {encodeSort : S → Json}
    (hgiven : ∀ n v, criteria (.given n v) = d n v) (hcriteria : ∀ c, d.Reads (encode c) c)
    (hsort : ∀ s, identifier.Reads (encodeSort s) s) (definition : QueryDefinition C S) :
    (QueryDefinition.decoder criteria identifier).Reads (definition.toJson encode encodeSort)
      definition := by
  have hsorts := reads_list fun sort (_ : sort ∈ definition.sorts) =>
    SortRequest.reads_toJson hsort sort
  refine reads_twoFields (by decide) (hcriteria definition.criteria) hsorts QueryDefinition.mk
    fun n => ?_
  simp only [hgiven]
  rfl

namespace People

/-! ## Searches for people -/

theorem PersonSort.reads_toJson (sort : PersonSort) : PersonSort.decoder.Reads sort.toJson sort :=
  reads_named (by cases sort <;> rfl)

theorem PersonCriteria.field_given {α : Type} (d : Decoder α) (n : Nat) (v : Json) :
    PersonCriteria.field d (.given n v) = optional d n v := rfl

theorem reads_text (o : Option String) : (optional string).Reads (.ofOption .str o) o :=
  reads_ofOption (fun s _ => reads_string s) fun _ => Json.noConfusion

theorem reads_flag (o : Option Bool) : (optional bool).Reads (.ofOption .bool o) o :=
  reads_ofOption (fun b _ => reads_bool b) fun _ => Json.noConfusion

theorem reads_textField (o : Option (CriteriaField String)) :
    (optional (CriteriaField.decoder string)).Reads (.ofOption (CriteriaField.toJson .str) o) o :=
  reads_ofOption (fun field _ => field.reads_toJson reads_string fun _ => Json.noConfusion)
    fun _ => Json.noConfusion

theorem PersonCriteria.reads_toJson (c : PersonCriteria) :
    PersonCriteria.decoder.Reads c.toJson c := by
  have hlast := reads_textField c.lastName
  refine reads_record ["firstName", "lastName", "companyName", "companyAddress", "ownerName",
      "childName", "underageChildren", "employed", "hasChildren", "notMapped"]
    [.ofOption .str c.firstName, .ofOption (CriteriaField.toJson .str) c.lastName,
      .ofOption .str c.companyName, .ofOption .str c.companyAddress, .ofOption .str c.ownerName,
      .ofOption .str c.childName, .ofOption .bool c.underageChildren, .ofOption .bool c.employed,
      .ofOption .bool c.hasChildren, .ofOption .str c.notMapped] (by decide) rfl
    (by simp [(reads_text _).wellFormed, (reads_flag _).wellFormed, hlast.wellFormed])
    fun n hn => ?_
  simp only [List.forall_mem_cons] at hn
  obtain ⟨h₁, h₂, h₃, h₄, h₅, h₆, h₇, h₈, h₉, h₁₀, -⟩ := hn
  simp [PersonCriteria.field_given, (reads_text _).eq_some n h₁, hlast.eq_some n h₂,
    (reads_text _).eq_some n h₃, (reads_text _).eq_some n h₄, (reads_text _).eq_some n h₅,
    (reads_text _).eq_some n h₆, (reads_flag _).eq_some n h₇, (reads_flag _).eq_some n h₈,
    (reads_flag _).eq_some n h₉, (reads_text _).eq_some n h₁₀]

theorem PersonQuery.reads_toJson (query : PersonQuery) :
    PersonQuery.decoder.Reads query.toJson query :=
  QueryDefinition.reads_toJson (fun _ _ => rfl) PersonCriteria.reads_toJson PersonSort.reads_toJson
    query

/-! ## How deep searches nest -/

theorem depth_ofOption_le {α : Type} {encode : α → Json} {n : Nat} (h : ∀ a, (encode a).depth ≤ n)
    (o : Option α) : (Json.ofOption encode o).depth ≤ n := by
  cases o with
  | none => exact Nat.zero_le n
  | some a => exact h a

theorem depth_text_le (o : Option String) (n : Nat) : (Json.ofOption .str o).depth ≤ n :=
  depth_ofOption_le (fun _ => Nat.zero_le n) o

theorem depth_flag_le (o : Option Bool) (n : Nat) : (Json.ofOption .bool o).depth ≤ n :=
  depth_ofOption_le (fun _ => Nat.zero_le n) o

theorem PersonCriteria.depth_toJson_le (c : PersonCriteria) : c.toJson.depth ≤ 2 := by
  have hfield : ∀ field : CriteriaField String, (field.toJson .str).depth ≤ 1 := by
    intro field
    apply Json.depth_obj_le_iff.mpr
    simp only [List.forall_mem_cons, depth_text_le, true_and]
    exact ⟨Nat.zero_le 0, fun f hf => (List.not_mem_nil hf).elim⟩
  apply Json.depth_obj_le_iff.mpr
  simp only [List.forall_mem_cons, depth_text_le, depth_flag_le, depth_ofOption_le hfield, true_and]
  exact fun f hf => (List.not_mem_nil hf).elim

theorem PersonQuery.depth_toJson_le (query : PersonQuery) : query.toJson.depth ≤ 3 := by
  have hsort : ∀ sort : SortRequest PersonSort, (sort.toJson PersonSort.toJson).depth ≤ 1 := by
    intro sort
    apply Json.depth_obj_le_iff.mpr
    simp only [List.forall_mem_cons]
    exact ⟨Nat.zero_le 0, Nat.zero_le 0, fun f hf => (List.not_mem_nil hf).elim⟩
  apply Json.depth_obj_le_iff.mpr
  simp only [List.forall_mem_cons]
  refine ⟨query.criteria.depth_toJson_le, ?_, fun f hf => (List.not_mem_nil hf).elim⟩
  apply Json.depth_array_le_iff.mpr
  intro v hv
  obtain ⟨sort, -, rfl⟩ := List.mem_map.mp hv
  exact hsort sort

/-! ## Reading back -/

/-- Plans and searches for people are read back from their text. -/
theorem decode?_compact_toJson :
    (∀ plan : SelectPlan, SelectPlan.FloatFree plan.operands → plan.toJson.depth < 128 →
      decode? SelectPlan.decoder plan.toJson.compact = some plan) ∧
    ∀ query : PersonQuery, decode? PersonQuery.decoder query.toJson.compact = some query := by
  constructor
  · intro plan hfree hdepth
    exact (SelectPlan.reads_toJson hfree).decode?_compact (Nat.le_of_lt_succ hdepth)
  · intro query
    have hdepth := query.depth_toJson_le
    exact query.reads_toJson.decode?_compact (hdepth.trans (by decide))

/-- A plan with a subquery at the last level that is read, behind negations, beside an empty
conjunction, narrow and missing numbers, years with a sign and texts that need escapes. -/
def deepest : SelectPlan :=
  let name : Scalar := .column "c0" "last\tname \"\\ \x01é😀"
  let inner : SelectPlan := { SelectPlan.scan "Company" "q1_c0" with
    selection := .expr (.count "q1_c0")
    filter := some (.compare .ne name (.date Calendar.Date.first))
    orderBy := [⟨name, .descending⟩] }
  { SelectPlan.scan "Person" "c0" with
    joins := [⟨"c1", "c0", "company", "Company", .left, true⟩]
    filter := some (.and [.and [], .compare .eq name (.int32 (-5)), .compare .lt name .null,
      .like name "%\n_" .insensitive,
      .compare .ge name (.date ⟨10000, 2, 29, by decide⟩),
      Nat.repeat Predicate.not 117 (.member name inner)]) }

theorem decode?_compact_toJson_deepest :
    SelectPlan.FloatFree deepest.operands ∧ deepest.toJson.depth < 128 ∧
      decode? SelectPlan.decoder deepest.toJson.compact = some deepest := by
  have hfree : SelectPlan.FloatFree deepest.operands := by
    have hoperands : deepest.operands = [.int32 (-5), .null, .date ⟨10000, 2, 29, by decide⟩,
      .date Calendar.Date.first] := rfl
    rw [hoperands]
    simp [SelectPlan.FloatFree]
  have hdepth : deepest.toJson.depth = 127 := by decide +kernel
  exact ⟨hfree, by omega, decode?_compact_toJson.1 deepest hfree (by omega)⟩

end People

end CriteriaQuery
