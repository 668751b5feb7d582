import CriteriaQuery.People.Search
import CriteriaQuery.Proofs.Handler.Restricting

/-! Absent parts leave no trace. Restrictions that a record makes absent, operators without an
operand and, where they are ignored, sorts that are not configured can be left out of a
configuration or of a definition: what is compiled, or the error, stays the same
(`Handler.plans_of_absent`). -/
namespace CriteriaQuery
set_option autoImplicit false

/-! ## Leaving out items -/

/-- What is left of a list when some of the items that may be dropped are dropped. -/
inductive Thinned {α : Type} (droppable : α → Prop) : List α → List α → Prop
  | nil : Thinned droppable [] []
  | keep (a : α) {items left : List α} (h : Thinned droppable items left) :
      Thinned droppable (a :: items) (a :: left)
  | drop {a : α} {items left : List α} (ha : droppable a) (h : Thinned droppable items left) :
      Thinned droppable (a :: items) left

theorem Thinned.sublist {α : Type} {droppable : α → Prop} {items left : List α}
    (h : Thinned droppable items left) : left.Sublist items := by
  induction h with
  | nil => exact List.Sublist.slnil
  | keep a _ ih => exact ih.cons_cons a
  | drop _ _ ih => exact ih.cons _

theorem Thinned.filterMap_eq {α β : Type} {f : α → Option β} {items left : List α}
    (h : Thinned (fun a => f a = none) items left) : left.filterMap f = items.filterMap f := by
  induction h with
  | nil => rfl
  | keep a _ ih => rw [List.filterMap_cons, List.filterMap_cons, ih]
  | drop ha _ ih => rw [List.filterMap_cons_none ha, ih]

/-! ## Absent restrictions -/

section
variable {C V : Type}

theorem FieldMapping.present?_eq_none_iff (mapping : FieldMapping C V) (criteria : C) :
    mapping.restriction.present? criteria = none ↔
      mapping.present criteria = false ∨ mapping.read criteria = none := by
  unfold Restriction.present? restriction value?
  rw [Option.map_eq_none_iff, Option.map_eq_none_iff]
  cases mapping.present criteria <;> simp

/-- The mapping with a presence test of its own. -/
def FieldMapping.withPresence (mapping : FieldMapping C V) (present : C → Bool) :
    FieldMapping C V :=
  { mapping with present }

/-- A field with an operator is absent also where the operator has no operand. -/
theorem FieldMapping.present?_ofField_eq_none_iff (node : JoinNode) (column : String)
    (read : C → Option (CriteriaField V)) (test : CriteriaField V → Test) (present : C → Bool)
    (criteria : C) :
    ((ofField node column read test).withPresence present).restriction.present? criteria = none ↔
      present criteria = false ∨ (read criteria).bind (·.value) = none := by
  rw [present?_eq_none_iff]
  refine or_congr Iff.rfl ?_
  change (read criteria).filter CriteriaField.hasValue = none ↔ _
  cases read criteria with
  | none => exact iff_of_true rfl rfl
  | some field => cases hvalue : field.value <;> simp [CriteriaField.hasValue, hvalue]

end

/-! ## Fields without an operand -/

/-- A field of a record that holds an operator with its operand. -/
structure OperandField (C V : Type) where
  get : C → Option (CriteriaField V)
  /-- The same record with the field not set. -/
  unset : C → C
  get_unset : ∀ criteria, get (unset criteria) = none

namespace OperandField
variable {C V : Type} {field : OperandField C V} {criteria : C}

/-- What a getter reads has an operand only where the field has one. -/
def ReadBy {W : Type} (field : OperandField C V) (read : C → Option (CriteriaField W)) : Prop :=
  ∀ criteria, (field.get criteria).bind (·.value) = none → (read criteria).bind (·.value) = none

/-- A restriction reads a field at most through the getter of a mapping of fields with
operators. -/
inductive ReadIn (field : OperandField C V) : Restriction C → Prop
  | ignored {restriction : Restriction C}
      (h : ∀ criteria, restriction.test? (field.unset criteria) = restriction.test? criteria) :
      ReadIn field restriction
  | mapped {W : Type} (node : JoinNode) (column : String) {read : C → Option (CriteriaField W)}
      (test : CriteriaField W → Test) (present : C → Bool) (hread : field.ReadBy read) :
      ReadIn field ((FieldMapping.ofField node column read test).withPresence present).restriction

theorem ReadIn.present?_unset {restriction : Restriction C} (h : field.ReadIn restriction)
    (hnone : (field.get criteria).bind (·.value) = none) :
    restriction.present? (field.unset criteria) = restriction.present? criteria := by
  cases h with
  | ignored h => rw [Restriction.present?, h, Restriction.present?]
  | mapped node column test present hread =>
    have hunset : (field.get (field.unset criteria)).bind (·.value) = none := by
      rw [field.get_unset]
      rfl
    rw [(FieldMapping.present?_ofField_eq_none_iff ..).mpr (.inr (hread _ hunset)),
      (FieldMapping.present?_ofField_eq_none_iff ..).mpr (.inr (hread _ hnone))]

end OperandField

/-! ## Sorts that are not configured -/

theorem HandlerConfig.resolveSorts_of_thinned {C S : Type} [DecidableEq S]
    {config : HandlerConfig C S} {requests left : List (SortRequest S)}
    (hpolicy : config.unknownSorts = .ignore)
    (h : Thinned (fun request => config.sort? request.identifier = none) requests left) :
    config.resolveSorts left = config.resolveSorts requests := by
  induction h with
  | nil => rfl
  | keep request _ ih => rw [resolveSorts, resolveSorts, ih]
  | drop hnone _ ih => rw [resolveSorts, hnone, hpolicy, ih]

theorem HandlerConfig.resolveSorts_withRestrictions {C S : Type} [DecidableEq S]
    (config : HandlerConfig C S) (restrictions : List (Restriction C))
    (requests : List (SortRequest S)) :
    HandlerConfig.resolveSorts { config with restrictions } requests =
      config.resolveSorts requests := by
  induction requests with
  | nil => rfl
  | cons request rest ih =>
    rw [resolveSorts, resolveSorts, ih]
    rfl

/-! ## Compilation -/

namespace Handler
variable {C S : Type} [DecidableEq S]

/-- Only the groups of present restrictions and the resolved sorts of a definition count. -/
theorem compile_congr {handler other : Handler C S} {kind : ResultKind}
    {definition later : QueryDefinition C S} (hcatalog : other.catalog = handler.catalog)
    (hroot : other.config.root = handler.config.root)
    (hid : other.config.idColumn = handler.config.idColumn)
    (hgroups : other.groups later.criteria = handler.groups definition.criteria)
    (hsorts : other.sorts kind later.sorts = handler.sorts kind definition.sorts) :
    other.compile kind later = handler.compile kind definition := by
  have hpromote : other.promote = handler.promote := by
    unfold promote
    rw [hcatalog, hroot, hid]
  unfold compile start conditions mainGroups promotedGroups
  rw [hcatalog, hroot, hgroups, hsorts, hpromote]

/-- The count and the list that a definition is compiled to, or the errors in place of them. -/
def plans (handler : Handler C S) (definition : QueryDefinition C S) :
    Except Error SelectPlan × Except Error SelectPlan :=
  (handler.countPlan definition, handler.entityPlan definition)

theorem plans_eq_of_compile {handler other : Handler C S} {definition later : QueryDefinition C S}
    (h : ∀ kind, other.compile kind later = handler.compile kind definition) :
    other.plans later = handler.plans definition := by
  unfold plans countPlan entityPlan
  rw [h, h]

theorem plans_withRestrictions {handler : Handler C S} {definition : QueryDefinition C S}
    {restrictions : List (Restriction C)}
    (h : Thinned (fun r => r.present? definition.criteria = none) handler.config.restrictions
      restrictions) :
    (handler.withRestrictions restrictions h.sublist.subset).plans definition =
      handler.plans definition := by
  have hgroups : (handler.withRestrictions restrictions h.sublist.subset).groups
      definition.criteria = handler.groups definition.criteria :=
    congrArg RestrictionGroup.ofList h.filterMap_eq
  refine plans_eq_of_compile fun kind => compile_congr rfl rfl rfl hgroups ?_
  cases kind with
  | count => rfl
  | entity => exact HandlerConfig.resolveSorts_withRestrictions ..

theorem plans_unset {handler : Handler C S} {definition : QueryDefinition C S} {V : Type}
    {field : OperandField C V} (hnone : (field.get definition.criteria).bind (·.value) = none)
    (hread : ∀ r ∈ handler.config.restrictions, field.ReadIn r) :
    handler.plans { definition with criteria := field.unset definition.criteria } =
      handler.plans definition := by
  have hpresent : handler.config.restrictions.filterMap
        (·.present? (field.unset definition.criteria)) =
      handler.config.restrictions.filterMap (·.present? definition.criteria) :=
    List.filterMap_congr fun r hr => (hread r hr).present?_unset hnone
  have hgroups : handler.groups (field.unset definition.criteria) =
      handler.groups definition.criteria := congrArg RestrictionGroup.ofList hpresent
  exact plans_eq_of_compile fun kind => compile_congr rfl rfl rfl hgroups rfl

theorem plans_withSorts {handler : Handler C S} {definition : QueryDefinition C S}
    {sorts : List (SortRequest S)} (hpolicy : handler.config.unknownSorts = .ignore)
    (h : Thinned (fun request => handler.config.sort? request.identifier = none) definition.sorts
      sorts) : handler.plans { definition with sorts } = handler.plans definition := by
  refine plans_eq_of_compile fun kind => compile_congr rfl rfl rfl rfl ?_
  cases kind with
  | count => rfl
  | entity => exact HandlerConfig.resolveSorts_of_thinned hpolicy h

/-- Absent parts are of no effect. The plans of a definition, or the errors that it compiles to,
stay the same where restrictions that are absent are left out of the configuration, where a field
with an operator but no operand is unset, and where sorts that are not configured and ignored are
left out of the definition. -/
theorem plans_of_absent (handler : Handler C S) (definition : QueryDefinition C S) :
    (∀ restrictions, Thinned (fun r => r.present? definition.criteria = none)
        handler.config.restrictions restrictions →
      ∃ other, create handler.catalog { handler.config with restrictions } = .ok other ∧
        other.plans definition = handler.plans definition) ∧
    (∀ (V : Type) (field : OperandField C V) (op : Operator),
      field.get definition.criteria = some ⟨op, none⟩ →
      (∀ r ∈ handler.config.restrictions, field.ReadIn r) →
      handler.plans { definition with criteria := field.unset definition.criteria } =
        handler.plans definition) ∧
    (handler.config.unknownSorts = .ignore → ∀ sorts,
      Thinned (fun request => handler.config.sort? request.identifier = none) definition.sorts
        sorts →
      handler.plans { definition with sorts } = handler.plans definition) := by
  refine ⟨?_, ?_, ?_⟩
  · intro restrictions hthinned
    exact ⟨_, create_withRestrictions hthinned.sublist.subset, plans_withRestrictions hthinned⟩
  · intro V field op hfield hread
    have hnone : (field.get definition.criteria).bind (·.value) = none := by
      rw [hfield]
      rfl
    exact plans_unset hnone hread
  · intro hpolicy sorts hthinned
    exact plans_withSorts hpolicy hthinned

end Handler

/-! ## A search with an operator and nothing to compare with -/

namespace People
open Calendar

def mayDay : Date := ⟨2024, 5, 1, by decide⟩

def lastName : OperandField PersonCriteria String where
  get criteria := criteria.lastName
  unset criteria := { criteria with lastName := none }
  get_unset _ := rfl

/-- Looks for first names with an M; the pattern of the last name is missing, and the sort that
would come first is not configured. -/
def unfinished : PersonQuery where
  criteria := { firstName := some "M", lastName := some ⟨.like, none⟩ }
  sorts := [⟨.noMapping, .ascending⟩, ⟨.firstName, .descending⟩]

def byFirstName : Restriction PersonCriteria :=
  .of Node.person "firstName" (·.firstName) Test.contains

theorem plans_of_absent_of_unfinished :
    (∃ plan, (handler mayDay).entityPlan unfinished = .ok plan) ∧
    (∃ other, Handler.create catalog { (handler mayDay).config with
        restrictions := [byFirstName] } = .ok other ∧
      other.plans unfinished = (handler mayDay).plans unfinished) ∧
    (handler mayDay).plans { unfinished with criteria := { firstName := some "M" } } =
      (handler mayDay).plans unfinished ∧
    (handler mayDay).plans { unfinished with sorts := [⟨.firstName, .descending⟩] } =
      (handler mayDay).plans unfinished := by
  obtain ⟨hrestrictions, hfield, hsorts⟩ := Handler.plans_of_absent (handler mayDay) unfinished
  have habsent : Thinned (fun r => r.present? unfinished.criteria = none)
      (handler mayDay).config.restrictions [byFirstName] :=
    .keep _ (.drop rfl (.drop rfl (.drop rfl (.drop rfl (.drop rfl (.drop rfl (.drop rfl
      (.drop rfl .nil))))))))
  have hread : ∀ r ∈ (handler mayDay).config.restrictions, lastName.ReadIn r := by
    change ∀ r ∈ restrictions mayDay, lastName.ReadIn r
    simp only [restrictions, List.forall_mem_cons]
    refine ⟨.ignored fun _ => rfl, ?_, .ignored fun _ => rfl, .ignored fun _ => rfl,
      .ignored fun _ => rfl, .ignored fun _ => rfl, .ignored fun _ => rfl, .ignored fun _ => rfl,
      .ignored fun _ => rfl, nofun⟩
    exact .mapped Node.person "lastName" Test.ofStringField (fun _ => true) fun _ h => h
  have hunknown : Thinned
      (fun request => (handler mayDay).config.sort? request.identifier = none) unfinished.sorts
      [⟨.firstName, .descending⟩] := .drop rfl (.keep _ .nil)
  exact ⟨⟨_, rfl⟩, hrestrictions _ habsent, hfield String lastName .like rfl hread,
    hsorts rfl _ hunknown⟩

end People

end CriteriaQuery
