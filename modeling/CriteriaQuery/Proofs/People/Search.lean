import CriteriaQuery.People.Search
import CriteriaQuery.Proofs.Handler.Success

/-! Searches for people. Everything that their restrictions and sorts use is declared, so that a
search compiles if its tests can be built (`exists_entityPlan_iff`). All tests have a fixed meaning
but that for parenthood, which looks at the store (`settled`). -/
namespace CriteriaQuery
open Calendar Outcome
set_option autoImplicit false

/-! ## Fields of a record -/

section Fields
variable {C V : Type}

theorem Restriction.present?_of (node : JoinNode) (column : String) (read : C → Option V)
    (test : V → Test) (criteria : C) :
    (Restriction.of node column read test).present? criteria =
      (read criteria).map fun v => ⟨node, column, test v⟩ := by
  cases hread : read criteria <;>
    simp [present?, Restriction.of, FieldMapping.restriction, FieldMapping.value?, hread]

theorem FieldMapping.isStock_of_test? {mapping : FieldMapping C V}
    (hstock : ∀ v, (mapping.test v).isStock = true) (criteria : C) (test : Test)
    (h : mapping.restriction.test? criteria = some test) : test.isStock = true := by
  obtain ⟨v, -, rfl⟩ := Option.map_eq_some_iff.mp h
  exact hstock v

end Fields

namespace People
variable {today : Date} {policy : UnknownSortPolicy} {store : Store} {c : PersonCriteria}

/-! ## What is declared -/

theorem pathDeclared_person : Node.person.PathDeclared catalog :=
  JoinNode.pathDeclared_of_isRoot rfl

theorem pathDeclared_business : Node.business.PathDeclared catalog :=
  List.forall_mem_append.mpr
    ⟨pathDeclared_person, List.forall_mem_singleton.mpr ⟨_, rfl, rfl, rfl⟩⟩

theorem pathDeclared_owner : Node.owner.PathDeclared catalog :=
  List.forall_mem_append.mpr
    ⟨pathDeclared_business, List.forall_mem_singleton.mpr ⟨_, rfl, rfl, rfl⟩⟩

theorem pathDeclared_child : Node.child.PathDeclared catalog :=
  List.forall_mem_append.mpr
    ⟨pathDeclared_person, List.forall_mem_singleton.mpr ⟨_, rfl, rfl, rfl⟩⟩

theorem declared_restrictions : ∀ restriction ∈ restrictions today,
    restriction.node.PathDeclared catalog ∧
      catalog.Declares restriction.node.entity restriction.column := by
  simp only [restrictions, List.forall_mem_cons]
  exact ⟨⟨pathDeclared_person, Catalog.declares_of_field? rfl rfl⟩,
    ⟨pathDeclared_person, Catalog.declares_of_field? rfl rfl⟩,
    ⟨pathDeclared_business, Catalog.declares_of_field? rfl rfl⟩,
    ⟨pathDeclared_business, Catalog.declares_of_field? rfl rfl⟩,
    ⟨pathDeclared_owner, Catalog.declares_of_field? rfl rfl⟩,
    ⟨pathDeclared_child, Catalog.declares_of_field? rfl rfl⟩,
    ⟨pathDeclared_person, Catalog.declares_of_field? rfl rfl⟩,
    ⟨pathDeclared_person, Catalog.declares_of_field? rfl rfl⟩,
    ⟨pathDeclared_child, Catalog.declares_of_field? rfl rfl⟩, List.forall_mem_nil _⟩

theorem declared_sorts : ∀ sort ∈ sorts,
    sort.node.PathDeclared catalog ∧ catalog.Declares sort.node.entity sort.column := by
  simp only [sorts, List.forall_mem_cons]
  exact ⟨⟨pathDeclared_person, Catalog.declares_of_field? rfl rfl⟩,
    ⟨pathDeclared_person, Catalog.declares_of_field? rfl rfl⟩,
    ⟨pathDeclared_business, Catalog.declares_of_field? rfl rfl⟩,
    ⟨pathDeclared_owner, Catalog.declares_of_field? rfl rfl⟩, List.forall_mem_nil _⟩

theorem declared_present : ∀ a ∈ (handler today policy).present c,
    a.node.PathDeclared catalog ∧ catalog.Declares a.node.entity a.column := by
  intro a ha
  obtain ⟨restriction, hrestriction, hpresent⟩ := List.mem_filterMap.mp ha
  obtain ⟨test, -, rfl⟩ := Option.map_eq_some_iff.mp hpresent
  exact declared_restrictions restriction hrestriction

theorem declared_known {requests : List (SortRequest PersonSort)} :
    ∀ sort ∈ (config today policy).known requests,
      sort.1.node.PathDeclared catalog ∧ catalog.Declares sort.1.node.entity sort.1.column := by
  intro sort hsort
  obtain ⟨request, -, hmap⟩ := List.mem_filterMap.mp hsort
  obtain ⟨found, hfound, rfl⟩ := Option.map_eq_some_iff.mp hmap
  exact declared_sorts found (List.mem_of_find?_eq_some hfound)

theorem declared (requests : List (SortRequest PersonSort)) :
    (handler today policy).Declared c ((config today policy).known requests) where
  root := ⟨_, rfl⟩
  paths := by
    rw [List.forall_mem_append, List.forall_mem_map, List.forall_mem_map]
    exact ⟨fun a ha => (declared_present a ha).1, fun sort hsort => (declared_known sort hsort).1⟩
  identity _ := Catalog.declares_of_field? rfl rfl
  sorts sort hsort := (declared_known sort hsort).2

/-! ## What searches mean -/

/-- Is a parent, or with `false` is none. -/
def parenthood (flag : Bool) : Applied :=
  ⟨Node.person, "id", .memberOf catalog "Person" "parentId" flag⟩

def byParenthood : Restriction PersonCriteria :=
  .of Node.person "id" (·.hasChildren) (Test.memberOf catalog "Person" "parentId")

/-- What the restrictions of a search mean on a store. Only that on parenthood looks at the store. -/
def meaning (store : Store) (c : PersonCriteria) : Meaning := fun a v =>
  if a.test.isStock then a.test.accepts v
  else c.hasChildren.getD true == store.hasValue "Person" "parentId" v

theorem isStock_underageTest (flag : Bool) : (underageTest today flag).isStock = true := by
  cases flag <;> rfl

theorem isStock_or_byParenthood : ∀ restriction ∈ restrictions today,
    restriction = byParenthood ∨
      ∀ c test, restriction.test? c = some test → test.isStock = true := by
  simp only [restrictions, List.forall_mem_cons]
  have hstock {V : Type} {mapping : FieldMapping PersonCriteria V}
      (h : ∀ v, (mapping.test v).isStock = true) :
      mapping.restriction = byParenthood ∨
        ∀ c test, mapping.restriction.test? c = some test → test.isStock = true :=
    Or.inr (FieldMapping.isStock_of_test? h)
  exact ⟨hstock fun _ => rfl, hstock fun _ => rfl, hstock fun _ => rfl, hstock fun _ => rfl,
    hstock fun _ => rfl, hstock fun _ => rfl, hstock fun _ => rfl, Or.inl rfl,
    hstock isStock_underageTest, List.forall_mem_nil _⟩

theorem isStock_or_parenthood {a : Applied} (h : a ∈ (handler today policy).present c) :
    a.test.isStock = true ∨ ∃ flag, c.hasChildren = some flag ∧ a = parenthood flag := by
  obtain ⟨restriction, hrestriction, hpresent⟩ := List.mem_filterMap.mp h
  obtain ⟨test, htest, rfl⟩ := Option.map_eq_some_iff.mp hpresent
  rcases isStock_or_byParenthood restriction hrestriction with rfl | hstock
  · obtain ⟨flag, hflag, rfl⟩ := Option.map_eq_some_iff.mp htest
    exact Or.inr ⟨flag, hflag, rfl⟩
  · exact Or.inl (hstock c test htest)

theorem uniform_of_present {a : Applied} (h : a ∈ (handler today policy).present c) :
    a.test.Uniform := by
  rcases isStock_or_parenthood h with hstock | ⟨flag, -, rfl⟩
  · exact Test.uniform_of_isStock hstock
  · exact Test.uniform_memberOf

theorem meaning_of_isStock {a : Applied} (hstock : a.test.isStock = true) :
    meaning store c a = a.test.accepts := funext fun _ => if_pos hstock

theorem meaning_parenthood {flag : Bool} (hflag : c.hasChildren = some flag) (v : Value) :
    meaning store c (parenthood flag) v =
      (flag == store.hasValue "Person" "parentId" v) := by
  rw [meaning, hflag]
  exact if_neg Bool.false_ne_true

theorem settled (today : Date) (policy : UnknownSortPolicy) (store : Store) (c : PersonCriteria) :
    (handler today policy).Settled store c (meaning store c) where
  main := by
    intro a ha
    rcases isStock_or_parenthood (List.mem_filter.mp ha).1 with hstock | ⟨flag, hflag, rfl⟩
    · rw [meaning_of_isStock hstock]
      exact Test.means_of_isStock hstock
    · rw [funext (meaning_parenthood hflag)]
      exact Test.means_memberOf
  promoted := by
    intro a ha
    obtain ⟨hpresent, hmany⟩ := List.mem_filter.mp ha
    rcases isStock_or_parenthood hpresent with hstock | ⟨flag, -, rfl⟩
    · exact Test.means_of_isStock hstock
    · cases hmany

theorem buildable_parenthood (flag : Bool) : (parenthood flag).test.Buildable :=
  fun _ _ => Test.exists_memberOf_iff.mpr (Catalog.declares_of_field? rfl rfl)

/-- A search compiles exactly if its sorts are known or ignored and all its tests can be built. -/
theorem exists_entityPlan_iff {requests : List (SortRequest PersonSort)} :
    (∃ plan, (handler today policy).entityPlan ⟨c, requests⟩ = .ok plan) ↔
      (config today policy).Tolerates requests ∧
        ∀ a ∈ (handler today policy).present c, a.test.Buildable := by
  rw [Handler.entityPlan, exists_map_eq_ok,
    Handler.exists_compile_iff_of_uniform fun a ha => uniform_of_present ha]
  constructor
  · rintro ⟨htolerates, -, hready⟩
    exact ⟨htolerates rfl, fun a ha => (hready a ha).buildable⟩
  · rintro ⟨htolerates, hbuildable⟩
    exact ⟨fun _ => htolerates, declared requests,
      fun a ha => ⟨(declared_present a ha).2, hbuildable a ha⟩⟩

end People

end CriteriaQuery
