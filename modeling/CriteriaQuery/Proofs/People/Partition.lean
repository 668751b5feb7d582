import CriteriaQuery.Proofs.Handler.Inert
import CriteriaQuery.Proofs.Handler.OnRoot
import CriteriaQuery.Proofs.People.Search

/-! Searches that come in two: for people with an employer and for those without one, for parents and
for people who are none. Whatever is in the store and whatever else is searched by, such two split
what is counted without them (`opposite_searches_partition`). -/
namespace CriteriaQuery.People
open Calendar Outcome
set_option autoImplicit false

section Search
variable {today : Date} {policy : UnknownSortPolicy} {store : Store} {c : PersonCriteria}

/-! ## Employment and parenthood -/

/-- Has an employer, or with `false` none. -/
def employment (flag : Bool) : Applied := ⟨Node.person, "employerId", .notNull flag⟩

theorem meaning_employment (flag : Bool) (v : Value) :
    meaning store c (employment flag) v = (flag != v.isNull) := by
  rw [meaning_of_isStock rfl]
  cases flag with
  | true => exact (Bool.true_bne _).symm
  | false => exact (Bool.false_bne _).symm

/-- A field that only one restriction on people themselves reads was not set, and is now. -/
theorem adds {V : Type} {column : String} {read : PersonCriteria → Option V} {test : V → Test}
    {v : V} {richer : PersonCriteria}
    (hmem : Restriction.of Node.person column read test ∈ restrictions today)
    (hnone : read c = none) (hsome : read richer = some v) (hbuildable : (test v).Buildable)
    (hothers : ∀ other ∈ restrictions today, other = Restriction.of Node.person column read test ∨
      other.present? richer = other.present? c) :
    (handler today policy).Adds store c richer ⟨Node.person, column, test v⟩
      (meaning store richer) where
  present_iff := by
    apply Handler.mem_present_of_added hmem ?_ ?_ hothers
    · rw [Restriction.present?_of, hnone]
      rfl
    · rw [Restriction.present?_of, hsome]
      rfl
  node_eq := rfl
  ready := ⟨(declared_restrictions _ hmem).2, hbuildable⟩
  uniform _ ha := uniform_of_present ha
  settled := settled today policy store richer

theorem adds_parenthood (h : c.hasChildren = none) (flag : Bool) :
    (handler today policy).Adds store c { c with hasChildren := some flag } (parenthood flag)
      (meaning store { c with hasChildren := some flag }) := by
  refine adds ?_ h rfl (buildable_parenthood flag) ?_
  · simp [restrictions]
  · simp only [restrictions, List.forall_mem_cons]
    exact ⟨Or.inr rfl, Or.inr rfl, Or.inr rfl, Or.inr rfl, Or.inr rfl, Or.inr rfl, Or.inr rfl,
      Or.inl trivial, Or.inr rfl, List.forall_mem_nil _⟩

theorem adds_employment (h : c.employed = none) (flag : Bool) :
    (handler today policy).Adds store c { c with employed := some flag } (employment flag)
      (meaning store { c with employed := some flag }) := by
  have hbuildable : (Test.notNull flag).Buildable :=
    (Test.buildable_iff_supported rfl).mpr ⟨rfl, by decide⟩
  refine adds ?_ h rfl hbuildable ?_
  · simp [restrictions]
  · simp only [restrictions, List.forall_mem_cons]
    exact ⟨Or.inr rfl, Or.inr rfl, Or.inr rfl, Or.inr rfl, Or.inr rfl, Or.inr rfl, Or.inl trivial,
      Or.inr rfl, Or.inr rfl, List.forall_mem_nil _⟩

/-! ## A search for parents -/

/-- Whatever a search for parents is sorted by, what it returns are the people whose identifiers are not
null and are the parents on record of somebody. Unsorted it does return. -/
theorem entities_parents {requests : List (SortRequest PersonSort)}
    (h : (config today policy).Tolerates requests) :
    ∃ plan, (handler today policy).entityPlan ⟨{ hasChildren := some true }, requests⟩ = .ok plan ∧
      (∀ rows, plan.entities catalog store = .ok rows → ∀ row, row ∈ rows ↔
        row ∈ store.rows "Person" ∧ (row.value "id").isNull = false ∧
          ∃ child ∈ store.rows "Person",
            (row.value "id").equal (child.value "parentId") = true) ∧
      (requests = [] → ∃ rows, plan.entities catalog store = .ok rows) := by
  have hpresent : (handler today policy).present { hasChildren := some true } =
      [parenthood true] := rfl
  have hmain : (handler today policy).main { hasChildren := some true } = [parenthood true] := rfl
  have hbuildable : ∀ a ∈ (handler today policy).present { hasChildren := some true },
      a.test.Buildable := by
    rw [hpresent, List.forall_mem_singleton]
    exact buildable_parenthood true
  obtain ⟨plan, hplan⟩ := exists_entityPlan_iff.mpr ⟨h, hbuildable⟩
  have honRoot : ∀ a ∈ (handler today policy).main { hasChildren := some true },
      a.node = Node.person := by
    rw [hmain, List.forall_mem_singleton]
    rfl
  obtain ⟨hmem, hruns⟩ := Handler.mem_entities_iff_of_onRoot honRoot
    (settled today policy store _) hplan
  refine ⟨plan, hplan, ?_, hruns⟩
  intro rows hrows row
  have hselected : (handler today policy).Selected store { hasChildren := some true } row :=
    Or.inl rfl
  rw [hmem rows hrows, hmain, List.forall_mem_singleton, meaning_parenthood rfl, and_iff_left hselected,
    Bool.true_beq, Store.hasValue_eq_true_iff]
  exact Iff.rfl

/-! ## Opposite searches -/

/-- Whatever the store holds and whatever else is searched by, the counts of parents and of people who
are none add up to the count of both, and so do those of people with an employer and without one. What
a search for parents returns are the people whose identifiers somebody has for a parent, and unsorted
it does return. -/
theorem opposite_searches_partition (today : Date) (policy : UnknownSortPolicy) (store : Store) :
    (∀ c requests, (∃ plan, (handler today policy).countPlan ⟨c, requests⟩ = .ok plan) →
      (c.hasChildren = none → ∃ m n,
        (handler today policy).Counts store ⟨{ c with hasChildren := some true }, requests⟩ m ∧
        (handler today policy).Counts store ⟨{ c with hasChildren := some false }, requests⟩ n ∧
        (handler today policy).Counts store ⟨c, requests⟩ (m + n)) ∧
      (c.employed = none → ∃ m n,
        (handler today policy).Counts store ⟨{ c with employed := some true }, requests⟩ m ∧
        (handler today policy).Counts store ⟨{ c with employed := some false }, requests⟩ n ∧
        (handler today policy).Counts store ⟨c, requests⟩ (m + n))) ∧
    ∀ requests, (config today policy).Tolerates requests → ∃ plan,
      (handler today policy).entityPlan ⟨{ hasChildren := some true }, requests⟩ = .ok plan ∧
      (∀ rows, plan.entities catalog store = .ok rows → ∀ row, row ∈ rows ↔
        row ∈ store.rows "Person" ∧ (row.value "id").isNull = false ∧
          ∃ child ∈ store.rows "Person",
            (row.value "id").equal (child.value "parentId") = true) ∧
      (requests = [] → ∃ rows, plan.entities catalog store = .ok rows) := by
  refine ⟨?_, fun requests h => entities_parents h⟩
  intro c requests hcompiles
  constructor
  · intro hnone
    apply Handler.counts_of_adds (adds_parenthood hnone true) (adds_parenthood hnone false) ?_
      hcompiles
    intro row
    rw [meaning_parenthood rfl, meaning_parenthood rfl, Bool.true_beq, Bool.false_beq]
    rfl
  · intro hnone
    apply Handler.counts_of_adds (adds_employment hnone true) (adds_employment hnone false) ?_
      hcompiles
    intro row
    rw [meaning_employment, meaning_employment, Bool.true_bne, Bool.false_bne, Bool.not_not]
    rfl

end Search

/-! ## Bob's family -/

/-- Of those with an o in their first names, Bob is a parent and Molly is none, and neither has an
employer. -/
theorem opposite_searches_partition_of_bobsFamily :
    (∃ plan, (handler mayDay).countPlan ⟨{ firstName := some "o" }, []⟩ = .ok plan) ∧
    (∃ m n,
      (handler mayDay).Counts bobsFamily
        ⟨{ firstName := some "o", hasChildren := some true }, []⟩ m ∧
      (handler mayDay).Counts bobsFamily
        ⟨{ firstName := some "o", hasChildren := some false }, []⟩ n ∧
      (handler mayDay).Counts bobsFamily ⟨{ firstName := some "o" }, []⟩ (m + n) ∧
      m = 1 ∧ n = 1) ∧
    (∃ m n,
      (handler mayDay).Counts bobsFamily ⟨{ firstName := some "o", employed := some true }, []⟩ m ∧
      (handler mayDay).Counts bobsFamily ⟨{ firstName := some "o", employed := some false }, []⟩ n ∧
      (handler mayDay).Counts bobsFamily ⟨{ firstName := some "o" }, []⟩ (m + n) ∧
      m = 0 ∧ n = 2) ∧
    ∃ plan rows, (handler mayDay).entityPlan ⟨{ hasChildren := some true }, []⟩ = .ok plan ∧
      plan.entities catalog bobsFamily = .ok rows ∧ rows.length = 1 := by
  obtain ⟨hcounts, hparents⟩ := opposite_searches_partition mayDay .ignore bobsFamily
  have hcompiles : ∃ plan, (handler mayDay).countPlan ⟨{ firstName := some "o" }, []⟩ = .ok plan :=
    ⟨_, rfl⟩
  obtain ⟨hparenthood, hemployment⟩ := hcounts _ _ hcompiles
  obtain ⟨m, n, hm, hn, htotal⟩ := hparenthood rfl
  obtain ⟨k, l, hk, hl, hall⟩ := hemployment rfl
  obtain ⟨plan, hplan, -, hruns⟩ := hparents [] (Or.inl rfl)
  obtain ⟨rows, hrows⟩ := hruns rfl
  refine ⟨hcompiles, ⟨m, n, hm, hn, htotal, ?_, ?_⟩, ⟨k, l, hk, hl, hall, ?_, ?_⟩, plan, rows,
    hplan, hrows, ?_⟩
  · exact hm.unique ⟨_, rfl, rfl⟩
  · exact hn.unique ⟨_, rfl, rfl⟩
  · exact hk.unique ⟨_, rfl, rfl⟩
  · exact hl.unique ⟨_, rfl, rfl⟩
  · cases hplan
    cases hrows
    rfl

end CriteriaQuery.People
