import CriteriaQuery.Execution
import CriteriaQuery.Proofs.Execution.Extension
import Mathlib.Data.List.Nodup

/-! What predicates say of a binding, without failures and without the table of loaded members.
Where all aliases are bound and all subqueries can be loaded, evaluating a predicate gives its
truth, whatever has been loaded before (`Predicate.evaluate_eq_holds`): the table never holds
anything but the members of the set at a place, and no two sets stand at one place. -/
namespace CriteriaQuery
open Outcome
set_option autoImplicit false

namespace Predicate
variable {σ τ : Type}

/-! ## Truth -/

mutual

/-- Whether a predicate is true of a binding, given the members of its sets. -/
def holds (members : σ → List Value) (binding : Binding) : Predicate σ → Bool
  | .compare c e operand => c.holds (binding.read e) operand
  | .isNull e => (binding.read e).isNull
  | .isNotNull e => !(binding.read e).isNull
  | .like e pattern rule => rule.accepts (binding.read e) pattern
  | .member e set => !(binding.read e).isNull && (members set).any (binding.read e).equal
  | .not p => !holds members binding p
  | .and ps => holdsAll members binding ps

def holdsAll (members : σ → List Value) (binding : Binding) : List (Predicate σ) → Bool
  | [] => true
  | p :: ps => holds members binding p && holdsAll members binding ps

end

mutual

/-- A predicate that reads no other aliases than these. -/
def ReadsFrom (aliases : List String) : Predicate σ → Prop
  | .compare _ e _ | .isNull e | .isNotNull e | .like e _ _ | .member e _ => e.ReadsFrom aliases
  | .not p => ReadsFrom aliases p
  | .and ps => AllReadFrom aliases ps

def AllReadFrom (aliases : List String) : List (Predicate σ) → Prop
  | [] => True
  | p :: ps => ReadsFrom aliases p ∧ AllReadFrom aliases ps

end

mutual

/-- The sets of a predicate with their places. -/
def occurrences (place : Place) : Predicate σ → List (Place × σ)
  | .compare _ _ _ | .isNull _ | .isNotNull _ | .like _ _ _ => []
  | .member _ set => [(place, set)]
  | .not p => occurrences (0 :: place) p
  | .and ps => occurrencesFrom place 0 ps

/-- The sets of the members of a conjunction from the one at `index` on, with their places. -/
def occurrencesFrom (place : Place) (index : Nat) : List (Predicate σ) → List (Place × σ)
  | [] => []
  | p :: ps => occurrences (index :: place) p ++ occurrencesFrom place (index + 1) ps

end

def sets (p : Predicate σ) : List σ := (p.occurrences []).map (·.2)

theorem holdsAll_eq_true {members : σ → List Value} {binding : Binding} {ps : List (Predicate σ)} :
    holdsAll members binding ps = true ↔ ∀ p ∈ ps, p.holds members binding = true := by
  induction ps with
  | nil => simp [holdsAll]
  | cons p ps ih => simp [holdsAll, ih]

theorem allReadFrom_iff {aliases : List String} {ps : List (Predicate σ)} :
    AllReadFrom aliases ps ↔ ∀ p ∈ ps, p.ReadsFrom aliases := by
  induction ps with
  | nil => simp [AllReadFrom]
  | cons p ps ih => simp [AllReadFrom, ih]

/-! ## Conjunctions of lists -/

theorem holds_all {members : σ → List Value} {binding : Binding} {ps : List (Predicate σ)} :
    (all ps).holds members binding = true ↔ ∀ p ∈ ps, p.holds members binding = true := by
  unfold all
  split
  · simp
  · rw [holds, holdsAll_eq_true]

theorem readsFrom_all {aliases : List String} {ps : List (Predicate σ)} :
    (all ps).ReadsFrom aliases ↔ ∀ p ∈ ps, p.ReadsFrom aliases := by
  unfold all
  split
  · simp
  · rw [ReadsFrom, allReadFrom_iff]

/-! ## Places -/

mutual

theorem suffix_of_mem_occurrences {place place' : Place} {set : σ} (p : Predicate σ)
    (h : (place', set) ∈ p.occurrences place) : place <:+ place' := by
  cases p with
  | member e s =>
    rw [occurrences, List.mem_singleton, Prod.mk.injEq] at h
    obtain ⟨rfl, -⟩ := h
    exact List.suffix_refl _
  | not p =>
    rw [occurrences] at h
    exact (List.suffix_cons 0 place).trans (suffix_of_mem_occurrences p h)
  | and ps =>
    rw [occurrences] at h
    obtain ⟨index, -, hsuffix⟩ := suffix_of_mem_occurrencesFrom ps h
    exact (List.suffix_cons index place).trans hsuffix
  | _ => exact (List.not_mem_nil h).elim

theorem suffix_of_mem_occurrencesFrom {place place' : Place} {index : Nat} {set : σ}
    (ps : List (Predicate σ)) (h : (place', set) ∈ occurrencesFrom place index ps) :
    ∃ i, index ≤ i ∧ (i :: place) <:+ place' := by
  cases ps with
  | nil => exact (List.not_mem_nil h).elim
  | cons p ps =>
    rw [occurrencesFrom, List.mem_append] at h
    rcases h with h | h
    · exact ⟨index, Nat.le_refl _, suffix_of_mem_occurrences p h⟩
    · obtain ⟨i, hi, hsuffix⟩ := suffix_of_mem_occurrencesFrom ps h
      exact ⟨i, Nat.le_of_succ_le hi, hsuffix⟩

end

mutual

theorem nodup_occurrences (place : Place) (p : Predicate σ) :
    ((p.occurrences place).map (·.1)).Nodup := by
  cases p with
  | member e set => simp [occurrences]
  | not p => exact nodup_occurrences (0 :: place) p
  | and ps => exact nodup_occurrencesFrom place 0 ps
  | _ => exact List.nodup_nil

theorem nodup_occurrencesFrom (place : Place) (index : Nat) (ps : List (Predicate σ)) :
    ((occurrencesFrom place index ps).map (·.1)).Nodup := by
  cases ps with
  | nil => exact List.nodup_nil
  | cons p ps =>
    rw [occurrencesFrom, List.map_append, List.nodup_append]
    refine ⟨nodup_occurrences _ p, nodup_occurrencesFrom place (index + 1) ps, ?_⟩
    rintro _ ha _ hb rfl
    obtain ⟨⟨place', set⟩, hset, rfl⟩ := List.mem_map.mp ha
    obtain ⟨⟨_, other⟩, hother, rfl⟩ := List.mem_map.mp hb
    -- both places end in the index of their member, so the indices would be the same
    have hfirst := suffix_of_mem_occurrences p hset
    obtain ⟨i, hi, hrest⟩ := suffix_of_mem_occurrencesFrom ps hother
    have heq : index :: place = i :: place := by
      apply (List.suffix_of_suffix_length_le hfirst hrest (by simp)).eq_of_length
      simp
    rw [List.cons.injEq] at heq
    omega

end

/-! ## Sets of conjunctions -/

mutual

/-- The place of a predicate has no part in its sets. -/
theorem map_occurrences (place place' : Place) (p : Predicate σ) :
    (p.occurrences place).map (·.2) = (p.occurrences place').map (·.2) := by
  cases p with
  | not p => exact map_occurrences _ _ p
  | and ps => exact map_occurrencesFrom _ _ 0 0 ps
  | _ => rfl

theorem map_occurrencesFrom (place place' : Place) (index index' : Nat) (ps : List (Predicate σ)) :
    (occurrencesFrom place index ps).map (·.2) = (occurrencesFrom place' index' ps).map (·.2) := by
  cases ps with
  | nil => rfl
  | cons p ps =>
    rw [occurrencesFrom, occurrencesFrom, List.map_append, List.map_append,
      map_occurrences _ (index' :: place') p, map_occurrencesFrom _ place' _ (index' + 1) ps]

end

theorem mem_sets_and {ps : List (Predicate σ)} {set : σ} :
    set ∈ (and ps).sets ↔ ∃ p ∈ ps, set ∈ p.sets := by
  unfold sets
  rw [occurrences]
  induction ps with
  | nil => simp [occurrencesFrom]
  | cons p ps ih =>
    rw [occurrencesFrom, List.map_append, List.mem_append, map_occurrences _ [] p,
      map_occurrencesFrom _ [] _ 0 ps, ih]
    simp

theorem mem_sets_all {ps : List (Predicate σ)} {set : σ} :
    set ∈ (all ps).sets ↔ ∃ p ∈ ps, set ∈ p.sets := by
  unfold all
  split
  · simp
  · exact mem_sets_and

/-! ## Replacing the sets -/

mutual

theorem holds_map (f : σ → τ) (members : τ → List Value) (binding : Binding) (p : Predicate σ) :
    (p.map f).holds members binding = p.holds (members ∘ f) binding := by
  cases p with
  | not p => rw [map, holds, holds, holds_map f members binding p]
  | and ps => rw [map, holds, holds, holdsAll_mapAll f members binding ps]
  | _ => simp only [map, holds, Function.comp_apply]

theorem holdsAll_mapAll (f : σ → τ) (members : τ → List Value) (binding : Binding)
    (ps : List (Predicate σ)) :
    holdsAll members binding (mapAll f ps) = holdsAll (members ∘ f) binding ps := by
  cases ps with
  | nil => rfl
  | cons p ps =>
    rw [mapAll, holdsAll, holdsAll, holds_map f members binding p,
      holdsAll_mapAll f members binding ps]

end

mutual

theorem readsFrom_map (f : σ → τ) (aliases : List String) (p : Predicate σ) :
    (p.map f).ReadsFrom aliases ↔ p.ReadsFrom aliases := by
  cases p with
  | not p => rw [map, ReadsFrom, ReadsFrom, readsFrom_map f aliases p]
  | and ps => rw [map, ReadsFrom, ReadsFrom, allReadFrom_mapAll f aliases ps]
  | _ => simp only [map, ReadsFrom]

theorem allReadFrom_mapAll (f : σ → τ) (aliases : List String) (ps : List (Predicate σ)) :
    AllReadFrom aliases (mapAll f ps) ↔ AllReadFrom aliases ps := by
  cases ps with
  | nil => exact Iff.rfl
  | cons p ps =>
    rw [mapAll, AllReadFrom, AllReadFrom, readsFrom_map f aliases p,
      allReadFrom_mapAll f aliases ps]

end

mutual

theorem occurrences_map (f : σ → τ) (place : Place) (p : Predicate σ) :
    (p.map f).occurrences place = (p.occurrences place).map fun o => (o.1, f o.2) := by
  cases p with
  | not p => rw [map, occurrences, occurrences, occurrences_map f _ p]
  | and ps => rw [map, occurrences, occurrences, occurrencesFrom_mapAll f place 0 ps]
  | _ => simp only [map, occurrences, List.map_nil, List.map_cons]

theorem occurrencesFrom_mapAll (f : σ → τ) (place : Place) (index : Nat)
    (ps : List (Predicate σ)) : occurrencesFrom place index (mapAll f ps) =
      (occurrencesFrom place index ps).map fun o => (o.1, f o.2) := by
  cases ps with
  | nil => rfl
  | cons p ps =>
    rw [mapAll, occurrencesFrom, occurrencesFrom, occurrences_map f _ p,
      occurrencesFrom_mapAll f place (index + 1) ps, List.map_append]

end

theorem sets_map (f : σ → τ) (p : Predicate σ) : (p.map f).sets = p.sets.map f := by
  rw [sets, occurrences_map, sets, List.map_map, List.map_map]
  rfl

end Predicate

/-! ## The table of loaded members -/

/-- A table that holds nothing but members of the sets at their places. -/
def MemberCache.Agrees {σ : Type} (cache : MemberCache) (members : σ → List Value)
    (occurrences : List (Place × σ)) : Prop :=
  ∀ place set values, (place, set) ∈ occurrences →
    cache.members? place = some values → values = members set

section Cache
variable {σ : Type} {load : σ → Except Error (List Value)} {members : σ → List Value}
  {occurrences : List (Place × σ)}

theorem MemberCache.agrees_empty : ({} : MemberCache).Agrees members occurrences := by
  intro place set values _ h
  simp [members?] at h

/-- Looking up a set that can be loaded finds its members and keeps the table right. -/
theorem MemberCache.members_eq {cache : MemberCache} {place : Place} {set : σ}
    (hnodup : (occurrences.map (·.1)).Nodup) (hmem : (place, set) ∈ occurrences)
    (hload : load set = .ok (members set)) (hcache : cache.Agrees members occurrences) :
    ∃ later, cache.members load place set = (.ok (members set), later) ∧
      later.Agrees members occurrences := by
  unfold MemberCache.members
  cases hfound : cache.members? place with
  | some values =>
    refine ⟨cache, ?_, hcache⟩
    rw [hcache place set values hmem hfound]
  | none =>
    refine ⟨⟨(place, members set) :: cache.entries⟩, by simp only [hload], ?_⟩
    intro place' set' values hmem' hfound'
    rw [members?, List.lookup_cons] at hfound'
    by_cases heq : place' = place
    · subst heq
      have hpair := List.inj_on_of_nodup_map hnodup hmem hmem' rfl
      rw [Prod.mk.injEq] at hpair
      simp only [beq_self_eq_true, Option.some.injEq] at hfound'
      rw [← hfound', hpair.2]
    · have hne : (place' == place) = false := by simpa using heq
      rw [hne] at hfound'
      exact hcache place' set' values hmem' hfound'

theorem MemberCache.contains_eq {cache : MemberCache} {place : Place} {set : σ} (v : Value)
    (hnodup : (occurrences.map (·.1)).Nodup) (hmem : (place, set) ∈ occurrences)
    (hload : load set = .ok (members set)) (hcache : cache.Agrees members occurrences) :
    ∃ later, cache.contains load place set v =
        (.ok (!v.isNull && (members set).any v.equal), later) ∧
      later.Agrees members occurrences := by
  unfold MemberCache.contains
  cases hnull : v.isNull with
  | true => exact ⟨cache, rfl, hcache⟩
  | false =>
    obtain ⟨later, heq, hlater⟩ := members_eq hnodup hmem hload hcache
    refine ⟨later, ?_, hlater⟩
    rw [heq]
    rfl

namespace Predicate

mutual

/-- Evaluating a predicate gives its truth. -/
theorem evaluate_eq_holds {binding : Binding} (place : Place) {cache : MemberCache}
    (hnodup : (occurrences.map (·.1)).Nodup)
    (hload : ∀ o ∈ occurrences, load o.2 = .ok (members o.2)) (p : Predicate σ)
    (hreads : p.ReadsFrom binding.aliases) (hsub : p.occurrences place ⊆ occurrences)
    (hcache : cache.Agrees members occurrences) :
    ∃ later, p.evaluate load binding place cache = (.ok (p.holds members binding), later) ∧
      later.Agrees members occurrences := by
  cases p with
  | compare c e operand =>
    rw [evaluate, Binding.scalar_eq hreads]
    exact ⟨cache, rfl, hcache⟩
  | isNull e =>
    rw [evaluate, Binding.scalar_eq hreads]
    exact ⟨cache, rfl, hcache⟩
  | isNotNull e =>
    rw [evaluate, Binding.scalar_eq hreads]
    exact ⟨cache, rfl, hcache⟩
  | like e pattern rule =>
    rw [evaluate, Binding.scalar_eq hreads]
    exact ⟨cache, rfl, hcache⟩
  | member e set =>
    rw [evaluate, Binding.scalar_eq hreads]
    have hmem : (place, set) ∈ occurrences := hsub (by simp [Predicate.occurrences])
    exact MemberCache.contains_eq _ hnodup hmem (hload _ hmem) hcache
  | not p =>
    obtain ⟨later, heq, hlater⟩ := evaluate_eq_holds (0 :: place) hnodup hload p hreads
      hsub hcache
    refine ⟨later, ?_, hlater⟩
    rw [evaluate, heq]
    rfl
  | and ps =>
    obtain ⟨later, heq, hlater⟩ := evaluateAll_eq_holdsAll place 0 hnodup
      hload ps hreads hsub hcache
    exact ⟨later, heq, hlater⟩

theorem evaluateAll_eq_holdsAll {binding : Binding} (place : Place) (index : Nat)
    {cache : MemberCache} (hnodup : (occurrences.map (·.1)).Nodup)
    (hload : ∀ o ∈ occurrences, load o.2 = .ok (members o.2)) (ps : List (Predicate σ))
    (hreads : AllReadFrom binding.aliases ps)
    (hsub : occurrencesFrom place index ps ⊆ occurrences)
    (hcache : cache.Agrees members occurrences) :
    ∃ later, evaluateAll load binding place index ps cache =
        (.ok (holdsAll members binding ps), later) ∧ later.Agrees members occurrences := by
  cases ps with
  | nil => exact ⟨cache, rfl, hcache⟩
  | cons p ps =>
    rw [occurrencesFrom] at hsub
    obtain ⟨next, heq, hnext⟩ := evaluate_eq_holds (index :: place) hnodup hload p
      hreads.1 (fun o ho => hsub (List.mem_append_left _ ho)) hcache
    rw [evaluateAll, heq, holdsAll]
    cases hp : p.holds members binding with
    | false => exact ⟨next, rfl, hnext⟩
    | true =>
      exact evaluateAll_eq_holdsAll place (index + 1) hnodup hload ps hreads.2
        (fun o ho => hsub (List.mem_append_right _ ho)) hnext

end

end Predicate

end Cache

/-! ## Filtering -/

theorem keepWhere_eq {filter : Predicate Pending} {members : Pending → List Value}
    (hload : ∀ set ∈ filter.sets, Pending.members set = .ok (members set))
    {bindings : List Binding} {cache : MemberCache}
    (hreads : ∀ binding ∈ bindings, filter.ReadsFrom binding.aliases)
    (hcache : cache.Agrees members (filter.occurrences [])) :
    keepWhere filter bindings cache = .ok (bindings.filter (filter.holds members)) := by
  induction bindings generalizing cache with
  | nil => rfl
  | cons binding rest ih =>
    have hloads : ∀ o ∈ filter.occurrences [], Pending.members o.2 = .ok (members o.2) :=
      fun o ho => hload o.2 (List.mem_map_of_mem ho)
    obtain ⟨later, heq, hlater⟩ := Predicate.evaluate_eq_holds []
      (filter.nodup_occurrences []) hloads filter (hreads binding List.mem_cons_self)
      (List.Subset.refl _) hcache
    have hrest := ih (fun b hb => hreads b (List.mem_cons_of_mem _ hb)) hlater
    rw [keepWhere, heq, List.filter_cons]
    cases hp : filter.holds members binding with
    | true =>
      change (keepWhere filter rest later).map (binding :: ·) = _
      rw [hrest]
      rfl
    | false => exact hrest

/-- Whatever a filter does, it keeps bindings in their order. -/
theorem sublist_of_keepWhere {filter : Predicate Pending} {bindings kept : List Binding}
    {cache : MemberCache} (h : keepWhere filter bindings cache = .ok kept) :
    kept.Sublist bindings := by
  induction bindings generalizing cache kept with
  | nil =>
    cases h
    exact List.Sublist.slnil
  | cons binding rest ih =>
    rw [keepWhere] at h
    split at h
    · obtain ⟨others, hothers, rfl⟩ := map_eq_ok.mp h
      exact (ih hothers).cons_cons binding
    · exact (ih h).cons binding
    · cases h

end CriteriaQuery
