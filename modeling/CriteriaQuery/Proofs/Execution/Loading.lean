import CriteriaQuery.Proofs.Execution.Truth

/-! Loading the members of sets while predicates are evaluated. Any number of evaluations may share
one table of loaded members. A ledger is such a table with a record of the loads that were made for
it. It shows that sharing does no harm and is worth its while: every evaluation ends as if sets were
loaded anew for each look-up, and no set is loaded a second time once a load of it has succeeded
(`Call.shared_table`). -/
namespace CriteriaQuery
open Outcome
set_option autoImplicit false

/-! ## Evaluation without a table -/

namespace Predicate
variable {σ : Type}

/-- Whether a value is in a set, which is loaded to find out. Null is in no set, and needs no load. -/
def containsAfresh (load : σ → Except Error (List Value)) (set : σ) (v : Value) :
    Except Error Bool :=
  if v.isNull then .ok false else (load set).map fun values => values.any v.equal

mutual

/-- Evaluates a predicate without a table: sets are loaded whenever a value is looked up in them. -/
def evaluateAfresh (load : σ → Except Error (List Value)) (binding : Binding) :
    Predicate σ → Except Error Bool
  | .compare c e operand => (binding.scalar e).map fun v => c.holds v operand
  | .isNull e => (binding.scalar e).map Value.isNull
  | .isNotNull e => (binding.scalar e).map fun v => !v.isNull
  | .like e pattern rule => (binding.scalar e).map fun v => rule.accepts v pattern
  | .member e set => do containsAfresh load set (← binding.scalar e)
  | .not p => (evaluateAfresh load binding p).map (!·)
  | .and ps => evaluateAllAfresh load binding ps

/-- The first member of a conjunction that does not hold ends the evaluation. -/
def evaluateAllAfresh (load : σ → Except Error (List Value)) (binding : Binding) :
    List (Predicate σ) → Except Error Bool
  | [] => .ok true
  | p :: ps =>
    match evaluateAfresh load binding p with
    | .ok true => evaluateAllAfresh load binding ps
    | outcome => outcome

end

end Predicate

/-! ## Ledgers -/

/-- A table of loaded members with all loads that were made, the failed ones as well. -/
structure Ledger (σ : Type) where
  cache : MemberCache := {}
  loads : List (Place × σ) := []

/-- Which set stands at a place, while the predicates that the places belong to are in use. -/
abbrev Layout (σ : Type) := Place → Option σ

namespace Ledger
variable {σ : Type}

/-- Loads a set, and notes that. -/
def load (load : σ → Except Error (List Value)) (place : Place) (set : σ) (ledger : Ledger σ) :
    Except Error (List Value) × Ledger σ :=
  (load set, { ledger with loads := ledger.loads ++ [(place, set)] })

/-- The members of the set at a place, as `MemberCache.members` finds them. -/
def members (load : σ → Except Error (List Value)) (place : Place) (set : σ) (ledger : Ledger σ) :
    Except Error (List Value) × Ledger σ :=
  match ledger.cache.members? place with
  | some values => (.ok values, ledger)
  | none =>
    match ledger.load load place set with
    | (.ok values, ledger) =>
      (.ok values, { ledger with cache := ⟨(place, values) :: ledger.cache.entries⟩ })
    | (.error e, ledger) => (.error e, ledger)

/-- Whether a value is in the set at a place, as `MemberCache.contains` finds out. -/
def contains (load : σ → Except Error (List Value)) (place : Place) (set : σ) (v : Value)
    (ledger : Ledger σ) : Except Error Bool × Ledger σ :=
  if v.isNull then (.ok false, ledger)
  else
    let (found, ledger) := ledger.members load place set
    (found.map fun values => values.any v.equal, ledger)

/-- What loads bring into a table: the members of each set that could be loaded. -/
def entriesOf (load : σ → Except Error (List Value)) (loads : List (Place × σ)) :
    List (Place × List Value) :=
  loads.filterMap fun o => (load o.2).toOption.map fun values => (o.1, values)

/-- All loads succeed, except that the last one may fail, with the error that is the outcome. -/
def Decides (load : σ → Except Error (List Value)) (loads : List (Place × σ))
    (outcome : Except Error Bool) : Prop :=
  (∀ o ∈ loads, ∃ values, load o.2 = .ok values) ∨
    ∃ before last e, loads = before ++ [last] ∧ (∀ o ∈ before, ∃ values, load o.2 = .ok values) ∧
      load last.2 = .error e ∧ outcome = .error e

/-- A ledger has become another one by loads that led to an outcome. -/
def Advances (load : σ → Except Error (List Value)) (ledger : Ledger σ)
    (outcome : Except Error Bool) (later : Ledger σ) : Prop :=
  ∃ made, later.loads = ledger.loads ++ made ∧
    later.cache.entries = (entriesOf load made).reverse ++ ledger.cache.entries ∧
    Decides load made outcome

/-- A ledger whose table has what the loads on record brought in, with no place twice. -/
structure Sound (load : σ → Except Error (List Value)) (layout : Layout σ) (ledger : Ledger σ) :
    Prop where
  stored : ∀ o ∈ ledger.loads, layout o.1 = some o.2
  entries_eq : ledger.cache.entries = (entriesOf load ledger.loads).reverse
  nodup : ((entriesOf load ledger.loads).map (·.1)).Nodup

variable {load : σ → Except Error (List Value)} {layout : Layout σ} {ledger later last : Ledger σ}
  {place : Place} {set : σ} {outcome : Except Error Bool}

/-! ## Without the record -/

theorem members_eq (load : σ → Except Error (List Value)) (place : Place) (set : σ)
    (ledger : Ledger σ) : ledger.cache.members load place set =
      ((ledger.members load place set).1, (ledger.members load place set).2.cache) := by
  unfold MemberCache.members members Ledger.load
  cases ledger.cache.members? place with
  | some values => rfl
  | none => cases load set <;> rfl

theorem contains_eq (load : σ → Except Error (List Value)) (place : Place) (set : σ) (v : Value)
    (ledger : Ledger σ) : ledger.cache.contains load place set v =
      ((ledger.contains load place set v).1, (ledger.contains load place set v).2.cache) := by
  unfold MemberCache.contains contains
  split
  · rfl
  · rw [members_eq]

/-! ## What loads bring in -/

theorem entriesOf_append (first second : List (Place × σ)) :
    entriesOf load (first ++ second) = entriesOf load first ++ entriesOf load second :=
  List.filterMap_append

theorem entriesOf_singleton_ok {values : List Value} (h : load set = .ok values) :
    entriesOf load [(place, set)] = [(place, values)] := by
  simp [entriesOf, h, Except.toOption]

theorem entriesOf_singleton_error {e : Error} (h : load set = .error e) :
    entriesOf load [(place, set)] = [] := by
  simp [entriesOf, h, Except.toOption]

theorem mem_entriesOf {loads : List (Place × σ)} {values : List Value} :
    (place, values) ∈ entriesOf load loads ↔ ∃ set, (place, set) ∈ loads ∧ load set = .ok values := by
  simp only [entriesOf, List.mem_filterMap, Option.map_eq_some_iff, Prod.mk.injEq]
  constructor
  · rintro ⟨⟨other, set⟩, hmem, found, hfound, rfl, rfl⟩
    refine ⟨set, hmem, ?_⟩
    cases hload : load set with
    | ok values =>
      rw [hload] at hfound
      cases hfound
      rfl
    | error e =>
      rw [hload] at hfound
      cases hfound
  · rintro ⟨set, hmem, hload⟩
    refine ⟨(place, set), hmem, values, ?_, rfl, rfl⟩
    rw [hload]
    rfl

/-! ## One look-up -/

theorem Sound.empty : ({} : Ledger σ).Sound load layout :=
  ⟨fun _ ho => (List.not_mem_nil ho).elim, rfl, List.nodup_nil⟩

/-- What the table has at a place are the members of the set that stands there. -/
theorem Sound.load_eq (h : ledger.Sound load layout) (hset : layout place = some set)
    {values : List Value} (hfound : ledger.cache.members? place = some values) :
    load set = .ok values := by
  have hmem : (place, values) ∈ ledger.cache.entries := by
    rw [MemberCache.members?, List.lookup_eq_some_iff] at hfound
    obtain ⟨before, after, heq, -⟩ := hfound
    rw [heq]
    simp
  rw [h.entries_eq, List.mem_reverse, mem_entriesOf] at hmem
  obtain ⟨other, hother, hload⟩ := hmem
  have hsame := h.stored _ hother
  rw [hset, Option.some.injEq] at hsame
  rw [hsame]
  exact hload

theorem Sound.stored_concat (h : ledger.Sound load layout) (hset : layout place = some set) :
    ∀ o ∈ ledger.loads ++ [(place, set)], layout o.1 = some o.2 := by
  intro o ho
  rcases List.mem_append.mp ho with ho | ho
  · exact h.stored o ho
  · rw [List.mem_singleton.mp ho]
    exact hset

theorem Sound.loaded (h : ledger.Sound load layout) (hset : layout place = some set)
    (hfresh : ledger.cache.members? place = none) {values : List Value}
    (hload : load set = .ok values) :
    Sound load layout ⟨⟨(place, values) :: ledger.cache.entries⟩, ledger.loads ++ [(place, set)]⟩ where
  stored := h.stored_concat hset
  entries_eq := by
    rw [entriesOf_append, entriesOf_singleton_ok hload, List.reverse_append, ← h.entries_eq]
    rfl
  nodup := by
    rw [entriesOf_append, entriesOf_singleton_ok hload, List.map_append, List.map_singleton,
      ← List.concat_eq_append]
    apply h.nodup.concat
    rw [MemberCache.members?, List.lookup_eq_none_iff, h.entries_eq] at hfresh
    intro hmem
    obtain ⟨entry, hentry, heq⟩ := List.mem_map.mp hmem
    have hne := hfresh entry (List.mem_reverse.mpr hentry)
    simp [heq] at hne

theorem Sound.failed (h : ledger.Sound load layout) (hset : layout place = some set) {e : Error}
    (hload : load set = .error e) :
    Sound load layout { ledger with loads := ledger.loads ++ [(place, set)] } where
  stored := h.stored_concat hset
  entries_eq := by
    rw [entriesOf_append, entriesOf_singleton_error hload, List.append_nil]
    exact h.entries_eq
  nodup := by
    rw [entriesOf_append, entriesOf_singleton_error hload, List.append_nil]
    exact h.nodup

/-! ## Several look-ups -/

theorem Advances.refl (ledger : Ledger σ) (outcome : Except Error Bool) :
    ledger.Advances load outcome ledger :=
  ⟨[], (List.append_nil _).symm, rfl, Or.inl fun _ ho => (List.not_mem_nil ho).elim⟩

theorem Advances.trans {b : Bool} (h : ledger.Advances load (.ok b) later)
    (h' : later.Advances load outcome last) : ledger.Advances load outcome last := by
  obtain ⟨made, hmade, hentries, hdecides⟩ := h
  obtain ⟨more, hmore, hlast, hends⟩ := h'
  refine ⟨made ++ more, by rw [hmore, hmade, List.append_assoc], ?_, ?_⟩
  · rw [hlast, hentries, entriesOf_append, List.reverse_append, List.append_assoc]
  · -- an outcome that is no error comes of loads that all succeeded
    have hfirst : ∀ o ∈ made, ∃ values, load o.2 = .ok values := by
      rcases hdecides with hall | ⟨-, -, e, -, -, -, heq⟩
      · exact hall
      · cases heq
    rcases hends with hall | ⟨before, o, e, rfl, hall, hfails, heq⟩
    · exact Or.inl (List.forall_mem_append.mpr ⟨hfirst, hall⟩)
    · exact Or.inr ⟨made ++ before, o, e, (List.append_assoc _ _ _).symm,
        List.forall_mem_append.mpr ⟨hfirst, hall⟩, hfails, heq⟩

theorem Advances.map (h : ledger.Advances load outcome later) (f : Bool → Bool) :
    ledger.Advances load (outcome.map f) later := by
  obtain ⟨made, hmade, hentries, hall | ⟨before, o, e, hlast, hall, hfails, rfl⟩⟩ := h
  · exact ⟨made, hmade, hentries, Or.inl hall⟩
  · exact ⟨made, hmade, hentries, Or.inr ⟨before, o, e, hlast, hall, hfails, rfl⟩⟩

/-- Looking a value up ends as if the set were loaded for it, and loads it at most once. -/
theorem contains_spec (h : ledger.Sound load layout) (hset : layout place = some set) (v : Value) :
    ∃ later, ledger.contains load place set v = (Predicate.containsAfresh load set v, later) ∧
      later.Sound load layout ∧
      ledger.Advances load (Predicate.containsAfresh load set v) later := by
  unfold contains Predicate.containsAfresh
  cases hnull : v.isNull with
  | true => exact ⟨ledger, rfl, h, .refl _ _⟩
  | false =>
    simp only [Bool.false_eq_true, if_false, members]
    cases hfound : ledger.cache.members? place with
    | some values =>
      refine ⟨ledger, ?_, h, .refl _ _⟩
      rw [h.load_eq hset hfound]
    | none =>
      cases hload : load set with
      | ok values =>
        refine ⟨_, ?_, h.loaded hset hfound hload, [(place, set)], rfl, ?_, ?_⟩
        · simp only [Ledger.load, hload]
        · rw [entriesOf_singleton_ok hload]
          rfl
        · refine Or.inl fun o ho => ⟨values, ?_⟩
          rw [List.mem_singleton.mp ho]
          exact hload
      | error e =>
        refine ⟨_, ?_, h.failed hset hload, [(place, set)], rfl, ?_, ?_⟩
        · simp only [Ledger.load, hload]
        · rw [entriesOf_singleton_error hload]
          rfl
        · exact Or.inr ⟨[], (place, set), e, rfl, fun _ ho => (List.not_mem_nil ho).elim, hload, rfl⟩

end Ledger

/-! ## Predicates -/

namespace Predicate
variable {σ : Type}

mutual

/-- Evaluates a predicate as `evaluate` does, with all loads on record. -/
def evaluateOnRecord (load : σ → Except Error (List Value)) (binding : Binding) (place : Place) :
    Predicate σ → Ledger σ → Except Error Bool × Ledger σ
  | .compare c e operand, ledger => ((binding.scalar e).map fun v => c.holds v operand, ledger)
  | .isNull e, ledger => ((binding.scalar e).map Value.isNull, ledger)
  | .isNotNull e, ledger => ((binding.scalar e).map fun v => !v.isNull, ledger)
  | .like e pattern rule, ledger =>
    ((binding.scalar e).map fun v => rule.accepts v pattern, ledger)
  | .member e set, ledger =>
    match binding.scalar e with
    | .ok v => ledger.contains load place set v
    | .error e => (.error e, ledger)
  | .not p, ledger =>
    let (result, ledger) := evaluateOnRecord load binding (0 :: place) p ledger
    (result.map (!·), ledger)
  | .and ps, ledger => evaluateAllOnRecord load binding place 0 ps ledger

def evaluateAllOnRecord (load : σ → Except Error (List Value)) (binding : Binding) (place : Place)
    (index : Nat) : List (Predicate σ) → Ledger σ → Except Error Bool × Ledger σ
  | [], ledger => (.ok true, ledger)
  | p :: ps, ledger =>
    match evaluateOnRecord load binding (index :: place) p ledger with
    | (.ok true, ledger) => evaluateAllOnRecord load binding place (index + 1) ps ledger
    | outcome => outcome

end

/-! ### Without the record -/

section Erase
variable (load : σ → Except Error (List Value)) (binding : Binding)

mutual

theorem evaluate_eq (place : Place) (p : Predicate σ) (ledger : Ledger σ) :
    p.evaluate load binding place ledger.cache =
      ((p.evaluateOnRecord load binding place ledger).1,
        (p.evaluateOnRecord load binding place ledger).2.cache) := by
  cases p with
  | member e set =>
    rw [evaluate, evaluateOnRecord]
    cases binding.scalar e with
    | ok v => exact Ledger.contains_eq load place set v ledger
    | error e => rfl
  | not p =>
    rw [evaluate, evaluateOnRecord, evaluate_eq (0 :: place) p ledger]
  | and ps =>
    rw [evaluate, evaluateOnRecord, evaluateAll_eq place 0 ps ledger]
  | _ => rw [evaluate, evaluateOnRecord]

theorem evaluateAll_eq (place : Place) (index : Nat) (ps : List (Predicate σ))
    (ledger : Ledger σ) : evaluateAll load binding place index ps ledger.cache =
      ((evaluateAllOnRecord load binding place index ps ledger).1,
        (evaluateAllOnRecord load binding place index ps ledger).2.cache) := by
  cases ps with
  | nil => rfl
  | cons p ps =>
    rw [evaluateAll, evaluateAllOnRecord, evaluate_eq (index :: place) p ledger]
    rcases evaluateOnRecord load binding (index :: place) p ledger with ⟨e | _ | _, later⟩
    · rfl
    · rfl
    · exact evaluateAll_eq place (index + 1) ps later

end

end Erase

/-! ### Without the table -/

section Afresh
variable {load : σ → Except Error (List Value)} {layout : Layout σ} (binding : Binding)

mutual

/-- On a sound ledger, a predicate is evaluated as without one. -/
theorem evaluateOnRecord_spec (place : Place) (p : Predicate σ) {ledger : Ledger σ}
    (hstored : ∀ o ∈ p.occurrences place, layout o.1 = some o.2)
    (h : ledger.Sound load layout) :
    ∃ later, p.evaluateOnRecord load binding place ledger =
        (p.evaluateAfresh load binding, later) ∧
      later.Sound load layout ∧ ledger.Advances load (p.evaluateAfresh load binding) later := by
  cases p with
  | member e set =>
    rw [evaluateOnRecord, evaluateAfresh]
    cases binding.scalar e with
    | ok v => exact Ledger.contains_spec h (hstored (place, set) (List.mem_singleton_self _)) v
    | error e => exact ⟨ledger, rfl, h, .refl _ _⟩
  | not p =>
    obtain ⟨later, heq, hlater, hadvances⟩ := evaluateOnRecord_spec (0 :: place) p hstored h
    refine ⟨later, ?_, hlater, hadvances.map _⟩
    rw [evaluateOnRecord, heq, evaluateAfresh]
  | and ps =>
    rw [evaluateOnRecord, evaluateAfresh]
    exact evaluateAllOnRecord_spec place 0 ps hstored h
  | _ =>
    rw [evaluateOnRecord, evaluateAfresh]
    exact ⟨ledger, rfl, h, .refl _ _⟩

theorem evaluateAllOnRecord_spec (place : Place) (index : Nat) (ps : List (Predicate σ))
    {ledger : Ledger σ} (hstored : ∀ o ∈ occurrencesFrom place index ps, layout o.1 = some o.2)
    (h : ledger.Sound load layout) :
    ∃ later, evaluateAllOnRecord load binding place index ps ledger =
        (evaluateAllAfresh load binding ps, later) ∧
      later.Sound load layout ∧
      ledger.Advances load (evaluateAllAfresh load binding ps) later := by
  cases ps with
  | nil => exact ⟨ledger, rfl, h, .refl _ _⟩
  | cons p ps =>
    rw [occurrencesFrom, List.forall_mem_append] at hstored
    obtain ⟨next, heq, hnext, hadvances⟩ := evaluateOnRecord_spec (index :: place) p hstored.1 h
    rw [evaluateAllOnRecord, heq, evaluateAllAfresh]
    rcases hp : p.evaluateAfresh load binding with e | _ | _
    · rw [hp] at hadvances
      exact ⟨next, rfl, hnext, hadvances⟩
    · rw [hp] at hadvances
      exact ⟨next, rfl, hnext, hadvances⟩
    · rw [hp] at hadvances
      obtain ⟨later, hrest, hlater, hmore⟩ :=
        evaluateAllOnRecord_spec place (index + 1) ps hstored.2 hnext
      exact ⟨later, hrest, hlater, hadvances.trans hmore⟩

end

end Afresh

end Predicate

/-! ## Calls that share a table -/

/-- An evaluation of a predicate whose sets stand at their places. -/
structure Call {σ : Type} (layout : Layout σ) where
  place : Place
  predicate : Predicate σ
  binding : Binding
  stored : ∀ o ∈ predicate.occurrences place, layout o.1 = some o.2

/-- The sets of a predicate. Several predicates are laid out as the members of their conjunction. -/
def Layout.of {σ : Type} (p : Predicate σ) : Layout σ := fun place => (p.occurrences []).lookup place

theorem Layout.of_eq_some {σ : Type} {p : Predicate σ} {o : Place × σ}
    (h : o ∈ p.occurrences []) : Layout.of p o.1 = some o.2 := by
  obtain ⟨before, after, heq⟩ := List.append_of_mem h
  have hnodup := p.nodup_occurrences []
  rw [heq, List.map_append, List.map_cons, List.nodup_middle, List.nodup_cons] at hnodup
  rw [Layout.of, List.lookup_eq_some_iff]
  refine ⟨before, after, heq, ?_⟩
  intro other hother
  have hne : o.1 ≠ other.1 := by
    intro hsame
    apply hnodup.1
    rw [hsame]
    exact List.mem_append_left _ (List.mem_map_of_mem hother)
  simpa using hne

theorem Predicate.occurrences_getElem_subset {σ : Type} (place : Place) {index i position : Nat}
    (ps : List (Predicate σ)) (hi : i < ps.length) (hposition : position = index + i) :
    ps[i].occurrences (position :: place) ⊆ occurrencesFrom place index ps := by
  induction ps generalizing index i with
  | nil => exact absurd hi (Nat.not_lt_zero i)
  | cons p ps ih =>
    intro o ho
    rw [occurrencesFrom, List.mem_append]
    cases i with
    | zero =>
      rw [Nat.add_zero] at hposition
      subst hposition
      exact Or.inl ho
    | succ i => exact Or.inr (ih (Nat.lt_of_succ_lt_succ hi) (by omega) ho)

namespace Call
variable {σ τ : Type} {layout : Layout σ}

/-- An evaluation of one of several predicates. -/
def of (live : List (Predicate σ)) (i : Fin live.length) (binding : Binding) :
    Call (.of (.and live)) where
  place := [i]
  predicate := live[i]
  binding := binding
  stored := by
    intro o ho
    apply Layout.of_eq_some
    exact Predicate.occurrences_getElem_subset [] live i.isLt (Nat.zero_add _).symm ho

/-- Makes calls one after the other with a common state, whether they fail or not. -/
def runAll (run : Call layout → τ → Except Error Bool × τ) :
    List (Call layout) → τ → List (Except Error Bool) × τ
  | [], s => ([], s)
  | call :: rest, s =>
    let (outcome, s) := run call s
    let (outcomes, s) := runAll run rest s
    (outcome :: outcomes, s)

def evaluate (load : σ → Except Error (List Value)) (call : Call layout) (cache : MemberCache) :
    Except Error Bool × MemberCache :=
  call.predicate.evaluate load call.binding call.place cache

def onRecord (load : σ → Except Error (List Value)) (call : Call layout) (ledger : Ledger σ) :
    Except Error Bool × Ledger σ :=
  call.predicate.evaluateOnRecord load call.binding call.place ledger

def afresh (load : σ → Except Error (List Value)) (call : Call layout) : Except Error Bool :=
  call.predicate.evaluateAfresh load call.binding

section Spec
variable (load : σ → Except Error (List Value)) {ledger : Ledger σ}

theorem onRecord_spec (call : Call layout) (h : ledger.Sound load layout) :
    ∃ later, call.onRecord load ledger = (call.afresh load, later) ∧
      call.evaluate load ledger.cache = (call.afresh load, later.cache) ∧
      later.Sound load layout ∧ ledger.Advances load (call.afresh load) later := by
  obtain ⟨later, heq, hlater, hadvances⟩ :=
    call.predicate.evaluateOnRecord_spec call.binding call.place call.stored h
  refine ⟨later, heq, ?_, hlater, hadvances⟩
  rw [evaluate, Predicate.evaluate_eq, heq]
  rfl

theorem runAll_onRecord (calls : List (Call layout)) (h : ledger.Sound load layout) :
    ∃ later, runAll (onRecord load) calls ledger = (calls.map (afresh load), later) ∧
      runAll (evaluate load) calls ledger.cache = (calls.map (afresh load), later.cache) ∧
      later.Sound load layout := by
  induction calls generalizing ledger with
  | nil => exact ⟨ledger, rfl, rfl, h⟩
  | cons call rest ih =>
    obtain ⟨next, hrecord, heval, hnext, -⟩ := call.onRecord_spec load h
    obtain ⟨later, hrestRecord, hrestEval, hlater⟩ := ih hnext
    refine ⟨later, ?_, ?_, hlater⟩
    · rw [runAll, hrecord]
      simp only [hrestRecord, List.map_cons]
    · rw [runAll, heval]
      simp only [hrestEval, List.map_cons]

end Spec

/-- Calls that share a table end as if sets were loaded for every look-up, whatever the predicates and
the bindings, and whether calls fail or not. No set is loaded again once it could be loaded, and the
table has just the sets that could. A further call adds those that it loads; a load that fails ends
it with the same error and adds nothing. -/
theorem shared_table (load : σ → Except Error (List Value)) (layout : Layout σ)
    (calls : List (Call layout)) :
    ∃ ledger : Ledger σ,
      runAll (onRecord load) calls {} = (calls.map (afresh load), ledger) ∧
      runAll (evaluate load) calls {} = (calls.map (afresh load), ledger.cache) ∧
      (∀ o ∈ ledger.loads, layout o.1 = some o.2) ∧
      ((Ledger.entriesOf load ledger.loads).map (·.1)).Nodup ∧
      ledger.cache.entries = (Ledger.entriesOf load ledger.loads).reverse ∧
      ledger.cache.loaded = (Ledger.entriesOf load ledger.loads).length ∧
      ∀ call : Call layout, ∃ later, call.onRecord load ledger = (call.afresh load, later) ∧
        call.evaluate load ledger.cache = (call.afresh load, later.cache) ∧
        ledger.Advances load (call.afresh load) later := by
  obtain ⟨ledger, hrecord, heval, hsound⟩ := runAll_onRecord load calls (Ledger.Sound.empty)
  refine ⟨ledger, hrecord, heval, hsound.stored, hsound.nodup, hsound.entries_eq, ?_, ?_⟩
  · rw [MemberCache.loaded, hsound.entries_eq, List.length_reverse]
  · intro call
    obtain ⟨later, hcall, hcached, -, hadvances⟩ := call.onRecord_spec load hsound
    exact ⟨later, hcall, hcached, hadvances⟩

/-- For three bindings, two sets are loaded once each, the second one when the first has a value. -/
example :
    let column := Scalar.column "t0" "id"
    let live : List (Predicate Bool) := [.and [.member column true, .not (.member column false)]]
    let binding (n : Int64) := Binding.root "t0" ⟨[("id", .int64 n)]⟩
    let load (first : Bool) : Except Error (List Value) :=
      .ok (if first then [.int64 1, .int64 2] else [.int64 2])
    let calls := [of live 0 (binding 3), of live 0 (binding 1), of live 0 (binding 2)]
    (runAll (onRecord load) calls {}).2.loads = [([0, 0], true), ([0, 1, 0], false)] := by
  decide

end Call

/-! ## Filtering -/

section Filtering
variable {layout : Layout Pending} {ledger : Ledger Pending}

theorem keepWhere_of_sound {filter : Predicate Pending}
    (hstored : ∀ o ∈ filter.occurrences [], layout o.1 = some o.2)
    (h : ledger.Sound Pending.members layout) (bindings : List Binding) :
    keepWhere filter bindings ledger.cache =
      (bindings.mapM fun binding => filter.evaluateAfresh Pending.members binding).map fun flags =>
        ((bindings.zip flags).filter (·.2)).map (·.1) := by
  induction bindings generalizing ledger with
  | nil => rfl
  | cons binding rest ih =>
    obtain ⟨later, -, heval, hlater, -⟩ := Call.onRecord_spec Pending.members
      ⟨[], filter, binding, hstored⟩ h
    change filter.evaluate Pending.members binding [] ledger.cache = _ at heval
    rw [keepWhere, heval, List.mapM_cons, Call.afresh]
    have hrest := ih hlater
    cases filter.evaluateAfresh Pending.members binding with
    | error e => rfl
    | ok flag =>
      cases flag <;> simp only [hrest] <;>
        cases rest.mapM fun binding => filter.evaluateAfresh Pending.members binding <;> rfl

/-- A filter keeps what it would keep if subqueries were executed for every look-up, and fails where
it would fail then. -/
theorem keepWhere_eq_afresh (filter : Predicate Pending) (bindings : List Binding) :
    keepWhere filter bindings {} =
      (bindings.mapM fun binding => filter.evaluateAfresh Pending.members binding).map fun flags =>
        ((bindings.zip flags).filter (·.2)).map (·.1) := by
  have hstored : ∀ o ∈ filter.occurrences [], Layout.of filter o.1 = some o.2 :=
    fun _ ho => Layout.of_eq_some ho
  exact keepWhere_of_sound hstored .empty bindings

end Filtering

end CriteriaQuery
