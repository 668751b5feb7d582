import CriteriaQuery.People.Model
import CriteriaQuery.Proofs.Execution.Executable
import CriteriaQuery.Proofs.Execution.KeyOrder
import CriteriaQuery.Proofs.Value.Family

/-! Sorting the bindings of a plan. Where the values of each sort key are in order, the sort does not
give up, and it is stable (`Sorted.sort_eq_ofList`, `Sorted.StableSort.pairwise`). So where they are
of one family, a plan's bindings leave the sort in the order of the keys, and those with the same
keys in the order in which the joins gave them (`SelectPlan.execute_sorts`). -/
namespace CriteriaQuery
open Outcome Std
set_option autoImplicit false

/-! ## Insertion and images -/

namespace Sorted
variable {α β : Type} {before : α → α → Bool}

theorem insert_map (f : β → α) (item : β) (done : List β) : insert before (f item) (done.map f) =
    (insert (fun x y => before (f x) (f y)) item done).map f := by
  induction done with
  | nil => rfl
  | cons last rest ih =>
    rw [List.map_cons, insert, insert]
    split
    · rw [List.map_cons, ih]
    · rfl

theorem ofList_map (f : β → α) (items : List β) : ofList before (items.map f) =
    (ofList (fun x y => before (f x) (f y)) items).map f := by
  have hfold : ∀ done : List β,
      (items.map f).foldl (fun done item => insert before item done) (done.map f) =
        (items.foldl (fun done item => insert (fun x y => before (f x) (f y)) item done) done).map
          f := by
    induction items with
    | nil => exact fun done => rfl
    | cons item rest ih =>
      intro done
      rw [List.map_cons, List.foldl_cons, List.foldl_cons, insert_map, ih]
  rw [ofList, ofList, insertAll, insertAll, List.map_reverse]
  exact congrArg List.reverse (hfold [])

end Sorted

/-! ## Rows of keys -/

/-- A key comes before another in the direction of its clause. -/
def Direction.Precedes : Direction → Value → Value → Prop
  | .ascending, a, b => a.Precedes b
  | .descending, a, b => b.Precedes a

/-- The lexicographic order of rows of keys, each clause in its own direction. -/
def KeysPrecede : List Direction → List Value → List Value → Prop
  | direction :: directions, a :: as, b :: bs =>
    direction.Precedes a b ∨ a.Alike b ∧ KeysPrecede directions as bs
  | _, _, _ => False

abbrev KeysAlike (as bs : List Value) : Prop := List.Forall₂ Value.Alike as bs

section
variable {family : Value.Family} {directions : List Direction} {as bs : List Value} {a b : Value}

theorem sortOrder_eq_lt_iff {direction : Direction} (ha : a = .null ∨ Value.In family a)
    (hb : b = .null ∨ Value.In family b) :
    Value.sortOrder direction a b = .lt ↔ direction.Precedes a b := by
  cases direction with
  | ascending => exact Value.ascending_eq_lt_iff ha hb
  | descending =>
    rw [Direction.Precedes, ← Value.ascending_eq_lt_iff hb ha, Value.ascending_swap a b]
    rfl

theorem sortOrder_eq_eq_iff {direction : Direction} (ha : a = .null ∨ Value.In family a)
    (hb : b = .null ∨ Value.In family b) :
    Value.sortOrder direction a b = .eq ↔ a.Alike b := by
  rw [← Value.ascending_eq_eq_iff ha hb]
  cases direction with
  | ascending => rfl
  | descending => exact Ordering.swap_eq_eq

theorem KeysAlike.not_keysPrecede (h : KeysAlike as bs) : ¬KeysPrecede directions as bs := by
  induction h generalizing directions with
  | nil => cases directions <;> exact id
  | cons hfirst _ ih =>
    cases directions with
    | nil => exact id
    | cons direction directions =>
      rintro (hprecedes | ⟨-, hrest⟩)
      · cases direction with
        | ascending => exact hfirst.not_precedes hprecedes
        | descending => exact (Value.alike_comm.mp hfirst).not_precedes hprecedes
      · exact ih hrest

/-- On keys of one family each, the comparison of the program is the lexicographic order. -/
theorem compareKeys_iff (hlength : directions.length = as.length)
    (h : List.Forall₂ (fun a b => ∃ family, (a = .null ∨ Value.In family a) ∧
      (b = .null ∨ Value.In family b)) as bs) :
    (compareKeys directions as bs = .lt ↔ KeysPrecede directions as bs) ∧
    (compareKeys directions as bs = .eq ↔ KeysAlike as bs) := by
  induction h generalizing directions with
  | nil =>
    cases List.length_eq_zero_iff.mp hlength
    exact ⟨iff_of_false nofun id, iff_of_true rfl .nil⟩
  | cons hfirst _ ih =>
    obtain ⟨family, ha, hb⟩ := hfirst
    obtain ⟨direction, directions, rfl⟩ := List.exists_cons_of_length_eq_add_one hlength
    obtain ⟨hlt, heq⟩ := ih (by simpa using hlength)
    rw [compareKeys, Ordering.then_eq_lt, Ordering.then_eq_eq, sortOrder_eq_lt_iff ha hb,
      sortOrder_eq_eq_iff ha hb, hlt, heq]
    exact ⟨Iff.rfl, List.forall₂_cons.symm⟩

end

/-! ## Sorting bindings -/

def Binding.keys (orderBy : List OrderKey) (binding : Binding) : List Value :=
  orderBy.map fun key => binding.read key.expr

theorem forall₂_keys {α : Type} {R : Value → α → Prop} {orderBy : List OrderKey}
    {binding : Binding} {f : OrderKey → α} :
    List.Forall₂ R (binding.keys orderBy) (orderBy.map f) ↔
      ∀ key ∈ orderBy, R (binding.read key.expr) (f key) := by
  rw [Binding.keys, List.forall₂_map_left_iff, List.forall₂_map_right_iff, List.forall₂_same]

/-- Whether the keys of a binding come strictly before those of another. -/
def Binding.before (orderBy : List OrderKey) (x y : Binding) : Bool :=
  (compareKeys (orderBy.map (·.direction)) (x.keys orderBy) (y.keys orderBy)).isLT

section
variable {orderBy : List OrderKey} {bindings sorted : List Binding}

/-- The values of each sort key are of one family, apart from nulls. -/
def OneFamilyEach (orderBy : List OrderKey) (bindings : List Binding) : Prop :=
  ∀ key ∈ orderBy, ∃ family, ∀ binding ∈ bindings,
    binding.read key.expr = .null ∨ Value.In family (binding.read key.expr)

theorem isLT_compareKeys_eq_false {directions : List Direction} {as bs : List Value} :
    (compareKeys directions as bs).isLT = false ↔ (compareKeys directions bs as).isLE = true := by
  rw [compareKeys_swap directions as bs]
  cases compareKeys directions as bs <;> decide

/-- The values of a sort key. -/
def keyColumn (bindings : List Binding) (key : OrderKey) : Set Value :=
  {v | ∃ binding ∈ bindings, v = binding.read key.expr}

/-- The values of each sort key are in order. -/
def OrderlyEach (orderBy : List OrderKey) (bindings : List Binding) : Prop :=
  ∀ key ∈ orderBy, Orderly (keyColumn bindings key)

theorem OneFamilyEach.orderly (h : OneFamilyEach orderBy bindings) :
    OrderlyEach orderBy bindings := by
  intro key hkey
  obtain ⟨family, hfamily⟩ := h key hkey
  apply Value.orderly_of_family
  rintro _ ⟨binding, hb, rfl⟩
  exact hfamily binding hb

theorem weakOrder_before (h : OrderlyEach orderBy bindings) :
    Sorted.WeakOrder (Binding.before orderBy) (· ∈ bindings) := by
  have hcolumns : ∀ c ∈ orderBy.map (keyColumn bindings), Orderly c := List.forall_mem_map.mpr h
  have hkeys : ∀ {binding : Binding}, binding ∈ bindings →
      List.Forall₂ (· ∈ ·) (binding.keys orderBy) (orderBy.map (keyColumn bindings)) :=
    fun {binding} hb => forall₂_keys.mpr fun key _ => ⟨binding, hb, rfl⟩
  constructor
  · intro x y _ _ hxy
    rw [Binding.before, isLT_compareKeys_eq_false]
    exact Ordering.isLE_of_eq_lt (Ordering.isLT_iff_eq_lt.mp hxy)
  · intro x y z hx hy hz hxy hyz
    rw [Binding.before, isLT_compareKeys_eq_false] at hxy hyz ⊢
    exact @(transCmp_of_orderly hcolumns).isLE_trans ⟨_, hkeys hz⟩ ⟨_, hkeys hy⟩ ⟨_, hkeys hx⟩
      hyz hxy

/-- Bindings whose keys are in order are sorted as by insertion. -/
theorem sort_reading (h : OrderlyEach orderBy bindings) :
    Sorted.sort (KeyedBinding.before (orderBy.map (·.direction)))
        (bindings.map (KeyedBinding.reading orderBy)) =
      some ((Sorted.ofList (Binding.before orderBy) bindings).map
        (KeyedBinding.reading orderBy)) := by
  have hweak : Sorted.WeakOrder (KeyedBinding.before (orderBy.map (·.direction))) _ :=
    Sorted.WeakOrder.map (f := KeyedBinding.reading orderBy) (weakOrder_before h)
  rw [Sorted.sort_eq_ofList hweak, Sorted.ofList_map]
  · rfl
  · intro keyed hkeyed
    obtain ⟨binding, hb, rfl⟩ := List.mem_map.mp hkeyed
    exact ⟨binding, hb, rfl⟩

theorem sortedBy_of_orderly (h : OrderlyEach orderBy bindings) :
    ∃ sorted, sortedBy orderBy bindings = .ok sorted := by
  rw [sortedBy, sort_reading h]
  split
  · exact ⟨_, rfl⟩
  · exact ⟨_, rfl⟩

/-- The first of two bindings with their ranks has the smaller keys, or the same, and then the smaller
rank. -/
def KeysInOrder (orderBy : List OrderKey) (x y : Binding × Nat) : Prop :=
  (KeysPrecede (orderBy.map (·.direction)) (x.1.keys orderBy) (y.1.keys orderBy) ∨
    KeysAlike (x.1.keys orderBy) (y.1.keys orderBy)) ∧
  (KeysAlike (x.1.keys orderBy) (y.1.keys orderBy) → x.2 < y.2)

theorem keysInOrder_of_inPlace (h : OneFamilyEach orderBy bindings) {x y : Binding × Nat}
    (hx : x.1 ∈ bindings) (hy : y.1 ∈ bindings)
    (hplace : Sorted.InPlace (fun x y => Binding.before orderBy x.1 y.1) (fun x y => x.2 < y.2)
      x y) : KeysInOrder orderBy x y := by
  have hpairs : List.Forall₂ (fun a b => ∃ family, (a = .null ∨ Value.In family a) ∧
      (b = .null ∨ Value.In family b)) (x.1.keys orderBy) (y.1.keys orderBy) := by
    refine forall₂_keys.mpr fun key hkey => ?_
    obtain ⟨family, hfamily⟩ := h key hkey
    exact ⟨family, hfamily _ hx, hfamily _ hy⟩
  have hlength : (orderBy.map (·.direction)).length = (x.1.keys orderBy).length := by
    rw [Binding.keys, List.length_map, List.length_map]
  obtain ⟨hlt, heq⟩ := compareKeys_iff hlength hpairs
  rcases hplace with hbefore | ⟨hafter, hrank⟩
  · have hprecede := hlt.mp (Ordering.isLT_iff_eq_lt.mp hbefore)
    exact ⟨.inl hprecede, fun halike => absurd hprecede halike.not_keysPrecede⟩
  · simp only [Binding.before, isLT_compareKeys_eq_false] at hafter
    exact ⟨(Ordering.isLE_iff_eq_lt_or_eq_eq.mp hafter).imp hlt.mp heq.mp, fun _ => hrank⟩

theorem pairwise_zipIdx {α : Type} (l : List α) : l.zipIdx.Pairwise fun x y => x.2 < y.2 := by
  have h : (l.zipIdx.map (·.2)).Pairwise (· < ·) := by
    rw [List.zipIdx_map_snd]
    exact List.pairwise_lt_range'
  exact List.pairwise_map.mp h

/-- Bindings are sorted by their keys, in the lexicographic order of the clauses, and those with the
same keys stand in the order in which they came. -/
def StablySorted (orderBy : List OrderKey) (bindings sorted : List Binding) : Prop :=
  ∃ ranked : List (Binding × Nat), ranked.Perm bindings.zipIdx ∧ sorted = ranked.map (·.1) ∧
    ranked.Pairwise (KeysInOrder orderBy)

theorem ofList_sorted (h : OneFamilyEach orderBy bindings) :
    StablySorted orderBy bindings (Sorted.ofList (Binding.before orderBy) bindings) := by
  have hmem : ∀ x ∈ bindings.zipIdx, x.1 ∈ bindings := fun x hx => List.fst_mem_of_mem_zipIdx hx
  have hweak := (weakOrder_before h.orderly).comap (Prod.fst : Binding × Nat → Binding)
  have hstable := Sorted.StableSort.ofList hweak hmem
  have hpairs := hstable.pairwise hweak hmem (pairwise_zipIdx bindings)
  refine ⟨_, hstable.perm, ?_, hpairs.imp_of_mem fun hx hy hplace => ?_⟩
  · rw [← Sorted.ofList_map, List.zipIdx_map_fst]
  · exact keysInOrder_of_inPlace h (hstable.forall_mem hmem _ hx) (hstable.forall_mem hmem _ hy)
      hplace

theorem sortBindings_sorted (h : sortBindings orderBy bindings = .ok sorted)
    (hfamilies : OneFamilyEach orderBy bindings) : StablySorted orderBy bindings sorted := by
  have hsorted := sortedBy_of_sortBindings h
  rw [sortedBy, sort_reading hfamilies.orderly] at hsorted
  split at hsorted
  · next hnone =>
    cases hsorted
    -- without clauses, the keys of all bindings are alike
    refine ⟨bindings.zipIdx, .refl _, (List.zipIdx_map_fst 0 bindings).symm, ?_⟩
    refine (pairwise_zipIdx bindings).imp fun hrank => ⟨.inr ?_, fun _ => hrank⟩
    rw [hnone]
    exact .nil
  · cases hsorted
    rw [map_binding_reading]
    exact ofList_sorted hfamilies

end

/-! ## The sort of a plan -/

namespace SelectPlan
variable {catalog : Catalog} {store : Store} {plan : SelectPlan} {output : Output}

/-- A plan that is executed sorts the bindings that its filter keeps, in the order of the joins. All
of their keys can be read, and if those of each clause are of one family, the sort is by keys and
stable. -/
theorem execute_sorts (h : plan.execute catalog store = .ok output) :
    ∃ joined kept sorted : List Binding,
      plan.joined catalog store = .ok joined ∧ plan.filtered catalog store joined = .ok kept ∧
      sortBindings plan.orderBy kept = .ok sorted ∧ plan.selection.output sorted = .ok output ∧
      kept.Sublist joined ∧ sorted.Perm kept ∧
      (∀ binding ∈ kept, ∀ key ∈ plan.orderBy,
        binding.scalar key.expr = .ok (binding.read key.expr)) ∧
      (OneFamilyEach plan.orderBy kept → StablySorted plan.orderBy kept sorted) := by
  obtain ⟨joined, kept, sorted, hjoined, hkept, hsorted, houtput⟩ := execute_eq_ok.mp h
  exact ⟨joined, kept, sorted, hjoined, hkept, hsorted, houtput, sublist_of_filtered hkept,
    perm_of_sortBindings hsorted, scalar_of_sortBindings hsorted, sortBindings_sorted hsorted⟩

end SelectPlan

/-! ## Children by their parent -/

namespace People

def siblings : Store :=
  .withRows {} "Person" [⟨[("id", .int64 1)]⟩, ⟨[("id", .int64 3), ("parentId", .int64 1)]⟩,
    ⟨[("id", .int32 2), ("parentId", .int32 1)]⟩]

/-- People, those with the highest number of a parent first. -/
def byParent : SelectPlan :=
  { SelectPlan.scan "Person" "t0" with
    joins := [⟨"t1", "t0", "parent", "Person", .left, true⟩]
    orderBy := [⟨.column "t1" "id", .descending⟩] }

/-- The children of one parent stay in order, in front of the one without a parent. -/
theorem execute_sorts_of_siblings :
    ∃ joined sorted, byParent.joined catalog siblings = .ok joined ∧ joined.length = 3 ∧
      OneFamilyEach byParent.orderBy joined ∧ sortBindings byParent.orderBy joined = .ok sorted ∧
      StablySorted byParent.orderBy joined sorted := by
  obtain ⟨output, houtput⟩ : ∃ output, byParent.execute catalog siblings = .ok output := ⟨_, rfl⟩
  obtain ⟨bindings, hbindings, hlength, hfamilies⟩ : ∃ bindings,
      byParent.joined catalog siblings = .ok bindings ∧ bindings.length = 3 ∧
        OneFamilyEach byParent.orderBy bindings := by
    refine ⟨_, rfl, by decide, fun key hkey => ⟨.integer, fun binding hb => ?_⟩⟩
    have hintegers : ∀ key ∈ byParent.orderBy,
        ∀ binding ∈ (byParent.joined catalog siblings).toOption.getD [],
          (binding.read key.expr).isNull = true ∨
            (binding.read key.expr).int?.isSome = true := by decide +kernel
    rcases hintegers key hkey binding hb with hnull | hint
    · generalize binding.read key.expr = v at hnull ⊢
      cases v <;> first | exact .inl rfl | cases hnull
    · obtain ⟨n, hn⟩ := Option.isSome_iff_exists.mp hint
      exact .inr (.integer n hn)
  obtain ⟨joined, kept, sorted, hjoined, hkept, hsorted, -, -, -, -, hstable⟩ :=
    SelectPlan.execute_sorts houtput
  cases hbindings.symm.trans hjoined
  -- the plan has no filter, so that it keeps all bindings
  cases hkept
  exact ⟨_, sorted, hjoined, hlength, hfamilies, hsorted, hstable hfamilies⟩

end People

end CriteriaQuery
