import CriteriaQuery.Proofs.Execution.Truth
import CriteriaQuery.Proofs.Sorted.Quick

/-! Plans that fail in no way but by their sort. A plan is executable if its root entity is declared,
its joins hang on earlier aliases and follow declared relations, and all that it filters, sorts and
selects by reads its own aliases; its subqueries are executable again and select values without
sorting. Executing such a plan on any store sorts the bindings of which the filter is true, and what
it returns is the selection from them (`SelectPlan.Executable.execute_eq_of`). -/
namespace CriteriaQuery
open Outcome
set_option autoImplicit false

/-! ## Aliases of extended bindings -/

theorem Join.map_join_of_links? {catalog : Catalog} {scans : List Scan} {joins : List Join}
    {links : List Link} (h : Join.links? catalog scans joins = some links) :
    links.map (·.join) = joins := by
  induction joins generalizing scans links with
  | nil =>
    cases h
    rfl
  | cons join rest ih =>
    obtain ⟨link, others, hlink, hothers, rfl⟩ := Join.links?_cons.mp h
    obtain ⟨entity, relation, -, -, rfl⟩ := Join.link?_eq_some.mp hlink
    rw [List.map_cons, ih hothers]

theorem Link.aliases_of_mem_extendAll {store : Store} {links : List Link}
    {bindings : List Binding} {longer : Binding} (h : longer ∈ Link.extendAll store links bindings) :
    ∃ binding ∈ bindings, longer.aliases = binding.aliases ++ links.map (·.join.aliasName) := by
  induction links generalizing bindings with
  | nil => exact ⟨longer, h, by simp⟩
  | cons link links ih =>
    obtain ⟨middle, hmiddle, heq⟩ := ih h
    obtain ⟨binding, hb, hmiddle⟩ := List.mem_flatMap.mp hmiddle
    refine ⟨binding, hb, ?_⟩
    rw [heq, Link.aliases_of_mem_extend hmiddle]
    simp

theorem SelectPlan.aliases_of_mem_bindingsFrom {plan : SelectPlan} {catalog : Catalog}
    {store : Store} {row : Row} {binding : Binding}
    (h : binding ∈ plan.bindingsFrom catalog store row) : binding.aliases = plan.aliases := by
  unfold bindingsFrom at h
  split at h
  · rename_i links hlinks
    obtain ⟨root, hroot, heq⟩ := Link.aliases_of_mem_extendAll h
    rw [List.mem_singleton] at hroot
    have hjoins := Join.map_join_of_links? hlinks
    rw [heq, hroot, aliases, scans, ← hjoins]
    simp [rootScan, Join.scan, Function.comp_def]
  · exact (List.not_mem_nil h).elim

/-! ## Sorting -/

/-- A binding with the values that it has for sort keys. -/
def KeyedBinding.reading (keys : List OrderKey) (binding : Binding) : KeyedBinding :=
  ⟨keys.map fun key => binding.read key.expr, binding⟩

/-- Sorts bindings that have a value for each sort key. -/
def sortedBy (keys : List OrderKey) (bindings : List Binding) : Except Error (List Binding) :=
  if keys = [] then .ok bindings
  else
    match Sorted.sort (KeyedBinding.before (keys.map (·.direction)))
      (bindings.map (KeyedBinding.reading keys)) with
    | some sorted => .ok (sorted.map (·.binding))
    | none => .error (.execution .contradictoryOrder)

theorem sortBindings_eq {keys : List OrderKey} {bindings : List Binding}
    (h : ∀ binding ∈ bindings, ∀ key ∈ keys,
      binding.scalar key.expr = .ok (binding.read key.expr)) :
    sortBindings keys bindings = sortedBy keys bindings := by
  have hkeyed : bindings.mapM (KeyedBinding.of keys) =
      .ok (bindings.map (KeyedBinding.reading keys)) := by
    apply mapM_eq_map
    intro binding hb
    rw [KeyedBinding.of, bind_ok (mapM_eq_map (h binding hb))]
    rfl
  rw [sortBindings, sortedBy, bind_ok hkeyed]
  rfl

theorem Binding.eq_read {binding : Binding} {e : Scalar} {v : Value}
    (h : binding.scalar e = .ok v) : v = binding.read e := by
  cases e with
  | count => cases h
  | column aliasName name =>
    obtain ⟨found, hfound, rfl⟩ := map_eq_ok.mp h
    rw [read, row?]
    rw [Binding.row] at hfound
    split at hfound
    · next hslot =>
      cases hfound
      rw [hslot]
      rfl
    · cases hfound

theorem KeyedBinding.eq_reading {orderBy : List OrderKey} {binding : Binding}
    {keyed : KeyedBinding} (h : KeyedBinding.of orderBy binding = .ok keyed) :
    keyed = KeyedBinding.reading orderBy binding ∧
      ∀ key ∈ orderBy, binding.scalar key.expr = .ok (binding.read key.expr) := by
  obtain ⟨keys, hkeys, hkeyed⟩ := bind_eq_ok.mp h
  rw [pure_eq_ok] at hkeyed
  constructor
  · rw [← hkeyed, eq_map_of_mapM (fun key v hv => Binding.eq_read hv) hkeys]
    rfl
  · intro key hkey
    obtain ⟨v, hv⟩ := exists_mapM_eq_ok.mp ⟨keys, hkeys⟩ key hkey
    rw [hv, Binding.eq_read hv]

/-- Bindings are only sorted if all of their keys can be read. -/
theorem scalar_of_sortBindings {keys : List OrderKey} {bindings sorted : List Binding}
    (h : sortBindings keys bindings = .ok sorted) :
    ∀ binding ∈ bindings, ∀ key ∈ keys,
      binding.scalar key.expr = .ok (binding.read key.expr) := by
  intro binding hb key hkey
  rw [sortBindings, if_neg (List.ne_nil_of_mem hkey)] at h
  obtain ⟨keyed, hkeyed, -⟩ := bind_eq_ok.mp h
  obtain ⟨k, hk⟩ := exists_mapM_eq_ok.mp ⟨keyed, hkeyed⟩ binding hb
  exact (KeyedBinding.eq_reading hk).2 key hkey

theorem sortedBy_of_sortBindings {keys : List OrderKey} {bindings sorted : List Binding}
    (h : sortBindings keys bindings = .ok sorted) : sortedBy keys bindings = .ok sorted :=
  (sortBindings_eq (scalar_of_sortBindings h)).symm.trans h

@[simp] theorem sortedBy_nil (bindings : List Binding) : sortedBy [] bindings = .ok bindings := rfl

theorem map_binding_reading (keys : List OrderKey) (bindings : List Binding) :
    (bindings.map (KeyedBinding.reading keys)).map (·.binding) = bindings := by
  rw [List.map_map]
  exact List.map_id bindings

theorem perm_of_sortedBy {keys : List OrderKey} {bindings sorted : List Binding}
    (h : sortedBy keys bindings = .ok sorted) : sorted.Perm bindings := by
  rw [sortedBy] at h
  split at h
  · cases h
    exact .refl _
  split at h
  · next keyed hkeyed =>
    cases h
    have hperm := (Sorted.sort_perm hkeyed).map (·.binding)
    rwa [map_binding_reading] at hperm
  · cases h

theorem sortedBy_eq_error {keys : List OrderKey} {bindings : List Binding} {e : Error}
    (h : sortedBy keys bindings = .error e) : e = .execution .contradictoryOrder := by
  rw [sortedBy] at h
  split at h
  · cases h
  split at h
  · cases h
  · cases h
    rfl

/-- Up to twenty bindings are sorted by insertion, whatever their keys are. -/
theorem sortedBy_of_short {keys : List OrderKey} {bindings : List Binding}
    (h : bindings.length ≤ 20) : ∃ sorted, sortedBy keys bindings = .ok sorted := by
  rw [sortedBy, Sorted.sort_of_short (by rwa [List.length_map])]
  split
  · exact ⟨_, rfl⟩
  · exact ⟨_, rfl⟩

theorem perm_of_sortBindings {keys : List OrderKey} {bindings sorted : List Binding}
    (h : sortBindings keys bindings = .ok sorted) : sorted.Perm bindings :=
  perm_of_sortedBy (sortedBy_of_sortBindings h)

/-! ## Selecting -/

def Selection.ReadsFrom (aliases : List String) : Selection → Prop
  | .entity aliasName | .expr (.count aliasName) => aliasName ∈ aliases
  | .expr (.column aliasName _) => aliasName ∈ aliases

/-- What is selected from bindings that bind all that is asked for. -/
def Selection.of (bindings : List Binding) : Selection → Output
  | .entity aliasName => .entities (bindings.filterMap (·.row? aliasName))
  | .expr (.count aliasName) => .count (bindings.filterMap (·.row? aliasName)).length
  | .expr e => .values (bindings.map (·.read e))

theorem boundRows_eq {aliasName : String} {bindings : List Binding}
    (h : ∀ binding ∈ bindings, aliasName ∈ binding.aliases) :
    boundRows aliasName bindings = .ok (bindings.filterMap (·.row? aliasName)) := by
  have hrows : bindings.mapM (·.row aliasName) = .ok (bindings.map (·.row? aliasName)) :=
    mapM_eq_map fun binding hb => Binding.row_eq (h binding hb)
  rw [boundRows, bind_ok hrows, List.filterMap_map]
  rfl

theorem Selection.output_eq {selection : Selection} {aliases : List String}
    {bindings : List Binding} (hreads : selection.ReadsFrom aliases)
    (h : ∀ binding ∈ bindings, binding.aliases = aliases) :
    selection.output bindings = .ok (selection.of bindings) := by
  match selection with
  | .entity aliasName =>
    rw [output, boundRows_eq fun binding hb => by rw [h binding hb]; exact hreads]
    rfl
  | .expr (.count aliasName) =>
    rw [output, boundRows_eq fun binding hb => by rw [h binding hb]; exact hreads]
    rfl
  | .expr (.column aliasName name) =>
    have hvalues : bindings.mapM (·.scalar (.column aliasName name)) =
        .ok (bindings.map (·.read (.column aliasName name))) :=
      mapM_eq_map fun binding hb => Binding.scalar_eq (by rw [h binding hb]; exact hreads)
    change bindings.mapM _ >>= _ = _
    rw [bind_ok hvalues]
    rfl

/-! ## Executable plans -/

namespace SelectPlan

/-- A plan that selects the values of a column, in no particular order. -/
def SelectsValues (plan : SelectPlan) : Prop :=
  plan.orderBy = [] ∧ ∃ aliasName name, plan.selection = .expr (.column aliasName name)

/-- A plan that can be executed on any store, up to its sort. -/
inductive Executable (catalog : Catalog) : SelectPlan → Prop
  | intro {plan : SelectPlan}
    (declared : ∃ entity, catalog.entity? plan.rootEntity = some entity)
    (linked : ∃ links, plan.links? catalog = some links)
    (filter : ∀ p ∈ plan.filter, p.ReadsFrom plan.aliases)
    (subqueries : ∀ p ∈ plan.filter, ∀ sub ∈ p.sets, Executable catalog sub)
    (values : ∀ p ∈ plan.filter, ∀ sub ∈ p.sets, sub.SelectsValues)
    (keys : ∀ key ∈ plan.orderBy, key.expr.ReadsFrom plan.aliases)
    (selection : plan.selection.ReadsFrom plan.aliases) : Executable catalog plan

variable (catalog : Catalog) (store : Store)

/-- The values that a plan selects, none where it fails. -/
def members (plan : SelectPlan) : List Value := (plan.values catalog store).toOption.getD []

def keeps (plan : SelectPlan) (binding : Binding) : Bool :=
  match plan.filter with
  | some p => p.holds (members catalog store) binding
  | none => true

/-- The bindings of a plan that its filter keeps, for each root row in turn. -/
def kept (plan : SelectPlan) : List Binding :=
  ((store.rows plan.rootEntity).flatMap (plan.bindingsFrom catalog store)).filter
    (plan.keeps catalog store)

variable {catalog} {store}

theorem aliases_of_mem_kept {plan : SelectPlan} {binding : Binding}
    (h : binding ∈ plan.kept catalog store) : binding.aliases = plan.aliases := by
  obtain ⟨row, -, hrow⟩ := List.mem_flatMap.mp (List.mem_filter.mp h).1
  exact aliases_of_mem_bindingsFrom hrow

theorem pending_members (plan : SelectPlan) :
    (plan.pending catalog store).members = plan.values catalog store := rfl

/-- A filter whose subqueries can be loaded keeps the bindings that it is true of. -/
theorem keepWhere_pending {p : Predicate SelectPlan} {bindings : List Binding}
    (hload : ∀ sub ∈ p.sets, sub.values catalog store = .ok (sub.members catalog store))
    (hreads : ∀ binding ∈ bindings, p.ReadsFrom binding.aliases) :
    keepWhere (p.map (pending catalog store)) bindings {} =
      .ok (bindings.filter (p.holds (members catalog store))) := by
  have hsets : ∀ set ∈ (p.map (pending catalog store)).sets,
      Pending.members set = .ok ((Pending.members set).toOption.getD []) := by
    intro set hset
    rw [Predicate.sets_map] at hset
    obtain ⟨sub, hsub, rfl⟩ := List.mem_map.mp hset
    rw [pending_members, hload sub hsub]
    rfl
  have hmap : ∀ binding ∈ bindings,
      (p.map (pending catalog store)).ReadsFrom binding.aliases :=
    fun binding hb => (Predicate.readsFrom_map _ _ p).mpr (hreads binding hb)
  rw [keepWhere_eq hsets hmap MemberCache.agrees_empty]
  congr 2
  funext binding
  rw [Predicate.holds_map]
  rfl

/-! ## Running -/

/-- The bindings that the filter of a plan keeps. -/
def filtered (catalog : Catalog) (store : Store) (plan : SelectPlan) (bindings : List Binding) :
    Except Error (List Binding) :=
  match plan.filter.map (Predicate.map (pending catalog store)) with
  | some p => keepWhere p bindings {}
  | none => .ok bindings

theorem sublist_of_filtered {plan : SelectPlan} {bindings kept : List Binding}
    (h : plan.filtered catalog store bindings = .ok kept) : kept.Sublist bindings := by
  unfold filtered at h
  split at h
  · exact sublist_of_keepWhere h
  · cases h
    exact List.Sublist.refl _

/-- A plan is executed by joining, filtering, sorting and selecting. -/
theorem execute_eq_bind (plan : SelectPlan) :
    plan.execute catalog store =
      plan.joined catalog store >>= fun bindings =>
        plan.filtered catalog store bindings >>= fun kept =>
          sortBindings plan.orderBy kept >>= plan.selection.output := by
  rw [execute_eq, run]
  unfold filtered
  cases plan.filter.map (Predicate.map (pending catalog store)) <;> rfl

theorem execute_eq_ok {plan : SelectPlan} {output : Output} :
    plan.execute catalog store = .ok output ↔ ∃ bindings kept sorted,
      plan.joined catalog store = .ok bindings ∧ plan.filtered catalog store bindings = .ok kept ∧
      sortBindings plan.orderBy kept = .ok sorted ∧ plan.selection.output sorted = .ok output := by
  rw [execute_eq_bind]
  simp only [bind_eq_ok]
  constructor
  · rintro ⟨bindings, hjoined, kept, hkept, sorted, hsorted, houtput⟩
    exact ⟨bindings, kept, sorted, hjoined, hkept, hsorted, houtput⟩
  · rintro ⟨bindings, kept, sorted, hjoined, hkept, hsorted, houtput⟩
    exact ⟨bindings, hjoined, kept, hkept, sorted, hsorted, houtput⟩

/-- A subquery that selects values and does not sort them can be loaded. -/
theorem SelectsValues.values_eq {sub : SelectPlan} (h : sub.SelectsValues)
    (hexecute : sub.execute catalog store =
      (sortedBy sub.orderBy (sub.kept catalog store)).map fun sorted => sub.selection.of sorted) :
    sub.values catalog store = .ok (sub.members catalog store) := by
  obtain ⟨hunsorted, aliasName, name, hselects⟩ := h
  rw [hselects, hunsorted, sortedBy_nil] at hexecute
  have hvalues : sub.values catalog store =
      .ok ((sub.kept catalog store).map (·.read (.column aliasName name))) := by
    rw [SelectPlan.values, hexecute]
    rfl
  rw [SelectPlan.members, hvalues]
  rfl

/-- A filter that reads the aliases of its plan, and whose subqueries can be loaded, keeps the
bindings that it is true of. -/
theorem filtered_eq_kept {plan : SelectPlan} (hfilter : ∀ p ∈ plan.filter, p.ReadsFrom plan.aliases)
    (hload : ∀ p ∈ plan.filter, ∀ sub ∈ p.sets,
      sub.values catalog store = .ok (sub.members catalog store)) :
    plan.filtered catalog store
        ((store.rows plan.rootEntity).flatMap (plan.bindingsFrom catalog store)) =
      .ok (plan.kept catalog store) := by
  unfold filtered SelectPlan.kept
  cases hplan : plan.filter with
  | none =>
    have hkeeps : plan.keeps catalog store = fun _ => true := by
      funext binding
      rw [keeps, hplan]
    rw [hkeeps, List.filter_true]
    rfl
  | some p =>
    have hkeeps : plan.keeps catalog store = p.holds (members catalog store) := by
      funext binding
      rw [keeps, hplan]
    rw [hkeeps]
    apply keepWhere_pending (hload p hplan)
    intro binding hb
    obtain ⟨row, -, hrow⟩ := List.mem_flatMap.mp hb
    rw [aliases_of_mem_bindingsFrom hrow]
    exact hfilter p hplan

/-- Executing an executable plan returns what it selects from the bindings that it keeps, unless
these cannot be sorted. -/
theorem Executable.execute_eq_of {plan : SelectPlan} (h : plan.Executable catalog) :
    plan.execute catalog store =
      (sortedBy plan.orderBy (plan.kept catalog store)).map fun sorted =>
        plan.selection.of sorted := by
  induction h with
  | @intro plan declared linked filter subqueries values keys selection ih =>
    obtain ⟨entity, hentity⟩ := declared
    obtain ⟨links, hlinks⟩ := linked
    have hkept := filtered_eq_kept filter fun p hp sub hsub =>
      (values p hp sub hsub).values_eq (ih p hp sub hsub)
    have hsorted : sortBindings plan.orderBy (plan.kept catalog store) =
        sortedBy plan.orderBy (plan.kept catalog store) := by
      apply sortBindings_eq
      intro binding hb key hkey
      apply Binding.scalar_eq
      rw [aliases_of_mem_kept hb]
      exact keys key hkey
    rw [execute_eq_bind, bind_ok (plan.joined_eq store hentity hlinks), bind_ok hkept, hsorted]
    cases hresult : sortedBy plan.orderBy (plan.kept catalog store) with
    | error e => rfl
    | ok sorted =>
      apply Selection.output_eq selection
      intro binding hb
      exact aliases_of_mem_kept ((perm_of_sortedBy hresult).mem_iff.mp hb)

/-- The joins and the filter of an executable plan do not fail. -/
theorem Executable.exists_joined {plan : SelectPlan} (h : plan.Executable catalog) :
    ∃ joined, plan.joined catalog store = .ok joined ∧
      plan.filtered catalog store joined = .ok (plan.kept catalog store) := by
  obtain ⟨⟨entity, hentity⟩, ⟨links, hlinks⟩, filter, subqueries, values, -, -⟩ := h
  exact ⟨_, plan.joined_eq store hentity hlinks, filtered_eq_kept filter fun p hp sub hsub =>
    (values p hp sub hsub).values_eq (subqueries p hp sub hsub).execute_eq_of⟩

end SelectPlan

end CriteriaQuery
