import CriteriaQuery.Proofs.Handler.Placement

/-! When compilation succeeds. Each step of it asks for something to be declared or supported, in a
way that does not depend on what earlier steps made. Taken together, a definition can be compiled
exactly if the catalog declares what its present restrictions and its sorts use, and their tests
can be built (`Handler.compiles_iff`). Absent restrictions play no part in it, and for counts neither
do sorts. -/
namespace CriteriaQuery
open Outcome
set_option autoImplicit false

/-! ## Declared columns -/

/-- The entity has a field that is named as the column. -/
def Catalog.Declares (catalog : Catalog) (entity column : String) : Prop :=
  ∃ e, catalog.entity? entity = some e ∧ ∃ field ∈ e.fields, field.name = column

theorem Entity.exists_field?_iff {e : Entity} {name : String} :
    (∃ field, e.field? name = some field) ↔ ∃ field ∈ e.fields, field.name = name := by
  rw [← Option.isSome_iff_exists, Entity.field?, List.find?_isSome]
  simp only [decide_eq_true_iff]

theorem Catalog.declares_of_field? {catalog : Catalog} {entity column : String} {e : Entity}
    {field : Field} (he : catalog.entity? entity = some e) (hfield : e.field? column = some field) :
    catalog.Declares entity column :=
  ⟨e, he, Entity.exists_field?_iff.mp ⟨field, hfield⟩⟩

theorem Catalog.exists_entity_iff {catalog : Catalog} {name : String} :
    (∃ e, catalog.entity name = .ok e) ↔ ∃ e, catalog.entity? name = some e := by
  unfold Catalog.entity
  cases catalog.entity? name <;> simp

theorem Scan.exists_column_iff {catalog : Catalog} {scan : Scan} {name : String} :
    (∃ path, scan.column catalog name = .ok path) ↔ catalog.Declares scan.entity name := by
  simp only [Scan.column, Catalog.checkColumn, Catalog.entity, Catalog.Declares,
    ← Entity.exists_field?_iff, exists_bind_eq_ok, exists_pure_eq_ok, and_true]
  cases catalog.entity? scan.entity with
  | none => simp
  | some e => cases hfield : e.field? name <;> simp [hfield]

theorem Draft.exists_createSubquery_iff {outer : Draft} {catalog : Catalog} {entity : String} :
    (∃ sub, outer.createSubquery catalog entity = .ok sub) ↔
      ∃ e, catalog.entity? entity = some e := by
  simp only [createSubquery, exists_bind_eq_ok, exists_pure_eq_ok, and_true,
    Catalog.exists_entity_iff]

theorem Draft.createSubquery_eq_ok {outer : Draft} {catalog : Catalog} {entity : String}
    {sub : Subquery} (h : outer.createSubquery catalog entity = .ok sub) :
    sub.draft.Fresh sub.root ∧ sub.root.entity = entity := by
  obtain ⟨_, -, hpure⟩ := bind_eq_ok.mp h
  rw [← pure_eq_ok.mp hpure]
  exact ⟨fresh_start _ _ _, rfl⟩

theorem ConfiguredSort.exists_orderKey_iff {S : Type} {catalog : Catalog} {scan : Scan}
    {sort : ConfiguredSort S} {direction : Direction} :
    (∃ key, sort.orderKey catalog scan direction = .ok key) ↔
      catalog.Declares scan.entity sort.column := by
  simp only [orderKey, exists_bind_eq_ok, exists_pure_eq_ok, and_true, Scan.exists_column_iff]

/-- The column of a restriction is declared, and its test is supported. -/
structure Applied.Sound (catalog : Catalog) (a : Applied) : Prop where
  declares : catalog.Declares a.node.entity a.column
  supported : a.test.Supported

/-- The column of a restriction is declared, and predicates can be built for its test. -/
structure Applied.Ready (catalog : Catalog) (a : Applied) : Prop where
  declares : catalog.Declares a.node.entity a.column
  buildable : a.test.Buildable

theorem Applied.ready_iff_sound {catalog : Catalog} {a : Applied} (hstock : a.test.isStock = true) :
    a.Ready catalog ↔ a.Sound catalog := by
  have hbuildable := Test.buildable_iff_supported hstock
  exact ⟨fun h => ⟨h.declares, hbuildable.mp h.buildable⟩,
    fun h => ⟨h.declares, hbuildable.mpr h.supported⟩⟩

theorem Applied.exists_build_iff {catalog : Catalog} {scan : Scan} {a : Applied} {draft : Draft}
    (huniform : a.test.Uniform) (hscan : scan.entity = a.node.entity) :
    (∃ made, a.build catalog scan draft = .ok made) ↔ a.Ready catalog := by
  have hsteps : (∃ made, a.build catalog scan draft = .ok made) ↔
      catalog.Declares a.node.entity a.column ∧ a.test.Buildable := by
    rw [← hscan]
    exact exists_bind_iff Scan.exists_column_iff fun path _ =>
      ⟨huniform draft path, fun h => h draft path⟩
  rw [hsteps]
  constructor
  · rintro ⟨hdeclares, hbuildable⟩
    exact ⟨hdeclares, hbuildable⟩
  · rintro ⟨hdeclares, hbuildable⟩
    exact ⟨hdeclares, hbuildable⟩

/-- Whether membership in a column can be tested depends on whether the column is declared. -/
theorem Test.exists_memberOf_iff {catalog : Catalog} {entity column : String} {flag : Bool}
    {draft : Draft} {path : Scalar} :
    (∃ made, (memberOf catalog entity column flag).build draft path = .ok made) ↔
      catalog.Declares entity column := by
  simp only [memberOf, build, exists_bind_eq_ok, exists_pure_eq_ok, and_true]
  constructor
  · rintro ⟨sub, hsub, values, hvalues⟩
    rw [← (Draft.createSubquery_eq_ok hsub).2]
    exact Scan.exists_column_iff.mp ⟨values, hvalues⟩
  · intro hdeclares
    obtain ⟨e, he, -⟩ := id hdeclares
    obtain ⟨sub, hsub⟩ := Draft.exists_createSubquery_iff.mpr ⟨e, he⟩
    rw [← (Draft.createSubquery_eq_ok hsub).2] at hdeclares
    obtain ⟨values, hvalues⟩ := Scan.exists_column_iff.mpr hdeclares
    exact ⟨sub, hsub, values, hvalues⟩

theorem Test.uniform_memberOf {catalog : Catalog} {entity column : String} {flag : Bool} :
    (memberOf catalog entity column flag).Uniform :=
  fun _ _ h _ _ => exists_memberOf_iff.mpr (exists_memberOf_iff.mp h)

namespace RestrictionGroup
variable {catalog : Catalog} {scope : Scope}

theorem exists_predicatesOn_iff {scan : Scan} {members : List Applied} {draft : Draft}
    (huniform : ∀ a ∈ members, a.test.Uniform)
    (hscan : ∀ a ∈ members, scan.entity = a.node.entity) :
    (∃ made, predicatesOn catalog scan members draft = .ok made) ↔
      ∀ a ∈ members, a.Ready catalog := by
  induction members generalizing draft with
  | nil => simp [predicatesOn]
  | cons a rest ih =>
    rw [List.forall_mem_cons] at huniform hscan ⊢
    apply exists_bind_iff (Applied.exists_build_iff huniform.1 hscan.1)
    rintro ⟨next, p⟩ -
    simp only [exists_bind_eq_ok, exists_pure_eq_ok, and_true]
    exact ih huniform.2 hscan.2

theorem exists_predicates_iff {groups : List RestrictionGroup} {draft : Draft}
    (huniform : ∀ a ∈ groups.flatMap (·.members), a.test.Uniform)
    (hnode : ∀ group ∈ groups, ∀ a ∈ group.members, a.node = group.node)
    (hscan : ∀ group ∈ groups, ∃ scan,
      scope.scan group.node = .ok scan ∧ scan.entity = group.node.entity) :
    (∃ made, predicates catalog scope groups draft = .ok made) ↔
      ∀ a ∈ groups.flatMap (·.members), a.Ready catalog := by
  induction groups generalizing draft with
  | nil => simp [predicates]
  | cons group rest ih =>
    rw [List.flatMap_cons, List.forall_mem_append] at huniform ⊢
    rw [List.forall_mem_cons] at hnode hscan
    obtain ⟨scan, hfound, hentity⟩ := hscan.1
    have hmembers : ∀ a ∈ group.members, scan.entity = a.node.entity := by
      intro a ha
      rw [hnode.1 a ha, hentity]
    rw [predicates, bind_ok hfound]
    apply exists_bind_iff (exists_predicatesOn_iff huniform.1 hmembers)
    rintro ⟨next, ps⟩ -
    simp only [exists_bind_eq_ok, exists_pure_eq_ok, and_true]
    exact ih huniform.2 hnode.2 hscan.2

end RestrictionGroup

namespace Handler
variable {C S : Type} [DecidableEq S] {handler : Handler C S} {definition : QueryDefinition C S}
  {criteria : C} {kind : ResultKind}

/-! ## Start and sorts -/

theorem exists_start_iff : (∃ made, handler.start kind = .ok made) ↔
    ∃ e, handler.catalog.entity? handler.config.root.entity = some e := by
  constructor
  · rintro ⟨⟨draft, root⟩, h⟩
    exact (start_eq_ok h).2.2.1
  · intro hdeclared
    obtain ⟨e, he⟩ := Catalog.exists_entity_iff.mpr hdeclared
    rw [start, Draft.create, bind_ok he]
    cases kind <;> exact ⟨_, rfl⟩

theorem exists_sorts_iff {requests : List (SortRequest S)} :
    (∃ sorts, handler.sorts kind requests = .ok sorts) ↔
      (kind = .entity → handler.config.Tolerates requests) := by
  cases kind with
  | count => simp [sorts]
  | entity => simp [sorts, HandlerConfig.resolveSorts_eq_ok_iff]

theorem exists_keys_iff {scope : Scope} {sorts : List (ConfiguredSort S × Direction)}
    (hwired : scope.Wired handler.catalog handler.tree)
    (hnodes : ∀ sort ∈ sorts, sort.1.node ∈ scope.nodes) :
    (∃ keys, (sorts.mapM fun sort => do
        sort.1.orderKey handler.catalog (← scope.scan sort.1.node) sort.2) = .ok keys) ↔
      ∀ sort ∈ sorts, handler.catalog.Declares sort.1.node.entity sort.1.column := by
  rw [exists_mapM_eq_ok]
  apply forall₂_congr
  intro sort hsort
  obtain ⟨scan, hscan, hentity⟩ := hwired.exists_scan_eq_ok (hnodes sort hsort)
  rw [bind_ok hscan, ConfiguredSort.exists_orderKey_iff, hentity]

/-! ## Restrictions -/

theorem forall_present_iff {P : Applied → Prop} : (∀ a ∈ handler.present criteria, P a) ↔
    (∀ a ∈ handler.main criteria, P a) ∧ ∀ a ∈ handler.promoted criteria, P a := by
  simp only [main, promoted, List.mem_filter]
  constructor
  · intro h
    exact ⟨fun a ha => h a ha.1, fun a ha => h a ha.1⟩
  · rintro ⟨hmain, hpromoted⟩ a ha
    cases hmany : a.node.crossesToMany with
    | false => exact hmain a ⟨ha, by simp [hmany]⟩
    | true => exact hpromoted a ⟨ha, hmany⟩

section Kept
variable (keep : JoinNode → Bool)

theorem exists_keptScope_iff {first : Scope} {modes : JoinModes}
    (hwired : first.Wired handler.catalog handler.tree) :
    (∃ last, first.withAll handler.catalog modes
        (((handler.groups criteria).filter (keep ·.node)).map (·.node)) = .ok last) ↔
      ∀ a ∈ (handler.present criteria).filter (keep ·.node), a.node.PathDeclared handler.catalog := by
  have hnodes := (handler.grouped criteria).mem_nodes_iff
    (fun _ ha => node_mem_tree_of_present ha) keep
  rw [Scope.exists_withAll_iff hwired (keptNodes_mem_tree keep)]
  simp only [hnodes, List.forall_mem_map]

theorem exists_keptPredicates_iff (huniform : ∀ a ∈ handler.present criteria, a.test.Uniform)
    {scope : Scope} {draft : Draft}
    (hwired : scope.Wired handler.catalog handler.tree)
    (hnodes : ∀ node ∈ ((handler.groups criteria).filter (keep ·.node)).map (·.node),
      node ∈ scope.nodes) :
    (∃ made, RestrictionGroup.predicates handler.catalog scope
        ((handler.groups criteria).filter (keep ·.node)) draft = .ok made) ↔
      ∀ a ∈ (handler.present criteria).filter (keep ·.node), a.Ready handler.catalog := by
  have hmembers : ∀ a, a ∈ ((handler.groups criteria).filter (keep ·.node)).flatMap (·.members) ↔
      a ∈ (handler.present criteria).filter (keep ·.node) := by
    intro a
    rw [List.mem_flatMap]
    exact (handler.grouped criteria).mem_filter_iff (fun _ ha => node_mem_tree_of_present ha) keep a
  rw [RestrictionGroup.exists_predicates_iff]
  · simp only [hmembers]
  · exact fun a ha => huniform a (List.mem_filter.mp ((hmembers a).mp ha)).1
  · exact fun _ hgroup _ ha => node_eq_of_mem_groups (List.mem_filter.mp hgroup).1 ha
  · exact fun group hgroup => hwired.exists_scan_eq_ok (hnodes _ (List.mem_map_of_mem hgroup))

end Kept

/-- Groups can be tested in a subquery if the identity of the root is declared, besides what the
restrictions use. -/
theorem exists_promote_iff (huniform : ∀ a ∈ handler.present criteria, a.test.Uniform)
    {outer : Draft} {outerRoot : Scan}
    (hroot : outerRoot.entity = handler.config.root.entity) :
    (∃ made, handler.promote outer outerRoot (handler.promotedGroups criteria) = .ok made) ↔
      (∀ a ∈ handler.promoted criteria, a.node.PathDeclared handler.catalog) ∧
        (∀ a ∈ handler.promoted criteria, a.Ready handler.catalog) ∧
        handler.catalog.Declares handler.config.root.entity handler.config.idColumn := by
  have hsteps : (∃ made, handler.promote outer outerRoot (handler.promotedGroups criteria) =
      .ok made) ↔
      (∃ e, handler.catalog.entity? handler.config.root.entity = some e) ∧
        (∀ a ∈ handler.promoted criteria, a.node.PathDeclared handler.catalog) ∧
        (∀ a ∈ handler.promoted criteria, a.Ready handler.catalog) ∧
        handler.catalog.Declares handler.config.root.entity handler.config.idColumn ∧
        handler.catalog.Declares handler.config.root.entity handler.config.idColumn := by
    apply exists_bind_iff Draft.exists_createSubquery_iff
    intro sub hsub
    obtain ⟨hfresh, hentity⟩ := Draft.createSubquery_eq_ok hsub
    have hwired : (Scope.start sub.draft handler.tree.root sub.root).Wired handler.catalog
      handler.tree := Scope.wired_start hfresh hentity
    apply exists_bind_iff (exists_keptScope_iff _ hwired)
    intro scope hscope
    obtain ⟨hgrown, hmem⟩ := Scope.withAll_grown hwired (keptNodes_mem_tree _) hscope
    apply exists_bind_iff
    · apply exists_keptPredicates_iff _ huniform (hgrown.wired hwired)
      exact fun node hnode => (hmem node).mpr (Or.inr (JoinNode.mem_flatMap_path hnode))
    · rintro ⟨draft, ps⟩ -
      simp only [exists_bind_eq_ok, exists_pure_eq_ok, and_true, exists_and_right,
        Scan.exists_column_iff, hentity, hroot]
  rw [hsteps]
  constructor
  · rintro ⟨-, hpaths, hsound, hidentity, -⟩
    exact ⟨hpaths, hsound, hidentity⟩
  · rintro ⟨hpaths, hsound, hidentity⟩
    obtain ⟨e, he, -⟩ := id hidentity
    exact ⟨⟨e, he⟩, hpaths, hsound, hidentity, hidentity⟩

theorem exists_conditions_iff (huniform : ∀ a ∈ handler.present criteria, a.test.Uniform)
    {root : Scan} {scope : Scope}
    (hwired : scope.Wired handler.catalog handler.tree)
    (hnodes : ∀ node ∈ (handler.mainGroups criteria).map (·.node), node ∈ scope.nodes)
    (hroot : root.entity = handler.config.root.entity) :
    (∃ made, handler.conditions criteria root scope = .ok made) ↔
      (∀ a ∈ handler.present criteria, a.Ready handler.catalog) ∧
        (∀ a ∈ handler.promoted criteria, a.node.PathDeclared handler.catalog) ∧
        (handler.promoted criteria ≠ [] →
          handler.catalog.Declares handler.config.root.entity handler.config.idColumn) := by
  have hsteps : (∃ made, handler.conditions criteria root scope = .ok made) ↔
      (∀ a ∈ handler.main criteria, a.Ready handler.catalog) ∧
        (handler.promoted criteria ≠ [] →
          (∀ a ∈ handler.promoted criteria, a.node.PathDeclared handler.catalog) ∧
          (∀ a ∈ handler.promoted criteria, a.Ready handler.catalog) ∧
          handler.catalog.Declares handler.config.root.entity handler.config.idColumn) := by
    apply exists_bind_iff (exists_keptPredicates_iff (!·.crossesToMany) huniform hwired hnodes)
    rintro ⟨next, ps⟩ -
    have hpromote : (∃ made, handler.promote next root (handler.promotedGroups criteria) =
        .ok made) ↔ _ := exists_promote_iff huniform hroot
    rw [ne_eq, ← promotedGroups_eq_nil_iff, ← hpromote]
    cases handler.promotedGroups criteria with
    | nil => simp [exists_pure_eq_ok]
    | cons group rest =>
      simp only [reduceCtorEq, not_false_eq_true, forall_const, exists_bind_eq_ok,
        exists_pure_eq_ok, and_true]
  rw [hsteps, forall_present_iff]
  constructor
  · rintro ⟨hmain, hpromoted⟩
    by_cases hnone : handler.promoted criteria = []
    · rw [hnone]
      exact ⟨⟨hmain, by simp⟩, by simp, fun h => absurd rfl h⟩
    · obtain ⟨hpaths, hsound, hidentity⟩ := hpromoted hnone
      exact ⟨⟨hmain, hsound⟩, hpaths, fun _ => hidentity⟩
  · rintro ⟨⟨hmain, hsound⟩, hpaths, hidentity⟩
    exact ⟨hmain, fun hsome => ⟨hpaths, hsound, hidentity hsome⟩⟩

/-! ## Compilation -/

/-- What a query uses is declared: the entity of its root, the relations on the way to its present
restrictions and to its sorts, and the columns of these. The identity of the root is asked for only
to test promoted restrictions. -/
structure Compilable (handler : Handler C S) (criteria : C)
    (sorts : List (ConfiguredSort S × Direction)) : Prop where
  root : ∃ e, handler.catalog.entity? handler.config.root.entity = some e
  paths : ∀ node ∈ (handler.present criteria).map (·.node) ++ sorts.map (·.1.node),
    node.PathDeclared handler.catalog
  restrictions : ∀ a ∈ handler.present criteria, a.Sound handler.catalog
  identity : (∃ a ∈ handler.present criteria, a.node.crossesToMany = true) →
    handler.catalog.Declares handler.config.root.entity handler.config.idColumn
  sorts : ∀ sort ∈ sorts, handler.catalog.Declares sort.1.node.entity sort.1.column

theorem promoted_ne_nil_iff : handler.promoted criteria ≠ [] ↔
    ∃ a ∈ handler.present criteria, a.node.crossesToMany = true := by
  simp [promoted]

/-- What a query uses is declared, apart from what its restrictions themselves ask for. -/
structure Declared (handler : Handler C S) (criteria : C)
    (sorts : List (ConfiguredSort S × Direction)) : Prop where
  root : ∃ e, handler.catalog.entity? handler.config.root.entity = some e
  paths : ∀ node ∈ (handler.present criteria).map (·.node) ++ sorts.map (·.1.node),
    node.PathDeclared handler.catalog
  identity : (∃ a ∈ handler.present criteria, a.node.crossesToMany = true) →
    handler.catalog.Declares handler.config.root.entity handler.config.idColumn
  sorts : ∀ sort ∈ sorts, handler.catalog.Declares sort.1.node.entity sort.1.column

theorem compilable_iff_declared {sorts : List (ConfiguredSort S × Direction)} :
    handler.Compilable criteria sorts ↔ handler.Declared criteria sorts ∧
      ∀ a ∈ handler.present criteria, a.Sound handler.catalog :=
  ⟨fun h => ⟨⟨h.root, h.paths, h.identity, h.sorts⟩, h.restrictions⟩,
    fun ⟨h, hsound⟩ => ⟨h.root, h.paths, hsound, h.identity, h.sorts⟩⟩

theorem exists_compile_iff_of_uniform
    (huniform : ∀ a ∈ handler.present definition.criteria, a.test.Uniform) :
    (∃ draft, handler.compile kind definition = .ok draft) ↔
      (kind = .entity → handler.config.Tolerates definition.sorts) ∧
        handler.Declared definition.criteria (handler.sortsOf kind definition.sorts) ∧
        ∀ a ∈ handler.present definition.criteria, a.Ready handler.catalog := by
  have hsteps : (∃ draft, handler.compile kind definition = .ok draft) ↔
      (∃ e, handler.catalog.entity? handler.config.root.entity = some e) ∧
        (kind = .entity → handler.config.Tolerates definition.sorts) ∧
        (∀ a ∈ handler.main definition.criteria, a.node.PathDeclared handler.catalog) ∧
        (∀ sort ∈ handler.sortsOf kind definition.sorts, sort.1.node.PathDeclared handler.catalog) ∧
        ((∀ a ∈ handler.present definition.criteria, a.Ready handler.catalog) ∧
          (∀ a ∈ handler.promoted definition.criteria, a.node.PathDeclared handler.catalog) ∧
          (handler.promoted definition.criteria ≠ [] →
            handler.catalog.Declares handler.config.root.entity handler.config.idColumn)) ∧
        ∀ sort ∈ handler.sortsOf kind definition.sorts,
          handler.catalog.Declares sort.1.node.entity sort.1.column := by
    -- each step succeeds under a condition that what it is given, once made, cannot change
    apply exists_bind_iff exists_start_iff
    rintro ⟨draft, root⟩ hstart
    obtain ⟨hfresh, hentity, -⟩ := start_eq_ok hstart
    apply exists_bind_iff exists_sorts_iff
    intro sorts hsorts
    rw [← sorts_eq_ok hsorts]
    have hsortNodes := sortNodes_mem_tree hsorts
    have hwired : (Scope.start draft handler.tree.root root).Wired handler.catalog handler.tree :=
      Scope.wired_start hfresh hentity
    apply exists_bind_iff (exists_keptScope_iff (!·.crossesToMany) hwired)
    intro middle hmiddle
    obtain ⟨hgrownMain, hmemMain⟩ :=
      Scope.withAll_grown hwired (keptNodes_mem_tree (!·.crossesToMany)) hmiddle
    have hwiredMain := hgrownMain.wired hwired
    apply exists_bind_iff
    · rw [Scope.exists_withAll_iff hwiredMain hsortNodes, List.forall_mem_map]
    intro scope hscope
    obtain ⟨hgrownSort, hmemSort⟩ := Scope.withAll_grown hwiredMain hsortNodes hscope
    have hwiredSort := hgrownSort.wired hwiredMain
    apply exists_bind_iff
    · apply exists_conditions_iff huniform hwiredSort ?_ hentity
      intro node hnode
      have hmiddle := (hmemMain node).mpr (Or.inr (JoinNode.mem_flatMap_path hnode))
      exact (hmemSort node).mpr (Or.inl hmiddle)
    rintro ⟨last, ps⟩ -
    have hsortScans : ∀ sort ∈ sorts, sort.1.node ∈ scope.nodes := by
      intro sort hsort
      exact (hmemSort _).mpr (Or.inr (JoinNode.mem_flatMap_path (List.mem_map_of_mem hsort)))
    rw [← exists_keys_iff hwiredSort hsortScans]
    simp only [exists_bind_eq_ok, exists_pure_eq_ok, and_true]
  rw [hsteps]
  constructor
  · rintro ⟨hroot, htolerates, hmain, hsorts, ⟨hready, hpromoted, hidentity⟩, hcolumns⟩
    refine ⟨htolerates, ⟨hroot, ?_, ?_, hcolumns⟩, hready⟩
    · rw [List.forall_mem_append, List.forall_mem_map, List.forall_mem_map]
      exact ⟨forall_present_iff.mpr ⟨hmain, hpromoted⟩, hsorts⟩
    · rwa [← promoted_ne_nil_iff]
  · rintro ⟨htolerates, hdeclared, hready⟩
    have hpaths := hdeclared.paths
    rw [List.forall_mem_append, List.forall_mem_map, List.forall_mem_map, forall_present_iff]
      at hpaths
    have hidentity := hdeclared.identity
    rw [← promoted_ne_nil_iff] at hidentity
    exact ⟨hdeclared.root, htolerates, hpaths.1.1, hpaths.2, ⟨hready, hpaths.1.2, hidentity⟩,
      hdeclared.sorts⟩

theorem exists_compile_iff (hstock : handler.config.Stock) :
    (∃ draft, handler.compile kind definition = .ok draft) ↔
      (kind = .entity → handler.config.Tolerates definition.sorts) ∧
        handler.Compilable definition.criteria (handler.sortsOf kind definition.sorts) := by
  have hready : (∀ a ∈ handler.present definition.criteria, a.Ready handler.catalog) ↔
      ∀ a ∈ handler.present definition.criteria, a.Sound handler.catalog :=
    forall₂_congr fun a ha => Applied.ready_iff_sound (isStock_of_present hstock ha)
  rw [exists_compile_iff_of_uniform
    fun a ha => Test.uniform_of_isStock (isStock_of_present hstock ha), hready,
    compilable_iff_declared]

/-- A definition compiles to a query for entities exactly if its sorts are known or ignored and all
that it uses is declared, and to a query that counts exactly if this holds without sorts. -/
theorem compiles_iff (hstock : handler.config.Stock) (definition : QueryDefinition C S) :
    ((∃ plan, handler.entityPlan definition = .ok plan) ↔
        handler.config.Tolerates definition.sorts ∧
          handler.Compilable definition.criteria (handler.config.known definition.sorts)) ∧
      ((∃ plan, handler.countPlan definition = .ok plan) ↔
        handler.Compilable definition.criteria []) := by
  rw [entityPlan, countPlan, exists_map_eq_ok, exists_map_eq_ok, exists_compile_iff hstock,
    exists_compile_iff hstock]
  simp [sortsOf]

end Handler

namespace People

/-- Looks for people by a column that businesses do not have. -/
def byTurnover : Handler Unit PersonSort :=
  ⟨catalog, fixedSearch [⟨Node.business, "turnover", .notNull true⟩], rfl⟩

theorem stock_byTurnover : byTurnover.config.Stock := stock_fixedSearch (by decide)

/-- What the first search uses is declared and it compiles; the turnover is not declared and does not
compile. -/
theorem compiles_iff_of_employedParentsOfM :
    employedParentsOfM.config.Stock ∧
      (∃ plan, employedParentsOfM.entityPlan byOwner = .ok plan) ∧
      employedParentsOfM.Compilable () (employedParentsOfM.config.known byOwner.sorts) ∧
      (∃ plan, employedParentsOfM.countPlan byOwner = .ok plan) ∧
      employedParentsOfM.Compilable () [] ∧
      byTurnover.config.Stock ∧
      byTurnover.countPlan byOwner = .error (.unknownColumn "Business" "turnover") ∧
      ¬byTurnover.Compilable () [] := by
  obtain ⟨hentity, hcount⟩ := Handler.compiles_iff stock_employedParentsOfM byOwner
  have herror : byTurnover.countPlan byOwner = .error (.unknownColumn "Business" "turnover") := rfl
  refine ⟨stock_employedParentsOfM, ⟨_, rfl⟩, (hentity.mp ⟨_, rfl⟩).2, ⟨_, rfl⟩,
    hcount.mp ⟨_, rfl⟩, stock_byTurnover, herror, ?_⟩
  intro hcompilable
  obtain ⟨plan, hplan⟩ := (Handler.compiles_iff stock_byTurnover byOwner).2.mpr hcompilable
  rw [herror] at hplan
  cases hplan

end People

end CriteriaQuery
