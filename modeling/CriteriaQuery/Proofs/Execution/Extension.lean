import CriteriaQuery.Execution.Joined
import CriteriaQuery.Plan.Draft
import CriteriaQuery.Proofs.Outcome

/-! The join stage without its failures. A plan whose joins hang on earlier aliases and follow
declared relations is joined without error (`SelectPlan.joined_eq`), and what it is joined to is a
list of bindings for each root row, the rows in order. -/
namespace CriteriaQuery
open Outcome
set_option autoImplicit false

/-! ## Reading rows and bindings -/

/-- An expression that is a column of one of the aliases. -/
def Scalar.ReadsFrom (aliases : List String) : Scalar → Prop
  | .column aliasName _ => aliasName ∈ aliases
  | .count _ => False

/-- The value of a column, null where there is no such field. -/
def Row.value (row : Row) (column : String) : Value := (row.get? column).getD .null

theorem Value.equal_null (v : Value) : v.equal .null = false := by
  cases v <;> simp [Value.equal, Value.int?, Value.float?]

theorem Value.null_equal (v : Value) : Value.null.equal v = false := by
  cases v <;> rfl

theorem Value.isNull_of_equal {v w : Value} (h : v.equal w = true) : v.isNull = false := by
  cases v with
  | null =>
    rw [null_equal] at h
    cases h
  | _ => rfl

/-- Rows are related if their keys are equal; null is no key. -/
theorem Relation.relates_iff {relation : Relation} {source target : Row} :
    relation.relates source target = true ↔
      (source.value relation.sourceField).equal (target.value relation.targetField) = true := by
  unfold Relation.relates Row.value
  cases source.get? relation.sourceField with
  | none => simp [Value.null_equal]
  | some key =>
    cases target.get? relation.targetField with
    | none => simp [Value.equal_null]
    | some value =>
      simp only [Option.getD_some, Bool.and_eq_true, Bool.not_eq_true', and_iff_right_iff_imp]
      exact Value.isNull_of_equal

namespace Binding

def aliases (binding : Binding) : List String := binding.slots.map (·.1)

/-- The row of an alias, `none` also where the alias is not bound. -/
def row? (binding : Binding) (aliasName : String) : Option Row :=
  (binding.slots.find? (·.1 = aliasName)).bind (·.2)

/-- The value of an expression, null where it has none. -/
def read (binding : Binding) : Scalar → Value
  | .column aliasName name => ((binding.row? aliasName).bind (·.get? name)).getD .null
  | .count _ => .null

@[simp] theorem aliases_root (aliasName : String) (row : Row) :
    (Binding.root aliasName row).aliases = [aliasName] := rfl

@[simp] theorem aliases_bind (binding : Binding) (aliasName : String) (row : Option Row) :
    (binding.bind aliasName row).aliases = binding.aliases ++ [aliasName] := by
  simp [aliases, Binding.bind]

theorem find?_isSome {binding : Binding} {aliasName : String} (h : aliasName ∈ binding.aliases) :
    ∃ row, binding.slots.find? (·.1 = aliasName) = some (aliasName, row) := by
  obtain ⟨⟨name, row⟩, hmem, rfl⟩ := List.mem_map.mp h
  obtain ⟨slot, hslot⟩ := Option.isSome_iff_exists.mp
    (List.find?_isSome (p := fun slot => slot.1 = name).mpr ⟨_, hmem, by simp⟩)
  have hname : slot.1 = name := by simpa using List.find?_some hslot
  refine ⟨slot.2, ?_⟩
  rw [hslot, ← hname]

theorem row_eq {binding : Binding} {aliasName : String} (h : aliasName ∈ binding.aliases) :
    binding.row aliasName = .ok (binding.row? aliasName) := by
  obtain ⟨row, hrow⟩ := find?_isSome h
  unfold Binding.row row?
  rw [hrow]
  rfl

theorem scalar_eq {binding : Binding} {e : Scalar} (h : e.ReadsFrom binding.aliases) :
    binding.scalar e = .ok (binding.read e) := by
  cases e with
  | column aliasName name =>
    rw [scalar, value, row_eq h]
    rfl
  | count => exact h.elim

end Binding

/-! ## Links -/

def Join.scan (join : Join) : Scan := ⟨join.aliasName, join.entity⟩

def SelectPlan.rootScan (plan : SelectPlan) : Scan := ⟨plan.rootAlias, plan.rootEntity⟩

/-- The scans of a plan, the root first. -/
def SelectPlan.scans (plan : SelectPlan) : List Scan := plan.rootScan :: plan.joins.map Join.scan

def SelectPlan.aliases (plan : SelectPlan) : List String := plan.scans.map (·.aliasName)

/-- The entity that an alias reads among scans; the first of them counts. -/
def Scan.entityIn? (scans : List Scan) (aliasName : String) : Option String :=
  (scans.find? (·.aliasName = aliasName)).map (·.entity)

/-- A join with the relation that it follows. -/
structure Link where
  join : Join
  relation : Relation

/-- The link of a join behind scans. The join has to hang on one of them. -/
def Join.link? (catalog : Catalog) (scans : List Scan) (join : Join) : Option Link := do
  let entity ← Scan.entityIn? scans join.parentAlias
  let relation ← catalog.relation? entity join.relation
  return ⟨join, relation⟩

def Join.links? (catalog : Catalog) : List Scan → List Join → Option (List Link)
  | _, [] => some []
  | scans, join :: rest => do
    let link ← join.link? catalog scans
    let links ← links? catalog (scans ++ [join.scan]) rest
    return link :: links

def SelectPlan.links? (plan : SelectPlan) (catalog : Catalog) : Option (List Link) :=
  Join.links? catalog [plan.rootScan] plan.joins

theorem Join.link?_eq_some {catalog : Catalog} {scans : List Scan} {join : Join} {link : Link} :
    join.link? catalog scans = some link ↔ ∃ entity relation,
      Scan.entityIn? scans join.parentAlias = some entity ∧
      catalog.relation? entity join.relation = some relation ∧ link = ⟨join, relation⟩ := by
  simp only [Join.link?, bind, Option.bind_eq_some_iff, pure, Option.some.injEq]
  constructor
  · rintro ⟨entity, hentity, relation, hrelation, rfl⟩
    exact ⟨entity, relation, hentity, hrelation, rfl⟩
  · rintro ⟨entity, relation, hentity, hrelation, rfl⟩
    exact ⟨entity, hentity, relation, hrelation, rfl⟩

theorem Join.links?_cons {catalog : Catalog} {scans : List Scan} {join : Join} {rest : List Join}
    {links : List Link} : Join.links? catalog scans (join :: rest) = some links ↔ ∃ link others,
      join.link? catalog scans = some link ∧
      Join.links? catalog (scans ++ [join.scan]) rest = some others ∧ links = link :: others := by
  simp only [Join.links?, bind, Option.bind_eq_some_iff, pure, Option.some.injEq]
  constructor
  · rintro ⟨link, hlink, others, hothers, rfl⟩
    exact ⟨link, others, hlink, hothers, rfl⟩
  · rintro ⟨link, others, hlink, hothers, rfl⟩
    exact ⟨link, hlink, others, hothers, rfl⟩

theorem Join.links?_concat {catalog : Catalog} {scans : List Scan} {joins : List Join}
    {links : List Link} {join : Join} {link : Link}
    (hlinks : Join.links? catalog scans joins = some links)
    (hlink : join.link? catalog (scans ++ joins.map Join.scan) = some link) :
    Join.links? catalog scans (joins ++ [join]) = some (links ++ [link]) := by
  induction joins generalizing scans links with
  | nil =>
    cases hlinks
    rw [List.map_nil, List.append_nil] at hlink
    exact Join.links?_cons.mpr ⟨link, [], hlink, rfl, rfl⟩
  | cons first rest ih =>
    obtain ⟨head, others, hhead, hothers, rfl⟩ := Join.links?_cons.mp hlinks
    have hrest := ih hothers (by simpa using hlink)
    exact Join.links?_cons.mpr ⟨head, others ++ [link], hhead, hrest, rfl⟩

/-! ## Entities of aliases -/

theorem Scan.mem_of_entityIn? {scans : List Scan} {aliasName entity : String}
    (h : Scan.entityIn? scans aliasName = some entity) : (⟨aliasName, entity⟩ : Scan) ∈ scans := by
  obtain ⟨scan, hscan, rfl⟩ := Option.map_eq_some_iff.mp h
  have hname : scan.aliasName = aliasName := by simpa using List.find?_some hscan
  rw [← hname]
  exact List.mem_of_find?_eq_some hscan

/-- Where no two scans share an alias, the alias of a scan reads its entity. -/
theorem Scan.entityIn?_of_mem {scans : List Scan} {scan : Scan}
    (hnodup : (scans.map (·.aliasName)).Nodup) (h : scan ∈ scans) :
    Scan.entityIn? scans scan.aliasName = some scan.entity := by
  induction scans with
  | nil => exact (List.not_mem_nil h).elim
  | cons first rest ih =>
    rw [List.map_cons, List.nodup_cons] at hnodup
    rcases List.mem_cons.mp h with rfl | hrest
    · simp [entityIn?]
    · have hne : first.aliasName ≠ scan.aliasName :=
        fun heq => hnodup.1 (heq ▸ List.mem_map_of_mem hrest)
      have := ih hnodup.2 hrest
      simpa [entityIn?, hne] using this

theorem Scan.entityIn?_append {scans : List Scan} {aliasName entity : String} (later : List Scan)
    (h : Scan.entityIn? scans aliasName = some entity) :
    Scan.entityIn? (scans ++ later) aliasName = some entity := by
  obtain ⟨scan, hscan, rfl⟩ := Option.map_eq_some_iff.mp h
  unfold entityIn?
  rw [List.find?_append, hscan]
  rfl

theorem SelectPlan.entityOf_eq {plan : SelectPlan} {aliasName entity : String}
    (h : Scan.entityIn? plan.scans aliasName = some entity) :
    plan.entityOf aliasName = .ok entity := by
  have hfind : (plan.joins.map Join.scan).find? (·.aliasName = aliasName) =
      (plan.join? aliasName).map Join.scan := by
    rw [List.find?_map]
    rfl
  unfold entityOf
  by_cases hroot : plan.rootAlias = aliasName
  · rw [if_pos hroot]
    simpa [Scan.entityIn?, scans, rootScan, hroot] using h
  · have hne : ¬plan.rootScan.aliasName = aliasName := hroot
    rw [Scan.entityIn?, scans, List.find?_cons_of_neg (by simpa using hne), hfind,
      Option.map_map] at h
    obtain ⟨join, hjoin, rfl⟩ := Option.map_eq_some_iff.mp h
    rw [if_neg hroot, hjoin]
    rfl

/-! ## Extending bindings -/

def Link.rows (store : Store) (link : Link) (binding : Binding) : List Row :=
  ((binding.row? link.join.parentAlias).map (link.relation.related store)).getD []

/-- What a link makes of one binding. -/
def Link.extend (store : Store) (link : Link) (binding : Binding) : List Binding :=
  match link.rows store binding, link.join.type with
  | [], .left => [binding.bind link.join.aliasName none]
  | rows, _ => rows.map fun row => binding.bind link.join.aliasName (some row)

def Link.extendAll (store : Store) (links : List Link) (bindings : List Binding) : List Binding :=
  links.foldl (fun bindings link => bindings.flatMap (link.extend store)) bindings

/-- The bindings that a plan makes of a root row. -/
def SelectPlan.bindingsFrom (plan : SelectPlan) (catalog : Catalog) (store : Store) (row : Row) :
    List Binding :=
  match plan.links? catalog with
  | some links => Link.extendAll store links [Binding.root plan.rootAlias row]
  | none => []

theorem Link.extendAll_cons (store : Store) (link : Link) (links : List Link)
    (bindings : List Binding) : Link.extendAll store (link :: links) bindings =
      Link.extendAll store links (bindings.flatMap (link.extend store)) := rfl

theorem Link.extendAll_concat (store : Store) (links : List Link) (link : Link)
    (bindings : List Binding) : Link.extendAll store (links ++ [link]) bindings =
      (Link.extendAll store links bindings).flatMap (link.extend store) := by
  simp [Link.extendAll]

/-- Bindings are extended independently of each other. -/
theorem Link.extendAll_eq_flatMap (store : Store) (links : List Link) (bindings : List Binding) :
    Link.extendAll store links bindings =
      bindings.flatMap fun binding => Link.extendAll store links [binding] := by
  induction links generalizing bindings with
  | nil => simp [Link.extendAll]
  | cons link links ih =>
    rw [Link.extendAll_cons, ih, List.flatMap_assoc]
    congr 1
    funext binding
    rw [Link.extendAll_cons, ih]
    simp

theorem Link.aliases_of_mem_extend {store : Store} {link : Link} {binding longer : Binding}
    (h : longer ∈ link.extend store binding) :
    longer.aliases = binding.aliases ++ [link.join.aliasName] := by
  unfold Link.extend at h
  split at h
  · rw [List.mem_singleton] at h
    subst h
    exact Binding.aliases_bind ..
  · obtain ⟨row, -, rfl⟩ := List.mem_map.mp h
    exact Binding.aliases_bind ..

/-! ## The join stage -/

theorem Join.extend_eq {join : Join} {relation : Relation} {binding : Binding} (store : Store)
    (h : join.parentAlias ∈ binding.aliases) :
    join.extend relation store binding = .ok ((⟨join, relation⟩ : Link).extend store binding) := by
  rw [Join.extend, Binding.row_eq h]
  rfl

/-- Joins that are linked behind the scans of bindings extend all of these. -/
theorem SelectPlan.foldlM_joinStep {plan : SelectPlan} {catalog : Catalog} (store : Store)
    {scans : List Scan} {joins : List Join} {links : List Link} {bindings : List Binding}
    (hscans : plan.scans = scans ++ joins.map Join.scan)
    (hlinks : Join.links? catalog scans joins = some links)
    (haliases : ∀ binding ∈ bindings, binding.aliases = scans.map (·.aliasName)) :
    joins.foldlM (plan.joinStep catalog store) bindings =
      .ok (Link.extendAll store links bindings) := by
  induction joins generalizing scans links bindings with
  | nil =>
    cases hlinks
    rfl
  | cons join rest ih =>
    obtain ⟨link, others, hlink, hothers, rfl⟩ := Join.links?_cons.mp hlinks
    obtain ⟨entity, relation, hentity, hrelation, rfl⟩ := Join.link?_eq_some.mp hlink
    have hparent : join.parentAlias ∈ scans.map (·.aliasName) :=
      List.mem_map.mpr ⟨_, Scan.mem_of_entityIn? hentity, rfl⟩
    have hof : plan.entityOf join.parentAlias = .ok entity := by
      apply entityOf_eq
      rw [hscans]
      exact Scan.entityIn?_append _ hentity
    have hmap : bindings.mapM (join.extend relation store) =
        .ok (bindings.map ((⟨join, relation⟩ : Link).extend store)) :=
      mapM_eq_map fun binding hb => Join.extend_eq store (by rw [haliases binding hb]; exact hparent)
    have hstep : plan.joinStep catalog store bindings join =
        .ok (bindings.flatMap ((⟨join, relation⟩ : Link).extend store)) := by
      rw [joinStep, bind_ok hof, Catalog.relation, hrelation, bind_ok rfl, bind_ok hmap,
        List.flatMap_def]
      rfl
    rw [List.foldlM_cons, bind_ok hstep, Link.extendAll_cons]
    have hrest : plan.scans = (scans ++ [join.scan]) ++ rest.map Join.scan := by
      rw [hscans]
      simp
    apply ih hrest hothers
    intro longer hlonger
    obtain ⟨binding, hb, hlonger⟩ := List.mem_flatMap.mp hlonger
    rw [Link.aliases_of_mem_extend hlonger, haliases binding hb]
    simp [Join.scan]

theorem SelectPlan.joined_eq {plan : SelectPlan} {catalog : Catalog} (store : Store)
    {entity : Entity} {links : List Link} (hroot : catalog.entity? plan.rootEntity = some entity)
    (hlinks : plan.links? catalog = some links) :
    plan.joined catalog store =
      .ok ((store.rows plan.rootEntity).flatMap (plan.bindingsFrom catalog store)) := by
  have haliases : ∀ binding ∈ (store.rows plan.rootEntity).map (Binding.root plan.rootAlias),
      binding.aliases = [plan.rootScan].map (·.aliasName) := by
    intro binding hb
    obtain ⟨row, -, rfl⟩ := List.mem_map.mp hb
    rfl
  have hfold := plan.foldlM_joinStep store rfl hlinks haliases
  rw [joined, Catalog.entity, hroot, bind_ok rfl, hfold, Link.extendAll_eq_flatMap,
    List.flatMap_map]
  congr 2
  funext row
  rw [bindingsFrom, hlinks]

end CriteriaQuery
