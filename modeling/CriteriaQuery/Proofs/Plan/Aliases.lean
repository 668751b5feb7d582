import CriteriaQuery.People.Model
import CriteriaQuery.Proofs.Plan.Action
import CriteriaQuery.Proofs.Text.Digits
import Mathlib.Data.List.Induction

/-! The aliases of a query and of all subqueries begun for it, at any depth, while actions on any of
them succeed and fail in any order. An alias can be read back: the numbers of the subqueries that
lead to its query, then its own number (`Draft.aliasOf_stemAt_inj`). Numbers are used one after the
other, so that no alias is handed out twice (`Drafting.nodup_aliases_of_run`). -/
namespace CriteriaQuery
open Outcome
set_option autoImplicit false

namespace Draft

/-! ## Reading aliases back -/

/-- The stem of the query that the numbers of subqueries lead to, the outermost first. -/
def stemAt (path : List Nat) : String := path.foldl subqueryStem mainStem

def stemPart (n : Nat) : List Char := 'q' :: Text.digitsOf n ++ ['_']

theorem subqueryStem_stemAt (path : List Nat) (n : Nat) :
    subqueryStem (stemAt path) n = stemAt (path ++ [n]) := by simp [stemAt]

theorem toList_subqueryStem (stem : String) (n : Nat) :
    (subqueryStem stem n).toList = stem.toList ++ stemPart n := by
  simp [subqueryStem, numberText, stemPart]

theorem toList_stemAt (path : List Nat) :
    (stemAt path).toList = mainStem.toList ++ path.flatMap stemPart := by
  induction path using List.reverseRecOn with
  | nil => simp [stemAt]
  | append_singleton path n ih =>
    rw [← subqueryStem_stemAt, toList_subqueryStem, ih, List.flatMap_append, List.append_assoc,
      List.flatMap_singleton]

theorem digitsOf_injective : Function.Injective Text.digitsOf := by
  intro m n h
  apply numberText_injective
  rw [numberText, numberText, h]

/-- No digits begin like a number of a subquery. -/
theorem digitsOf_ne_stemPart (m n : Nat) (rest : List Char) :
    Text.digitsOf m ≠ stemPart n ++ rest := by
  intro h
  have hmem : 'q' ∈ Text.digitsOf m := by
    rw [h]
    exact List.mem_cons_self
  have hdigit := Text.isDigit_of_mem_digitsOf hmem
  simp at hdigit

/-- The number of a subquery ends where its digits do. -/
theorem stemPart_append_inj {m n : Nat} {rest others : List Char}
    (h : stemPart m ++ rest = stemPart n ++ others) : m = n ∧ rest = others := by
  have htake : ∀ k more, (Text.digitsOf k ++ '_' :: more).takeWhile Char.isDigit =
      Text.digitsOf k := by
    intro k more
    exact Text.takeWhile_append_of_head (fun c hc => Text.isDigit_of_mem_digitsOf hc)
      (Text.endsDigits_cons more rfl)
  have hdigits : Text.digitsOf m ++ '_' :: rest = Text.digitsOf n ++ '_' :: others := by
    simpa [stemPart] using h
  have hnumber : m = n := by
    apply digitsOf_injective
    rw [← htake m rest, hdigits, htake]
  subst hnumber
  have hrest := List.append_cancel_left hdigits
  rw [List.cons.injEq] at hrest
  exact ⟨rfl, hrest.2⟩

theorem stemParts_inj {path other : List Nat} {m n : Nat}
    (h : path.flatMap stemPart ++ Text.digitsOf m = other.flatMap stemPart ++ Text.digitsOf n) :
    path = other ∧ m = n := by
  induction path generalizing other with
  | nil =>
    cases other with
    | nil => exact ⟨rfl, digitsOf_injective (by simpa using h)⟩
    | cons k rest =>
      rw [List.flatMap_cons, List.append_assoc] at h
      exact absurd h (digitsOf_ne_stemPart _ _ _)
  | cons j path ih =>
    cases other with
    | nil =>
      rw [List.flatMap_cons, List.append_assoc] at h
      exact absurd h.symm (digitsOf_ne_stemPart _ _ _)
    | cons k rest =>
      rw [List.flatMap_cons, List.flatMap_cons, List.append_assoc, List.append_assoc] at h
      obtain ⟨hhead, htail⟩ := stemPart_append_inj h
      obtain ⟨hpath, hnumber⟩ := ih htail
      exact ⟨by rw [hhead, hpath], hnumber⟩

theorem aliasOf_stemAt_inj {path other : List Nat} {m n : Nat} :
    aliasOf (stemAt path) m = aliasOf (stemAt other) n ↔ path = other ∧ m = n := by
  constructor
  · intro h
    have hlist := congrArg String.toList h
    simp only [aliasOf, numberText, String.toList_append, String.toList_ofList, toList_stemAt,
      List.append_assoc] at hlist
    exact stemParts_inj (List.append_cancel_left hlist)
  · rintro ⟨rfl, rfl⟩
    rfl

theorem stemAt_injective : Function.Injective stemAt := by
  intro path other h
  have halias : aliasOf (stemAt path) 0 = aliasOf (stemAt other) 0 := by rw [h]
  exact (aliasOf_stemAt_inj.mp halias).1

end Draft

/-! ## Making queries -/

/-- A query and the subqueries begun for it, in the order in which they were, with the scans that
have been handed out. -/
structure Drafting where
  drafts : List Draft
  scans : List Scan

namespace Drafting

def start (draft : Draft) (root : Scan) : Drafting := ⟨[draft], [root]⟩

/-- Does something to the query of a number. What a failure leaves of the query is kept. Nothing is
done to a query that has not been made. -/
def step (catalog : Catalog) (drafting : Drafting) (query : Nat) (action : Draft.Action) :
    Except Error Unit × Drafting :=
  match drafting.drafts[query]? with
  | none => (.ok (), drafting)
  | some draft =>
    match (action.perform catalog).on draft with
    | (.ok yield, later) => (.ok (),
      ⟨drafting.drafts.set query later ++ yield.begun, drafting.scans ++ yield.scans⟩)
    | (.error e, later) => (.error e, ⟨drafting.drafts.set query later, drafting.scans⟩)

def run (catalog : Catalog) (drafting : Drafting) : List (Nat × Draft.Action) → Drafting
  | [] => drafting
  | (query, action) :: rest => run catalog (drafting.step catalog query action).2 rest

/-- A step leaves all as it is, or it succeeds and replaces one query by what comes of an action. -/
theorem step_cases (catalog : Catalog) (drafting : Drafting) (query : Nat) (action : Draft.Action) :
    (drafting.step catalog query action).2 = drafting ∨
      ∃ before draft after later yield, drafting.drafts = before ++ draft :: after ∧
        Draft.Action.Numbers draft later yield ∧ drafting.step catalog query action =
          (.ok (), ⟨before ++ later :: after ++ yield.begun, drafting.scans ++ yield.scans⟩) := by
  unfold step
  cases hquery : drafting.drafts[query]? with
  | none => exact Or.inl rfl
  | some draft =>
    obtain ⟨hlt, hget⟩ := List.getElem?_eq_some_iff.mp hquery
    rcases action.perform_cases catalog draft with ⟨e, hon⟩ | ⟨yield, later, hon, hnumbers⟩
    · left
      have hset : drafting.drafts.set query draft = drafting.drafts := by
        rw [← hget, List.set_getElem_self]
      simp only [hon, hset]
    · right
      have hsplit : drafting.drafts =
          drafting.drafts.take query ++ draft :: drafting.drafts.drop (query + 1) := by
        rw [← hget, List.getElem_cons_drop, List.take_append_drop]
      refine ⟨_, draft, _, later, yield, hsplit, hnumbers, ?_⟩
      simp only [hon, List.set_eq_take_append_cons_drop, if_pos hlt]

/-- A step that fails changes nothing, neither the plans nor what comes of later steps. -/
theorem step_of_error {catalog : Catalog} {drafting : Drafting} {query : Nat}
    {action : Draft.Action} {e : Error} (h : (drafting.step catalog query action).1 = .error e) :
    (drafting.step catalog query action).2 = drafting := by
  rcases drafting.step_cases catalog query action with
    hsame | ⟨before, draft, after, later, yield, -, -, hstep⟩
  · exact hsame
  · rw [hstep] at h
    cases h

/-! ## Numbers of subqueries -/

/-- Queries by the numbers that lead to them, with how many subqueries each of them has: those of a
query are numbered without gaps. -/
structure Paths (numbers : List (List Nat × Nat)) : Prop where
  nodup : (numbers.map Prod.fst).Nodup
  mem_iff : ∀ path n, path ++ [n] ∈ numbers.map Prod.fst ↔ ∃ k, (path, k) ∈ numbers ∧ n < k

theorem eq_of_mem_of_nodup {numbers : List (List Nat × Nat)} (h : (numbers.map Prod.fst).Nodup)
    {path : List Nat} {j k : Nat} (hj : (path, j) ∈ numbers) (hk : (path, k) ∈ numbers) :
    j = k := by
  have hpair := List.inj_on_of_nodup_map h hj hk rfl
  rw [Prod.mk.injEq] at hpair
  exact hpair.2

theorem Paths.mem_iff_lt {numbers : List (List Nat × Nat)} (h : Paths numbers) {path : List Nat}
    {k : Nat} (hk : (path, k) ∈ numbers) (n : Nat) :
    path ++ [n] ∈ numbers.map Prod.fst ↔ n < k := by
  rw [h.mem_iff]
  constructor
  · rintro ⟨j, hj, hlt⟩
    rwa [eq_of_mem_of_nodup h.nodup hk hj]
  · intro hlt
    exact ⟨k, hk, hlt⟩

/-- The next number of a query is free, and using it leaves no gap. -/
theorem Paths.begin {before after : List (List Nat × Nat)} {path : List Nat} {k : Nat}
    (h : Paths (before ++ (path, k) :: after)) :
    Paths (before ++ (path, k + 1) :: after ++ [(path ++ [k], 0)]) := by
  have hself : (path, k) ∈ before ++ (path, k) :: after := by simp
  have hkeys : (before ++ (path, k + 1) :: after ++ [(path ++ [k], 0)]).map Prod.fst =
      (before ++ (path, k) :: after).map Prod.fst ++ [path ++ [k]] := by simp
  have hnodup : ((before ++ (path, k + 1) :: after ++ [(path ++ [k], 0)]).map Prod.fst).Nodup := by
    have hnew : path ++ [k] ∉ (before ++ (path, k) :: after).map Prod.fst := by
      rw [h.mem_iff_lt hself]
      exact Nat.lt_irrefl k
    rw [hkeys, ← List.concat_eq_append]
    exact h.nodup.concat hnew
  refine ⟨hnodup, ?_⟩
  intro other n
  rw [hkeys, List.mem_append, List.mem_singleton]
  by_cases hpath : other = path
  · subst hpath
    have hlater : (other, k + 1) ∈ before ++ (other, k + 1) :: after ++ [(other ++ [k], 0)] := by
      simp
    rw [h.mem_iff_lt hself]
    constructor
    · intro hn
      have hle : n < k + 1 := by
        rcases hn with hlt | heq
        · omega
        · have : n = k := by simpa using heq
          omega
      exact ⟨k + 1, hlater, hle⟩
    · rintro ⟨j, hj, hlt⟩
      have hj := eq_of_mem_of_nodup hnodup hj hlater
      by_cases hn : n = k
      · exact Or.inr (by rw [hn])
      · exact Or.inl (by omega)
  · -- the other queries have the subqueries that they had, and the new one has none
    have hmem : ∀ j, n < j → ((other, j) ∈ before ++ (path, k) :: after ↔
        (other, j) ∈ before ++ (path, k + 1) :: after ++ [(path ++ [k], 0)]) := by
      intro j hj
      have hzero : j ≠ 0 := by omega
      simp [hpath, hzero]
    have hne : ¬other ++ [n] = path ++ [k] := fun heq => hpath (List.append_inj' heq rfl).1
    rw [or_iff_left hne, h.mem_iff]
    constructor
    · rintro ⟨j, hj, hlt⟩
      exact ⟨j, (hmem j hlt).mp hj, hlt⟩
    · rintro ⟨j, hj, hlt⟩
      exact ⟨j, (hmem j hlt).mpr hj, hlt⟩

/-! ## Numbered queries -/

/-- Queries whose stems tell the numbers that lead to them, and whose scans are numbered without
gaps under these; all of their scans have been handed out, and no others. -/
structure Numbered (drafting : Drafting) (numbers : List (List Nat × Nat)) : Prop where
  paths : Paths numbers
  stems_eq : drafting.drafts.map (fun draft => (draft.stem, draft.subqueries)) =
    numbers.map fun entry => (Draft.stemAt entry.1, entry.2)
  aliases_eq : ∀ draft ∈ drafting.drafts,
    draft.plan.scans.map (·.aliasName) = (List.range draft.nextAlias).map (Draft.aliasOf draft.stem)
  scans_perm : drafting.scans.Perm (drafting.drafts.flatMap (·.plan.scans))

section Numbered
variable {drafting : Drafting} {numbers : List (List Nat × Nat)}

theorem numbered_start (kind : ResultKind) (entity : String) :
    Numbered (start (Draft.start kind Draft.mainStem entity).1
      (Draft.start kind Draft.mainStem entity).2) [([], 0)] where
  paths := ⟨List.nodup_singleton _, by simp⟩
  stems_eq := rfl
  aliases_eq := by
    intro draft hdraft
    rw [List.mem_singleton.mp hdraft]
    rfl
  scans_perm := List.Perm.refl _

/-- A query may be replaced by one with further scans under the next numbers. -/
theorem Numbered.replace {before after : List Draft} {draft later : Draft} {scans more : List Scan}
    (h : Numbered ⟨before ++ draft :: after, scans⟩ numbers) (hstem : later.stem = draft.stem)
    (hsubqueries : later.subqueries = draft.subqueries)
    (haliases : later.plan.scans.map (·.aliasName) =
      (List.range later.nextAlias).map (Draft.aliasOf later.stem))
    (hscans : later.plan.scans = draft.plan.scans ++ more) :
    Numbered ⟨before ++ later :: after, scans ++ more⟩ numbers where
  paths := h.paths
  stems_eq := by
    rw [← h.stems_eq]
    simp [hstem, hsubqueries]
  aliases_eq := by
    intro other hother
    have hall := h.aliases_eq
    simp only [List.mem_append, List.mem_cons] at hother hall
    rcases hother with hother | rfl | hother
    · exact hall other (Or.inl hother)
    · exact haliases
    · exact hall other (Or.inr (Or.inr hother))
  scans_perm := by
    have hperm := h.scans_perm.append_right more
    refine hperm.trans ?_
    simp only [List.flatMap_append, List.flatMap_cons, hscans, List.append_assoc]
    exact (List.perm_append_comm.append_left _).append_left _

theorem Numbered.begin {before after : List Draft} {draft : Draft} {scans : List Scan}
    (h : Numbered ⟨before ++ draft :: after, scans⟩ numbers) (entity : String) :
    ∃ later, Numbered
      ⟨before ++ { draft with subqueries := draft.subqueries + 1 } :: after ++
        [(Draft.start .entity (Draft.subqueryStem draft.stem draft.subqueries) entity).1],
        scans ++ [(Draft.start .entity (Draft.subqueryStem draft.stem draft.subqueries) entity).2]⟩
      later := by
  have hstems := h.stems_eq
  simp only [List.map_append, List.map_cons] at hstems
  obtain ⟨front, rest, rfl, hfront, hrest⟩ := List.map_eq_append_iff.mp hstems.symm
  obtain ⟨⟨path, k⟩, back, rfl, hentry, hback⟩ := List.map_eq_cons_iff.mp hrest
  rw [Prod.mk.injEq] at hentry
  obtain ⟨hstem, rfl⟩ := hentry
  refine ⟨_, h.paths.begin, ?_, ?_, ?_⟩
  · simp only [List.map_append, List.map_cons, List.map_nil, hfront, hback, hstem,
      ← Draft.subqueryStem_stemAt]
    rfl
  · intro other hother
    have hall := h.aliases_eq
    simp only [List.mem_append, List.mem_cons, List.not_mem_nil, or_false] at hother hall
    rcases hother with (hother | rfl | hother) | rfl
    · exact hall other (Or.inl hother)
    · exact hall draft (Or.inr (Or.inl rfl))
    · exact hall other (Or.inr (Or.inr hother))
    · rfl
  · have hperm := h.scans_perm.append_right
      [(Draft.start .entity (Draft.subqueryStem draft.stem draft.subqueries) entity).2]
    refine hperm.trans ?_
    simp only [List.flatMap_append, List.flatMap_cons, List.flatMap_nil, List.append_nil]
    exact List.Perm.refl _

theorem Numbered.step (h : drafting.Numbered numbers) (catalog : Catalog) (query : Nat)
    (action : Draft.Action) : ∃ later, (drafting.step catalog query action).2.Numbered later := by
  rcases drafting.step_cases catalog query action with
    heq | ⟨before, draft, after, later, yield, hdrafts, hnumbers, heq⟩
  · rw [heq]
    exact ⟨numbers, h⟩
  · obtain ⟨drafts, scans⟩ := drafting
    subst hdrafts
    have haliases := h.aliases_eq draft (by simp)
    rw [heq]
    cases hnumbers with
    | scan hname =>
      refine ⟨numbers, ?_⟩
      rw [List.append_nil]
      refine h.replace rfl rfl ?_ (Draft.scans_withJoin _ _)
      rw [Draft.scans_withJoin, List.map_append, haliases]
      change _ = (List.range (draft.nextAlias + 1)).map (Draft.aliasOf draft.stem)
      rw [List.range_succ, List.map_append, List.map_singleton, List.map_singleton, ← hname]
      rfl
    | subquery entity => exact h.begin entity
    | none hscans hstem halias hsubqueries =>
      refine ⟨numbers, ?_⟩
      rw [List.append_nil]
      refine h.replace hstem hsubqueries ?_ (by rw [hscans, List.append_nil])
      rw [hscans, haliases, hstem, halias]

theorem Numbered.run (h : drafting.Numbered numbers) (catalog : Catalog)
    (steps : List (Nat × Draft.Action)) : ∃ later, (drafting.run catalog steps).Numbered later := by
  induction steps generalizing drafting numbers with
  | nil => exact ⟨numbers, h⟩
  | cons first rest ih =>
    obtain ⟨next, hnext⟩ := h.step catalog first.1 first.2
    exact ih hnext

theorem Numbered.exists_path (h : drafting.Numbered numbers) {draft : Draft}
    (hdraft : draft ∈ drafting.drafts) :
    ∃ path, draft.stem = Draft.stemAt path ∧ (path, draft.subqueries) ∈ numbers := by
  have hmem := List.mem_map_of_mem (f := fun draft : Draft => (draft.stem, draft.subqueries)) hdraft
  rw [h.stems_eq] at hmem
  obtain ⟨⟨path, k⟩, hentry, heq⟩ := List.mem_map.mp hmem
  rw [Prod.mk.injEq] at heq
  obtain ⟨hstem, rfl⟩ := heq
  exact ⟨path, hstem.symm, hentry⟩

theorem Numbered.map_stem (h : drafting.Numbered numbers) :
    drafting.drafts.map (·.stem) = (numbers.map Prod.fst).map Draft.stemAt := by
  have hfirst := congrArg (List.map Prod.fst) h.stems_eq
  simpa [Function.comp_def] using hfirst

theorem Numbered.nodup_aliases (h : drafting.Numbered numbers) :
    (drafting.scans.map (·.aliasName)).Nodup := by
  rw [(h.scans_perm.map _).nodup_iff, List.map_flatMap, List.nodup_flatMap]
  constructor
  · intro draft hdraft
    rw [h.aliases_eq draft hdraft]
    exact Draft.nodup_aliases _ _
  · have hstems : (drafting.drafts.map (·.stem)).Nodup := by
      rw [h.map_stem]
      exact h.paths.nodup.map Draft.stemAt_injective
    rw [List.Nodup, List.pairwise_map] at hstems
    refine hstems.imp_of_mem ?_
    intro draft other hdraft hother hne name hname hname'
    simp only [h.aliases_eq draft hdraft, h.aliases_eq other hother, List.mem_map] at hname hname'
    obtain ⟨m, -, rfl⟩ := hname
    obtain ⟨n, -, heq⟩ := hname'
    obtain ⟨path, hpath, -⟩ := h.exists_path hdraft
    obtain ⟨path', hpath', -⟩ := h.exists_path hother
    -- one alias cannot be read back as two paths
    rw [hpath, hpath', Draft.aliasOf_stemAt_inj] at heq
    exact hne (by rw [hpath, hpath', heq.1])

theorem Numbered.subquery_iff (h : drafting.Numbered numbers) {draft : Draft}
    (hdraft : draft ∈ drafting.drafts) (n : Nat) :
    Draft.subqueryStem draft.stem n ∈ drafting.drafts.map (·.stem) ↔ n < draft.subqueries := by
  obtain ⟨path, hpath, hmem⟩ := h.exists_path hdraft
  rw [← h.paths.mem_iff_lt hmem, h.map_stem, hpath, Draft.subqueryStem_stemAt,
    List.mem_map_of_injective Draft.stemAt_injective]

end Numbered

/-! ## Aliases -/

/-- A query has been created, and actions have been taken on it and on its subqueries. -/
def Made (catalog : Catalog) (drafting : Drafting) : Prop :=
  ∃ kind entity draft root steps, Draft.create catalog kind entity = .ok (draft, root) ∧
    drafting = (start draft root).run catalog steps

theorem Made.numbered {catalog : Catalog} {drafting : Drafting} (h : drafting.Made catalog) :
    ∃ numbers, drafting.Numbered numbers := by
  obtain ⟨kind, entity, draft, root, steps, hcreate, rfl⟩ := h
  obtain ⟨_, -, hpure⟩ := bind_eq_ok.mp hcreate
  have hstart := numbered_start kind entity
  rw [pure_eq_ok.mp hpure] at hstart
  exact hstart.run catalog steps

/-- However a query and its subqueries are made, no alias is handed out twice. The scans that were
handed out are those of the plans. In each plan they are numbered without gaps, and so are its
subqueries, since an action that fails changes nothing, now or later. -/
theorem nodup_aliases_of_run {catalog : Catalog} {drafting : Drafting} (h : drafting.Made catalog) :
    (drafting.scans.map (·.aliasName)).Nodup ∧
      drafting.scans.Perm (drafting.drafts.flatMap (·.plan.scans)) ∧
      (∀ draft ∈ drafting.drafts,
        draft.plan.aliases = (List.range draft.nextAlias).map (Draft.aliasOf draft.stem) ∧
        ∀ n, Draft.subqueryStem draft.stem n ∈ drafting.drafts.map (·.stem) ↔
          n < draft.subqueries) ∧
      ∀ query action e, (drafting.step catalog query action).1 = .error e →
        (drafting.step catalog query action).2 = drafting ∧
        ∀ rest, drafting.run catalog ((query, action) :: rest) = drafting.run catalog rest := by
  obtain ⟨numbers, hnumbered⟩ := h.numbered
  refine ⟨hnumbered.nodup_aliases, hnumbered.scans_perm, ?_, ?_⟩
  · intro draft hdraft
    exact ⟨hnumbered.aliases_eq draft hdraft, hnumbered.subquery_iff hdraft⟩
  · intro query action e herror
    have hsame := step_of_error herror
    refine ⟨hsame, fun rest => ?_⟩
    rw [run, hsame]

end Drafting

namespace People

/-- Joins a relation that people do not have. -/
def joinPets : Draft.Action := .join ⟨"t0", "Person"⟩ ⟨"pets", .single⟩ "Pet" .restriction

/-- Two subqueries, one inside the other, then a join and a third subquery after failures. -/
def nestedSteps : List (Nat × Draft.Action) :=
  [(0, .createSubquery "Person"), (1, .createSubquery "Person"), (0, joinPets),
    (0, .join ⟨"t0", "Person"⟩ ⟨"employer", .single⟩ "Business" .restriction),
    (0, .createSubquery "Pet"), (0, .createSubquery "Business")]

theorem nodup_aliases_of_nestedSteps :
    ∃ draft root drafting, Draft.create catalog .entity "Person" = .ok (draft, root) ∧
      drafting = (Drafting.start draft root).run catalog nestedSteps ∧
      drafting.scans.map (·.aliasName) = ["t0", "tq0_0", "tq0_q0_0", "t1", "tq1_0"] ∧
      (drafting.scans.map (·.aliasName)).Nodup ∧
      (drafting.step catalog 0 joinPets).1 = .error (.unknownRelation "Person" "pets") ∧
      ∀ rest, drafting.run catalog ((0, joinPets) :: rest) = drafting.run catalog rest := by
  have haliases := Drafting.nodup_aliases_of_run
    (⟨.entity, "Person", _, _, nestedSteps, rfl, rfl⟩ : Drafting.Made catalog _)
  obtain ⟨hnodup, -, -, herror⟩ := haliases
  exact ⟨_, _, _, rfl, rfl, rfl, hnodup, rfl, (herror 0 joinPets _ rfl).2⟩

end People

end CriteriaQuery
