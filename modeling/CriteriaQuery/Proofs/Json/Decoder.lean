import CriteriaQuery.Json.Decoder
import CriteriaQuery.Proofs.Json.Reader
import CriteriaQuery.Proofs.Outcome

/-! Decoders that read a value back from its JSON form. A decoder may enter so many more containers,
so it reads a form as soon as it has as many levels as the form nests (`Decoder.Reads`). This holds
of plain values and passes to options, lists, records and choices; with fewer than 128 levels it
holds of the text (`Decoder.Reads.decode?_compact`). -/
namespace CriteriaQuery
open Decimal Text Outcome
set_option autoImplicit false

namespace Json

/-! ## Nesting -/

mutual

/-- How many containers a value has inside one another. -/
def depth : Json → Nat
  | .array items => itemsDepth items + 1
  | .object members => membersDepth members + 1
  | _ => 0

/-- The depth of the deepest of some items. -/
def itemsDepth : List Json → Nat
  | [] => 0
  | v :: rest => max v.depth (itemsDepth rest)

/-- The depth of the deepest of the values of some members. -/
def membersDepth : List (Json.Text × Json) → Nat
  | [] => 0
  | (_, v) :: rest => max v.depth (membersDepth rest)

end

theorem itemsDepth_le_iff {items : List Json} {n : Nat} :
    itemsDepth items ≤ n ↔ ∀ v ∈ items, v.depth ≤ n := by
  induction items with
  | nil => simp [itemsDepth]
  | cons v rest ih => rw [itemsDepth, Nat.max_le, ih, List.forall_mem_cons]

theorem membersDepth_le_iff {members : List (Json.Text × Json)} {n : Nat} :
    membersDepth members ≤ n ↔ ∀ m ∈ members, m.2.depth ≤ n := by
  induction members with
  | nil => simp [membersDepth]
  | cons m rest ih => rw [membersDepth, Nat.max_le, ih, List.forall_mem_cons]

theorem depth_array_le_iff {items : List Json} {n : Nat} :
    (Json.array items).depth ≤ n + 1 ↔ ∀ v ∈ items, v.depth ≤ n := by
  rw [depth, Nat.add_le_add_iff_right, itemsDepth_le_iff]

theorem depth_obj_le_iff {fields : List (String × Json)} {n : Nat} :
    (obj fields).depth ≤ n + 1 ↔ ∀ f ∈ fields, f.2.depth ≤ n := by
  rw [obj, depth, Nat.add_le_add_iff_right, membersDepth_le_iff, List.forall_mem_map]

/-- What may enter an array has a level for it, and enough for its items. -/
theorem levels_of_array {items : List Json} {levels : Nat} (h : (Json.array items).depth ≤ levels) :
    ∃ n, levels = n + 1 ∧ ∀ v ∈ items, v.depth ≤ n := by
  obtain ⟨n, rfl⟩ := Nat.exists_eq_succ_of_ne_zero (Nat.ne_zero_of_lt h)
  exact ⟨n, rfl, depth_array_le_iff.mp h⟩

theorem levels_of_obj {fields : List (String × Json)} {levels : Nat}
    (h : (obj fields).depth ≤ levels) : ∃ n, levels = n + 1 ∧ ∀ f ∈ fields, f.2.depth ≤ n := by
  obtain ⟨n, rfl⟩ := Nat.exists_eq_succ_of_ne_zero (Nat.ne_zero_of_lt h)
  exact ⟨n, rfl, depth_obj_le_iff.mp h⟩

attribute [simp] WellFormed.null WellFormed.bool WellFormed.str

@[simp] theorem wellFormed_int (n : Int) : (int n).WellFormed := .number (Literal.wellFormed_ofInt n)

theorem wellFormed_obj {fields : List (String × Json)} (h : ∀ f ∈ fields, f.2.WellFormed) :
    (obj fields).WellFormed := by
  apply WellFormed.object
  · intro m hm
    obtain ⟨f, -, rfl⟩ := List.mem_map.mp hm
    rfl
  · intro m hm
    obtain ⟨f, hf, rfl⟩ := List.mem_map.mp hm
    exact h f hf

theorem integer?_ofInt (n : Int) : integer? (Literal.ofInt n) = some n := by
  have hplain : ¬((Literal.ofInt n).fraction ≠ [] ∨ (Literal.ofInt n).exponent.isSome = true) := by
    simp [Literal.ofInt]
  rw [integer?, if_neg hplain]
  simp only [Literal.ofInt, digitsValue_digitsOf, decide_eq_true_eq]
  split
  · rw [if_neg (by omega)]
    exact congrArg some (by omega)
  · exact congrArg some (by omega)

end Json

namespace Decoder
open Json
variable {α β γ : Type}

/-- Whether a decoder reads a value back from a JSON form that has a text, given as many levels as
the form nests. -/
structure Reads (d : Decoder α) (v : Json) (a : α) : Prop where
  wellFormed : v.WellFormed
  eq_some : ∀ levels, v.depth ≤ levels → d levels v = some a

/-- What nests no deeper than the limit is read back from its text. -/
theorem Reads.decode?_compact {d : Decoder α} {v : Json} {a : α} (h : d.Reads v a)
    (hdepth : v.depth ≤ levelLimit) : decode? d v.compact = some a := by
  rw [decode?, parse?_compact h.wellFormed, Option.bind_some]
  exact h.eq_some levelLimit hdepth

/-! ## Plain values -/

@[simp] theorem string_str (levels : Nat) (s : String) : string levels (.str s) = some s := rfl

@[simp] theorem bool_bool (levels : Nat) (b : Bool) : bool levels (.bool b) = some b := rfl

theorem reads_string (s : String) : string.Reads (.str s) s := ⟨.str s, fun _ _ => rfl⟩

theorem reads_bool (b : Bool) : bool.Reads (.bool b) b := ⟨.bool b, fun _ _ => rfl⟩

theorem reads_integer {low high n : Int} (h : low ≤ n ∧ n ≤ high) :
    (integer low high).Reads (.int n) n := by
  refine ⟨wellFormed_int n, fun levels _ => ?_⟩
  rw [int, integer, integer?_ofInt, Option.bind_some, if_pos h]

theorem reads_int32 (n : Int32) : int32.Reads (.int n.toInt) n := by
  have h := reads_integer (And.intro n.minValue_le_toInt n.toInt_le)
  refine ⟨h.wellFormed, fun levels hlevels => ?_⟩
  rw [int32, h.eq_some levels hlevels, Option.map_some, Int32.ofInt_toInt]

theorem reads_int64 (n : Int64) : int64.Reads (.int n.toInt) n := by
  have h := reads_integer (And.intro n.minValue_le_toInt n.toInt_le)
  refine ⟨h.wellFormed, fun levels hlevels => ?_⟩
  rw [int64, h.eq_some levels hlevels, Option.map_some, Int64.ofInt_toInt]

theorem Reads.refine {d : Decoder α} {v : Json} {a : α} {b : β} {f : α → Option β}
    (h : d.Reads v a) (hf : f a = some b) : (d.refine f).Reads v b := by
  refine ⟨h.wellFormed, fun levels hlevels => ?_⟩
  rw [Decoder.refine, h.eq_some levels hlevels, Option.bind_some, hf]

theorem Reads.map {d : Decoder α} {v : Json} {a : α} (h : d.Reads v a) (f : α → β) :
    Reads (fun levels v => d levels v >>= fun a => pure (f a)) v (f a) := by
  refine ⟨h.wellFormed, fun levels hlevels => ?_⟩
  simp only [h.eq_some levels hlevels]
  rfl

theorem reads_named {alternatives : List (String × α)} {name : String} {a : α}
    (h : alternatives.lookup name = some a) : (named alternatives).Reads (.str name) a :=
  ⟨.str name, fun _ _ => h⟩

/-! ## Options and lists -/

theorem reads_none (d : Decoder α) : (optional d).Reads .null none := ⟨.null, fun _ _ => rfl⟩

theorem Reads.some {d : Decoder α} {v : Json} {a : α} (h : d.Reads v a) (hv : v ≠ .null) :
    (optional d).Reads v (some a) := by
  refine ⟨h.wellFormed, fun levels hlevels => ?_⟩
  rw [optional, h.eq_some levels hlevels, Option.map_some]
  exact hv

/-- An optional value is told from none because no value is written as `null`. -/
theorem reads_ofOption {d : Decoder α} {encode : α → Json} {o : Option α}
    (h : ∀ a ∈ o, d.Reads (encode a) a) (hnull : ∀ a, encode a ≠ .null) :
    (optional d).Reads (.ofOption encode o) o := by
  cases o with
  | none => exact reads_none d
  | some a => exact (h a rfl).some (hnull a)

theorem reads_list {d : Decoder α} {encode : α → Json} {as : List α}
    (h : ∀ a ∈ as, d.Reads (encode a) a) : (list d).Reads (.array (as.map encode)) as := by
  refine ⟨.array ?_, fun levels hlevels => ?_⟩
  · intro v hv
    obtain ⟨a, ha, rfl⟩ := List.mem_map.mp hv
    exact (h a ha).wellFormed
  · obtain ⟨n, rfl, hitems⟩ := levels_of_array hlevels
    have hread : as.mapM (d n ∘ encode) = pure (as.map id) :=
      mapM_eq_map fun a ha => (h a ha).eq_some n (hitems _ (List.mem_map_of_mem ha))
    rw [list, List.mapM_map, hread, List.map_id]
    rfl

/-! ## Records -/

section Fields
variable {fields : List (String × Json)}

/-- The members of an object with these fields. -/
theorem membersNamed_of_not_mem {name : String} (h : name ∉ fields.map (·.1)) :
    membersNamed name (fields.map fun (name, value) => (some name, value)) = [] := by
  apply List.filterMap_eq_nil_iff.mpr
  intro m hm
  obtain ⟨f, hf, rfl⟩ := List.mem_map.mp hm
  have hne : f.1 ≠ name := by
    rintro rfl
    exact h (List.mem_map_of_mem hf)
  exact if_neg fun heq => hne (Option.some.inj heq)

theorem membersNamed_of_mem (hnodup : (fields.map (·.1)).Nodup) {f : String × Json}
    (hf : f ∈ fields) :
    membersNamed f.1 (fields.map fun (name, value) => (some name, value)) = [f.2] := by
  induction fields with
  | nil => cases hf
  | cons g fields ih =>
    obtain ⟨hg, hnodup⟩ := List.nodup_cons.mp hnodup
    rw [membersNamed, List.map_cons, List.filterMap_cons]
    rcases List.mem_cons.mp hf with rfl | hf
    · have hrest := membersNamed_of_not_mem hg
      rw [membersNamed] at hrest
      simp only [if_true, hrest]
    · have hne : g.1 ≠ f.1 := by
        intro heq
        exact hg (List.mem_map.mpr ⟨f, hf, heq.symm⟩)
      have hrest := ih hnodup hf
      rw [membersNamed] at hrest
      simp only [Option.some.injEq, hne, if_false, hrest]

/-- A record of fields with names of their own is read field by field. -/
theorem record_obj (hnodup : (fields.map (·.1)).Nodup) (n : Nat) :
    record (fields.map (·.1)) (n + 1) (.obj fields) =
      some (fields.map fun f => .given n f.2) := by
  have hall : (fields.map fun (name, value) => (some name, value)).all (·.1.isSome) = true := by
    simp
  have hslots : fields.mapM
        (memberSlot n (fields.map fun (name, value) => (some name, value)) ∘ (·.1)) =
      pure (fields.map fun f => .given n f.2) := by
    apply mapM_eq_map
    intro f hf
    rw [Function.comp_apply, memberSlot, membersNamed_of_mem hnodup hf]
    rfl
  rw [obj, record, if_pos hall, List.mapM_map]
  exact hslots

end Fields

/-- What is made of the fields of a record in order is read back if it can be made of their forms,
and no name stands for two of them. -/
theorem reads_record (names : List String) (values : List Json) {f : List Slot → Option α} {a : α}
    (hnodup : names.Nodup) (hlength : names.length = values.length)
    (hwell : ∀ v ∈ values, v.WellFormed)
    (hf : ∀ n, (∀ v ∈ values, v.depth ≤ n) → f (values.map (.given n)) = some a) :
    Reads (fun levels v => record names levels v >>= f) (.obj (names.zip values)) a := by
  have hnames : (names.zip values).map (·.1) = names := List.map_fst_zip hlength.le
  have hvalues : (names.zip values).map (·.2) = values := List.map_snd_zip hlength.ge
  refine ⟨wellFormed_obj fun field hfield => hwell _ (List.of_mem_zip hfield).2,
    fun levels hlevels => ?_⟩
  obtain ⟨n, rfl, hdepth⟩ := levels_of_obj hlevels
  have hslots : (names.zip values).map (fun field => Slot.given n field.2) =
      values.map (.given n) := by
    rw [← hvalues, List.map_map, hvalues]
    rfl
  have hread := record_obj (hnames.symm ▸ hnodup) n
  rw [hnames, hslots] at hread
  simp only [hread, Option.bind_eq_bind, Option.bind_some]
  exact hf n fun v hv => by
    rw [← hvalues] at hv
    obtain ⟨field, hfield, rfl⟩ := List.mem_map.mp hv
    exact hdepth field hfield

/-- A record of two fields is read back if both fields are. -/
theorem reads_twoFields {first second : String} {d : Decoder α} {e : Decoder β} {v w : Json} {a : α}
    {b : β} (hne : first ≠ second) (ha : d.Reads v a) (hb : e.Reads w b) (make : α → β → γ)
    {f : List Slot → Option γ}
    (hf : ∀ n, f [.given n v, .given n w] = d n v >>= fun a => e n w >>= fun b => pure (make a b)) :
    Reads (fun levels v => record [first, second] levels v >>= f) (.obj [(first, v), (second, w)])
      (make a b) := by
  refine reads_record [first, second] [v, w] (by simp [hne]) rfl
    (by simp [ha.wellFormed, hb.wellFormed]) fun n hn => ?_
  have hv := ha.eq_some n (hn v List.mem_cons_self)
  have hw := hb.eq_some n (hn w (List.mem_cons_of_mem v List.mem_cons_self))
  rw [List.map_cons, List.map_cons, List.map_nil, hf, hv, hw]
  rfl

/-! ## Choices -/

/-- An alternative is read back if what it carries is. -/
theorem reads_tagged (name : String) {payload : Json} {f : String × Option (Nat × Json) → Option α}
    {a : α} (h : Reads (fun levels v => f (name, some (levels, v))) payload a) :
    Reads (fun levels v => choice levels v >>= f) (.obj [(name, payload)]) a := by
  refine ⟨wellFormed_obj (List.forall_mem_singleton.mpr h.wellFormed), fun levels hlevels => ?_⟩
  obtain ⟨n, rfl, hpayload⟩ := levels_of_obj hlevels
  exact h.eq_some n (hpayload _ List.mem_cons_self)

end Decoder

end CriteriaQuery
