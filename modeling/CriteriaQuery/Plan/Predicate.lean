import CriteriaQuery.Value.Order

/-! Scalar expressions over the scans of a plan, and predicates over them. Membership tests refer
to sets of some kind `σ`: to subplans in a plan, to whatever stands for their rows elsewhere. -/
namespace CriteriaQuery
set_option autoImplicit false

/-- An expression over the rows bound to aliases. -/
inductive Scalar where
  | column (aliasName name : String)
  /-- The number of rows bound to an alias. -/
  | count (aliasName : String)
deriving DecidableEq, Repr

/-- How a column is compared with an operand. -/
inductive Comparison where
  | eq
  | ne
  | lt
  | le
  | gt
  | ge
deriving DecidableEq, Repr

/-- Whether a pattern is matched against a column as it is or against its lower case. -/
inductive CaseRule where
  | sensitive
  | insensitive
deriving DecidableEq, Repr

/-- A condition on rows. -/
inductive Predicate (σ : Type) where
  | compare (comparison : Comparison) (expr : Scalar) (operand : Value)
  | isNull (expr : Scalar)
  | isNotNull (expr : Scalar)
  | like (expr : Scalar) (pattern : String) (rule : CaseRule)
  | member (expr : Scalar) (set : σ)
  | not (p : Predicate σ)
  | and (ps : List (Predicate σ))

namespace Predicate
variable {σ τ : Type}

/-- The conjunction of a list, which for one predicate is that predicate. -/
def all : List (Predicate σ) → Predicate σ
  | [p] => p
  | ps => .and ps

/-! ## Replacing the sets -/

mutual

/-- Replaces every set of a predicate. -/
def map (f : σ → τ) : Predicate σ → Predicate τ
  | .compare c e v => .compare c e v
  | .isNull e => .isNull e
  | .isNotNull e => .isNotNull e
  | .like e pattern rule => .like e pattern rule
  | .member e set => .member e (f set)
  | .not p => .not (p.map f)
  | .and ps => .and (mapAll f ps)

/-- Replaces every set of a list of predicates. -/
def mapAll (f : σ → τ) : List (Predicate σ) → List (Predicate τ)
  | [] => []
  | p :: ps => p.map f :: mapAll f ps

end

theorem mapAll_eq_map (f : σ → τ) (ps : List (Predicate σ)) : mapAll f ps = ps.map (map f) := by
  induction ps with
  | nil => rfl
  | cons p ps ih => rw [mapAll, ih, List.map_cons]

end Predicate

end CriteriaQuery
