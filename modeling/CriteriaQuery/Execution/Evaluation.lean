import CriteriaQuery.Execution.Binding
import CriteriaQuery.Like
import CriteriaQuery.Text.Lowercase

/-! Evaluating predicates on bindings. What is compared with null does not hold, and neither does
its opposite. The members of a set are loaded when a value is first looked up in it, and kept for
all later bindings. -/
namespace CriteriaQuery
set_option autoImplicit false

/-- Whether a comparison holds between a value and an operand that are not null. -/
def Comparison.relates (comparison : Comparison) (v operand : Value) : Bool :=
  match comparison with
  | .eq => v.equal operand
  | .ne => !v.equal operand
  | .lt => (v.order? operand).any (·.isLT)
  | .le => (v.order? operand).any (·.isLE)
  | .gt => (v.order? operand).any (·.isGT)
  | .ge => (v.order? operand).any (·.isGE)

def Comparison.holds (comparison : Comparison) (v operand : Value) : Bool :=
  !v.isNull && !operand.isNull && comparison.relates v operand

/-- Whether a pattern matches a value; only texts match. -/
def CaseRule.accepts (rule : CaseRule) (v : Value) (pattern : String) : Bool :=
  match v, rule with
  | .string s, .sensitive => Like.isMatch s.toList pattern.toList
  | .string s, .insensitive => Like.isMatch (Text.lowercase s).toList pattern.toList
  | _, _ => false

/-! ## Members of sets -/

/-- Where a set occurs in a predicate: the way to it from the innermost step outwards. -/
abbrev Place := List Nat

/-- The members of the sets that have been loaded, by the places of the sets. -/
structure MemberCache where
  entries : List (Place × List Value) := []

namespace MemberCache
variable {σ : Type}

def loaded (cache : MemberCache) : Nat := cache.entries.length

/-- The members of the set at a place, if they have been loaded. -/
def members? (cache : MemberCache) (place : Place) : Option (List Value) :=
  cache.entries.lookup place

/-- The members of the set at a place, loaded unless they were loaded before. A load that fails
leaves nothing behind. -/
def members (load : σ → Except Error (List Value)) (place : Place) (set : σ)
    (cache : MemberCache) : Except Error (List Value) × MemberCache :=
  match cache.members? place with
  | some values => (.ok values, cache)
  | none =>
    match load set with
    | .ok values => (.ok values, ⟨(place, values) :: cache.entries⟩)
    | .error e => (.error e, cache)

/-- Whether a value is in the set at a place. Null is in no set, and needs no load. -/
def contains (load : σ → Except Error (List Value)) (place : Place) (set : σ) (v : Value)
    (cache : MemberCache) : Except Error Bool × MemberCache :=
  if v.isNull then (.ok false, cache)
  else
    let (found, cache) := cache.members load place set
    (found.map fun values => values.any v.equal, cache)

end MemberCache

/-! ## Predicates -/

namespace Predicate
variable {σ : Type}

mutual

def evaluate (load : σ → Except Error (List Value)) (binding : Binding) (place : Place) :
    Predicate σ → MemberCache → Except Error Bool × MemberCache
  | .compare c e operand, cache => ((binding.scalar e).map fun v => c.holds v operand, cache)
  | .isNull e, cache => ((binding.scalar e).map Value.isNull, cache)
  | .isNotNull e, cache => ((binding.scalar e).map fun v => !v.isNull, cache)
  | .like e pattern rule, cache => ((binding.scalar e).map fun v => rule.accepts v pattern, cache)
  | .member e set, cache =>
    match binding.scalar e with
    | .ok v => cache.contains load place set v
    | .error e => (.error e, cache)
  | .not p, cache =>
    let (result, cache) := evaluate load binding (0 :: place) p cache
    (result.map (!·), cache)
  | .and ps, cache => evaluateAll load binding place 0 ps cache

/-- Whether the members of a conjunction hold, from the one at `index` on. The first that does not
hold ends the evaluation. -/
def evaluateAll (load : σ → Except Error (List Value)) (binding : Binding) (place : Place)
    (index : Nat) : List (Predicate σ) → MemberCache → Except Error Bool × MemberCache
  | [], cache => (.ok true, cache)
  | p :: ps, cache =>
    match evaluate load binding (index :: place) p cache with
    | (.ok true, cache) => evaluateAll load binding place (index + 1) ps cache
    | outcome => outcome

end

end Predicate

end CriteriaQuery
