import CriteriaQuery.Execution.Binding
import CriteriaQuery.Plan
import CriteriaQuery.Sorted

/-! Sorting bindings by keys. Keys of which neither is before the other are level, which is no order
if the values of a column are of several kinds: a text is level with both truth values. The sort can
then return the bindings in any order or give up (`ExecutionFault.contradictoryOrder`). -/
namespace CriteriaQuery
set_option autoImplicit false

/-- The order of two rows of keys: that of the first keys that are not side by side. -/
def compareKeys : List Direction → List Value → List Value → Ordering
  | direction :: directions, a :: as, b :: bs =>
    (Value.sortOrder direction a b).then (compareKeys directions as bs)
  | _, _, _ => .eq

/-- A binding with the values of its sort keys. -/
structure KeyedBinding where
  keys : List Value
  binding : Binding

def KeyedBinding.of (orderBy : List OrderKey) (binding : Binding) : Except Error KeyedBinding := do
  return ⟨← orderBy.mapM fun key => binding.scalar key.expr, binding⟩

/-- Whether the keys of a binding come strictly before those of another. -/
def KeyedBinding.before (directions : List Direction) (a b : KeyedBinding) : Bool :=
  (compareKeys directions a.keys b.keys).isLT

/-- Sorts bindings. All keys are computed before any are compared. -/
def sortBindings (orderBy : List OrderKey) (bindings : List Binding) :
    Except Error (List Binding) :=
  if orderBy = [] then .ok bindings
  else do
    let keyed ← bindings.mapM (KeyedBinding.of orderBy)
    match Sorted.sort (KeyedBinding.before (orderBy.map (·.direction))) keyed with
    | some sorted => return sorted.map (·.binding)
    | none => throw (.execution .contradictoryOrder)

end CriteriaQuery
