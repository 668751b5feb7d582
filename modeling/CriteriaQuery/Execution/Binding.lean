import CriteriaQuery.Plan.Predicate
import CriteriaQuery.Store
import CriteriaQuery.Error

/-! The rows that the aliases of a plan are bound to while it is executed. -/
namespace CriteriaQuery
set_option autoImplicit false

/-- Aliases with their rows, in the order in which they were bound. An alias without a row is one
whose join found none. -/
structure Binding where
  slots : List (String × Option Row) := []

namespace Binding

def root (aliasName : String) (row : Row) : Binding := ⟨[(aliasName, some row)]⟩

def bind (binding : Binding) (aliasName : String) (row : Option Row) : Binding :=
  ⟨binding.slots ++ [(aliasName, row)]⟩

/-- The row of an alias, which has to be bound. The first binding of an alias counts. -/
def row (binding : Binding) (aliasName : String) : Except Error (Option Row) :=
  match binding.slots.find? (·.1 = aliasName) with
  | some (_, row) => .ok row
  | none => .error (.execution (.unknownAlias aliasName))

/-- The value of a column; null where there is no row or no such field. -/
def value (binding : Binding) (aliasName column : String) : Except Error Value :=
  (binding.row aliasName).map fun row => (row.bind (·.get? column)).getD .null

/-- The value of an expression. Counts have none on a single binding. -/
def scalar (binding : Binding) : Scalar → Except Error Value
  | .column aliasName name => binding.value aliasName name
  | .count _ => .error (.execution .countOutsideSelection)

end Binding

end CriteriaQuery
