import CriteriaQuery.Plan.Draft
import CriteriaQuery.Text.Lowercase

/-! From operators and operands to predicates on a column. Each family of operands handles its own
operators and leaves the others to a narrower family: strings to comparable values, these and
booleans to equality. -/
namespace CriteriaQuery
set_option autoImplicit false

/-! ## Operators by family -/

namespace Operator
variable {σ : Type}

/-- Equality and inequality, on behalf of a family. -/
def equalityFor (family : OperandFamily) (op : Operator) (path : Scalar) (operand : Value) :
    Except Error (Predicate σ) :=
  match op with
  | .eq => .ok (.compare .eq path operand)
  | .ne => .ok (.compare .ne path operand)
  | _ => .error (.unsupportedOperator op family)

/-- Comparisons, on behalf of a family. -/
def comparableFor (family : OperandFamily) (op : Operator) (path : Scalar) (operand : Value) :
    Except Error (Predicate σ) :=
  match op with
  | .gt => .ok (.compare .gt path operand)
  | .lt => .ok (.compare .lt path operand)
  | .gte => .ok (.compare .ge path operand)
  | .lte => .ok (.compare .le path operand)
  | _ => equalityFor family op path operand

def equality (op : Operator) (path : Scalar) (operand : Value) : Except Error (Predicate σ) :=
  equalityFor .equality op path operand

/-- Comparisons, then equality. -/
def comparable (op : Operator) (path : Scalar) (operand : Value) : Except Error (Predicate σ) :=
  comparableFor .comparable op path operand

/-- Patterns, then comparisons. Those that ignore case lower the operand here and the column when
the pattern is matched. Wildcards in the operand keep their meaning. -/
def string (op : Operator) (path : Scalar) (operand : String) : Except Error (Predicate σ) :=
  match op with
  | .like => .ok (.like path operand .sensitive)
  | .startsWith => .ok (.like path (operand ++ "%") .sensitive)
  | .contains => .ok (.like path ("%" ++ operand ++ "%") .sensitive)
  | .startsWithCi => .ok (.like path (Text.lowercase operand ++ "%") .insensitive)
  | .containsCi => .ok (.like path ("%" ++ Text.lowercase operand ++ "%") .insensitive)
  | _ => comparableFor .string op path (.string operand)

/-- Null checks, then equality. A null check with `false` asks for the opposite. -/
def boolean (op : Operator) (path : Scalar) (operand : Bool) : Except Error (Predicate σ) :=
  match op, operand with
  | .null, true | .notNull, false => .ok (.isNull path)
  | .null, false | .notNull, true => .ok (.isNotNull path)
  | _, _ => equalityFor .boolean op path (.bool operand)

end Operator

/-! ## Tests on a column -/

/-- What a restriction with a present value asks of its column. -/
inductive Test where
  | compare (comparison : Comparison) (operand : Value)
  | like (pattern : String)
  | string (op : Operator) (operand : Option String)
  | boolean (op : Operator) (operand : Option Bool)
  | comparable (op : Operator) (operand : Option Value)
  | equality (op : Operator) (operand : Option Value)
  /-- A predicate of the caller's making, with the number of subqueries of the draft that it
  started. It may look at the draft, and changes nothing else in it. -/
  | custom (build : Draft → Scalar → Except Error (Nat × Predicate SelectPlan))

namespace Test

/-! ### Tests without an operator -/

/-- The column is null, or with `false` it is not. -/
def isNull (flag : Bool) : Test := .boolean .null (some flag)

/-- The column is not null, or with `false` it is. -/
def notNull (flag : Bool) : Test := .boolean .notNull (some flag)

def contains (s : String) : Test := .string .contains (some s)
def startsWith (s : String) : Test := .string .startsWith (some s)
def containsIgnoringCase (s : String) : Test := .string .containsCi (some s)
def startsWithIgnoringCase (s : String) : Test := .string .startsWithCi (some s)

/-- The column is among the values of another column that are not null, or with `false` it is
not. -/
def memberOf (catalog : Catalog) (entity column : String) (flag : Bool) : Test :=
  .custom fun draft path => do
    let sub ← draft.createSubquery catalog entity
    let values ← sub.root.column catalog column
    let p : Predicate SelectPlan :=
      .member path ((sub.draft.filter (.isNotNull values)).select values).plan
    return (1, if flag then p else .not p)

/-! ### Tests of criteria fields -/

def ofStringField (field : CriteriaField String) : Test := .string field.op field.value
def ofBooleanField (field : CriteriaField Bool) : Test := .boolean field.op field.value

/-- A field whose operand becomes a value; it may be compared. -/
def ofComparableField {V : Type} (value : V → Value) (field : CriteriaField V) : Test :=
  .comparable field.op (field.value.map value)

/-- A field whose operand becomes a value; it may only be equal or not. -/
def ofSimpleField {V : Type} (value : V → Value) (field : CriteriaField V) : Test :=
  .equality field.op (field.value.map value)

/-! ### Predicates -/

/-- The operand of an operator, which has to be there. -/
def operand {V : Type} (op : Operator) : Option V → Except Error V
  | some v => .ok v
  | none => .error (.configuration (.missingOperand op))

def build (test : Test) (draft : Draft) (path : Scalar) :
    Except Error (Draft × Predicate SelectPlan) :=
  match test with
  | .compare comparison v => .ok (draft, .compare comparison path v)
  | .like pattern => .ok (draft, .like path pattern .sensitive)
  | .string op v => do return (draft, ← op.string path (← operand op v))
  | .boolean op v => do return (draft, ← op.boolean path (← operand op v))
  | .comparable op v => do return (draft, ← op.comparable path (← operand op v))
  | .equality op v => do return (draft, ← op.equality path (← operand op v))
  | .custom make => do
    let (started, p) ← make draft path
    return ({ draft with subqueries := draft.subqueries + started }, p)

/-- Whether a test is one of those with a fixed meaning. -/
def isStock : Test → Bool
  | .custom _ => false
  | _ => true

end Test

end CriteriaQuery
