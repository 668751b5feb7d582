import CriteriaQuery.CommandLine.Arguments
import CriteriaQuery.People.Search
import CriteriaQuery.Plan.Text

/-! What the command line does: search the sample people, and report what was found. -/
namespace CriteriaQuery.CommandLine
open Calendar People
set_option autoImplicit false

/-- Why a search failed. -/
inductive Failure where
  | invalidCriteria
  | query (e : Error)

def Failure.message : Failure → String
  | .invalidCriteria => "invalid criteria"
  | .query e => e.message

/-- The search that arguments ask for; without criteria nothing is restricted. -/
def Arguments.query? (arguments : Arguments) : Option PersonQuery := do
  let criteria ←
    match arguments.criteria with
    | some text => PersonCriteria.decoder.decode? text
    | none => pure {}
  return ⟨criteria, arguments.sorts⟩

def report (today : Date) (arguments : Arguments) (query : PersonQuery) : Except Error String := do
  let format := arguments.reportFormat
  match arguments.explain, arguments.count with
  | true, true => return Report.ofPlan format (← (handler today).countPlan query).text
  | true, false => return Report.ofPlan format (← (handler today).entityPlan query).text
  | false, true => return Report.ofCount format (← count today query)
  | false, false => return Report.ofRows format (← search today query)

def run (today : Date) (arguments : Arguments) : Except Failure String :=
  match arguments.query? with
  | none => .error .invalidCriteria
  | some query => (report today arguments query).mapError .query

end CriteriaQuery.CommandLine
