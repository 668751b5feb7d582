import CriteriaQuery.CommandLine
import Std.Time

/-! The program: it reads the arguments of the command line, searches, and prints what was found. -/
namespace CriteriaQuery.CommandLine
open Calendar
set_option autoImplicit false

def usage : String :=
  "Usage: criteria-query [--count] [-s, --sort NAME[:asc|:desc]]... [-c, --criteria JSON]\n" ++
  "                      [--explain] [--format table|json]\n\n" ++
  "  --count               Print the number of matches instead of the matching rows\n" ++
  "  -s, --sort SORT       Sort key as NAME or NAME:desc, primary first (repeatable)\n" ++
  "  -c, --criteria JSON   Criteria as a JSON object\n" ++
  "  --explain             Print the compiled plan instead of running it\n" ++
  "  --format FORMAT       table (the default) or json\n" ++
  "  -h, --help            Print help\n" ++
  "  -V, --version         Print version\n"

def today : IO Date := do
  let now ← Std.Time.PlainDate.now
  return (Date.ofYmd? now.year.toInt now.month.val.toNat now.day.val.toNat).getD Date.first

def refuse : Refusal → IO UInt32
  | .help => do
    IO.print usage
    return 0
  | .version => do
    IO.println "criteria-query 0.1.0"
    return 0
  | .usage => do
    IO.eprint usage
    return 2
  | .value message => do
    IO.eprintln ("error: " ++ message)
    return 2

def search (arguments : Arguments) : IO UInt32 := do
  match run (← today) arguments with
  | .ok text =>
    IO.println text
    return 0
  | .error failure =>
    IO.eprintln ("Error: " ++ failure.message)
    return 1

def start (args : List String) : IO UInt32 :=
  match Arguments.parse args with
  | .ok arguments => search arguments
  | .error refusal => refuse refusal

end CriteriaQuery.CommandLine

def main (args : List String) : IO UInt32 := CriteriaQuery.CommandLine.start args
