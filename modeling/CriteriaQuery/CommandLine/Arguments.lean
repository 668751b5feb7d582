import CriteriaQuery.People.Criteria
import CriteriaQuery.Report

/-! The arguments of the command line. Options have long names and some have short ones; a value
stands behind its option, in the same argument or in the next one. The value of the next argument
is read when another option begins or the arguments end, so that a mistake in between is found
first. -/
namespace CriteriaQuery.CommandLine
open People
set_option autoImplicit false

/-- What the arguments ask for. -/
structure Arguments where
  /-- Print the number of matches instead of the rows. -/
  count : Bool := false
  /-- Sorts, the primary one first. -/
  sorts : List (SortRequest PersonSort) := []
  /-- Criteria as JSON text. -/
  criteria : Option String := none
  /-- Print the compiled plan instead of executing it. -/
  explain : Bool := false
  format : Option Report.Format := none
deriving DecidableEq

/-- The format asked for, or else the table. -/
def Arguments.reportFormat (arguments : Arguments) : Report.Format := arguments.format.getD .table

/-- Why arguments ask for nothing. -/
inductive Refusal where
  /-- Help is asked for. -/
  | help
  /-- The version is asked for. -/
  | version
  /-- The arguments are not in order. -/
  | usage
  /-- A value is not one for its option. -/
  | value (message : String)
deriving DecidableEq

/-! ## Options -/

/-- Options with a value. -/
inductive Setting where
  | sort
  | criteria
  | format
deriving DecidableEq

/-- Options without a value. -/
inductive Switch where
  | count
  | explain
  | help
  | version
deriving DecidableEq

/-- An option. -/
inductive Opt where
  | setting (s : Setting)
  | switch (s : Switch)
deriving DecidableEq

def Opt.ofLong? (name : String) : Option Opt :=
  [("count", .switch .count), ("sort", .setting .sort), ("criteria", .setting .criteria),
    ("explain", .switch .explain), ("format", .setting .format), ("help", .switch .help),
    ("version", .switch .version)].lookup name

def Opt.ofShort? (c : Char) : Option Opt :=
  [('s', .setting .sort), ('c', .setting .criteria), ('h', .switch .help),
    ('V', .switch .version)].lookup c

/-! ## Values -/

def cutAtLastColon (cs : List Char) : Option (List Char × List Char) :=
  match cs.reverse.span (· ≠ ':') with
  | (back, _ :: front) => some (front.reverse, back.reverse)
  | (_, []) => none

/-- The direction at the end of a sort, behind a colon; without one the sort ascends. -/
def readSort (value : String) : Except String (SortRequest PersonSort) := do
  let (name, direction) ←
    match cutAtLastColon value.toList with
    | none => pure (value, .ascending)
    | some (name, direction) =>
      match [Direction.ascending, .descending].find? (·.name = String.ofList direction) with
      | some direction => pure (String.ofList name, direction)
      | none => .error ("unknown sort direction '" ++ String.ofList direction ++ "'")
  match PersonSort.ofName? name with
  | some identifier => return ⟨identifier, direction⟩
  | none => .error (PersonSort.unknownName name)

/-- Gives an option its value. Only sorts may be repeated. -/
def Arguments.assign (arguments : Arguments) (setting : Setting) (value : String) :
    Except Refusal Arguments :=
  match setting with
  | .sort =>
    match readSort value with
    | .ok sort => .ok { arguments with sorts := arguments.sorts ++ [sort] }
    | .error message => .error (.value message)
  | .criteria =>
    if arguments.criteria.isSome then .error .usage
    else .ok { arguments with criteria := some value }
  | .format =>
    match arguments.format, Report.Format.ofName? value with
    | none, some format => .ok { arguments with format := some format }
    | _, _ => .error .usage

/-- Turns a switch on, which may be done once. -/
def Arguments.turnOn (arguments : Arguments) : Switch → Except Refusal Arguments
  | .count => if arguments.count then .error .usage else .ok { arguments with count := true }
  | .explain => if arguments.explain then .error .usage else .ok { arguments with explain := true }
  | .help => .error .help
  | .version => .error .version

/-! ## Reading arguments -/

/-- The arguments read so far. -/
structure Parsing where
  arguments : Arguments := {}
  /-- The last option, if its value is still to come or still to be read. -/
  pending : Option (Setting × Option String) := none

namespace Parsing

def settle (parsing : Parsing) : Except Refusal Arguments :=
  match parsing.pending with
  | none => .ok parsing.arguments
  | some (_, none) => .error .usage
  | some (setting, some value) => parsing.arguments.assign setting value

def expect (parsing : Parsing) (setting : Setting) : Except Refusal Parsing :=
  parsing.settle.map fun arguments => ⟨arguments, some (setting, none)⟩

def assign (parsing : Parsing) (setting : Setting) (value : String) : Except Refusal Parsing := do
  return ⟨← (← parsing.settle).assign setting value, none⟩

def turnOn (parsing : Parsing) (switch : Switch) : Except Refusal Parsing := do
  return ⟨← (← parsing.settle).turnOn switch, none⟩

/-- Reads a long option: its name, and its value behind an equals sign if there is one. -/
def long (parsing : Parsing) (cs : List Char) : Except Refusal Parsing :=
  let (name, rest) := cs.span (· ≠ '=')
  match Opt.ofLong? (String.ofList name), rest with
  | some (.setting setting), [] => parsing.expect setting
  | some (.setting setting), _ :: value => parsing.assign setting (String.ofList value)
  | some (.switch switch), [] => parsing.turnOn switch
  | _, _ => .error .usage

/-- Reads short options in one argument. What stands behind one with a value is the value, an
equals sign in between apart. -/
def short (parsing : Parsing) : List Char → Except Refusal Parsing
  | [] => .ok parsing
  | c :: rest =>
    match Opt.ofShort? c with
    | some (.switch switch) => do (← parsing.turnOn switch).short rest
    | some (.setting setting) =>
      match rest with
      | [] => parsing.expect setting
      | '=' :: value => parsing.assign setting (String.ofList value)
      | value => parsing.assign setting (String.ofList value)
    | none => .error .usage

/-- Reads an argument that is no option: it has to be the value of the option before it. -/
def plain (parsing : Parsing) (value : String) : Except Refusal Parsing :=
  match parsing.pending with
  | some (setting, none) => .ok { parsing with pending := some (setting, some value) }
  | _ => .error .usage

/-- Reads an argument. A hyphen alone is no option. -/
def argument (parsing : Parsing) (arg : String) : Except Refusal Parsing :=
  match arg.toList with
  | '-' :: '-' :: cs => parsing.long cs
  | '-' :: c :: cs => parsing.short (c :: cs)
  | _ => parsing.plain arg

/-- Reads arguments to the end. Two hyphens end the options, and nothing may stand behind them. -/
def all (parsing : Parsing) : List String → Except Refusal Arguments
  | [] => parsing.settle
  | arg :: rest =>
    if arg = "--" then if rest = [] then parsing.settle else .error .usage
    else do (← parsing.argument arg).all rest

end Parsing

def Arguments.parse (args : List String) : Except Refusal Arguments := Parsing.all {} args

end CriteriaQuery.CommandLine
