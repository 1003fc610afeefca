/-
Reading a command line.

Options of the program may stand before or after the command; the one after wins. An option takes its value after `=` or
as the next argument, which then must not look like an option. A value is checked only when the next option or operand
comes, or at the end, so an argument that is not known is reported before a bad value right in front of it. The command
is read to its end before a value still open in front of it is checked.
-/
import LaunchReports.Command.Usage
import LaunchReports.Number.Numeral
import LaunchReports.Number.Power
import LaunchReports.Report.Query
import LaunchReports.Text.Blank

namespace LaunchReports

/-! ## What a command line says -/

structure ReportOptions where
  query : Option Query
  /-- field and value, in the order given -/
  filters : List (String × String)
  group : Option String
  order : Option String
  limit : Option UInt64
  request : Option String
  explain : Bool
  singleValue : Bool
deriving DecidableEq, Repr

inductive Action where
  | report (options : ReportOptions)
  | catalog (verbose : Bool)
  | requestSchema (pretty : Bool)
  | init
  | importRecords (input : String)
deriving DecidableEq, Repr

def Action.name : Action → CommandName
  | report _ => .report
  | catalog _ => .catalog
  | requestSchema _ => .requestSchema
  | init => .init
  | importRecords _ => .importRecords

structure Invocation where
  homeDir : Option String
  workingDirectory : Option String
  database : Option String
  action : Action
deriving DecidableEq, Repr

/-! ## Values -/

/-- a field, trimmed, and everything after the first `=` -/
def parseFilter (raw : String) : Option (String × String) :=
  let field := raw.toList.takeWhile (· ≠ '=')
  match raw.toList.dropWhile (· ≠ '=') with
  | [] => none
  | _ :: value =>
    if Text.allBlank field then none else some (String.ofList (Text.trim field), String.ofList value)

/-- a number of 64 bits, a plus sign allowed -/
def parseLimit (raw : String) : Option UInt64 :=
  let digits := match raw.toList with
    | '+' :: rest => rest
    | text => text
  ((Numeral.nat? digits).filter fun (n : Nat) => fitsUInt64 n).map UInt64.ofNat

/-- the options read so far, of the program or of a command -/
structure Given where
  homeDir : Option String
  workingDirectory : Option String
  database : Option String
  report : ReportOptions
  verbose : Bool
  pretty : Bool
  input : Option String
deriving DecidableEq, Repr

namespace Given

def nothing : Given := ⟨none, none, none, ⟨none, [], none, none, none, none, false, false⟩, false, false, none⟩

/-- a value for a place that has none yet -/
def once {α : Type} (present : Option α) (value : Except UsageError α) : Except UsageError (Option α) :=
  if present.isSome then .error .argumentConflict else value.map some

/-- a switch that is still off -/
def switch (present : Bool) : Except UsageError Bool := if present then .error .argumentConflict else .ok true

def pathValue (raw : String) : Except UsageError String := if raw.isEmpty then .error .invalidValue else .ok raw

def checked {α : Type} (value : Option α) : Except UsageError α :=
  match value with
  | some a => .ok a
  | none => .error .valueValidation

/-- an option that takes a value, with its value -/
def setValue (g : Given) (o : OptionName) (raw : String) : Except UsageError Given :=
  match o with
  | .homeDir => return { g with homeDir := ← once g.homeDir (pathValue raw) }
  | .cwd => return { g with workingDirectory := ← once g.workingDirectory (pathValue raw) }
  | .db => return { g with database := ← once g.database (pathValue raw) }
  | .query => return { g with report := { g.report with query := ← once g.report.query (checked (Query.ofKey? raw)) } }
  | .filter =>
    return { g with report := { g.report with filters := g.report.filters ++ [← checked (parseFilter raw)] } }
  | .group => return { g with report := { g.report with group := ← once g.report.group (.ok raw) } }
  | .order => return { g with report := { g.report with order := ← once g.report.order (.ok raw) } }
  | .limit => return { g with report := { g.report with limit := ← once g.report.limit (checked (parseLimit raw)) } }
  | .request => return { g with report := { g.report with request := ← once g.report.request (pathValue raw) } }
  | _ => .ok g

/-- an option without a value -/
def setSwitch (g : Given) (o : OptionName) : Except UsageError Given :=
  match o with
  | .explain => return { g with report := { g.report with explain := ← switch g.report.explain } }
  | .singleValue => return { g with report := { g.report with singleValue := ← switch g.report.singleValue } }
  | .verbose => return { g with verbose := ← switch g.verbose }
  | .pretty => return { g with pretty := ← switch g.pretty }
  | .help => .error .displayHelp
  | .version => .error .displayVersion
  | _ => .ok g

end Given

/-! ## Reading arguments -/

/-- what was read last and is still to be checked -/
inductive Pending where
  | nothing
  /-- an option whose value comes next -/
  | awaited (o : OptionName)
  | value (o : OptionName) (raw : String)
  | operand (raw : String)
deriving DecidableEq, Repr

structure Scan where
  given : Given
  pending : Pending
  /-- after `--` every argument is an operand -/
  operandsOnly : Bool
deriving DecidableEq, Repr

namespace Scan

def start : Scan := ⟨.nothing, .nothing, false⟩

/-- checks what was read last -/
def settle (s : Scan) : Except UsageError Scan :=
  match s.pending with
  | .nothing => .ok s
  | .awaited _ => .error .invalidValue
  | .value o raw => (s.given.setValue o raw).map fun g => { s with given := g, pending := .nothing }
  | .operand raw =>
    (Given.pathValue raw).map fun input =>
      { s with given := { s.given with input := some input }, pending := .nothing }

/-- an option that is known -/
def option (s : Scan) (o : OptionName) (attached : Option String) : Except UsageError Scan :=
  match o.takesValue, attached with
  | true, none => s.settle.map fun t => { t with pending := .awaited o }
  | true, some raw => do
    let t ← s.settle
    return { t with given := ← t.given.setValue o raw }
  | false, none => do
    let t ← s.settle
    return { t with given := ← t.given.setSwitch o }
  | false, some _ => .error .tooManyValues

/-- letters after one dash, each an option without a value -/
def letters (level : Option CommandName) (s : Scan) : List Char → Except UsageError Scan
  | [] => .ok s
  | c :: rest =>
    match (OptionName.taken level).find? fun o => o.short? = some c with
    | some o => (s.option o none).bind fun t => letters level t rest
    | none => .error .unknownArgument

/-- the name of an option and the value after `=` -/
def splitLong (text : List Char) : String × Option String :=
  let name := String.ofList (text.takeWhile (· ≠ '='))
  match text.dropWhile (· ≠ '=') with
  | [] => (name, none)
  | _ :: value => (name, some (String.ofList value))

/-- an argument that is neither an option nor the value of one -/
def operand (level : Option CommandName) (s : Scan) (raw : String) : Except UsageError Scan :=
  match level with
  | some .importRecords =>
    let taken := s.given.input.isSome || match s.pending with
      | .operand _ => true
      | _ => false
    if taken then .error .unknownArgument else s.settle.map fun t => { t with pending := .operand raw }
  | some _ => .error .unknownArgument
  | none =>
    if s.operandsOnly && (raw = "help" || (CommandName.ofText? raw).isSome) then .error .unknownArgument
    else .error .invalidSubcommand

/-- one argument that is no command -/
def argument (level : Option CommandName) (s : Scan) (raw : String) : Except UsageError Scan :=
  if s.operandsOnly then s.operand level raw
  else
    match raw.toList with
    | ['-', '-'] => .ok { s with operandsOnly := true }
    | '-' :: '-' :: text =>
      let (name, attached) := splitLong text
      match (OptionName.taken level).find? fun o => o.long = name with
      | some o => s.option o attached
      | none => .error .unknownArgument
    | '-' :: c :: rest => letters level s (c :: rest)
    | _ =>
      match s.pending with
      | .awaited o => .ok { s with pending := .value o raw }
      | _ => s.operand level raw

/-- a value is due, so the next argument is no command -/
def isAwaiting (s : Scan) : Bool :=
  match s.pending with
  | .awaited _ => true
  | _ => false

/-- `help` may be followed by one command -/
def helpAnswer : List String → UsageError
  | [] => .displayHelp
  | [name] => if name = "help" || (CommandName.ofText? name).isSome then .displayHelp else .invalidSubcommand
  | _ => .invalidSubcommand

/-- the program's own arguments, up to a command and what follows it -/
def program (s : Scan) : List String → Except UsageError (Scan × Option (CommandName × List String))
  | [] => .ok (s, none)
  | raw :: rest =>
    if s.operandsOnly || s.isAwaiting then (s.argument none raw).bind fun t => program t rest
    else if raw = "help" then .error (helpAnswer rest)
    else
      match CommandName.ofText? raw with
      | some c => .ok (s, some (c, rest))
      | none => (s.argument none raw).bind fun t => program t rest

/-- the arguments of a command -/
def command (c : CommandName) (s : Scan) : List String → Except UsageError Scan
  | [] => .ok s
  | raw :: rest => (s.argument (some c) raw).bind fun t => command c t rest

/-- everything read; a database path from the environment has to be a path where no option gives one -/
def finish (s : Scan) (environmentDatabase : Option String) : Except UsageError Given := do
  let t ← s.settle
  if t.given.database.isNone && environmentDatabase = some "" then throw .invalidValue
  return t.given

end Scan

/-! ## The whole command line -/

def Given.action (g : Given) : CommandName → Except UsageError Action
  | .report =>
    if g.report.explain && g.report.singleValue then .error .argumentConflict else .ok (.report g.report)
  | .catalog => .ok (.catalog g.verbose)
  | .requestSchema => .ok (.requestSchema g.pretty)
  | .init => .ok .init
  | .importRecords =>
    match g.input with
    | some input => .ok (.importRecords input)
    | none => .error .missingRequiredArgument

namespace Invocation

def parse (environmentDatabase : Option String) (args : List String) : Except UsageError Invocation := do
  let (program, found) ← Scan.start.program args
  match found with
  | none =>
    let given ← program.finish environmentDatabase
    if given = .nothing && environmentDatabase.isNone then throw .displayHelpOnMissingArgumentOrSubcommand
    throw .missingSubcommand
  | some (name, rest) =>
    let inner ← (← Scan.start.command name rest).finish environmentDatabase
    let action ← inner.action name
    let outer ← program.finish environmentDatabase
    return {
      homeDir := inner.homeDir <|> outer.homeDir
      workingDirectory := inner.workingDirectory <|> outer.workingDirectory
      database := inner.database <|> outer.database <|> environmentDatabase
      action := action }

end Invocation

end LaunchReports
