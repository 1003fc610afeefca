/-
Running commands.

`run` reads a command line, performs its command on a host and gives the exit code. A command that only describes the
program touches no file; a report reads its request and compiles it before it looks for the database; an import reads
all records before it opens one.
-/
import LaunchReports.Catalog.Document
import LaunchReports.Command.Arguments
import LaunchReports.Command.Failure
import LaunchReports.Command.Host
import LaunchReports.Report.RequestSchema
import LaunchReports.Schema.Declaration

namespace LaunchReports

/-! ## Requests -/

/-- the options that are given, over a request; the last filter of a field counts -/
def ReportOptions.override (o : ReportOptions) (r : Request) : Request where
  query := o.query.getD r.query
  filters := o.filters.foldl (fun f p => f.insert p.1 (some p.2)) r.filters
  group := o.group <|> r.group
  order := o.order <|> r.order
  limit := o.limit <|> r.limit

namespace Command

variable {m : Type → Type} [Monad m]

/-- an access inside a command, which may fail -/
def ask (h : Host m) (a : Access) : ExceptT Failure m a.Reply := ExceptT.lift (h a)

def print (h : Host m) (line : String) : ExceptT Failure m Unit := ask h (.print line)

/-- an access that may go wrong -/
def attempt {ε α : Type} (failure : ε → Failure) (answer : Except ε α) : ExceptT Failure m α :=
  match answer with
  | .ok a => pure a
  | .error e => throw (failure e)

/-- the request file, if there is one, with the options over it -/
def buildRequest (h : Host m) (workingDirectory : String) (o : ReportOptions) : ExceptT Failure m Request := do
  match o.request with
  | none => return o.override .everything
  | some file =>
    let path := Path.join workingDirectory file
    let text ← attempt (.unreadableRequest path) (← ask h (.readText path))
    match Request.parse text.toList with
    | .ok r => return o.override r
    | .error e => throw (.invalidRequest path e)

/-! ## Databases -/

/-- a database that has to be there -/
def openExisting (h : Host m) (path : String) : ExceptT Failure m Database := do
  if !(← ask h (.isFile path)) then throw (.missingDatabase path)
  match ← ask h (.openDatabase path false) with
  | some d => return d
  | none => throw (.unavailable path (Failure.unopenedMessage path))

/-- a database with its schema, made where there is none -/
def openWithSchema (h : Host m) (path : String) : ExceptT Failure m Database := do
  if let some directory := Path.parent? path then
    attempt (.noDirectory directory) (← ask h (.createDirectories directory))
  match ← ask h (.openDatabase path true) with
  | none => throw (.unopened path)
  | some d =>
    let ready ← attempt .noSchema d.ensureSchema
    attempt .noSchema (← ask h (.saveDatabase path ready))
    return ready

/-! ## Commands -/

def printEnvelope (h : Host m) (e : Envelope) : ExceptT Failure m Unit := print h e.text

def report (h : Host m) (l : Locations) (o : ReportOptions) : ExceptT Failure m Unit := do
  let r ← buildRequest h l.workingDirectory o
  let named := fun (e : Envelope) (executed : Bool) =>
    (e.withFact "query" (.string r.query.key)).withFact "executed" (.bool executed)
  let name := CommandName.report.text
  match r.compile with
  | .error e => throw (.reportError e)
  | .ok plan =>
    if o.explain then printEnvelope h (named (.ofPlan name Aggregate.statement plan) false)
    else
      let d ← openExisting h l.database
      match (plan.execute Attached.answer (.ofDatabase d)).1 with
      | .error e => throw (.reportError e)
      | .ok outcome =>
        printEnvelope h (named (if o.singleValue then .ofSingleValue name outcome else .ofOutcome name outcome) true)

def catalog (h : Host m) (verbose : Bool) : ExceptT Failure m Unit :=
  let e := Envelope.success CommandName.catalog.text (if verbose then Catalog.entries else Catalog.names)
  printEnvelope h
    ((e.withFact "field_count" (.integer Field.all.length)).withFact "group_count" (.integer Dimension.all.length))

def requestSchema (h : Host m) (pretty : Bool) : ExceptT Failure m Unit :=
  print h (if pretty then Request.schema.pretty else Request.schema.compact)

def init (h : Host m) (l : Locations) : ExceptT Failure m Unit := do
  print h ("init: start data_dir=" ++ l.dataDirectory ++ " database=" ++ l.database)
  let _ ← openWithSchema h l.database
  print h ("init: complete schema_version=" ++ Schema.version ++ " next=import")

def statsText (s : WriteStats) : String :=
  let count := fun (n : Nat) => String.ofList (Numeral.ofNat n)
  "sessions=" ++ count s.sessionsWritten ++ " flash_info=" ++ count s.flashInfoWritten ++ " java_info=" ++
    count s.javaInfoWritten ++ " lookup_names_created=" ++ count s.namesCreated

def importRecords (h : Host m) (l : Locations) (input : String) : ExceptT Failure m Unit := do
  let path := Path.join l.workingDirectory input
  print h ("import: start input=" ++ path ++ " database=" ++ l.database)
  let text ← attempt (.unreadableRecords path) (← ask h (.readText path))
  match readRecords text.toList with
  | .error f => throw (.badRecord f)
  | .ok records =>
    let d ← openWithSchema h l.database
    match d.write records with
    | .error e => throw (.unwritten e)
    | .ok (written, stats) =>
      attempt .unsaved (← ask h (.saveDatabase l.database written))
      print h ("import: complete " ++ statsText stats)

/-! ## Whole runs -/

def locations (env : Environment) (i : Invocation) : Except LocationError Locations :=
  match i.homeDir <|> env.home with
  | none => .error .homeNotSet
  | some home => Locations.resolve home (i.workingDirectory.getD env.workingDirectory) i.database

/-- a command that works with files, at its places -/
def located (env : Environment) (i : Invocation) (act : Locations → ExceptT Failure m Unit) :
    ExceptT Failure m Unit :=
  match locations env i with
  | .ok l => act l
  | .error e => throw (.unresolved e)

def perform (h : Host m) (env : Environment) (i : Invocation) : ExceptT Failure m Unit :=
  match i.action with
  | .report o => located env i fun l => report h l o
  | .catalog verbose => catalog h verbose
  | .requestSchema pretty => requestSchema h pretty
  | .init => located env i fun l => init h l
  | .importRecords input => located env i fun l => importRecords h l input

/-- performs a command between a line that it starts and one that says how it ended -/
def runInvocation (h : Host m) (env : Environment) (i : Invocation) : m Nat := do
  let name := i.action.name.text
  h (.print ("simstats: starting `" ++ name ++ "`"))
  match ← (perform h env i).run with
  | .ok () =>
    h (.print ("simstats: completed `" ++ name ++ "` (exit_code=0)"))
    return 0
  | .error f =>
    if !f.isFatal then
      h (.printError
        ("simstats: failed `" ++ name ++ "` (exit_code=" ++ String.ofList (Numeral.ofNat f.exitCode) ++ ")"))
    h (.printError f.message)
    return f.exitCode

/-- what is printed instead of running a command -/
def answerUsage (h : Host m) (e : UsageError) : m Nat := do
  match e.answer? with
  | some text =>
    h (.print text)
    return 0
  | none =>
    h (.printError e.message)
    return 64

/-- runs a command line and gives the exit code -/
def run (h : Host m) (env : Environment) (args : List String) : m Nat :=
  match Invocation.parse env.database args with
  | .error e => answerUsage h e
  | .ok i => runInvocation h env i

end Command

end LaunchReports
