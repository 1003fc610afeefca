/-
The document that a command answers with.

An envelope holds data or an error, facts about the run sorted by name, and warnings. `Envelope.text` is its written
form and `Envelope.parse` reads it back; a `null` in an optional place is read as absent. A run knows no clock: when an
envelope was made stands beside it, in `Envelope.Stamped`, which has a written form of its own.
-/
import LaunchReports.Report.Execution

namespace LaunchReports

/-! ## Notices -/

/-- a warning or an error -/
structure Notice where
  code : String
  message : String
  details : Option Json
deriving Repr

namespace Notice

def members (n : Notice) : List (String × Json) :=
  [("code", .string n.code), ("message", .string n.message)] ++ Json.present "details" id n.details

def toJson (n : Notice) : Json := .object n.members

def shape : Shape where
  name := "EnvelopeNotice"
  fields :=
    [⟨"code", Reader.check Reader.string, false⟩, ⟨"message", Reader.check Reader.string, false⟩,
      ⟨"details", Reader.check (Reader.optional Reader.json), false⟩]
  closed := false

def read : Reader Notice := fun d => do
  let fields ← shape.members d
  return {
    code := ← Reader.required fields "code" Reader.string
    message := ← Reader.required fields "message" Reader.string
    details := ← Reader.withDefault fields "details" (Reader.optional Reader.json) none }

end Notice

/-! ## Envelopes -/

structure Envelope where
  ok : Bool
  command : String
  data : Option Json
  facts : Keyed Json
  warnings : List Notice
  error : Option Notice
deriving Repr

namespace Envelope

def schemaVersion : String := "simstats.envelope.v1"

/-- neither data nor error yet -/
def base (ok : Bool) (command : String) : Envelope where
  ok := ok
  command := command
  data := none
  facts := Keyed.empty.insert "schema_version" (.string schemaVersion)
  warnings := []
  error := none

def success (command : String) (data : Json) : Envelope := { base true command with data := some data }

def failure (command code message : String) : Envelope :=
  { base false command with error := some ⟨code, message, none⟩ }

def withFact (e : Envelope) (key : String) (value : Json) : Envelope :=
  { e with facts := e.facts.insert key value }

def withWarning (e : Envelope) (code message : String) : Envelope :=
  { e with warnings := e.warnings ++ [⟨code, message, none⟩] }

/-- the details of the last warning, if there is one -/
def withWarningDetails (e : Envelope) (details : Json) : Envelope :=
  { e with
    warnings := e.warnings.dropLast ++ e.warnings.getLast?.toList.map fun w => { w with details := some details } }

/-- the details of the error, if there is one -/
def withErrorDetails (e : Envelope) (details : Json) : Envelope :=
  { e with error := e.error.map fun n => { n with details := some details } }

/-! ## Answers to reports -/

def withUnmatched (e : Envelope) (u : UnmatchedLookup) : Envelope :=
  let message := "no `" ++ u.field ++ "` named `" ++ u.name ++ "`; the report is empty"
  (e.withWarning "unmatched_lookup" message).withWarningDetails
    (.object [("field", .string u.field), ("symbol", .string u.symbol), ("name", .string u.name)])

/-- the facts of a run, and a warning for each lookup without a match -/
def withOutcome (e : Envelope) (o : Outcome) : Envelope :=
  let counted := (e.withFact "row_count" (.integer o.result.rows.length)).withFact "statements_executed"
    (.integer o.statementsExecuted)
  o.unmatched.foldl withUnmatched counted

/-- all rows -/
def ofOutcome (command : String) (o : Outcome) : Envelope :=
  (success command
    (.object [("columns", .strings o.result.columns), ("rows", .array o.result.jsonRows)])).withOutcome o

/-- the first cell of the first row alone, `null` without one -/
def ofSingleValue (command : String) (o : Outcome) : Envelope :=
  (success command (.object [("value", .ofOption Value.toJson o.result.single?)])).withOutcome o

/-- the statements instead of their results -/
def ofPlan {α : Type} (command : String) (text : α → Statement) (p : Plan α) : Envelope :=
  (success command (.object [("statements", p.toJson text)])).withFact "statement_count" (.integer p.size)

def errorDetails : ReportError → Json
  | .statementExecution index cause =>
    .object [("statement_index", .integer index), ("cause", .string cause.message)]
  | e => .object [("rejected", .bool e.isRejection)]

def ofReportError (command : String) (e : ReportError) : Envelope :=
  (failure command e.code e.message).withErrorDetails (errorDetails e)

/-! ## Written form -/

/-- the members, with `stamp` after the command -/
def members (stamp : List (String × Json)) (e : Envelope) : List (String × Json) :=
  [("ok", .bool e.ok), ("command", .string e.command)] ++ stamp ++
    (Json.present "data" id e.data ++
      [("meta", .object e.facts.entries), ("warnings", .array (e.warnings.map Notice.toJson))] ++
      Json.present "error" Notice.toJson e.error)

def toJson (e : Envelope) : Json := .object (e.members [])

def text (e : Envelope) : String := e.toJson.compact

def readFacts : Reader (Keyed Json) := fun d => (Reader.map Reader.json d).map .ofPairs

/-- the shape, with the fields of `stamp` after the command -/
def shapeWith (stamp : List FieldShape) : Shape where
  name := "ReportEnvelope"
  fields :=
    [⟨"ok", Reader.check Reader.bool, false⟩, ⟨"command", Reader.check Reader.string, false⟩] ++ stamp ++
      [⟨"data", Reader.check (Reader.optional Reader.json), false⟩, ⟨"meta", Reader.check readFacts, false⟩,
        ⟨"warnings", Reader.check (Reader.list Notice.read), false⟩,
        ⟨"error", Reader.check (Reader.optional Notice.read), false⟩]
  closed := false

def shape : Shape := shapeWith []

def read : Reader Envelope := fun d => do
  let fields ← shape.members d
  return {
    ok := ← Reader.required fields "ok" Reader.bool
    command := ← Reader.required fields "command" Reader.string
    data := ← Reader.withDefault fields "data" (Reader.optional Reader.json) none
    facts := ← Reader.required fields "meta" readFacts
    warnings := ← Reader.required fields "warnings" (Reader.list Notice.read)
    error := ← Reader.withDefault fields "error" (Reader.optional Notice.read) none }

def parse (text : List Char) : Except ReadError Envelope := Reader.parse read text

/-! ## The time of an envelope -/

/-- an envelope and when it was made -/
structure Stamped where
  generatedAt : String
  envelope : Envelope
deriving Repr

namespace Stamped

def toJson (s : Stamped) : Json := .object (s.envelope.members [("generated_at_utc", .string s.generatedAt)])

def text (s : Stamped) : String := s.toJson.compact

def shape : Shape := shapeWith [⟨"generated_at_utc", Reader.check Reader.string, false⟩]

def read : Reader Stamped := fun d => do
  let fields ← shape.members d
  let ok ← Reader.required fields "ok" Reader.bool
  let command ← Reader.required fields "command" Reader.string
  let generatedAt ← Reader.required fields "generated_at_utc" Reader.string
  let data ← Reader.withDefault fields "data" (Reader.optional Reader.json) none
  let facts ← Reader.required fields "meta" readFacts
  let warnings ← Reader.required fields "warnings" (Reader.list Notice.read)
  let error ← Reader.withDefault fields "error" (Reader.optional Notice.read) none
  return ⟨generatedAt, ⟨ok, command, data, facts, warnings, error⟩⟩

def parse (text : List Char) : Except ReadError Stamped := Reader.parse read text

end Stamped

end Envelope

/-- an envelope that ends a command -/
structure CommandFailure where
  envelope : Envelope
  rejected : Bool
deriving Repr

def CommandFailure.ofReportError (command : String) (e : ReportError) : CommandFailure :=
  ⟨.ofReportError command e, e.isRejection⟩

end LaunchReports
