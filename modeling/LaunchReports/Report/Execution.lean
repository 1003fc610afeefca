/-
Running a plan on a connection.

A `Connection` is any state machine that answers steps. The steps of a plan are sent in their order, each to the
state that the one before left; the first failure ends the run, with the place of the step that failed. A lookup
whose answer is empty or `NULL` is reported as unmatched.
-/
import LaunchReports.Report.Compile

namespace LaunchReports

/-! ## Results -/

structure ResultSet where
  columns : List String
  rows : List (List Value)
deriving DecidableEq, Repr

namespace ResultSet

def empty : ResultSet := ⟨[], []⟩

/-- the first cell of the first row -/
def single? (r : ResultSet) : Option Value := r.rows.head?.bind List.head?

def rowJson (columns : List String) (row : List Value) : Json := .ofPairs (columns.zip (row.map Value.toJson))

/-- rows as objects, with the columns in their order -/
def jsonRows (r : ResultSet) : List Json := r.rows.map (rowJson r.columns)

end ResultSet

/-- a name that is in no row of its table -/
structure UnmatchedLookup where
  field : String
  symbol : String
  name : String
deriving DecidableEq, Repr

structure Outcome where
  result : ResultSet
  statementsExecuted : Nat
  unmatched : List UnmatchedLookup
deriving DecidableEq, Repr

/-! ## Runs -/

/-- the answer to a step, and the state after it -/
abbrev Connection (σ α : Type) := Step α → σ → Except DatabaseError ResultSet × σ

/-- the lookup behind a step, if the answer says that it found nothing -/
def Step.unmatched? {α : Type} (answer : ResultSet) : Step α → Option UnmatchedLookup
  | bind b =>
    match answer.single? with
    | none | some .null => some ⟨b.column.name, b.symbol, b.name⟩
    | some _ => none
  | _ => none

/-- what a run has gathered so far -/
structure Progress where
  executed : Nat
  result : ResultSet
  unmatched : List UnmatchedLookup
deriving DecidableEq, Repr

namespace Progress

def start : Progress := ⟨0, .empty, []⟩

def answered {α : Type} (p : Progress) (c : Step α) (answer : ResultSet) : Progress :=
  ⟨p.executed + 1, answer, p.unmatched ++ (c.unmatched? answer).toList⟩

def outcome (p : Progress) : Outcome := ⟨p.result, p.executed, p.unmatched⟩

end Progress

/-- sends the steps in turn, up to the first that fails -/
def Connection.send {σ α : Type} (conn : Connection σ α) (p : Progress) (s : σ) :
    List (Step α) → Except ReportError Progress × σ
  | [] => (.ok p, s)
  | c :: rest =>
    match conn c s with
    | (.error e, t) => (.error (.statementExecution p.executed e), t)
    | (.ok answer, t) => Connection.send conn (p.answered c answer) t rest

def Plan.execute {σ α : Type} (conn : Connection σ α) (plan : Plan α) (s : σ) : Except ReportError Outcome × σ :=
  match conn.send .start s plan.steps with
  | (.ok p, t) => (.ok p.outcome, t)
  | (.error e, t) => (.error e, t)

/-- compiles the request and runs its plan; a rejected request sends nothing -/
def Request.run {σ : Type} (conn : Connection σ Aggregate) (r : Request) (s : σ) :
    Except ReportError Outcome × σ :=
  match r.compile with
  | .error e => (.error e, s)
  | .ok plan => plan.execute conn s

end LaunchReports
