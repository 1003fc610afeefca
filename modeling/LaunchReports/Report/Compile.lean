/-
From a request to its plan.

The request is checked first: names, group, order, the filter that a query needs. Then every supplied filter becomes a
`Criterion`, in catalog order, and the criteria are assembled into the one statement of the report.
-/
import LaunchReports.Report.Assembly
import LaunchReports.Report.Plan
import LaunchReports.Report.Request
import LaunchReports.Sql.Select

namespace LaunchReports

/-! ## Criteria -/

/-- what a supplied filter asks of a session -/
inductive Criterion where
  | compares (column : Column) (comparison : Comparison)
  | isOfType (t : SimType)
  | isNamed (b : Binding)
deriving DecidableEq, Repr

namespace Criterion

def condition : Criterion → Condition
  | compares column comparison => .compares column comparison
  | isOfType t => .isOfType t
  | isNamed b => b.condition

def binding? : Criterion → Option Binding
  | isNamed b => some b
  | _ => none

/-- the table that holds what is asked for -/
def table : Criterion → Table
  | compares column _ => column.table
  | isOfType _ => .session
  | isNamed b => b.column.table

/-- what the criterion adds to a report -/
def steps (c : Criterion) : List (Assembly.Step Condition Table) :=
  [.touchTable c.table, if c.binding?.isSome then .deferred c.condition else .direct c.condition]

end Criterion

/-- the criterion that a value of the field stands for -/
def Field.criterion (f : Field) (value : String) : Except ReportError Criterion :=
  match f.grammar with
  | .numeric =>
    match Comparison.parseNumeric value.toList with
    | .ok c => .ok (.compares f.column c)
    | .error e => .error (.badFilterValue f.name value e.message)
  | .text => .ok (.compares f.column (Comparison.parseText value.toList))
  | .lookup target => .ok (.isNamed ⟨f.column, target, value⟩)
  | .simType =>
    match SimType.ofName? value with
    | some t => .ok (.isOfType t)
    | none => .error (.badFilterValue f.name value "expected `java` or `flash`")

/-! ## Reports -/

/-- the statement of a report, with the query that it answers -/
structure Aggregate where
  query : Query
  select : Select
deriving DecidableEq, Repr

def Aggregate.statement (a : Aggregate) : Statement := ⟨.aggregate a.query.key, a.select.sql, a.select.params⟩

namespace Request

/-- the first name that is no field -/
def unknownField? (r : Request) : Option String := r.filters.keys.find? fun name => (Field.named? name).isNone

/-- what the request groups by, if it groups -/
def dimension (r : Request) : Except ReportError (Option Dimension) :=
  match r.group? with
  | none => .ok none
  | some name =>
    match Dimension.grouping? name with
    | some d => .ok (some d)
    | none => .error (.badFilterField name)

/-- a limit counts only beside an order -/
def arrangement (r : Request) : Except ReportError (Option Arrangement) :=
  match r.order? with
  | none => .ok none
  | some raw =>
    match Order.read? raw.toList with
    | some o => .ok (some ⟨o, r.limit?.map fun n => Int64.ofNat (min n.toNat (Int64.maxValue.toInt.toNat))⟩)
    | none => .error (.badOrderField raw)

/-- the criteria of the supplied filters, in catalog order -/
def criteria (r : Request) : Except ReportError (List Criterion) :=
  (Field.all.filterMap fun f => (r.value? f.name).map fun value => (f, value)).mapM fun (f, value) => f.criterion value

/-- the types of one simulation -/
def simTypes : Select where
  distinct := true
  labels := [⟨.simTypeName, "sim_type"⟩]
  measure := none
  tables := []
  conditions := [.refersTo (.session .simName) .simName]
  keys := []
  arrangement := none

/-- the measure of the sessions that meet the criteria, by the values of the dimension -/
def tally (measure : Measure) (name : String) (criteria : List Criterion) (dimension : Option Dimension)
    (arrangement : Option Arrangement) : Select :=
  let collected := Assembly.run .structured (criteria.flatMap Criterion.steps)
  let grouped := match dimension with
    | some d => collected.group .structured d
    | none => collected
  let assembled := grouped.finish .structured
  { distinct := false
    labels := (dimension.map Dimension.labels).getD []
    measure := some (measure, name)
    tables := assembled.joins
    conditions := assembled.conditions
    keys := (dimension.map Dimension.keys).getD []
    arrangement := arrangement }

/-- the statement that computes the report -/
def select (r : Request) (criteria : List Criterion) (dimension : Option Dimension)
    (arrangement : Option Arrangement) : Select :=
  match r.query.measure? with
  | some m => tally m r.query.key criteria dimension arrangement
  | none => simTypes

/-- the fields that a query cannot do without -/
def missingFilter? (r : Request) : Option Field :=
  if r.query = .simType ∧ (r.value? Field.simName.name).isNone then some .simName else none

def compile (r : Request) : Except ReportError (Plan Aggregate) := do
  if let some field := r.unknownField? then throw (.badFilterField field)
  let dimension ← r.dimension
  let arrangement ← r.arrangement
  if let some field := r.missingFilter? then throw (.missingRequiredFilter r.query.key field.name)
  let criteria ← r.criteria
  let select := r.select criteria dimension arrangement
  Plan.make (criteria.filterMap Criterion.binding?) ⟨r.query, select⟩
    (Fragment.symbols (select.conditions.map Condition.fragment))

end Request

end LaunchReports
