/-
A plan: the statements that answer one request, in their order.

Lookups come first. Where there are any, one statement declares the bindings and one a lookup sets its variable; the
aggregate, which may read the variables, is the last. `Plan.make` refuses an aggregate that reads a variable that no
lookup of the plan binds.
-/
import LaunchReports.Catalog.Field
import LaunchReports.Report.Error
import LaunchReports.Sql.Condition

namespace LaunchReports

/-! ## Bindings -/

/-- the name of a lookup field, to be replaced by its id -/
structure Binding where
  column : Column
  target : NameTable
  name : String
deriving DecidableEq, Repr

namespace Binding

def ofField? (f : Field) (name : String) : Option Binding := f.grammar.target?.map fun t => ⟨f.column, t, name⟩

def symbol (b : Binding) : String := b.target.symbol

/-- what sessions with this name satisfy once the variable is set -/
def condition (b : Binding) : Condition := .refersTo b.column b.target

end Binding

/-! ## Statements -/

/-- what a plan does at once; `α` is what aggregates are -/
inductive Step (α : Type) where
  | declare
  | bind (b : Binding)
  | aggregate (a : α)
deriving DecidableEq, Repr

inductive StatementKind where
  | declareBindings
  | bindLookup (field symbol : String)
  | aggregate (query : String)
deriving DecidableEq, Repr

/-- a statement as text -/
structure Statement where
  kind : StatementKind
  sql : String
  params : List Value
deriving DecidableEq, Repr

namespace Statement

def kindName : StatementKind → String
  | .declareBindings => "declare_bindings"
  | .bindLookup .. => "bind_lookup"
  | .aggregate _ => "aggregate"

/-- how plans are listed -/
def toJson (s : Statement) : Json :=
  .object
    ([("kind", .string (kindName s.kind)), ("sql", .string s.sql), ("params", .strings (s.params.map Value.literal))] ++
      match s.kind with
      | .declareBindings => []
      | .bindLookup field symbol => [("field", .string field), ("symbol", .string symbol)]
      | .aggregate query => [("query", .string query)])

def declare : Statement := ⟨.declareBindings, Variable.declareSql, []⟩

def ofBinding (b : Binding) : Statement :=
  ⟨.bindLookup b.column.name b.symbol, Variable.bindSql b.target, [.text b.name]⟩

end Statement

/-- the text of a step; `text` writes the aggregate -/
def Step.statement {α : Type} (text : α → Statement) : Step α → Statement
  | declare => .declare
  | bind b => .ofBinding b
  | aggregate a => text a

/-! ## Plans -/

structure Plan (α : Type) where
  bindings : List Binding
  aggregate : α
deriving DecidableEq, Repr

namespace Plan

variable {α : Type}

/-- the plan, if its lookups bind every variable that the aggregate reads -/
def make (bindings : List Binding) (aggregate : α) (reads : List String) : Except ReportError (Plan α) :=
  match reads.find? fun symbol => !(bindings.any fun b => b.symbol = symbol) with
  | some symbol => .error (.unboundVariable symbol)
  | none => .ok ⟨bindings, aggregate⟩

/-- the steps before the aggregate -/
def preparatory (p : Plan α) : List (Step α) :=
  if p.bindings.isEmpty then [] else .declare :: p.bindings.map .bind

def steps (p : Plan α) : List (Step α) := p.preparatory ++ [.aggregate p.aggregate]

/-- how many steps there are -/
def size (p : Plan α) : Nat := p.preparatory.length + 1

/-- the place of the step that binds the variable -/
def bindingPosition? (p : Plan α) (symbol : String) : Option Nat :=
  p.preparatory.findIdx? fun
    | .bind b => b.symbol = symbol
    | _ => false

def statements (text : α → Statement) (p : Plan α) : List Statement := p.steps.map (Step.statement text)

def toJson (text : α → Statement) (p : Plan α) : Json := .array ((p.statements text).map Statement.toJson)

end Plan

end LaunchReports
