/-
What the order of a report refers to.

The name is first looked up among the names of the result, then among the columns of the tables, both without regard to
case. `rowid` and its two synonyms name the id of a row. Words of SQL that cannot be a name are faults of the statement.
-/
import LaunchReports.Sql.DatabaseError
import LaunchReports.Sql.Keyword
import LaunchReports.Sql.Select

namespace LaunchReports

inductive OrderTerm where
  /-- the column of the result with this index -/
  | output (index : Nat)
  | column (c : Column)
  /-- the same for all rows -/
  | constant
deriving DecidableEq, Repr

/-- the column that identifies the rows of a table -/
def Table.rowId : Table → Column
  | .session => .session .id
  | .side s => s.sessionId
  | .names t => .names t .id

namespace OrderTerm

/-! ## Names -/

def rowIdNames : List String := ["rowid", "_rowid_", "oid"]

def truthNames : List String := ["true", "false"]

/-- the tables that a qualifier admits -/
def admitted (tables : List Table) : Option String → List Table
  | none => tables
  | some q => tables.filter fun t => Keyword.sameWord t.name q

/-- the one column that a name can mean -/
def ofName (tables : List Table) (c : ColumnName) : Except StatementFault OrderTerm :=
  let candidates := admitted tables c.qualifier
  match (candidates.flatMap Table.columns).filter fun k => Keyword.sameWord k.name c.name with
  | [k] => .ok (.column k)
  | _ :: _ :: _ => .error (.ambiguousColumn c.text)
  | [] =>
    if rowIdNames.any (Keyword.sameWord c.name) then
      match candidates with
      | [t] => .ok (.column t.rowId)
      | [] => .error (.noSuchColumn c.text)
      | _ => .error (.ambiguousColumn c.text)
    else if c.qualifier.isNone && truthNames.any (Keyword.sameWord c.name) then .ok .constant
    else .error (.noSuchColumn c.text)

/-! ## Words -/

/-- what the statement fails with, and where; the place is counted from the start of the name -/
inductive Refusal where
  | fault (fault : StatementFault) (place : Nat)
  | incomplete
deriving DecidableEq, Repr

/-- the word that follows a name that opens an expression -/
def refusalAfter (a : Arrangement) (word : String) (kind : WordClass) : Refusal :=
  let place := word.length + 1
  let limitPlace := place + if a.order.descending then 5 else 0
  let atLimit : Refusal :=
    if a.limit.isSome then .fault (.unexpectedWord "LIMIT") limitPlace else .incomplete
  if a.order.descending then
    if kind = .choice then atLimit else .fault (.unexpectedWord "DESC") place
  else atLimit

/-- after `NOT` the direction is read as a name -/
def negatesDirection (a : Arrangement) : Bool :=
  a.order.descending && a.order.column.qualifier.isNone && Keyword.classify a.order.column.name = .negation

/-- a name that is no column name for its words -/
def refusedWords? (a : Arrangement) : Option Refusal :=
  let c := a.order.column
  match c.qualifier with
  | none =>
    match Keyword.classify c.name with
    | .name | .constant => none
    | .negation => if negatesDirection a then none else some (refusalAfter a c.name .negation)
    | .reserved => some (.fault (.unexpectedWord c.name) 0)
    | kind => some (refusalAfter a c.name kind)
  | some q =>
    match Keyword.classify q with
    | .name =>
      if Keyword.refusedAsName c.name then some (.fault (.unexpectedWord c.name) (q.length + 1)) else none
    | .reserved => some (.fault (.unexpectedWord q) 0)
    | _ => some (.fault (.unexpectedWord ".") q.length)

/-- the term of an order, where the words are no obstacle; a fault comes with its place -/
def resolve (outputs : List String) (tables : List Table) (a : Arrangement) : Except (StatementFault × Nat) OrderTerm :=
  let c := a.order.column
  if negatesDirection a then .error (.noSuchColumn "DESC", c.name.length + 1)
  else if c.qualifier.isNone && Keyword.classify c.name = .constant then .ok .constant
  else
    match if c.qualifier.isNone then outputs.findIdx? (Keyword.sameWord c.name) else none with
    | some i => .ok (.output i)
    | none => (ofName tables c).mapError fun f => (f, 0)

end OrderTerm

namespace Select

/-- where the name of the order stands in the statement -/
def orderPlace (s : Select) : Nat := (s.unordered ++ " ORDER BY ").utf8ByteSize

def refuse (s : Select) : OrderTerm.Refusal → DatabaseError
  | .fault f place => .faultyStatement f s.sql (s.orderPlace + place)
  | .incomplete => .incompleteInput s.sql

/-- a statement that cannot be read -/
def unreadable? (s : Select) : Option DatabaseError :=
  (s.arrangement.bind OrderTerm.refusedWords?).map s.refuse

/-- the order of a statement that can be read -/
def orderTerm? (s : Select) : Except DatabaseError (Option OrderTerm) :=
  match s.arrangement with
  | none => .ok none
  | some a =>
    match OrderTerm.resolve s.outputs (.session :: s.tables) a with
    | .ok t => .ok (some t)
    | .error (f, place) => .error (s.refuse (.fault f place))

end Select

end LaunchReports
