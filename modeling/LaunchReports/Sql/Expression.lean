/-
What a report selects and groups by.

A joined text is `NULL` as soon as one of its pieces is. The ISO week is written as four or more digits of the year and
two of the week.
-/
import LaunchReports.Sql.Value
import LaunchReports.Schema.Column
import LaunchReports.Schema.SimType

namespace LaunchReports

/-- a part of a joined text -/
inductive Piece where
  | column (c : Column)
  | text (s : String)
deriving DecidableEq, Repr

def Piece.sql : Piece → String
  | column c => c.text
  | text s => String.ofList (Value.quotedText s.toList)

inductive Expression where
  | column (c : Column)
  | joined (pieces : List Piece)
  | isoWeek (c : Column)
  /-- the name of the type of the session -/
  | simTypeName
deriving DecidableEq, Repr

namespace Expression

def sql : Expression → String
  | column c => c.text
  | joined pieces => " || ".intercalate (pieces.map Piece.sql)
  | isoWeek c => "strftime('%G%V', " ++ c.text ++ ")"
  | simTypeName =>
    "CASE WHEN " ++ (Column.session .simType).text ++ " = 0 THEN 'java' ELSE 'flash' END"

/-- the columns that the expression reads -/
def columns : Expression → List Column
  | column c | isoWeek c => [c]
  | joined pieces => pieces.filterMap fun | .column c => some c | .text _ => none
  | simTypeName => [.session .simType]

end Expression

/-- an expression under a name -/
structure Label where
  expression : Expression
  name : String
deriving DecidableEq, Repr

def Label.sql (l : Label) : String := l.expression.sql ++ " AS " ++ l.name

inductive GroupKey where
  | column (c : Column)
  /-- the selected expression of this name -/
  | label (name : String)
  | expression (e : Expression)
deriving DecidableEq, Repr

def GroupKey.sql : GroupKey → String
  | column c => c.text
  | label name => name
  | expression e => e.sql

/-- a value over all rows of a group -/
inductive Measure where
  | count
  | sum (c : Column)
deriving DecidableEq, Repr

def Measure.sql : Measure → String
  | count => "COUNT(*)"
  | sum c => "SUM(" ++ c.text ++ ")"

end LaunchReports
