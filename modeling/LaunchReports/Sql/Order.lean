/-
The order of a report: a column name, perhaps with the name of its table, and a direction.

Names are ASCII identifiers: a letter or `_`, then letters, digits and `_`. `desc:` in front makes the order descending.
-/
namespace LaunchReports

/-- an identifier, perhaps qualified by another -/
structure ColumnName where
  qualifier : Option String
  name : String
deriving DecidableEq, Repr

namespace ColumnName

def startsIdentifier (c : Char) : Bool := c.isAlpha || c == '_'

def inIdentifier (c : Char) : Bool := c.isAlphanum || c == '_'

def isIdentifier : List Char → Bool
  | [] => false
  | c :: rest => startsIdentifier c && rest.all inIdentifier

def read? (text : List Char) : Option ColumnName :=
  let head := text.takeWhile (· ≠ '.')
  match text.dropWhile (· ≠ '.') with
  | [] => if isIdentifier head then some ⟨none, String.ofList head⟩ else none
  | _ :: tail =>
    if isIdentifier head && isIdentifier tail then some ⟨some (String.ofList head), String.ofList tail⟩ else none

def text (c : ColumnName) : String :=
  match c.qualifier with
  | none => c.name
  | some q => q ++ "." ++ c.name

end ColumnName

structure Order where
  column : ColumnName
  descending : Bool
deriving DecidableEq, Repr

namespace Order

def descendingMark : List Char := "desc:".toList

def read? (raw : List Char) : Option Order :=
  if descendingMark.isPrefixOf raw then
    (ColumnName.read? (raw.drop descendingMark.length)).map fun c => ⟨c, true⟩
  else (ColumnName.read? raw).map fun c => ⟨c, false⟩

def clause (o : Order) : String :=
  " ORDER BY " ++ o.column.text ++ if o.descending then " DESC" else ""

end Order

end LaunchReports
