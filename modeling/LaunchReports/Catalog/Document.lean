/-
The catalog as a document.
-/
import LaunchReports.Catalog.Dimension
import LaunchReports.Json.Value
import LaunchReports.Report.Query

namespace LaunchReports

/-! ## Entries -/

def Grammar.document (g : Grammar) : Json :=
  .object
    (("kind", .string g.key) ::
      match g.target? with
      | some t => [("table", .string t.name), ("symbol", .string t.symbol)]
      | none => [])

def NameTable.document (t : NameTable) : Json :=
  .object [("table", .string t.name), ("symbol", .string t.symbol)]

namespace Field

/-- the field itself -/
def document (f : Field) : Json :=
  .object [("name", .string f.name), ("relation", .string f.column.table.name), ("kind", f.grammar.document)]

/-- the field with how its values are written -/
def usageDocument (f : Field) : Json :=
  .object
    [("name", .string f.name), ("table", .string f.column.table.name), ("grammar", .string f.grammar.usage),
      ("kind", f.grammar.document)]

end Field

def Dimension.document (d : Dimension) : Json :=
  .object
    [("name", .string d.name),
      ("select_expressions", .strings (d.labels.map Label.sql)),
      ("required_joins", .strings (d.links.map fun l => l.target.name)),
      ("group_keys", .strings (d.keys.map GroupKey.sql)),
      ("linkage_predicates", .strings (d.links.map fun l => l.condition.sql)),
      ("side_table", .ofOption (fun s => .string s.key) d.side)]

/-! ## The whole catalog -/

namespace Catalog

def queries : Json := .strings (Query.all.map Query.key)

/-- names alone -/
def names : Json :=
  .object
    [("queries", queries), ("fields", .strings (Field.all.map Field.name)),
      ("groups", .strings (Dimension.all.map Dimension.name))]

/-- fields with their grammars, dimensions with their SQL -/
def entries : Json :=
  .object
    [("queries", queries), ("fields", .array (Field.all.map Field.usageDocument)),
      ("groups", .array (Dimension.all.map Dimension.document))]

end Catalog

end LaunchReports
