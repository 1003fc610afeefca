/-
The JSON schema of a request file.
-/
import LaunchReports.Report.Request

namespace LaunchReports.Request

def schemaText : String :=
  "`filters` maps catalog field names to raw grammar values; a `null` value\nmeans the filter was not supplied. " ++
    "Empty `group`/`order` strings and a\n`limit` of zero are treated as absent."

/-- a type that also admits `null` -/
def nullable (type : String) : String × Json := ("type", .strings [type, "null"])

def schema : Json :=
  .object
    [("$schema", .string "https://json-schema.org/draft/2020-12/schema"),
      ("title", .string shape.name),
      ("description", .string ("A declarative report request.\n\n" ++ schemaText)),
      ("type", .string "object"),
      ("properties", .object
        [("query", .object
            [("$ref", .string "#/$defs/ReportQuery"), ("default", .string everything.query.key)]),
          ("filters", .object
            [("type", .string "object"), ("additionalProperties", .object [nullable "string"]),
              ("default", filtersJson everything.filters)]),
          ("group", .object [nullable "string"]),
          ("order", .object [nullable "string"]),
          ("limit", .object [nullable "integer", ("format", .string "uint64"), ("minimum", .integer 0)])]),
      ("additionalProperties", .bool false),
      ("$defs", .object
        [("ReportQuery", .object
          [("type", .string "string"), ("enum", .strings (Query.all.map Query.key))])])]

end LaunchReports.Request
