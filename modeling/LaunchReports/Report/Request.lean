/-
A request for a report, and its JSON form.

A filter without a value or with an empty one, an empty group or order and a limit of zero count as not supplied:
`value?`, `group?`, `order?` and `limit?` say what is. In JSON every field may be left out and no other may be there.
-/
import LaunchReports.Text.Keyed
import LaunchReports.Report.Query
import LaunchReports.Json.Reading

namespace LaunchReports

/-- values by field; a filter with `none` is not supplied -/
abbrev Filters := Keyed (Option String)

structure Request where
  query : Query
  filters : Filters
  group : Option String
  order : Option String
  limit : Option UInt64
deriving DecidableEq, Repr, Inhabited

namespace Request

/-- all sessions, counted -/
def everything : Request := ⟨.messageCount, .empty, none, none, none⟩

/-! ## What is supplied -/

def value? (r : Request) (field : String) : Option String := (r.filters.get? field).join.filter fun v => !v.isEmpty

def group? (r : Request) : Option String := r.group.filter fun g => !g.isEmpty

def order? (r : Request) : Option String := r.order.filter fun o => !o.isEmpty

def limit? (r : Request) : Option UInt64 := r.limit.filter fun n => n != 0

/-! ## JSON -/

def filtersJson (f : Filters) : Json := .object (f.entries.map fun p => (p.1, .ofOption .string p.2))

def members (r : Request) : List (String × Json) :=
  [("query", .string r.query.key), ("filters", filtersJson r.filters)] ++ Json.present "group" .string r.group ++
    Json.present "order" .string r.order ++ Json.present "limit" (fun n => .integer n.toNat) r.limit

def toJson (r : Request) : Json := .object r.members

def readQuery : Reader Query := Reader.variant (Query.all.map fun q => (q.key, q))

/-- a repeated name keeps its last value -/
def readFilters : Reader Filters := fun d => (Reader.map (Reader.optional Reader.string) d).map .ofPairs

def readText : Reader (Option String) := Reader.optional Reader.string

def readLimit : Reader (Option UInt64) := Reader.optional Reader.uint64

def shape : Shape where
  name := "ReportRequest"
  fields :=
    [⟨"query", Reader.check readQuery, true⟩, ⟨"filters", Reader.check readFilters, true⟩,
      ⟨"group", Reader.check readText, true⟩, ⟨"order", Reader.check readText, true⟩,
      ⟨"limit", Reader.check readLimit, true⟩]
  closed := true

def read : Reader Request := fun d => do
  let fields ← shape.members d
  return {
    query := ← Reader.withDefault fields "query" readQuery .messageCount
    filters := ← Reader.withDefault fields "filters" readFilters .empty
    group := ← Reader.withDefault fields "group" readText none
    order := ← Reader.withDefault fields "order" readText none
    limit := ← Reader.withDefault fields "limit" readLimit none }

/-- the request that a whole text holds -/
def parse (text : List Char) : Except ReadError Request := Reader.parse read text

end Request

end LaunchReports
