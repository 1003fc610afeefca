/-
What a report statement yields on a store.

The rows of the tables are joined to those of `session`, side tables before name tables, and every condition is applied
as soon as the tables it reads are there. The joined rows are grouped by the keys, in the order of their first members;
one row of the result stands for each group, with the labels of its first member and the measure over all. Without keys
a measure makes one group of all rows, even of none.
-/
import LaunchReports.Report.Execution
import LaunchReports.Store.Comparing
import LaunchReports.Store.OrderTerm
import LaunchReports.Time.Timestamp

namespace LaunchReports

/-! ## Joined rows -/

namespace Row

/-- no columns at all -/
def blank : Row := fun _ => .null

/-- the columns of `t` from `r` -/
def extend (row : Row) (t : Table) (r : Row) : Row := fun c => if c.table = t then r c else row c

end Row

namespace Select

/-- tables in the order of their joining -/
def joinOrder (s : Select) : List Table :=
  (s.tables.filter fun t => t.side?.isSome) ++ s.tables.filter fun t => t.side?.isNone

/-- the conditions that read only these tables -/
def ready (s : Select) (tables : List Table) : List Condition :=
  s.conditions.filter fun c => c.tables.all tables.contains

/-- each row with each row of the table, where the conditions that are ready hold -/
def joinTable (s : Select) (store : Store) (v : Variables) (seen : List Table) (rows : List Row) (t : Table) :
    List Row :=
  let conditions := s.ready (t :: seen)
  rows.flatMap fun row =>
    ((store.rows t).map (row.extend t)).filter fun joined => conditions.all (Condition.holds v joined)

/-- joins the tables in turn to rows of the tables in `seen` -/
def joinTables (s : Select) (store : Store) (v : Variables) (seen : List Table) (rows : List Row) :
    List Table → List Row
  | [] => rows
  | t :: rest => joinTables s store v (t :: seen) (s.joinTable store v seen rows t) rest

/-- the joined rows that meet all conditions -/
def matching (s : Select) (store : Store) (v : Variables) : List Row :=
  s.joinTables store v [] [Row.blank] (.session :: s.joinOrder)

end Select

/-! ## Expressions -/

namespace Expression

/-- the text of a value inside a joined text -/
def pieceText : Value → Option String
  | .text t => some t
  | .integer n => some (String.ofList (Numeral.ofInt n.toInt))
  | v@(.real _) => some v.literal
  | _ => none

def pieceValue (row : Row) : Piece → Option String
  | .text t => some t
  | .column c => pieceText (row c)

/-- the first moment that has a week: noon of the first day of the Julian period -/
def firstWeekMoment : Int := -210866760000

/-- four places for the year, its sign included, and two for the week -/
def weekText (w : IsoWeek) : String :=
  let year := if w.year < 0 then '-' :: Numeral.padded 3 w.year.natAbs else Numeral.padded 4 w.year.natAbs
  String.ofList (year ++ Numeral.padded 2 w.week)

/-- the week of a stored timestamp -/
def weekOf (stored : String) : Value :=
  match Timestamp.storedForm? stored.toList with
  | some m =>
    if m.toUnix < firstWeekMoment then .null
    else .text (weekText (Calendar.isoWeek (Calendar.dayNumber m.date)))
  | none => .null

def value (row : Row) : Expression → Value
  | column c => row c
  | joined pieces =>
    match pieces.mapM (pieceValue row) with
    | some texts => .text ("".intercalate texts)
    | none => .null
  | isoWeek c =>
    match row c with
    | .text stored => weekOf stored
    | _ => .null
  | simTypeName =>
    if Operator.equal.compare (row (.session .simType)) (.integer 0) = some true then .text "java" else .text "flash"

end Expression

/-! ## Measures -/

namespace Measure

/-- adds up; the running total has to stay within 64 bits -/
def total (sum : Int64) : List Value → Except DatabaseError Int64
  | [] => .ok sum
  | .integer n :: rest =>
    let next := sum.toInt + n.toInt
    if fitsInt64 next then total (Int64.ofInt next) rest else .error .integerOverflow
  | _ :: rest => total sum rest

def value (rows : List Row) : Measure → Except DatabaseError Value
  | count => .ok (.integer (Int64.ofNat rows.length))
  | sum c =>
    let cells := (rows.map fun row => row c).filter fun v => v != .null
    if cells.isEmpty then .ok .null else (total 0 cells).map .integer

end Measure

/-! ## Groups -/

/-- rows with the same key -/
structure Group where
  key : List Value
  rows : List Row

namespace Group

/-- the row in the group of its key, a new one at the end if there is none -/
def place (key : List Value) (row : Row) : List Group → List Group
  | [] => [⟨key, [row]⟩]
  | g :: rest => if g.key = key then { g with rows := g.rows ++ [row] } :: rest else g :: place key row rest

def ofRows (key : Row → List Value) (rows : List Row) : List Group :=
  rows.foldl (fun groups row => place (key row) row groups) []

/-- the row that stands for the group -/
def first (g : Group) : Row := g.rows.head?.getD Row.blank

end Group

namespace Select

def keyValue (s : Select) (row : Row) : GroupKey → Value
  | .column c => row c
  | .expression e => e.value row
  | .label name =>
    match s.labels.find? fun l => l.name = name with
    | some l => l.expression.value row
    | none => .null

def groups (s : Select) (rows : List Row) : List Group :=
  if s.keys.isEmpty then
    if s.measure.isSome then [⟨[], rows⟩] else rows.map fun row => ⟨[], [row]⟩
  else Group.ofRows (fun row => s.keys.map (s.keyValue row)) rows

/-! ## Results -/

/-- one row of the result, with the joined row behind it -/
structure Line where
  cells : List Value
  origin : Row

def line (s : Select) (g : Group) : Except DatabaseError Line := do
  let labels := s.labels.map fun l => l.expression.value g.first
  match s.measure with
  | none => return ⟨labels, g.first⟩
  | some (m, _) => return ⟨labels ++ [← m.value g.rows], g.first⟩

/-- the first of all lines with the same cells -/
def distinctLines (lines : List Line) : List Line :=
  lines.foldl (fun kept l => if kept.any fun k => k.cells = l.cells then kept else kept ++ [l]) []

def Line.orderCell (l : Line) : OrderTerm → Value
  | .output i => (l.cells[i]?).getD .null
  | .column c => l.origin c
  | .constant => .null

/-- whether `a` may come before `b` -/
def inOrder (descending : Bool) (term : OrderTerm) (a b : Line) : Bool :=
  let o := (a.orderCell term).order (b.orderCell term)
  if descending then o != .lt else o != .gt

def arrange (s : Select) (term : Option OrderTerm) (lines : List Line) : List Line :=
  match s.arrangement, term with
  | some a, some t =>
    let sorted := lines.mergeSort (inOrder a.order.descending t)
    match a.limit with
    | some n => sorted.take n.toInt.toNat
    | none => sorted
  | _, _ => lines

/-- the result on a store -/
def evaluate (s : Select) (store : Store) (v : Variables) : Except DatabaseError ResultSet := do
  let term ← s.orderTerm?
  let lines ← (s.groups (s.matching store v)).mapM s.line
  let kept := if s.distinct then distinctLines lines else lines
  return ⟨s.outputs, (s.arrange term kept).map Line.cells⟩

end Select

end LaunchReports
