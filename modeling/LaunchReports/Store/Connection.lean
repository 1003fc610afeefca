/-
Connections to a database file, with variables of their own.

A file holds a store once it has a schema; a file that cannot be used refuses every statement. The variables belong to
the connection: they are declared by the first step of a plan that needs them and stay as long as the connection does.
-/
import LaunchReports.Schema.Declaration
import LaunchReports.Store.Evaluate
import LaunchReports.Store.Import

namespace LaunchReports

/-- what a database file holds -/
inductive Database where
  | schemaless
  | stored (s : Store)
  /-- a file that cannot be used as a database -/
  | unusable (reason : DatabaseError)
deriving DecidableEq, Repr

namespace Database

/-- creates the schema where there is none, and notes its version -/
def ensureSchema : Database → Except DatabaseError Database
  | schemaless => .ok (stored (Store.empty.noteVersion Schema.version))
  | stored s => .ok (stored (s.noteVersion Schema.version))
  | unusable reason => .error reason

def store? : Database → Option Store
  | stored s => some s
  | _ => none

/-- writes all records or changes nothing -/
def write (d : Database) (records : List SessionRecord) : Except WriteError (Database × WriteStats) :=
  match d.store? with
  | some s => (s.write records).map fun (t, stats) => (stored t, stats)
  | none => (writeWithoutSchema records).map fun stats => (d, stats)

end Database

/-- a connection: a database, and the variables once they are declared -/
structure Attached where
  database : Database
  bound : Option Variables
deriving DecidableEq, Repr

namespace Attached

def ofDatabase (d : Database) : Attached := ⟨d, none⟩

def declare (a : Attached) : Attached := { a with bound := some (a.bound.getD Keyed.empty) }

/-- the id that a name stands for, `NULL` if it stands for none -/
def lookup (s : Store) (b : Binding) : Value := Value.ofInteger? ((s.names.get b.target).id? b.name)

/-- sets the variable of the binding and answers with its value -/
def bind (a : Attached) (b : Binding) : Except DatabaseError ResultSet × Attached :=
  match a.bound, a.database.store? with
  | none, _ => (.error (.noSuchTable ("temp." ++ Variable.bindingsTable)), a)
  | some _, none => (.error (.noSuchTable b.target.name), a)
  | some v, some s =>
    (.ok ⟨["value"], [[lookup s b]]⟩, { a with bound := some (v.insert b.symbol (lookup s b)) })

/-- a statement that cannot be read fails before its tables are looked for -/
def select (a : Attached) (s : Select) : Except DatabaseError ResultSet :=
  match s.unreadable?, a.database.store? with
  | some e, _ => .error e
  | none, none => .error (.noSuchTable Table.session.name)
  | none, some store =>
    match a.bound, s.conditions.any fun c => c.reads?.isSome with
    | none, true => .error (.noSuchTable ("temp." ++ Variable.bindingsTable))
    | v, _ => s.evaluate store (v.getD Keyed.empty)

/-- answers one step -/
def answer : Connection Attached Aggregate := fun c a =>
  match a.database, c with
  | .unusable reason, _ => (.error reason, a)
  | _, .declare => (.ok .empty, a.declare)
  | _, .bind b => a.bind b
  | _, .aggregate g => (a.select g.select, a)

end Attached

/-! ## Whole tables -/

/-- all rows of a table, in the order of their ids -/
def Store.contents (s : Store) (t : Table) : ResultSet :=
  ⟨t.columns.map Column.name, (s.rows t).map fun row => t.columns.map row⟩

/-- the variables, in the order of their symbols -/
def Variables.contents (v : Variables) : ResultSet :=
  ⟨["symbol", "value"], v.entries.map fun p => [.text p.1, p.2]⟩

end LaunchReports
