/-
A host as a value: a tree of files and the lines that were printed.
-/
import LaunchReports.Command.Host
import LaunchReports.Files.Tree

namespace LaunchReports

structure Machine where
  tree : FileTree
  /-- the lines printed, the last first -/
  output : List String
  errors : List String
deriving DecidableEq, Repr

namespace Machine

def ofTree (t : FileTree) : Machine := ⟨t, [], []⟩

def answer (s : Machine) : (a : Access) → a.Reply × Machine
  | .print line => ((), { s with output := line :: s.output })
  | .printError line => ((), { s with errors := line :: s.errors })
  | .readText path => ((s.tree.read path).bind FileContent.text, s)
  | .isFile path => (s.tree.isFile path, s)
  | .createDirectories path =>
    match s.tree.createDirectories path with
    | .ok t => (.ok (), { s with tree := t })
    | .error e => (.error e, s)
  | .openDatabase path mayCreate =>
    match s.tree.openDatabase path mayCreate with
    | some (d, t) => (some d, { s with tree := t })
    | none => (none, s)
  | .saveDatabase path d =>
    match s.tree.saveDatabase path d with
    | .ok t => (.ok (), { s with tree := t })
    | .error e => (.error e, s)

def host : Host (StateM Machine) := fun a s => s.answer a

end Machine

end LaunchReports
