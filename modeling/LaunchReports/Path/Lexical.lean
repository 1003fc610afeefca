/-
Paths, read component by component and never against a file system.

A raw path is a list of letters: the bytes of a name as the system has it, or the characters of a text. Only two letters
mean something in it. A path starts at the root when it begins with a slash. Slashes that follow one another count once,
and a `.` counts only at the start of a relative path. `clean` applies each `..` to the component before it; where there
is nothing to go up from, the `..` is kept as a component, which a later `..` may take away again.
-/
namespace LaunchReports

/-- what paths are written with -/
class PathLetter (α : Type) where
  slash : α
  dot : α
  dot_ne_slash : dot ≠ slash

instance : PathLetter Char := ⟨'/', '.', by decide⟩

instance : PathLetter UInt8 := ⟨0x2F, 0x2E, by decide⟩

namespace RawPath

open PathLetter

inductive Component (α : Type) where
  | root
  | current
  | up
  | name (text : List α)
deriving DecidableEq, Repr

variable {α : Type} [DecidableEq α] [PathLetter α]

/-! ## Reading -/

/-- the pieces between slashes; `piece` holds the letters of the current one, the last first -/
def piecesFrom (piece : List α) : List α → List (List α)
  | [] => [piece.reverse]
  | c :: rest => if c = slash then piece.reverse :: piecesFrom [] rest else piecesFrom (c :: piece) rest

def pieces (path : List α) : List (List α) := piecesFrom [] path

def isAbsolute (path : List α) : Bool := path.head? == some slash

/-- a piece inside a path; empty ones and `.` are nothing -/
def inner? (piece : List α) : Option (Component α) :=
  if piece.isEmpty || piece = [dot] then none
  else if piece = [dot, dot] then some .up
  else some (.name piece)

def components (path : List α) : List (Component α) :=
  let found := (pieces path).filterMap inner?
  if isAbsolute path then .root :: found
  else if (pieces path).head? = some [dot] then .current :: found
  else found

/-! ## Writing -/

def Component.text : Component α → List α
  | root => [slash]
  | current => [dot]
  | up => [dot, dot]
  | name text => text

/-- the components after a root or at the start, with slashes between them -/
def relativeText (list : List (Component α)) : List α := List.intercalate [slash] (list.map Component.text)

def ofComponents : List (Component α) → List α
  | .root :: rest => slash :: relativeText rest
  | list => relativeText list

/-! ## Operations -/

/-- `path` inside `base`; an absolute path stands for itself -/
def join (base path : List α) : List α :=
  if isAbsolute path then path
  else if base.getLast?.all (· = slash) then base ++ path
  else base ++ slash :: path

/-- the next component, where the last one read is the first of `done` -/
def cleanStep (done : List (Component α)) : Component α → List (Component α)
  | .current => done
  | .up =>
    match done with
    | [] | .root :: _ => .up :: done
    | _ :: before => before
  | c => c :: done

def cleanComponents (list : List (Component α)) : List (Component α) := (list.foldl cleanStep []).reverse

def clean (path : List α) : List α := ofComponents (cleanComponents (components path))

/-- the path without its last component; a root has none -/
def parent? (path : List α) : Option (List α) :=
  match (components path).reverse with
  | [] | [.root] => none
  | _ :: before => some (ofComponents before.reverse)

end RawPath

/-! ## Texts as paths

The same with characters. No character but the slash has the byte of one, so it makes no difference whether a text is
taken apart by its characters or by its bytes.
-/

namespace Path

open RawPath (Component)

def pieces (path : String) : List (List Char) := RawPath.pieces path.toList

def isAbsolute (path : String) : Bool := RawPath.isAbsolute path.toList

def components (path : String) : List (Component Char) := RawPath.components path.toList

def join (base path : String) : String := String.ofList (RawPath.join base.toList path.toList)

def clean (path : String) : String := String.ofList (RawPath.clean path.toList)

def parent? (path : String) : Option String := (RawPath.parent? path.toList).map String.ofList

end Path

end LaunchReports
