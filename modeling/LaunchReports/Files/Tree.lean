/-
A tree of files and directories, and how paths are followed in it.

A path is followed from the root, name by name: everything before the last name has to be a directory, and `..` goes
back to the directory above. A path that ends with a slash or a dot means a directory. A database is opened together
with the companions beside it, and its journal needs a place before anything is written.
-/
import LaunchReports.Files.Companion
import LaunchReports.Files.Content
import LaunchReports.Path.Lexical

namespace LaunchReports

inductive Node where
  | directory
  | file (content : FileContent)
deriving DecidableEq, Repr

/-- the names from the root on -/
abbrev TreePath := List (List Char)

/-- files and directories by where they are -/
structure FileTree where
  nodes : List (TreePath × Node)
deriving DecidableEq, Repr

namespace FileTree

def empty : FileTree := ⟨[]⟩

/-- what is at a place; whatever holds something is a directory -/
def node? (t : FileTree) (p : TreePath) : Option Node :=
  match t.nodes.lookup p with
  | some n => some n
  | none => if p.isEmpty || t.nodes.any fun m => p.isPrefixOf m.1 then some .directory else none

def put (t : FileTree) (p : TreePath) (n : Node) : FileTree := ⟨(p, n) :: t.nodes.filter fun m => m.1 ≠ p⟩

/-- takes a file away; a directory stays -/
def delete (t : FileTree) (p : TreePath) : FileTree :=
  match t.node? p with
  | some (.file _) => ⟨t.nodes.filter fun m => m.1 ≠ p⟩
  | _ => t

/-! ## Following paths -/

/-- names have at most 255 bytes -/
def tooLong (piece : List Char) : Bool := 255 < (String.ofList piece).utf8ByteSize

/-- where a path leads, seen from a directory -/
def follow (t : FileTree) (here : TreePath) : List (List Char) → Except FileError TreePath
  | [] => .ok here
  | piece :: rest =>
    match t.node? here with
    | some .directory =>
      if piece.isEmpty || piece = ['.'] then follow t here rest
      else if piece = ['.', '.'] then follow t here.dropLast rest
      else if tooLong piece then .error .nameTooLong
      else follow t (here ++ [piece]) rest
    | some (.file _) => .error .notADirectory
    | none => .error .notFound

/-- a path of at most 4095 bytes, none of them zero -/
def checkPath (path : String) : Except FileError Unit :=
  if path.toList.any fun c => c.toNat = 0 then .error .zeroByte
  else if 4095 < path.utf8ByteSize then .error .nameTooLong
  else .ok ()

def resolve (t : FileTree) (path : String) : Except FileError TreePath := do
  checkPath path
  t.follow [] (Path.pieces path)

/-! ## Files and directories -/

def read (t : FileTree) (path : String) : Except FileError FileContent := do
  match t.node? (← t.resolve path) with
  | none => throw .notFound
  | some .directory => throw .isADirectory
  | some (.file content) => return content

def isFile (t : FileTree) (path : String) : Bool := (t.read path).toOption.isSome

/-- each of the names from `here` on becomes a directory, unless it is one -/
def createBelow (t : FileTree) (here : TreePath) : List (List Char) → Except FileError FileTree
  | [] => .ok t
  | piece :: rest =>
    if piece = ['.', '.'] then t.createBelow here.dropLast rest
    else if tooLong piece then .error .nameTooLong
    else
      match t.node? (here ++ [piece]) with
      | none => (t.put (here ++ [piece]) .directory).createBelow (here ++ [piece]) rest
      | some .directory => t.createBelow (here ++ [piece]) rest
      | some (.file _) => .error (if rest.isEmpty then .alreadyExists else .notADirectory)

/-- the directory of a path, with all above it -/
def createDirectories (t : FileTree) (path : String) : Except FileError FileTree := do
  checkPath path
  t.createBelow [] ((Path.pieces path).filter fun piece => !piece.isEmpty)

/-- the files, without the directories -/
def files (t : FileTree) : List TreePath :=
  t.nodes.filterMap fun m =>
    match m.2 with
    | .file _ => some m.1
    | .directory => none

/-- the path of a place -/
def pathText (p : TreePath) : String := String.ofList (p.flatMap fun piece => '/' :: piece)

/-! ## Databases -/

/-- the place of a companion of the file at `p` -/
def beside (p : TreePath) (c : Companion) : TreePath := p.dropLast ++ [p.getLast?.getD [] ++ c.ending.toList]

def trace (t : FileTree) (p : TreePath) : Companion.Trace :=
  match t.node? p with
  | some .directory => .directory
  | some (.file content) => (content.firstByte?.map .file).getD .nothing
  | none => .nothing

/-- the database at `p`, and the tree with its companions settled -/
def settled (t : FileTree) (p : TreePath) (content : FileContent) : Database × FileTree :=
  let s := Companion.settle content.isBlank (t.trace (beside p .journal)) (t.trace (beside p .log))
  ((s.obstacle.map .unusable).getD content.asDatabase, s.deleted.foldl (fun u c => u.delete (beside p c)) t)

/-- an open database has a file; `none` where there cannot be one -/
def openDatabase (t : FileTree) (path : String) (mayCreate : Bool) : Option (Database × FileTree) :=
  match t.resolve path with
  | .error _ => none
  | .ok p =>
    if !Companion.hasRoom (pathText p) then none
    else
      match t.node? p with
      | some (.file content) => some (t.settled p content)
      | some .directory => none
      | none =>
        if mayCreate && t.node? p.dropLast = some .directory then
          some ((t.put p (.file (.bytes []))).settled p (.bytes []))
        else none

/-- there is a place where a journal can be written -/
def takesJournal (t : FileTree) (p : TreePath) : Bool :=
  let journal := beside p .journal
  !(tooLong (journal.getLast?.getD [])) && t.node? journal != some .directory

/-- a store that differs from the file is written, with a journal that is deleted in the end -/
def saveDatabase (t : FileTree) (path : String) (d : Database) : Except DatabaseError FileTree :=
  match t.resolve path, d.store? with
  | .error _, _ => .error .cannotOpen
  | .ok _, none => .ok t
  | .ok p, some s =>
    let file := Node.file (.store s)
    if t.node? p = some file then .ok t
    else if t.takesJournal p then .ok ((t.put p file).delete (beside p .journal))
    else .error .cannotOpen

end FileTree

end LaunchReports
