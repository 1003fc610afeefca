/-
The program: commands on the real file system.
-/
import LaunchReports.Command.Run
import LaunchReports.Files.Companion
import LaunchReports.Store.Archive

namespace LaunchReports.Program

/-- the reason that the system gives -/
def fileError : IO.Error → FileError
  | .noFileOrDirectory .. => .notFound
  | .alreadyExists .. => .alreadyExists
  | .permissionDenied .. => .permissionDenied
  | .inappropriateType _ code _ => if code = 20 then .notADirectory else .isADirectory
  | e => .other (toString e)

def readFile (path : String) : IO (Except FileError ByteArray) := do
  try return .ok (← IO.FS.readBinFile path)
  catch e => return .error (fileError e)

def readText (path : String) : IO (Except FileError String) := do
  match ← readFile path with
  | .error e => return .error e
  | .ok bytes =>
    match String.fromUTF8? bytes with
    | some text => return .ok text
    | none => return .error .invalidText

def createDirectories (path : String) : IO (Except FileError Unit) := do
  try
    IO.FS.createDir path
    return .ok ()
  catch
    | .inappropriateType .. => return .error .notADirectory
    | _ =>
      try
        IO.FS.createDirAll path
        return .ok ()
      catch e => return .error (fileError e)

/-! ## Databases -/

def trace (path : String) : IO Companion.Trace := do
  match ← readFile path with
  | .ok bytes => return (bytes[0]?.map .file).getD .nothing
  | .error .isADirectory => return .directory
  | .error _ => return .nothing

/-- takes a file away, if there is one -/
def delete (path : String) : IO Unit := do
  try IO.FS.removeFile path
  catch _ => return ()

/-- the bytes of a database file, once its companions are settled -/
def settled (path : String) (bytes : ByteArray) : IO Database := do
  let content := FileContent.bytes bytes.toList
  let s := Companion.settle content.isBlank (← trace (path ++ Companion.journal.ending))
    (← trace (path ++ Companion.log.ending))
  for c in s.deleted do
    delete (path ++ c.ending)
  match s.obstacle with
  | some reason => return .unusable reason
  | none =>
    if content.isBlank then return .schemaless
    return ((String.fromUTF8? bytes).map Database.ofArchive).getD (.unusable .notADatabase)

def openDatabase (path : String) (mayCreate : Bool) : IO (Option Database) := do
  if !Companion.hasRoom path then return none
  match ← readFile path with
  | .ok bytes => return some (← settled path bytes)
  | .error .notFound =>
    if !mayCreate then return none
    try
      IO.FS.writeFile path Database.schemaless.archive
      return some (← settled path ByteArray.empty)
    catch _ => return none
  | .error _ => return none

/-- a journal is made before the database is written, and deleted after that -/
def saveDatabase (path : String) (content : Database) : IO (Except DatabaseError Unit) := do
  let journal := path ++ Companion.journal.ending
  try
    IO.FS.writeFile journal ""
    IO.FS.writeFile path content.archive
    delete journal
    return .ok ()
  catch _ => return .error .cannotOpen

def host : Host IO
  | .print line => IO.println line
  | .printError line => IO.eprintln line
  | .readText path => readText path
  | .isFile path => return (← readFile path).toOption.isSome
  | .createDirectories path => createDirectories path
  | .openDatabase path mayCreate => openDatabase path mayCreate
  | .saveDatabase path content => saveDatabase path content

end LaunchReports.Program

open LaunchReports in
/-- runs the command line -/
def main (args : List String) : IO UInt32 := do
  let env : Environment :=
    ⟨← IO.getEnv "HOME", ← IO.getEnv "SIMSTATS_DB", (← IO.currentDir).toString⟩
  return UInt32.ofNat (← Command.run Program.host env args)
