/-
What files hold, and why the system refuses to work on a path.
-/
import LaunchReports.Store.Connection

namespace LaunchReports

inductive FileError where
  | notFound
  | notADirectory
  | isADirectory
  | alreadyExists
  | permissionDenied
  | nameTooLong
  | zeroByte
  /-- the content is no text -/
  | invalidText
  | other (text : String)
deriving DecidableEq, Repr

def FileError.message : FileError → String
  | notFound => "No such file or directory (os error 2)"
  | notADirectory => "Not a directory (os error 20)"
  | isADirectory => "Is a directory (os error 21)"
  | alreadyExists => "File exists (os error 17)"
  | permissionDenied => "Permission denied (os error 13)"
  | nameTooLong => "File name too long (os error 36)"
  | zeroByte => "file name contained an unexpected NUL byte"
  | invalidText => "stream did not contain valid UTF-8"
  | other text => text

inductive FileContent where
  | bytes (content : List UInt8)
  /-- a store that was written by a command -/
  | store (s : Store)
deriving DecidableEq, Repr

namespace FileContent

def ofText (text : String) : FileContent := .bytes text.toUTF8.toList

/-- the content as text; a store is none -/
def text : FileContent → Except FileError String
  | store _ => .error .invalidText
  | bytes content =>
    match String.fromUTF8? ⟨content.toArray⟩ with
    | some text => .ok text
    | none => .error .invalidText

/-- a file of one byte counts as empty -/
def isBlank : FileContent → Bool
  | bytes content => content.length ≤ 1
  | store _ => false

/-- an empty file is a database without a schema -/
def asDatabase : FileContent → Database
  | store s => .stored s
  | content => if content.isBlank then .schemaless else .unusable .notADatabase

/-- the first byte; a store begins with the letter `S` -/
def firstByte? : FileContent → Option UInt8
  | bytes content => content.head?
  | store _ => some 0x53

end FileContent

end LaunchReports
