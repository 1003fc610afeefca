/-
Record files: one session record a line, blank lines between them ignored.

A line ends at a line feed, and a carriage return right before it belongs to the ending. The first line that is no
record decides the error; lines are counted from one, blank ones included.
-/
import LaunchReports.Record.Session
import LaunchReports.Text.Blank

namespace LaunchReports

/-- a line that is no session record -/
structure RecordFailure where
  line : Nat
  error : ReadError
deriving DecidableEq, Repr

/-- the whole message, without where in the line the fault is -/
def RecordFailure.message (f : RecordFailure) : String :=
  "invalid session record at line " ++ String.ofList (Numeral.ofNat f.line) ++ ": " ++ f.error.message

namespace Lines

/-- without the carriage return of a line ending -/
def withoutReturn (line : List Char) : List Char :=
  if line.getLast? = some '\r' then line.dropLast else line

/-- the lines of a text; `line` holds the characters of the current one, the last first -/
def splitFrom (line : List Char) : List Char → List (List Char)
  | [] => if line.isEmpty then [] else [line.reverse]
  | c :: rest =>
    if c = '\n' then withoutReturn line.reverse :: splitFrom [] rest else splitFrom (c :: line) rest

def split (text : List Char) : List (List Char) := splitFrom [] text

/-- the records of lines that are numbered from `number` on -/
def readFrom (number : Nat) : List (List Char) → Except RecordFailure (List SessionRecord)
  | [] => .ok []
  | line :: rest =>
    if Text.allBlank line then readFrom (number + 1) rest
    else
      match SessionRecord.parse line with
      | .error e => .error ⟨number, e⟩
      | .ok record => (readFrom (number + 1) rest).map (record :: ·)

end Lines

/-- the records of a whole file -/
def readRecords (text : List Char) : Except RecordFailure (List SessionRecord) := Lines.readFrom 1 (Lines.split text)

end LaunchReports
