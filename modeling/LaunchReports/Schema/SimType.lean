/-
The two kinds of simulation, and how the session table writes them.
-/
namespace LaunchReports

inductive SimType where
  | java
  | flash
deriving DecidableEq, Repr

namespace SimType

def all : List SimType := [java, flash]

def name : SimType → String
  | java => "java"
  | flash => "flash"

/-- what the session table holds -/
def discriminant : SimType → Int64
  | java => 0
  | flash => 1

def ofName? (name : String) : Option SimType := all.find? fun t => t.name = name

end SimType

end LaunchReports
