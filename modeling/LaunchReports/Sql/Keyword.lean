/-
Words that mean something of their own where an expression is due.

Most keywords of SQL may also name a column. The others are refused, stand for a constant, or open an expression that
needs more than the word. Case makes no difference.
-/
namespace LaunchReports

/-- what a word is at the start of an expression -/
inductive WordClass where
  | name
  | reserved
  /-- a value that is the same in every row -/
  | constant
  /-- the start of a longer expression that goes on with an expression -/
  | negation
  | choice
  /-- the start of a longer expression that goes on with a parenthesis -/
  | call
deriving DecidableEq, Repr

namespace Keyword

def reserved : List String :=
  ["ADD", "ALL", "ALTER", "AND", "AS", "AUTOINCREMENT", "BETWEEN", "CHECK", "COLLATE", "COMMIT", "CONSTRAINT",
    "CREATE", "DEFAULT", "DEFERRABLE", "DELETE", "DISTINCT", "DROP", "ELSE", "ESCAPE", "EXCEPT", "FOREIGN", "FROM",
    "GROUP", "HAVING", "IN", "INDEX", "INSERT", "INTERSECT", "INTO", "IS", "ISNULL", "JOIN", "LIMIT", "NOTHING",
    "NOTNULL", "ON", "OR", "ORDER", "PRIMARY", "REFERENCES", "RETURNING", "SELECT", "SET", "TABLE", "THEN", "TO",
    "TRANSACTION", "UNION", "UNIQUE", "UPDATE", "USING", "VALUES", "WHEN", "WHERE"]

def constants : List String := ["NULL", "CURRENT_DATE", "CURRENT_TIME", "CURRENT_TIMESTAMP"]

def calls : List String := ["EXISTS", "CAST", "RAISE"]

/-- ASCII letters in upper case -/
def upper (word : String) : String := String.ofList (word.toList.map Char.toUpper)

/-- the same word but for the case of ASCII letters -/
def sameWord (a b : String) : Bool := upper a = upper b

/-- a word at the start of an expression -/
def classify (word : String) : WordClass :=
  let w := upper word
  if reserved.contains w then .reserved
  else if constants.contains w then .constant
  else if w = "NOT" then .negation
  else if w = "CASE" then .choice
  else if calls.contains w then .call
  else .name

/-- words that cannot follow a qualifier -/
def refusedAsName (word : String) : Bool :=
  let w := upper word
  reserved.contains w || ["NULL", "NOT", "CASE", "EXISTS"].contains w

end Keyword

end LaunchReports
