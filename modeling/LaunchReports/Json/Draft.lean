/-
The shape of a JSON text, also of one that breaks off.

`Draft.ofTokens` never fails. A value that is missing or unreadable stands as `broken`, and an array or object that is
not closed properly keeps the place where it stopped and the token found there. A reader that goes through a draft from
left to right therefore meets the first thing wrong first, whether it is the text or the value that is wrong.
-/
import LaunchReports.Json.Token

namespace LaunchReports

/-- where the list of an array or object stands -/
inductive Place where
  /-- right after the opening bracket -/
  | opening
  /-- after an item or member -/
  | entry
  /-- after a comma -/
  | comma
deriving DecidableEq, Repr

/-- how the list of an array or object ends -/
inductive Ending where
  | closed
  | cut (place : Place) (found : Option Token)
deriving DecidableEq, Repr

inductive Draft where
  | null
  | bool (b : Bool)
  | number (n : JsonNumber)
  | string (s : String)
  | array (items : List Draft) (ending : Ending)
  | object (members : List (String × Draft)) (ending : Ending)
  /-- no value; `first` is the character found in its place, if the text goes on -/
  | broken (first : Option Char) (error : SyntaxError)
deriving Repr, Inhabited

namespace Draft

/-- the tokens not yet read -/
abbrev Rest (ts : List Token) := { rest : List Token // rest.length ≤ ts.length }

def Rest.skip {ts : List Token} (t : Token) (r : Rest ts) : Rest (t :: ts) :=
  ⟨r.val, Nat.le_succ_of_le r.property⟩

def Rest.none (ts : List Token) : Rest ts := ⟨[], Nat.zero_le _⟩

/-- what follows a token of the rest -/
def Rest.beyond {ts more : List Token} {t : Token} (h : (t :: more).length ≤ ts.length) (r : Rest more) : Rest ts :=
  ⟨r.val, Nat.le_trans (Nat.le_succ_of_le r.property) h⟩

def Rest.all (ts : List Token) : Rest ts := ⟨ts, Nat.le_refl _⟩

mutual

/-- the value at the start, and what follows it; nothing follows a broken value -/
def value (ts : List Token) : Draft × Rest ts :=
  match ts with
  | [] => (.broken none .eofValue, Rest.none _)
  | .null :: rest => (.null, ⟨rest, Nat.le_succ _⟩)
  | .bool b :: rest => (.bool b, ⟨rest, Nat.le_succ _⟩)
  | .number n :: rest => (.number n, ⟨rest, Nat.le_succ _⟩)
  | .string s :: rest => (.string s, ⟨rest, Nat.le_succ _⟩)
  | .arrayStart :: .arrayEnd :: rest => (.array [] .closed, ⟨rest, Nat.le_add_right _ 2⟩)
  | .arrayStart :: rest =>
    let (list, ending, after) := items .opening rest
    (.array list ending, after.skip _)
  | .objectStart :: .objectEnd :: rest => (.object [] .closed, ⟨rest, Nat.le_add_right _ 2⟩)
  | .objectStart :: rest =>
    let (list, ending, after) := members .opening rest
    (.object list ending, after.skip _)
  | .broken first e :: _ => (.broken (some first) e, Rest.none _)
  | .comma :: _ => (.broken (some ',') .expectedValue, Rest.none _)
  | .colon :: _ => (.broken (some ':') .expectedValue, Rest.none _)
  | .arrayEnd :: _ => (.broken (some ']') .expectedValue, Rest.none _)
  | .objectEnd :: _ => (.broken (some '}') .expectedValue, Rest.none _)
termination_by (ts.length, 0)

/-- the items of an array, from a place where one is due -/
def items (place : Place) (ts : List Token) : List Draft × Ending × Rest ts :=
  match ts with
  | [] => ([], .cut place none, Rest.none _)
  | .arrayEnd :: _ => ([], .cut place (some .arrayEnd), Rest.none _)
  | t :: rest =>
    match value (t :: rest) with
    | (item, ⟨after, h⟩) =>
      match after, h with
      | .comma :: more, h =>
        let (list, ending, last) := items .comma more
        (item :: list, ending, last.beyond h)
      | .arrayEnd :: more, h => ([item], .closed, (Rest.all more).beyond h)
      | after, _ => ([item], .cut .entry after.head?, Rest.none _)
termination_by (ts.length, 1)
decreasing_by
  · exact Prod.Lex.right _ (Nat.lt_succ_self _)
  · exact Prod.Lex.left _ _ (Nat.lt_of_succ_le h)

/-- the members of an object, from a place where a key is due -/
def members (place : Place) (ts : List Token) : List (String × Draft) × Ending × Rest ts :=
  match ts with
  | .string key :: .colon :: rest =>
    match value rest with
    | (item, ⟨after, h⟩) =>
      match after, h with
      | .comma :: more, h =>
        let (list, ending, last) := members .comma more
        ((key, item) :: list, ending, last.beyond (Nat.le_succ_of_le (Nat.le_succ_of_le h)))
      | .objectEnd :: more, h =>
        ([(key, item)], .closed, (Rest.all more).beyond (Nat.le_succ_of_le (Nat.le_succ_of_le h)))
      | after, _ => ([(key, item)], .cut .entry after.head?, Rest.none _)
  | .string key :: [] => ([(key, .broken none .eofObject)], .cut .entry none, Rest.none _)
  | .string key :: _ => ([(key, .broken none .expectedColon)], .cut .entry none, Rest.none _)
  | [] => ([], .cut place none, Rest.none _)
  | t :: _ => ([], .cut place (some t), Rest.none _)
termination_by (ts.length, 1)
decreasing_by
  · exact Prod.Lex.left _ _ (Nat.lt_succ_of_lt (Nat.lt_succ_self _))
  · exact Prod.Lex.left _ _ (Nat.lt_succ_of_le (Nat.le_succ_of_le (Nat.le_of_succ_le h)))

end

/-- a whole text: its value, and whether anything follows that value -/
structure Document where
  root : Draft
  trailing : Bool
deriving Repr

def ofTokens (ts : List Token) : Document :=
  let (root, rest) := value ts
  ⟨root, !rest.val.isEmpty⟩

def ofText (text : List Char) : Document := ofTokens (Token.tokens text)

end Draft

/-! ## What an ending says to a reader -/

/-- an array that is not closed -/
def Ending.listError? : Ending → Option SyntaxError
  | .closed => none
  | .cut .comma none => some .eofValue
  | .cut .comma (some _) => some .trailingComma
  | .cut _ none => some .eofList
  | .cut _ (some _) => some .expectedCommaOrBracket

/-- a token that stands where a key is due -/
def Token.keyError : Token → SyntaxError
  | .broken '"' e => e
  | _ => .keyMustBeString

/-- an object that is not closed -/
def Ending.objectError? : Ending → Option SyntaxError
  | .closed => none
  | .cut .opening none => some .eofObject
  | .cut .opening (some t) => some t.keyError
  | .cut .comma none => some .eofValue
  | .cut .comma (some .objectEnd) => some .trailingComma
  | .cut .comma (some t) => some t.keyError
  | .cut .entry none => some .eofObject
  | .cut .entry (some _) => some .expectedCommaOrBrace

end LaunchReports
