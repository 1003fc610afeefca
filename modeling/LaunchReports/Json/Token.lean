/-
JSON text cut into tokens.

`tokens` reads from the left. Where the text stops being JSON it ends with one `broken` token, which keeps the
character it starts with and what is wrong if a value is expected there: which message a reader gives depends on what
it expects at that place.
-/
import LaunchReports.Json.Value

namespace LaunchReports

/-- what can be wrong with the text itself -/
inductive SyntaxError where
  | eofValue
  | eofObject
  | eofList
  | eofString
  | expectedValue
  | expectedIdent
  | keyMustBeString
  | expectedColon
  | expectedCommaOrBrace
  | expectedCommaOrBracket
  | trailingComma
  | trailingCharacters
  | invalidNumber
  | numberOutOfRange
  | invalidEscape
  | unexpectedEndOfHexEscape
  | loneSurrogate
  | controlCharacter
deriving DecidableEq, Repr

def SyntaxError.message : SyntaxError → String
  | .eofValue => "EOF while parsing a value"
  | .eofObject => "EOF while parsing an object"
  | .eofList => "EOF while parsing a list"
  | .eofString => "EOF while parsing a string"
  | .expectedValue => "expected value"
  | .expectedIdent => "expected ident"
  | .keyMustBeString => "key must be a string"
  | .expectedColon => "expected `:`"
  | .expectedCommaOrBrace => "expected `,` or `\x7d`"
  | .expectedCommaOrBracket => "expected `,` or `]`"
  | .trailingComma => "trailing comma"
  | .trailingCharacters => "trailing characters"
  | .invalidNumber => "invalid number"
  | .numberOutOfRange => "number out of range"
  | .invalidEscape => "invalid escape"
  | .unexpectedEndOfHexEscape => "unexpected end of hex escape"
  | .loneSurrogate => "lone leading surrogate in hex escape"
  | .controlCharacter => "control character (\\u0000-\\u001F) found while parsing a string"

inductive Token where
  | objectStart
  | objectEnd
  | arrayStart
  | arrayEnd
  | comma
  | colon
  | null
  | bool (b : Bool)
  | number (n : JsonNumber)
  | string (s : String)
  /-- the rest of the text, which begins with `first` and is no value -/
  | broken (first : Char) (error : SyntaxError)
deriving DecidableEq, Repr

namespace Token

def isSpace (c : Char) : Bool := c = ' ' || c = '\n' || c = '\t' || c = '\r'

/-! ## Strings -/

def hexValue? (c : Char) : Option Nat :=
  if '0' ≤ c ∧ c ≤ '9' then some (c.toNat - '0'.toNat)
  else if 'a' ≤ c ∧ c ≤ 'f' then some (c.toNat - 'a'.toNat + 10)
  else if 'A' ≤ c ∧ c ≤ 'F' then some (c.toNat - 'A'.toNat + 10)
  else none

def hex4? (a b c d : Char) : Option Nat := do
  return (((← hexValue? a) * 16 + (← hexValue? b)) * 16 + (← hexValue? c)) * 16 + (← hexValue? d)

/-- fewer than four characters after `\u`: four bytes would have been taken for digits, fewer are the end -/
def shortHex (rest : List Char) : SyntaxError :=
  if rest.foldl (fun n c => n + c.utf8Size) 0 < 4 then .eofString else .invalidEscape

/-- the character a backslash and a letter stand for -/
def letterEscape? (c : Char) : Option Char :=
  if c = '"' ∨ c = '\\' ∨ c = '/' then some c
  else if c = 'b' then some (Char.ofNat 0x8)
  else if c = 'f' then some (Char.ofNat 0xC)
  else if c = 'n' then some '\n'
  else if c = 'r' then some '\r'
  else if c = 't' then some '\t'
  else none

def isLeading (n : Nat) : Bool := 0xD800 ≤ n && n ≤ 0xDBFF

def isTrailing (n : Nat) : Bool := 0xDC00 ≤ n && n ≤ 0xDFFF

def joinSurrogates (high low : Nat) : Char := Char.ofNat ((high - 0xD800) * 0x400 + (low - 0xDC00) + 0x10000)

def prepend (c : Char) : Except SyntaxError (List Char × List Char) → Except SyntaxError (List Char × List Char)
  | .ok (text, rest) => .ok (c :: text, rest)
  | .error e => .error e

/-- the string whose opening quote has been read, and what follows its closing quote -/
def unquote : List Char → Except SyntaxError (List Char × List Char)
  | [] => .error .eofString
  | c :: rest =>
    if c = '"' then .ok ([], rest)
    else if c = '\\' then
      match rest with
      | [] => .error .eofString
      | letter :: more =>
        if letter = 'u' then
          match more with
          | a :: b :: c :: d :: tail =>
            match hex4? a b c d with
            | none => .error .invalidEscape
            | some n =>
              if isTrailing n then .error .loneSurrogate
              else if isLeading n then
                match tail with
                | [] => .error .eofString
                | slash :: tail =>
                  if slash ≠ '\\' then .error .unexpectedEndOfHexEscape
                  else
                    match tail with
                    | [] => .error .eofString
                    | letter :: tail =>
                      if letter ≠ 'u' then .error .unexpectedEndOfHexEscape
                      else
                        match tail with
                        | a :: b :: c :: d :: tail =>
                          match hex4? a b c d with
                          | none => .error .invalidEscape
                          | some low =>
                            if isTrailing low then prepend (joinSurrogates n low) (unquote tail)
                            else .error .loneSurrogate
                        | short => .error (shortHex short)
              else prepend (Char.ofNat n) (unquote tail)
          | short => .error (shortHex short)
        else
          match letterEscape? letter with
          | some d => prepend d (unquote more)
          | none => .error .invalidEscape
    else if c.toNat < 0x20 then .error .controlCharacter
    else prepend c (unquote rest)

theorem prepend_ok {c : Char} {r : Except SyntaxError (List Char × List Char)} {text rest : List Char}
    (h : prepend c r = .ok (text, rest)) : ∃ inner, r = .ok (inner, rest) ∧ text = c :: inner := by
  match r, h with
  | .ok (inner, _), h =>
    simp only [prepend, Except.ok.injEq, Prod.mk.injEq] at h
    exact ⟨inner, by rw [h.2], h.1.symm⟩

theorem length_of_unquote {cs text rest : List Char} (h : unquote cs = .ok (text, rest)) :
    rest.length ≤ cs.length := by
  fun_induction unquote cs generalizing text rest
  case case11 ih => obtain ⟨_, hr, _⟩ := prepend_ok h; have := ih hr; simp only [List.length_cons]; omega
  case case14 ih => obtain ⟨_, hr, _⟩ := prepend_ok h; have := ih hr; simp only [List.length_cons]; omega
  case case16 ih => obtain ⟨_, hr, _⟩ := prepend_ok h; have := ih hr; simp only [List.length_cons]; omega
  case case19 ih => obtain ⟨_, hr, _⟩ := prepend_ok h; have := ih hr; simp only [List.length_cons]; omega
  all_goals simp_all

/-! ## Numbers -/

/-- digits gathered into 64 bits: those of the whole part that no longer fit only count, those of the fraction that no
longer fit are left out -/
structure Gathered where
  significand : Nat
  exponent : Int
  full : Bool
deriving DecidableEq, Repr

def Gathered.digit (whole : Bool) (g : Gathered) (c : Char) : Gathered :=
  let next := g.significand * 10 + (c.toNat - '0'.toNat)
  if g.full || twoTo 64 ≤ next then { g with exponent := if whole then g.exponent + 1 else g.exponent, full := true }
  else ⟨next, if whole then g.exponent else g.exponent - 1, false⟩

def Gathered.whole (digits : List Char) : Gathered := digits.foldl (Gathered.digit true) ⟨0, 0, false⟩

def Gathered.fraction (g : Gathered) (digits : List Char) : Gathered :=
  digits.foldl (Gathered.digit false) { g with full := false }

/-- a real times or over `10 ^ |e|`, for `|e|` at most 308, rounded once -/
def scaleByTen (x : Binary64) (e : Int) : Binary64 :=
  let power := Binary64.ofRatio false (tenTo e.natAbs) 1
  match x.form, power.form with
  | .finite negative m q, .finite _ n r =>
    let shift := if e < 0 then q - r else q + r
    let (num, den) := if e < 0 then (m, n) else (m * n, 1)
    if 0 ≤ shift then Binary64.ofRatio negative (num * twoTo shift.natAbs) den
    else Binary64.ofRatio negative num (den * twoTo shift.natAbs)
  | _, _ => x

/-- the real read from gathered digits: the significand is rounded, then scaled by powers of ten of at most 308; two
divisions reach zero, so three steps are enough -/
def realOf (negative : Bool) (significand : Nat) (exponent : Int) : Except SyntaxError JsonNumber :=
  let start := Binary64.ofRatio negative significand 1
  if significand = 0 then .ok (.real start)
  else if 308 < exponent then .error .numberOutOfRange
  else
    let (x, e) := if exponent < -308 then (scaleByTen start (-308), exponent + 308) else (start, exponent)
    let (x, e) := if e < -308 then (scaleByTen x (-308), e + 308) else (x, e)
    let y := if e < -308 then Binary64.ofRatio negative 0 1 else scaleByTen x e
    if y.isFinite then .ok (.real y) else .error .numberOutOfRange

def wholeOf (negative : Bool) (g : Gathered) : Except SyntaxError JsonNumber :=
  if g.full then realOf negative g.significand g.exponent
  else if !negative then .ok (.integer g.significand)
  else if g.significand = 0 ∨ twoTo 63 < g.significand then realOf true g.significand 0
  else .ok (.integer (-(g.significand : Int)))

/-- a number ends too early: at the end of the text, or at some other character -/
def missingDigit (rest : List Char) : SyntaxError := if rest.isEmpty then .eofValue else .invalidNumber

/-- the exponent after its letter, and what follows it -/
def exponentOf (text : List Char) : Except SyntaxError Int × List Char :=
  let (negative, body) := Decimal.splitSign text
  let digits := body.takeWhile Char.isDigit
  let rest := body.dropWhile Char.isDigit
  if digits.isEmpty then (.error (missingDigit rest), rest)
  else
    let n : Int := Numeral.toNat digits
    (.ok (if negative then -n else n), rest)

/-- digits and perhaps an exponent mark have been gathered: the number, and what follows it -/
def finishReal (negative : Bool) (g : Gathered) (text : List Char) : Except SyntaxError JsonNumber × List Char :=
  match text with
  | [] => (realOf negative g.significand g.exponent, [])
  | mark :: rest =>
    if mark = 'e' ∨ mark = 'E' then
      let (e, tail) := exponentOf rest
      (e.bind fun e => realOf negative g.significand (g.exponent + e), tail)
    else (realOf negative g.significand g.exponent, mark :: rest)

/-- the number at the start of a text whose sign has been read, and what follows it -/
def unsignedAt (negative : Bool) (body : List Char) : Except SyntaxError JsonNumber × List Char :=
  let digits := body.takeWhile Char.isDigit
  let rest := body.dropWhile Char.isDigit
  if digits.isEmpty then (.error (missingDigit rest), rest)
  else if digits.head? = some '0' ∧ 1 < digits.length then (.error .invalidNumber, rest)
  else
    let g := Gathered.whole digits
    match rest with
    | [] => (wholeOf negative g, [])
    | mark :: after =>
      if mark = '.' then
        let fraction := after.takeWhile Char.isDigit
        let tail := after.dropWhile Char.isDigit
        if fraction.isEmpty then (.error (missingDigit tail), tail)
        else finishReal negative (g.fraction fraction) tail
      else if mark = 'e' ∨ mark = 'E' then finishReal negative g rest
      else (wholeOf negative g, rest)

/-- the number at the start of a text, and what follows it -/
def numberAt (text : List Char) : Except SyntaxError JsonNumber × List Char :=
  if text.head? = some '-' then unsignedAt true text.tail else unsignedAt false text

theorem length_dropWhile (p : Char → Bool) (cs : List Char) : (cs.dropWhile p).length ≤ cs.length :=
  (List.dropWhile_sublist p).length_le

theorem exponentOf_length (text : List Char) : (exponentOf text).2.length ≤ text.length := by
  unfold exponentOf Decimal.splitSign
  grind [length_dropWhile]

theorem finishReal_length (negative : Bool) (g : Gathered) (text : List Char) :
    (finishReal negative g text).2.length ≤ text.length := by
  unfold finishReal
  grind [exponentOf_length]

theorem unsignedAt_length (negative : Bool) (body : List Char) :
    (unsignedAt negative body).2.length ≤ (body.dropWhile Char.isDigit).length := by
  unfold unsignedAt
  grind [finishReal_length, length_dropWhile]

/-- a number takes at least its first character -/
theorem numberAt_length {c : Char} {rest : List Char} (h : c = '-' ∨ c.isDigit) :
    (numberAt (c :: rest)).2.length ≤ rest.length := by
  have hdrop := length_dropWhile Char.isDigit rest
  rcases h with rfl | h
  · exact Nat.le_trans (unsignedAt_length true rest) hdrop
  · have hc : (c :: rest).head? ≠ some '-' := by
      rintro ⟨⟩
      simp at h
    rw [numberAt, if_neg hc]
    refine Nat.le_trans (unsignedAt_length false _) ?_
    rw [List.dropWhile_cons, if_pos h]
    exact hdrop

/-! ## Tokens -/

/-- the rest of a fixed word -/
def word (token : Token) (first : Char) : List Char → List Char → Token × List Char
  | [], rest => (token, rest)
  | _ :: _, [] => (.broken first .eofValue, [])
  | expected :: more, c :: rest =>
    if c = expected then word token first more rest else (.broken first .expectedIdent, [])

theorem word_length (token : Token) (first : Char) (expected rest : List Char) :
    (word token first expected rest).2.length ≤ rest.length := by
  fun_induction word token first expected rest <;> grind

def punctuation? (c : Char) : Option Token :=
  if c = '{' then some .objectStart
  else if c = '}' then some .objectEnd
  else if c = '[' then some .arrayStart
  else if c = ']' then some .arrayEnd
  else if c = ',' then some .comma
  else if c = ':' then some .colon
  else none

/-- the token that begins with `c` and has more than one character, and what follows it; a broken token leaves
nothing -/
def longer (c : Char) (rest : List Char) : Token × List Char :=
  if c = 'n' then word .null c ['u', 'l', 'l'] rest
  else if c = 't' then word (.bool true) c ['r', 'u', 'e'] rest
  else if c = 'f' then word (.bool false) c ['a', 'l', 's', 'e'] rest
  else if c = '"' then
    match unquote rest with
    | .ok (text, rest) => (.string (String.ofList text), rest)
    | .error e => (.broken c e, [])
  else if c = '-' ∨ c.isDigit then
    match numberAt (c :: rest) with
    | (.ok n, tail) => (.number n, tail)
    | (.error e, _) => (.broken c e, [])
  else (.broken c .expectedValue, [])

theorem longer_length (c : Char) (rest : List Char) : (longer c rest).2.length ≤ rest.length := by
  have hs : ∀ text tail, unquote rest = .ok (text, tail) → tail.length ≤ rest.length :=
    fun _ _ => length_of_unquote
  have hn : c = '-' ∨ c.isDigit → (numberAt (c :: rest)).2.length ≤ rest.length := numberAt_length
  unfold longer
  grind [word_length]

/-- the token that begins with `c`, and what follows it -/
def next (c : Char) (rest : List Char) : Token × List Char :=
  match punctuation? c with
  | some t => (t, rest)
  | none => longer c rest

theorem next_length (c : Char) (rest : List Char) : (next c rest).2.length ≤ rest.length := by
  unfold next
  split
  · exact Nat.le_refl _
  · exact longer_length c rest

/-- the tokens of a text; a broken token is the last one -/
def tokens : List Char → List Token
  | [] => []
  | c :: rest => if isSpace c then tokens rest else (next c rest).1 :: tokens (next c rest).2
termination_by text => text.length
decreasing_by
  · simp
  · have := next_length c rest; simp only [List.length_cons]; omega

end Token

end LaunchReports
