/-
The texts that spell JSON tokens, and what is read from them.

Every token but a string is spelled in one way only. A character of a string stands for itself or is escaped, and there
may be white space before each token and after the last.

- `Token.tokens_of_spelled`: a text that spells tokens is cut into these tokens, if no number runs into what follows it.
- `Token.Lexeme.written`: the written form of a token spells it.

`CharSpelling.unquote_append` and `Lexeme.tokens_append` are the steps for a character and for a token with any text
behind it.
-/
import Mathlib.Data.List.Chain
import Mathlib.Data.List.Forall2
import LaunchReports.Proofs.Json.Numbers

namespace LaunchReports

namespace Token

/-! ## Strings -/

/-- the texts of a character in a string: the character itself, a letter or its code after a backslash, or two codes -/
inductive CharSpelling : Char → List Char → Prop
  | plain {c : Char} : c ≠ '"' → c ≠ '\\' → 0x20 ≤ c.toNat → CharSpelling c [c]
  | letter {l c : Char} : letterEscape? l = some c → CharSpelling c ['\\', l]
  | code {a b c d : Char} {n : Nat} : hex4? a b c d = some n → isLeading n = false → isTrailing n = false →
    CharSpelling (Char.ofNat n) ['\\', 'u', a, b, c, d]
  | pair {a b c d a' b' c' d' : Char} {high low : Nat} : hex4? a b c d = some high → isLeading high = true →
    hex4? a' b' c' d' = some low → isTrailing low = true →
    CharSpelling (joinSurrogates high low) ['\\', 'u', a, b, c, d, '\\', 'u', a', b', c', d']

theorem letterEscape?_u : letterEscape? 'u' = none := by decide

/-- no code is the first and the second of a pair -/
theorem isTrailing_of_isLeading {n : Nat} (h : isLeading n = true) : isTrailing n = false := by
  simp only [isLeading, isTrailing, Bool.and_eq_true, decide_eq_true_eq, Bool.and_eq_false_iff,
    decide_eq_false_iff_not] at h ⊢
  omega

theorem CharSpelling.unquote_append {c : Char} {word : List Char} (h : CharSpelling c word) (rest : List Char) :
    unquote (word ++ rest) = prepend c (unquote rest) := by
  cases h with
  | plain hquote hbackslash hcontrol =>
    rw [List.singleton_append, unquote.eq_def]
    simp [hquote, hbackslash, Nat.not_lt.2 hcontrol]
  | @letter l _ hl =>
    have hu : l ≠ 'u' := by
      rintro rfl
      rw [letterEscape?_u] at hl
      cases hl
    rw [unquote.eq_def]
    simp [hu, hl]
  | code hn hleading htrailing =>
    rw [unquote.eq_def]
    simp [hn, hleading, htrailing]
  | pair hhigh hleading hlow htrailing =>
    rw [unquote.eq_def]
    simp [hhigh, hleading, isTrailing_of_isLeading hleading, hlow, htrailing]

theorem unquote_spelled {s : List Char} {words : List (List Char)} (h : List.Forall₂ CharSpelling s words)
    (rest : List Char) : unquote (words.flatten ++ '"' :: rest) = .ok (s, rest) := by
  induction h with
  | nil =>
    rw [List.flatten_nil, List.nil_append, unquote.eq_def]
    simp
  | cons hc _ ih =>
    rw [List.flatten_cons, List.append_assoc, hc.unquote_append, ih]
    rfl

/-! ### The escapes of the written form -/

theorem hexValue?_hexDigit (n : Nat) : hexValue? (Json.hexDigit n) = some (n % 16) := by
  have hall : ∀ m < 16, hexValue? (Nat.digitChar m) = some m := by decide
  exact hall _ (Nat.mod_lt _ (by decide))

/-- the code that control characters are written by -/
theorem hex4?_control {n : Nat} (h : n < 0x20) :
    hex4? '0' '0' (Json.hexDigit (n / 16)) (Json.hexDigit n) = some n := by
  have hzero : hexValue? '0' = some 0 := by decide
  simp only [hex4?, hzero, hexValue?_hexDigit, Option.pure_def, Option.bind_eq_bind, Option.bind_some,
    Option.some.injEq]
  omega

theorem charSpelling_escape (c : Char) : CharSpelling c (Json.escape c) := by
  unfold Json.escape
  split_ifs with hquote hbackslash hb hf hn hr ht hcontrol
  · exact .letter (by subst hquote; decide)
  · exact .letter (by subst hbackslash; decide)
  · exact .letter (by rw [show c = Char.ofNat 0x8 by rw [← hb, Char.ofNat_toNat]]; decide)
  · exact .letter (by rw [show c = Char.ofNat 0xC by rw [← hf, Char.ofNat_toNat]]; decide)
  · exact .letter (by subst hn; decide)
  · exact .letter (by subst hr; decide)
  · exact .letter (by subst ht; decide)
  · have hspelled := CharSpelling.code (hex4?_control hcontrol) (by simp [isLeading]; omega)
      (by simp [isTrailing]; omega)
    rwa [Char.ofNat_toNat] at hspelled
  · exact .plain hquote hbackslash (Nat.not_lt.1 hcontrol)

/-! ## Tokens -/

/-- the texts of one token -/
inductive Lexeme : Token → List Char → Prop
  | mark {c : Char} {t : Token} : punctuation? c = some t → Lexeme t [c]
  | null : Lexeme .null ['n', 'u', 'l', 'l']
  | boolTrue : Lexeme (.bool true) ['t', 'r', 'u', 'e']
  | boolFalse : Lexeme (.bool false) ['f', 'a', 'l', 's', 'e']
  | number {n : JsonNumber} {word : List Char} : numberAt word = (.ok n, []) → Lexeme (.number n) word
  | string {s : List Char} {words : List (List Char)} : List.Forall₂ CharSpelling s words →
    Lexeme (.string (String.ofList s)) ('"' :: (words.flatten ++ ['"']))

theorem isSpace_of_punctuation? {c : Char} {t : Token} (h : punctuation? c = some t) : isSpace c = false := by
  unfold punctuation? at h
  split_ifs at h with h₁ h₂ h₃ h₄ h₅ h₆
  all_goals subst c; rfl

/-- a token is read from its first character and what follows that -/
theorem tokens_cons {c : Char} {rest after : List Char} {t : Token} (hc : isSpace c = false)
    (h : next c rest = (t, after)) : tokens (c :: rest) = t :: tokens after := by
  rw [tokens, if_neg (by rw [hc]; exact Bool.false_ne_true), h]

theorem word_append (t : Token) (first : Char) (expected rest : List Char) :
    word t first expected (expected ++ rest) = (t, rest) := by
  induction expected with
  | nil => rfl
  | cons c expected ih => rw [List.cons_append, word, if_pos rfl, ih]

theorem next_number {c : Char} {cs tail : List Char} {n : JsonNumber} (h : numberAt (c :: cs) = (.ok n, tail)) :
    isSpace c = false ∧ next c cs = (.number n, tail) := by
  have hfirst := numberAt_first h
  have hother : ∀ d : Char, d.isDigit = false → d ≠ '-' → c ≠ d := by
    rintro d hdigit hminus rfl
    rcases hfirst with hc | hc
    · exact hminus hc
    · rw [hdigit] at hc
      cases hc
  have hmark : punctuation? c = none := by
    unfold punctuation?
    simp only [hother '{' rfl (by decide), hother '}' rfl (by decide), hother '[' rfl (by decide),
      hother ']' rfl (by decide), hother ',' rfl (by decide), hother ':' rfl (by decide), if_false]
  refine ⟨?_, ?_⟩
  · simp [isSpace, hother ' ' rfl (by decide), hother '\n' rfl (by decide), hother '\t' rfl (by decide),
      hother '\r' rfl (by decide)]
  · rw [next, hmark]
    simp [longer, hother 'n' rfl (by decide), hother 't' rfl (by decide), hother 'f' rfl (by decide),
      hother '"' rfl (by decide), hfirst, h]

/-- a token is read alike whatever follows it, unless that goes on with a number -/
theorem Lexeme.tokens_append {t : Token} {word : List Char} (h : Lexeme t word) {rest : List Char}
    (hrest : (∃ n, t = .number n) → EndsNumber rest) : tokens (word ++ rest) = t :: tokens rest := by
  cases h with
  | mark hc => exact tokens_cons (isSpace_of_punctuation? hc) (by rw [next, hc]; rfl)
  | null =>
    refine tokens_cons rfl ?_
    exact word_append .null 'n' ['u', 'l', 'l'] rest
  | boolTrue =>
    refine tokens_cons rfl ?_
    exact word_append (.bool true) 't' ['r', 'u', 'e'] rest
  | boolFalse =>
    refine tokens_cons rfl ?_
    exact word_append (.bool false) 'f' ['a', 'l', 's', 'e'] rest
  | @number n word hn =>
    have hread := numberAt_append hn (hrest ⟨n, rfl⟩)
    match word, hread with
    | [], _ => cases hn
    | c :: cs, hread =>
      obtain ⟨hc, hnext⟩ := next_number hread
      exact tokens_cons hc hnext
  | string hs =>
    have hread := unquote_spelled hs rest
    rw [List.cons_append, List.append_assoc, List.singleton_append]
    refine tokens_cons rfl ?_
    show longer '"' _ = _
    simp [longer, hread]

/-! ## Texts -/

/-- a text that spells tokens, with white space before each of them and after the last -/
inductive Spelled : List Token → List Char → Prop
  | nil {blank : List Char} : blank.all isSpace = true → Spelled [] blank
  | cons {blank word text : List Char} {t : Token} {ts : List Token} : blank.all isSpace = true → Lexeme t word →
    Spelled ts text → Spelled (t :: ts) (blank ++ (word ++ text))

def isMark : Token → Bool
  | .objectStart | .objectEnd | .arrayStart | .arrayEnd | .comma | .colon => true
  | _ => false

/-- what follows a number is a mark -/
def Apart (ts : List Token) : Prop := ts.IsChain fun t u => (∃ n, t = .number n) → u.isMark = true

theorem endsNumber_of_isSpace {c : Char} (h : isSpace c = true) (rest : List Char) : EndsNumber (c :: rest) := by
  rintro d ⟨⟩
  simp only [isSpace, Bool.or_eq_true, decide_eq_true_eq] at h
  rcases h with ((rfl | rfl) | rfl) | rfl <;> decide

theorem Lexeme.endsNumber {t : Token} {word : List Char} (h : Lexeme t word) (ht : t.isMark = true) (rest : List Char) :
    EndsNumber (word ++ rest) := by
  cases h with
  | @mark c _ hc =>
    rintro d ⟨⟩
    unfold punctuation? at hc
    split_ifs at hc with h₁ h₂ h₃ h₄ h₅ h₆
    all_goals subst c; decide
  | null | boolTrue | boolFalse | number | string => cases ht

theorem Spelled.endsNumber {ts : List Token} {text : List Char} (h : Spelled ts text)
    (hts : ∀ t ∈ ts.head?, t.isMark = true) : EndsNumber text := by
  have hblank : ∀ {blank rest : List Char}, blank.all isSpace = true → EndsNumber rest →
      EndsNumber (blank ++ rest) := by
    intro blank rest hblank hrest
    cases blank with
    | nil => exact hrest
    | cons c blank => exact endsNumber_of_isSpace (List.all_eq_true.1 hblank c List.mem_cons_self) _
  cases h with
  | nil hspace =>
    rw [← List.append_nil text]
    exact hblank hspace nofun
  | cons hspace hword _ => exact hblank hspace (hword.endsNumber (hts _ rfl) _)

theorem tokens_blank {blank : List Char} (h : blank.all isSpace = true) (text : List Char) :
    tokens (blank ++ text) = tokens text := by
  induction blank with
  | nil => rfl
  | cons c blank ih =>
    rw [List.all_cons, Bool.and_eq_true] at h
    rw [List.cons_append, tokens, if_pos h.1, ih h.2]

/-- **A text is cut into the tokens that it spells.** -/
theorem tokens_of_spelled {ts : List Token} {text : List Char} (h : Spelled ts text) (hts : Apart ts) :
    tokens text = ts := by
  induction h with
  | @nil blank hspace =>
    rw [← List.append_nil blank, tokens_blank hspace, tokens]
  | @cons blank word text t ts hspace hword hrest ih =>
    have hapart := List.isChain_cons.1 hts
    rw [tokens_blank hspace, hword.tokens_append, ih hapart.2]
    exact fun hnumber => hrest.endsNumber fun u hu => hapart.1 u hu hnumber

/-! ### The written form -/

/-- the text of a token in the written form -/
def written : Token → List Char
  | .objectStart => ['{']
  | .objectEnd => ['}']
  | .arrayStart => ['[']
  | .arrayEnd => [']']
  | .comma => [',']
  | .colon => [':']
  | .null => ['n', 'u', 'l', 'l']
  | .bool true => ['t', 'r', 'u', 'e']
  | .bool false => ['f', 'a', 'l', 's', 'e']
  | .number n => Json.numberText n
  | .string s => Json.quoted s
  | .broken .. => []

/-- a token whose written form is read back: no real, and nothing that is broken -/
def Exact : Token → Prop
  | .number (.integer n) => fitsInt64 n = true ∨ fitsUInt64 n = true
  | .number (.real _) | .broken .. => False
  | _ => True

theorem Lexeme.written {t : Token} (h : t.Exact) : Lexeme t t.written := by
  match t, h with
  | .objectStart, _ | .objectEnd, _ | .arrayStart, _ | .arrayEnd, _ | .comma, _ | .colon, _ => exact .mark rfl
  | .null, _ => exact .null
  | .bool true, _ => exact .boolTrue
  | .bool false, _ => exact .boolFalse
  | .number (.integer n), h => exact .number (numberAt_ofInt h)
  | .string s, _ =>
    have hchars : List.Forall₂ CharSpelling s.toList (s.toList.map Json.escape) :=
      List.forall₂_map_right_iff.2 (List.forall₂_same.2 fun c _ => charSpelling_escape c)
    have hlexeme := Lexeme.string hchars
    rwa [String.ofList_toList, ← List.flatMap_def] at hlexeme

theorem spelled_written {ts : List Token} (h : ∀ t ∈ ts, Lexeme t t.written) : Spelled ts (ts.flatMap Token.written) := by
  induction ts with
  | nil => exact .nil rfl
  | cons t ts ih =>
    rw [List.flatMap_cons, ← List.nil_append (_ ++ _)]
    exact .cons rfl (h t List.mem_cons_self) (ih fun u hu => h u (List.mem_cons_of_mem t hu))

end Token

end LaunchReports
