/-
Text literals say where they end, and which text they stand for.

- `readLiteral_eq_some_iff`: the reader takes the literal of a text off the front, and nothing else. A quote behind the
  literal it would take for a doubled one, so what follows begins with none.
- `literal_eq_text_iff`: no other value, and no other text, has the literal of a text.

A literal of another value has no quote at all (`quote_notMem_literalChars`), so `textOfLiteral?` gives back the texts
and nothing for the others.
-/
import LaunchReports.Proofs.Number.Shortest
import LaunchReports.Sql.Value

namespace LaunchReports.Value

/-! ## Doubled quotes -/

theorem doubleQuotes_cons (c : Char) (text : List Char) :
    doubleQuotes (c :: text) = (if c = '\'' then ['\'', '\''] else [c]) ++ doubleQuotes text := rfl

theorem doubleQuotes_of_not_mem {text : List Char} (h : '\'' ∉ text) : doubleQuotes text = text := by
  induction text with
  | nil => rfl
  | cons c text ih =>
    have hc : c ≠ '\'' := fun e => h (e ▸ List.mem_cons_self)
    rw [doubleQuotes_cons, if_neg hc, ih fun hm => h (List.mem_cons_of_mem _ hm)]
    rfl

/-! ## Reading -/

/-- the text literal at the start, and what follows it: a doubled quote stands for one, a single one ends the literal -/
def readQuoted : List Char → Option (List Char × List Char)
  | [] => none
  | [c] => if c = '\'' then some ([], []) else none
  | c :: d :: rest =>
    if c ≠ '\'' then (readQuoted (d :: rest)).map fun (inner, after) => (c :: inner, after)
    else if d = '\'' then (readQuoted rest).map fun (inner, after) => ('\'' :: inner, after)
    else some ([], d :: rest)

/-- the text at the start of a listing, if it begins with a text literal -/
def readLiteral : List Char → Option (List Char × List Char)
  | '\'' :: rest => readQuoted rest
  | _ => none

theorem readQuoted_cons {c : Char} (hc : c ≠ '\'') (text : List Char) :
    readQuoted (c :: text) = (readQuoted text).map fun (inner, after) => (c :: inner, after) := by
  cases text with
  | nil => simp [readQuoted, hc]
  | cons d text => simp [readQuoted, hc]

theorem readQuoted_end {rest : List Char} (h : rest.head? ≠ some '\'') :
    readQuoted ('\'' :: rest) = some ([], rest) := by
  cases rest with
  | nil => rfl
  | cons d rest =>
    have hd : d ≠ '\'' := fun e => h (by rw [e]; rfl)
    simp [readQuoted, hd]

theorem readQuoted_doubleQuotes (text : List Char) {rest : List Char} (h : rest.head? ≠ some '\'') :
    readQuoted (doubleQuotes text ++ '\'' :: rest) = some (text, rest) := by
  induction text with
  | nil => exact readQuoted_end h
  | cons c text ih =>
    rw [doubleQuotes_cons]
    by_cases hc : c = '\''
    · subst hc
      simp [readQuoted, ih]
    · rw [if_neg hc, List.append_assoc, List.singleton_append, readQuoted_cons hc, ih]
      rfl

section

variable {text inner rest : List Char}

/-- what is read was written with its quotes doubled, and the quote that ended it was a single one -/
theorem eq_of_readQuoted (h : readQuoted text = some (inner, rest)) :
    text = doubleQuotes inner ++ '\'' :: rest ∧ rest.head? ≠ some '\'' := by
  fun_induction readQuoted text generalizing inner with
  | case1 => cases h
  | case2 =>
    cases h
    exact ⟨rfl, nofun⟩
  | case3 => cases h
  | case4 c d after hc ih =>
    obtain ⟨⟨before, rest⟩, hread, h⟩ := Option.map_eq_some_iff.1 h
    cases h
    obtain ⟨htext, hrest⟩ := ih hread
    refine ⟨?_, hrest⟩
    rw [htext, doubleQuotes_cons, if_neg hc]
    rfl
  | case5 c after hc ih =>
    obtain ⟨⟨before, rest⟩, hread, h⟩ := Option.map_eq_some_iff.1 h
    cases h
    obtain ⟨htext, hrest⟩ := ih hread
    refine ⟨?_, hrest⟩
    rw [htext, not_ne_iff.1 hc, doubleQuotes_cons, if_pos rfl]
    rfl
  | case6 c d after hc hd =>
    cases h
    exact ⟨by rw [not_ne_iff.1 hc]; rfl, fun he => hd (Option.some_inj.1 he)⟩

theorem quotedText_append (text rest : List Char) :
    quotedText text ++ rest = '\'' :: (doubleQuotes text ++ '\'' :: rest) := by
  simp [quotedText]

theorem readLiteral_quotedText (text : List Char) {rest : List Char} (h : rest.head? ≠ some '\'') :
    readLiteral (quotedText text ++ rest) = some (text, rest) := by
  rw [quotedText_append]
  exact readQuoted_doubleQuotes text h

theorem readLiteral_eq_some_iff :
    readLiteral text = some (inner, rest) ↔ text = quotedText inner ++ rest ∧ rest.head? ≠ some '\'' := by
  constructor
  · intro h
    unfold readLiteral at h
    split at h
    · obtain ⟨hquoted, hrest⟩ := eq_of_readQuoted h
      exact ⟨by rw [quotedText_append, hquoted], hrest⟩
    · cases h
  · rintro ⟨rfl, hrest⟩
    exact readLiteral_quotedText inner hrest

theorem readLiteral_eq_none (h : '\'' ∉ text) : readLiteral text = none := by
  cases text with
  | nil => rfl
  | cons c text =>
    have hc : c ≠ '\'' := fun e => h (e ▸ List.mem_cons_self)
    simp [readLiteral, hc]

end

/-! ## Literals of values -/

theorem toList_literal (v : Value) : v.literal.toList = v.literalChars := String.toList_ofList

theorem literalChars_text (s : String) : (text s).literalChars = quotedText s.toList := rfl

/-- the text that a value is -/
def asText? : Value → Option String
  | text s => some s
  | _ => none

theorem asText?_eq_some_iff {v : Value} {s : String} : v.asText? = some s ↔ v = text s := by
  cases v <;> simp [asText?]

theorem quote_notMem_literalChars {v : Value} (h : v.asText? = none) : '\'' ∉ v.literalChars := by
  intro hquote
  have hdigit : '\''.isDigit ≠ true := by decide
  cases v with
  | null => exact absurd hquote (by decide)
  | integer n =>
    rcases Numeral.mem_ofInt hquote with hsign | hmem
    · exact absurd hsign (by decide)
    · exact hdigit hmem
  | real x =>
    rcases Binary64.mem_text hquote with hmem | hmem | hmem
    · exact hdigit hmem
    · exact absurd hmem (by decide)
    · cases hmem
  | text s => cases h
  | blob bytes =>
    rcases List.mem_append.1 hquote with hquote | hend
    · rcases List.mem_append.1 hquote with hstart | hmem
      · exact absurd hstart (by decide)
      · exact hdigit (Numeral.isDigit_of_mem_ofNat hmem)
    · exact absurd hend (by decide)

/-- the text of a text literal with nothing behind it -/
def textOfLiteral? (literal : String) : Option String :=
  match readLiteral literal.toList with
  | some (inner, []) => some (String.ofList inner)
  | _ => none

theorem textOfLiteral?_literal (v : Value) : textOfLiteral? v.literal = v.asText? := by
  rw [textOfLiteral?, toList_literal]
  cases htext : v.asText? with
  | none => rw [readLiteral_eq_none (quote_notMem_literalChars htext)]
  | some s =>
    obtain rfl := asText?_eq_some_iff.1 htext
    have hread : readLiteral (quotedText s.toList) = some (s.toList, []) :=
      readLiteral_eq_some_iff.2 ⟨(List.append_nil _).symm, nofun⟩
    rw [literalChars_text, hread]
    exact congrArg some String.ofList_toList

theorem literal_eq_text_iff {v : Value} {s : String} : v.literal = (text s).literal ↔ v = text s := by
  refine ⟨fun h => asText?_eq_some_iff.1 ?_, fun h => h ▸ rfl⟩
  rw [← textOfLiteral?_literal, h, textOfLiteral?_literal]
  rfl

end LaunchReports.Value
