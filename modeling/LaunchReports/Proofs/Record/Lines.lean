/-
Files of session records, line by line.

- `Lines.readFrom_eq_ok_iff` and `Lines.readFrom_eq_error_iff`: a file has the records of its lines that are not blank,
  unless one of these is no record; the first such line is the error.
- `Lines.Holds`: a file with a line for each record, between blank lines, with either line ending.
- `readRecords_holds`: its records are read back.
-/
import LaunchReports.Record.Lines
import LaunchReports.Proofs.Number.Numerals
import LaunchReports.Proofs.Record.Session

namespace LaunchReports

namespace Lines

/-! ## Reading lines -/

section

variable {line : List Char} {rest : List (List Char)} {number : Nat}

theorem readFrom_blank (h : Text.allBlank line = true) :
    readFrom number (line :: rest) = readFrom (number + 1) rest := by
  rw [readFrom, if_pos h]

theorem readFrom_record (h : Text.allBlank line = false) {r : SessionRecord} (hr : SessionRecord.parse line = .ok r) :
    readFrom number (line :: rest) = (readFrom (number + 1) rest).map (r :: ·) := by
  rw [readFrom, if_neg (Bool.eq_false_iff.1 h), hr]

theorem readFrom_refused (h : Text.allBlank line = false) {e : ReadError} (he : SessionRecord.parse line = .error e) :
    readFrom number (line :: rest) = .error ⟨number, e⟩ := by
  rw [readFrom, if_neg (Bool.eq_false_iff.1 h), he]

end

/-- the lines that have to be records -/
def filled (lines : List (List Char)) : List (List Char) := lines.filter fun line => !Text.allBlank line

theorem readFrom_eq_ok_iff {number : Nat} {lines : List (List Char)} {records : List SessionRecord} :
    readFrom number lines = .ok records ↔
      List.Forall₂ (fun line r => SessionRecord.parse line = .ok r) (filled lines) records := by
  induction lines generalizing number records with
  | nil =>
    rw [readFrom, filled, List.filter_nil, List.forall₂_nil_left_iff, Except.ok.injEq]
    exact eq_comm
  | cons line rest ih =>
    cases hblank : Text.allBlank line with
    | true =>
      have hfilled : filled (line :: rest) = filled rest := List.filter_cons_of_neg (by simp [hblank])
      rw [readFrom_blank hblank, hfilled, ih]
    | false =>
      have hfilled : filled (line :: rest) = line :: filled rest := List.filter_cons_of_pos (by simp [hblank])
      rw [hfilled, List.forall₂_cons_left_iff]
      cases hparse : SessionRecord.parse line with
      | error e =>
        rw [readFrom_refused hblank hparse]
        simp
      | ok r =>
        rw [readFrom_record hblank hparse]
        constructor
        · intro h
          cases hrest : readFrom (number + 1) rest with
          | error f => rw [hrest] at h; cases h
          | ok more =>
            rw [hrest] at h
            exact ⟨r, more, rfl, ih.1 hrest, (Except.ok.inj h).symm⟩
        · rintro ⟨_, more, ⟨⟩, hmore, rfl⟩
          rw [ih.2 hmore]
          rfl

/-- a line that is blank or a record -/
def Passes (line : List Char) : Prop := Text.allBlank line = true ∨ ∃ r, SessionRecord.parse line = .ok r

/-- the first line is the error unless it passes -/
theorem readFrom_cons_eq_error {line : List Char} {rest : List (List Char)} {number : Nat} {f : RecordFailure} :
    readFrom number (line :: rest) = .error f ↔
      (Text.allBlank line = false ∧ SessionRecord.parse line = .error f.error ∧ f.line = number) ∨
        Passes line ∧ readFrom (number + 1) rest = .error f := by
  obtain ⟨n, e⟩ := f
  unfold Passes
  cases hblank : Text.allBlank line with
  | true => simp [readFrom_blank hblank]
  | false =>
    cases hparse : SessionRecord.parse line with
    | error d => simp [readFrom_refused hblank hparse, eq_comm, and_comm]
    | ok r =>
      rw [readFrom_record hblank hparse]
      cases readFrom (number + 1) rest <;> simp [Except.map]

/-- the first line that is no record is the error -/
theorem readFrom_eq_error_iff {number : Nat} {lines : List (List Char)} {f : RecordFailure} :
    readFrom number lines = .error f ↔
      ∃ before line after, lines = before ++ line :: after ∧ (∀ l ∈ before, Passes l) ∧ Text.allBlank line = false ∧
        SessionRecord.parse line = .error f.error ∧ f.line = number + before.length := by
  induction lines generalizing number with
  | nil => simp [readFrom]
  | cons first rest ih =>
    rw [readFrom_cons_eq_error, ih]
    constructor
    · rintro (⟨hblank, hparse, hline⟩ | ⟨hpasses, before, line, after, rfl, hbefore, hblank, hparse, hline⟩)
      · exact ⟨[], first, rest, rfl, nofun, hblank, hparse, hline⟩
      · refine ⟨first :: before, line, after, rfl, List.forall_mem_cons.2 ⟨hpasses, hbefore⟩, hblank, hparse, ?_⟩
        rw [hline, List.length_cons]
        omega
    · rintro ⟨before, line, after, hsplit, hbefore, hblank, hparse, hline⟩
      cases before with
      | nil =>
        cases hsplit
        exact .inl ⟨hblank, hparse, hline⟩
      | cons _ before =>
        cases hsplit
        obtain ⟨hpasses, hbefore⟩ := List.forall_mem_cons.1 hbefore
        rw [List.length_cons] at hline
        exact .inr ⟨hpasses, before, line, after, rfl, hbefore, hblank, hparse, by omega⟩

/-! ## Splitting -/

theorem splitFrom_append {line : List Char} (h : '\n' ∉ line) (current rest : List Char) :
    splitFrom current (line ++ rest) = splitFrom (line.reverse ++ current) rest := by
  induction line generalizing current with
  | nil => rfl
  | cons c line ih =>
    rw [List.mem_cons, not_or] at h
    rw [List.cons_append, splitFrom, if_neg (Ne.symm h.1), ih h.2, List.reverse_cons, List.append_assoc,
      List.singleton_append]

theorem split_line {line : List Char} (h : '\n' ∉ line) (rest : List Char) :
    split (line ++ '\n' :: rest) = withoutReturn line :: split rest := by
  rw [split, splitFrom_append h, List.append_nil, splitFrom, if_pos rfl, List.reverse_reverse, split]

theorem split_last {line : List Char} (h : '\n' ∉ line) (hline : line ≠ []) : split line = [line] := by
  have hsplit := splitFrom_append h [] []
  rw [List.append_nil, List.append_nil] at hsplit
  rw [split, hsplit, splitFrom, List.reverse_reverse]
  simp [hline]

theorem withoutReturn_eq {line : List Char} (h : line.getLast? ≠ some '\r') : withoutReturn line = line := if_neg h

theorem withoutReturn_append (line : List Char) : withoutReturn (line ++ ['\r']) = line := by
  rw [withoutReturn, List.getLast?_concat, if_pos rfl, List.dropLast_concat]

theorem allBlank_withoutReturn {line : List Char} (h : Text.allBlank line = true) :
    Text.allBlank (withoutReturn line) = true := by
  unfold withoutReturn
  split
  · exact List.all_eq_true.2 fun c hc => List.all_eq_true.1 h c (List.dropLast_subset line hc)
  · exact h

end Lines

/-! ## Written records -/

namespace Json

theorem newline_not_mem_escape (c : Char) : '\n' ∉ escape c := by
  have hdigit : ∀ n, hexDigit n ≠ '\n' := by
    intro n
    have hall : ∀ m < 16, Nat.digitChar m ≠ '\n' := by decide
    exact hall _ (Nat.mod_lt _ (by decide))
  unfold escape
  split_ifs with h₁ h₂ h₃ h₄ hnewline
  case neg => simp [Ne.symm hnewline]
  all_goals simp [Ne.symm (hdigit _)]

theorem newline_not_mem_ofInt (n : Int) : '\n' ∉ Numeral.ofInt n := by
  intro hmem
  rcases Numeral.mem_ofInt hmem with hsign | hdigit
  · exact absurd hsign (by decide)
  · exact absurd hdigit (by decide)

theorem newline_not_mem_written {t : Token} (h : t.Exact) : '\n' ∉ t.written := by
  match t, h with
  | .objectStart, _ | .objectEnd, _ | .arrayStart, _ | .arrayEnd, _ | .comma, _ | .colon, _ | .null, _ | .bool true, _
  | .bool false, _ => decide
  | .number (.integer n), _ => exact newline_not_mem_ofInt n
  | .string s, _ =>
    simp only [Token.written, quoted, List.mem_cons, List.mem_append, List.mem_flatMap, List.not_mem_nil, or_false]
    rintro (h | ⟨c, -, h⟩ | h)
    · cases h
    · exact newline_not_mem_escape c h
    · cases h

theorem newline_not_mem_chars {j : Json} (h : j.Exact) : '\n' ∉ j.chars := by
  rw [chars_eq, List.mem_flatMap]
  rintro ⟨t, ht, hmem⟩
  exact newline_not_mem_written (h t ht) hmem

/-- an object ends with its closing brace -/
theorem memberChars_eq_append (members : List (String × Json)) : ∃ front, memberChars members = front ++ ['}'] := by
  induction members with
  | nil => exact ⟨[], rfl⟩
  | cons m rest ih =>
    cases rest with
    | nil => exact ⟨quoted m.1 ++ ':' :: m.2.chars, by simp [memberChars]⟩
    | cons next more =>
      obtain ⟨front, hfront⟩ := ih
      exact ⟨quoted m.1 ++ ':' :: (m.2.chars ++ ',' :: front), by simp [memberChars, hfront]⟩

end Json

namespace SessionRecord

theorem exact_toJson (r : SessionRecord) : r.toJson.Exact := by
  have htext (s : Option String) : (textJson s).Exact := Json.exact_ofOption fun s _ => Json.exact_string s
  have hinteger (n : Option Int64) : (integerJson n).Exact :=
    Json.exact_ofOption fun n _ => Json.exact_integer (.inl (fitsInt64_toInt n))
  have hflash : ∀ f ∈ r.flash, f.toJson.Exact := by
    intro f _
    exact Json.exact_object (by simp [FlashInfo.members, htext, hinteger])
  have hjava : ∀ j ∈ r.java, j.toJson.Exact := by
    intro j _
    exact Json.exact_object (by simp [JavaInfo.members, htext])
  refine Json.exact_object fun m hm => ?_
  have hall : ∀ m ∈ r.values, m.2.Exact := by
    simp [values, ownMembers, Json.exact_string, htext, hinteger, Json.exact_ofOption hflash, Json.exact_ofOption hjava]
  exact hall m (r.members_sublist.subset hm)

/-- the line of a record -/
def line (r : SessionRecord) : List Char := r.toJson.compact.toList

theorem line_eq (r : SessionRecord) : r.line = r.toJson.chars := String.toList_ofList

theorem newline_not_mem_line (r : SessionRecord) : '\n' ∉ r.line := by
  rw [line_eq]
  exact Json.newline_not_mem_chars r.exact_toJson

theorem line_ne_nil (r : SessionRecord) : r.line ≠ [] := by
  rw [line_eq, toJson, Json.chars]
  exact List.cons_ne_nil _ _

theorem allBlank_line (r : SessionRecord) : Text.allBlank r.line = false := by
  rw [line_eq, toJson, Json.chars]
  rfl

/-- the line of a record does not end with a carriage return -/
theorem withoutReturn_line (r : SessionRecord) : Lines.withoutReturn r.line = r.line := by
  apply Lines.withoutReturn_eq
  obtain ⟨front, hfront⟩ := Json.memberChars_eq_append r.members
  rw [line_eq, toJson, Json.chars, hfront, ← List.cons_append, List.getLast?_concat]
  decide

theorem parse_line (r : SessionRecord) : parse r.line = .ok r := by
  rw [line_eq, parse, Reader.parse_spelled _ (Json.spelled_chars r.exact_toJson), r.read_toJson]

end SessionRecord

/-! ## Files of records -/

namespace Lines

/-- a file with the line of each record, in order, and with blank lines anywhere -/
inductive Holds : List SessionRecord → List Char → Prop
  | blank {line rest : List Char} {records : List SessionRecord} : '\n' ∉ line → Text.allBlank line = true →
    Holds records rest → Holds records (line ++ '\n' :: rest)
  | record {r : SessionRecord} {ending rest : List Char} {records : List SessionRecord} :
    ending = ['\n'] ∨ ending = ['\r', '\n'] → Holds records rest → Holds (r :: records) (r.line ++ (ending ++ rest))
  /-- the last line does not need an ending -/
  | last (r : SessionRecord) : Holds [r] r.line
  | none {line : List Char} : '\n' ∉ line → Text.allBlank line = true → Holds [] line

theorem split_record (r : SessionRecord) {ending : List Char} (h : ending = ['\n'] ∨ ending = ['\r', '\n'])
    (rest : List Char) : split (r.line ++ (ending ++ rest)) = r.line :: split rest := by
  rcases h with rfl | rfl
  · rw [List.singleton_append, split_line r.newline_not_mem_line, r.withoutReturn_line]
  · have hreturn : '\n' ∉ r.line ++ ['\r'] := by simpa using r.newline_not_mem_line
    have hsplit := split_line hreturn rest
    rwa [withoutReturn_append, List.append_assoc] at hsplit

theorem readFrom_holds {records : List SessionRecord} {text : List Char} (h : Holds records text) (number : Nat) :
    readFrom number (split text) = .ok records := by
  induction h generalizing number with
  | blank hline hblank _ ih => rw [split_line hline, readFrom_blank (allBlank_withoutReturn hblank), ih]
  | @record r ending rest records hending _ ih =>
    rw [split_record r hending, readFrom_record r.allBlank_line r.parse_line, ih]
    rfl
  | last r =>
    rw [split_last r.newline_not_mem_line r.line_ne_nil, readFrom_record r.allBlank_line r.parse_line]
    rfl
  | @none line hline hblank =>
    by_cases hnil : line = []
    · rw [hnil]
      rfl
    · rw [split_last hline hnil, readFrom_blank hblank]
      rfl

end Lines

/-- **The records of a file are read back in order, with either line ending, without one after the last line, and
between any blank lines.** -/
theorem readRecords_holds {records : List SessionRecord} {text : List Char} (h : Lines.Holds records text) :
    readRecords text = .ok records :=
  Lines.readFrom_holds h 1

/-- names with a line break, a quote and a zero, and both runtimes with nothing to tell -/
def sampleRecord : SessionRecord where
  timestamp := "2009-08-03 10:00:00"
  simType := .java
  simProject := "a\r\nb"
  simName := "\"\u0000"
  simDeployment := none
  simDistributionTag := none
  simDev := some (-1)
  simMajorVersion := none
  simMinorVersion := none
  simDevVersion := none
  simSvnRevision := none
  simVersionTimestamp := none
  simLocaleLanguage := none
  simLocaleCountry := none
  simSessionsSince := none
  simTotalSessions := none
  hostLocaleLanguage := none
  hostLocaleCountry := none
  hostSimplifiedOs := none
  flash := some ⟨none, none, none, none, none, none, none, none, none⟩
  java := some ⟨none, none, none, none, none, none⟩

theorem readRecords_holds_sample :
    readRecords ([' ', '\t'] ++ '\n' :: (sampleRecord.line ++ (['\r', '\n'] ++ sampleRecord.line))) =
      .ok [sampleRecord, sampleRecord] :=
  readRecords_holds (.blank (by decide) (by decide) (.record (.inr rfl) (.last _)))

end LaunchReports
