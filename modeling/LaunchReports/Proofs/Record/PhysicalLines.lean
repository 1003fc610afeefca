/-
Record files as texts: their lines, and one file behind another.

`Divided` says what the lines of a text are, by the text alone, and `divided_iff` that these are the lines that are
read.

- `readRecords_lines`: each text has one list of lines. Its records are those of the lines that are not blank, in order,
  and the first such line that is no record is the error, under its number among all lines. Where the last line of a
  text has its ending, what stands behind it is read as a file of its own: `continued` puts the two together.
-/
import LaunchReports.Proofs.Record.Lines

namespace LaunchReports

open Lines

/-! ## Lines of a text -/

/-- the text has these lines; the last one can do without an ending, and then all of it belongs to the line -/
inductive Divided : List Char → List (List Char) → Prop
  | empty : Divided [] []
  | last {line : List Char} (unbroken : '\n' ∉ line) (written : line ≠ []) : Divided line [line]
  | feed {line rest : List Char} {lines : List (List Char)} (unbroken : '\n' ∉ line)
    (bare : line.getLast? ≠ some '\r') (more : Divided rest lines) : Divided (line ++ '\n' :: rest) (line :: lines)
  | returnFeed {line rest : List Char} {lines : List (List Char)} (unbroken : '\n' ∉ line)
    (more : Divided rest lines) : Divided (line ++ '\r' :: '\n' :: rest) (line :: lines)

/-- nothing stands behind the last line feed -/
def EndsLine (text : List Char) : Prop := text = [] ∨ text.getLast? = some '\n'

theorem EndsLine.behind {front rest : List Char} (h : EndsLine (front ++ '\n' :: rest)) : EndsLine rest := by
  by_cases hrest : rest = []
  · exact .inl hrest
  · rcases h with hnil | hlast
    · simp at hnil
    · rw [List.getLast?_append_cons, List.getLast?_cons_of_ne_nil hrest] at hlast
      exact .inr hlast

namespace Divided

variable {text : List Char} {lines : List (List Char)}

theorem split_eq (h : Divided text lines) : split text = lines := by
  induction h with
  | empty => rfl
  | last unbroken written => exact split_last unbroken written
  | feed unbroken bare _ ih => rw [split_line unbroken, withoutReturn_eq bare, ih]
  | @returnFeed line rest lines unbroken _ ih =>
    have hreturn : '\n' ∉ line ++ ['\r'] := by simpa using unbroken
    have hsplit := split_line hreturn rest
    rwa [withoutReturn_append, List.append_assoc, ih] at hsplit

/-- by induction on the length: the first line feed ends a line, and the text behind it is shorter -/
theorem exists_lines (text : List Char) : ∃ lines, Divided text lines := by
  induction hn : text.length using Nat.strong_induction_on generalizing text with
  | _ n ih =>
    by_cases hfeed : '\n' ∈ text
    · obtain ⟨line, rest, rfl, hline⟩ := List.eq_append_cons_of_mem hfeed
      obtain ⟨lines, hlines⟩ := ih rest.length (by simp at hn; omega) rest rfl
      by_cases hreturn : line.getLast? = some '\r'
      · obtain ⟨front, rfl⟩ := List.getLast?_eq_some_iff.1 hreturn
        rw [List.append_assoc]
        exact ⟨_, .returnFeed (fun h => hline (List.mem_append_left _ h)) hlines⟩
      · exact ⟨_, .feed hline hreturn hlines⟩
    · by_cases hnil : text = []
      · exact ⟨[], hnil ▸ .empty⟩
      · exact ⟨_, .last hfeed hnil⟩

theorem append (h : Divided text lines) (hend : EndsLine text) {rest : List Char} {more : List (List Char)}
    (hrest : Divided rest more) : Divided (text ++ rest) (lines ++ more) := by
  induction h with
  | empty => exact hrest
  | last unbroken written =>
    rcases hend with hnil | hlast
    · exact (written hnil).elim
    · exact (unbroken (List.mem_of_getLast? hlast)).elim
  | feed unbroken bare _ ih =>
    rw [List.append_assoc]
    exact .feed unbroken bare (ih hend.behind)
  | @returnFeed line behind lines unbroken _ ih =>
    have hbehind : EndsLine behind := by
      rw [← List.singleton_append, ← List.append_assoc] at hend
      exact hend.behind
    rw [List.append_assoc]
    exact .returnFeed unbroken (ih hbehind)

end Divided

theorem divided_iff {text : List Char} {lines : List (List Char)} : Divided text lines ↔ split text = lines := by
  constructor
  · exact Divided.split_eq
  · rintro rfl
    obtain ⟨lines, hlines⟩ := Divided.exists_lines text
    rwa [hlines.split_eq]

/-! ## One file behind another -/

/-- what is read of a file of so many lines with another one behind it -/
def continued (lines : Nat) :
    Except RecordFailure (List SessionRecord) → Except RecordFailure (List SessionRecord) →
      Except RecordFailure (List SessionRecord)
  | .error f, _ => .error f
  | .ok records, .ok more => .ok (records ++ more)
  | .ok _, .error f => .error { f with line := f.line + lines }

variable {first second : Except RecordFailure (List SessionRecord)}

theorem continued_zero_nil : continued 0 (.ok []) second = second := by cases second <;> rfl

theorem continued_cons (lines : Nat) (r : SessionRecord) :
    continued lines (first.map (r :: ·)) second = (continued lines first second).map (r :: ·) := by
  cases first <;> cases second <;> rfl

/-- a line more before the second file -/
theorem continued_continued (lines : Nat) :
    continued lines first (continued 1 (.ok []) second) = continued (lines + 1) first second := by
  cases first with
  | error f => rfl
  | ok records =>
    cases second with
    | ok more => rfl
    | error f => rw [continued, continued, continued, Nat.add_assoc, Nat.add_comm 1]

namespace Lines

/-- numbers count from where they start -/
theorem readFrom_succ (number : Nat) (lines : List (List Char)) :
    readFrom (number + 1) lines = continued 1 (.ok []) (readFrom number lines) := by
  induction lines generalizing number with
  | nil => rfl
  | cons line rest ih =>
    cases hblank : Text.allBlank line with
    | true => rw [readFrom_blank hblank, readFrom_blank hblank, ih]
    | false =>
      cases hparse : SessionRecord.parse line with
      | error e =>
        rw [readFrom_refused hblank hparse, readFrom_refused hblank hparse]
        rfl
      | ok r =>
        rw [readFrom_record hblank hparse, readFrom_record hblank hparse, ih]
        cases readFrom (number + 1) rest <;> rfl

theorem readFrom_append_eq (number : Nat) (before lines : List (List Char)) :
    readFrom number (before ++ lines) = continued before.length (readFrom number before) (readFrom number lines) := by
  induction before generalizing number with
  | nil => exact continued_zero_nil.symm
  | cons line before ih =>
    rw [List.cons_append, List.length_cons]
    cases hblank : Text.allBlank line with
    | true => rw [readFrom_blank hblank, readFrom_blank hblank, ih, readFrom_succ number lines, continued_continued]
    | false =>
      cases hparse : SessionRecord.parse line with
      | error e =>
        rw [readFrom_refused hblank hparse, readFrom_refused hblank hparse]
        rfl
      | ok r =>
        rw [readFrom_record hblank hparse, readFrom_record hblank hparse, ih, readFrom_succ number lines,
          continued_continued, continued_cons]

end Lines

theorem readRecords_append {text : List Char} {lines : List (List Char)} (h : Divided text lines) (hend : EndsLine text)
    (rest : List Char) : readRecords (text ++ rest) = continued lines.length (readRecords text) (readRecords rest) := by
  obtain ⟨more, hmore⟩ := Divided.exists_lines rest
  rw [readRecords, readRecords, readRecords, (h.append hend hmore).split_eq, h.split_eq, hmore.split_eq,
    readFrom_append_eq]

/-- the lines of a file that is read whole all pass -/
theorem exists_readRecords_iff {text : List Char} {lines : List (List Char)} (h : Divided text lines) :
    (∃ records, readRecords text = .ok records) ↔ ∀ line ∈ lines, Passes line := by
  rw [readRecords, h.split_eq]
  constructor
  · rintro ⟨records, hrecords⟩ line hline
    have hparsed : ∀ l ∈ filled lines, ∃ r, SessionRecord.parse l = .ok r :=
      ((List.forall₂_and_left ..).1 ((readFrom_eq_ok_iff.1 hrecords).imp fun l r hr => ⟨⟨r, hr⟩, hr⟩)).1
    cases hblank : Text.allBlank line with
    | true => exact .inl hblank
    | false => exact .inr (hparsed line (List.mem_filter.2 ⟨hline, by rw [hblank]; rfl⟩))
  · intro hpasses
    cases hread : readFrom 1 lines with
    | ok records => exact ⟨records, rfl⟩
    | error f =>
      obtain ⟨before, line, after, rfl, -, hblank, hparse, -⟩ := readFrom_eq_error_iff.1 hread
      rcases hpasses line (List.mem_append_right _ List.mem_cons_self) with hempty | ⟨r, hr⟩
      · rw [hblank] at hempty; cases hempty
      · rw [hparse] at hr; cases hr

/-- **A file is read line by line, and one file behind another as the two of them.** -/
theorem readRecords_lines :
    (∀ text, ∃! lines, Divided text lines) ∧
      (∀ text lines, Divided text lines →
        ((∃ records, readRecords text = .ok records) ↔ ∀ line ∈ lines, Passes line) ∧
          (∀ records, readRecords text = .ok records ↔
            List.Forall₂ (fun line r => SessionRecord.parse line = .ok r) (filled lines) records) ∧
          (∀ records, readRecords text = .ok records → records.length = (filled lines).length) ∧
          ∀ f, readRecords text = .error f ↔
            ∃ before line after, lines = before ++ line :: after ∧ (∀ l ∈ before, Passes l) ∧
              Text.allBlank line = false ∧ SessionRecord.parse line = .error f.error ∧ f.line = 1 + before.length) ∧
      ∀ text lines rest, Divided text lines → EndsLine text →
        readRecords (text ++ rest) = continued lines.length (readRecords text) (readRecords rest) := by
  refine ⟨fun text => ?_, fun text lines h => ?_, fun _ _ rest h hend => readRecords_append h hend rest⟩
  · obtain ⟨lines, hlines⟩ := Divided.exists_lines text
    refine ⟨lines, hlines, fun others hothers => ?_⟩
    rw [← hothers.split_eq, hlines.split_eq]
  · refine ⟨exists_readRecords_iff h, ?_⟩
    rw [readRecords, h.split_eq]
    refine ⟨fun _ => readFrom_eq_ok_iff, fun records hread => ?_, fun _ => readFrom_eq_error_iff⟩
    exact (readFrom_eq_ok_iff.1 hread).length_eq.symm

/-- a record, a line of wide blanks, an empty line, and `null` behind them -/
theorem readRecords_lines_sample :
    let text := sampleRecord.line ++ '\r' :: '\n' :: ['\u3000', '\n']
    Divided text [sampleRecord.line, ['\u3000']] ∧ EndsLine text ∧ readRecords text = .ok [sampleRecord] ∧
      readRecords (text ++ '\n' :: Json.null.chars) = .error ⟨4, .invalidType .null "struct SessionRecord"⟩ := by
  intro text
  have hdivided : Divided text [sampleRecord.line, ['\u3000']] :=
    .returnFeed sampleRecord.newline_not_mem_line (.feed (show '\n' ∉ ['\u3000'] by decide) (by decide) .empty)
  have hend : EndsLine text := .inr (by simp [text])
  have hread : readRecords text = .ok [sampleRecord] := by
    refine ((readRecords_lines.2.1 text _ hdivided).2.1 [sampleRecord]).2 ?_
    have hfilled : filled [sampleRecord.line, ['\u3000']] = [sampleRecord.line] := by
      rw [filled, List.filter_cons_of_pos (by rw [sampleRecord.allBlank_line]; rfl)]
      rfl
    rw [hfilled]
    exact .cons sampleRecord.parse_line .nil
  have hbad : readRecords ('\n' :: Json.null.chars) = .error ⟨2, .invalidType .null "struct SessionRecord"⟩ := by
    have hlines : Divided ('\n' :: Json.null.chars) [[], Json.null.chars] := divided_iff.2 (by decide)
    have hparse : SessionRecord.parse Json.null.chars = .error (.invalidType .null "struct SessionRecord") := by
      rw [SessionRecord.parse, Reader.parse_spelled _ (Json.spelled_chars Json.exact_null)]
      rfl
    refine ((readRecords_lines.2.1 _ _ hlines).2.2.2 _).2 ⟨[[]], _, [], rfl, ?_, by decide, hparse, rfl⟩
    exact fun l hl => .inl (by rw [List.mem_singleton.1 hl]; rfl)
  refine ⟨hdivided, hend, hread, ?_⟩
  rw [readRecords_lines.2.2 _ _ _ hdivided hend, hread, hbad]
  rfl

end LaunchReports
