/-
What every envelope keeps, however it is made.

An envelope starts with data, with an error, or as the answer to a report; then facts, warnings and details are added
in any order.

- `Envelope.consistent_and_read_back`: it has data if it is `ok` and an error if not. The text of a failure that carries
  it is read back as the envelope without its nulls, and what is read does not change any more. Nothing is lost of the
  answer to a report to which no null details were added.

The answers to reports are themselves data or an error with additions, so one induction over the additions serves all.
-/
import LaunchReports.Command.Failure
import LaunchReports.Proofs.Report.EnvelopeText
import LaunchReports.Proofs.Report.Warnings

namespace LaunchReports

/-! ## Additions -/

/-- what is added to an envelope -/
inductive Addition where
  | fact (key : String) (value : Json)
  | warning (code message : String)
  | warningDetails (details : Json)
  | errorDetails (details : Json)

namespace Addition

def value? : Addition → Option Json
  | fact _ j | warningDetails j | errorDetails j => some j
  | warning .. => none

def details? : Addition → Option Json
  | warningDetails j | errorDetails j => some j
  | fact .. | warning .. => none

/-- the value keeps its written form, and details are not `null` -/
def Kept (a : Addition) : Prop := (∀ j ∈ a.value?, j.Valid) ∧ ∀ j ∈ a.details?, j ≠ .null

theorem kept_fact (key : String) {value : Json} (h : value.Valid) : (fact key value).Kept := by
  refine ⟨?_, nofun⟩
  rintro j ⟨⟩
  exact h

theorem kept_warning (code message : String) : (warning code message).Kept := ⟨nofun, nofun⟩

theorem kept_details {details : Json} (h : details.Valid) (hnull : details ≠ .null) :
    (warningDetails details).Kept ∧ (errorDetails details).Kept := by
  refine ⟨⟨?_, ?_⟩, ⟨?_, ?_⟩⟩ <;>
  · rintro j ⟨⟩
    assumption

end Addition

namespace Envelope

def add (e : Envelope) : Addition → Envelope
  | .fact key value => e.withFact key value
  | .warning code message => e.withWarning code message
  | .warningDetails details => e.withWarningDetails details
  | .errorDetails details => e.withErrorDetails details

def addAll (e : Envelope) (as : List Addition) : Envelope := as.foldl add e

variable {e : Envelope} {a : Addition}

/-! ### Details -/

theorem withWarningDetails_nil (h : e.warnings = []) (details : Json) : e.withWarningDetails details = e := by
  obtain ⟨ok, command, data, facts, warnings, error⟩ := e
  obtain rfl : warnings = [] := h
  rfl

theorem withWarningDetails_snoc {before : List Notice} {w : Notice} (h : e.warnings = before ++ [w]) (details : Json) :
    e.withWarningDetails details = { e with warnings := before ++ [{ w with details := some details }] } := by
  rw [withWarningDetails, h, List.dropLast_concat, List.getLast?_concat]
  rfl

theorem withErrorDetails_none (h : e.error = none) (details : Json) : e.withErrorDetails details = e := by
  obtain ⟨ok, command, data, facts, warnings, error⟩ := e
  obtain rfl : error = none := h
  rfl

theorem withErrorDetails_some {n : Notice} (h : e.error = some n) (details : Json) :
    e.withErrorDetails details = { e with error := some { n with details := some details } } := by
  rw [withErrorDetails, h]
  rfl

/-! ### One addition -/

/-- data or an error, as `ok` says -/
def Consistent (e : Envelope) : Prop := e.data.isSome = e.ok ∧ e.error.isSome = !e.ok

theorem Consistent.add (h : e.Consistent) (a : Addition) : (e.add a).Consistent := by
  cases a with
  | fact | warning | warningDetails => exact h
  | errorDetails details => exact ⟨h.1, Option.isSome_map.trans h.2⟩

theorem All.add {P : Json → Prop} (h : e.All P) (ha : ∀ j ∈ a.details?, P j) : (e.add a).All P := by
  cases a with
  | fact => exact ⟨h.data, h.warnings, h.error⟩
  | warning code message =>
    refine ⟨h.data, fun n hn => ?_, h.error⟩
    rcases List.mem_append.1 hn with hn | hn
    · exact h.warnings n hn
    · rw [List.mem_singleton.1 hn]
      exact nofun
  | warningDetails details =>
    refine ⟨h.data, fun n hn => ?_, h.error⟩
    rcases List.mem_append.1 hn with hn | hn
    · exact h.warnings n (List.mem_of_mem_dropLast hn)
    · obtain ⟨w, -, rfl⟩ := List.mem_map.1 hn
      exact ha
  | errorDetails details =>
    refine ⟨h.data, h.warnings, fun n hn => ?_⟩
    obtain ⟨w, -, rfl⟩ := Option.map_eq_some_iff.1 hn
    exact ha

theorem Valid.add (h : e.Valid) (ha : ∀ j ∈ a.value?, j.Valid) : (e.add a).Valid := by
  refine ⟨h.toAll.add fun j hj => ?_, fun p hp => ?_⟩
  · cases a with
    | fact | warning => cases hj
    | warningDetails | errorDetails => exact ha j hj
  · cases a with
    | fact key value =>
      rcases Keyed.mem_place hp with rfl | hp
      · exact ha _ rfl
      · exact h.facts p hp
    | warning | warningDetails | errorDetails => exact h.facts p hp

theorem data_add (e : Envelope) (a : Addition) : (e.add a).data = e.data := by cases a <;> rfl

/-! ## Starts -/

/-- data or an error alone -/
inductive Started : Envelope → Prop
  | success (command : String) {data : Json} : data.Valid → Started (success command data)
  | failure (command code message : String) : Started (failure command code message)

theorem Started.consistent (h : Started e) : e.Consistent := by
  cases h with
  | success | failure => exact ⟨rfl, rfl⟩

theorem all_success {P : Json → Prop} (command : String) {data : Json} (h : P data) : (success command data).All P := by
  refine ⟨?_, nofun, nofun⟩
  rintro j ⟨⟩
  exact h

theorem all_failure {P : Json → Prop} (command code message : String) : (failure command code message).All P := by
  refine ⟨nofun, nofun, ?_⟩
  rintro n ⟨⟩
  exact nofun

theorem valid_facts_base (ok : Bool) (command : String) : ∀ p ∈ (base ok command).facts.entries, p.2.Valid := by
  intro p hp
  rcases Keyed.mem_place hp with rfl | hp
  · exact .string _
  · cases hp

theorem Started.valid (h : Started e) : e.Valid := by
  cases h with
  | success command hdata => exact ⟨all_success command hdata, valid_facts_base true command⟩
  | failure command code message => exact ⟨all_failure command code message, valid_facts_base false command⟩

end Envelope

/-! ## Values of reports -/

theorem Json.valid_strings (texts : List String) : (Json.strings texts).Valid := by
  refine .array fun j hj => ?_
  obtain ⟨s, -, rfl⟩ := List.mem_map.1 hj
  exact .string s

theorem Value.valid_toJson {v : Value} (h : ∀ x, v = .real x → x.isFinite = true → Json.Kept x) : v.toJson.Valid := by
  cases v with
  | null => exact .null
  | integer n => exact .integer (.inl (fitsInt64_toInt n))
  | real x =>
    rw [toJson, Json.real]
    split
    · next hx => exact .real (h x rfl hx)
    · exact .null
  | text | blob => exact .string _

/-- the counts fit their type, and the finite reals keep their written form -/
structure Outcome.Written (o : Outcome) : Prop where
  rows : fitsUInt64 o.result.rows.length = true
  executed : fitsUInt64 o.statementsExecuted = true
  reals : ∀ row ∈ o.result.rows, ∀ x, .real x ∈ row → x.isFinite = true → Json.Kept x

namespace ResultSet

variable {r : ResultSet}

theorem valid_jsonRows (h : ∀ row ∈ r.rows, ∀ v ∈ row, v.toJson.Valid) : (Json.array r.jsonRows).Valid := by
  refine .array fun j hj => ?_
  obtain ⟨row, hrow, rfl⟩ := List.mem_map.1 hj
  refine Json.valid_ofPairs fun p hp => ?_
  obtain ⟨v, hv, hvalue⟩ := List.mem_map.1 (List.of_mem_zip hp).2
  exact hvalue ▸ h row hrow v hv

theorem mem_of_single? {v : Value} (h : r.single? = some v) : ∃ row ∈ r.rows, v ∈ row := by
  obtain ⟨row, hrow, hv⟩ := Option.bind_eq_some_iff.1 h
  exact ⟨row, List.mem_of_head? hrow, List.mem_of_head? hv⟩

end ResultSet

theorem Outcome.Written.valid_cell {o : Outcome} (h : o.Written) :
    ∀ row ∈ o.result.rows, ∀ v ∈ row, v.toJson.Valid := by
  intro row hrow v hv
  apply Value.valid_toJson
  rintro x rfl
  exact h.reals row hrow x hv

theorem Statement.valid_toJson (s : Statement) : s.toJson.Valid := by
  obtain ⟨kind, sql, params⟩ := s
  have hfirst : ∀ m ∈ [("kind", Json.string (kindName kind)), ("sql", .string sql),
      ("params", .strings (params.map Value.literal))], m.2.Valid := by
    simp [Json.Valid.string, Json.valid_strings]
  cases kind with
  | declareBindings => exact .object (by simp) hfirst
  | bindLookup | aggregate =>
    exact .object (by simp) (List.forall_mem_append.2 ⟨hfirst, by simp [Json.Valid.string]⟩)

theorem Plan.valid_toJson {α : Type} (text : α → Statement) (p : Plan α) : (p.toJson text).Valid := by
  refine .array fun j hj => ?_
  obtain ⟨s, -, rfl⟩ := List.mem_map.1 hj
  exact s.valid_toJson

namespace Envelope

variable {e : Envelope} {as : List Addition}

/-! ## Answers to reports -/

/-- the answers to reports -/
inductive Reported : Envelope → Prop
  | outcome (command : String) {o : Outcome} : o.Written → Reported (ofOutcome command o)
  | singleValue (command : String) {o : Outcome} : o.Written → Reported (ofSingleValue command o)
  | plan {α : Type} (command : String) (text : α → Statement) {p : Plan α} : fitsUInt64 p.size = true →
    Reported (ofPlan command text p)
  | error (command : String) {r : ReportError} : (∀ index cause, r = .statementExecution index cause →
    fitsUInt64 index = true) → Reported (ofReportError command r)

/-! ### Reports as additions -/

/-- what the warning of a lookup adds -/
def unmatchedAdditions (u : UnmatchedLookup) : List Addition :=
  .warning u.notice.code u.notice.message :: u.notice.details.toList.map .warningDetails

/-- what an outcome adds -/
def outcomeAdditions (o : Outcome) : List Addition :=
  [.fact "row_count" (.integer o.result.rows.length), .fact "statements_executed" (.integer o.statementsExecuted)] ++
    o.unmatched.flatMap unmatchedAdditions

theorem withOutcome_eq_addAll (e : Envelope) (o : Outcome) : e.withOutcome o = e.addAll (outcomeAdditions o) := by
  rw [withOutcome, addAll, outcomeAdditions, List.foldl_append, List.foldl_flatMap]
  rfl

theorem kept_outcomeAdditions {o : Outcome} (h : o.Written) : ∀ a ∈ outcomeAdditions o, a.Kept := by
  intro a ha
  rcases List.mem_append.1 ha with ha | ha
  · rcases List.mem_pair.1 ha with rfl | rfl
    · exact Addition.kept_fact _ (.integer (.inr h.rows))
    · exact Addition.kept_fact _ (.integer (.inr h.executed))
  · obtain ⟨u, -, ha⟩ := List.mem_flatMap.1 ha
    rcases List.mem_pair.1 ha with rfl | rfl
    · exact Addition.kept_warning _ _
    · exact (Addition.kept_details (.object (by simp) (by simp [Json.Valid.string])) nofun).1

theorem valid_errorDetails {r : ReportError}
    (h : ∀ index cause, r = .statementExecution index cause → fitsUInt64 index = true) : (errorDetails r).Valid := by
  cases r with
  | statementExecution index cause =>
    exact .object (by simp) (by simp [Json.Valid.string, Json.Valid.integer (.inr (h index cause rfl))])
  | badFilterField | badFilterValue | badOrderField | missingRequiredFilter | unboundVariable =>
    exact .object (by simp) (List.forall_mem_singleton.2 (.bool _))

theorem errorDetails_ne_null (r : ReportError) : errorDetails r ≠ .null := by
  cases r <;> exact nofun

/-- the answer to a report is a start with additions, and no details among them are `null` -/
theorem Reported.exists_additions (h : Reported e) :
    ∃ (start : Envelope) (as : List Addition), e = start.addAll as ∧ Started start ∧ start.All (· ≠ .null) ∧
      ∀ a ∈ as, a.Kept := by
  cases h with
  | @outcome command o ho =>
    have hdata : (Json.object [("columns", .strings o.result.columns), ("rows", .array o.result.jsonRows)]).Valid :=
      .object (by simp) (by simp [Json.valid_strings, ResultSet.valid_jsonRows ho.valid_cell])
    exact ⟨_, _, withOutcome_eq_addAll _ o, .success command hdata, all_success command nofun, kept_outcomeAdditions ho⟩
  | @singleValue command o ho =>
    have hdata : (Json.object [("value", .ofOption Value.toJson o.result.single?)]).Valid := by
      refine .object (by simp) (List.forall_mem_singleton.2 (Json.valid_ofOption fun v hv => ?_))
      obtain ⟨row, hrow, hv⟩ := ResultSet.mem_of_single? hv
      exact ho.valid_cell row hrow v hv
    exact ⟨_, _, withOutcome_eq_addAll _ o, .success command hdata, all_success command nofun, kept_outcomeAdditions ho⟩
  | @plan α command text p hp =>
    have hdata : (Json.object [("statements", p.toJson text)]).Valid :=
      .object (by simp) (List.forall_mem_singleton.2 (p.valid_toJson text))
    have hcount := Addition.kept_fact "statement_count" (.integer (.inr hp))
    exact ⟨_, [_], rfl, .success command hdata, all_success command nofun, List.forall_mem_singleton.2 hcount⟩
  | @error command r hr =>
    have hdetails := (Addition.kept_details (valid_errorDetails hr) (errorDetails_ne_null r)).2
    exact ⟨_, [_], rfl, .failure command r.code r.message, all_failure .., List.forall_mem_singleton.2 hdetails⟩

/-! ## Every sequence of additions -/

theorem Consistent.addAll (h : e.Consistent) (as : List Addition) : (e.addAll as).Consistent :=
  List.foldlRecOn as Envelope.add h fun _ he a _ => he.add a

theorem All.addAll {P : Json → Prop} (h : e.All P) (has : ∀ a ∈ as, ∀ j ∈ a.details?, P j) : (e.addAll as).All P :=
  List.foldlRecOn as Envelope.add h fun _ he a ha => he.add (has a ha)

theorem Valid.addAll (h : e.Valid) (has : ∀ a ∈ as, ∀ j ∈ a.value?, j.Valid) : (e.addAll as).Valid :=
  List.foldlRecOn as Envelope.add h fun _ he a ha => he.add (has a ha)

/-- what is added leaves the data -/
theorem data_addAll (e : Envelope) (as : List Addition) : (e.addAll as).data = e.data :=
  List.foldlRecOn (motive := fun made : Envelope => made.data = e.data) as Envelope.add rfl
    fun made he a _ => (data_add made a).trans he

theorem consistent_and_valid (h : Started e ∨ Reported e) : e.Consistent ∧ e.Valid := by
  rcases h with h | h
  · exact ⟨h.consistent, h.valid⟩
  · obtain ⟨start, as, rfl, hstart, -, has⟩ := h.exists_additions
    exact ⟨hstart.consistent.addAll as, hstart.valid.addAll fun a ha => (has a ha).1⟩

theorem Reported.all_ne_null (h : Reported e) : e.All (· ≠ .null) := by
  obtain ⟨start, as, rfl, -, hstart, has⟩ := h.exists_additions
  exact hstart.addAll fun a ha => (has a ha).2

/-- **However an envelope is made, it has data if it is `ok` and else an error, and what its text is read as is the
envelope without its nulls.** -/
theorem consistent_and_read_back (h : Started e ∨ Reported e) (has : ∀ a ∈ as, ∀ j ∈ a.value?, j.Valid) :
    let made := e.addAll as
    (made.data.isSome = made.ok ∧ made.error.isSome = !made.ok) ∧
      (∀ details,
        (made.warnings = [] → made.withWarningDetails details = made) ∧
        (∀ before w, made.warnings = before ++ [w] →
          made.withWarningDetails details = { made with warnings := before ++ [{ w with details := some details }] }) ∧
        (made.error = none → made.withErrorDetails details = made) ∧
        ∀ n, made.error = some n →
          made.withErrorDetails details = { made with error := some { n with details := some details } }) ∧
      (∀ command o,
        (ofOutcome command o).warnings = o.unmatched.map UnmatchedLookup.notice ∧
        (ofSingleValue command o).warnings = o.unmatched.map UnmatchedLookup.notice) ∧
      (∀ rejected,
        parse (Failure.answered ⟨made, rejected⟩).message.toList = .ok made.withoutNulls ∧
        parse (Failure.answered ⟨made.withoutNulls, rejected⟩).message.toList = .ok made.withoutNulls) ∧
      (∀ time,
        Stamped.parse (Stamped.text ⟨time, made⟩).toList = .ok ⟨time, made.withoutNulls⟩ ∧
        Stamped.parse (Stamped.text ⟨time, made.withoutNulls⟩).toList = .ok ⟨time, made.withoutNulls⟩) ∧
      (Reported e → (∀ a ∈ as, ∀ j ∈ a.details?, j ≠ .null) → made.withoutNulls = made) := by
  intro made
  obtain ⟨hconsistent, hvalid⟩ := consistent_and_valid h
  have hmade : made.Valid := hvalid.addAll has
  have hagain := hmade.withoutNulls
  refine ⟨hconsistent.addAll as, fun details => ?_, fun command o => ?_, fun rejected => ?_, fun time => ?_, ?_⟩
  · exact ⟨fun hnil => withWarningDetails_nil hnil details, fun before w hlast => withWarningDetails_snoc hlast details,
      fun hnone => withErrorDetails_none hnone details, fun n hn => withErrorDetails_some hn details⟩
  · exact ⟨warnings_withOutcome _ o, warnings_withOutcome _ o⟩
  · refine ⟨parse_text hmade, ?_⟩
    have hread := parse_text hagain
    rwa [withoutNulls_withoutNulls] at hread
  · refine ⟨Stamped.parse_text time hmade, ?_⟩
    have hread := Stamped.parse_text time hagain
    rwa [withoutNulls_withoutNulls] at hread
  · intro hreported hdetails
    exact withoutNulls_eq_self (hreported.all_ne_null.addAll hdetails)

/-- a fact that holds a `null`, and details that are one -/
def sampleAdditions : List Addition :=
  [.fact "limits" (.array [.null, .object [("low", .number (.real ⟨0x3ff8000000000000⟩)), ("high", .integer (-3))]]),
    .warning "slow" "it took\nlong", .warningDetails .null]

theorem valid_sampleAdditions : ∀ a ∈ sampleAdditions, ∀ j ∈ a.value?, j.Valid := by
  have hlow : Json.Kept ⟨0x3ff8000000000000⟩ := by
    unfold Json.Kept
    decide
  have hhigh : (Json.integer (-3)).Valid := .integer (.inl (by decide))
  have hlimits : (Json.object [("low", .number (.real ⟨0x3ff8000000000000⟩)), ("high", .integer (-3))]).Valid :=
    .object (by decide) (by simp [Json.Valid.real hlow, hhigh])
  have hfact : (Json.array
      [.null, .object [("low", .number (.real ⟨0x3ff8000000000000⟩)), ("high", .integer (-3))]]).Valid :=
    .array (by simp [Json.Valid.null, hlimits])
  simp [sampleAdditions, Addition.value?, hfact, Json.Valid.null]

/-- one row without a name, below an unmatched lookup -/
def sampleOutcome : Outcome := ⟨⟨["os", "n"], [[.null, .integer 4]]⟩, 3, [⟨"host_os", "os", "BeOS"⟩]⟩

theorem written_sampleOutcome : sampleOutcome.Written := by
  refine ⟨by decide, by decide, ?_⟩
  simp [sampleOutcome]

/-- the details that are `null` are lost, the nulls elsewhere are not, and nothing of the answer to a report is -/
theorem consistent_and_read_back_sample :
    parse (Failure.answered ⟨(failure "report" "late" "too late").addAll sampleAdditions, true⟩).message.toList =
        .ok ((failure "report" "late" "too late").addAll (sampleAdditions.take 2)) ∧
      parse (Failure.answered ⟨ofOutcome "report" sampleOutcome, false⟩).message.toList =
        .ok (ofOutcome "report" sampleOutcome) := by
  have hfailure := consistent_and_read_back (.inl (.failure "report" "late" "too late")) valid_sampleAdditions
  have hreported := Reported.outcome "report" written_sampleOutcome
  have houtcome := consistent_and_read_back (.inr hreported) (List.forall_mem_nil _)
  obtain ⟨-, -, -, hread, -, hsame⟩ := houtcome
  refine ⟨(hfailure.2.2.2.1 true).1, (hread false).1.trans (congrArg Except.ok ?_)⟩
  exact hsame hreported nofun

end Envelope

end LaunchReports
