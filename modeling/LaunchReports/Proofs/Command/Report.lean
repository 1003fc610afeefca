/-
A report is rejected before it looks for its database.

- `Command.request_cases`: a request file that cannot be read, a rejection, or a plan.
- `Command.follow_report_rejected` and its siblings: how a report ends in each case, and its accesses up to there.
- `report_rejected_first`: exit code 2 is for requests that are rejected, and no access has been to a database then. An
  accepted request exits with 0 or 1, by what the database answers to the statements of its plan.
-/
import LaunchReports.Proofs.Command.Accesses
import LaunchReports.Proofs.Report.Compilation
import LaunchReports.Proofs.Report.Protocol
import LaunchReports.Proofs.Store.Integrity

namespace LaunchReports

/-! ## Envelopes -/

theorem Envelope.text_ne_starting (e : Envelope) (name : String) : e.text ≠ "simstats: starting `" ++ name ++ "`" := by
  intro h
  have hhead := congrArg (fun s : String => s.toList.head?) h
  simp [text, toJson, Json.compact, Json.chars] at hhead

namespace Command

variable (answer : Answers) (l : Locations) (o : ReportOptions)

/-! ## Requests -/

/-- the request file cannot be read -/
def RequestUnreadable : Prop :=
  ∃ file e, o.request = some file ∧ answer (.readText (Path.join l.workingDirectory file)) = .error e

/-- the request file is read, and is no request -/
def RequestInvalid : Prop :=
  ∃ file text e, o.request = some file ∧ answer (.readText (Path.join l.workingDirectory file)) = .ok text ∧
    Request.parse text.toList = .error e

/-- a request file, or the request for everything where no file is named, with the options over it -/
def Merged (r : Request) : Prop :=
  match o.request with
  | none => r = o.override .everything
  | some file => ∃ text q, answer (.readText (Path.join l.workingDirectory file)) = .ok text ∧
      Request.parse text.toList = .ok q ∧ r = o.override q

/-- the request file is no request, or what the options make of it cannot be compiled -/
def Rejected : Prop := RequestInvalid answer l o ∨ ∃ r e, Merged answer l o r ∧ r.compile = .error e

/-- a request file that cannot be read, a rejection, or a plan -/
theorem request_cases :
    RequestUnreadable answer l o ∨ Rejected answer l o ∨ ∃ r plan, Merged answer l o r ∧ r.compile = .ok plan := by
  have hcompile (r : Request) (hmerged : Merged answer l o r) :
      Rejected answer l o ∨ ∃ r plan, Merged answer l o r ∧ r.compile = .ok plan := by
    cases h : r.compile with
    | error e => exact .inl (.inr ⟨r, e, hmerged, h⟩)
    | ok plan => exact .inr ⟨r, plan, hmerged, h⟩
  cases hfile : o.request with
  | none => exact .inr (hcompile (o.override .everything) (by rw [Merged, hfile]))
  | some file =>
    cases htext : answer (.readText (Path.join l.workingDirectory file)) with
    | error e => exact .inl ⟨file, e, hfile, htext⟩
    | ok text =>
      cases hparse : Request.parse text.toList with
      | error e => exact .inr (.inl (.inl ⟨file, text, e, hfile, htext, hparse⟩))
      | ok q => exact .inr (hcompile (o.override q) (by rw [Merged, hfile]; exact ⟨text, q, htext, hparse, rfl⟩))

/-- the accesses that a report comes by its request with -/
def requesting : List Access := o.request.toList.map fun file => .readText (Path.join l.workingDirectory file)

theorem isDatabase_requesting : ∀ a ∈ requesting l o, a.isDatabase = false := by
  intro a ha
  obtain ⟨file, -, rfl⟩ := List.mem_map.1 ha
  rfl

theorem envelope_notMem_requesting (e : Envelope) (name : String) :
    .print e.text ∉ [opening name] ++ requesting l o := by
  intro he
  rcases List.mem_cons.1 he with he | he
  · exact e.text_ne_starting name (Access.print.inj he)
  · obtain ⟨file, -, hfile⟩ := List.mem_map.1 he
    cases hfile

variable {answer l o} {r : Request} (log : List Access)

/-- what comes of a request file -/
theorem follow_buildRequest_file {file : String} (hfile : o.request = some file) :
    follow (buildRequest (Host.answering answer) l.workingDirectory o) log =
      (match answer (.readText (Path.join l.workingDirectory file)) with
        | .error e => .error (.unreadableRequest (Path.join l.workingDirectory file) e)
        | .ok text =>
          match Request.parse text.toList with
          | .ok q => .ok (o.override q)
          | .error e => .error (.invalidRequest (Path.join l.workingDirectory file) e),
        log ++ requesting l o) := by
  have hread := follow_ask answer log (.readText (Path.join l.workingDirectory file))
  simp only [buildRequest, requesting, hfile]
  rw [follow_bind_ok hread]
  cases answer (.readText (Path.join l.workingDirectory file)) with
  | error e => exact follow_bind_error (follow_attempt_error ..) _
  | ok text =>
    rw [follow_bind_ok (follow_attempt_ok ..)]
    dsimp only
    cases Request.parse text.toList <;> rfl

theorem follow_buildRequest_unreadable (h : RequestUnreadable answer l o) :
    ∃ path e, follow (buildRequest (Host.answering answer) l.workingDirectory o) log =
      (.error (.unreadableRequest path e), log ++ requesting l o) := by
  obtain ⟨file, e, hfile, htext⟩ := h
  exact ⟨Path.join l.workingDirectory file, e, by rw [follow_buildRequest_file log hfile, htext]⟩

theorem follow_buildRequest_invalid (h : RequestInvalid answer l o) :
    ∃ path e, follow (buildRequest (Host.answering answer) l.workingDirectory o) log =
      (.error (.invalidRequest path e), log ++ requesting l o) := by
  obtain ⟨file, text, e, hfile, htext, hparse⟩ := h
  exact ⟨Path.join l.workingDirectory file, e, by simp only [follow_buildRequest_file log hfile, htext, hparse]⟩

theorem follow_buildRequest_merged (h : Merged answer l o r) :
    follow (buildRequest (Host.answering answer) l.workingDirectory o) log = (.ok r, log ++ requesting l o) := by
  unfold Merged at h
  cases hfile : o.request with
  | none =>
    rw [hfile] at h
    subst h
    rw [buildRequest, requesting, hfile, Option.toList_none, List.map_nil, List.append_nil]
    rfl
  | some file =>
    rw [hfile] at h
    obtain ⟨text, q, htext, hparse, rfl⟩ := h
    simp only [follow_buildRequest_file log hfile, htext, hparse]

/-! ## Databases -/

/-- the database that a report finds -/
def found? (answer : Answers) (path : String) : Option Database :=
  if answer (.isFile path) then answer (.openDatabase path false) else none

/-- the accesses that a report looks for its database with -/
def looking (answer : Answers) (path : String) : List Access :=
  .isFile path :: if answer (.isFile path) then [.openDatabase path false] else []

theorem filter_looking (answer : Answers) (path : String) :
    (looking answer path).filter Access.isDatabase = looking answer path := by
  unfold looking
  cases answer (.isFile path) <;> rfl

theorem follow_openExisting (path : String) :
    ∃ cause, follow (openExisting (Host.answering answer) path) log =
      ((found? answer path).elim (.error (.unavailable path cause)) .ok, log ++ looking answer path) := by
  have hfile := follow_ask answer log (.isFile path)
  have hopen := follow_ask answer (log ++ [.isFile path]) (.openDatabase path false)
  unfold openExisting found? looking
  cases hthere : answer (.isFile path) with
  | false =>
    rw [hthere] at hfile
    exact ⟨_, follow_bind_ok hfile _⟩
  | true =>
    rw [hthere] at hfile
    refine ⟨Failure.unopenedMessage path, (follow_bind_ok hfile _).trans ?_⟩
    simp only [Bool.not_true, Bool.false_eq_true, if_false, if_true]
    cases hd : answer (.openDatabase path false) with
    | none | some d =>
      rw [hd] at hopen
      rw [follow_bind_ok hopen, List.append_assoc]
      rfl

/-! ## Ends of a report -/

theorem follow_report_unreadable (h : RequestUnreadable answer l o) :
    ∃ path e, follow (report (Host.answering answer) l o) log =
      (.error (.unreadableRequest path e), log ++ requesting l o) := by
  obtain ⟨path, e, hread⟩ := follow_buildRequest_unreadable log h
  exact ⟨path, e, follow_bind_error hread _⟩

/-- a rejected report ends with the envelope of an error, and without a database access -/
theorem follow_report_rejected (h : Rejected answer l o) :
    ∃ f : CommandFailure, f.rejected = true ∧ f.envelope.ok = false ∧
      follow (report (Host.answering answer) l o) log = (.error (.answered f), log ++ requesting l o) := by
  rcases h with hinvalid | ⟨r, e, hmerged, hcompile⟩
  · obtain ⟨path, e, hread⟩ := follow_buildRequest_invalid log hinvalid
    exact ⟨_, rfl, rfl, follow_bind_error hread _⟩
  · refine ⟨.ofReportError CommandName.report.text e, Request.isRejection_compile hcompile, rfl, ?_⟩
    unfold report
    rw [follow_bind_ok (follow_buildRequest_merged log hmerged), hcompile]
    rfl

variable {plan : Plan Aggregate}

/-- the answer to a report that is just explained -/
def explanation (r : Request) (plan : Plan Aggregate) : Envelope :=
  ((Envelope.ofPlan CommandName.report.text Aggregate.statement plan).withFact "query" (.string r.query.key)).withFact
    "executed" (.bool false)

theorem follow_report_explained (hmerged : Merged answer l o r) (hcompile : r.compile = .ok plan)
    (hexplain : o.explain = true) :
    follow (report (Host.answering answer) l o) log =
      (.ok (), log ++ requesting l o ++ [.print (explanation r plan).text]) := by
  unfold report
  rw [follow_bind_ok (follow_buildRequest_merged log hmerged), hcompile]
  simp only [hexplain, if_true]
  exact follow_print ..

/-- a report that is not just explained has looked for its database when it ends, and it ends well if the database
answers every statement of the plan -/
theorem follow_report_executed (hmerged : Merged answer l o r) (hcompile : r.compile = .ok plan)
    (hexplain : o.explain = false) :
    (∃ (d : Database) (answers : List ResultSet) (e : Envelope), found? answer l.database = some d ∧
        Attached.answer.replies (.ofDatabase d) plan.steps = answers.map .ok ∧
        follow (report (Host.answering answer) l o) log =
          (.ok (), log ++ requesting l o ++ looking answer l.database ++ [.print e.text])) ∨
      ∃ f : CommandFailure, f.rejected = false ∧
        (∀ d, found? answer l.database = some d → ∃ cause,
          .error cause ∈ Attached.answer.replies (.ofDatabase d) plan.steps) ∧
        follow (report (Host.answering answer) l o) log =
          (.error (.answered f), log ++ requesting l o ++ looking answer l.database) := by
  obtain ⟨cause, hopen⟩ := @follow_openExisting answer (log ++ requesting l o) l.database
  unfold report
  rw [follow_bind_ok (follow_buildRequest_merged log hmerged), hcompile]
  simp only [hexplain, Bool.false_eq_true, if_false]
  cases hd : found? answer l.database with
  | none =>
    rw [hd] at hopen
    exact .inr ⟨_, rfl, nofun, follow_bind_error hopen _⟩
  | some d =>
    rw [hd] at hopen
    rw [follow_bind_ok hopen, Plan.execute_eq]
    rcases Attached.answer.send_cases .start (.ofDatabase d) plan.steps with
      ⟨answers, hreplies, hsend⟩ | ⟨answers, cause, hprefix, hsend⟩
    · refine .inl ⟨d, answers, ?_⟩
      rw [hsend]
      exact ⟨_, rfl, hreplies, follow_print ..⟩
    · refine .inr ?_
      rw [hsend]
      refine ⟨.ofReportError CommandName.report.text (.statementExecution (0 + answers.length) cause), rfl, ?_, rfl⟩
      rintro d ⟨⟩
      exact ⟨cause, hprefix.subset (List.mem_append_right _ List.mem_cons_self)⟩

/-! ## Exit codes -/

section

variable {ended : Except Failure Unit} {after : List Access}
  (hfollow : follow (report (Host.answering answer) l o) log = (ended, after))
include hfollow

-- a run has one end, so the end that a case has is this one

theorem exitCode_unreadable (h : RequestUnreadable answer l o) :
    exitCode ended = 1 ∧ after = log ++ requesting l o := by
  obtain ⟨path, e, hended⟩ := follow_report_unreadable log h
  cases hfollow.symm.trans hended
  exact ⟨rfl, rfl⟩

theorem exitCode_rejected (h : Rejected answer l o) :
    exitCode ended = 2 ∧ after = log ++ requesting l o ∧
      ∃ f : CommandFailure, f.envelope.ok = false ∧ ended = .error (.answered f) := by
  obtain ⟨f, hf, hok, hended⟩ := follow_report_rejected log h
  cases hfollow.symm.trans hended
  refine ⟨?_, rfl, f, hok, rfl⟩
  simp [exitCode, Failure.exitCode, Failure.isFatal, Failure.isRejection, hf]

theorem exitCode_explained (hmerged : Merged answer l o r) (hcompile : r.compile = .ok plan)
    (hexplain : o.explain = true) :
    exitCode ended = 0 ∧ ∃ e : Envelope, after = log ++ requesting l o ++ [.print e.text] := by
  cases hfollow.symm.trans (follow_report_explained log hmerged hcompile hexplain)
  exact ⟨rfl, _, rfl⟩

theorem exitCode_executed (hmerged : Merged answer l o r) (hcompile : r.compile = .ok plan)
    (hexplain : o.explain = false) :
    ∃ told : List Envelope, after = log ++ requesting l o ++ looking answer l.database ++ told.map (.print ·.text) ∧
      (exitCode ended = 0 ∨ exitCode ended = 1) ∧
      (exitCode ended = 0 ↔ ∃ (d : Database) (answers : List ResultSet), found? answer l.database = some d ∧
        Attached.answer.replies (.ofDatabase d) plan.steps = answers.map .ok) := by
  rcases follow_report_executed log hmerged hcompile hexplain with
    ⟨d, answers, e, hfound, hreplies, hended⟩ | ⟨f, hf, hfails, hended⟩
  · cases hfollow.symm.trans hended
    exact ⟨[e], rfl, .inl rfl, iff_of_true rfl ⟨d, answers, hfound, hreplies⟩⟩
  · cases hfollow.symm.trans hended
    have hcode : exitCode (.error (.answered f)) = 1 := by
      simp [exitCode, Failure.exitCode, Failure.isFatal, Failure.isRejection, hf]
    refine ⟨[], (List.append_nil _).symm, .inr hcode, iff_of_false (by simp [hcode]) ?_⟩
    rintro ⟨d, answers, hfound, hreplies⟩
    obtain ⟨cause, hcause⟩ := hfails d hfound
    simp [hreplies] at hcause

theorem exitCode_accepted (hmerged : Merged answer l o r) (hcompile : r.compile = .ok plan) : exitCode ended ≠ 2 := by
  intro hcode
  cases hexplain : o.explain with
  | true =>
    have hzero := (exitCode_explained log hfollow hmerged hcompile hexplain).1
    omega
  | false =>
    obtain ⟨-, -, hzero, -⟩ := exitCode_executed log hfollow hmerged hcompile hexplain
    omega

theorem exitCode_eq_two_iff : exitCode ended = 2 ↔ Rejected answer l o := by
  refine ⟨fun hcode => ?_, fun h => (exitCode_rejected log hfollow h).1⟩
  rcases request_cases answer l o with hunreadable | hrejected | ⟨r, plan, hmerged, hcompile⟩
  · have hone := (exitCode_unreadable log hfollow hunreadable).1
    omega
  · exact hrejected
  · exact absurd hcode (exitCode_accepted log hfollow hmerged hcompile)

end

end Command

/-! ## Reports -/

/-- **A report is rejected before it looks for its database.** -/
theorem report_rejected_first {answer : Answers} {env : Environment} {args : List String} {i : Invocation}
    {o : ReportOptions} {l : Locations} (hargs : Invocation.parse env.database args = .ok i)
    (haction : i.action = .report o) (hplaces : Command.locations env i = .ok l) :
    ∃ code log, (Command.run (Host.answering answer) env args).run [] = (code, log) ∧
      (code = 2 ↔ Command.Rejected answer l o) ∧
      (code = 2 ∨ o.explain = true → ∀ a ∈ log, a.isDatabase = false) ∧
      (code = 2 → (∀ e : Envelope, .print e.text ∉ log) ∧ ∃ e : Envelope, e.ok = false ∧ .printError e.text ∈ log) ∧
      (Command.RequestUnreadable answer l o → code = 1) ∧
      ∀ r plan, Command.Merged answer l o r → r.compile = .ok plan →
        code ≠ 2 ∧ (o.explain = true → code = 0) ∧
        (o.explain = false →
          log.filter Access.isDatabase =
              .isFile l.database :: (if answer (.isFile l.database) then [.openDatabase l.database false] else []) ∧
          (code = 0 ∨ code = 1) ∧
          (code = 0 ↔ answer (.isFile l.database) = true ∧ ∃ (d : Database) (answers : List ResultSet),
            answer (.openDatabase l.database false) = some d ∧
              Attached.answer.replies (.ofDatabase d) plan.steps = answers.map .ok)) := by
  have hperform : Command.perform (Host.answering answer) env i = Command.report (Host.answering answer) l o := by
    rw [Command.perform, haction]
    exact Command.located_ok hplaces _
  rcases hfollow : Command.follow (Command.report (Host.answering answer) l o) [Command.opening i.action.name.text] with
    ⟨ended, after⟩
  have hopening : ∀ a ∈ [Command.opening i.action.name.text] ++ Command.requesting l o, a.isDatabase = false :=
    List.forall_mem_cons.2 ⟨rfl, Command.isDatabase_requesting l o⟩
  have hclosing := Command.isDatabase_closing i.action.name.text ended
  refine ⟨_, _, Command.run_follow answer hargs (hperform ▸ hfollow), ?_⟩
  have htwo := Command.exitCode_eq_two_iff _ hfollow
  refine ⟨htwo, ?_, ?_, fun h => (Command.exitCode_unreadable _ hfollow h).1, ?_⟩
  · intro hquiet
    refine List.forall_mem_append.2 ⟨?_, hclosing⟩
    rcases Command.request_cases answer l o with hunreadable | hrejected | ⟨r, plan, hmerged, hcompile⟩
    · rw [(Command.exitCode_unreadable _ hfollow hunreadable).2]
      exact hopening
    · rw [(Command.exitCode_rejected _ hfollow hrejected).2.1]
      exact hopening
    · have hexplain := hquiet.resolve_left (Command.exitCode_accepted _ hfollow hmerged hcompile)
      obtain ⟨-, e, rfl⟩ := Command.exitCode_explained _ hfollow hmerged hcompile hexplain
      exact List.forall_mem_append.2 ⟨hopening, List.forall_mem_singleton.2 rfl⟩
  · intro hcode
    obtain ⟨-, rfl, f, hok, rfl⟩ := Command.exitCode_rejected _ hfollow (htwo.1 hcode)
    refine ⟨fun e he => ?_, f.envelope, hok, List.mem_append_right _ (Command.message_mem_closing _ (.answered f))⟩
    rcases List.mem_append.1 he with he | he
    · exact Command.envelope_notMem_requesting l o e _ he
    · exact Command.print_notMem_closing _ _ _ he
  · intro r plan hmerged hcompile
    refine ⟨Command.exitCode_accepted _ hfollow hmerged hcompile,
      fun h => (Command.exitCode_explained _ hfollow hmerged hcompile h).1, fun hexplain => ?_⟩
    obtain ⟨told, rfl, hcodes, hzero⟩ := Command.exitCode_executed _ hfollow hmerged hcompile hexplain
    refine ⟨?_, hcodes, hzero.trans ?_⟩
    · have htold : ∀ a ∈ told.map (Access.print ·.text), a.isDatabase = false := List.forall_mem_map.2 fun _ _ => rfl
      rw [List.filter_append, List.filter_append, List.filter_append, Access.filter_isDatabase hopening,
        Access.filter_isDatabase htold, Access.filter_isDatabase hclosing, Command.filter_looking, List.nil_append,
        List.append_nil, List.append_nil]
      rfl
    · simp only [Command.found?]
      cases answer (.isFile l.database) <;> simp

theorem report_rejected_first_sample :
    (∃ code log,
      (Command.run (Host.answering (Host.granting "" (.stored Database.sampleStore))) ⟨some "/home", none, "/work"⟩
        ["report", "--group", "flavour"]).run [] = (code, log) ∧
      code = 2 ∧ ∀ a ∈ log, a.isDatabase = false) ∧
    ∃ code log,
      (Command.run (Host.answering (Host.granting "" (.stored Database.sampleStore))) ⟨some "/home", none, "/work"⟩
        ["report"]).run [] = (code, log) ∧
      code = 0 ∧ log.filter Access.isDatabase =
        [.isFile "/home/.simstats/stats.sqlite", .openDatabase "/home/.simstats/stats.sqlite" false] := by
  constructor
  · have hargs : Invocation.parse (Environment.mk (some "/home") none "/work").database
          ["report", "--group", "flavour"] =
        .ok ⟨none, none, none, .report ⟨none, [], some "flavour", none, none, none, false, false⟩⟩ := rfl
    obtain ⟨code, log, hrun, htwo, hquiet, -⟩ := report_rejected_first hargs rfl rfl
    have hrejected : Command.Rejected (Host.granting "" (.stored Database.sampleStore))
        ⟨"/home", "/work", "/home/.simstats/stats.sqlite"⟩
        ⟨none, [], some "flavour", none, none, none, false, false⟩ := .inr ⟨_, _, rfl, rfl⟩
    have hcode := htwo.2 hrejected
    exact ⟨code, log, hrun, hcode, hquiet (.inl hcode)⟩
  · have hargs : Invocation.parse (Environment.mk (some "/home") none "/work").database ["report"] =
        .ok ⟨none, none, none, .report ⟨none, [], none, none, none, none, false, false⟩⟩ := rfl
    obtain ⟨code, log, hrun, -, -, -, -, haccepted⟩ := report_rejected_first hargs rfl rfl
    obtain ⟨-, -, hexecuted⟩ := haccepted _ _ rfl rfl
    obtain ⟨hlog, -, hzero⟩ := hexecuted rfl
    exact ⟨code, log, hrun, hzero.2 ⟨rfl, _, [⟨["message_count"], [[.integer 3]]⟩], rfl, rfl⟩, hlog⟩

end LaunchReports
