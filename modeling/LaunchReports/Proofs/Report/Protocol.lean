/-
What a run sends to a connection and what it returns, whatever the connection is.

- `run_protocol`: a rejected request sends nothing. An accepted one sends the statements of its plan in their order, the
  ones that the plan lists. The first that fails is the last that is sent, and the run returns its place and cause. If
  none fails, the run returns the answer to the last statement, the number of all and the lookups whose answers name
  nothing.

A connection may answer by all that it received before, one that only sees the statement of a step among them:
`Connection.replies` are its answers to steps that are sent in turn, `Connection.recorded` keeps the statements that it
receives and answers as before (`Request.run_recorded`). `send_cases` follows a run step by step.
-/
import LaunchReports.Report.Execution
import LaunchReports.Proofs.Report.Bindings

namespace LaunchReports

/-! ## What a connection receives and answers -/

namespace Connection

variable {σ α : Type}

/-- the connection with the statements that it received -/
def recorded (conn : Connection σ α) (text : α → Statement) : Connection (List Statement × σ) α := fun c s =>
  ((conn c s.2).1, s.1 ++ [c.statement text], (conn c s.2).2)

/-- the answers to steps that are sent in turn -/
def replies (conn : Connection σ α) (s : σ) : List (Step α) → List (Except DatabaseError ResultSet)
  | [] => []
  | c :: rest => (conn c s).1 :: replies conn (conn c s).2 rest

/-- the state after steps that are sent in turn -/
def after (conn : Connection σ α) (s : σ) : List (Step α) → σ
  | [] => s
  | c :: rest => after conn (conn c s).2 rest

variable (conn : Connection σ α)

theorem replies_recorded (text : α → Statement) (log : List Statement) (s : σ) (steps : List (Step α)) :
    (conn.recorded text).replies (log, s) steps = conn.replies s steps := by
  induction steps generalizing log s with
  | nil => rfl
  | cons c rest ih =>
    rw [replies, replies]
    exact congrArg _ (ih _ _)

theorem after_recorded (text : α → Statement) (log : List Statement) (s : σ) (steps : List (Step α)) :
    (conn.recorded text).after (log, s) steps = (log ++ steps.map (Step.statement text), conn.after s steps) := by
  induction steps generalizing log s with
  | nil => rw [after, after, List.map_nil, List.append_nil]
  | cons c rest ih =>
    rw [after, after, List.map_cons, List.append_cons]
    exact ih _ _

/-- a connection answers alike whether its statements are kept or not -/
theorem send_recorded (text : α → Statement) (p : Progress) (log : List Statement) (s : σ) (steps : List (Step α)) :
    (((conn.recorded text).send p (log, s) steps).1, ((conn.recorded text).send p (log, s) steps).2.2) =
      conn.send p s steps := by
  induction steps generalizing p log s with
  | nil => rfl
  | cons c rest ih =>
    rw [send, send, recorded]
    rcases conn c s with ⟨_ | answer, t⟩
    · rfl
    · exact ih (p.answered c answer) _ t

theorem length_replies (s : σ) (steps : List (Step α)) : (conn.replies s steps).length = steps.length := by
  induction steps generalizing s with
  | nil => rfl
  | cons c rest ih => rw [replies, List.length_cons, List.length_cons, ih]

end Connection

/-! ## What is told of the answers -/

/-- no first row, or no first cell in it, or `NULL` there -/
def ResultSet.isVoid (answer : ResultSet) : Bool :=
  match answer.rows with
  | [] => true
  | [] :: _ => true
  | (cell :: _) :: _ => cell = .null

/-- the lookup that a statement makes, with the name that is its parameter -/
def Statement.lookup? (c : Statement) : Option UnmatchedLookup :=
  match c.kind, c.params with
  | .bindLookup field symbol, [.text name] => some ⟨field, symbol, name⟩
  | _, _ => none

/-- the lookups among the statements whose answers are void -/
def Statement.voidLookups (statements : List Statement) (answers : List ResultSet) : List UnmatchedLookup :=
  ((statements.zip answers).filter fun p => p.2.isVoid).filterMap fun p => p.1.lookup?

theorem Step.unmatched?_eq (c : Step Aggregate) (answer : ResultSet) :
    c.unmatched? answer = if answer.isVoid then (c.statement Aggregate.statement).lookup? else none := by
  cases c with
  | declare | aggregate g => simp [unmatched?, statement, Statement.lookup?, Statement.declare, Aggregate.statement]
  | bind b =>
    obtain ⟨columns, rows⟩ := answer
    rcases rows with _ | ⟨_ | ⟨cell, _⟩, _⟩
    · rfl
    · rfl
    · cases cell <;> rfl

/-- a step adds itself to the lookups if it is one -/
theorem Statement.voidLookups_cons (c : Step Aggregate) (steps : List (Step Aggregate)) (answer : ResultSet)
    (answers : List ResultSet) :
    voidLookups ((c :: steps).map (Step.statement Aggregate.statement)) (answer :: answers) =
      (c.unmatched? answer).toList ++ voidLookups (steps.map (Step.statement Aggregate.statement)) answers := by
  rw [voidLookups, List.map_cons, List.zip_cons_cons, List.filter_cons, Step.unmatched?_eq]
  cases answer.isVoid with
  | false => rfl
  | true =>
    cases hl : (c.statement Aggregate.statement).lookup? <;> simp [voidLookups, hl]

/-! ## Runs -/

namespace Progress

/-- what is gathered from answers to these steps -/
def gathered {α : Type} (p : Progress) (steps : List (Step α)) (answers : List ResultSet) : Progress :=
  (steps.zip answers).foldl (fun p q => p.answered q.1 q.2) p

theorem gathered_eq (p : Progress) {steps : List (Step Aggregate)} {answers : List ResultSet}
    (h : answers.length = steps.length) :
    p.gathered steps answers =
      ⟨p.executed + steps.length, answers.getLast?.getD p.result,
        p.unmatched ++ Statement.voidLookups (steps.map (Step.statement Aggregate.statement)) answers⟩ := by
  induction steps generalizing p answers with
  | nil =>
    cases List.length_eq_zero_iff.1 h
    simp [gathered, Statement.voidLookups]
  | cons c steps ih =>
    obtain ⟨answer, answers, rfl⟩ := List.exists_cons_of_length_eq_add_one h
    have hrest : (p.answered c answer).gathered steps answers = _ := ih _ (Nat.succ.inj h)
    rw [gathered, List.zip_cons_cons, List.foldl_cons]
    rw [gathered] at hrest
    rw [hrest, Statement.voidLookups_cons, ← List.append_assoc, List.length_cons, List.getLast?_cons]
    simp [answered, Nat.add_assoc, Nat.add_comm 1]

end Progress

/-- a run ends with the first error, or it gathers all answers -/
theorem Connection.send_cases {σ α : Type} (conn : Connection σ α) (p : Progress) (s : σ) (steps : List (Step α)) :
    (∃ answers : List ResultSet, conn.replies s steps = answers.map .ok ∧
      conn.send p s steps = (.ok (p.gathered steps answers), conn.after s steps)) ∨
    ∃ (answers : List ResultSet) (cause : DatabaseError),
      answers.map .ok ++ [.error cause] <+: conn.replies s steps ∧
        conn.send p s steps =
          (.error (.statementExecution (p.executed + answers.length) cause),
            conn.after s (steps.take (answers.length + 1))) := by
  induction steps generalizing p s with
  | nil => exact .inl ⟨[], rfl, rfl⟩
  | cons c rest ih =>
    rw [send, replies]
    rcases hc : conn c s with ⟨e | answer, t⟩
    · refine .inr ⟨[], e, ⟨conn.replies t rest, rfl⟩, ?_⟩
      simp [after, hc]
    · rcases ih (p.answered c answer) t with ⟨answers, hreplies, hsend⟩ | ⟨answers, cause, hprefix, hsend⟩
      · refine .inl ⟨answer :: answers, by rw [hreplies, List.map_cons], ?_⟩
        rw [after, hc]
        exact hsend
      · refine .inr ⟨answer :: answers, cause, List.cons_prefix_cons.2 ⟨rfl, hprefix⟩, ?_⟩
        rw [List.length_cons, List.take_succ_cons, after, hc]
        refine hsend.trans ?_
        rw [Progress.answered, Nat.add_right_comm, Nat.add_assoc]

/-! ## Listed plans -/

/-- the SQL texts of a listed plan -/
def Json.sqlTexts? : Json → Option (List Json)
  | .array items => items.mapM (member? "sql")
  | _ => none

theorem Plan.sqlTexts?_toJson {α : Type} (text : α → Statement) (p : Plan α) :
    (p.toJson text).sqlTexts? = some ((p.statements text).map fun c => .string c.sql) := by
  rw [toJson, Json.sqlTexts?, List.mapM_map]
  exact List.mapM_pure

theorem Plan.getLast?_statements {α : Type} (text : α → Statement) (p : Plan α) :
    (p.statements text).getLast? = some (text p.aggregate) := by
  simp [statements, steps, Step.statement]

/-- a lookup has one parameter, the name that it looks up -/
theorem Plan.params_of_bindLookup {p : Plan Aggregate} {c : Statement} (hc : c ∈ p.statements Aggregate.statement)
    {field symbol : String} (hkind : c.kind = .bindLookup field symbol) : ∃ name, c.params = [.text name] := by
  obtain ⟨step, -, rfl⟩ := List.mem_map.1 hc
  cases step with
  | declare | aggregate g => cases hkind
  | bind b => exact ⟨b.name, rfl⟩

/-! ## Reports -/

theorem Plan.execute_eq {σ α : Type} (conn : Connection σ α) (plan : Plan α) (s : σ) :
    plan.execute conn s =
      ((conn.send .start s plan.steps).1.map Progress.outcome, (conn.send .start s plan.steps).2) := by
  rw [execute]
  rcases conn.send .start s plan.steps with ⟨_ | p, t⟩ <;> rfl

/-- keeping the statements changes neither what a run returns nor the state that it leaves -/
theorem Request.run_recorded {σ : Type} (conn : Connection σ Aggregate) (s : σ) (r : Request) :
    let ran := r.run (conn.recorded Aggregate.statement) ([], s)
    (ran.1, ran.2.2) = r.run conn s := by
  rw [run, run]
  cases r.compile with
  | error e => rfl
  | ok plan => simp only [Plan.execute_eq, ← conn.send_recorded Aggregate.statement .start [] s plan.steps]

/-- the aggregate's answer is the result, the answers before tell which lookups found nothing -/
theorem Plan.outcome_gathered {p : Plan Aggregate} {answers : List ResultSet}
    (h : answers.length = p.steps.length) :
    ∃ last, answers.getLast? = some last ∧
      (Progress.start.gathered p.steps answers).outcome =
        ⟨last, p.size, Statement.voidLookups (p.statements Aggregate.statement) answers⟩ := by
  have hsteps : p.steps.length = p.size := by simp [steps, size]
  have hne : answers ≠ [] := by
    rw [← List.length_pos_iff, h, hsteps, size]
    exact Nat.succ_pos _
  refine ⟨_, List.getLast?_eq_some_getLast hne, ?_⟩
  rw [Progress.gathered_eq _ h, List.getLast?_eq_some_getLast hne, hsteps]
  simp [Progress.outcome, Progress.start, statements]

/-- **A run sends the statements of its plan until one fails, whatever the connection answers.** -/
theorem run_protocol {σ : Type} (conn : Connection σ Aggregate) (s : σ) (r : Request) :
    let ran := r.run (conn.recorded Aggregate.statement) ([], s)
    (ran.1, ran.2.2) = r.run conn s ∧
    match r.compile with
    | .error e => ran = (.error e, [], s)
    | .ok plan =>
      let listed := plan.statements Aggregate.statement
      (plan.toJson Aggregate.statement).sqlTexts? = some (listed.map fun c => .string c.sql) ∧
      listed.length = plan.size ∧ listed.getLast? = some plan.aggregate.statement ∧
      (∀ c ∈ listed, ∀ field symbol, c.kind = .bindLookup field symbol → ∃ name, c.params = [.text name]) ∧
      ((∃ (answers : List ResultSet) (last : ResultSet),
          conn.replies s plan.steps = answers.map .ok ∧ answers.getLast? = some last ∧
          ran = (.ok ⟨last, plan.size, Statement.voidLookups listed answers⟩, listed, conn.after s plan.steps)) ∨
        ∃ (answers : List ResultSet) (cause : DatabaseError),
          answers.map .ok ++ [.error cause] <+: conn.replies s plan.steps ∧
          ran = (.error (.statementExecution answers.length cause), listed.take (answers.length + 1),
            conn.after s (plan.steps.take (answers.length + 1)))) := by
  refine ⟨r.run_recorded conn s, ?_⟩
  cases hr : r.compile with
  | error e =>
    change r.run _ _ = _
    rw [Request.run, hr]
  | ok plan =>
    have hrun : r.run (conn.recorded Aggregate.statement) ([], s) =
        plan.execute (conn.recorded Aggregate.statement) ([], s) := by
      rw [Request.run, hr]
    refine ⟨plan.sqlTexts?_toJson _, plan.length_statements _, plan.getLast?_statements _,
      fun c hc _ _ => Plan.params_of_bindLookup hc, ?_⟩
    rw [hrun, Plan.execute_eq]
    rcases (conn.recorded Aggregate.statement).send_cases .start ([], s) plan.steps with
      ⟨answers, hreplies, hsend⟩ | ⟨answers, cause, hprefix, hsend⟩
    · rw [Connection.replies_recorded] at hreplies
      have hlength : answers.length = plan.steps.length := by
        rw [← conn.length_replies s, hreplies, List.length_map]
      obtain ⟨last, hlast, houtcome⟩ := Plan.outcome_gathered hlength
      refine .inl ⟨answers, last, hreplies, hlast, ?_⟩
      rw [hsend, Connection.after_recorded, ← houtcome]
      rfl
    · rw [Connection.replies_recorded] at hprefix
      refine .inr ⟨answers, cause, hprefix, ?_⟩
      rw [hsend, Connection.after_recorded, Plan.statements, ← List.map_take]
      simp [Except.map, Progress.start]

end LaunchReports
