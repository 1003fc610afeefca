/-
An import adds all records of a file or none.

- `Command.follow_importRecords`: how an import ends, and its accesses. All of the file is read before the database is
  opened, and the database is saved once with its schema and once with all records.
- `Command.run_import_refused`, `run_import_unwritten` and `run_import_written`: the three ways a run ends, and what the
  database file holds then.
- `import_all_or_nothing`: an exit code of 2, 1 or 0, for the first line that is no record, the first timestamp that is
  none, or all records added.
-/
import LaunchReports.Proofs.Command.Accesses
import LaunchReports.Proofs.Record.Lines
import LaunchReports.Proofs.Store.Recording
import LaunchReports.Proofs.Store.Refusal

namespace LaunchReports

/-! ## Databases -/

theorem Store.rows_noteVersion (s : Store) (version : String) (t : Table) :
    (s.noteVersion version).rows t = s.rows t := by
  unfold noteVersion
  split
  · rfl
  · rcases t with _ | (_ | _) | t <;> rfl

namespace Database

/-- the tables of a database; a table that is not there counts as empty -/
def held (d : Database) : Store := d.store?.getD .empty

/-- a database with its schema -/
def ready (d : Database) : Store := d.held.noteVersion Schema.version

theorem ready_eq (d : Database) : d.ready = { d.held with versions := d.ready.versions } := by
  unfold ready Store.noteVersion
  split <;> rfl

theorem ensureSchema_eq {d : Database} (h : ∀ reason, d ≠ .unusable reason) :
    d.ensureSchema = .ok (.stored d.ready) := by
  cases d with
  | schemaless | stored s => rfl
  | unusable reason => exact absurd rfl (h reason)

/-- what a file holds after these accesses if it held `d` before them -/
def left (path : String) (d : Database) (log : List Access) : Database :=
  log.foldl (fun d a =>
    match a with
    | .saveDatabase p content => if p = path then content else d
    | _ => d) d

variable (path : String) (d : Database)

theorem left_append (log more : List Access) : d.left path (log ++ more) = (d.left path log).left path more :=
  List.foldl_append

theorem left_quiet {log : List Access} (h : ∀ a ∈ log, a.isDatabase = false) : d.left path log = d := by
  induction log with
  | nil => rfl
  | cons a log ih =>
    obtain ⟨ha, hlog⟩ := List.forall_mem_cons.1 h
    have hrest := ih hlog
    cases a with
    | print | printError | readText => exact hrest
    | isFile | createDirectories | openDatabase | saveDatabase => cases ha

end Database

/-- what an import finds: its text, and a database that can be opened, saved and used -/
structure Host.Serves (answer : Answers) (l : Locations) (input text : String) (d : Database) : Prop where
  text : answer (.readText (Path.join l.workingDirectory input)) = .ok text
  directories : ∀ path, answer (.createDirectories path) = .ok ()
  opens : answer (.openDatabase l.database true) = some d
  usable : ∀ reason, d ≠ .unusable reason
  saves : ∀ path content, answer (.saveDatabase path content) = .ok ()

namespace Command

variable {answer : Answers} {l : Locations} {input text : String} {d : Database}

/-- the accesses that open a database with its schema -/
def preparing (path : String) (d : Database) : List Access :=
  (Path.parent? path).toList.map .createDirectories ++ [.openDatabase path true, .saveDatabase path (.stored d.ready)]

theorem left_preparing (path : String) (d : Database) : d.left path (preparing path d) = .stored d.ready := by
  unfold preparing
  cases Path.parent? path <;> simp [Database.left]

/-- the accesses before a database is opened -/
def reading (l : Locations) (input : String) : List Access :=
  [.print ("import: start input=" ++ Path.join l.workingDirectory input ++ " database=" ++ l.database),
    .readText (Path.join l.workingDirectory input)]

theorem isDatabase_reading (l : Locations) (input : String) : ∀ a ∈ reading l input, a.isDatabase = false := by
  simp [reading, Access.isDatabase]

/-- every access up to the one that opens the database leaves it with its schema -/
theorem left_prepared (path name : String) (d : Database) (l : Locations) (input : String) :
    d.left path ([opening name] ++ reading l input ++ preparing path d) = .stored d.ready := by
  have hquiet : ∀ a ∈ [opening name] ++ reading l input, a.isDatabase = false :=
    List.forall_mem_cons.2 ⟨rfl, isDatabase_reading l input⟩
  rw [Database.left_append, Database.left_quiet _ _ hquiet, left_preparing]

theorem follow_openWithSchema (h : Host.Serves answer l input text d) (log : List Access) :
    follow (openWithSchema (Host.answering answer) l.database) log =
      (.ok (.stored d.ready), log ++ preparing l.database d) := by
  have hopen (log : List Access) := follow_ask answer log (.openDatabase l.database true)
  have hsave (log : List Access) := follow_ask answer log (.saveDatabase l.database (.stored d.ready))
  have hdirectories (path : String) (log : List Access) := follow_ask answer log (.createDirectories path)
  simp only [h.opens] at hopen
  simp only [h.saves] at hsave
  simp only [h.directories] at hdirectories
  unfold openWithSchema preparing
  cases Path.parent? l.database
  case' some directory => rw [follow_bind_ok (hdirectories directory log), follow_bind_ok (follow_attempt_ok ..)]
  all_goals
    rw [follow_bind_ok (hopen _)]
    simp only [Database.ensureSchema_eq h.usable]
    rw [follow_bind_ok (follow_attempt_ok ..), follow_bind_ok (hsave _), follow_bind_ok (follow_attempt_ok ..),
      follow_pure]
    simp

/-- an import reads all its records before it opens the database, and saves it again once they are all written -/
theorem follow_importRecords (h : Host.Serves answer l input text d) (log : List Access) :
    follow (importRecords (Host.answering answer) l input) log =
      match readRecords text.toList with
      | .error f => (.error (.badRecord f), log ++ reading l input)
      | .ok records =>
        match d.ready.write records with
        | .error e => (.error (.unwritten e), log ++ reading l input ++ preparing l.database d)
        | .ok (t, stats) =>
          (.ok (), log ++ reading l input ++ preparing l.database d ++
            [.saveDatabase l.database (.stored t), .print ("import: complete " ++ statsText stats)]) := by
  have htext (log : List Access) := follow_ask answer log (.readText (Path.join l.workingDirectory input))
  have hsave (log : List Access) (content : Database) := follow_ask answer log (.saveDatabase l.database content)
  simp only [h.text] at htext
  simp only [h.saves] at hsave
  unfold importRecords reading
  rw [follow_bind_ok (follow_print ..), follow_bind_ok (htext _), follow_bind_ok (follow_attempt_ok ..),
    List.append_assoc]
  cases readRecords text.toList with
  | error f => rfl
  | ok records =>
    simp only
    rw [follow_bind_ok (follow_openWithSchema h _)]
    have hwrite : (Database.stored d.ready).write records =
        (d.ready.write records).map fun p => (.stored p.1, p.2) := rfl
    rw [hwrite]
    cases d.ready.write records with
    | error e => rfl
    | ok p =>
      simp only [Except.map]
      rw [follow_bind_ok (hsave _ _), follow_bind_ok (follow_attempt_ok ..), follow_print]
      simp

/-! ## Runs -/

section

variable {env : Environment} {i : Invocation} (haction : i.action = .importRecords input)
  (hplaces : locations env i = .ok l)
include haction hplaces

variable (answer) in
theorem follow_perform_import (log : List Access) :
    follow (perform (Host.answering answer) env i) log =
      follow (importRecords (Host.answering answer) l input) log := by
  rw [perform, haction]
  exact congrArg (follow · log) (located_ok hplaces _)

variable (hserves : Host.Serves answer l input text d) {args : List String}
  (hargs : Invocation.parse env.database args = .ok i)
include hserves hargs

/-- a file with a line that is no record is refused before a database is looked for -/
theorem run_import_refused {f : RecordFailure} (hread : readRecords text.toList = .error f) :
    ∃ log, (run (Host.answering answer) env args).run [] = (2, log) ∧ .printError f.message ∈ log ∧
      ∀ a ∈ log, a.isDatabase = false := by
  have hfollow := follow_perform_import answer haction hplaces [opening i.action.name.text]
  rw [follow_importRecords hserves, hread] at hfollow
  refine ⟨_, run_follow answer hargs hfollow, List.mem_append_right _ (message_mem_closing _ (.badRecord f)), ?_⟩
  refine List.forall_mem_append.2 ⟨?_, isDatabase_closing _ _⟩
  exact List.forall_mem_cons.2 ⟨rfl, isDatabase_reading l input⟩

variable {records : List SessionRecord} (hread : readRecords text.toList = .ok records)
include hread

/-- a write that fails leaves the database with its schema alone -/
theorem run_import_failed {e : WriteError} (hwrite : d.ready.write records = .error e) :
    ∃ log, (run (Host.answering answer) env args).run [] = (if e.isFatal then 101 else 1, log) ∧
      .printError e.message ∈ log ∧ d.left l.database log = .stored d.ready := by
  have hfollow := follow_perform_import answer haction hplaces [opening i.action.name.text]
  simp only [follow_importRecords hserves, hread, hwrite] at hfollow
  refine ⟨_, run_follow answer hargs hfollow, List.mem_append_right _ (message_mem_closing _ (.unwritten e)), ?_⟩
  rw [Database.left_append, left_prepared, Database.left_quiet _ _ (isDatabase_closing _ _)]

theorem run_import_unwritten {e : WriteError} (hwrite : d.ready.write records = .error e)
    (hfatal : e.isFatal = false) :
    ∃ log, (run (Host.answering answer) env args).run [] = (1, log) ∧ .printError e.message ∈ log ∧
      d.left l.database log = .stored d.ready := by
  have hfailed := run_import_failed haction hplaces hserves hargs hread hwrite
  rwa [hfatal] at hfailed

theorem run_import_written {t : Store} {stats : WriteStats} (hwrite : d.ready.write records = .ok (t, stats)) :
    ∃ log, (run (Host.answering answer) env args).run [] = (0, log) ∧ d.left l.database log = .stored t := by
  have hfollow := follow_perform_import answer haction hplaces [opening i.action.name.text]
  simp only [follow_importRecords hserves, hread, hwrite] at hfollow
  refine ⟨_, run_follow answer hargs hfollow, ?_⟩
  rw [Database.left_append, Database.left_append, left_prepared, Database.left_quiet _ _ (isDatabase_closing _ _)]
  simp [Database.left]

end

end Command

/-! ## Added rows -/

namespace Database

/-- what a database keeps for its name tables: no name and no id is there twice, and no id is above the highest taken -/
def Constrained (d : Database) : Prop := ∀ t, (d.held.names.get t).Sound

theorem Constrained.adds {d : Database} (h : d.Constrained) {records : List SessionRecord} {t : Store}
    {stats : WriteStats} (hwrite : d.ready.write records = .ok (t, stats)) :
    ∃ launches : List Launch, t.sessions = d.held.sessions ++ launches.map Launch.session ∧
      t.flash = d.held.flash ++ launches.filterMap Launch.flash ∧
      t.java = d.held.java ++ launches.filterMap Launch.java ∧
      List.Forall₂ (fun launch r => launch.Holds t.names r) launches records := by
  obtain ⟨b, hadd, rfl, -⟩ := Store.write_eq_ok.1 hwrite
  have hstart : (Batch.start d.ready).store = { d.held with versions := d.ready.versions } := d.ready_eq
  have hcoherent : (Batch.start d.ready).Coherent := by
    refine ⟨?_, List.forall_mem_nil _⟩
    rw [hstart]
    exact h
  obtain ⟨launches, hadds, hholds⟩ := Batch.addRecords_adds hcoherent hadd
  have hsessions := hadds.sessions
  have hflash := hadds.flash
  have hjava := hadds.java
  rw [hstart] at hsessions hflash hjava
  exact ⟨launches, hsessions, hflash, hjava, hholds⟩

end Database

/-! ## Imports -/

/-- **An import adds all records of its file or none.** -/
theorem import_all_or_nothing {answer : Answers} {env : Environment} {args : List String} {i : Invocation}
    {input : String} {l : Locations} {text : String} {d : Database}
    (hargs : Invocation.parse env.database args = .ok i) (haction : i.action = .importRecords input)
    (hplaces : Command.locations env i = .ok l) (hserves : Host.Serves answer l input text d)
    (hstatements : ∀ records e, readRecords text.toList = .ok records → d.ready.write records = .error e →
      e.fault.isStatement = false)
    (hcalendar : ∀ records, readRecords text.toList = .ok records → ∀ r ∈ records,
      Timestamp.normalize r.timestamp ≠ .error .beyondCalendar) :
    ∃ code log, (Command.run (Host.answering answer) env args).run [] = (code, log) ∧
      ((∃ before line after e, Lines.split text.toList = before ++ line :: after ∧ (∀ x ∈ before, Lines.Passes x) ∧
          Text.allBlank line = false ∧ SessionRecord.parse line = .error e ∧
          code = 2 ∧
          .printError ("invalid session record at line " ++ toString (before.length + 1) ++ ": " ++ e.message) ∈ log ∧
          ∀ a ∈ log, a.isDatabase = false) ∨
        (∃ before r after e,
          List.Forall₂ (fun line x => SessionRecord.parse line = .ok x) (Lines.filled (Lines.split text.toList))
            (before ++ r :: after) ∧
          (∀ x ∈ before, ∃ t, Timestamp.normalize x.timestamp = .ok t) ∧ Timestamp.normalize r.timestamp = .error e ∧
          code = 1 ∧
          .printError ("failed to write session record " ++ toString before.length ++ ": " ++ e.message) ∈ log ∧
          ∀ t, (d.left l.database log).held.rows t = d.held.rows t) ∨
        ∃ records,
          List.Forall₂ (fun line x => SessionRecord.parse line = .ok x) (Lines.filled (Lines.split text.toList))
            records ∧
          code = 0 ∧
          (d.Constrained → ∃ launches : List Launch,
            (d.left l.database log).held.sessions = d.held.sessions ++ launches.map Launch.session ∧
            (d.left l.database log).held.flash = d.held.flash ++ launches.filterMap Launch.flash ∧
            (d.left l.database log).held.java = d.held.java ++ launches.filterMap Launch.java ∧
            List.Forall₂ (fun launch r => launch.Holds (d.left l.database log).held.names r) launches records)) := by
  cases hread : readRecords text.toList with
  | error f =>
    obtain ⟨log, hrun, htold, hquiet⟩ := Command.run_import_refused haction hplaces hserves hargs hread
    refine ⟨2, log, hrun, .inl ?_⟩
    obtain ⟨before, line, after, hsplit, hbefore, hblank, hparse, hline⟩ := Lines.readFrom_eq_error_iff.1 hread
    have hf : f = ⟨before.length + 1, f.error⟩ := by rw [Nat.add_comm, ← hline]
    rw [hf] at htold
    exact ⟨before, line, after, f.error, hsplit, hbefore, hblank, hparse, rfl, htold, hquiet⟩
  | ok records =>
    have hparse := Lines.readFrom_eq_ok_iff.1 hread
    cases hwrite : d.ready.write records with
    | error e =>
      obtain ⟨before, r, after, t, rfl, rfl, hbefore, ht⟩ := Store.write_eq_error hwrite (hstatements _ _ hread hwrite)
      have hfatal : WriteError.isFatal ⟨before.length, .badTimestamp t⟩ = false := by
        refine decide_eq_false fun hfatal => ?_
        cases hfatal
        exact hcalendar _ hread r (List.mem_append_right _ List.mem_cons_self) ht
      obtain ⟨log, hrun, htold, hleft⟩ :=
        Command.run_import_unwritten haction hplaces hserves hargs hread hwrite hfatal
      refine ⟨1, log, hrun, .inr (.inl ⟨before, r, after, t, hparse, hbefore, ht, rfl, htold, fun u => ?_⟩)⟩
      rw [hleft]
      exact d.held.rows_noteVersion Schema.version u
    | ok p =>
      obtain ⟨log, hrun, hleft⟩ := Command.run_import_written haction hplaces hserves hargs hread hwrite
      refine ⟨0, log, hrun, .inr (.inr ⟨records, hparse, rfl, fun hconstrained => ?_⟩)⟩
      rw [hleft]
      exact hconstrained.adds hwrite

/-- a record that can be written, and one whose timestamp is none -/
def sampleFile : List SessionRecord :=
  [Database.sampleSession, { Database.sampleSession with timestamp := "never" }]

def sampleFileText : String := String.ofList (sampleFile.flatMap fun r => r.line ++ ['\n'])

theorem readRecords_sampleFile : readRecords sampleFileText.toList = .ok sampleFile := by
  have hlines : sampleFileText.toList = Database.sampleSession.line ++ (['\n'] ++
      (SessionRecord.line { Database.sampleSession with timestamp := "never" } ++ (['\n'] ++ []))) := by
    simp [sampleFileText, sampleFile]
  rw [hlines]
  exact Lines.readFrom_holds (.record (.inl rfl) (.record (.inl rfl) (.none (by simp) rfl))) 1

theorem import_all_or_nothing_sample :
    ∃ code log,
      (Command.run (Host.answering (Host.granting sampleFileText (.stored Database.sampleStore)))
        ⟨some "/home", none, "/work"⟩ ["import", "records.jsonl"]).run [] = (code, log) ∧
      code = 1 ∧ ∀ t, ((Database.stored Database.sampleStore).left "/home/.simstats/stats.sqlite" log).held.rows t =
        Database.sampleStore.rows t := by
  have hargs : Invocation.parse (Environment.mk (some "/home") none "/work").database ["import", "records.jsonl"] =
      .ok ⟨none, none, none, .importRecords "records.jsonl"⟩ := rfl
  have hserves : Host.Serves (Host.granting sampleFileText (.stored Database.sampleStore))
      ⟨"/home", "/work", "/home/.simstats/stats.sqlite"⟩ "records.jsonl" sampleFileText
      (.stored Database.sampleStore) :=
    ⟨rfl, fun _ => rfl, rfl, nofun, fun _ _ => rfl⟩
  have hstatements : ∀ records e, readRecords sampleFileText.toList = .ok records →
      (Database.stored Database.sampleStore).ready.write records = .error e → e.fault.isStatement = false := by
    intro records e hread hwrite
    rw [readRecords_sampleFile] at hread
    cases hread
    have hnever : (Database.stored Database.sampleStore).ready.write sampleFile =
        .error ⟨1, .badTimestamp (.unsupported "never")⟩ := by
      decide
    cases hwrite.symm.trans hnever
    rfl
  have hcalendar : ∀ records, readRecords sampleFileText.toList = .ok records → ∀ r ∈ records,
      Timestamp.normalize r.timestamp ≠ .error .beyondCalendar := by
    intro records hread
    rw [readRecords_sampleFile] at hread
    cases hread
    decide
  obtain ⟨code, log, hrun, houtcome⟩ :=
    import_all_or_nothing hargs rfl rfl hserves hstatements hcalendar
  refine ⟨code, log, hrun, ?_⟩
  rcases houtcome with ⟨before, line, after, e, hsplit, hbefore, hblank, hparse, -⟩ |
    ⟨_, _, _, _, -, -, -, hcode, -, hrows⟩ | ⟨records, hparse, -, hadded⟩
  · have hrefused : readRecords sampleFileText.toList = .error ⟨1 + before.length, e⟩ :=
      Lines.readFrom_eq_error_iff.2 ⟨before, line, after, hsplit, hbefore, hblank, hparse, rfl⟩
    rw [readRecords_sampleFile] at hrefused
    cases hrefused
  · exact ⟨hcode, hrows⟩
  · have hread : readRecords sampleFileText.toList = .ok records := Lines.readFrom_eq_ok_iff.2 hparse
    rw [readRecords_sampleFile] at hread
    cases hread
    have hconstrained : (Database.stored Database.sampleStore).Constrained := by
      obtain ⟨s, ⟨⟩, hs⟩ := Database.reachable_sample.sound
      exact hs.names
    obtain ⟨launches, -, -, -, hholds⟩ := hadded hconstrained
    obtain ⟨_, _, _, hlast, rfl⟩ := List.forall₂_cons_right_iff.1 hholds
    obtain ⟨_, _, hnever, _⟩ := List.forall₂_cons_right_iff.1 hlast
    obtain ⟨t, ht, -⟩ := hnever.session
    have hnone : (Timestamp.normalize "never").toOption = none := by decide
    rw [ht] at hnone
    cases hnone

end LaunchReports
