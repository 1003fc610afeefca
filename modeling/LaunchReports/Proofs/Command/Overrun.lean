/-
What a bad timestamp does to an import.

- `Timestamp.normalize_eq_beyondCalendar_iff`: one kind of timestamp ends the program, a time of the last day of the
  year 9999 that its offset to the west puts past the end of that day (`Timestamp.Overrun`).
- `Database.write_eq_badTimestamp_iff`: a write fails by a timestamp at the first record that has a bad one.
- `import_bad_timestamp`: so an import reports the record with the bad timestamp, unless it is an overrun; then the
  program ends with the code 101. Nothing is written either way.
-/
import LaunchReports.Proofs.Command.Import
import LaunchReports.Proofs.Time.Chronology
import LaunchReports.Proofs.Time.Readings

namespace LaunchReports

/-! ## Timestamps -/

namespace Timestamp

/-- a time of the last day of the year 9999 with an offset to the west that takes it to the next day -/
inductive Overrun : List Char → Prop
  | intro {m : Moment} {separator : Char} {fraction : List Char} {hours minutes : Nat} :
      m.isValid → m.date = ⟨9999, 12, 31⟩ → separator.toNat < 0x80 → Fraction fraction → hours ≤ 23 → minutes ≤ 59 →
      86400 ≤ m.secondOfDay + (hours * 3600 + minutes * 60) →
      Overrun ("9999-12-31".toList ++ separator :: m.clockText ++
        (fraction ++ ('-' :: Numeral.padded 2 hours ++ ':' :: Numeral.padded 2 minutes)))

theorem counted_lastDay : Date.Counted 2932896 ⟨9999, 12, 31⟩ := Date.counted_iff.2 ⟨by decide, by decide⟩

/-- the last day of the year 9999 is the last of the years of four digits -/
theorem le_lastDay {k : Int} {d : Date} (h : Date.Counted k d) (hyear : d.year ≤ 9999) : k ≤ 2932896 := by
  have hnext : Date.isValid ⟨10000, 1, 1⟩ := by decide
  have hbefore : d.Before ⟨10000, 1, 1⟩ := .inl (show d.year < 10000 by omega)
  have hlt := Date.dayNumber_lt h.spec.1 hnext hbefore
  have hnumber : Calendar.dayNumber ⟨10000, 1, 1⟩ = 3652425 := by decide
  have hepoch : Moment.epochDay = 719528 := rfl
  have hcount := h.spec.2
  omega

theorem overrun_iff {text : List Char} : Overrun text ↔ ∃ n, Dated n text ∧ Moment.lastUnix < n := by
  have hlast : Moment.lastUnix = 253402300799 := rfl
  have htext : Moment.dateText ⟨9999, 12, 31⟩ = "9999-12-31".toList := by decide
  constructor
  · rintro @⟨m, _, _, _, _, hvalid, hdate, hseparator, hfraction, hhours, hminutes, hpast⟩
    have hdated := Dated.intro hvalid (by rw [hdate]; decide) (by rw [hdate]) hseparator hfraction
      (.west hhours hminutes) (hdate ▸ counted_lastDay)
    rw [hdate, htext] at hdated
    exact ⟨_, hdated, by omega⟩
  · rintro ⟨_, @⟨m, k, shift, _, _, _, hvalid, _, hyear, hseparator, hfraction, hzone, hcounted⟩, hlate⟩
    have hclock := Moment.secondOfDay_lt hvalid
    have hday := le_lastDay hcounted hyear
    have hshift := (offset_bounds hzone.offset_eq).1
    obtain rfl : k = 2932896 := by omega
    have hdate := hcounted.unique counted_lastDay
    rw [hdate, htext]
    -- only an offset to the west is behind UTC
    cases hzone with
    | utc | utcLower | east => omega
    | west hhours hminutes => exact .intro hvalid hdate hseparator hfraction hhours hminutes (by omega)

/-- the timestamps that end the program -/
theorem normalize_eq_beyondCalendar_iff {raw : String} :
    normalize raw = .error .beyondCalendar ↔ Overrun (Text.trim raw.toList) := by
  rw [overrun_iff, ← moment_eq_beyondCalendar_iff, normalize]
  cases moment raw.toList <;> simp [Except.map]

end Timestamp

/-! ## Writes -/

theorem WriteError.isFatal_iff {e : WriteError} : e.isFatal = true ↔ e.fault = .badTimestamp .beyondCalendar := by
  rw [isFatal, decide_eq_true_iff]

namespace Database

variable {d : Database} {records : List SessionRecord}

/-- a write fails by a timestamp at the first record that has a bad one -/
theorem write_eq_badTimestamp_iff {index : Nat} {e : TimestampError} :
    d.write records = .error ⟨index, .badTimestamp e⟩ ↔ ∃ before r after, records = before ++ r :: after ∧
      before.length = index ∧ (∃ p, d.write before = .ok p) ∧ Timestamp.normalize r.timestamp = .error e := by
  have herror {ε α β : Type} {x : Except ε α} {f : α → β} {e : ε} : x.map f = .error e ↔ x = .error e := by
    cases x <;> simp [Except.map]
  have hok {ε α β : Type} {x : Except ε α} {f : α → β} : (∃ p, x.map f = .ok p) ↔ ∃ p, x = .ok p := by
    cases x <;> simp [Except.map]
  unfold write
  cases d.store? with
  | some s => simp only [herror, hok, Store.write_eq_badTimestamp_iff]
  | none => simp only [herror, hok, writeWithoutSchema_eq_badTimestamp_iff]

/-- the records before one that overruns the calendar can all be written -/
def Overruns (d : Database) (records : List SessionRecord) : Prop :=
  ∃ before r after, records = before ++ r :: after ∧ (∃ p, d.write before = .ok p) ∧
    Timestamp.Overrun (Text.trim r.timestamp.toList)

theorem overruns_iff : d.Overruns records ↔ ∃ e, d.write records = .error e ∧ e.isFatal = true := by
  simp only [Overruns, ← Timestamp.normalize_eq_beyondCalendar_iff]
  constructor
  · rintro ⟨before, r, after, rfl, hbefore, ht⟩
    have hwrite := write_eq_badTimestamp_iff.2 ⟨before, r, after, rfl, rfl, hbefore, ht⟩
    exact ⟨_, hwrite, WriteError.isFatal_iff.2 rfl⟩
  · rintro ⟨⟨index, fault⟩, hwrite, hfatal⟩
    obtain rfl := WriteError.isFatal_iff.1 hfatal
    obtain ⟨before, r, after, hsplit, -, hbefore, ht⟩ := write_eq_badTimestamp_iff.1 hwrite
    exact ⟨before, r, after, hsplit, hbefore, ht⟩

end Database

/-! ## Imports -/

/-- **A bad timestamp ends an import with its report, unless it overruns the calendar.** -/
theorem import_bad_timestamp (raw : String) (d : Database) (records : List SessionRecord) :
    (Timestamp.normalize raw = .error .beyondCalendar ↔ Timestamp.Overrun (Text.trim raw.toList)) ∧
    ((∃ e, d.write records = .error e ∧ e.isFatal = true) ↔ d.Overruns records) ∧
    (∀ index e, d.write records = .error ⟨index, .badTimestamp e⟩ ↔
      ∃ before r after, records = before ++ r :: after ∧ before.length = index ∧ (∃ p, d.write before = .ok p) ∧
        Timestamp.normalize r.timestamp = .error e) ∧
    ∀ {answer : Answers} {env : Environment} {args : List String} {i : Invocation} {input : String} {l : Locations}
      {text : String},
      Invocation.parse env.database args = .ok i → i.action = .importRecords input →
      Command.locations env i = .ok l → Host.Serves answer l input text d → readRecords text.toList = .ok records →
      ∃ code log, (Command.run (Host.answering answer) env args).run [] = (code, log) ∧
        (code = 101 ↔ (Database.stored d.ready).Overruns records) ∧
        (code ≠ 0 → d.left l.database log = .stored d.ready) ∧
        ∀ index e, (Database.stored d.ready).write records = .error ⟨index, .badTimestamp e⟩ → e ≠ .beyondCalendar →
          code = 1 ∧
            .printError ("failed to write session record " ++ toString index ++ ": " ++ e.message) ∈ log := by
  refine ⟨Timestamp.normalize_eq_beyondCalendar_iff, Database.overruns_iff.symm,
    fun index e => Database.write_eq_badTimestamp_iff, ?_⟩
  intro answer env args i input l text hargs haction hplaces hserves hread
  simp only [Database.overruns_iff]
  have hstored : (Database.stored d.ready).write records = (d.ready.write records).map fun p => (.stored p.1, p.2) := rfl
  rw [hstored]
  cases hwrite : d.ready.write records with
  | ok p =>
    obtain ⟨log, hrun, -⟩ := Command.run_import_written haction hplaces hserves hargs hread hwrite
    refine ⟨0, log, hrun, iff_of_false (by decide) nofun, fun h => absurd rfl h, nofun⟩
  | error e =>
    obtain ⟨log, hrun, htold, hleft⟩ := Command.run_import_failed haction hplaces hserves hargs hread hwrite
    refine ⟨_, log, hrun, ?_, fun _ => hleft, ?_⟩
    · cases hfatal : e.isFatal <;> simp [Except.map, hfatal]
    · rintro index t ⟨⟩ hlate
      have hfatal : WriteError.isFatal ⟨index, .badTimestamp t⟩ = false := by
        rw [← Bool.not_eq_true, WriteError.isFatal_iff]
        rintro ⟨⟩
        exact hlate rfl
      rw [hfatal]
      exact ⟨rfl, htold⟩

/-- a launch in the last minute of the year 9999, one minute behind UTC -/
def lateSession : SessionRecord := { Database.sampleSession with timestamp := "9999-12-31T23:59:59-00:01" }

/-- a timestamp that is read ends the program -/
theorem late_offset_ends_program :
    Timestamp.normalize lateSession.timestamp = .error .beyondCalendar ∧
      ∃ e, (Database.stored Store.empty).write [lateSession] = .error e ∧ (Failure.unwritten e).exitCode = 101 :=
  ⟨by decide, ⟨0, .badTimestamp .beyondCalendar⟩, by decide, by decide⟩

def lateFileText : String := String.ofList (lateSession.line ++ ['\n'])

theorem readRecords_lateFile : readRecords lateFileText.toList = .ok [lateSession] := by
  have hlines : lateFileText.toList = lateSession.line ++ (['\n'] ++ []) := String.toList_ofList
  rw [hlines]
  exact Lines.readFrom_holds (.record (.inl rfl) (.none (by simp) rfl)) 1

theorem import_bad_timestamp_sample :
    Timestamp.Overrun (Text.trim lateSession.timestamp.toList) ∧ ∃ code log,
      (Command.run (Host.answering (Host.granting lateFileText (.stored Database.sampleStore)))
        ⟨some "/home", none, "/work"⟩ ["import", "records.jsonl"]).run [] = (code, log) ∧
      code = 101 ∧ (Database.stored Database.sampleStore).left "/home/.simstats/stats.sqlite" log =
        .stored (Database.stored Database.sampleStore).ready := by
  have hargs : Invocation.parse (Environment.mk (some "/home") none "/work").database ["import", "records.jsonl"] =
      .ok ⟨none, none, none, .importRecords "records.jsonl"⟩ := rfl
  have hserves : Host.Serves (Host.granting lateFileText (.stored Database.sampleStore))
      ⟨"/home", "/work", "/home/.simstats/stats.sqlite"⟩ "records.jsonl" lateFileText
      (.stored Database.sampleStore) :=
    ⟨rfl, fun _ => rfl, rfl, nofun, fun _ _ => rfl⟩
  obtain ⟨hlate, -, -, hruns⟩ :=
    import_bad_timestamp lateSession.timestamp (.stored Database.sampleStore) [lateSession]
  obtain ⟨-, hoverruns, -⟩ :=
    import_bad_timestamp lateSession.timestamp (.stored (Database.stored Database.sampleStore).ready) [lateSession]
  obtain ⟨code, log, hrun, hcode, hleft, -⟩ := hruns hargs rfl rfl hserves readRecords_lateFile
  have hfatal : (Database.stored (Database.stored Database.sampleStore).ready).write [lateSession] =
      .error ⟨0, .badTimestamp .beyondCalendar⟩ := by decide
  have hended : code = 101 := hcode.2 (hoverruns.1 ⟨_, hfatal, rfl⟩)
  exact ⟨hlate.1 (by decide), code, log, hrun, hended, hleft (by rw [hended]; decide)⟩

end LaunchReports
