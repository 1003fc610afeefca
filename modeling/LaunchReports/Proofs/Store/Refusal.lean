/-
The record that an import fails at.

- `Batch.addRecord_eq_error`: a record fails by its timestamp alone, unless a statement fails.
- `Batch.addRecords_eq_error_iff`: an import fails at the first record that fails, the ones before are added.
- `Store.write_eq_badTimestamp_iff`: it fails by a timestamp if the first record that fails has a bad one.
-/
import LaunchReports.Proofs.Store.Launch

namespace LaunchReports

/-- a fault that is not the record's -/
def WriteFault.isStatement : WriteFault → Bool
  | badTimestamp _ => false
  | missingTable _ | noIdForName .. | noIdForSession => true

/-- what fails by a statement if it fails -/
def ByStatement {α : Type} (x : Except WriteFault α) : Prop := ∀ f, x = .error f → f.isStatement = true

namespace ByStatement

variable {α β : Type}

theorem ok (a : α) : ByStatement (.ok a) := nofun

theorem error {f : WriteFault} (h : f.isStatement = true) : ByStatement (.error f : Except WriteFault α) := by
  rintro _ ⟨⟩
  exact h

theorem bind {x : Except WriteFault α} {next : α → Except WriteFault β} (hx : ByStatement x)
    (hnext : ∀ a, ByStatement (next a)) : ByStatement (x >>= next) := by
  cases x with
  | error f =>
    rintro _ ⟨⟩
    exact hx f rfl
  | ok a => exact hnext a

theorem map {x : Except WriteFault α} (hx : ByStatement x) (f : α → β) : ByStatement (x.map f) := by
  cases x with
  | error g =>
    rintro _ ⟨⟩
    exact hx g rfl
  | ok a => exact nofun

theorem elim {o : Option β} {a : α} {f : β → Except WriteFault α} (hf : ∀ b, ByStatement (f b)) :
    ByStatement (o.elim (.ok a) f) := by
  cases o with
  | none => exact .ok a
  | some b => exact hf b

end ByStatement

namespace Batch

variable (b : Batch)

theorem byStatement_nameId (t : NameTable) (name : String) : ByStatement (b.nameId t name) := by
  unfold nameId
  split
  · exact .ok _
  · split
    · exact .error rfl
    · exact .ok _

theorem byStatement_nameId? (t : NameTable) (name : Option String) : ByStatement (b.nameId? t name) := by
  cases name with
  | none => exact .ok _
  | some name => exact (b.byStatement_nameId t name).map _

theorem byStatement_addSession (timestamp : String) (r : SessionRecord) :
    ByStatement (b.addSession timestamp r) := by
  refine .bind (byStatement_nameId _ _ _) fun p => ?_
  refine .bind (byStatement_nameId _ _ _) fun p => ?_
  refine .bind (byStatement_nameId? _ _ _) fun p => ?_
  refine .bind (byStatement_nameId? _ _ _) fun p => ?_
  refine .bind (byStatement_nameId? _ _ _) fun p => ?_
  dsimp only
  split
  · exact .error rfl
  · exact .ok _

theorem byStatement_addFlash (id : Int64) (f : FlashInfo) : ByStatement (b.addFlash id f) := by
  refine .bind (byStatement_nameId? _ _ _) fun p => ?_
  refine .bind (byStatement_nameId? _ _ _) fun p => ?_
  exact .bind (byStatement_nameId? _ _ _) fun p => .ok _

theorem byStatement_addJava (id : Int64) (j : JavaInfo) : ByStatement (b.addJava id j) := by
  refine .bind (byStatement_nameId? _ _ _) fun p => ?_
  refine .bind (byStatement_nameId? _ _ _) fun p => ?_
  refine .bind (byStatement_nameId? _ _ _) fun p => ?_
  refine .bind (byStatement_nameId? _ _ _) fun p => ?_
  refine .bind (byStatement_nameId? _ _ _) fun p => ?_
  exact .bind (byStatement_nameId? _ _ _) fun p => .ok _

/-- the timestamp comes first, and everything after it is statements -/
theorem addRecord_eq_error {b : Batch} {r : SessionRecord} {f : WriteFault} (h : b.addRecord r = .error f) :
    (∃ e, Timestamp.normalize r.timestamp = .error e ∧ f = .badTimestamp e) ∨ f.isStatement = true := by
  rw [addRecord_eq_bind] at h
  cases ht : Timestamp.normalize r.timestamp with
  | error e =>
    rw [ht] at h
    cases h
    exact .inl ⟨e, rfl, rfl⟩
  | ok timestamp =>
    rw [ht] at h
    refine .inr (ByStatement.bind (.ok timestamp) (fun t => ?_) f h)
    refine .bind (byStatement_addSession _ _ _) fun p => ?_
    exact .bind (.elim (byStatement_addFlash _ _)) fun d => .elim (byStatement_addJava _ _)

theorem addRecord_eq_badTimestamp_iff {b : Batch} {r : SessionRecord} {e : TimestampError} :
    b.addRecord r = .error (.badTimestamp e) ↔ Timestamp.normalize r.timestamp = .error e := by
  constructor
  · intro h
    obtain ⟨_, ht, ⟨⟩⟩ | hstatement := addRecord_eq_error h
    · exact ht
    · cases hstatement
  · intro h
    rw [addRecord, h]
    rfl

/-- an import fails at the first record that fails -/
theorem addRecords_eq_error_iff {b : Batch} {index : Nat} {records : List SessionRecord} {e : WriteError} :
    b.addRecords index records = .error e ↔ ∃ before r after c, records = before ++ r :: after ∧
      e.index = index + before.length ∧ b.addRecords index before = .ok c ∧ c.addRecord r = .error e.fault := by
  induction records generalizing b index with
  | nil =>
    refine ⟨nofun, ?_⟩
    rintro ⟨_, _, _, _, hnil, -⟩
    cases List.append_ne_nil_of_right_ne_nil _ (List.cons_ne_nil _ _) hnil.symm
  | cons r rest ih =>
    constructor
    · intro h
      obtain ⟨hindex, hr⟩ | ⟨c, hr, h⟩ := addRecords_cons_eq_error.1 h
      · exact ⟨[], r, rest, b, rfl, hindex, rfl, hr⟩
      · obtain ⟨before, bad, after, d, rfl, hindex, hbefore, hbad⟩ := ih.1 h
        refine ⟨r :: before, bad, after, d, rfl, ?_, addRecords_cons_eq_ok.2 ⟨c, hr, hbefore⟩, hbad⟩
        rw [hindex, List.length_cons]
        omega
    · rintro ⟨before, bad, after, d, hsplit, hindex, hbefore, hbad⟩
      refine addRecords_cons_eq_error.2 ?_
      cases before with
      | nil =>
        cases hsplit
        cases hbefore
        exact .inl ⟨hindex, hbad⟩
      | cons _ before =>
        cases hsplit
        obtain ⟨c, hr, hbefore⟩ := addRecords_cons_eq_ok.1 hbefore
        rw [List.length_cons] at hindex
        exact .inr ⟨c, hr, ih.2 ⟨before, bad, after, d, rfl, by omega, hbefore, hbad⟩⟩

/-- the records that are added have timestamps -/
theorem normalize_of_addRecords {b c : Batch} {index : Nat} {records : List SessionRecord}
    (h : b.addRecords index records = .ok c) : ∀ x ∈ records, ∃ t, Timestamp.normalize x.timestamp = .ok t := by
  induction records generalizing b index with
  | nil => exact List.forall_mem_nil _
  | cons r rest ih =>
    obtain ⟨d, hr, h⟩ := addRecords_cons_eq_ok.1 h
    obtain ⟨timestamp, -, -, -, ht, -⟩ := addRecord_steps hr
    exact List.forall_mem_cons.2 ⟨⟨timestamp, ht⟩, ih h⟩

end Batch

theorem Store.write_eq_error_iff {s : Store} {records : List SessionRecord} {e : WriteError} :
    s.write records = .error e ↔ (Batch.start s).addRecords 0 records = .error e := by
  unfold write
  cases (Batch.start s).addRecords 0 records <;> simp [Except.map]

theorem Store.write_ok_iff {s : Store} {records : List SessionRecord} :
    (∃ p, s.write records = .ok p) ↔ ∃ b, (Batch.start s).addRecords 0 records = .ok b := by
  unfold write
  cases (Batch.start s).addRecords 0 records <;> simp [Except.map]

/-- a write fails by a timestamp at the first record that has a bad one -/
theorem Store.write_eq_badTimestamp_iff {s : Store} {records : List SessionRecord} {index : Nat} {e : TimestampError} :
    s.write records = .error ⟨index, .badTimestamp e⟩ ↔ ∃ before r after, records = before ++ r :: after ∧
      before.length = index ∧ (∃ p, s.write before = .ok p) ∧ Timestamp.normalize r.timestamp = .error e := by
  simp only [write_eq_error_iff, Batch.addRecords_eq_error_iff, Batch.addRecord_eq_badTimestamp_iff, write_ok_iff,
    Nat.zero_add]
  constructor
  · rintro ⟨before, r, after, c, rfl, rfl, hbefore, ht⟩
    exact ⟨before, r, after, rfl, rfl, ⟨c, hbefore⟩, ht⟩
  · rintro ⟨before, r, after, rfl, rfl, ⟨c, hbefore⟩, ht⟩
    exact ⟨before, r, after, c, rfl, rfl, hbefore, ht⟩

theorem writeWithoutSchema_eq_badTimestamp_iff {records : List SessionRecord} {index : Nat} {e : TimestampError} :
    writeWithoutSchema records = .error ⟨index, .badTimestamp e⟩ ↔ ∃ before r after, records = before ++ r :: after ∧
      before.length = index ∧ (∃ p, writeWithoutSchema before = .ok p) ∧ Timestamp.normalize r.timestamp = .error e := by
  have hempty {records : List SessionRecord} : (∃ p, writeWithoutSchema records = .ok p) ↔ records = [] := by
    cases records with
    | nil => exact iff_of_true ⟨_, rfl⟩ rfl
    | cons r rest =>
      rw [writeWithoutSchema]
      cases Timestamp.normalize r.timestamp <;> simp
  simp only [hempty]
  constructor
  · intro h
    cases records with
    | nil => cases h
    | cons r rest =>
      rw [writeWithoutSchema] at h
      cases ht : Timestamp.normalize r.timestamp with
      | error t =>
        rw [ht] at h
        cases h
        exact ⟨[], r, rest, rfl, rfl, rfl, ht⟩
      | ok t =>
        rw [ht] at h
        cases h
  · rintro ⟨_, r, after, rfl, rfl, rfl, ht⟩
    rw [List.nil_append, writeWithoutSchema, ht]
    rfl

/-- an import that no statement stops fails at the first timestamp that is none -/
theorem Store.write_eq_error {s : Store} {records : List SessionRecord} {e : WriteError}
    (h : s.write records = .error e) (hfault : e.fault.isStatement = false) :
    ∃ before r after t, records = before ++ r :: after ∧ e = ⟨before.length, .badTimestamp t⟩ ∧
      (∀ x ∈ before, ∃ u, Timestamp.normalize x.timestamp = .ok u) ∧ Timestamp.normalize r.timestamp = .error t := by
  obtain ⟨before, r, after, c, rfl, hindex, hbefore, hbad⟩ :=
    Batch.addRecords_eq_error_iff.1 (Store.write_eq_error_iff.1 h)
  obtain ⟨t, ht, hfault'⟩ | hstatement := Batch.addRecord_eq_error hbad
  · obtain ⟨index, fault⟩ := e
    cases hfault'
    rw [Nat.zero_add] at hindex
    cases hindex
    exact ⟨before, r, after, t, rfl, rfl, Batch.normalize_of_addRecords hbefore, ht⟩
  · rw [hfault] at hstatement
    cases hstatement

end LaunchReports
