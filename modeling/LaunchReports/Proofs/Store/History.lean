/-
The store over whole runs, with imports that succeed and imports that fail.

- `run_settled`: a database that gets a schema and then takes any actions holds a store that is sound and has only known
  kinds of simulations and one note of the schema version. Names keep their ids in all that follows. Between any two
  writes of an import, the ids that it remembers are those of its name tables; the names that it counts in the end are
  the rows that it added to them.

`Store.Settled` is the invariant, `Settled.after` the step for an action. `Batch.During` are the states of an import.
-/
import Mathlib.Tactic.Choose
import LaunchReports.Proofs.Store.Recording

namespace LaunchReports

/-! ## Imports from within -/

namespace Batch

/-- the states of an import from `s`: names are interned one by one, rows come between them -/
inductive During (s : Store) : Batch → Prop
  | start : During s (start s)
  | name {b c : Batch} {t : NameTable} {name : String} {id : Int64} :
    During s b → b.nameId t name = .ok (id, c) → During s c
  | session {b c : Batch} {timestamp : String} {r : SessionRecord} {id : Int64} :
    During s b → b.addSession timestamp r = .ok (id, c) → During s c
  | flash {b c : Batch} {id : Int64} {f : FlashInfo} : During s b → b.addFlash id f = .ok c → During s c
  | java {b c : Batch} {id : Int64} {j : JavaInfo} : During s b → b.addJava id j = .ok c → During s c

/-- what an import knows of the name tables, at any time -/
structure Accounts (s : Store) (b : Batch) : Prop where
  coherent : b.Coherent
  grows : s.names.Grows b.store.names
  created : b.stats.namesCreated + s.names.size = b.store.names.size

theorem Accounts.interns {s : Store} {b c : Batch} (h : b.Accounts s) (hc : b.Interns c) : c.Accounts s where
  coherent := hc.coherent
  grows := h.grows.trans hc.grows
  created := by
    have := h.created
    have := hc.created
    omega

/-- rows outside the name tables do not matter -/
theorem Accounts.rows {s : Store} {b c : Batch} (h : b.Accounts s) (hn : c.store.names = b.store.names)
    (hk : c.known = b.known) (hc : c.stats.namesCreated = b.stats.namesCreated) : c.Accounts s where
  coherent := ⟨hn ▸ h.coherent.names, by rw [hn, hk]; exact h.coherent.known⟩
  grows := hn ▸ h.grows
  created := by rw [hn, hc]; exact h.created

theorem During.accounts {s : Store} (hs : s.Sound) {b : Batch} (h : During s b) : b.Accounts s := by
  induction h with
  | start => exact ⟨coherent_start hs, .refl _, Nat.zero_add _⟩
  | name _ hc ih => exact ih.interns (nameId_interns ih.coherent hc).1
  | session _ hc ih =>
    obtain ⟨d, row, hd, -, -, -, -, rfl⟩ := addSession_eq ih.coherent hc
    exact (ih.interns hd).rows rfl rfl rfl
  | flash _ hc ih =>
    obtain ⟨d, row, hd, -, -, -, rfl⟩ := addFlash_eq ih.coherent hc
    exact (ih.interns hd).rows rfl rfl rfl
  | java _ hc ih =>
    obtain ⟨d, row, hd, -, -, -, rfl⟩ := addJava_eq ih.coherent hc
    exact (ih.interns hd).rows rfl rfl rfl

/-- writing a record goes through such states only -/
theorem During.addRecord {s : Store} {b c : Batch} (h : During s b) {r : SessionRecord} (hc : b.addRecord r = .ok c) :
    During s c := by
  obtain ⟨timestamp, id, b₁, b₂, -, h₁, hflash, hjava⟩ := addRecord_steps hc
  have hsession := h.session h₁
  have hside : During s b₂ := by
    rcases hflash with ⟨-, rfl⟩ | ⟨f, -, h₂⟩
    · exact hsession
    · exact hsession.flash h₂
  rcases hjava with ⟨-, rfl⟩ | ⟨j, -, h₃⟩
  · exact hside
  · exact hside.java h₃

theorem During.addRecords {s : Store} {b c : Batch} (h : During s b) {index : Nat} {records : List SessionRecord}
    (hc : b.addRecords index records = .ok c) : During s c := by
  induction records generalizing b index with
  | nil => cases hc; exact h
  | cons r rest ih =>
    obtain ⟨d, hr, hc⟩ := addRecords_cons_eq_ok.1 hc
    exact ih (h.addRecord hr) hc

end Batch

/-- rows that are added to name tables add up -/
theorem NameTables.Grows.exists_added {n m : NameTables} (h : n.Grows m) :
    ∃ added : NameTable → List NameRow, (∀ t, (m.get t).rows = (n.get t).rows ++ added t) ∧
      m.size = n.size + (NameTable.all.map fun t => (added t).length).sum := by
  choose added hadded using h
  refine ⟨added, fun t => (hadded t).symm, ?_⟩
  rw [size, size, ← List.sum_map_add]
  exact congrArg List.sum (List.map_congr_left fun t _ => by rw [← hadded t, List.length_append])

/-! ## Stores -/

namespace Store

/-- what holds after any run -/
structure Settled (s : Store) : Prop where
  sound : s.Sound
  kinds : ∀ x ∈ s.sessions, x.simType = 0 ∨ x.simType = 1
  version : s.versions.count Schema.version = 1

theorem settled_created : (empty.noteVersion Schema.version).Settled where
  sound := sound_empty.noteVersion _
  kinds _ h := nomatch h
  version := by decide

/-- the version of the schema is noted once for all -/
theorem Settled.noteVersion {s : Store} (h : s.Settled) : s.noteVersion Schema.version = s :=
  if_pos (List.count_pos_iff.1 (h.version ▸ Nat.one_pos))

end Store

theorem SimType.of_ofDiscriminant? {n : Int64} {t : SimType} (h : ofDiscriminant? n = some t) : n = 0 ∨ n = 1 := by
  have hn : t.discriminant = n := by simpa using List.find?_some h
  cases t
  · exact .inl hn.symm
  · exact .inr hn.symm

/-- a session that can be read has a known kind -/
theorem Launch.Holds.kind {l : Launch} {n : NameTables} {r : SessionRecord} (h : l.Holds n r) :
    l.session.simType = 0 ∨ l.session.simType = 1 := by
  obtain ⟨timestamp, -, hread⟩ := h.session
  -- the cells of timestamp and kind are there, the first step that can fail is the kind
  obtain ⟨t, ht, -⟩ := Option.bind_eq_some_iff.1 (hread none none)
  exact SimType.of_ofDiscriminant? ht

theorem Store.Settled.write {s t : Store} (h : s.Settled) {records : List SessionRecord} {stats : WriteStats}
    (hw : s.write records = .ok (t, stats)) : t.Settled ∧ s.names.Grows t.names := by
  obtain ⟨c, hc, rfl, -⟩ := write_eq_ok.1 hw
  obtain ⟨ls, hadds, hholds⟩ := Batch.addRecords_adds (Batch.coherent_start h.sound) hc
  obtain ⟨hkinds, -⟩ := (List.forall₂_and_left ls records).1 (hholds.imp fun l r hr => ⟨hr.kind, hr⟩)
  refine ⟨⟨h.sound.write hw, fun x hx => ?_, by rw [hadds.versions]; exact h.version⟩, hadds.grows⟩
  rw [hadds.sessions] at hx
  rcases List.mem_append.1 hx with hx | hx
  · exact h.kinds x hx
  · obtain ⟨l, hl, rfl⟩ := List.mem_map.1 hx
    exact hkinds l hl

/-! ## Runs -/

namespace Database

/-- what is done to a database -/
inductive Action where
  | ensureSchema
  | write (records : List SessionRecord)
deriving DecidableEq, Repr

/-- the database after an action, unchanged if it fails -/
def after (d : Database) : Action → Database
  | .ensureSchema =>
    match d.ensureSchema with
    | .ok e => e
    | .error _ => d
  | .write records =>
    match d.write records with
    | .ok (e, _) => e
    | .error _ => d

/-- the database after actions, in turn -/
def run (d : Database) (actions : List Action) : Database := actions.foldl after d

/-- an action keeps what holds of a store, and the names with their ids -/
theorem after_settled {s : Store} (h : s.Settled) (action : Action) :
    ∃ t, (stored s).after action = stored t ∧ t.Settled ∧ s.names.Grows t.names := by
  cases action with
  | ensureSchema =>
    refine ⟨s, ?_, h, .refl _⟩
    show stored (s.noteVersion Schema.version) = _
    rw [h.noteVersion]
  | write records =>
    simp only [after, write, store?]
    cases hw : s.write records with
    | error e => exact ⟨s, rfl, h, .refl _⟩
    | ok p =>
      obtain ⟨ht, hg⟩ := h.write hw
      exact ⟨p.1, rfl, ht, hg⟩

theorem run_stored {s : Store} (h : s.Settled) (actions : List Action) :
    ∃ t, (stored s).run actions = stored t ∧ t.Settled ∧ s.names.Grows t.names := by
  induction actions generalizing s with
  | nil => exact ⟨s, rfl, h, .refl _⟩
  | cons action rest ih =>
    obtain ⟨m, hm, hsettled, hg⟩ := after_settled h action
    obtain ⟨t, ht, hfinal, hrest⟩ := ih hsettled
    exact ⟨t, by rw [run, List.foldl_cons, hm]; exact ht, hfinal, hg.trans hrest⟩

/-- **What holds over whole runs.** -/
theorem run_settled (actions later : List Action) :
    ∃ s t, schemaless.run (.ensureSchema :: actions) = stored s ∧ (stored s).run later = stored t ∧
      s.Sound ∧ (∀ x ∈ s.sessions, x.simType = 0 ∨ x.simType = 1) ∧ s.versions.count Schema.version = 1 ∧
      (∀ n name id, (s.names.get n).id? name = some id → (t.names.get n).id? name = some id) ∧
      (∀ b, Batch.During s b → ∀ p ∈ b.known, (b.store.names.get p.1.1).id? p.1.2 = some p.2) ∧
      ∀ records u stats, s.write records = .ok (u, stats) →
        (∃ b, Batch.During s b ∧ b.store = u ∧ b.stats = stats) ∧
        ∃ added : NameTable → List NameRow, (∀ n, (u.names.get n).rows = (s.names.get n).rows ++ added n) ∧
          stats.namesCreated = (NameTable.all.map fun n => (added n).length).sum := by
  obtain ⟨s, hs, hsettled, -⟩ := run_stored Store.settled_created actions
  obtain ⟨t, ht, -, hgrows⟩ := run_stored hsettled later
  refine ⟨s, t, hs, ht, hsettled.sound, hsettled.kinds, hsettled.version, fun _ _ _ => hgrows.id?_eq,
    fun b hb => (hb.accounts hsettled.sound).coherent.known, fun records u stats hw => ?_⟩
  obtain ⟨b, hrecords, rfl, rfl⟩ := Store.write_eq_ok.1 hw
  have hb : Batch.During s b := Batch.During.start.addRecords hrecords
  have haccounts := hb.accounts hsettled.sound
  obtain ⟨added, hrows, hsize⟩ := haccounts.grows.exists_added
  refine ⟨⟨b, hb, rfl, rfl⟩, added, hrows, ?_⟩
  have := haccounts.created
  omega

end Database

end LaunchReports
