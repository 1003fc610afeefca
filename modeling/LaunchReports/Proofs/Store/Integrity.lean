/-
What holds of every database that was made by creating the schema and importing sessions.

- `Store.Sound`: the name tables are sound, the ids of the sessions are distinct, a session has at most one row in each
  side table, side rows belong to sessions, and an id column is `NULL` or refers to a row of its name table.
- `Database.Reachable.sound`: every reachable database is stored and sound.

An import is followed record by record: `Store.Sound.addLaunch` is the step, `addRecords_sound` the run.
-/
import LaunchReports.Proofs.Store.Launch
import LaunchReports.Store.Connection

namespace LaunchReports

/-! ## Stores -/

namespace Store

/-- the sessions that have a row in the side table -/
def sideIds (s : Store) : SideTable → List Int64
  | .flashInfo => s.flash.map FlashRow.sessionId
  | .javaInfo => s.java.map JavaRow.sessionId

structure Sound (s : Store) : Prop where
  names : ∀ t, (s.names.get t).Sound
  sessions_nodup : (s.sessions.map SessionRow.id).Nodup
  sessions_le : ∀ id ∈ s.sessions.map SessionRow.id, id.toInt ≤ s.lastSession.toInt
  sessions_length : (s.sessions.length : Int) ≤ s.lastSession.toInt
  sides_nodup : ∀ x, (s.sideIds x).Nodup
  sides_sessions : ∀ x, ∀ id ∈ s.sideIds x, id ∈ s.sessions.map SessionRow.id
  refers : ∀ t ∈ Table.relations, ∀ row ∈ s.rows t, row.Refers s.names

theorem sound_empty : empty.Sound where
  names t := (NameTables.get_empty t).symm ▸ Names.sound_empty
  sessions_nodup := List.nodup_nil
  sessions_le _ h := nomatch h
  sessions_length := Int.le_refl 0
  sides_nodup x := by cases x <;> exact List.nodup_nil
  sides_sessions x _ h := by cases x <;> cases h
  refers t ht row h := by
    rcases t with _ | x | u
    · cases h
    · cases x <;> cases h
    · simp [Table.relations] at ht

theorem Sound.noteVersion {s : Store} (h : s.Sound) (version : String) : (s.noteVersion version).Sound := by
  unfold Store.noteVersion
  split
  · exact h
  · exact ⟨h.names, h.sessions_nodup, h.sessions_le, h.sessions_length, h.sides_nodup, h.sides_sessions, h.refers⟩

theorem rows_withNames (s : Store) (n : NameTables) {t : Table} (ht : t ∈ Table.relations) :
    { s with names := n }.rows t = s.rows t := by
  rcases t with _ | x | u
  · rfl
  · cases x <;> rfl
  · simp [Table.relations] at ht

/-- more names do no harm -/
theorem Sound.withNames {s : Store} (h : s.Sound) {n : NameTables} (hn : ∀ t, (n.get t).Sound)
    (hg : s.names.Grows n) : { s with names := n }.Sound where
  names := hn
  sessions_nodup := h.sessions_nodup
  sessions_le := h.sessions_le
  sessions_length := h.sessions_length
  sides_nodup := h.sides_nodup
  sides_sessions := h.sides_sessions
  refers t ht row hrow := by
    rw [rows_withNames s n ht] at hrow
    exact (h.refers t ht row hrow).grow hg

/-- a session with the next id -/
theorem Sound.addSession {s : Store} (h : s.Sound) {row : SessionRow} (hid : nextId? s.lastSession = some row.id)
    (hrow : row.row.Refers s.names) :
    { s with sessions := s.sessions ++ [row], lastSession := row.id }.Sound := by
  have hnext := toInt_nextId? hid
  constructor
  · exact h.names
  · refine nodup_map_snoc h.sessions_nodup fun r hr e => ?_
    have := h.sessions_le r.id (List.mem_map_of_mem hr)
    rw [e] at this
    omega
  · intro id hmem
    rw [List.map_append] at hmem
    rcases List.mem_append.1 hmem with hmem | hmem
    · have := h.sessions_le id hmem
      simp only
      omega
    · exact Int.le_of_eq (congrArg Int64.toInt (List.mem_singleton.1 hmem))
  · have := h.sessions_length
    rw [List.length_append]
    simp only [List.length_singleton]
    omega
  · exact h.sides_nodup
  · intro x id hmem
    rw [List.map_append]
    exact List.mem_append_left _ (h.sides_sessions x id hmem)
  · intro t ht r hr
    rcases t with _ | x | u
    · rw [rows, List.map_append] at hr
      rcases List.mem_append.1 hr with hr | hr
      · exact h.refers .session ht r hr
      · exact List.mem_singleton.1 hr ▸ hrow
    · exact h.refers (.side x) ht r (by cases x <;> exact hr)
    · simp [Table.relations] at ht

/-- the first row of a session in a side table; `t` is `s` with that row -/
theorem Sound.addSide {s t : Store} (h : s.Sound) {side : SideTable} {id : Int64} {row : Row}
    (hsession : id ∈ s.sessions.map SessionRow.id) (hfirst : id ∉ s.sideIds side) (hrow : row.Refers s.names)
    (hsame : t.names = s.names ∧ t.sessions = s.sessions ∧ t.lastSession = s.lastSession)
    (hids : ∀ x, t.sideIds x = s.sideIds x ++ if x = side then [id] else [])
    (hrows : ∀ x, t.rows (.side x) = s.rows (.side x) ++ if x = side then [row] else []) : t.Sound := by
  obtain ⟨hnames, hsessions, hlast⟩ := hsame
  constructor
  · exact hnames ▸ h.names
  · exact hsessions ▸ h.sessions_nodup
  · rw [hsessions, hlast]
    exact h.sessions_le
  · rw [hsessions, hlast]
    exact h.sessions_length
  · intro x
    rw [hids]
    split
    · next hx =>
      refine List.nodup_append.2 ⟨h.sides_nodup x, List.nodup_singleton _, ?_⟩
      rintro a ha b hb rfl
      exact hfirst (hx ▸ List.mem_singleton.1 hb ▸ ha)
    · exact (List.append_nil _).symm ▸ h.sides_nodup x
  · intro x a ha
    rw [hids] at ha
    rw [hsessions]
    rcases List.mem_append.1 ha with ha | ha
    · exact h.sides_sessions x a ha
    · split at ha
      · exact List.mem_singleton.1 ha ▸ hsession
      · cases ha
  · intro u hu q hq
    rw [hnames]
    cases u with
    | session =>
      rw [rows, hsessions] at hq
      exact h.refers .session hu q hq
    | side x =>
      rw [hrows] at hq
      rcases List.mem_append.1 hq with hq | hq
      · exact h.refers (.side x) hu q hq
      · split at hq
        · exact List.mem_singleton.1 hq ▸ hrow
        · cases hq
    | names u => simp [Table.relations] at hu

theorem Sound.addFlash {s : Store} (h : s.Sound) {row : FlashRow}
    (hsession : row.sessionId ∈ s.sessions.map SessionRow.id) (hfirst : row.sessionId ∉ s.sideIds .flashInfo)
    (hrow : row.row.Refers s.names) : { s with flash := s.flash ++ [row] }.Sound :=
  h.addSide hsession hfirst hrow ⟨rfl, rfl, rfl⟩ (fun x => by cases x <;> simp [sideIds])
    fun x => by cases x <;> simp [rows]

theorem Sound.addJava {s : Store} (h : s.Sound) {row : JavaRow}
    (hsession : row.sessionId ∈ s.sessions.map SessionRow.id) (hfirst : row.sessionId ∉ s.sideIds .javaInfo)
    (hrow : row.row.Refers s.names) : { s with java := s.java ++ [row] }.Sound :=
  h.addSide hsession hfirst hrow ⟨rfl, rfl, rfl⟩ (fun x => by cases x <;> simp [sideIds])
    fun x => by cases x <;> simp [rows]

/-- the rows of a launch under the next id -/
theorem Sound.addLaunch {s : Store} (h : s.Sound) {n : NameTables} (hn : ∀ t, (n.get t).Sound) (hg : s.names.Grows n)
    {l : Launch} (hid : nextId? s.lastSession = some l.session.id) {r : SessionRecord} (hl : l.Holds n r) :
    { s with
      names := n
      sessions := s.sessions ++ [l.session]
      lastSession := l.session.id
      flash := s.flash ++ l.flash.toList
      java := s.java ++ l.java.toList }.Sound := by
  obtain ⟨x, flash, java⟩ := l
  -- no side row of before belongs to an id that is yet to come
  have hnew : ∀ side, x.id ∉ s.sideIds side := by
    intro side hside
    have hold := h.sessions_le _ (h.sides_sessions side _ hside)
    have := toInt_nextId? hid
    dsimp only at this
    omega
  have hsession : x.id ∈ (s.sessions ++ [x]).map SessionRow.id := by simp
  have hnamed := (h.withNames hn hg).addSession hid hl.refers.1
  have hflash : { s with
      names := n
      sessions := s.sessions ++ [x]
      lastSession := x.id
      flash := s.flash ++ flash.toList }.Sound := by
    cases flash with
    | none => simpa using hnamed
    | some q =>
      have hown : q.sessionId = x.id := hl.owned.1 q rfl
      exact hnamed.addFlash (hown ▸ hsession) (hown ▸ hnew .flashInfo) (hl.refers.2.1 q rfl)
  cases java with
  | none => simpa using hflash
  | some q =>
    have hown : q.sessionId = x.id := hl.owned.2 q rfl
    exact hflash.addJava (hown ▸ hsession) (hown ▸ hnew .javaInfo) (hl.refers.2.2 q rfl)

end Store

/-! ## Batches -/

namespace Batch

theorem coherent_start {s : Store} (h : s.Sound) : (start s).Coherent := ⟨h.names, nofun⟩

theorem Records.sound {b c : Batch} {l : Launch} {r : SessionRecord} (h : b.Records c l)
    (hl : l.Holds c.store.names r) (hb : b.store.Sound) : c.store.Sound := by
  rw [h.store]
  exact hb.addLaunch h.coherent.names h.grows h.next hl

theorem addRecords_sound {b c : Batch} (hb : b.Coherent) (hs : b.store.Sound) {index : Nat}
    {records : List SessionRecord} (h : b.addRecords index records = .ok c) : c.store.Sound := by
  induction records generalizing b index with
  | nil => cases h; exact hs
  | cons r rest ih =>
    obtain ⟨d, hr, h⟩ := addRecords_cons_eq_ok.1 h
    obtain ⟨l, hd, hl⟩ := addRecord_eq hb hr
    exact ih hd.coherent (hd.sound hl hs) h

end Batch

/-! ## Databases -/

/-- an import that succeeds ends with a batch of all records -/
theorem Store.write_eq_ok {s t : Store} {records : List SessionRecord} {stats : WriteStats} :
    s.write records = .ok (t, stats) ↔
      ∃ b, (Batch.start s).addRecords 0 records = .ok b ∧ b.store = t ∧ b.stats = stats := by
  unfold Store.write
  cases (Batch.start s).addRecords 0 records <;> simp [Except.map]

theorem Store.Sound.write {s t : Store} (h : s.Sound) {records : List SessionRecord} {stats : WriteStats}
    (hw : s.write records = .ok (t, stats)) : t.Sound := by
  obtain ⟨b, hb, rfl, -⟩ := write_eq_ok.1 hw
  exact Batch.addRecords_sound (Batch.coherent_start h) h hb

namespace Database

/-- made by creating the schema and importing sessions -/
inductive Reachable : Database → Prop where
  | created {d : Database} : ensureSchema schemaless = .ok d → Reachable d
  | ensured {d e : Database} : Reachable d → d.ensureSchema = .ok e → Reachable e
  | written {d e : Database} {records : List SessionRecord} {stats : WriteStats} :
    Reachable d → d.write records = .ok (e, stats) → Reachable e

/-- **Reachable databases are sound.** -/
theorem Reachable.sound {d : Database} (h : d.Reachable) : ∃ s, d = stored s ∧ s.Sound := by
  induction h with
  | created h => cases h; exact ⟨_, rfl, Store.sound_empty.noteVersion _⟩
  | ensured _ h ih =>
    obtain ⟨s, rfl, hs⟩ := ih
    cases h
    exact ⟨_, rfl, hs.noteVersion _⟩
  | @written _ _ records _ _ h ih =>
    obtain ⟨s, rfl, hs⟩ := ih
    simp only [Database.write, store?] at h
    cases hw : s.write records with
    | error e => rw [hw] at h; cases h
    | ok p => rw [hw] at h; cases h; exact ⟨_, rfl, hs.write hw⟩

/-! ### A small database -/

def sampleSession : SessionRecord where
  timestamp := "0"
  simType := .flash
  simProject := "lab"
  simName := "gas"
  simDeployment := none
  simDistributionTag := none
  simDev := none
  simMajorVersion := none
  simMinorVersion := none
  simDevVersion := none
  simSvnRevision := none
  simVersionTimestamp := none
  simLocaleLanguage := none
  simLocaleCountry := none
  simSessionsSince := some 2
  simTotalSessions := none
  hostLocaleLanguage := none
  hostLocaleCountry := none
  hostSimplifiedOs := some "Linux"
  flash := none
  java := none

/-- three launches, two of them on Linux, one with Flash details -/
def sampleRecords : List SessionRecord :=
  [sampleSession,
    { sampleSession with simType := .java, simSessionsSince := none, hostSimplifiedOs := none },
    { sampleSession with
      simName := "ice"
      simSessionsSince := some 3
      flash := some ⟨none, some 11, none, none, none, none, none, none, some "Linux"⟩ }]

def sampleStore : Store :=
  match (Store.empty.noteVersion Schema.version).write sampleRecords with
  | .ok (s, _) => s
  | .error _ => Store.empty

theorem reachable_sample : (stored sampleStore).Reachable := by
  have hwritten : (stored (Store.empty.noteVersion Schema.version)).write sampleRecords =
      .ok (stored sampleStore, ⟨3, 1, 0, 5⟩) := by
    decide
  exact .written (.created rfl) hwritten

end Database

end LaunchReports
