/-
What is imported can be read back.

- `write_readable`: an import that succeeds adds one launch for each record, in their order and under ids that increase.
  A launch has a side row where its record has one, with the id of its session. In the store after the import its
  session is read back as the record, with the timestamp in its stored form. What was there before stays in its place.

`Batch.Adds` is what an import has added so far, `Batch.Records.adds` the step for a record, `addRecords_adds` the run.
-/
import Mathlib.Data.List.Forall2
import LaunchReports.Proofs.Store.Integrity

namespace LaunchReports

/-! ## Launches of an import -/

namespace Batch

/-- `c` is `b` with the rows of these launches, and with more names -/
structure Adds (b c : Batch) (ls : List Launch) : Prop where
  coherent : c.Coherent
  grows : b.store.names.Grows c.store.names
  sessions : c.store.sessions = b.store.sessions ++ ls.map Launch.session
  flash : c.store.flash = b.store.flash ++ ls.filterMap Launch.flash
  java : c.store.java = b.store.java ++ ls.filterMap Launch.java
  versions : c.store.versions = b.store.versions
  last : b.store.lastSession.toInt ≤ c.store.lastSession.toInt
  increasing : (ls.map fun l => l.session.id.toInt).Pairwise (· < ·)
  between : ∀ l ∈ ls, b.store.lastSession.toInt < l.session.id.toInt ∧
    l.session.id.toInt ≤ c.store.lastSession.toInt
  stats : c.stats = ⟨b.stats.sessionsWritten + ls.length,
    b.stats.flashInfoWritten + (ls.filterMap Launch.flash).length,
    b.stats.javaInfoWritten + (ls.filterMap Launch.java).length, c.stats.namesCreated⟩

theorem Adds.refl {b : Batch} (h : b.Coherent) : b.Adds b [] where
  coherent := h
  grows := .refl _
  sessions := (List.append_nil _).symm
  flash := (List.append_nil _).symm
  java := (List.append_nil _).symm
  versions := rfl
  last := Int.le_refl _
  increasing := List.Pairwise.nil
  between _ h := nomatch h
  stats := rfl

theorem Adds.trans {b c d : Batch} {ls ms : List Launch} (h : b.Adds c ls) (g : c.Adds d ms) : b.Adds d (ls ++ ms) where
  coherent := g.coherent
  grows := h.grows.trans g.grows
  sessions := by rw [g.sessions, h.sessions, List.append_assoc, List.map_append]
  flash := by rw [g.flash, h.flash, List.append_assoc, List.filterMap_append]
  java := by rw [g.java, h.java, List.append_assoc, List.filterMap_append]
  versions := g.versions.trans h.versions
  last := Int.le_trans h.last g.last
  increasing := by
    rw [List.map_append, List.pairwise_append]
    refine ⟨h.increasing, g.increasing, ?_⟩
    simp only [List.forall_mem_map]
    intro l hl m hm
    exact Int.lt_of_le_of_lt (h.between l hl).2 (g.between m hm).1
  between l hl := by
    rcases List.mem_append.1 hl with hl | hl
    · exact ⟨(h.between l hl).1, Int.le_trans (h.between l hl).2 g.last⟩
    · exact ⟨Int.lt_of_le_of_lt h.last (g.between l hl).1, (g.between l hl).2⟩
  stats := by
    rw [g.stats, h.stats]
    simp [Nat.add_assoc]

/-- one record -/
theorem Records.adds {b c : Batch} {l : Launch} (h : b.Records c l) : b.Adds c [l] := by
  have hnext := toInt_nextId? h.next
  have hlast : c.store.lastSession = l.session.id := by rw [h.store]
  refine ⟨h.coherent, h.grows, by rw [h.store]; rfl, ?_, ?_, by rw [h.store], by rw [hlast]; omega,
    List.pairwise_singleton _ _, ?_, ?_⟩
  · rw [h.store]
    cases hf : l.flash <;> simp [hf]
  · rw [h.store]
    cases hj : l.java <;> simp [hj]
  · intro m hm
    rw [List.mem_singleton.1 hm, hlast]
    omega
  · rw [h.stats]
    cases hf : l.flash <;> cases hj : l.java <;> simp [hf, hj]

/-- all records in turn -/
theorem addRecords_adds {b c : Batch} (hb : b.Coherent) {index : Nat} {records : List SessionRecord}
    (h : b.addRecords index records = .ok c) :
    ∃ ls, b.Adds c ls ∧ List.Forall₂ (fun (l : Launch) r => l.Holds c.store.names r) ls records := by
  induction records generalizing b index with
  | nil => cases h; exact ⟨[], .refl hb, .nil⟩
  | cons r rest ih =>
    obtain ⟨d, hr, h⟩ := addRecords_cons_eq_ok.1 h
    obtain ⟨l, hd, hl⟩ := addRecord_eq hb hr
    obtain ⟨ls, hadds, hholds⟩ := ih hd.coherent h
    exact ⟨l :: ls, hd.adds.trans hadds, .cons (hl.grow hadds.grows) hholds⟩

end Batch

/-! ## Sessions read back -/

/-- the record of a session, with its side rows -/
def Store.record? (s : Store) (x : SessionRow) : Option SessionRecord := do
  let flash ← (s.flash.find? fun q => q.sessionId = x.id).mapM fun q => q.row.flashInfo? s.names
  let java ← (s.java.find? fun q => q.sessionId = x.id).mapM fun q => q.row.javaInfo? s.names
  x.row.record? s.names flash java

/-- the side row that is found under the id of a new session is that of its launch -/
theorem Launch.find?_side {α : Type} {side : Launch → Option α} {key : α → Int64} {old : List α} {ls : List Launch}
    (hkeys : ((old ++ ls.filterMap side).map key).Nodup) (hids : (ls.map fun l => l.session.id).Nodup)
    (hold : ∀ a ∈ old, ∀ l ∈ ls, key a ≠ l.session.id) (hown : ∀ l ∈ ls, ∀ a ∈ side l, key a = l.session.id)
    {l : Launch} (hl : l ∈ ls) : (old ++ ls.filterMap side).find? (fun a => key a = l.session.id) = side l := by
  refine Option.ext fun a => ?_
  rw [find?_key_eq_some hkeys]
  constructor
  · rintro ⟨ha, hkey⟩
    rcases List.mem_append.1 ha with ha | ha
    · exact absurd hkey (hold a ha l hl)
    · obtain ⟨m, hm, hside⟩ := List.mem_filterMap.1 ha
      have hsame : m.session.id = l.session.id := (hown m hm a hside).symm.trans hkey
      rwa [← List.inj_on_of_nodup_map hids hm hl hsame]
  · intro ha
    exact ⟨List.mem_append_right _ (List.mem_filterMap.2 ⟨l, hl, ha⟩), hown l hl a ha⟩

/-- what an optional row is read back as -/
theorem mapM_of_map_eq {α β γ : Type} {row : Option α} {info : Option β} {read : α → Option β} {key : α → γ} {k : γ}
    (h : row.map (fun a => (key a, read a)) = info.map fun b => (k, some b)) : row.mapM read = some info := by
  cases row with
  | none =>
    cases info with
    | none => rfl
    | some b => cases h
  | some a =>
    cases info with
    | none => cases h
    | some b =>
      have hread : read a = some b := congrArg Prod.snd (Option.some.inj h)
      simp [hread]

namespace Batch.Adds

variable {s : Store} {c : Batch} {ls : List Launch}

/-- the side rows of a session that was added are those of its launch -/
theorem find?_sides (hs : s.Sound) (h : (start s).Adds c ls) (hc : c.store.Sound)
    (hown : ∀ l ∈ ls, l.Owned) {l : Launch} (hl : l ∈ ls) :
    c.store.flash.find? (fun q => q.sessionId = l.session.id) = l.flash ∧
      c.store.java.find? (fun q => q.sessionId = l.session.id) = l.java := by
  have hids : (ls.map fun l => l.session.id).Nodup := by
    have hall := hc.sessions_nodup
    rw [h.sessions, List.map_append, List.map_map] at hall
    exact (List.nodup_append.1 hall).2.1
  have hold : ∀ side, ∀ id ∈ s.sideIds side, ∀ l ∈ ls, id ≠ l.session.id := by
    rintro side id hid l hl rfl
    have hle := hs.sessions_le _ (hs.sides_sessions side _ hid)
    exact absurd hle (Int.not_le.2 (h.between l hl).1)
  have hflash : (c.store.flash.map FlashRow.sessionId).Nodup := hc.sides_nodup .flashInfo
  have hjava : (c.store.java.map JavaRow.sessionId).Nodup := hc.sides_nodup .javaInfo
  rw [h.flash] at hflash ⊢
  rw [h.java] at hjava ⊢
  exact ⟨Launch.find?_side hflash hids (fun q hq => hold .flashInfo _ (List.mem_map_of_mem hq))
      (fun l hl => (hown l hl).1) hl,
    Launch.find?_side hjava hids (fun q hq => hold .javaInfo _ (List.mem_map_of_mem hq))
      (fun l hl => (hown l hl).2) hl⟩

/-- a session that was added is read back as its record -/
theorem record?_eq (hs : s.Sound) (h : (start s).Adds c ls) (hc : c.store.Sound)
    (hown : ∀ l ∈ ls, l.Owned) {l : Launch} (hl : l ∈ ls) {r : SessionRecord} (hr : l.Holds c.store.names r) :
    ∃ timestamp, Timestamp.normalize r.timestamp = .ok timestamp ∧
      c.store.record? l.session = some { r with timestamp := timestamp } := by
  obtain ⟨timestamp, ht, hread⟩ := hr.session
  obtain ⟨hflash, hjava⟩ := h.find?_sides hs hc hown hl
  refine ⟨timestamp, ht, ?_⟩
  rw [Store.record?, hflash, hjava, mapM_of_map_eq hr.flash, mapM_of_map_eq hr.java]
  exact hread r.flash r.java

end Batch.Adds

/-! ## Imports -/

/-- **What is imported can be read back.** -/
theorem write_readable {d e : Database} (hd : d.Reachable) {records : List SessionRecord} {stats : WriteStats}
    (h : d.write records = .ok (e, stats)) :
    ∃ s t, ∃ launches : List Launch, d = .stored s ∧ e = .stored t ∧
      t.sessions = s.sessions ++ launches.map Launch.session ∧
      t.flash = s.flash ++ launches.filterMap Launch.flash ∧
      t.java = s.java ++ launches.filterMap Launch.java ∧
      (launches.map fun l => l.session.id.toInt).Pairwise (· < ·) ∧
      (∀ l ∈ launches, ∀ x ∈ s.sessions, x.id.toInt < l.session.id.toInt) ∧
      List.Forall₂ (fun l r =>
        l.flash.map FlashRow.sessionId = (r.flash.map fun _ => l.session.id) ∧
        l.java.map JavaRow.sessionId = (r.java.map fun _ => l.session.id) ∧
        ∃ timestamp, Timestamp.normalize r.timestamp = .ok timestamp ∧
          t.record? l.session = some { r with timestamp := timestamp }) launches records ∧
      stats.sessionsWritten = launches.length ∧
      stats.flashInfoWritten = (launches.filterMap Launch.flash).length ∧
      stats.javaInfoWritten = (launches.filterMap Launch.java).length := by
  obtain ⟨s, rfl, hs⟩ := hd.sound
  simp only [Database.write, Database.store?] at h
  cases hw : s.write records with
  | error e => rw [hw] at h; cases h
  | ok p =>
    rw [hw] at h
    cases h
    have hsound := hs.write hw
    obtain ⟨c, hc, hstore, hstats⟩ := Store.write_eq_ok.1 hw
    obtain ⟨ls, hadds, hholds⟩ := Batch.addRecords_adds (Batch.coherent_start hs) hc
    rw [← hstore] at hsound ⊢
    obtain ⟨hown, -⟩ := (List.forall₂_and_left ls records).1 (hholds.imp fun l r hr => ⟨hr.owned, hr⟩)
    refine ⟨s, c.store, ls, rfl, rfl, hadds.sessions, hadds.flash, hadds.java, hadds.increasing, ?_, ?_, ?_, ?_, ?_⟩
    · intro l hl x hx
      exact Int.lt_of_le_of_lt (hs.sessions_le _ (List.mem_map_of_mem hx)) (hadds.between l hl).1
    · refine ((List.forall₂_and_left ls records).2 ⟨fun _ hl => hl, hholds⟩).imp fun l r h => ?_
      obtain ⟨hl, hr⟩ := h
      refine ⟨?_, ?_, ?_⟩
      · simpa [Function.comp_def] using congrArg (Option.map Prod.fst) hr.flash
      · simpa [Function.comp_def] using congrArg (Option.map Prod.fst) hr.java
      · exact hadds.record?_eq hs hsound hown hl hr
    · rw [← hstats]
      exact (congrArg WriteStats.sessionsWritten hadds.stats).trans (Nat.zero_add _)
    · rw [← hstats]
      exact (congrArg WriteStats.flashInfoWritten hadds.stats).trans (Nat.zero_add _)
    · rw [← hstats]
      exact (congrArg WriteStats.javaInfoWritten hadds.stats).trans (Nat.zero_add _)

/-- one more launch of a simulation that the store knows, with both side rows -/
def sampleLater : SessionRecord :=
  { Database.sampleSession with
    timestamp := "2009-08-03 10:00:00"
    simDeployment := some "lab"
    flash := some ⟨none, some 10, none, none, none, none, none, none, some "Linux"⟩
    java := some ⟨some "Linux", none, some "x86", none, none, none⟩ }

theorem write_readable_sample :
    ∃ t stats, (Database.stored Database.sampleStore).write [sampleLater] = .ok (.stored t, stats) ∧
      ∃ x ∈ t.sessions, t.record? x = some sampleLater := by
  have hok : ((Database.stored Database.sampleStore).write [sampleLater]).toOption.isSome := by decide
  cases hw : (Database.stored Database.sampleStore).write [sampleLater] with
  | error e => rw [hw] at hok; cases hok
  | ok p =>
    obtain ⟨s, t, launches, -, ht, hsessions, -, -, -, -, hheld, -⟩ := write_readable Database.reachable_sample hw
    obtain ⟨l, rest, ⟨-, -, timestamp, hn, hread⟩, -, rfl⟩ := List.forall₂_cons_right_iff.1 hheld
    have hnormal : Timestamp.normalize sampleLater.timestamp = .ok sampleLater.timestamp := by decide
    obtain rfl : sampleLater.timestamp = timestamp := Except.ok.inj (hnormal.symm.trans hn)
    refine ⟨t, p.2, by rw [← ht], l.session, ?_, hread⟩
    rw [hsessions]
    exact List.mem_append_right _ List.mem_cons_self

end LaunchReports
