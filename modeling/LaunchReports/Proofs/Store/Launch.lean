/-
What a record becomes when it is written.

- `Launch.Holds`: the rows of one launch are read back as the record, and all their ids refer to names.
- `addRecord_eq`: a record that is written becomes the rows of one launch, which hold it. They come to the ends of their
  tables under the next id, after the names; nothing else of the import is different.

`addSession_eq`, `addFlash_eq` and `addJava_eq` are the steps for one row. Names are interned between the rows, which
`Batch.Records.interns` allows for.
-/
import LaunchReports.Proofs.Store.Reading

namespace LaunchReports

theorem bind_eq_ok {α β ε : Type} {x : Except ε α} {f : α → Except ε β} {b : β} :
    (x >>= f) = .ok b ↔ ∃ a, x = .ok a ∧ f a = .ok b := by
  cases x <;> simp [bind, Except.bind]

/-- an optional step is left out or taken -/
theorem elim_eq_ok {α β ε : Type} {o : Option α} {f : α → Except ε β} {b c : β} :
    o.elim (.ok b) f = .ok c ↔ o = none ∧ b = c ∨ ∃ a, o = some a ∧ f a = .ok c := by
  cases o <;> simp

/-! ## Adding a row -/

namespace Batch

theorem addSession_eq {b c : Batch} (hb : b.Coherent) {timestamp : String} {r : SessionRecord} {id : Int64}
    (h : b.addSession timestamp r = .ok (id, c)) :
    ∃ d row, b.Interns d ∧ row.id = id ∧ nextId? d.store.lastSession = some id ∧ row.row.Refers d.store.names ∧
      (∀ flash java, row.row.record? d.store.names flash java =
        some { r with timestamp := timestamp, flash := flash, java := java }) ∧
      c = { d with
        store := { d.store with sessions := d.store.sessions ++ [row], lastSession := row.id }
        stats := { d.stats with sessionsWritten := d.stats.sessionsWritten + 1 } } := by
  obtain ⟨⟨project, b₁⟩, h₁, h⟩ := bind_eq_ok.1 h
  obtain ⟨⟨name, b₂⟩, h₂, h⟩ := bind_eq_ok.1 h
  obtain ⟨⟨deployment, b₃⟩, h₃, h⟩ := bind_eq_ok.1 h
  obtain ⟨⟨tag, b₄⟩, h₄, h⟩ := bind_eq_ok.1 h
  obtain ⟨⟨os, b₅⟩, h₅, h⟩ := bind_eq_ok.1 h
  obtain ⟨i₁, s₁⟩ := nameId_interns hb h₁
  obtain ⟨i₂, s₂⟩ := nameId_interns i₁.coherent h₂
  obtain ⟨i₃, s₃⟩ := nameId?_interns i₂.coherent h₃
  obtain ⟨i₄, s₄⟩ := nameId?_interns i₃.coherent h₄
  obtain ⟨i₅, s₅⟩ := nameId?_interns i₄.coherent h₅
  -- what is interned first stands as long as the rest
  have g₄ := i₅.grows
  have g₃ := i₄.grows.trans g₄
  have g₂ := i₃.grows.trans g₃
  have g₁ := i₂.grows.trans g₂
  dsimp only at h
  cases hid : nextId? b₅.store.lastSession with
  | none => rw [hid] at h; cases h
  | some fresh =>
    rw [hid] at h
    cases h
    obtain ⟨hrefers, hread⟩ :=
      r.reads_row i₅.coherent.names (s₁.grow g₁) (s₂.grow g₂) (s₃.grow g₃) (s₄.grow g₄) s₅ id timestamp
    exact ⟨b₅, _, i₁.trans (i₂.trans (i₃.trans (i₄.trans i₅))), rfl, hid, hrefers, hread, rfl⟩

theorem addFlash_eq {b c : Batch} (hb : b.Coherent) {id : Int64} {f : FlashInfo} (h : b.addFlash id f = .ok c) :
    ∃ d row, b.Interns d ∧ row.sessionId = id ∧ row.row.Refers d.store.names ∧
      row.row.flashInfo? d.store.names = some f ∧
      c = { d with
        store := { d.store with flash := d.store.flash ++ [row] }
        stats := { d.stats with flashInfoWritten := d.stats.flashInfoWritten + 1 } } := by
  obtain ⟨⟨versionType, b₁⟩, h₁, h⟩ := bind_eq_ok.1 h
  obtain ⟨⟨domain, b₂⟩, h₂, h⟩ := bind_eq_ok.1 h
  obtain ⟨⟨os, b₃⟩, h₃, h⟩ := bind_eq_ok.1 h
  obtain ⟨i₁, s₁⟩ := nameId?_interns hb h₁
  obtain ⟨i₂, s₂⟩ := nameId?_interns i₁.coherent h₂
  obtain ⟨i₃, s₃⟩ := nameId?_interns i₂.coherent h₃
  cases h
  obtain ⟨hrefers, hread⟩ :=
    f.reads_row i₃.coherent.names (s₁.grow (i₂.grows.trans i₃.grows)) (s₂.grow i₃.grows) s₃ id
  exact ⟨b₃, _, i₁.trans (i₂.trans i₃), rfl, hrefers, hread, rfl⟩

theorem addJava_eq {b c : Batch} (hb : b.Coherent) {id : Int64} {j : JavaInfo} (h : b.addJava id j = .ok c) :
    ∃ d row, b.Interns d ∧ row.sessionId = id ∧ row.row.Refers d.store.names ∧
      row.row.javaInfo? d.store.names = some j ∧
      c = { d with
        store := { d.store with java := d.store.java ++ [row] }
        stats := { d.stats with javaInfoWritten := d.stats.javaInfoWritten + 1 } } := by
  obtain ⟨⟨osName, b₁⟩, h₁, h⟩ := bind_eq_ok.1 h
  obtain ⟨⟨osVersion, b₂⟩, h₂, h⟩ := bind_eq_ok.1 h
  obtain ⟨⟨osArch, b₃⟩, h₃, h⟩ := bind_eq_ok.1 h
  obtain ⟨⟨vendor, b₄⟩, h₄, h⟩ := bind_eq_ok.1 h
  obtain ⟨⟨webstartVersion, b₅⟩, h₅, h⟩ := bind_eq_ok.1 h
  obtain ⟨⟨timezone, b₆⟩, h₆, h⟩ := bind_eq_ok.1 h
  obtain ⟨i₁, s₁⟩ := nameId?_interns hb h₁
  obtain ⟨i₂, s₂⟩ := nameId?_interns i₁.coherent h₂
  obtain ⟨i₃, s₃⟩ := nameId?_interns i₂.coherent h₃
  obtain ⟨i₄, s₄⟩ := nameId?_interns i₃.coherent h₄
  obtain ⟨i₅, s₅⟩ := nameId?_interns i₄.coherent h₅
  obtain ⟨i₆, s₆⟩ := nameId?_interns i₅.coherent h₆
  have g₅ := i₆.grows
  have g₄ := i₅.grows.trans g₅
  have g₃ := i₄.grows.trans g₄
  have g₂ := i₃.grows.trans g₃
  have g₁ := i₂.grows.trans g₂
  cases h
  obtain ⟨hrefers, hread⟩ := j.reads_row i₆.coherent.names (s₁.grow g₁) (s₂.grow g₂) (s₃.grow g₃) (s₄.grow g₄)
    (s₅.grow g₅) s₆ id
  exact ⟨b₆, _, i₁.trans (i₂.trans (i₃.trans (i₄.trans (i₅.trans i₆)))), rfl, hrefers, hread, rfl⟩

end Batch

/-! ## Adding a record -/

/-- the rows of one launch -/
structure Launch where
  session : SessionRow
  flash : Option FlashRow
  java : Option JavaRow
deriving DecidableEq, Repr

/-- side rows carry the id of the session -/
def Launch.Owned (l : Launch) : Prop :=
  (∀ q ∈ l.flash, q.sessionId = l.session.id) ∧ ∀ q ∈ l.java, q.sessionId = l.session.id

/-- the rows are read back as the record, side rows carry the id of the session -/
structure Launch.Holds (l : Launch) (n : NameTables) (r : SessionRecord) : Prop where
  refers : l.session.row.Refers n ∧ (∀ q ∈ l.flash, q.row.Refers n) ∧ ∀ q ∈ l.java, q.row.Refers n
  session : ∃ timestamp, Timestamp.normalize r.timestamp = .ok timestamp ∧ ∀ flash java,
    l.session.row.record? n flash java = some { r with timestamp := timestamp, flash := flash, java := java }
  flash : l.flash.map (fun q => (q.sessionId, q.row.flashInfo? n)) = r.flash.map fun f => (l.session.id, some f)
  java : l.java.map (fun q => (q.sessionId, q.row.javaInfo? n)) = r.java.map fun j => (l.session.id, some j)

theorem Launch.Holds.owned {l : Launch} {n : NameTables} {r : SessionRecord} (h : l.Holds n r) : l.Owned := by
  constructor
  · intro q hq
    obtain ⟨f, -, hf⟩ := Option.map_eq_some_iff.1 (h.flash.symm.trans (congrArg _ hq))
    exact (congrArg Prod.fst hf).symm
  · intro q hq
    obtain ⟨j, -, hj⟩ := Option.map_eq_some_iff.1 (h.java.symm.trans (congrArg _ hq))
    exact (congrArg Prod.fst hj).symm

theorem Launch.Holds.grow {l : Launch} {n m : NameTables} {r : SessionRecord} (hg : n.Grows m) (h : l.Holds n r) :
    l.Holds m r where
  refers := ⟨h.refers.1.grow hg, fun q hq => (h.refers.2.1 q hq).grow hg, fun q hq => (h.refers.2.2 q hq).grow hg⟩
  session := by simpa only [h.refers.1.record?_eq hg] using h.session
  flash := by
    rw [← h.flash]
    exact Option.map_congr fun q hq => by rw [(h.refers.2.1 q hq).flashInfo?_eq hg]
  java := by
    rw [← h.java]
    exact Option.map_congr fun q hq => by rw [(h.refers.2.2 q hq).javaInfo?_eq hg]

namespace Batch

/-- `c` is `b` with the rows of a launch, and with more names -/
structure Records (b c : Batch) (l : Launch) : Prop where
  coherent : c.Coherent
  grows : b.store.names.Grows c.store.names
  next : nextId? b.store.lastSession = some l.session.id
  store : c.store = { b.store with
    names := c.store.names
    sessions := b.store.sessions ++ [l.session]
    lastSession := l.session.id
    flash := b.store.flash ++ l.flash.toList
    java := b.store.java ++ l.java.toList }
  stats : c.stats = ⟨b.stats.sessionsWritten + 1, b.stats.flashInfoWritten + l.flash.toList.length,
    b.stats.javaInfoWritten + l.java.toList.length, c.stats.namesCreated⟩

theorem Records.interns {b c d : Batch} {l : Launch} (h : b.Records c l) (hd : c.Interns d) : b.Records d l where
  coherent := hd.coherent
  grows := h.grows.trans hd.grows
  next := h.next
  store := by rw [hd.store, h.store]
  stats := by rw [hd.stats, h.stats]

/-- first there is the session alone -/
theorem addSession_records {b c : Batch} (hb : b.Coherent) {timestamp : String} {r : SessionRecord} {id : Int64}
    (ht : Timestamp.normalize r.timestamp = .ok timestamp) (h : b.addSession timestamp r = .ok (id, c)) :
    ∃ x, x.id = id ∧ b.Records c ⟨x, none, none⟩ ∧
      Launch.Holds ⟨x, none, none⟩ c.store.names { r with flash := none, java := none } := by
  obtain ⟨d, x, hd, hid, hnext, hrefers, hread, rfl⟩ := addSession_eq hb h
  refine ⟨x, hid, ⟨⟨hd.coherent.names, hd.coherent.known⟩, hd.grows, ?_, ?_, ?_⟩,
    ⟨⟨hrefers, (fun _ h => nomatch h), (fun _ h => nomatch h)⟩, ⟨timestamp, ht, hread⟩, rfl, rfl⟩⟩
  · rw [hd.store] at hnext
    rw [hid]
    exact hnext
  · rw [hd.store]
    simp
  · rw [hd.stats]
    simp

theorem Records.addFlash {b c d : Batch} {x : SessionRow} {r : SessionRecord} (h : b.Records c ⟨x, none, none⟩)
    (hr : Launch.Holds ⟨x, none, none⟩ c.store.names r) {f : FlashInfo} (hf : c.addFlash x.id f = .ok d) :
    ∃ q, b.Records d ⟨x, some q, none⟩ ∧ Launch.Holds ⟨x, some q, none⟩ d.store.names { r with flash := some f } := by
  obtain ⟨e, q, he, hid, hrefers, hread, rfl⟩ := addFlash_eq h.coherent hf
  have hbe := h.interns he
  have hre := hr.grow he.grows
  refine ⟨q, ⟨⟨he.coherent.names, he.coherent.known⟩, hbe.grows, hbe.next, ?_, ?_⟩,
    ⟨⟨hre.refers.1, by rintro _ ⟨⟩; exact hrefers, (fun _ h => nomatch h)⟩, hre.session, ?_, hre.java⟩⟩
  · rw [hbe.store]
    simp
  · rw [hbe.stats]
    simp
  · simp [hid, hread]

theorem Records.addJava {b c d : Batch} {x : SessionRow} {flash : Option FlashRow} {r : SessionRecord}
    (h : b.Records c ⟨x, flash, none⟩) (hr : Launch.Holds ⟨x, flash, none⟩ c.store.names r) {j : JavaInfo}
    (hj : c.addJava x.id j = .ok d) :
    ∃ q, b.Records d ⟨x, flash, some q⟩ ∧ Launch.Holds ⟨x, flash, some q⟩ d.store.names { r with java := some j } := by
  obtain ⟨e, q, he, hid, hrefers, hread, rfl⟩ := addJava_eq h.coherent hj
  have hbe := h.interns he
  have hre := hr.grow he.grows
  refine ⟨q, ⟨⟨he.coherent.names, he.coherent.known⟩, hbe.grows, hbe.next, ?_, ?_⟩,
    ⟨⟨hre.refers.1, hre.refers.2.1, by rintro _ ⟨⟩; exact hrefers⟩, hre.session, hre.flash, ?_⟩⟩
  · rw [hbe.store]
    simp
  · rw [hbe.stats]
    simp
  · simp [hid, hread]

/-- the steps for a record: the session, then the side rows it has -/
theorem addRecord_eq_bind (b : Batch) (r : SessionRecord) :
    b.addRecord r = (Timestamp.normalize r.timestamp).mapError .badTimestamp >>= fun timestamp =>
      b.addSession timestamp r >>= fun p =>
        r.flash.elim (.ok p.2) (p.2.addFlash p.1) >>= fun d => r.java.elim (.ok d) (d.addJava p.1) := by
  unfold addRecord
  cases r.flash <;> cases r.java <;> rfl

theorem addRecord_steps {b c : Batch} {r : SessionRecord} (h : b.addRecord r = .ok c) :
    ∃ timestamp id b₁ b₂, Timestamp.normalize r.timestamp = .ok timestamp ∧ b.addSession timestamp r = .ok (id, b₁) ∧
      (r.flash = none ∧ b₁ = b₂ ∨ ∃ f, r.flash = some f ∧ b₁.addFlash id f = .ok b₂) ∧
      (r.java = none ∧ b₂ = c ∨ ∃ j, r.java = some j ∧ b₂.addJava id j = .ok c) := by
  rw [addRecord_eq_bind] at h
  obtain ⟨timestamp, ht, h⟩ := bind_eq_ok.1 h
  obtain ⟨⟨id, b₁⟩, h₁, h⟩ := bind_eq_ok.1 h
  obtain ⟨b₂, h₂, h₃⟩ := bind_eq_ok.1 h
  replace ht : Timestamp.normalize r.timestamp = .ok timestamp := by
    cases hn : Timestamp.normalize r.timestamp with
    | error e => rw [hn] at ht; cases ht
    | ok t => rw [hn] at ht; exact congrArg _ (Except.ok.inj ht)
  exact ⟨timestamp, id, b₁, b₂, ht, h₁, elim_eq_ok.1 h₂, elim_eq_ok.1 h₃⟩

/-- **A record becomes one launch.** -/
theorem addRecord_eq {b c : Batch} (hb : b.Coherent) {r : SessionRecord} (h : b.addRecord r = .ok c) :
    ∃ l : Launch, b.Records c l ∧ l.Holds c.store.names r := by
  obtain ⟨timestamp, id, b₁, b₂, ht, h₁, hflash, hjava⟩ := addRecord_steps h
  obtain ⟨x, rfl, hx, hholds⟩ := addSession_records hb ht h₁
  -- the session with its side row for Flash, if there is one
  obtain ⟨flash, hrecords, hheld⟩ : ∃ flash, b.Records b₂ ⟨x, flash, none⟩ ∧
      Launch.Holds ⟨x, flash, none⟩ b₂.store.names { r with java := none } := by
    rcases hflash with ⟨hf, rfl⟩ | ⟨f, hf, h₂⟩
    · exact ⟨none, hx, by rwa [← hf] at hholds⟩
    · obtain ⟨q, hq, hq'⟩ := hx.addFlash hholds h₂
      exact ⟨some q, hq, by simpa only [← hf] using hq'⟩
  rcases hjava with ⟨hj, rfl⟩ | ⟨j, hj, h₃⟩
  · exact ⟨_, hrecords, by rwa [← hj] at hheld⟩
  · obtain ⟨q, hq, hq'⟩ := hrecords.addJava hheld h₃
    exact ⟨_, hq, by simpa only [← hj] using hq'⟩

/-! ## Adding all records -/

theorem addRecords_cons_eq_ok {b c : Batch} {index : Nat} {r : SessionRecord} {rest : List SessionRecord} :
    b.addRecords index (r :: rest) = .ok c ↔
      ∃ d, b.addRecord r = .ok d ∧ d.addRecords (index + 1) rest = .ok c := by
  rw [addRecords]
  cases b.addRecord r <;> simp

theorem addRecords_cons_eq_error {b : Batch} {index : Nat} {r : SessionRecord} {rest : List SessionRecord}
    {e : WriteError} : b.addRecords index (r :: rest) = .error e ↔
      e.index = index ∧ b.addRecord r = .error e.fault ∨
        ∃ d, b.addRecord r = .ok d ∧ d.addRecords (index + 1) rest = .error e := by
  obtain ⟨i, fault⟩ := e
  rw [addRecords]
  cases b.addRecord r <;> simp [eq_comm]

end Batch

end LaunchReports
