/-
Names and their ids, as an import takes them up.

- `Names.Sound`: no name and no id of a name table is there twice, and no id is above the highest one taken.
- `Batch.Coherent`: the name tables are sound, and every id that the import remembers is that of its name.

`Batch.Interns` relates an import to itself after some names: the name tables have rows behind the old ones, as many as
were counted, and nothing else is different. `nameId_interns` is the step for a name.
-/
import Mathlib.Algebra.BigOperators.Group.List.Basic
import Mathlib.Algebra.Ring.Nat
import LaunchReports.Proofs.Text.Keys
import LaunchReports.Store.Import

namespace LaunchReports

/-! ## Name tables -/

theorem toInt_nextId? {last id : Int64} (h : nextId? last = some id) : id.toInt = last.toInt + 1 := by
  unfold nextId? at h
  split at h
  · cases h
  · next hmax =>
    cases h
    have hle := last.toInt_le
    have hge := last.le_toInt
    have hne : last.toInt ≠ Int64.maxValue.toInt := fun e => hmax (Int64.toInt_inj.1 e)
    have htop : Int64.maxValue.toInt = 2 ^ 63 - 1 := rfl
    rw [Int64.toInt_add, show (1 : Int64).toInt = 1 from rfl]
    apply Int.bmod_eq_of_le <;> omega

namespace Names

structure Sound (n : Names) : Prop where
  names_nodup : (n.rows.map NameRow.name).Nodup
  ids_nodup : (n.rows.map NameRow.id).Nodup
  ids_le : ∀ r ∈ n.rows, r.id.toInt ≤ n.last.toInt

theorem sound_empty : empty.Sound := ⟨List.nodup_nil, List.nodup_nil, fun _ h => nomatch h⟩

theorem mem_of_id? {n : Names} {name : String} {id : Int64} (h : n.id? name = some id) : ⟨id, name⟩ ∈ n.rows := by
  obtain ⟨r, hr, rfl⟩ := Option.map_eq_some_iff.1 h
  have hname : r.name = name := by simpa using List.find?_some hr
  exact hname ▸ List.mem_of_find?_eq_some hr

theorem Sound.id?_of_mem {n : Names} (h : n.Sound) {r : NameRow} (hr : r ∈ n.rows) : n.id? r.name = some r.id := by
  rw [id?, (find?_key_eq_some h.names_nodup).2 ⟨hr, rfl⟩]
  rfl

theorem Sound.name?_of_mem {n : Names} (h : n.Sound) {r : NameRow} (hr : r ∈ n.rows) : n.name? r.id = some r.name := by
  rw [name?, (find?_key_eq_some h.ids_nodup).2 ⟨hr, rfl⟩]
  rfl

/-- an id is new or that of the row with the name; rows only come to the end -/
theorem intern?_rows {n m : Names} {name : String} {i : Interned} (h : n.intern? name = some (m, i)) :
    n.last.toInt < m.last.toInt ∧
      (m.rows = n.rows ∧ i.isNew = false ∨
        m.rows = n.rows ++ [⟨i.id, name⟩] ∧ i.isNew = true ∧ i.id = m.last ∧ n.id? name = none) := by
  obtain ⟨fresh, hf, h⟩ := Option.map_eq_some_iff.1 h
  have hnext := toInt_nextId? hf
  cases hid : n.id? name with
  | some id => rw [hid] at h; cases h; exact ⟨by simp only; omega, .inl ⟨rfl, rfl⟩⟩
  | none => rw [hid] at h; cases h; exact ⟨by simp only; omega, .inr ⟨rfl, rfl, rfl, rfl⟩⟩

theorem Sound.intern {n m : Names} (hn : n.Sound) {name : String} {i : Interned} (h : n.intern? name = some (m, i)) :
    m.Sound := by
  obtain ⟨hlast, ⟨hrows, -⟩ | ⟨hrows, -, hid, hnone⟩⟩ := intern?_rows h
  · refine ⟨hrows ▸ hn.names_nodup, hrows ▸ hn.ids_nodup, fun r hr => ?_⟩
    have := hn.ids_le r (hrows ▸ hr)
    omega
  · have hname : ∀ r ∈ n.rows, r.name ≠ name := by
      intro r hr e
      rw [← e, hn.id?_of_mem hr] at hnone
      cases hnone
    have hfresh : ∀ r ∈ n.rows, r.id ≠ i.id := by
      intro r hr e
      have := hn.ids_le r hr
      rw [e, hid] at this
      omega
    refine ⟨hrows ▸ nodup_map_snoc hn.names_nodup hname, hrows ▸ nodup_map_snoc hn.ids_nodup hfresh, fun r hr => ?_⟩
    rw [hrows] at hr
    rcases List.mem_append.1 hr with hr | hr
    · have := hn.ids_le r hr
      omega
    · rw [List.mem_singleton.1 hr]
      exact Int.le_of_eq (congrArg Int64.toInt hid)

end Names

namespace NameTables

/-- no table of `m` lacks a row of `n`, nor has rows but behind those of `n` -/
def Grows (n m : NameTables) : Prop := ∀ t, (n.get t).rows <+: (m.get t).rows

theorem Grows.refl (n : NameTables) : n.Grows n := fun _ => List.prefix_rfl

theorem Grows.trans {n m k : NameTables} (h : n.Grows m) (g : m.Grows k) : n.Grows k := fun t => (h t).trans (g t)

/-- names keep their ids -/
theorem Grows.id?_eq {n m : NameTables} (h : n.Grows m) {t : NameTable} {name : String} {id : Int64}
    (hid : (n.get t).id? name = some id) : (m.get t).id? name = some id := by
  obtain ⟨more, hrows⟩ := h t
  obtain ⟨r, hr, rfl⟩ := Option.map_eq_some_iff.1 hid
  rw [Names.id?, ← hrows, List.find?_append, hr]
  rfl

/-- the rows of all tables -/
def size (n : NameTables) : Nat := (NameTable.all.map fun t => (n.get t).rows.length).sum

theorem get_empty (t : NameTable) : empty.get t = .empty := by cases t <;> rfl

/-! ### Interning in one of the tables -/

variable {n : NameTables} {t : NameTable} {m : Names} {name : String} {i : Interned}

theorem sound_set (hn : ∀ u, (n.get u).Sound) (h : (n.get t).intern? name = some (m, i)) (u : NameTable) :
    ((n.set t m).get u).Sound := by
  rw [get_set]
  split
  · exact (hn t).intern h
  · exact hn u

theorem grows_set (h : (n.get t).intern? name = some (m, i)) : n.Grows (n.set t m) := by
  intro u
  rw [get_set]
  split
  · next hu =>
    subst hu
    rcases (Names.intern?_rows h).2 with ⟨hrows, -⟩ | ⟨hrows, -⟩
    · exact ⟨[], by rw [List.append_nil, hrows]⟩
    · exact ⟨_, hrows.symm⟩
  · exact List.prefix_rfl

theorem id?_set (h : (n.get t).intern? name = some (m, i)) (u : NameTable) (other : String) :
    ((n.set t m).get u).id? other = if (u, other) = (t, name) then some i.id else (n.get u).id? other := by
  rw [get_set]
  by_cases hu : u = t
  · rw [if_pos hu, Names.id?_intern h, hu]
    by_cases ho : other = name <;> simp [ho]
  · rw [if_neg hu, if_neg fun e => hu (Prod.mk.inj e).1]

/-- a name that is new is one row more -/
theorem size_set (h : (n.get t).intern? name = some (m, i)) : (n.set t m).size = n.size + if i.isNew then 1 else 0 := by
  have hlength : m.rows.length = (n.get t).rows.length + if i.isNew then 1 else 0 := by
    rcases (Names.intern?_rows h).2 with ⟨hrows, hnew⟩ | ⟨hrows, hnew, -⟩ <;> simp [hrows, hnew]
  have hget : ∀ u, ((n.set t m).get u).rows.length =
      (n.get u).rows.length + if u = t then (if i.isNew then 1 else 0) else 0 := by
    intro u
    rw [get_set]
    split
    · next hu => rw [hlength, hu]
    · rfl
  have honce : (NameTable.all.map fun u => if u = t then (if i.isNew then 1 else 0) else 0).sum =
      if i.isNew then 1 else 0 := by
    cases t <;> simp [NameTable.all]
  rw [size, size, List.map_congr_left fun u _ => hget u, List.sum_map_add, honce]

end NameTables

/-! ## Names of an import -/

namespace Batch

/-- what the import remembers is in sound name tables -/
structure Coherent (b : Batch) : Prop where
  names : ∀ t, (b.store.names.get t).Sound
  known : ∀ p ∈ b.known, (b.store.names.get p.1.1).id? p.1.2 = some p.2

/-- `c` is `b` with more names -/
structure Interns (b c : Batch) : Prop where
  coherent : c.Coherent
  store : c.store = { b.store with names := c.store.names }
  grows : b.store.names.Grows c.store.names
  stats : c.stats = { b.stats with namesCreated := c.stats.namesCreated }
  created : c.stats.namesCreated + b.store.names.size = b.stats.namesCreated + c.store.names.size

theorem Interns.refl {b : Batch} (h : b.Coherent) : b.Interns b := ⟨h, rfl, .refl _, rfl, rfl⟩

theorem Interns.trans {b c d : Batch} (h : b.Interns c) (g : c.Interns d) : b.Interns d where
  coherent := g.coherent
  store := by rw [g.store, h.store]
  grows := h.grows.trans g.grows
  stats := by rw [g.stats, h.stats]
  created := by
    have := h.created
    have := g.created
    omega

/-- the id and the name share a row of the table, or there is neither -/
def Stands (n : NameTables) (t : NameTable) : Option String → Option Int64 → Prop
  | some name, some id => ⟨id, name⟩ ∈ (n.get t).rows
  | none, none => True
  | _, _ => False

theorem Stands.grow {n m : NameTables} (hg : n.Grows m) {t : NameTable} {name : Option String} {id : Option Int64}
    (h : Stands n t name id) : Stands m t name id := by
  cases name <;> cases id
  · trivial
  · cases h
  · cases h
  · exact (hg t).subset h

/-- interning a name only touches its table -/
theorem nameId_interns {b c : Batch} (hb : b.Coherent) {t : NameTable} {name : String} {id : Int64}
    (h : b.nameId t name = .ok (id, c)) : b.Interns c ∧ Stands c.store.names t (some name) (some id) := by
  unfold nameId at h
  cases hk : b.known.lookup (t, name) with
  | some known =>
    rw [hk] at h
    cases h
    exact ⟨.refl hb, Names.mem_of_id? (hb.known _ (mem_of_lookup hk))⟩
  | none =>
    rw [hk] at h
    cases hi : (b.store.names.get t).intern? name with
    | none => rw [hi] at h; cases h
    | some p =>
      obtain ⟨names, interned⟩ := p
      rw [hi] at h
      cases h
      have hid := NameTables.id?_set hi
      refine ⟨⟨⟨NameTables.sound_set hb.names hi, fun p hp => ?_⟩, rfl, NameTables.grows_set hi, rfl, ?_⟩, ?_⟩
      · -- the name was not remembered before, and interning it leaves the others as they are
        dsimp only
        rw [hid]
        rcases List.mem_cons.1 hp with rfl | hp
        · rw [if_pos rfl]
        · rw [if_neg, hb.known p hp]
          rintro he
          exact absurd hp (by simpa [← he] using List.lookup_eq_none_iff.1 hk p)
      · dsimp only
        rw [NameTables.size_set hi]
        omega
      · exact Names.mem_of_id? (by rw [hid, if_pos rfl])

theorem nameId?_interns {b c : Batch} (hb : b.Coherent) {t : NameTable} {name : Option String} {id : Option Int64}
    (h : b.nameId? t name = .ok (id, c)) : b.Interns c ∧ Stands c.store.names t name id := by
  cases name with
  | none => cases h; exact ⟨.refl hb, trivial⟩
  | some name =>
    rw [nameId?] at h
    cases hn : b.nameId t name with
    | error e => rw [hn] at h; cases h
    | ok p => rw [hn] at h; cases h; exact nameId_interns hb hn

end Batch

end LaunchReports
