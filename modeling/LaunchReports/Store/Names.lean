/-
Name tables: names with ids, handed out in increasing order.

A table remembers the highest id that it ever took. Interning a name takes the next id even if the name is there and
keeps its old one, so ids may be skipped. There is no next id after the last one of 64 bits.

`id?_intern` says that interning a name sets its id and changes no other.
-/
import LaunchReports.Schema.Table

namespace LaunchReports

structure NameRow where
  id : Int64
  name : String
deriving DecidableEq, Repr

structure Names where
  rows : List NameRow
  /-- the highest id that was taken -/
  last : Int64
deriving DecidableEq, Repr

/-- the id of a name, and whether it is new -/
structure Interned where
  id : Int64
  isNew : Bool
deriving DecidableEq, Repr

/-- one above the last id, while there is one -/
def nextId? (last : Int64) : Option Int64 := if last = Int64.maxValue then none else some (last + 1)

namespace Names

def empty : Names := ⟨[], 0⟩

def id? (t : Names) (name : String) : Option Int64 := (t.rows.find? fun r => r.name = name).map NameRow.id

def name? (t : Names) (id : Int64) : Option String := (t.rows.find? fun r => r.id = id).map NameRow.name

/-- takes an id for the name; nothing once the ids are used up -/
def intern? (t : Names) (name : String) : Option (Names × Interned) :=
  (nextId? t.last).map fun fresh =>
    match t.id? name with
    | some id => ({ t with last := fresh }, ⟨id, false⟩)
    | none => (⟨t.rows ++ [⟨fresh, name⟩], fresh⟩, ⟨fresh, true⟩)

theorem id?_intern {t u : Names} {name other : String} {i : Interned} (h : t.intern? name = some (u, i)) :
    u.id? other = if other = name then some i.id else t.id? other := by
  obtain ⟨fresh, -, hu⟩ := Option.map_eq_some_iff.1 h
  cases hid : t.id? name with
  | some id =>
    rw [hid] at hu
    cases hu
    by_cases ho : other = name
    · rw [if_pos ho, ho]; exact hid
    · rw [if_neg ho]; rfl
  | none =>
    rw [hid] at hu
    cases hu
    have hnone : t.rows.find? (fun r => r.name = name) = none := Option.map_eq_none_iff.1 hid
    by_cases ho : other = name
    · subst ho
      rw [if_pos rfl]
      simp [id?, List.find?_append, hnone]
    · rw [if_neg ho]
      have : ¬ name = other := fun e => ho e.symm
      simp [id?, List.find?_append, this]

end Names

/-! ## All name tables -/

def NameTable.index : NameTable → Fin 14
  | .simProject => 0
  | .simName => 1
  | .deployment => 2
  | .distributionTag => 3
  | .simplifiedOs => 4
  | .flashVersionType => 5
  | .flashDomain => 6
  | .flashOs => 7
  | .javaOsName => 8
  | .javaOsVersion => 9
  | .javaOsArch => 10
  | .javaVendor => 11
  | .javaWebstartVersion => 12
  | .javaTimezone => 13

theorem NameTable.index_injective {t u : NameTable} (h : t.index = u.index) : t = u := by
  revert h; cases t <;> cases u <;> decide

/-- one `Names` a name table -/
structure NameTables where
  tables : Vector Names 14
deriving DecidableEq, Repr

namespace NameTables

def empty : NameTables := ⟨Vector.replicate 14 .empty⟩

def get (n : NameTables) (t : NameTable) : Names := n.tables[t.index]

def set (n : NameTables) (t : NameTable) (names : Names) : NameTables := ⟨n.tables.set t.index names⟩

theorem get_set (n : NameTables) (t u : NameTable) (names : Names) :
    (n.set t names).get u = if u = t then names else n.get u := by
  by_cases h : u = t
  · subst h
    simp [get, set]
  · have : t.index.val ≠ u.index.val := fun e => h (NameTable.index_injective (Fin.ext e)).symm
    simp [get, set, h, Vector.getElem_set_ne _ _ this]

end NameTables

end LaunchReports
