/-
What the names of the schema are made of.

The names of tables, columns and variables are lower case words joined by underscores (`isPlain`). All that is said of
them in texts follows from this: they are identifiers, and no character of another kind is in them.
-/
import LaunchReports.Schema.Column
import LaunchReports.Proofs.Sql.Order

namespace LaunchReports

namespace ColumnName

/-! ## Plain names -/

def inPlain (c : Char) : Bool := c.isLower || c == '_'

/-- lower case letters and underscores -/
def isPlain (name : List Char) : Bool := !name.isEmpty && name.all inPlain

variable {name : List Char}

theorem ne_nil_of_isPlain (h : isPlain name = true) : name ≠ [] := by
  rintro rfl
  cases h

theorem not_mem_of_isPlain (h : isPlain name = true) {c : Char} (hc : inPlain c = false) : c ∉ name := by
  intro hm
  rw [isPlain, Bool.and_eq_true, List.all_eq_true] at h
  rw [h.2 c hm] at hc
  cases hc

theorem isIdentifier_of_isPlain (h : isPlain name = true) : isIdentifier name = true := by
  have hstarts : ∀ c, inPlain c = true → startsIdentifier c = true := by
    intro c hc
    have hlower : c.isLower = true → c.isAlpha = true := fun h => Bool.or_eq_true_iff.2 (.inr h)
    rw [inPlain, Bool.or_eq_true] at hc
    rw [startsIdentifier, Bool.or_eq_true]
    exact hc.imp_left hlower
  have hin : ∀ c, inPlain c = true → inIdentifier c = true := by
    intro c hc
    have hstart := hstarts c hc
    rw [startsIdentifier, Bool.or_eq_true] at hstart
    rw [inIdentifier, Char.isAlphanum, Bool.or_eq_true, Bool.or_eq_true]
    exact hstart.imp_left .inl
  cases name with
  | nil => cases h
  | cons first rest =>
    rw [isPlain, Bool.and_eq_true, List.all_eq_true] at h
    rw [isIdentifier, Bool.and_eq_true, List.all_eq_true]
    exact ⟨hstarts first (h.2 first List.mem_cons_self), fun c hc => hin c (h.2 c (List.mem_cons_of_mem _ hc))⟩

end ColumnName

open ColumnName

/-! ## The names of the schema -/

theorem Table.isPlain_name (t : Table) : isPlain t.name.toList = true := by
  have key : ∀ t ∈ Table.all, isPlain t.name.toList = true := by decide
  exact key t t.mem_all

theorem Column.isPlain_name (c : Column) : isPlain c.name.toList = true := by
  have key : ∀ t ∈ Table.relations, ∀ c ∈ t.columns, isPlain c.name.toList = true := by decide
  exact forall_name (P := fun name => isPlain name.toList = true) key (by decide) c

theorem NameTable.isPlain_symbol (t : NameTable) : isPlain t.symbol.toList = true := by
  have key : ∀ t ∈ all, isPlain t.symbol.toList = true := by decide
  exact key t t.mem_all

theorem Table.isIdentifier_name (t : Table) : isIdentifier t.name.toList = true :=
  isIdentifier_of_isPlain t.isPlain_name

theorem Column.isIdentifier_name (c : Column) : isIdentifier c.name.toList = true :=
  isIdentifier_of_isPlain c.isPlain_name

end LaunchReports
