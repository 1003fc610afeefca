/-
What the script of the schema declares.

`Declares` reads the script: it creates a table of the name, and one of the lines between the parentheses declares a
column of the name. `declares` says that it does so for every column.
-/
import LaunchReports.Schema.Declaration
import LaunchReports.Proofs.Sql.QualifiedNames

namespace LaunchReports.Schema

open ColumnName

/-- the script creates a table of this name, one line of which declares a column of this name -/
def Declares (table column : String) : Prop :=
  ∃ lines : List String, (∀ line ∈ lines, '\n' ∉ line.toList) ∧
    ("CREATE TABLE IF NOT EXISTS " ++ table ++ " (\n" ++ ",\n".intercalate lines ++ "\n);\n").toList <:+: create.toList ∧
      ∃ line ∈ lines, ("    " ++ column ++ " ").toList <+: line.toList

/-! ## Lines -/

theorem not_mem_constraint (k : Constraint) : '\n' ∉ k.text.toList := by
  cases k with
  | references t =>
    have hname : '\n' ∉ t.name.toList := not_mem_of_isIdentifier t.isIdentifier_name (by decide)
    rw [Constraint.text, String.toList_append, String.toList_append, List.mem_append, List.mem_append]
    simp [hname]
  | primaryKey | autoPrimaryKey | notNull | unique => decide

/-- a column is declared on one line -/
theorem not_mem_columnLine (c : Column) : '\n' ∉ (columnLine c).toList := by
  have hadditive : Additive fun (text : List Char) (_ : List Unit) => '\n' ∉ text :=
    ⟨by simp, fun ha hb => by simp [ha, hb]⟩
  have hwords : '\n' ∉ (" ".intercalate
      (c.name :: (if c.holdsText then "TEXT" else "INTEGER") :: (constraints c).map Constraint.text)).toList := by
    refine hadditive.separated (by decide) ?_
    simp only [List.forall_mem_cons, List.forall_mem_map]
    refine ⟨not_mem_of_isIdentifier c.isIdentifier_name (by decide), ?_, fun k _ => not_mem_constraint k⟩
    split <;> decide
  rw [columnLine, String.toList_append, List.mem_append]
  rintro (h | h)
  · revert h
    decide
  · exact hwords h

theorem not_mem_lines (t : Table) : ∀ line ∈ t.columns.map columnLine ++ checks t, '\n' ∉ line.toList := by
  intro line hline
  rcases List.mem_append.1 hline with hline | hline
  · obtain ⟨c, -, rfl⟩ := List.mem_map.1 hline
    exact not_mem_columnLine c
  · cases t with
    | session =>
      cases List.mem_singleton.1 hline
      decide
    | side | names => cases hline

/-! ## The script -/

theorem infix_intercalate {separator p : String} {pieces : List String} (h : p ∈ pieces) :
    p.toList <:+: (separator.intercalate pieces).toList := by
  rw [String.toList_intercalate]
  induction pieces with
  | nil => cases h
  | cons q pieces ih =>
    cases pieces with
    | nil =>
      cases List.mem_singleton.1 h
      simp
    | cons r pieces =>
      rw [List.map_cons, List.map_cons, List.intercalate_cons_cons]
      rcases List.mem_cons.1 h with rfl | h
      · rw [List.append_assoc]
        exact (List.prefix_append _ _).isInfix
      · exact (ih h).trans (List.suffix_append _ _).isInfix

theorem createTable_infix (t : Table) : (createTable t).toList <:+: create.toList := by
  rw [create, String.toList_append, String.toList_append, List.append_assoc]
  exact (infix_intercalate (List.mem_map_of_mem t.mem_all)).trans (List.prefix_append _ _).isInfix

theorem prefix_columnLine (c : Column) : ("    " ++ c.name ++ " ").toList <+: (columnLine c).toList := by
  rw [columnLine, String.toList_append, String.toList_append, String.toList_append, String.toList_intercalate,
    List.map_cons, List.map_cons, List.intercalate_cons_cons, ← List.append_assoc, ← List.append_assoc]
  exact List.prefix_append _ _

/-- every column of every table is declared -/
theorem declares (c : Column) : Declares c.table.name c.name :=
  ⟨_, not_mem_lines c.table, createTable_infix c.table, columnLine c,
    List.mem_append_left _ (List.mem_map_of_mem c.mem_columns), prefix_columnLine c⟩

end LaunchReports.Schema
