/-
What the catalog refers to: fields to columns, id columns to name tables, dimensions to both.

`NameTable.column` is the one column that holds the ids of a name table. `Dimension.Sound` says what a dimension keeps
to: it links each name table at most once and through that column, it reads only the session, its side table and the
linked name tables, and rows with the same keys show the same labels. `Dimension.grouping?_sound` says that a report
groups by no other.
-/
import LaunchReports.Catalog.Dimension

namespace LaunchReports

/-! ## Columns and name tables -/

/-- the column that holds the ids of the name table -/
def NameTable.column : NameTable → Column
  | simProject => .session .simProject
  | simName => .session .simName
  | deployment => .session .simDeployment
  | distributionTag => .session .simDistributionTag
  | simplifiedOs => .session .hostSimplifiedOs
  | flashVersionType => .flash .versionType
  | flashDomain => .flash .domain
  | flashOs => .flash .os
  | javaOsName => .java .osName
  | javaOsVersion => .java .osVersion
  | javaOsArch => .java .osArch
  | javaVendor => .java .vendor
  | javaWebstartVersion => .java .webstartVersion
  | javaTimezone => .java .timezone

theorem Column.eq_column_of_target? {c : Column} {t : NameTable} (h : c.target? = some t) : c = t.column := by
  cases c with
  | session c => cases c <;> cases h <;> rfl
  | flash c => cases c <;> cases h <;> rfl
  | java c => cases c <;> cases h <;> rfl
  | names u c => cases h

theorem NameTable.column_table_mem (t : NameTable) : t.column.table ∈ Table.relations := by cases t <;> decide

theorem SideTable.table_sessionId (s : SideTable) : s.sessionId.table = .side s := by cases s <;> rfl

theorem SideTable.mem_all (s : SideTable) : s ∈ all := by cases s <;> decide

/-! ## Fields -/

namespace Field

theorem table_mem_relations {f : Field} (h : f ∈ all) : f.column.table ∈ Table.relations := by
  revert f; decide

theorem column_of_target? {f : Field} (h : f ∈ all) {t : NameTable} (ht : f.grammar.target? = some t) :
    f.column = t.column := by
  have key : ∀ f ∈ all, ∀ t, f.grammar.target? = some t → f.column.target? = some t := by decide
  exact Column.eq_column_of_target? (key f h t ht)

/-- no two lookup fields share a name table -/
theorem nameTables_nodup : nameTables.Nodup := by decide

theorem eq_simType_of_grammar {f : Field} (h : f ∈ all) (hg : f.grammar = .simType) : f = simType := by
  revert f; decide

theorem mem_of_named? {name : String} {f : Field} (h : named? name = some f) : f ∈ all :=
  List.mem_of_find?_eq_some h

end Field

/-! ## Dimensions -/

namespace Dimension

/-- the tables that a report by the dimension can read -/
def tables (d : Dimension) : List Table :=
  .session :: (d.side.toList.map .side ++ d.links.map fun l => .names l.target)

/-- what a key is the value of; a label stands for the expression under its name -/
def keyExpression? (d : Dimension) : GroupKey → Option Expression
  | .column c => some (.column c)
  | .label name => (d.labels.find? fun l => l.name = name).map Label.expression
  | .expression e => some e

/-- the label is itself a key, or shows names whose ids are keys -/
def Determines (d : Dimension) (l : Label) : Prop :=
  (∃ k ∈ d.keys, d.keyExpression? k = some l.expression) ∨
    ∀ c ∈ l.expression.columns, ∃ t ∈ NameTable.all, c = .names t .name ∧ .column t.column ∈ d.keys

instance (d : Dimension) (l : Label) : Decidable (d.Determines l) := by
  unfold Determines; infer_instance

structure Sound (d : Dimension) : Prop where
  targets_nodup : (d.links.map NameLink.target).Nodup
  links_column : ∀ l ∈ d.links, l.column = l.target.column
  links_table : ∀ l ∈ d.links, l.column.table ∈ .session :: d.side.toList.map .side
  labels_read : ∀ l ∈ d.labels, ∀ c ∈ l.expression.columns, c.table ∈ d.tables
  keys_read : ∀ k ∈ d.keys, ∃ e, d.keyExpression? k = some e ∧ ∀ c ∈ e.columns, c.table ∈ d.tables
  keys_some : d.keys ≠ []
  determined : ∀ l ∈ d.labels, d.Determines l

theorem all_sound : ∀ d ∈ all, d.Sound := by
  intro d h
  constructor
  · revert d; decide
  · revert d; decide
  · revert d; decide
  · revert d; decide
  · have key : ∀ d ∈ all, ∀ k ∈ d.keys, ((d.keyExpression? k).any fun e => e.columns.all fun c => c.table ∈ d.tables) := by
      decide
    intro k hk
    obtain ⟨e, he, hc⟩ := (Option.any_eq_true _ _).1 (key d h k hk)
    exact ⟨e, he, by simpa using hc⟩
  · revert d; decide
  · revert d; decide

theorem ofField_sound {f : Field} (h : f ∈ Field.all) : (ofField f).Sound := by
  have hread : f.column.table ∈ (ofField f).tables := by revert f; decide
  constructor
  · exact List.nodup_nil
  · simp [ofField, ofExpression]
  · simp [ofField, ofExpression]
  · simpa [ofField, ofExpression, Expression.columns] using hread
  · simpa [ofField, ofExpression, Expression.columns, keyExpression?] using hread
  · simp [ofField, ofExpression]
  · simp [ofField, ofExpression, Determines, keyExpression?]

/-- a report groups by a dimension of the catalog or by a field -/
theorem grouping?_cases {name : String} {d : Dimension} (h : grouping? name = some d) :
    d ∈ all ∨ ∃ f ∈ Field.all, d = ofField f := by
  unfold grouping? at h
  cases hn : named? name with
  | some e =>
    rw [hn] at h
    cases h
    exact .inl (List.mem_of_find?_eq_some hn)
  | none =>
    rw [hn] at h
    obtain ⟨f, hf, rfl⟩ := Option.map_eq_some_iff.1 h
    exact .inr ⟨f, Field.mem_of_named? hf, rfl⟩

/-- what is true of the dimensions of the catalog and of the fields is true of whatever a report groups by -/
theorem forall_of_catalog {P : Dimension → Prop} (hall : ∀ d ∈ all, P d) (hfields : ∀ f ∈ Field.all, P (ofField f))
    {name : String} {d : Dimension} (h : grouping? name = some d) : P d := by
  rcases grouping?_cases h with hd | ⟨f, hf, rfl⟩
  · exact hall d hd
  · exact hfields f hf

theorem grouping?_sound {name : String} {d : Dimension} (h : grouping? name = some d) : d.Sound :=
  forall_of_catalog all_sound (fun _ => ofField_sound) h

end Dimension

end LaunchReports
