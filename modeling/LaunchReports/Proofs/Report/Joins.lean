/-
What a tally joins, and what the names in its text refer to.

`Select.sources` are the tables that a statement reads, `Select.conjuncts` the texts of its conditions, and `selectText`
spells a statement with given parts. `Resolves` says of a qualified name that it is a declared column of one of the
tables.

- `compile_joins`: a tally joins each side table that a filter or the group belongs to and each name table that the group
  requires, each once and through one conjunct, and nothing else. All its qualified names resolve, and a key without a
  table is a label that no table has a column of.

`Request.conjuncts_tally` finds the one conjunct that links each joined table.
-/
import LaunchReports.Proofs.Report.Matching
import LaunchReports.Proofs.Schema.Declaration

namespace LaunchReports

open ColumnName

/-! ## Statements -/

namespace Select

/-- the tables that the statement reads -/
def sources (s : Select) : List Table := .session :: s.tables

/-- the name is that of a declared column of a table that the statement reads -/
def Resolves (s : Select) (name : ColumnName) : Prop :=
  ∃ t ∈ s.sources, name.qualifier = some t.name ∧ Schema.Declares t.name name.name

theorem resolves_reference {s : Select} {c : Column} (h : c.table ∈ s.sources) : s.Resolves c.reference :=
  ⟨c.table, h, rfl, Schema.declares c⟩

/-- the texts of the conditions -/
def conjuncts (s : Select) : List String := s.conditions.map Condition.sql

end Select

/-- a statement with these outputs, tables, conditions and keys -/
def selectText (outputs tables conjuncts keys : List String) : String :=
  "SELECT " ++ ", ".intercalate outputs ++ " FROM " ++ ", ".intercalate tables ++
    (if conjuncts = [] then ""
      else if conjuncts.length = 1 then " WHERE " ++ " AND ".intercalate conjuncts
      else " WHERE (" ++ " AND ".intercalate conjuncts ++ ")") ++
    (if keys = [] then "" else " GROUP BY " ++ ", ".intercalate keys)

theorem groupClause_eq (keys : List String) :
    groupClause keys = if keys = [] then "" else " GROUP BY " ++ ", ".intercalate keys := by
  cases keys <;> simp [groupClause]

namespace Select

theorem unordered_eq {s : Select} (h : s.distinct = false) :
    s.unordered =
      selectText s.outputSql (s.sources.map Table.name) s.conjuncts (s.keys.map GroupKey.sql) := by
  have hconjuncts : (s.conditions.map Condition.fragment).map Fragment.sql = s.conjuncts := by
    rw [conjuncts, List.map_map]
    rfl
  rw [unordered, Fragment.whereClause_eq, hconjuncts, groupClause_eq, h, selectText, sources, List.map_cons,
    intercalate_tables, if_neg Bool.false_ne_true, String.append_empty]
  simp only [String.append_assoc]

/-- only an order stands behind the keys -/
theorem exists_ending (s : Select) :
    ∃ ending, s.sql = s.unordered ++ ending ∧ (ending = "" ∨ " ORDER BY ".toList <+: ending.toList) := by
  refine ⟨_, rfl, ?_⟩
  cases s.arrangement with
  | none => exact .inl rfl
  | some a =>
    refine .inr ?_
    rw [String.toList_append, Order.clause, String.append_assoc, String.toList_append, List.append_assoc]
    exact List.prefix_append _ _

end Select

/-- the conjunct mentions the column, outside of its subquery -/
def Column.mentioned (c : Column) (conjunct : String) : Bool := c.reference ∈ qualified (outside 0 conjunct.toList)

theorem Column.mentioned_sql {column : Column} {c : Condition} : column.mentioned c.sql = decide (column ∈ c.columns) := by
  rw [mentioned, c.qualified_sql, decide_eq_decide]
  exact List.mem_map_of_injective fun _ _ => reference_injective

theorem Select.filter_mentioned (s : Select) (column : Column) :
    s.conjuncts.filter column.mentioned = (s.conditions.filter fun c => column ∈ c.columns).map Condition.sql := by
  rw [conjuncts, List.filter_map]
  congr 1
  exact List.filter_congr fun c _ => Column.mentioned_sql

theorem Condition.tables_eq (c : Condition) : c.tables = c.columns.map Column.table := by
  cases c <;> rfl

/-! ## Links -/

/-- only the link of a table mentions the key of the table -/
theorem Table.rowId_mem_columns_link {t u : Table} (ht : t ≠ .session) : t.rowId ∈ u.link.columns ↔ t = u := by
  have key : ∀ t ∈ all, t ≠ .session → ∀ u ∈ all, (t.rowId ∈ u.link.columns ↔ t = u) := by decide
  exact key t t.mem_all ht u u.mem_all

/-- a criterion asks for the column of its field -/
theorem Criterion.columns_condition {f : Field} (hf : f ∈ Field.all) {value : String} {c : Criterion}
    (h : f.criterion value = .ok c) : c.condition.columns = [f.column] := by
  rcases Request.criterion_cases h with ⟨-, comparison, -, rfl⟩ | ⟨-, rfl⟩ | ⟨target, -, rfl⟩ | ⟨hg, t, -, rfl⟩
  · rfl
  · rfl
  · rfl
  · rw [Field.eq_simType_of_grammar hf hg]
    rfl

/-- no field is the key of a table -/
theorem Field.rowId_ne_column {f : Field} (hf : f ∈ all) (t : Table) : t.rowId ≠ f.column := by
  have key : ∀ f ∈ all, ∀ t ∈ Table.all, t.rowId ≠ f.column := by decide
  exact key f hf t t.mem_all

/-- measures are over sessions -/
theorem Query.columns_measure {q : Query} {m : Measure} (h : q.measure? = some m) : ∀ c ∈ m.columns, c.table = .session := by
  cases q with
  | messageCount =>
    cases h
    simp [Measure.columns]
  | sessionCount =>
    cases h
    simp [Measure.columns, Column.table]
  | simType => cases h

/-- no key is a label with the name of a column -/
theorem Dimension.key_ne_name {name : String} {d : Dimension} (h : Dimension.grouping? name = some d) :
    ∀ k ∈ d.keys, ∀ t ∈ Table.all, ∀ c ∈ t.columns, k ≠ .label c.name := by
  have hall : ∀ d ∈ Dimension.all, ∀ k ∈ d.keys, ∀ t ∈ Table.all, ∀ c ∈ t.columns, k ≠ .label c.name := by decide
  have hfields : ∀ f ∈ Field.all, ∀ k ∈ (Dimension.ofField f).keys, ∀ t ∈ Table.all, ∀ c ∈ t.columns,
      k ≠ .label c.name := by
    intro f _ k hk t _ c _
    rw [List.mem_singleton.1 hk]
    exact nofun
  exact Dimension.forall_of_catalog hall hfields h

/-- the keys read what the dimension reads -/
theorem Dimension.Sound.columns_key {d : Dimension} (hd : d.Sound) {k : GroupKey} (hk : k ∈ d.keys) :
    ∀ c ∈ k.columns, c.table ∈ d.tables := by
  obtain ⟨e, he, hcolumns⟩ := hd.keys_read k hk
  cases k with
  | column c =>
    cases he
    exact hcolumns
  | label name => simp [GroupKey.columns]
  | expression e' =>
    cases he
    exact hcolumns

/-- a key that is a label is selected under its name -/
theorem Dimension.Sound.exists_label {d : Dimension} (hd : d.Sound) {name : String} (hk : .label name ∈ d.keys) :
    ∃ l ∈ d.labels, l.name = name := by
  obtain ⟨e, he, -⟩ := hd.keys_read _ hk
  obtain ⟨l, hl, -⟩ := Option.map_eq_some_iff.1 he
  exact ⟨l, List.mem_of_find?_eq_some hl, by simpa using List.find?_some hl⟩

namespace Request

variable {r : Request} {cs : List Criterion} {dimension : Option Dimension}

/-- no table is joined twice -/
theorem nodup_tables_tally (hd : ∀ d ∈ dimension, d.Sound) (m : Measure) (name : String)
    (arrangement : Option Arrangement) : (tally m name cs dimension arrangement).tables.Nodup := by
  have hlinks : ((links dimension).map fun l => Table.names l.target).Nodup := by
    cases dimension with
    | none => exact List.nodup_nil
    | some d =>
      have hnames := (hd d rfl).targets_nodup.map fun _ _ => Table.names.inj
      rwa [List.map_map] at hnames
  have hsides : ((sides cs dimension).map Table.side).Nodup :=
    (List.Nodup.filter _ (by decide)).map fun _ _ => Table.side.inj
  rw [(tally_eq m name cs arrangement hd).2]
  refine hlinks.append hsides fun t hnames hside => ?_
  obtain ⟨l, -, rfl⟩ := List.mem_map.1 hnames
  obtain ⟨side, -, h⟩ := List.mem_map.1 hside
  cases h

/-- the conditions that mention the key of a table: its link, if it is joined -/
theorem filter_conditions_tally (hd : r.dimension = .ok dimension) (hc : r.criteria = .ok cs) (m : Measure)
    (name : String) (arrangement : Option Arrangement) {t : Table} (ht : t ≠ .session) :
    (tally m name cs dimension arrangement).conditions.filter (fun c => t.rowId ∈ c.columns) =
      if t ∈ (tally m name cs dimension arrangement).tables then [t.link] else [] := by
  have hsound := dimension_sound hd
  have hnodup : (tally m name cs dimension arrangement).tables.Nodup := nodup_tables_tally hsound m name arrangement
  have hcriteria : ((Criterion.immediate cs).map Criterion.condition ++ (Criterion.bindings cs).map Binding.condition).filter
      (fun c => t.rowId ∈ c.columns) = [] := by
    refine List.filter_eq_nil_iff.2 fun condition hcondition => ?_
    obtain ⟨c, hmem, rfl⟩ := mem_conditions_criteria.1 hcondition
    obtain ⟨filter, -, hf, hcriterion⟩ := exists_filter_of_mem_criteria hc hmem
    simpa [Criterion.columns_condition hf hcriterion] using Field.rowId_ne_column hf t
  rw [conditions_tally hsound, List.filter_append, hcriteria, List.nil_append]
  generalize (tally m name cs dimension arrangement).tables = tables at hnodup ⊢
  have hlinks : tables.filter ((fun c : Condition => decide (t.rowId ∈ c.columns)) ∘ Table.link) =
      tables.filter fun u => u == t := by
    refine List.filter_congr fun u _ => ?_
    rw [Function.comp_apply, Bool.eq_iff_iff, decide_eq_true_iff, beq_iff_eq, eq_comm (a := u)]
    exact Table.rowId_mem_columns_link ht
  rw [List.filter_map, hlinks, List.filter_beq, hnodup.count]
  split <;> rfl

/-- the conjuncts that mention the key of a table -/
theorem conjuncts_tally (hd : r.dimension = .ok dimension) (hc : r.criteria = .ok cs) (m : Measure) (name : String)
    (arrangement : Option Arrangement) {t : Table} (ht : t ≠ .session) :
    let s := tally m name cs dimension arrangement
    s.conjuncts.filter t.rowId.mentioned = if t ∈ s.sources then [t.link.sql] else [] := by
  intro s
  have hmem : t ∈ s.sources ↔ t ∈ s.tables := by simp [Select.sources, ht]
  rw [s.filter_mentioned, filter_conditions_tally hd hc m name arrangement ht]
  simp only [hmem]
  split <;> rfl

/-- a conjunct links a table exactly when it is joined -/
theorem count_link_tally (hd : r.dimension = .ok dimension) (hc : r.criteria = .ok cs) (m : Measure) (name : String)
    (arrangement : Option Arrangement) {t : Table} (ht : t ≠ .session) :
    let s := tally m name cs dimension arrangement
    s.conjuncts.count t.link.sql = if t ∈ s.sources then 1 else 0 := by
  intro s
  have hmentioned : t.rowId.mentioned t.link.sql = true := by
    rw [Column.mentioned_sql, decide_eq_true_iff]
    exact (Table.rowId_mem_columns_link ht).2 rfl
  rw [← List.count_filter hmentioned, conjuncts_tally hd hc m name arrangement ht]
  split <;> simp

/-! ## Tables -/

/-- what an accepted request groups by -/
def grouping? (r : Request) : Option Dimension := r.group?.bind Dimension.grouping?

theorem dimension_eq (h : r.dimension = .ok dimension) : dimension = r.grouping? := by
  unfold Request.dimension at h
  unfold grouping?
  cases hg : r.group? with
  | none =>
    rw [hg] at h
    cases h
    rfl
  | some name =>
    rw [hg] at h
    dsimp only at h
    split at h
    next d hdim =>
      cases h
      exact hdim.symm
    · cases h

/-- a side table is joined when a filter or the group belongs to it -/
theorem side_mem_sources_tally (hd : r.dimension = .ok dimension) (hc : r.criteria = .ok cs) (m : Measure)
    (name : String) (arrangement : Option Arrangement) (side : SideTable) :
    .side side ∈ (tally m name cs dimension arrangement).sources ↔
      (∃ filter ∈ r.supplied, filter.1.side? = some side) ∨ ∃ d ∈ dimension, d.side = some side := by
  have hside : ∀ t : Table, t.side? = some side ↔ t = .side side := by
    intro t
    cases t <;> simp [Table.side?]
  have hfilters : (∃ c ∈ cs, c.table = .side side) ↔ ∃ filter ∈ r.supplied, filter.1.side? = some side := by
    constructor
    · rintro ⟨c, hmem, htable⟩
      obtain ⟨filter, hfilter, hf, hcriterion⟩ := exists_filter_of_mem_criteria hc hmem
      refine ⟨filter, hfilter, (hside _).2 ?_⟩
      rw [← Criterion.table_eq hf hcriterion, htable]
    · rintro ⟨filter, hfilter, hf⟩
      obtain ⟨c, hmem, hcriterion⟩ := exists_criterion_of_mem_supplied hc hfilter
      refine ⟨c, hmem, ?_⟩
      rw [Criterion.table_eq (mem_supplied.1 hfilter).1 hcriterion]
      exact (hside _).1 hf
  rw [← hfilters, ← mem_sides, Select.sources, List.mem_cons, mem_tables_tally (dimension_sound hd)]
  simp

/-- a name table is joined when the group shows its names -/
theorem names_mem_sources_tally (hd : ∀ d ∈ dimension, d.Sound) (m : Measure) (name : String)
    (arrangement : Option Arrangement) (t : NameTable) :
    .names t ∈ (tally m name cs dimension arrangement).sources ↔ ∃ d ∈ dimension, ∃ l ∈ d.links, l.target = t := by
  rw [Select.sources, List.mem_cons, mem_tables_tally hd]
  simp [eq_comm]

/-! ## Names -/

/-- no word of the catalog holds a name with a table -/
theorem qualified_words (hd : r.dimension = .ok dimension) :
    (∀ l ∈ (dimension.map Dimension.labels).getD [], ∀ w ∈ l.words, qualified w = []) ∧
      ∀ k ∈ (dimension.map Dimension.keys).getD [], ∀ w ∈ k.words, qualified w = [] := by
  have hliterals : ∀ w ∈ Dimension.literals, qualified w = [] := by decide
  exact forall_words (fun _ => qualified_of_isPlain) hliterals hd

section Names

variable (hd : r.dimension = .ok dimension) (hc : r.criteria = .ok cs) {m : Measure}
  (arrangement : Option Arrangement)

include hd

theorem resolves_outputs_tally (hm : ∀ c ∈ m.columns, c.table = .session) :
    let s := tally m r.query.key cs dimension arrangement
    ∀ output ∈ s.outputSql, ∀ name ∈ qualified output.toList, s.Resolves name := by
  intro s output ho name hn
  rcases List.mem_append.1 ho with ho | ho
  · obtain ⟨l, hl, rfl⟩ := List.mem_map.1 ho
    rw [Label.qualified_sql ((qualified_words hd).1 l hl)] at hn
    obtain ⟨c, hmem, rfl⟩ := List.mem_map.1 hn
    cases dimension with
    | none => cases hl
    | some d =>
      have hsound : d.Sound := dimension_sound hd d rfl
      exact Select.resolves_reference (tables_subset_tally hsound m _ arrangement (hsound.labels_read l hl c hmem))
  · have hkey : qualified r.query.key.toList = [] := by cases r.query <;> decide
    cases List.mem_singleton.1 ho
    rw [m.qualified_named hkey] at hn
    obtain ⟨c, hmem, rfl⟩ := List.mem_map.1 hn
    apply Select.resolves_reference
    rw [hm c hmem]
    exact List.mem_cons_self

theorem resolves_keys_tally :
    let s := tally m r.query.key cs dimension arrangement
    ∀ key ∈ s.keys.map GroupKey.sql, ∀ name ∈ qualified key.toList, s.Resolves name := by
  intro s key hkey name hn
  obtain ⟨k, hk, rfl⟩ := List.mem_map.1 hkey
  rw [GroupKey.qualified_sql ((qualified_words hd).2 k hk)] at hn
  obtain ⟨c, hmem, rfl⟩ := List.mem_map.1 hn
  cases dimension with
  | none => cases hk
  | some d =>
    have hsound : d.Sound := dimension_sound hd d rfl
    exact Select.resolves_reference (tables_subset_tally hsound m _ arrangement (hsound.columns_key hk c hmem))

/-- a key without a table is a label, and no column of any table -/
theorem bare_keys_tally :
    let s := tally m r.query.key cs dimension arrangement
    ∀ key ∈ s.keys.map GroupKey.sql, isIdentifier key.toList = true →
      (∃ output ∈ s.outputSql, (" AS " ++ key).toList <:+ output.toList) ∧
        ∀ t ∈ s.sources, key ∉ t.columns.map Column.name := by
  intro s key hkey hbare
  obtain ⟨k, hk, rfl⟩ := List.mem_map.1 hkey
  cases dimension with
  | none => cases hk
  | some d =>
    have hlabel := GroupKey.eq_label hbare
    have hmem : .label k.sql ∈ d.keys := hlabel ▸ hk
    constructor
    · obtain ⟨l, hl, hname⟩ := (dimension_sound hd d rfl).exists_label hmem
      refine ⟨l.sql, List.mem_append_left _ (List.mem_map_of_mem hl), l.expression.sql.toList, ?_⟩
      rw [← String.toList_append, ← String.append_assoc, Label.sql, hname]
    · intro t _ hcolumn
      obtain ⟨c, hc, hname⟩ := List.mem_map.1 hcolumn
      obtain ⟨name, -, hg⟩ := dimension_ok hd d rfl
      exact Dimension.key_ne_name hg _ hmem t t.mem_all c hc (by rw [hname])

include hc in
theorem resolves_conjuncts_tally :
    let s := tally m r.query.key cs dimension arrangement
    ∀ conjunct ∈ s.conjuncts, ∀ name ∈ qualified (outside 0 conjunct.toList), s.Resolves name := by
  intro s conjunct hconjunct name hn
  obtain ⟨c, hmem, rfl⟩ := List.mem_map.1 hconjunct
  rw [c.qualified_sql] at hn
  obtain ⟨column, hcolumn, rfl⟩ := List.mem_map.1 hn
  apply Select.resolves_reference
  apply (linked_tally hd hc m r.query.key arrangement).reads c hmem
  rw [c.tables_eq]
  exact List.mem_map_of_mem hcolumn

end Names

end Request

/-- **Joins are exact, and names resolve.** -/
theorem compile_joins {r : Request} {plan : Plan Aggregate} (h : r.compile = .ok plan) (hq : r.query ≠ .simType) :
    let s := plan.aggregate.select
    (∃ ending,
      s.sql = selectText s.outputSql (s.sources.map Table.name) s.conjuncts (s.keys.map GroupKey.sql) ++ ending ∧
      (ending = "" ∨ " ORDER BY ".toList <+: ending.toList)) ∧
    (s.sources.map Table.name).Nodup ∧
    (∀ side : SideTable,
      (.side side ∈ s.sources ↔
        (∃ filter ∈ r.supplied, filter.1.side? = some side) ∨ ∃ d ∈ r.grouping?, d.side = some side) ∧
      s.conjuncts.count ("session.id = " ++ (Table.side side).name ++ ".session_id") =
        if .side side ∈ s.sources then 1 else 0) ∧
    (∀ t : NameTable,
      (.names t ∈ s.sources ↔ ∃ d ∈ r.grouping?, ∃ l ∈ d.links, l.target = t) ∧
      (.names t ∈ s.sources → ∃ column : Column, column.table ∈ s.sources ∧
        s.conjuncts.filter (Column.names t .id).mentioned = [column.text ++ " = " ++ t.name ++ ".id"])) ∧
    (∀ text ∈ s.outputSql ++ s.keys.map GroupKey.sql, ∀ name ∈ qualified text.toList, s.Resolves name) ∧
    (∀ conjunct ∈ s.conjuncts, ∀ name ∈ qualified (outside 0 conjunct.toList), s.Resolves name) ∧
    ∀ key ∈ s.keys.map GroupKey.sql, isIdentifier key.toList = true →
      (∃ output ∈ s.outputSql, (" AS " ++ key).toList <:+ output.toList) ∧
        ∀ t ∈ s.sources, key ∉ t.columns.map Column.name := by
  obtain ⟨dimension, arrangement, cs, -, hd, -, -, hc, rfl⟩ := Request.compile_ok_iff.1 h
  obtain ⟨m, hm⟩ := Query.exists_measure hq
  have hcolumns := Query.columns_measure hm
  have hsound := Request.dimension_sound hd
  have hlinked := Request.linked_tally hd hc m r.query.key arrangement
  dsimp only
  rw [Request.select_eq_tally hm, ← Request.dimension_eq hd]
  refine ⟨?_, ?_, fun side => ⟨?_, ?_⟩, fun t => ⟨?_, fun ht => ?_⟩, ?_, ?_, ?_⟩
  · obtain ⟨ending, hsql, hending⟩ := (Request.tally m r.query.key cs dimension arrangement).exists_ending
    exact ⟨ending, by rw [hsql, Select.unordered_eq rfl], hending⟩
  · refine (List.nodup_cons.2 ⟨hlinked.no_session, ?_⟩).map fun _ _ => Table.name_injective
    exact Request.nodup_tables_tally hsound m r.query.key arrangement
  · exact Request.side_mem_sources_tally hd hc m r.query.key arrangement side
  · have hne : Table.side side ≠ .session := by simp
    have htext : (Table.side side).link.sql = "session.id = " ++ (Table.side side).name ++ ".session_id" := by
      cases side <;> decide
    rw [← htext]
    exact Request.count_link_tally hd hc m r.query.key arrangement hne
  · exact Request.names_mem_sources_tally hsound m r.query.key arrangement t
  · have hne : Table.names t ≠ .session := by simp
    have htext : (Table.names t).link.sql = t.column.text ++ " = " ++ t.name ++ ".id" := by
      show t.column.text ++ " = " ++ (t.name ++ "." ++ "id") = _
      simp only [String.append_assoc]
      rfl
    have hmem := (List.mem_cons.1 ht).resolve_left hne
    refine ⟨t.column, hlinked.reads _ (hlinked.links _ hmem) _ List.mem_cons_self, ?_⟩
    have hconjuncts := Request.conjuncts_tally hd hc m r.query.key arrangement hne
    rw [← htext]
    exact hconjuncts.trans (if_pos ht)
  · intro text htext
    rcases List.mem_append.1 htext with htext | htext
    · exact Request.resolves_outputs_tally hd arrangement hcolumns text htext
    · exact Request.resolves_keys_tally hd arrangement text htext
  · exact Request.resolves_conjuncts_tally hd hc arrangement
  · exact Request.bare_keys_tally hd arrangement

/-- launches with a Flash version above 10, by the system that Java reports -/
def sampleJoined : Request where
  query := .messageCount
  filters := .ofPairs [("host_flash_version_major", some "greater_than:10")]
  group := some "host_java_os"
  order := none
  limit := none

theorem compile_joins_sample :
    ∃ plan, sampleJoined.compile = .ok plan ∧
      plan.aggregate.select.sources =
        [.session, .names .javaOsName, .names .javaOsVersion, .names .javaOsArch, .side .flashInfo, .side .javaInfo] ∧
      plan.aggregate.select.conjuncts.count "session.id = session_flash_info.session_id" = 1 ∧
      (plan.aggregate.select.conjuncts.filter (Column.names .javaOsArch .id).mentioned).length = 1 := by
  have hcompile : sampleJoined.compile = .ok ⟨[], .messageCount, sampleJoined.select
      [.compares (.flash .versionMajor) (.binary .greater (.integer 10))] (some .javaOs) none⟩ := by decide
  have hquery : sampleJoined.query ≠ .simType := by decide
  have hsources : (sampleJoined.select [.compares (.flash .versionMajor) (.binary .greater (.integer 10))]
      (some .javaOs) none).sources =
        [.session, .names .javaOsName, .names .javaOsVersion, .names .javaOsArch, .side .flashInfo, .side .javaInfo] := by
    decide
  obtain ⟨-, -, hsides, hnames, -⟩ := compile_joins hcompile hquery
  have hflash := (hsides .flashInfo).2
  dsimp only at hflash
  rw [hsources, if_pos (by decide)] at hflash
  obtain ⟨column, -, harch⟩ := (hnames .javaOsArch).2 (by rw [hsources]; decide)
  exact ⟨_, hcompile, hsources, hflash, congrArg List.length harch⟩

end LaunchReports
