/-
When a session matches a request, without conditions, joins or variables.

- `Field.Accepts`: a cell satisfies a supplied value. Comparisons are false on `NULL`, apart from the test for it; a name
  is satisfied by the id of its row.
- `Store.Matches`: the session has a row in the table of the field, and its cell satisfies the value.
- `Dimension.Covers`: the session has what a dimension needs.
- `Request.admits_tally`: the statement of a report, with the variables that its lookups set, is over exactly the
  sessions that match every supplied filter and have what the dimension needs.

`Criterion.holds_iff` is the equivalence for one filter.
-/
import LaunchReports.Proofs.Report.Compilation
import LaunchReports.Proofs.Store.Joining

namespace LaunchReports

/-! ## Cells -/

/-- the cell satisfies the comparison; only a test for `NULL` is satisfied by it -/
def Comparison.Accepts (column : Column) (cell : Value) : Comparison → Prop
  | isNull => cell = .null
  | isNotNull => cell ≠ .null
  | binary op operand => cell ≠ .null ∧ op.accepts (cell.order (operand.operandFor column)) = true

instance (column : Column) (cell : Value) (c : Comparison) : Decidable (c.Accepts column cell) := by
  unfold Comparison.Accepts; split <;> infer_instance

/-- the cell satisfies what is supplied for the field -/
def Field.Accepts (f : Field) (n : NameTables) (value : String) (cell : Value) : Prop :=
  match f.grammar with
  | .numeric =>
    match Comparison.parseNumeric value.toList with
    | .ok c => c.Accepts f.column cell
    | .error _ => False
  | .text => (Comparison.parseText value.toList).Accepts f.column cell
  | .lookup t => ∃ row ∈ (n.get t).rows, row.name = value ∧ cell = .integer row.id
  | .simType => value = "java" ∧ cell = .integer 0 ∨ value = "flash" ∧ cell ≠ .integer 0

instance (f : Field) (n : NameTables) (value : String) (cell : Value) : Decidable (f.Accepts n value cell) := by
  unfold Field.Accepts
  split
  · split <;> infer_instance
  all_goals infer_instance

/-! ## Sessions -/

/-- the session has a row in the table of the column, with a cell as asked for -/
def Store.Has (s : Store) (x : SessionRow) (c : Column) (P : Value → Prop) : Prop :=
  ∃ row ∈ s.rows c.table, row c.table.rowId = .integer x.id ∧ P (row c)

instance (s : Store) (x : SessionRow) (c : Column) (P : Value → Prop) [DecidablePred P] : Decidable (s.Has x c P) := by
  unfold Store.Has; infer_instance

/-- the session matches a supplied filter -/
def Store.Matches (s : Store) (x : SessionRow) (filter : Field × String) : Prop :=
  s.Has x filter.1.column (filter.1.Accepts s.names filter.2)

instance (s : Store) (x : SessionRow) (filter : Field × String) : Decidable (s.Matches x filter) := by
  unfold Store.Matches; infer_instance

/-- the session has a row in the side table of the dimension, and names in all linked columns -/
def Dimension.Covers (d : Dimension) (s : Store) (x : SessionRow) : Prop :=
  (∀ side ∈ d.side.toList, x.id ∈ s.sideIds side) ∧ ∀ l ∈ d.links, s.Has x l.column (· ≠ .null)

instance (d : Dimension) (s : Store) (x : SessionRow) : Decidable (d.Covers s x) := by
  unfold Dimension.Covers; infer_instance

/-- the session belongs into the report -/
def Request.Eligible (r : Request) (dimension : Option Dimension) (s : Store) (x : SessionRow) : Prop :=
  (∀ filter ∈ r.supplied, s.Matches x filter) ∧ ∀ d ∈ dimension.toList, d.Covers s x

instance (r : Request) (dimension : Option Dimension) (s : Store) (x : SessionRow) :
    Decidable (r.Eligible dimension s x) := by
  unfold Request.Eligible; infer_instance

/-! ## Rows of a session -/

namespace Store

variable {s : Store} {x : SessionRow}

theorem Sound.relation?_eq_some (hs : s.Sound) (hx : x ∈ s.sessions) {t : Table} (ht : t ∈ Table.relations) {row : Row} :
    s.relation? x t = some row ↔ row ∈ s.rows t ∧ row t.rowId = .integer x.id := by
  cases t with
  | session =>
    constructor
    · intro h
      cases h
      exact ⟨List.mem_map_of_mem hx, rfl⟩
    · rintro ⟨hrow, hid⟩
      obtain ⟨y, hy, rfl⟩ := List.mem_map.1 hrow
      rw [relation?, List.inj_on_of_nodup_map hs.sessions_nodup hx hy (Value.integer.inj hid).symm]
  | side side => exact find?_key_eq_some (hs.keys_nodup (.side side))
  | names t => simp [Table.relations] at ht

theorem partner?_eq_relation? (s : Store) (x : SessionRow) {t : Table} (ht : t ∈ Table.relations) :
    s.partner? x t = s.relation? x t := by
  cases t with
  | session | side => rfl
  | names t => simp [Table.relations] at ht

/-- a row a session is there, apart from side rows -/
theorem partner?_isSome (s : Store) (x : SessionRow) {t : Table} (ht : t ∈ Table.relations)
    (hside : ∀ side, t = .side side → (s.partner? x (.side side)).isSome) : (s.partner? x t).isSome := by
  cases t with
  | session => rfl
  | side side => exact hside side rfl
  | names t => simp [Table.relations] at ht

theorem Sound.has_iff (hs : s.Sound) (hx : x ∈ s.sessions) {c : Column} (hc : c.table ∈ Table.relations)
    {P : Value → Prop} : s.Has x c P ↔ (s.partner? x c.table).isSome ∧ P (s.view x c) := by
  rw [view, partner?_eq_relation? s x hc]
  constructor
  · rintro ⟨row, hrow, hid, hP⟩
    rw [(hs.relation?_eq_some hx hc).2 ⟨hrow, hid⟩]
    exact ⟨rfl, hP⟩
  · rintro ⟨hsome, hP⟩
    obtain ⟨row, hrow⟩ := Option.isSome_iff_exists.1 hsome
    rw [hrow] at hP
    obtain ⟨hmem, hid⟩ := (hs.relation?_eq_some hx hc).1 hrow
    exact ⟨row, hmem, hid, hP⟩

theorem mem_sideIds_iff (s : Store) (x : SessionRow) (side : SideTable) :
    x.id ∈ s.sideIds side ↔ (s.partner? x (.side side)).isSome := by
  rw [partner?_eq_relation? s x (by cases side <;> decide), relation?, List.find?_isSome]
  cases side <;> simp [sideIds, rows, SideTable.sessionId, FlashRow.row, FlashRow.cell, JavaRow.row, JavaRow.cell]

/-- a linked name is there when the id is not `NULL` -/
theorem Sound.names_isSome_iff (hs : s.Sound) (hx : x ∈ s.sessions) (t : NameTable) :
    (s.partner? x (.names t)).isSome ↔ s.view x t.column ≠ .null := by
  rw [partner?_eq_find? s x (by simp), List.find?_isSome]
  constructor
  · rintro ⟨q, hq, hkey⟩ hnull
    obtain ⟨n, hn⟩ := s.rowId_integer _ q hq
    rw [decide_eq_true_iff, Table.anchor, hnull, hn] at hkey
    cases hkey
  · intro hview
    rw [view_eq_cell s x t.column_table_mem] at hview
    obtain ⟨n, hn, hid⟩ := (hs.cell_refers hx t).resolve_left hview
    refine ⟨n.row t, List.mem_map_of_mem hn, ?_⟩
    rw [decide_eq_true_iff, Table.anchor, view_eq_cell s x t.column_table_mem, hid]
    simp [NameRow.row, Table.rowId, NameRow.cell]

/-- the row that goes with a session meets its link -/
theorem holds_link {t : Table} (h : (s.partner? x t).isSome) (v : Variables) :
    t.link.holds v (s.view x) = true := by
  obtain ⟨n, hanchor, hkey⟩ : ∃ n, s.view x t.anchor = .integer n ∧ s.view x t.rowId = .integer n := by
    by_cases ht : t = .session
    · subst ht
      exact ⟨x.id, rfl, rfl⟩
    · obtain ⟨q, hq⟩ := Option.isSome_iff_exists.1 h
      have hrow : s.view x t.rowId = q t.rowId := by rw [view, t.table_rowId, hq]; rfl
      rw [partner?_eq_find? s x ht] at hq
      obtain ⟨n, hn⟩ := s.rowId_integer t q (List.mem_of_find?_eq_some hq)
      have hfound : q t.rowId = s.view x t.anchor := by simpa using List.find?_some hq
      exact ⟨n, by rw [← hfound, hn], by rw [hrow, hn]⟩
  rw [Condition.holds, Table.link, Condition.truth, hanchor, hkey, decide_eq_true_iff]
  exact (Value.equal_integer (.inr ⟨n, rfl⟩)).2 rfl

end Store

/-! ## Comparisons -/

theorem Value.numeral?_ne_null {s : String} {v : Value} (h : numeral? s = some v) : v ≠ .null := by
  unfold numeral? at h
  dsimp only at h
  split at h
  · cases h
    simp
  · obtain ⟨l, -, rfl⟩ := Option.map_eq_some_iff.1 h
    simp

theorem Value.operandFor_ne_null {operand : Value} (h : operand ≠ .null) (c : Column) : operand.operandFor c ≠ .null := by
  cases operand with
  | null => contradiction
  | text s =>
    show (if c.holdsText then text s else (numeral? s).getD (text s)) ≠ .null
    split
    · exact h
    · cases hn : numeral? s with
      | some v => exact numeral?_ne_null hn
      | none => exact h
  | integer n | real x | blob b => exact h

namespace Comparison

/-- a comparison that some cell can satisfy -/
def HasOperand : Comparison → Prop
  | binary _ operand => operand ≠ .null
  | _ => True

theorem truth_eq_some_true {c : Comparison} (h : c.HasOperand) (column : Column) (cell : Value) :
    c.truth column cell = some true ↔ c.Accepts column cell := by
  cases c with
  | isNull => simp [truth, Accepts]
  | isNotNull => simp [truth, Accepts]
  | binary op operand =>
    simp only [truth, Accepts, Operator.compare, Value.operandFor_ne_null h column, or_false]
    by_cases hcell : cell = .null <;> simp [hcell]

theorem hasOperand_of_nullTest? {value : List Char} {c : Comparison} (h : nullTest? value = some c) : c.HasOperand := by
  unfold nullTest? at h
  split at h
  · cases h; trivial
  · split at h
    · cases h; trivial
    · cases h

theorem hasOperand_parseNumeric {value : List Char} {c : Comparison} (h : parseNumeric value = .ok c) : c.HasOperand := by
  unfold parseNumeric at h
  cases hn : nullTest? value with
  | some d => rw [hn] at h; cases h; exact hasOperand_of_nullTest? hn
  | none =>
    simp only [hn] at h
    cases ho : number? (splitOperator value).2 with
    | none => rw [ho] at h; cases h
    | some operand =>
      rw [ho] at h
      cases h
      rintro rfl
      unfold number? at ho
      split at ho
      · cases ho
      · simp at ho

theorem hasOperand_parseText (value : List Char) : (parseText value).HasOperand := by
  unfold parseText
  cases hn : nullTest? value with
  | some c => exact hasOperand_of_nullTest? hn
  | none => exact fun e => nomatch e

end Comparison

/-! ## Criteria -/

/-- the criterion of a field asks for a cell of its column -/
theorem Criterion.table_eq {f : Field} (hf : f ∈ Field.all) {value : String} {c : Criterion}
    (h : f.criterion value = .ok c) : c.table = f.column.table := by
  rcases Request.criterion_cases h with ⟨-, comparison, -, rfl⟩ | ⟨-, rfl⟩ | ⟨target, -, rfl⟩ | ⟨hg, t, -, rfl⟩
  · rfl
  · rfl
  · rfl
  · rw [Field.eq_simType_of_grammar hf hg]
    rfl

/-- a variable that holds the id of a name, or `NULL`, picks the sessions with this name -/
theorem Store.Sound.refersTo_iff {s : Store} (hs : s.Sound) {x : SessionRow} (hx : x ∈ s.sessions) {v : Variables}
    {b : Binding} (hv : v.value b.target = Attached.lookup s b) (hcolumn : b.column = b.target.column) :
    b.condition.holds v (s.view x) = true ↔
      ∃ row ∈ (s.names.get b.target).rows, row.name = b.name ∧ s.view x b.column = .integer row.id := by
  have hcell := hs.view_anchor hx (.names b.target)
  rw [Condition.holds, Binding.condition, Condition.truth, hv, hcolumn, decide_eq_true_iff]
  rw [Table.anchor] at hcell
  cases hid : (s.names.get b.target).id? b.name with
  | none =>
    have hnull : Operator.equal.compare (s.view x b.target.column) (Attached.lookup s b) = none := by
      simp [Attached.lookup, Value.ofInteger?, hid, Operator.compare]
    rw [hnull]
    constructor
    · intro h
      cases h
    · rintro ⟨row, hrow, hname, -⟩
      rw [← hname, (hs.names b.target).id?_of_mem hrow] at hid
      cases hid
  | some id =>
    have hlookup : Attached.lookup s b = .integer id := by simp [Attached.lookup, Value.ofInteger?, hid]
    rw [hlookup, Value.equal_integer hcell]
    constructor
    · intro h
      exact ⟨_, Names.mem_of_id? hid, rfl, h⟩
    · rintro ⟨row, hrow, hname, h⟩
      rw [← hname, (hs.names b.target).id?_of_mem hrow] at hid
      rw [h, Option.some.inj hid]

theorem Criterion.holds_iff {s : Store} (hs : s.Sound) {x : SessionRow} (hx : x ∈ s.sessions) {v : Variables}
    {f : Field} (hf : f ∈ Field.all) {value : String} {c : Criterion} (hc : f.criterion value = .ok c)
    (hv : ∀ b, c.binding? = some b → v.value b.target = Attached.lookup s b) :
    c.condition.holds v (s.view x) = true ↔ f.Accepts s.names value (s.view x f.column) := by
  unfold Field.Accepts
  rcases Request.criterion_cases hc with ⟨hg, comparison, hread, rfl⟩ | ⟨hg, rfl⟩ | ⟨t, hg, rfl⟩ | ⟨hg, t, hname, rfl⟩
  · simp only [hg, hread]
    rw [condition, Condition.holds, Condition.truth, decide_eq_true_iff]
    exact Comparison.truth_eq_some_true (Comparison.hasOperand_parseNumeric hread) _ _
  · simp only [hg]
    rw [condition, Condition.holds, Condition.truth, decide_eq_true_iff]
    exact Comparison.truth_eq_some_true (Comparison.hasOperand_parseText _) _ _
  · simp only [hg]
    exact hs.refersTo_iff hx (hv _ rfl) (Field.column_of_target? hf (by rw [hg]; rfl))
  · obtain rfl := Field.eq_simType_of_grammar hf hg
    obtain rfl : t.name = value := by simpa using List.find?_some hname
    have hcell : s.view x (.session .simType) = .integer x.simType := rfl
    simp only [hg]
    rw [condition, Condition.holds, decide_eq_true_iff, Field.simType, hcell]
    cases t <;> simp [Condition.truth, hcell, Operator.compare, Operator.accepts, Value.order_integer, SimType.name]

/-- a session matches a filter when it has the row that the criterion reads and meets its condition -/
theorem Criterion.matches_iff {s : Store} (hs : s.Sound) {x : SessionRow} (hx : x ∈ s.sessions) {v : Variables}
    {filter : Field × String} (hf : filter.1 ∈ Field.all) {c : Criterion} (hc : filter.1.criterion filter.2 = .ok c)
    (hv : ∀ b, c.binding? = some b → v.value b.target = Attached.lookup s b) :
    s.Matches x filter ↔ (s.partner? x c.table).isSome ∧ c.condition.holds v (s.view x) = true := by
  rw [Store.Matches, hs.has_iff hx (Field.table_mem_relations hf), ← holds_iff hs hx hf hc hv, table_eq hf hc]

/-! ## The statement of a tally -/

namespace Request

open Criterion

variable {r : Request} {cs : List Criterion} {dimension : Option Dimension}

/-- each criterion is that of a supplied filter -/
theorem exists_filter_of_mem_criteria (hc : r.criteria = .ok cs) {c : Criterion} (h : c ∈ cs) :
    ∃ filter ∈ r.supplied, filter.1 ∈ Field.all ∧ filter.1.criterion filter.2 = .ok c := by
  replace hc := criteria_ok_iff.1 hc
  obtain ⟨i, hi, rfl⟩ := List.mem_iff_getElem.1 h
  have hlength := hc.length_eq
  refine ⟨r.supplied[i], List.getElem_mem _, ?_, ?_⟩
  · have hmem : (r.supplied[i].1, r.supplied[i].2) ∈ r.supplied := List.getElem_mem _
    exact (mem_supplied.1 hmem).1
  · exact (List.forall₂_iff_get.1 hc).2 i (hlength ▸ hi) hi

/-- each supplied filter has its criterion -/
theorem exists_criterion_of_mem_supplied (hc : r.criteria = .ok cs) {filter : Field × String}
    (h : filter ∈ r.supplied) : ∃ c ∈ cs, filter.1.criterion filter.2 = .ok c := by
  replace hc := criteria_ok_iff.1 hc
  obtain ⟨i, hi, rfl⟩ := List.mem_iff_getElem.1 h
  have hlength := hc.length_eq
  exact ⟨cs[i], List.getElem_mem _, (List.forall₂_iff_get.1 hc).2 i hi (hlength ▸ hi)⟩

theorem table_mem_of_mem_criteria (hc : r.criteria = .ok cs) {c : Criterion} (h : c ∈ cs) :
    c.table ∈ Table.relations := by
  obtain ⟨filter, -, hf, hcriterion⟩ := exists_filter_of_mem_criteria hc h
  rw [table_eq hf hcriterion]
  exact Field.table_mem_relations hf

theorem tables_condition (c : Criterion) : c.condition.tables = [c.table] := by
  cases c <;> rfl

theorem mem_sides {side : SideTable} :
    side ∈ sides cs dimension ↔ (∃ c ∈ cs, c.table = .side side) ∨ ∃ d ∈ dimension, d.side = some side := by
  simp [sides, touching, side.mem_all, Option.any_eq_true]

theorem mem_tables_tally (hd : ∀ d ∈ dimension, d.Sound) (m : Measure) (name : String)
    (arrangement : Option Arrangement) {t : Table} :
    t ∈ (tally m name cs dimension arrangement).tables ↔
      (∃ d ∈ dimension, ∃ l ∈ d.links, t = .names l.target) ∨ ∃ side ∈ sides cs dimension, t = .side side := by
  rw [(tally_eq m name cs arrangement hd).2]
  cases dimension <;> simp [links, eq_comm]

/-- the conditions of a tally: those of its criteria, then a link for each table that it joins -/
theorem conditions_tally (hd : ∀ d ∈ dimension, d.Sound) (m : Measure) (name : String)
    (arrangement : Option Arrangement) :
    (tally m name cs dimension arrangement).conditions =
      (immediate cs).map condition ++ (bindings cs).map Binding.condition ++
        (tally m name cs dimension arrangement).tables.map Table.link := by
  have hnames : ∀ l ∈ links dimension, l.condition = (Table.names l.target).link := by
    intro l hl
    cases dimension with
    | none => cases hl
    | some d => rw [NameLink.condition, (hd d rfl).links_column l hl]; rfl
  obtain ⟨hconditions, htables⟩ := tally_eq m name cs arrangement hd
  rw [hconditions, htables, List.map_append, List.map_map, List.map_map, List.map_congr_left hnames]
  rfl

/-- at once or with a variable, the condition of a criterion is asked for -/
theorem mem_conditions_criteria {condition : Condition} :
    condition ∈ (immediate cs).map Criterion.condition ++ (bindings cs).map Binding.condition ↔
      ∃ c ∈ cs, c.condition = condition := by
  simp only [immediate, bindings, List.mem_append, List.mem_map, List.mem_filter, List.mem_filterMap]
  constructor
  · rintro (⟨c, ⟨hc, -⟩, rfl⟩ | ⟨b, ⟨c, hc, hb⟩, rfl⟩)
    · exact ⟨c, hc, rfl⟩
    · exact ⟨c, hc, condition_of_binding? hb⟩
  · rintro ⟨c, hc, rfl⟩
    cases hb : c.binding? with
    | none => exact .inl ⟨c, ⟨hc, by rw [hb]; rfl⟩, rfl⟩
    | some b => exact .inr ⟨b, ⟨c, hc, hb⟩, (condition_of_binding? hb).symm⟩

theorem mem_conditions_tally (hd : ∀ d ∈ dimension, d.Sound) (m : Measure) (name : String)
    (arrangement : Option Arrangement) (condition : Condition) :
    condition ∈ (tally m name cs dimension arrangement).conditions ↔
      (∃ c ∈ cs, c.condition = condition) ∨ ∃ t ∈ (tally m name cs dimension arrangement).tables, t.link = condition := by
  rw [conditions_tally hd, List.mem_append, mem_conditions_criteria, List.mem_map]

/-- what a dimension reads is joined -/
theorem tables_subset_tally {d : Dimension} (hd : d.Sound) (m : Measure) (name : String)
    (arrangement : Option Arrangement) {t : Table} (h : t ∈ d.tables) :
    t ∈ .session :: (tally m name cs (some d) arrangement).tables := by
  have hsound : ∀ e ∈ some d, e.Sound := fun e he => Option.mem_some.1 he ▸ hd
  rw [List.mem_cons, mem_tables_tally hsound]
  simp only [Dimension.tables, List.mem_cons, List.mem_append, List.mem_map, Option.mem_toList] at h
  rcases h with rfl | ⟨side, hside, rfl⟩ | ⟨l, hl, rfl⟩
  · exact .inl rfl
  · exact .inr (.inr ⟨side, mem_sides.2 (.inr ⟨d, rfl, hside⟩), rfl⟩)
  · exact .inr (.inl ⟨d, rfl, l, hl, rfl⟩)

theorem linked_tally (hd : r.dimension = .ok dimension) (hc : r.criteria = .ok cs) (m : Measure) (name : String)
    (arrangement : Option Arrangement) : (tally m name cs dimension arrangement).Linked := by
  have hsound := dimension_sound hd
  constructor
  · rw [mem_tables_tally hsound]
    rintro (⟨d, -, l, -, h⟩ | ⟨side, -, h⟩) <;> cases h
  · intro t ht
    exact (mem_conditions_tally hsound m name arrangement _).2 (.inr ⟨t, ht, rfl⟩)
  · intro condition hcondition t ht
    have hjoined : ∀ side ∈ sides cs dimension,
        Table.side side ∈ .session :: (tally m name cs dimension arrangement).tables := fun side hside =>
      List.mem_cons_of_mem _ ((mem_tables_tally hsound m name arrangement).2 (.inr ⟨side, hside, rfl⟩))
    rcases (mem_conditions_tally hsound m name arrangement condition).1 hcondition with ⟨c, hcs, rfl⟩ | ⟨u, hu, rfl⟩
    · rw [tables_condition, List.mem_singleton] at ht
      have htable := table_mem_of_mem_criteria hc hcs
      rw [← ht] at htable
      cases t with
      | session => exact List.mem_cons_self
      | side side => exact hjoined side (mem_sides.2 (.inl ⟨c, hcs, ht.symm⟩))
      | names t => simp [Table.relations] at htable
    · simp only [Table.link, Condition.tables, u.table_rowId, List.mem_cons, List.not_mem_nil, or_false] at ht
      rcases ht with rfl | rfl
      · rcases (mem_tables_tally hsound m name arrangement).1 hu with ⟨d, hdim, l, hl, rfl⟩ | ⟨side, -, rfl⟩
        · have htable := (hsound d hdim).links_table l hl
          rw [(hsound d hdim).links_column l hl] at htable
          rw [Table.anchor]
          rcases List.mem_cons.1 htable with h | h
          · rw [h]
            exact List.mem_cons_self
          · obtain ⟨side, hside, h⟩ := List.mem_map.1 h
            rw [← h]
            exact hjoined side (mem_sides.2 (.inr ⟨d, hdim, Option.mem_toList.1 hside⟩))
        · exact List.mem_cons_self
      · exact List.mem_cons_of_mem _ hu

/-- a session has a row in every joined table when its criteria and the dimension find theirs -/
theorem rows_tally_iff (hd : r.dimension = .ok dimension) (hc : r.criteria = .ok cs) (m : Measure) (name : String)
    (arrangement : Option Arrangement) {s : Store} (hs : s.Sound) {x : SessionRow} (hx : x ∈ s.sessions) :
    (∀ t ∈ (tally m name cs dimension arrangement).tables, (s.partner? x t).isSome) ↔
      (∀ c ∈ cs, (s.partner? x c.table).isSome) ∧ ∀ d ∈ dimension.toList, d.Covers s x := by
  have hsound := dimension_sound hd
  constructor
  · intro hrows
    have hside : ∀ side ∈ sides cs dimension, (s.partner? x (.side side)).isSome := fun side h =>
      hrows _ ((mem_tables_tally hsound m name arrangement).2 (.inr ⟨side, h, rfl⟩))
    refine ⟨fun c hmem => ?_, fun d hdim => ⟨fun side h => ?_, fun l hl => ?_⟩⟩
    · apply s.partner?_isSome x (table_mem_of_mem_criteria hc hmem)
      intro side h
      exact hside side (mem_sides.2 (.inl ⟨c, hmem, h⟩))
    · apply (s.mem_sideIds_iff x side).2
      exact hside side (mem_sides.2 (.inr ⟨d, Option.mem_toList.1 hdim, Option.mem_toList.1 h⟩))
    · have hdim := Option.mem_toList.1 hdim
      have hcolumn := (hsound d hdim).links_column l hl
      have htable : l.column.table ∈ Table.relations := hcolumn ▸ l.target.column_table_mem
      refine (hs.has_iff hx htable).2 ⟨s.partner?_isSome x htable fun side h => ?_, ?_⟩
      · have hlink := (hsound d hdim).links_table l hl
        rw [h] at hlink
        exact hside side (mem_sides.2 (.inr ⟨d, hdim, by simpa using hlink⟩))
      · rw [hcolumn, ← hs.names_isSome_iff hx]
        exact hrows _ ((mem_tables_tally hsound m name arrangement).2 (.inl ⟨d, hdim, l, hl, rfl⟩))
  · rintro ⟨hcriteria, hcovers⟩ t ht
    rcases (mem_tables_tally hsound m name arrangement).1 ht with ⟨d, hdim, l, hl, rfl⟩ | ⟨side, hside, rfl⟩
    · have hcolumn := (hsound d hdim).links_column l hl
      have hlink := (hcovers d (Option.mem_toList.2 hdim)).2 l hl
      have hnull := ((hs.has_iff hx (hcolumn ▸ l.target.column_table_mem)).1 hlink).2
      rw [hcolumn] at hnull
      exact (hs.names_isSome_iff hx l.target).2 hnull
    · rcases mem_sides.1 hside with ⟨c, hmem, htable⟩ | ⟨d, hdim, hd⟩
      · exact htable ▸ hcriteria c hmem
      · apply (s.mem_sideIds_iff x side).1
        exact (hcovers d (Option.mem_toList.2 hdim)).1 side (Option.mem_toList.2 hd)

/-- filters and criteria ask for the same sessions -/
theorem matches_supplied_iff (hc : r.criteria = .ok cs) {s : Store} (hs : s.Sound) {x : SessionRow}
    (hx : x ∈ s.sessions) {v : Variables} (hv : ∀ b ∈ r.lookups, v.value b.target = Attached.lookup s b) :
    (∀ filter ∈ r.supplied, s.Matches x filter) ↔
      ∀ c ∈ cs, (s.partner? x c.table).isSome ∧ c.condition.holds v (s.view x) = true := by
  have hvalue : ∀ c ∈ cs, ∀ b, c.binding? = some b → v.value b.target = Attached.lookup s b := by
    intro c hmem b hb
    apply hv b
    rw [← bindings_criteria hc]
    exact List.mem_filterMap.2 ⟨c, hmem, hb⟩
  constructor
  · intro h c hmem
    obtain ⟨filter, hfilter, hf, hcriterion⟩ := exists_filter_of_mem_criteria hc hmem
    exact (matches_iff hs hx hf hcriterion (hvalue c hmem)).1 (h filter hfilter)
  · intro h filter hfilter
    have hpair : (filter.1, filter.2) ∈ r.supplied := hfilter
    obtain ⟨c, hmem, hcriterion⟩ := exists_criterion_of_mem_supplied hc hfilter
    exact (matches_iff hs hx (mem_supplied.1 hpair).1 hcriterion (hvalue c hmem)).2 (h c hmem)

/-- **A report is over the sessions that match its filters.** -/
theorem admits_tally (hd : r.dimension = .ok dimension) (hc : r.criteria = .ok cs) (m : Measure) (name : String)
    (arrangement : Option Arrangement) {s : Store} (hs : s.Sound) {x : SessionRow} (hx : x ∈ s.sessions)
    {v : Variables} (hv : ∀ b ∈ r.lookups, v.value b.target = Attached.lookup s b) :
    (tally m name cs dimension arrangement).admits s v (.session :: (tally m name cs dimension arrangement).tables) x =
      true ↔ r.Eligible dimension s x := by
  have hconditions : ∀ condition, condition ∈ (tally m name cs dimension arrangement).conditions ↔ _ :=
    mem_conditions_tally (dimension_sound hd) m name arrangement
  rw [(linked_tally hd hc m name arrangement).admits_iff, Eligible, matches_supplied_iff hc hs hx hv]
  constructor
  · rintro ⟨hrows, hall⟩
    obtain ⟨hcriteria, hcovers⟩ := (rows_tally_iff hd hc m name arrangement hs hx).1 hrows
    exact ⟨fun c hmem => ⟨hcriteria c hmem, hall _ ((hconditions _).2 (.inl ⟨c, hmem, rfl⟩))⟩, hcovers⟩
  · rintro ⟨hcriteria, hcovers⟩
    have hrows := (rows_tally_iff hd hc m name arrangement hs hx).2 ⟨fun c hmem => (hcriteria c hmem).1, hcovers⟩
    refine ⟨hrows, fun condition hcondition => ?_⟩
    -- links hold of rows that are there
    rcases (hconditions condition).1 hcondition with ⟨c, hmem, rfl⟩ | ⟨t, ht, rfl⟩
    · exact (hcriteria c hmem).2
    · exact Store.holds_link (hrows t ht) v

/-- the joined rows of a tally: the eligible sessions, once each and in their order -/
theorem matching_tally (hd : r.dimension = .ok dimension) (hc : r.criteria = .ok cs) (m : Measure) (name : String)
    (arrangement : Option Arrangement) {s : Store} (hs : s.Sound) {v : Variables}
    (hv : ∀ b ∈ r.lookups, v.value b.target = Attached.lookup s b) :
    (tally m name cs dimension arrangement).matching s v =
      (s.sessions.filter fun x => r.Eligible dimension s x).map fun x =>
        (s.view x).only (.session :: (tally m name cs dimension arrangement).tables) := by
  rw [Select.matching_eq (linked_tally hd hc m name arrangement) hs, Select.joined]
  congr 1
  refine List.filter_congr fun x hx => ?_
  rw [Bool.eq_iff_iff, decide_eq_true_iff]
  exact admits_tally hd hc m name arrangement hs hx hv

end Request

end LaunchReports
