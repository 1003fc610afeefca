/-
The qualified names in the texts of a statement, and the columns that they name.

`ColumnName.qualified` reads a text word by word and keeps the names that are written with a table. Everything about it
follows from `qualified_append_cons`: no name goes on past a character that names do not have.

- `Label.qualified_sql`, `Measure.qualified_named`, `GroupKey.qualified_sql`: the names in what is selected and in the
  keys are those of the columns that are read.
- `Condition.qualified_sql`: so are those in a condition, outside of its subquery.
- `Column.reference_injective`: a qualified name tells its column.
-/
import LaunchReports.Proofs.Sql.Dereference

namespace LaunchReports

namespace ColumnName

/-! ## Names in a text -/

/-- identifiers and the dots between them -/
def inName (c : Char) : Bool := inIdentifier c || c == '.'

/-- the qualified names in a text, in order of appearance -/
def qualified (text : List Char) : List ColumnName :=
  ((text.splitOnP fun c => !inName c).filterMap read?).filter fun name => name.qualifier.isSome

/-- no name goes on behind the text, or begins before it -/
def opens (text : List Char) : Bool := text.head?.any fun c => !inName c

/-- no name goes on past the end of the text -/
def closes (text : List Char) : Bool := text.getLast?.any fun c => !inName c

theorem qualified_append_cons {c : Char} (h : inName c = false) (a b : List Char) :
    qualified (a ++ c :: b) = qualified a ++ qualified b := by
  unfold qualified
  rw [List.splitOnP_append_cons a b (by simpa using h), List.filterMap_append, List.filter_append]

theorem qualified_nil : qualified [] = [] := rfl

theorem qualified_append_of_opens {a b : List Char} (h : opens b = true) :
    qualified (a ++ b) = qualified a ++ qualified b := by
  obtain ⟨c, hc, hout⟩ := (Option.any_eq_true _ _).1 h
  obtain ⟨rest, rfl⟩ := List.head?_eq_some_iff.1 hc
  have hout : inName c = false := by simpa using hout
  have hrest : qualified (c :: rest) = qualified rest := qualified_append_cons hout [] rest
  rw [qualified_append_cons hout, hrest]

theorem qualified_append_of_closes {a b : List Char} (h : closes a = true) :
    qualified (a ++ b) = qualified a ++ qualified b := by
  obtain ⟨c, hc, hout⟩ := (Option.any_eq_true _ _).1 h
  obtain ⟨rest, rfl⟩ := List.getLast?_eq_some_iff.1 hc
  have hout : inName c = false := by simpa using hout
  have hrest : qualified (rest ++ [c]) = qualified rest := by
    rw [qualified_append_cons hout, qualified_nil, List.append_nil]
  rw [List.append_assoc, List.singleton_append, qualified_append_cons hout, hrest]

/-- names do not go through a word that stands between two texts -/
theorem qualified_between {word : List Char} (hopens : opens word = true) (hcloses : closes word = true)
    (hword : qualified word = []) (a b : List Char) : qualified (a ++ word ++ b) = qualified a ++ qualified b := by
  have hlast : closes (a ++ word) = true := by
    obtain ⟨c, hc, hout⟩ := (Option.any_eq_true _ _).1 hcloses
    rw [closes, List.getLast?_append, hc]
    exact hout
  rw [qualified_append_of_closes hlast, qualified_append_of_opens hopens, hword, List.append_nil]

theorem qualified_intercalate {separator : String} (hopens : opens separator.toList = true)
    (hcloses : closes separator.toList = true) (hword : qualified separator.toList = []) (pieces : List String) :
    qualified (separator.intercalate pieces).toList = pieces.flatMap fun p => qualified p.toList := by
  rw [String.toList_intercalate]
  induction pieces with
  | nil => rfl
  | cons p pieces ih =>
    cases pieces with
    | nil => simp
    | cons q pieces =>
      rw [List.map_cons, List.map_cons, List.intercalate_cons_cons, qualified_between hopens hcloses hword,
        List.flatMap_cons, ← ih]
      rfl

/-- a plain name is not written with a table -/
theorem qualified_of_isPlain {name : List Char} (h : isPlain name = true) : qualified name = [] := by
  have hword : name.splitOnP (fun c => !inName c) = [name] := by
    apply List.splitOnP_eq_singleton
    intro c hc
    rw [inName, inIdentifier_of_mem (isIdentifier_of_isPlain h) hc]
    rfl
  have hread : read? name = some ⟨none, String.ofList name⟩ := read?_bare (isIdentifier_of_isPlain h)
  rw [qualified, hword, List.filterMap_cons_some hread, List.filterMap_nil]
  rfl

/-! ## Text outside of parentheses -/

/-- the text outside of all parentheses, `depth` of which are open before it -/
def outside (depth : Nat) : List Char → List Char
  | [] => []
  | '(' :: rest => outside (depth + 1) rest
  | ')' :: rest => outside (depth - 1) rest
  | c :: rest => if depth = 0 then c :: outside depth rest else outside depth rest

/-- the text has no parentheses -/
def flat (text : List Char) : Bool := text.all fun c => c != '(' && c != ')'

theorem flat_append {a b : List Char} (ha : flat a = true) (hb : flat b = true) : flat (a ++ b) = true := by
  rw [flat, List.all_append, Bool.and_eq_true]
  exact ⟨ha, hb⟩

theorem outside_append {text : List Char} (h : flat text = true) (depth : Nat) (rest : List Char) :
    outside depth (text ++ rest) = (if depth = 0 then text else []) ++ outside depth rest := by
  induction text with
  | nil => simp
  | cons c text ih =>
    simp only [flat, List.all_cons, Bool.and_eq_true, bne_iff_ne] at h
    obtain ⟨⟨hopen, hclose⟩, htext⟩ := h
    rw [List.cons_append, outside]
    · rw [ih htext]
      split <;> rfl
    · exact hopen
    · exact hclose

theorem flat_of_isPlain {name : List Char} (h : isPlain name = true) : flat name = true := by
  rw [flat, List.all_eq_true]
  intro c hc
  rw [Bool.and_eq_true, bne_iff_ne, bne_iff_ne]
  constructor
  · rintro rfl
    exact not_mem_of_isPlain h (by decide) hc
  · rintro rfl
    exact not_mem_of_isPlain h (by decide) hc

theorem outside_eq {text : List Char} (h : flat text = true) : outside 0 text = text := by
  simpa [outside] using outside_append h 0 []

end ColumnName

open ColumnName

/-! ## Columns -/

theorem Table.name_injective {t u : Table} (h : t.name = u.name) : t = u := by
  have key : ∀ t ∈ all, ∀ u ∈ all, t.name = u.name → t = u := by decide
  exact key t t.mem_all u u.mem_all h

namespace Column

/-- the qualified name of the column -/
def reference (c : Column) : ColumnName := ⟨some c.table.name, c.name⟩

variable (c : Column)

theorem text_toList : c.text.toList = c.table.name.toList ++ '.' :: c.name.toList := by
  rw [text, String.toList_append, String.toList_append, List.append_assoc]
  rfl

theorem inName_of_mem_text {d : Char} (h : d ∈ c.text.toList) : inName d = true := by
  rw [text_toList, List.mem_append, List.mem_cons] at h
  rw [inName, Bool.or_eq_true]
  rcases h with h | rfl | h
  · exact .inl (inIdentifier_of_mem c.table.isIdentifier_name h)
  · exact .inr rfl
  · exact .inl (inIdentifier_of_mem c.isIdentifier_name h)

theorem flat_text : flat c.text.toList = true := by
  rw [flat, List.all_eq_true]
  intro d hd
  have hname := c.inName_of_mem_text hd
  simp only [Bool.and_eq_true, bne_iff_ne]
  constructor <;> (rintro rfl; revert hname; decide)

/-- the text of a column is one name -/
theorem qualified_text : qualified c.text.toList = [c.reference] := by
  have hword : c.text.toList.splitOnP (fun d => !inName d) = [c.text.toList] := by
    apply List.splitOnP_eq_singleton
    intro d hd
    rw [c.inName_of_mem_text hd]
    rfl
  have hread : read? c.text.toList = some c.reference := by
    rw [text_toList, read?_qualified c.table.isIdentifier_name c.isIdentifier_name, String.ofList_toList,
      String.ofList_toList]
    rfl
  rw [qualified, hword, List.filterMap_cons_some hread, List.filterMap_nil]
  rfl

/-- no two columns have one qualified name -/
theorem reference_injective {a b : Column} (h : a.reference = b.reference) : a = b := by
  have hcolumns : ∀ t ∈ Table.all, ∀ a ∈ t.columns, ∀ b ∈ t.columns, a.name = b.name → a = b := by decide
  obtain ⟨htable, hname⟩ := ColumnName.mk.inj h
  have htable : a.table = b.table := Table.name_injective (Option.some.inj htable)
  exact hcolumns _ a.table.mem_all a a.mem_columns b (htable ▸ b.mem_columns) hname

end Column

/-! ## Labels, keys and measures -/

theorem Expression.qualified_sql {e : Expression} (h : ∀ w ∈ e.literals, qualified w = []) :
    qualified e.sql.toList = e.columns.map Column.reference := by
  cases e with
  | column c => exact c.qualified_text
  | joined pieces =>
    show qualified (" || ".intercalate (pieces.map Piece.sql)).toList = _
    rw [qualified_intercalate (by decide) (by decide) (by decide), List.flatMap_map, columns, List.map_filterMap,
      List.filterMap_eq_flatMap_toList]
    refine List.flatMap_congr fun piece hp => ?_
    cases piece with
    | column c => exact c.qualified_text
    | text s =>
      rw [Piece.sql, String.toList_ofList]
      exact h _ (List.mem_filterMap.2 ⟨_, hp, rfl⟩)
  | isoWeek c =>
    show qualified ("strftime('%G%V', " ++ c.text ++ ")").toList = [c.reference]
    have hclose : qualified ")".toList = [] := by decide
    have hopen : qualified "strftime('%G%V', ".toList = [] := by decide
    rw [String.toList_append, String.toList_append, qualified_append_of_opens (by decide),
      qualified_append_of_closes (by decide), c.qualified_text, hopen, hclose]
    rfl
  | simTypeName =>
    show qualified ("CASE WHEN " ++ (Column.session .simType).text ++ " = 0 THEN 'java' ELSE 'flash' END").toList =
      [(Column.session .simType).reference]
    have hopen : qualified "CASE WHEN ".toList = [] := by decide
    have hclose : qualified " = 0 THEN 'java' ELSE 'flash' END".toList = [] := by decide
    rw [String.toList_append, String.toList_append, qualified_append_of_opens (by decide),
      qualified_append_of_closes (by decide), Column.qualified_text, hopen, hclose]
    rfl

theorem Label.qualified_sql {l : Label} (h : ∀ w ∈ l.words, qualified w = []) :
    qualified l.sql.toList = l.expression.columns.map Column.reference := by
  obtain ⟨hname, hliterals⟩ := List.forall_mem_cons.1 h
  rw [sql, String.toList_append, String.toList_append, qualified_between (by decide) (by decide) (by decide), hname,
    List.append_nil, Expression.qualified_sql hliterals]

/-- the columns that the measure reads -/
def Measure.columns : Measure → List Column
  | count => []
  | sum c => [c]

theorem Measure.qualified_named (m : Measure) {name : String} (h : qualified name.toList = []) :
    qualified (m.named name).toList = m.columns.map Column.reference := by
  rw [named, String.toList_append, String.toList_append, qualified_between (by decide) (by decide) (by decide), h,
    List.append_nil]
  cases m with
  | count => decide
  | sum c =>
    have hopen : qualified "SUM(".toList = [] := by decide
    have hclose : qualified ")".toList = [] := by decide
    rw [sql, String.toList_append, String.toList_append, qualified_append_of_opens (by decide),
      qualified_append_of_closes (by decide), c.qualified_text, hopen, hclose]
    rfl

/-- the columns that the key reads itself; a label reads none -/
def GroupKey.columns : GroupKey → List Column
  | column c => [c]
  | label _ => []
  | expression e => e.columns

theorem GroupKey.qualified_sql {k : GroupKey} (h : ∀ w ∈ k.words, qualified w = []) :
    qualified k.sql.toList = k.columns.map Column.reference := by
  cases k with
  | column c => exact c.qualified_text
  | label name => exact h _ List.mem_cons_self
  | expression e => exact Expression.qualified_sql h

theorem isIdentifier_eq_false {text : List Char} {c : Char} (hc : c ∈ text) (h : inIdentifier c = false) :
    isIdentifier text = false := by
  rw [← Bool.not_eq_true]
  intro htext
  exact not_mem_of_isIdentifier htext h hc

theorem Column.not_isIdentifier_text (c : Column) : isIdentifier c.text.toList = false := by
  apply isIdentifier_eq_false (c := '.')
  · rw [c.text_toList]
    exact List.mem_append_right _ List.mem_cons_self
  · decide

/-- no expression looks like a name without a table -/
theorem Expression.not_isIdentifier_sql (e : Expression) : isIdentifier e.sql.toList = false := by
  cases e with
  | column c => exact c.not_isIdentifier_text
  | joined pieces =>
    match pieces with
    | [] => decide
    | [.column c] => exact c.not_isIdentifier_text
    | [.text s] =>
      show isIdentifier (String.ofList (Value.quotedText s.toList)).toList = false
      rw [String.toList_ofList]
      exact isIdentifier_eq_false (c := '\'') List.mem_cons_self (by decide)
    | p :: q :: pieces =>
      show isIdentifier (" || ".intercalate (p.sql :: q.sql :: pieces.map Piece.sql)).toList = false
      rw [String.toList_intercalate, List.map_cons, List.map_cons, List.intercalate_cons_cons]
      have hbar : ' ' ∈ " || ".toList := by decide
      exact isIdentifier_eq_false (List.mem_append_left _ (List.mem_append_right _ hbar)) (by decide)
  | isoWeek c =>
    show isIdentifier ("strftime('%G%V', " ++ c.text ++ ")").toList = false
    have hclose : ')' ∈ ")".toList := by decide
    rw [String.toList_append]
    exact isIdentifier_eq_false (List.mem_append_right _ hclose) (by decide)
  | simTypeName => decide

/-- a key that is a name without a table is a label -/
theorem GroupKey.eq_label {k : GroupKey} (h : isIdentifier k.sql.toList = true) : k = .label k.sql := by
  cases k with
  | column c => exact (Bool.eq_false_iff.1 c.not_isIdentifier_text h).elim
  | label name => rfl
  | expression e => exact (Bool.eq_false_iff.1 e.not_isIdentifier_sql h).elim

/-! ## Conditions -/

/-- the subquery for a variable is all between parentheses -/
theorem NameTable.outside_reference (t : NameTable) : outside 0 (Variable.reference t.symbol).toList = [] := by
  have hopening : Variable.opening = '(' :: Variable.opening.tail := by decide
  have htail : flat Variable.opening.tail = true := by decide
  rw [Variable.reference_toList, hopening, List.cons_append, outside, outside_append htail,
    outside_append (flat_of_isPlain t.isPlain_symbol)]
  rfl

namespace Condition

/-- the columns that the condition reads -/
def columns : Condition → List Column
  | compares column _ => [column]
  | isOfType _ => [.session .simType]
  | refersTo column _ => [column]
  | equates a b => [a, b]

/-- the qualified names in a condition, outside of its subquery -/
theorem qualified_sql (c : Condition) : qualified (outside 0 c.sql.toList) = c.columns.map Column.reference := by
  have hbehind : ∀ (column : Column) {rest : String}, flat rest.toList = true → opens rest.toList = true →
      qualified rest.toList = [] → qualified (outside 0 (column.text ++ rest).toList) = [column.reference] := by
    intro column rest hflat hopens hnone
    rw [String.toList_append, outside_append column.flat_text, if_pos rfl, outside_eq hflat,
      qualified_append_of_opens hopens, column.qualified_text, hnone]
    rfl
  cases c with
  | compares column comparison =>
    cases comparison with
    | isNull => exact hbehind column (by decide) (by decide) (by decide)
    | isNotNull => exact hbehind column (by decide) (by decide) (by decide)
    | binary op value =>
      have htext : (compares column (.binary op value)).sql = column.text ++ (" " ++ (op.symbol ++ " ?")) := by
        simp only [sql, Comparison.sql, String.append_assoc]
      rw [htext]
      cases op <;> exact hbehind column (by decide) (by decide) (by decide)
  | isOfType t => cases t <;> exact hbehind (.session .simType) (by decide) (by decide) (by decide)
  | refersTo column target =>
    have hflat : flat (column.text.toList ++ " = ".toList) = true := flat_append column.flat_text (by decide)
    rw [sql, String.toList_append, String.toList_append, outside_append hflat, if_pos rfl, target.outside_reference,
      List.append_nil, qualified_append_of_opens (by decide), column.qualified_text]
    rfl
  | equates a b =>
    have hflat : flat (a.text.toList ++ " = ".toList ++ b.text.toList) = true :=
      flat_append (flat_append a.flat_text (by decide)) b.flat_text
    rw [sql, String.toList_append, String.toList_append, outside_eq hflat,
      qualified_between (by decide) (by decide) (by decide), a.qualified_text, b.qualified_text]
    rfl

end Condition

end LaunchReports
