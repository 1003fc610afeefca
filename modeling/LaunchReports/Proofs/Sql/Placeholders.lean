/-
Where the placeholders of a statement stand.

`Placeholder.befores` lists what stands before each `?` of a text. `Marked` says that the placeholders stand right behind
given marks, one behind each and in their order; `Unlimited` says that nothing in a text looks like a `LIMIT`, whatever
stands before it.

- `Select.asks_unordered`: up to the order, the placeholders of a statement are those of its binary comparisons, each
  behind its column and operator, and there is no limit.
- `Select.marked_sql`: the whole statement has one more behind its limit, if it has one, at the end.
- `Select.limit_suffix_iff`: a statement ends with a limit when it has one.
-/
import LaunchReports.Proofs.Sql.Dereference

namespace LaunchReports

open ColumnName

namespace Placeholder

/-! ## Texts -/

/-- what stands before each placeholder -/
def befores : List Char → List (List Char)
  | [] => []
  | c :: rest => (if c = '?' then [[]] else []) ++ (befores rest).map (c :: ·)

/-- the placeholders stand right behind the marks, in their order -/
def Marked (text : List Char) (marks : List String) : Prop :=
  List.Forall₂ (fun before mark => mark.toList <:+ before) (befores text) marks

theorem befores_append (a b : List Char) : befores (a ++ b) = befores a ++ (befores b).map (a ++ ·) := by
  induction a with
  | nil => simp [befores]
  | cons c a ih => simp [befores, ih, Function.comp_def]

theorem length_befores (text : List Char) : (befores text).length = text.count '?' := by
  induction text with
  | nil => rfl
  | cons c text ih => by_cases h : c = '?' <;> simp [befores, h, ih]

theorem befores_of_not_mem {text : List Char} (h : '?' ∉ text) : befores text = [] := by
  rw [← List.length_eq_zero_iff, length_befores, List.count_eq_zero_of_not_mem h]

theorem Marked.append {a b : List Char} {marks more : List String} (ha : Marked a marks) (hb : Marked b more) :
    Marked (a ++ b) (marks ++ more) := by
  unfold Marked
  rw [befores_append]
  refine List.rel_append ha (List.forall₂_map_left_iff.2 (hb.imp fun before mark h => ?_))
  exact List.suffix_append_of_suffix h

theorem Marked.count_eq {text : List Char} {marks : List String} (h : Marked text marks) :
    text.count '?' = marks.length := by
  rw [← length_befores]
  exact h.length_eq

/-- a placeholder behind a mark -/
theorem marked_behind {mark : String} (h : '?' ∉ mark.toList) : Marked (mark ++ "?").toList [mark] := by
  have hquestion : befores "?".toList = [[]] := by decide
  rw [String.toList_append, Marked, befores_append, befores_of_not_mem h, hquestion]
  exact .cons (by simp) .nil

/-- no `LIMIT`, nor the end of one at the start -/
structure Unlimited (text : List Char) : Prop where
  head : text.head? ≠ some 'I'
  inner : ¬ ['L', 'I'] <:+: text

theorem unlimited_iff {text : List Char} : Unlimited text ↔ Without 'L' 'I' text :=
  ⟨fun h => ⟨h.head, h.inner⟩, fun h => ⟨h.head, h.inner⟩⟩

instance (text : List Char) : Decidable (Unlimited text) := decidable_of_iff' _ unlimited_iff

theorem Unlimited.append {a b : List Char} (ha : Unlimited a) (hb : Unlimited b) : Unlimited (a ++ b) := by
  rw [unlimited_iff] at ha hb ⊢
  exact ha.append hb

theorem Unlimited.no_limit {text : List Char} (h : Unlimited text) : ¬ "LIMIT".toList <:+: text := fun hlimit =>
  h.inner (List.IsInfix.trans (by decide) hlimit)

/-- the text has these placeholders, and no limit -/
structure Asks (text : List Char) (marks : List String) : Prop where
  marked : Marked text marks
  unlimited : Unlimited text

theorem additive_asks : Additive Asks where
  nil := ⟨.nil, by decide⟩
  append ha hb := ⟨ha.marked.append hb.marked, ha.unlimited.append hb.unlimited⟩

/-- neither a placeholder nor a limit -/
def Inert (text : List Char) : Prop := '?' ∉ text ∧ Unlimited text

instance (text : List Char) : Decidable (Inert text) := by unfold Inert; infer_instance

theorem Inert.asks {text : List Char} (h : Inert text) : Asks text [] := by
  refine ⟨?_, h.2⟩
  rw [Marked, befores_of_not_mem h.1]
  exact .nil

theorem Inert.of_isPlain {name : List Char} (h : isPlain name = true) : Inert name := by
  have hI : 'I' ∉ name := not_mem_of_isPlain h (by decide)
  refine ⟨not_mem_of_isPlain h (by decide), fun e => hI (List.mem_of_mem_head? e), fun hinfix => hI ?_⟩
  exact hinfix.subset (List.mem_cons_of_mem _ List.mem_cons_self)

theorem Asks.not_mem {text : List Char} (h : Asks text []) : '?' ∉ text :=
  List.count_eq_zero.1 h.marked.count_eq

end Placeholder

open Placeholder

/-! ## Conditions -/

/-- a column to be compared with a value -/
structure Operand where
  column : Column
  op : Operator
  value : Value
deriving DecidableEq, Repr

/-- what stands before the value -/
def Operand.mark (o : Operand) : String := o.column.text ++ " " ++ o.op.symbol ++ " "

/-- the value that the condition compares with -/
def Condition.operand? : Condition → Option Operand
  | compares column (.binary op value) => some ⟨column, op, value⟩
  | _ => none

theorem Condition.params_eq (c : Condition) : c.params = (c.operand?.map Operand.value).toList := by
  cases c with
  | compares column comparison => cases comparison <;> rfl
  | isOfType | refersTo | equates => rfl

theorem Condition.flatMap_params (conditions : List Condition) :
    conditions.flatMap Condition.params = (conditions.filterMap Condition.operand?).map Operand.value := by
  rw [List.map_filterMap, List.filterMap_eq_flatMap_toList, funext params_eq]

theorem Table.asks_name (t : Table) : Asks t.name.toList [] := (Inert.of_isPlain t.isPlain_name).asks

theorem Column.asks_text (c : Column) : Asks c.text.toList [] := by
  have hdot : Asks ".".toList [] := Inert.asks (by decide)
  rw [text, String.toList_append, String.toList_append]
  exact additive_asks.append (additive_asks.append c.table.asks_name hdot) (Inert.of_isPlain c.isPlain_name).asks

theorem Operand.asks_mark (o : Operand) : Asks o.mark.toList [] := by
  have hblank : Asks " ".toList [] := Inert.asks (by decide)
  have hop : Asks o.op.symbol.toList [] := Inert.asks (by cases o.op <;> decide)
  rw [mark, String.toList_append, String.toList_append, String.toList_append]
  exact additive_asks.append (additive_asks.append (additive_asks.append o.column.asks_text hblank) hop) hblank

theorem NameTable.asks_reference (t : NameTable) : Asks (Variable.reference t.symbol).toList [] := by
  have hopen : Inert Variable.opening := by decide
  have hsymbol : Inert t.symbol.toList := .of_isPlain t.isPlain_symbol
  have hclose : Inert ['\'', ')'] := by decide
  rw [Variable.reference_toList]
  exact additive_asks.append hopen.asks (additive_asks.append hsymbol.asks hclose.asks)

theorem Condition.asks_sql (c : Condition) : Asks c.sql.toList (c.operand?.map Operand.mark).toList := by
  have hbehind : ∀ (column : Column) {rest : String}, Inert rest.toList → Asks (column.text ++ rest).toList [] := by
    intro column rest h
    rw [String.toList_append]
    exact additive_asks.append column.asks_text h.asks
  cases c with
  | compares column comparison =>
    cases comparison with
    | isNull => exact hbehind column (by decide)
    | isNotNull => exact hbehind column (by decide)
    | binary op value =>
      let o : Operand := ⟨column, op, value⟩
      have htext : (compares column (.binary op value)).sql = o.mark ++ "?" := by
        simp only [sql, Comparison.sql, Operand.mark, o, String.append_assoc]
        rfl
      have hquestion : Unlimited "?".toList := by decide
      rw [htext]
      refine ⟨marked_behind o.asks_mark.not_mem, ?_⟩
      rw [String.toList_append]
      exact o.asks_mark.unlimited.append hquestion
  | isOfType t => cases t <;> exact hbehind (.session .simType) (by decide)
  | refersTo column target =>
    have heq : Asks " = ".toList [] := Inert.asks (by decide)
    rw [sql, String.toList_append, String.toList_append]
    exact additive_asks.append (additive_asks.append column.asks_text heq) target.asks_reference
  | equates a b =>
    have heq : Asks " = ".toList [] := Inert.asks (by decide)
    rw [sql, String.toList_append, String.toList_append]
    exact additive_asks.append (additive_asks.append a.asks_text heq) b.asks_text

/-! ## Labels, keys and measures -/

theorem asks_words : ∀ w ∈ [" || ", "strftime('%G%V', ", ")", "CASE WHEN ", " = 0 THEN 'java' ELSE 'flash' END"],
    Asks w.toList [] := by
  have key : ∀ w ∈ [" || ", "strftime('%G%V', ", ")", "CASE WHEN ", " = 0 THEN 'java' ELSE 'flash' END"],
      Inert w.toList := by decide
  exact fun w hw => (key w hw).asks

theorem Label.asks_sql {l : Label} (h : ∀ w ∈ l.words, Inert w) : Asks l.sql.toList [] := by
  have has : Inert " AS ".toList := by decide
  exact additive_asks.label Column.asks_text asks_words has.asks fun w hw => (h w hw).asks

theorem GroupKey.asks_sql {k : GroupKey} (h : ∀ w ∈ k.words, Inert w) : Asks k.sql.toList [] :=
  additive_asks.groupKey Column.asks_text asks_words fun w hw => (h w hw).asks

theorem Measure.asks_named (m : Measure) {name : String} (h : Inert name.toList) : Asks (m.named name).toList [] := by
  have hwords : ∀ w ∈ ["COUNT(*)", "SUM(", ")", " AS "], Inert w.toList := by decide
  simp only [List.forall_mem_cons] at hwords
  obtain ⟨hcount, hsum, hclose, has, -⟩ := hwords
  have hsql : Asks m.sql.toList [] := by
    cases m with
    | count => exact hcount.asks
    | sum c =>
      rw [sql, String.toList_append, String.toList_append]
      exact additive_asks.append (additive_asks.append hsum.asks c.asks_text) hclose.asks
  rw [named, String.toList_append, String.toList_append]
  exact additive_asks.append (additive_asks.append hsql has.asks) h.asks

/-! ## Statements -/

namespace Select

/-- the values that the conditions compare with -/
def operands (s : Select) : List Operand := s.conditions.filterMap Condition.operand?

/-- the greatest number of rows, if it is bounded -/
def limit? (s : Select) : Option Int64 := s.arrangement.bind Arrangement.limit

theorem params_eq (s : Select) : s.params = s.operands.map Operand.value ++ s.limit?.toList.map Value.integer := by
  rw [params, Condition.flatMap_params]
  rfl

variable {s : Select}

theorem asks_unordered (hlabels : ∀ l ∈ s.labels, Asks l.sql.toList [])
    (hmeasure : ∀ m ∈ s.measure, Asks (m.1.named m.2).toList []) (hkeys : ∀ k ∈ s.keys, Asks k.sql.toList []) :
    Asks s.unordered.toList (s.operands.map Operand.mark) := by
  have hwords : ∀ w ∈ ["SELECT ", "DISTINCT ", ", ", " FROM ", " GROUP BY "], Inert w.toList := by decide
  have hclause : ∀ w ∈ [" WHERE ", " WHERE (", " AND ", ")"], Inert w.toList := by decide
  have hwhere := additive_asks.whereClause (fun w hw => (hclause w hw).asks) fun c (_ : c ∈ s.conditions) => c.asks_sql
  have hmarks : s.conditions.flatMap (fun c => (c.operand?.map Operand.mark).toList) = s.operands.map Operand.mark := by
    rw [operands, List.map_filterMap, List.filterMap_eq_flatMap_toList]
  rw [hmarks] at hwhere
  exact additive_asks.unordered (fun w hw => (hwords w hw).asks) Table.asks_name hlabels hmeasure hwhere hkeys

/-- the placeholders of a statement: one a comparison with a value, and one for the limit at the end -/
theorem marked_sql (hunordered : Asks s.unordered.toList (s.operands.map Operand.mark))
    (horder : ∀ a ∈ s.arrangement, '?' ∉ a.order.clause.toList) :
    Marked s.sql.toList (s.operands.map Operand.mark ++ s.limit?.toList.map fun _ => " LIMIT ") := by
  unfold sql limit?
  rw [String.toList_append]
  refine hunordered.marked.append ?_
  cases ha : s.arrangement with
  | none => exact .nil
  | some a =>
    have hclause : Marked a.order.clause.toList [] := by
      rw [Marked, befores_of_not_mem (horder a ha)]
      exact .nil
    have hlimit : Marked (if a.limit.isSome then " LIMIT ?" else "").toList (a.limit.toList.map fun _ => " LIMIT ") := by
      cases a.limit with
      | none => exact .nil
      | some n =>
        show Marked (" LIMIT " ++ "?").toList [" LIMIT "]
        exact marked_behind (by decide)
    dsimp only [Option.bind_some]
    rw [String.toList_append]
    exact hclause.append hlimit

/-- nothing in a statement without an order looks like a limit -/
theorem no_limit (hunordered : Asks s.unordered.toList (s.operands.map Operand.mark)) (h : s.arrangement = none) :
    ¬ "LIMIT".toList <:+: s.sql.toList := by
  have htext : s.sql = s.unordered := by rw [sql, h, String.append_empty]
  rw [htext]
  exact hunordered.unlimited.no_limit

/-- a statement ends with a limit when it has one -/
theorem limit_suffix_iff (hunordered : Asks s.unordered.toList (s.operands.map Operand.mark))
    (horder : ∀ a ∈ s.arrangement, '?' ∉ a.order.clause.toList) :
    " LIMIT ?".toList <:+ s.sql.toList ↔ s.limit?.isSome := by
  cases ha : s.arrangement with
  | none =>
    rw [limit?, ha]
    constructor
    · intro h
      exact (no_limit hunordered ha (List.IsInfix.trans (by decide) h.isInfix)).elim
    · intro h
      cases h
  | some a =>
    rw [sql, limit?, ha, String.toList_append]
    dsimp only [Option.bind_some]
    rw [String.toList_append]
    cases hl : a.limit with
    | none =>
      rw [Option.isSome_none, if_neg Bool.false_ne_true, String.toList_empty, List.append_nil]
      constructor
      · intro h
        -- the last character would be one of the clause
        have hne : a.order.clause.toList ≠ [] := by simp [Order.clause]
        have hquestion : " LIMIT ?".toList.getLast? = some '?' := by decide
        obtain ⟨front, hfront⟩ := h
        have hlast := congrArg List.getLast? hfront
        rw [List.getLast?_append, List.getLast?_append, hquestion, List.getLast?_eq_some_getLast hne] at hlast
        exact (horder a ha (Option.some.inj hlast ▸ List.getLast_mem hne)).elim
      · intro h
        cases h
    | some n =>
      rw [← List.append_assoc]
      exact iff_of_true (List.suffix_append _ _) rfl

end Select

end LaunchReports
