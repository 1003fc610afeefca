/-
Which variables the text of a statement dereferences.

`Variable.dereferenced` goes over a text from left to right and notes a variable wherever a whole subquery for one
stands, its symbol read as a text literal. `Reads` says which variables a text adds to those of the text behind it, so
that the pieces of a statement can be taken one by one. `Select.reads_sql` finds in a whole statement the variables of
its conditions, each as often as a condition reads it.
-/
import LaunchReports.Proofs.Sql.Literal
import LaunchReports.Proofs.Sql.Pieces

namespace LaunchReports

namespace Variable

/-! ## Reading a text -/

/-- what stands before the symbol of a dereferenced variable, the quote of its literal included -/
def opening : List Char := "(SELECT value FROM temp.report_bindings WHERE symbol = '".toList

/-- the variable whose subquery stands at the start of a text -/
def subqueryAt? (text : List Char) : Option String :=
  if opening.isPrefixOf text then
    match Value.readQuoted (text.drop opening.length) with
    | some (symbol, ')' :: _) => some (String.ofList symbol)
    | _ => none
  else none

/-- the variables that a text dereferences, in order of appearance -/
def dereferenced : List Char → List String
  | [] => []
  | c :: rest => (subqueryAt? (c :: rest)).toList ++ dereferenced rest

theorem opening_eq : ∃ rest, opening = '(' :: 'S' :: rest := ⟨opening.drop 2, by decide⟩

theorem reference_eq (symbol : String) :
    reference symbol = "(SELECT value FROM temp.report_bindings WHERE symbol = '" ++ symbol ++ "')" := by
  have hfront : "(SELECT value FROM temp." ++ bindingsTable ++ " WHERE symbol = '" =
      "(SELECT value FROM temp.report_bindings WHERE symbol = '" := by decide
  exact congrArg (fun front => front ++ symbol ++ "')") hfront

theorem reference_toList (symbol : String) :
    (reference symbol).toList = opening ++ (symbol.toList ++ ['\'', ')']) := by
  rw [reference_eq, String.toList_append, String.toList_append, List.append_assoc]
  rfl

/-- a subquery is read as the variable that it stands for -/
theorem subqueryAt?_reference {symbol : String} (h : '\'' ∉ symbol.toList) (rest : List Char) :
    subqueryAt? ((reference symbol).toList ++ rest) = some symbol := by
  have hclose : (')' :: rest).head? ≠ some '\'' := by simp
  have hread := Value.readQuoted_doubleQuotes symbol.toList hclose
  rw [Value.doubleQuotes_of_not_mem h] at hread
  rw [reference_toList, subqueryAt?, if_pos (by simp), List.append_assoc, List.drop_left]
  simp [hread]

/-! ## Texts with their variables -/

/-- the text adds these variables to those of whatever stands behind it -/
def Reads (text : List Char) (symbols : List String) : Prop :=
  ∀ rest, dereferenced (text ++ rest) = symbols ++ dereferenced rest

theorem Reads.eq {text : List Char} {symbols : List String} (h : Reads text symbols) : dereferenced text = symbols := by
  simpa [dereferenced] using h []

theorem Reads.append {a b : List Char} {s t : List String} (ha : Reads a s) (hb : Reads b t) :
    Reads (a ++ b) (s ++ t) := by
  intro rest
  rw [List.append_assoc, ha, hb, List.append_assoc]

theorem additive_reads : Additive Reads := ⟨fun _ => rfl, Reads.append⟩

theorem dereferenced_cons_of_ne {c : Char} (h : c ≠ '(') (rest : List Char) :
    dereferenced (c :: rest) = dereferenced rest := by
  obtain ⟨tail, ht⟩ := opening_eq
  have : opening.isPrefixOf (c :: rest) = false := by
    rw [ht, List.isPrefixOf_cons_cons, beq_false_of_ne h.symm, Bool.false_and]
  simp [dereferenced, subqueryAt?, this]

/-- a parenthesis opens a subquery only before an `S` -/
theorem dereferenced_paren {text : List Char} (h : text.head? ≠ some 'S') :
    dereferenced ('(' :: text) = dereferenced text := by
  obtain ⟨tail, ht⟩ := opening_eq
  have : opening.isPrefixOf ('(' :: text) = false := by
    cases text with
    | nil => rw [ht]; rfl
    | cons d text =>
      have hd : 'S' ≠ d := fun e => h (by rw [← e]; rfl)
      rw [ht, List.isPrefixOf_cons_cons, List.isPrefixOf_cons_cons, beq_false_of_ne hd, Bool.false_and, Bool.and_false]
  simp [dereferenced, subqueryAt?, this]

theorem Reads.paren {d : Char} {tail : List Char} {symbols : List String} (h : Reads (d :: tail) symbols) (hd : d ≠ 'S') :
    Reads ('(' :: d :: tail) symbols := by
  intro rest
  rw [List.cons_append, dereferenced_paren (by simpa using hd), h]

/-- every parenthesis that opens is followed by another character than `S` -/
def quiet : List Char → Bool
  | [] => true
  | c :: rest => (c != '(' || rest.head?.any (· != 'S')) && quiet rest

theorem reads_of_quiet {text : List Char} (h : quiet text = true) : Reads text [] := by
  intro rest
  induction text with
  | nil => rfl
  | cons c text ih =>
    simp only [quiet, Bool.and_eq_true, Bool.or_eq_true, bne_iff_ne, ne_eq] at h
    rw [List.cons_append, ← ih h.2]
    by_cases hc : c = '('
    · subst hc
      obtain ⟨d, hd, hne⟩ := (Option.any_eq_true _ _).1 (h.1.resolve_left (by simp))
      refine dereferenced_paren ?_
      cases text with
      | nil => cases hd
      | cons e text => cases hd; simpa using hne
    · exact dereferenced_cons_of_ne hc _

theorem quiet_of_not_mem {text : List Char} (h : '(' ∉ text) : quiet text = true := by
  induction text with
  | nil => rfl
  | cons c text ih =>
    have hc : c ≠ '(' := fun e => h (e ▸ List.mem_cons_self)
    simp [quiet, hc, ih fun hm => h (List.mem_cons_of_mem _ hm)]

/-- a subquery reads its variable -/
theorem reads_reference {symbol : String} (h : '\'' ∉ symbol.toList) (hp : '(' ∉ symbol.toList) :
    Reads (reference symbol).toList [symbol] := by
  intro rest
  have hopen : opening = '(' :: opening.tail := by decide
  have htail : '(' ∉ opening.tail := by decide
  have hin : Reads (opening.tail ++ (symbol.toList ++ ['\'', ')'])) [] :=
    reads_of_quiet (quiet_of_not_mem (by simp [htail, hp]))
  have hat := subqueryAt?_reference h rest
  rw [reference_toList, hopen, List.cons_append, List.cons_append] at hat ⊢
  rw [dereferenced, hat, hin]
  rfl

end Variable

open ColumnName Variable

/-! ## Conditions -/

theorem quiet_of_isPlain {name : List Char} (h : isPlain name = true) : quiet name = true :=
  quiet_of_not_mem (not_mem_of_isPlain h (by decide))

theorem Table.reads_name (t : Table) : Reads t.name.toList [] :=
  reads_of_quiet (quiet_of_isPlain t.isPlain_name)

theorem Column.reads_text (c : Column) : Reads c.text.toList [] := by
  have hdot : Reads ".".toList [] := reads_of_quiet (by decide)
  rw [text, String.toList_append, String.toList_append]
  exact (c.table.reads_name.append hdot).append (reads_of_quiet (quiet_of_isPlain c.isPlain_name))

theorem Comparison.reads_sql (c : Comparison) (column : Column) : Reads (c.sql column.text).toList [] := by
  have hcolumn := column.reads_text
  cases c with
  | isNull =>
    rw [sql, String.toList_append]
    exact hcolumn.append (reads_of_quiet (by decide))
  | isNotNull =>
    rw [sql, String.toList_append]
    exact hcolumn.append (reads_of_quiet (by decide))
  | binary op operand =>
    have hop : Reads op.symbol.toList [] := reads_of_quiet (by cases op <;> decide)
    rw [sql, String.toList_append, String.toList_append, String.toList_append]
    exact ((hcolumn.append (reads_of_quiet (by decide))).append hop).append (reads_of_quiet (by decide))

theorem NameTable.symbol_plain (t : NameTable) : '\'' ∉ t.symbol.toList ∧ '(' ∉ t.symbol.toList :=
  ⟨not_mem_of_isPlain t.isPlain_symbol (by decide), not_mem_of_isPlain t.isPlain_symbol (by decide)⟩

theorem Condition.reads_sql (c : Condition) : Reads c.sql.toList (c.reads?.map NameTable.symbol).toList := by
  have heq : Reads " = ".toList [] := reads_of_quiet (by decide)
  cases c with
  | compares column comparison => exact comparison.reads_sql column
  | isOfType t => cases t <;> exact reads_of_quiet (by decide)
  | refersTo column target =>
    rw [sql, String.toList_append, String.toList_append]
    exact (column.reads_text.append heq).append (reads_reference target.symbol_plain.1 target.symbol_plain.2)
  | equates a b =>
    rw [sql, String.toList_append, String.toList_append]
    exact (a.reads_text.append heq).append b.reads_text

theorem Column.head_text (c : Column) : ∃ d tail, c.text.toList = d :: tail ∧ d ≠ 'S' := by
  have hS : 'S' ∉ c.table.name.toList := not_mem_of_isPlain c.table.isPlain_name (by decide)
  obtain ⟨d, tail, ht⟩ := List.exists_cons_of_ne_nil (ne_nil_of_isPlain c.table.isPlain_name)
  refine ⟨d, tail ++ (".".toList ++ c.name.toList), ?_, fun hd => hS ?_⟩
  · rw [text, String.toList_append, String.toList_append, ht, List.append_assoc]
    rfl
  · rw [ht, hd]
    exact List.mem_cons_self

/-- conditions start with the name of a column -/
theorem Condition.head_sql (c : Condition) : ∃ d tail, c.sql.toList = d :: tail ∧ d ≠ 'S' := by
  have hmore : ∀ (k : Column) (rest : String), ∃ d tail, (k.text ++ rest).toList = d :: tail ∧ d ≠ 'S' := by
    intro k rest
    obtain ⟨d, tail, ht, hne⟩ := k.head_text
    exact ⟨d, tail ++ rest.toList, by rw [String.toList_append, ht]; rfl, hne⟩
  cases c with
  | compares k comparison =>
    cases comparison with
    | isNull => exact hmore k _
    | isNotNull => exact hmore k _
    | binary op operand =>
      simp only [sql, Comparison.sql, String.append_assoc]
      exact hmore k _
  | isOfType t => cases t <;> exact hmore _ _
  | refersTo k target =>
    simp only [sql, String.append_assoc]
    exact hmore k _
  | equates a b =>
    simp only [sql, String.append_assoc]
    exact hmore a _

/-! ## Labels, keys and measures -/

theorem reads_words : ∀ w ∈ [" || ", "strftime('%G%V', ", ")", "CASE WHEN ", " = 0 THEN 'java' ELSE 'flash' END"],
    Reads w.toList [] := by
  have key : ∀ w ∈ [" || ", "strftime('%G%V', ", ")", "CASE WHEN ", " = 0 THEN 'java' ELSE 'flash' END"],
      quiet w.toList = true := by decide
  exact fun w hw => reads_of_quiet (key w hw)

theorem Label.reads_sql {l : Label} (h : ∀ w ∈ l.words, quiet w = true) : Reads l.sql.toList [] :=
  additive_reads.label Column.reads_text reads_words (reads_of_quiet (by decide)) fun w hw => reads_of_quiet (h w hw)

theorem GroupKey.reads_sql {k : GroupKey} (h : ∀ w ∈ k.words, quiet w = true) : Reads k.sql.toList [] :=
  additive_reads.groupKey Column.reads_text reads_words fun w hw => reads_of_quiet (h w hw)

theorem Measure.reads_named (m : Measure) {name : String} (h : quiet name.toList = true) :
    Reads (m.named name).toList [] := by
  have has : Reads " AS ".toList [] := reads_of_quiet (by decide)
  have hsql : Reads m.sql.toList [] := by
    cases m with
    | count => exact reads_of_quiet (by decide)
    | sum c =>
      obtain ⟨d, tail, ht, hne⟩ := c.head_text
      have hcolumn := c.reads_text
      rw [ht] at hcolumn
      have hsum : Reads "SUM".toList [] := reads_of_quiet (by decide)
      have hclose : Reads ")".toList [] := reads_of_quiet (by decide)
      rw [sql, String.toList_append, String.toList_append, ht]
      exact (hsum.append (hcolumn.paren hne)).append hclose
  rw [named, String.toList_append, String.toList_append]
  exact (hsql.append has).append (reads_of_quiet h)

/-! ## Statements -/

theorem Fragment.symbols_conditions (cs : List Condition) :
    symbols (cs.map Condition.fragment) = (cs.map fun c => (c.reads?.map NameTable.symbol).toList).flatten := by
  induction cs with
  | nil => rfl
  | cons c cs ih =>
    rw [List.map_cons, List.map_cons, List.flatten_cons, ← ih, symbols, List.filterMap_cons]
    cases hc : c.reads? <;> simp [Condition.fragment, hc, symbols]

theorem Fragment.reads_whereClause (cs : List Condition) :
    Reads (whereClause (cs.map Condition.fragment)).toList (symbols (cs.map Condition.fragment)) := by
  rw [symbols_conditions]
  match cs with
  | [] => exact fun _ => rfl
  | [c] =>
    have hwhere : Reads " WHERE ".toList [] := reads_of_quiet (by decide)
    rw [List.map_singleton, List.map_singleton, List.flatten_singleton, whereClause, String.toList_append]
    exact hwhere.append c.reads_sql
  | c :: d :: cs =>
    have hall : List.Forall₂ (fun p s => Reads p.toList s) ((c :: d :: cs).map fun c => c.fragment.sql)
        ((c :: d :: cs).map fun c => (c.reads?.map NameTable.symbol).toList) := by
      rw [List.forall₂_map_left_iff, List.forall₂_map_right_iff, List.forall₂_same]
      exact fun c _ => c.reads_sql
    have hseparator : Reads " AND ".toList [] := reads_of_quiet (by decide)
    have hand := additive_reads.intercalate hseparator hall
    obtain ⟨a, tail, ha, hne⟩ := c.head_sql
    obtain ⟨rest, hrest⟩ : ∃ rest, (" AND ".intercalate ((c :: d :: cs).map fun c => c.fragment.sql)).toList = a :: rest := by
      rw [String.toList_intercalate, List.map_cons, List.map_cons, List.map_cons, List.map_cons,
        List.intercalate_cons_cons]
      show ∃ rest, c.sql.toList ++ _ ++ _ = a :: rest
      rw [ha]
      exact ⟨_, rfl⟩
    rw [hrest] at hand
    have hopen : Reads " WHERE ".toList [] := reads_of_quiet (by decide)
    have hclose : Reads ")".toList [] := reads_of_quiet (by decide)
    have hwhole := (hopen.append (hand.paren hne)).append hclose
    rw [List.nil_append, List.append_nil] at hwhole
    have htext : (whereClause ((c :: d :: cs).map Condition.fragment)).toList =
        " WHERE ".toList ++ '(' :: a :: rest ++ ")".toList := by
      have hw : " WHERE (".toList = " WHERE ".toList ++ ['('] := by decide
      show (" WHERE (" ++ " AND ".intercalate (((c :: d :: cs).map Condition.fragment).map Fragment.sql) ++ ")").toList = _
      rw [List.map_map, String.toList_append, String.toList_append]
      show _ ++ (" AND ".intercalate ((c :: d :: cs).map fun c => c.fragment.sql)).toList ++ _ = _
      rw [hrest]
      exact (congrArg (fun l => l ++ a :: rest ++ ")".toList) hw).trans (by rw [List.append_assoc _ ['(']]; rfl)
    rw [htext]
    exact hwhole

theorem Order.reads_clause {raw : List Char} {o : Order} (h : read? raw = some o) : Reads o.clause.toList [] := by
  apply reads_of_quiet
  apply quiet_of_not_mem
  intro hc
  rcases Order.mem_clause h hc with h | h | h <;> revert h <;> decide

/-- the statement of a report reads the variables of its conditions, each as often as a condition does -/
theorem Select.reads_sql (s : Select) (hlabels : ∀ l ∈ s.labels, Reads l.sql.toList [])
    (hmeasure : ∀ m ∈ s.measure, Reads (m.1.named m.2).toList []) (hkeys : ∀ k ∈ s.keys, Reads k.sql.toList [])
    (horder : ∀ a ∈ s.arrangement, Reads a.order.clause.toList []) :
    Reads s.sql.toList (Fragment.symbols (s.conditions.map Condition.fragment)) := by
  have hwords : ∀ w ∈ ["SELECT ", "DISTINCT ", ", ", " FROM ", " GROUP BY "], Reads w.toList [] := by
    have hquiet : ∀ w ∈ ["SELECT ", "DISTINCT ", ", ", " FROM ", " GROUP BY "], quiet w.toList = true := by decide
    exact fun w hw => reads_of_quiet (hquiet w hw)
  have hunordered := additive_reads.unordered hwords Table.reads_name hlabels hmeasure
    (Fragment.reads_whereClause s.conditions) hkeys
  unfold sql
  rw [String.toList_append]
  cases ha : s.arrangement with
  | none => simpa using hunordered
  | some a =>
    have hlimit : Reads (if a.limit.isSome then " LIMIT ?" else "").toList [] := reads_of_quiet (by split <;> decide)
    dsimp only
    rw [String.toList_append]
    simpa using hunordered.append ((horder a ha).append hlimit)

end LaunchReports
