/-
Texts that are put together from pieces.

Something is looked for in texts, and what is found adds up when one text stands behind another: `Additive` says so of
the relation between a text and what is found in it. What is found in the statement of a report is then what is found in
the clause of its conditions, if nothing is in the other pieces (`Additive.unordered`). Of labels and keys only the words
need a look that they add to their columns (`Additive.label`, `Additive.groupKey`).

That a word is nowhere in a text is shown by two of its letters: `Without.append`.
-/
import Mathlib.Data.List.Forall2
import Mathlib.Data.List.Infix
import LaunchReports.Catalog.Dimension
import LaunchReports.Sql.Select
import LaunchReports.Proofs.Schema.Names

namespace LaunchReports

/-! ## Words beside columns -/

/-- the literals in an expression -/
def Expression.literals : Expression → List (List Char)
  | joined pieces => pieces.filterMap fun
    | .text s => some (Value.quotedText s.toList)
    | .column _ => none
  | _ => []

def Label.words (l : Label) : List (List Char) := l.name.toList :: l.expression.literals

def GroupKey.words : GroupKey → List (List Char)
  | column _ => []
  | label name => [name.toList]
  | expression e => e.literals

/-- all words that the dimension puts into a statement -/
def Dimension.words (d : Dimension) : List (List Char) := d.labels.flatMap Label.words ++ d.keys.flatMap GroupKey.words

/-- the literals in the labels and keys of the catalog -/
def Dimension.literals : List (List Char) :=
  [".", " (", ")", ",", " "].map fun s => Value.quotedText s.toList

theorem Dimension.words_of_mem_all :
    ∀ d ∈ all, ∀ w ∈ d.words, ColumnName.isPlain w = true ∨ w ∈ literals := by
  decide

theorem Dimension.words_ofField (f : Field) : (ofField f).words = [f.column.name.toList] := rfl

/-! ## Texts of clauses -/

theorem Fragment.whereClause_eq (fragments : List Fragment) :
    whereClause fragments =
      if fragments.map Fragment.sql = [] then ""
      else if (fragments.map Fragment.sql).length = 1 then
        " WHERE " ++ " AND ".intercalate (fragments.map Fragment.sql)
      else " WHERE (" ++ " AND ".intercalate (fragments.map Fragment.sql) ++ ")" := by
  match fragments with
  | [] => rfl
  | [only] => simp [whereClause, String.intercalate_singleton]
  | f :: g :: rest => simp [whereClause]

/-- a clause of conditions depends on their texts alone -/
theorem Fragment.whereClause_congr {fs gs : List Fragment} (h : fs.map Fragment.sql = gs.map Fragment.sql) :
    whereClause fs = whereClause gs := by
  rw [whereClause_eq, whereClause_eq, h]

/-- the names of the joined tables follow that of the first one -/
theorem intercalate_tables (first : String) (names : List String) :
    ", ".intercalate (first :: names) = first ++ tablesClause names := by
  rw [← String.toList_inj, String.toList_append, String.toList_intercalate, tablesClause]
  cases names with
  | nil => simp
  | cons name names =>
    rw [List.map_cons, List.map_cons, List.intercalate_cons_cons, List.isEmpty_cons, if_neg Bool.false_ne_true,
      String.toList_append, String.toList_intercalate, List.append_assoc]
    rfl

/-! ## Pairs of letters -/

/-- `a` stands nowhere right before `b`, and `b` does not begin the text -/
structure Without (a b : Char) (text : List Char) : Prop where
  head : text.head? ≠ some b
  inner : ¬ [a, b] <:+: text

namespace Without

variable {a b : Char}

theorem iff_and {text : List Char} : Without a b text ↔ text.head? ≠ some b ∧ ¬ [a, b] <:+: text :=
  ⟨fun h => ⟨h.head, h.inner⟩, fun h => ⟨h.1, h.2⟩⟩

instance (text : List Char) : Decidable (Without a b text) := decidable_of_iff' _ iff_and

theorem append {s t : List Char} (hs : Without a b s) (ht : Without a b t) : Without a b (s ++ t) where
  head := by
    cases s with
    | nil => exact ht.head
    | cons c s => exact hs.head
  inner h := by
    rcases List.infix_append_iff_ne_nil.1 h with h | h | ⟨front, back, hfront, hback, hpair, -, hprefix⟩
    · exact hs.inner h
    · exact ht.inner h
    · -- the two letters would stand on both sides of the seam
      match front, back with
      | [_], [_] =>
        cases hpair
        obtain ⟨rest, rfl⟩ := hprefix
        exact ht.head rfl
      | _ :: _ :: front, _ :: back => simp at hpair
      | [_], _ :: _ :: back => simp at hpair

end Without

/-! ## Findings -/

structure Additive {α : Type} (R : List Char → List α → Prop) : Prop where
  nil : R [] []
  append {a b : List Char} {s t : List α} (ha : R a s) (hb : R b t) : R (a ++ b) (s ++ t)

namespace Additive

variable {α : Type} {R : List Char → List α → Prop}

/-! ## Lists -/

/-- pieces and what stands between them -/
theorem intercalate (h : Additive R) {separator : String} (hs : R separator.toList []) {pieces : List String}
    {found : List (List α)} (hp : List.Forall₂ (fun p s => R p.toList s) pieces found) :
    R (separator.intercalate pieces).toList found.flatten := by
  rw [String.toList_intercalate]
  induction hp with
  | nil => exact h.nil
  | @cons p s ps ss hp hps ih =>
    cases hps with
    | nil => simpa using hp
    | cons hq hqs =>
      rw [List.map_cons, List.map_cons, List.intercalate_cons_cons, List.flatten_cons]
      simpa using h.append (h.append hp hs) ih

/-- pieces in which nothing is found -/
theorem separated (h : Additive R) {separator : String} (hs : R separator.toList []) {pieces : List String}
    (hp : ∀ p ∈ pieces, R p.toList []) : R (separator.intercalate pieces).toList [] := by
  have hall : List.Forall₂ (fun p s => R p.toList s) pieces (pieces.map fun _ => []) := by
    rw [List.forall₂_map_right_iff, List.forall₂_same]
    exact hp
  simpa using h.intercalate hs hall

/-! ## Labels and keys -/

section Columns

variable (hcolumn : ∀ c : Column, R c.text.toList [])
  (hwords : ∀ w ∈ [" || ", "strftime('%G%V', ", ")", "CASE WHEN ", " = 0 THEN 'java' ELSE 'flash' END"], R w.toList [])

include hcolumn hwords

theorem expression (h : Additive R) {e : Expression} (hliterals : ∀ w ∈ e.literals, R w []) : R e.sql.toList [] := by
  simp only [List.forall_mem_cons] at hwords
  obtain ⟨hbar, hweek, hclose, hcase, hend, -⟩ := hwords
  cases e with
  | column c => exact hcolumn c
  | joined pieces =>
    refine h.separated hbar fun p hp => ?_
    obtain ⟨piece, hm, rfl⟩ := List.mem_map.1 hp
    cases piece with
    | column c => exact hcolumn c
    | text s =>
      rw [Piece.sql, String.toList_ofList]
      exact hliterals _ (List.mem_filterMap.2 ⟨_, hm, rfl⟩)
  | isoWeek c =>
    show R ("strftime('%G%V', " ++ c.text ++ ")").toList []
    rw [String.toList_append, String.toList_append]
    exact h.append (s := []) (h.append (s := []) hweek (hcolumn c)) hclose
  | simTypeName =>
    show R ("CASE WHEN " ++ (Column.session .simType).text ++ " = 0 THEN 'java' ELSE 'flash' END").toList []
    rw [String.toList_append, String.toList_append]
    exact h.append (s := []) (h.append (s := []) hcase (hcolumn _)) hend

theorem label (h : Additive R) (has : R " AS ".toList []) {l : Label} (hl : ∀ w ∈ l.words, R w []) :
    R l.sql.toList [] := by
  obtain ⟨hname, hliterals⟩ := List.forall_mem_cons.1 hl
  rw [Label.sql, String.toList_append, String.toList_append]
  exact h.append (s := []) (h.append (s := []) (h.expression hcolumn hwords hliterals) has) hname

theorem groupKey (h : Additive R) {k : GroupKey} (hk : ∀ w ∈ k.words, R w []) : R k.sql.toList [] := by
  cases k with
  | column c => exact hcolumn c
  | label name => exact hk _ List.mem_cons_self
  | expression e => exact h.expression hcolumn hwords hk

end Columns

/-! ## Clauses -/

theorem tablesClause (h : Additive R) (hcomma : R ", ".toList []) (htables : ∀ t : Table, R t.name.toList [])
    (tables : List Table) : R (tablesClause (tables.map Table.name)).toList [] := by
  unfold LaunchReports.tablesClause
  split
  · exact h.nil
  · rw [String.toList_append]
    exact h.append (s := []) hcomma (h.separated hcomma (by simpa using fun t _ => htables t))

theorem groupClause (h : Additive R) (hgroup : R " GROUP BY ".toList []) (hcomma : R ", ".toList [])
    {keys : List GroupKey} (hk : ∀ k ∈ keys, R k.sql.toList []) :
    R (groupClause (keys.map GroupKey.sql)).toList [] := by
  unfold LaunchReports.groupClause
  split
  · exact h.nil
  · rw [String.toList_append]
    exact h.append (s := []) hgroup (h.separated hcomma (by simpa using hk))

theorem whereClause (h : Additive R) (hwords : ∀ w ∈ [" WHERE ", " WHERE (", " AND ", ")"], R w.toList [])
    {conditions : List Condition} {find : Condition → List α} (hc : ∀ c ∈ conditions, R c.sql.toList (find c)) :
    R (Fragment.whereClause (conditions.map Condition.fragment)).toList (conditions.flatMap find) := by
  simp only [List.forall_mem_cons] at hwords
  obtain ⟨hone, hmany, hand, hclose, -⟩ := hwords
  match conditions with
  | [] => exact h.nil
  | [c] =>
    rw [List.map_singleton, Fragment.whereClause, String.toList_append, List.flatMap_singleton]
    exact h.append (s := []) hone (hc c List.mem_cons_self)
  | c :: d :: cs =>
    have hall : List.Forall₂ (fun p s => R p.toList s) (((c :: d :: cs).map Condition.fragment).map Fragment.sql)
        ((c :: d :: cs).map find) := by
      rw [List.map_map, List.forall₂_map_left_iff, List.forall₂_map_right_iff, List.forall₂_same]
      exact hc
    have htexts := h.intercalate hand hall
    rw [← List.flatMap_def] at htexts
    show R (" WHERE (" ++ " AND ".intercalate (((c :: d :: cs).map Condition.fragment).map Fragment.sql) ++ ")").toList _
    rw [String.toList_append, String.toList_append]
    simpa using h.append (h.append hmany htexts) hclose

/-! ## Statements -/

/-- a statement without its order -/
theorem unordered (h : Additive R)
    (hwords : ∀ w ∈ ["SELECT ", "DISTINCT ", ", ", " FROM ", " GROUP BY "], R w.toList [])
    (htables : ∀ t : Table, R t.name.toList []) {s : Select} {found : List α}
    (hlabels : ∀ l ∈ s.labels, R l.sql.toList []) (hmeasure : ∀ m ∈ s.measure, R (m.1.named m.2).toList [])
    (hwhere : R (Fragment.whereClause (s.conditions.map Condition.fragment)).toList found)
    (hkeys : ∀ k ∈ s.keys, R k.sql.toList []) : R s.unordered.toList found := by
  simp only [List.forall_mem_cons] at hwords
  obtain ⟨hselect, hdistinct, hcomma, hfrom, hgroup, -⟩ := hwords
  have hmode : R (if s.distinct then "DISTINCT " else "").toList [] := by
    split
    · exact hdistinct
    · exact h.nil
  have houtputs : ∀ o ∈ s.outputSql, R o.toList [] := by
    intro o ho
    rcases List.mem_append.1 ho with ho | ho
    · obtain ⟨l, hl, rfl⟩ := List.mem_map.1 ho
      exact hlabels l hl
    · obtain ⟨m, hm, rfl⟩ := Option.map_eq_some_iff.1 (Option.mem_toList.1 ho)
      exact hmeasure m hm
  have hhead := h.append (h.append (h.append hselect hmode) (h.separated hcomma houtputs)) hfrom
  have htail := h.append (h.append (htables .session) (h.tablesClause hcomma htables s.tables)) hwhere
  have hwhole := h.append (h.append hhead htail) (h.groupClause hgroup hcomma hkeys)
  simpa only [Select.unordered, String.toList_append, List.nil_append, List.append_nil, List.append_assoc] using hwhole

end Additive

end LaunchReports
