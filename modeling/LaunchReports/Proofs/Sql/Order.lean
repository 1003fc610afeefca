/-
How column names are read, and what an order can put into a statement: identifiers, and the words around them.

- `ColumnName.read?_eq_some_iff`: the names that are read are those that `ColumnName.Spells` spells, an identifier or
  two with a dot between them; `ColumnName.read?_bare` and `ColumnName.read?_qualified` read one of either kind.
- `Order.read?_eq_some_iff`: an order is read from its mark and its column, and from nothing else.
- `Order.mem_clause`: whatever order is read, its clause is made of letters, digits and `_`, of the dot between two
  names and of the spaces between the words.
-/
import LaunchReports.Sql.Order

namespace LaunchReports

namespace ColumnName

/-! ## Identifiers -/

/-- a letter of ASCII, or `_` -/
def IsLetter (c : Char) : Prop := ('A' ≤ c ∧ c ≤ 'Z') ∨ ('a' ≤ c ∧ c ≤ 'z') ∨ c = '_'

/-- a letter, then letters and ASCII digits -/
inductive Identifier : List Char → Prop
  | mk {first : Char} {rest : List Char} : IsLetter first → (∀ c ∈ rest, IsLetter c ∨ ('0' ≤ c ∧ c ≤ '9')) →
    Identifier (first :: rest)

theorem startsIdentifier_iff {c : Char} : startsIdentifier c = true ↔ IsLetter c := by
  have hupper : c.isUpper = true ↔ 'A' ≤ c ∧ c ≤ 'Z' := decide_eq_true_iff
  have hlower : c.isLower = true ↔ 'a' ≤ c ∧ c ≤ 'z' :=
    Bool.and_eq_true_iff.trans (and_congr decide_eq_true_iff decide_eq_true_iff)
  have halpha : c.isAlpha = true ↔ c.isUpper = true ∨ c.isLower = true := Bool.or_eq_true_iff
  rw [startsIdentifier, Bool.or_eq_true, halpha, hupper, hlower, beq_iff_eq, or_assoc, IsLetter]

theorem inIdentifier_iff {c : Char} : inIdentifier c = true ↔ IsLetter c ∨ ('0' ≤ c ∧ c ≤ '9') := by
  have hdigit : c.isDigit = true ↔ '0' ≤ c ∧ c ≤ '9' :=
    Bool.and_eq_true_iff.trans (and_congr decide_eq_true_iff decide_eq_true_iff)
  rw [← startsIdentifier_iff, ← hdigit]
  simp [inIdentifier, startsIdentifier, Char.isAlphanum, or_right_comm]

theorem isIdentifier_iff {name : List Char} : isIdentifier name = true ↔ Identifier name := by
  constructor
  · intro h
    cases name with
    | nil => cases h
    | cons first rest =>
      rw [isIdentifier, Bool.and_eq_true, List.all_eq_true] at h
      exact .mk (startsIdentifier_iff.1 h.1) fun c hc => inIdentifier_iff.1 (h.2 c hc)
  · rintro ⟨hfirst, hrest⟩
    rw [isIdentifier, Bool.and_eq_true, List.all_eq_true]
    exact ⟨startsIdentifier_iff.2 hfirst, fun c hc => inIdentifier_iff.2 (hrest c hc)⟩

theorem inIdentifier_of_mem {name : List Char} (h : isIdentifier name = true) {c : Char} (hc : c ∈ name) :
    inIdentifier c = true := by
  cases name with
  | nil => cases hc
  | cons first rest =>
    rw [isIdentifier, Bool.and_eq_true, List.all_eq_true] at h
    rcases List.mem_cons.1 hc with rfl | hc
    · have hfirst := h.1
      rw [startsIdentifier, Bool.or_eq_true] at hfirst
      rw [inIdentifier, Char.isAlphanum, Bool.or_eq_true, Bool.or_eq_true]
      exact hfirst.imp_left .inl
    · exact h.2 c hc

theorem not_mem_of_isIdentifier {name : List Char} {c : Char} (h : isIdentifier name = true)
    (hc : inIdentifier c = false) : c ∉ name := by
  intro hm
  rw [inIdentifier_of_mem h hm] at hc
  cases hc

theorem forall_ne_dot {name : List Char} (h : isIdentifier name = true) : ∀ c ∈ name, decide (c ≠ '.') = true := by
  intro c hc
  exact decide_eq_true fun e => not_mem_of_isIdentifier h (by decide) (e ▸ hc)

theorem read?_bare {name : List Char} (h : isIdentifier name = true) :
    read? name = some ⟨none, String.ofList name⟩ := by
  have hdot := forall_ne_dot h
  have htake : (name ++ []).takeWhile (fun c => decide (c ≠ '.')) = name := by
    rw [List.takeWhile_append_of_pos hdot]
    simp
  have hdrop : (name ++ []).dropWhile (fun c => decide (c ≠ '.')) = [] := by
    rw [List.dropWhile_append_of_pos hdot]
    simp
  rw [List.append_nil] at htake hdrop
  rw [read?]
  simp only [htake, hdrop, h]
  rfl

theorem read?_qualified {qualifier name : List Char} (hq : isIdentifier qualifier = true)
    (hn : isIdentifier name = true) :
    read? (qualifier ++ '.' :: name) = some ⟨some (String.ofList qualifier), String.ofList name⟩ := by
  have hdot := forall_ne_dot hq
  have htake : (qualifier ++ '.' :: name).takeWhile (fun c => decide (c ≠ '.')) = qualifier := by
    rw [List.takeWhile_append_of_pos hdot]
    simp
  have hdrop : (qualifier ++ '.' :: name).dropWhile (fun c => decide (c ≠ '.')) = '.' :: name := by
    rw [List.dropWhile_append_of_pos hdot]
    simp
  rw [read?]
  simp only [htake, hdrop, hq, hn]
  rfl

/-! ## Names -/

/-- the text is the name of the column: an identifier, or two with a dot between them -/
inductive Spells : List Char → ColumnName → Prop
  | bare {name : List Char} : Identifier name → Spells name ⟨none, String.ofList name⟩
  | qualified {qualifier name : List Char} : Identifier qualifier → Identifier name →
    Spells (qualifier ++ '.' :: name) ⟨some (String.ofList qualifier), String.ofList name⟩

/-- what is read is what is spelled -/
theorem read?_eq_some_iff {raw : List Char} {column : ColumnName} : read? raw = some column ↔ Spells raw column := by
  constructor
  · intro h
    -- the text up to the first dot, and the rest with it
    have hsplit : raw.takeWhile (· ≠ '.') ++ raw.dropWhile (· ≠ '.') = raw := List.takeWhile_append_dropWhile
    unfold read? at h
    dsimp only at h
    split at h
    next hrest =>
      split at h <;> cases h
      next hname =>
        rw [hrest, List.append_nil] at hsplit
        rw [hsplit] at hname ⊢
        exact .bare (isIdentifier_iff.1 hname)
    next dot tail hrest =>
      split at h <;> cases h
      next hnames =>
        rw [Bool.and_eq_true] at hnames
        have hdot : dot = '.' := by
          have hstop := List.head?_dropWhile_not (fun c => decide (c ≠ '.')) raw
          rw [hrest] at hstop
          simpa using hstop
        rw [hrest, hdot] at hsplit
        have hspells := Spells.qualified (isIdentifier_iff.1 hnames.1) (isIdentifier_iff.1 hnames.2)
        rwa [hsplit] at hspells
  · intro h
    cases h with
    | bare hname => exact read?_bare (isIdentifier_iff.2 hname)
    | qualified hqualifier hname => exact read?_qualified (isIdentifier_iff.2 hqualifier) (isIdentifier_iff.2 hname)

theorem Spells.text_eq {raw : List Char} {column : ColumnName} (h : Spells raw column) : column.text.toList = raw := by
  cases h with
  | bare => simp [text]
  | qualified => simp [text]

theorem mem_text {raw : List Char} {column : ColumnName} (h : read? raw = some column) {c : Char}
    (hc : c ∈ column.text.toList) : inIdentifier c = true ∨ c = '.' := by
  have hspells := read?_eq_some_iff.1 h
  rw [hspells.text_eq] at hc
  cases hspells with
  | bare hname => exact .inl (inIdentifier_of_mem (isIdentifier_iff.2 hname) hc)
  | qualified hqualifier hname =>
    rw [List.mem_append, List.mem_cons] at hc
    rcases hc with hc | rfl | hc
    · exact .inl (inIdentifier_of_mem (isIdentifier_iff.2 hqualifier) hc)
    · exact .inr rfl
    · exact .inl (inIdentifier_of_mem (isIdentifier_iff.2 hname) hc)

end ColumnName

/-! ## Orders -/

namespace Order

/-- the order without the mark for descending, if that stands in front -/
def unmarked (raw : List Char) : List Char :=
  if descendingMark <+: raw then raw.drop descendingMark.length else raw

/-- what stands before the column -/
def mark (o : Order) : List Char := if o.descending then descendingMark else []

theorem isPrefixOf_append_mark (rest : List Char) : descendingMark.isPrefixOf (descendingMark ++ rest) = true :=
  List.isPrefixOf_iff_prefix.2 (List.prefix_append ..)

/-- no name of a column begins with the mark -/
theorem isPrefixOf_of_spells {raw : List Char} {column : ColumnName} (h : ColumnName.Spells raw column) :
    descendingMark.isPrefixOf raw = false := by
  rw [← Bool.not_eq_true, List.isPrefixOf_iff_prefix]
  intro hmark
  have hcolon : ':' ∈ raw := hmark.subset (by decide)
  rw [← h.text_eq] at hcolon
  rcases ColumnName.mem_text (ColumnName.read?_eq_some_iff.2 h) hcolon with h | h <;> revert h <;> decide

/-- an order is read from its mark and its column, and from nothing else -/
theorem read?_eq_some_iff {raw : List Char} {o : Order} :
    read? raw = some o ↔ ∃ column, raw = o.mark ++ column ∧ ColumnName.Spells column o.column := by
  constructor
  · intro h
    unfold read? at h
    split at h
    next hmark =>
      obtain ⟨rest, rfl⟩ := List.isPrefixOf_iff_prefix.1 hmark
      rw [List.drop_left] at h
      obtain ⟨column, hread, rfl⟩ := Option.map_eq_some_iff.1 h
      exact ⟨rest, rfl, ColumnName.read?_eq_some_iff.1 hread⟩
    next =>
      obtain ⟨column, hread, rfl⟩ := Option.map_eq_some_iff.1 h
      exact ⟨raw, rfl, ColumnName.read?_eq_some_iff.1 hread⟩
  · rintro ⟨column, rfl, hcolumn⟩
    obtain ⟨name, descending⟩ := o
    have hread := ColumnName.read?_eq_some_iff.2 hcolumn
    cases descending with
    | true => simp [read?, mark, isPrefixOf_append_mark, hread]
    | false => simp [read?, mark, isPrefixOf_of_spells hcolumn, hread]

example : read? "desc:desc:week".toList = none ∧ read? "week\n".toList = none := by decide

theorem descending_iff {raw : List Char} {o : Order} (h : read? raw = some o) :
    o.descending = true ↔ descendingMark <+: raw := by
  obtain ⟨column, rfl, hcolumn⟩ := read?_eq_some_iff.1 h
  cases hd : o.descending with
  | true => simp [mark, hd]
  | false =>
    have hnone := isPrefixOf_of_spells hcolumn
    rw [← Bool.not_eq_true, List.isPrefixOf_iff_prefix] at hnone
    simpa [mark, hd] using hnone

theorem exists_read?_iff {raw : List Char} :
    (∃ o, read? raw = some o) ↔ ∃ column, ColumnName.Spells (unmarked raw) column := by
  have hmap : ∀ (name : Option ColumnName) (descending : Bool),
      (∃ o, name.map (Order.mk · descending) = some o) ↔ ∃ column, name = some column := by
    intro name descending
    cases name <;> simp
  rw [read?, unmarked]
  by_cases h : descendingMark <+: raw
  · rw [if_pos (List.isPrefixOf_iff_prefix.2 h), if_pos h, hmap]
    simp only [ColumnName.read?_eq_some_iff]
  · rw [if_neg fun hp => h (List.isPrefixOf_iff_prefix.1 hp), if_neg h, hmap]
    simp only [ColumnName.read?_eq_some_iff]

/-- the characters of an order -/
theorem mem_clause {raw : List Char} {o : Order} (h : read? raw = some o) {c : Char}
    (hc : c ∈ o.clause.toList) : ColumnName.inIdentifier c = true ∨ c = '.' ∨ c = ' ' := by
  obtain ⟨column, -, hspells⟩ := read?_eq_some_iff.1 h
  have hwords : ∀ d ∈ " ORDER BY ".toList ++ " DESC".toList, ColumnName.inIdentifier d = true ∨ d = ' ' := by
    have key : (" ORDER BY ".toList ++ " DESC".toList).all (fun d => ColumnName.inIdentifier d || d == ' ') = true := by
      decide
    intro d hd
    simpa using List.all_eq_true.1 key d hd
  rw [clause, String.toList_append, String.toList_append, List.mem_append, List.mem_append] at hc
  rcases hc with (hc | hc) | hc
  · exact (hwords c (List.mem_append_left _ hc)).imp_right .inr
  · exact (ColumnName.mem_text (ColumnName.read?_eq_some_iff.2 hspells) hc).imp_right .inl
  · split at hc
    · exact (hwords c (List.mem_append_right _ hc)).imp_right .inr
    · cases hc

end Order

end LaunchReports
