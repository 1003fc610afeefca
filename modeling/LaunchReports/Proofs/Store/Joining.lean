/-
Joins of a report neither multiply nor lose sessions.

A session has at most one row in each table: `Store.partner?` finds it, `Store.view` is the session with the columns of
all its rows. `Select.Linked` says that a statement joins each table through the link to its key. For such a statement
and a sound store `Select.matching_eq` says that the joined rows are the views of the sessions that have a row in every
joined table and meet every condition, in the order of the sessions.

The proof follows the joins table by table: `joinTable_joined` is the step, `joinTables_joined` the run. A table adds at
most one row to each session since keys are distinct (`Store.Sound.keys_nodup`).
-/
import LaunchReports.Proofs.Store.Integrity

namespace LaunchReports

/-! ## Lists -/

theorem flatMap_filter_if {α β : Type} (p q : α → Bool) (f : α → β) (rows : List α) :
    (rows.filter p).flatMap (fun a => if q a then [f a] else []) = (rows.filter fun a => p a && q a).map f := by
  induction rows with
  | nil => rfl
  | cons a rest ih => cases hp : p a <;> cases hq : q a <;> simp [hp, hq, ih]

/-! ## Links -/

/-- the column that refers to the key of a table -/
def Table.anchor : Table → Column
  | .session | .side _ => .session .id
  | .names t => t.column

/-- a row of the table goes with the columns before it -/
def Table.link (t : Table) : Condition := .equates t.anchor t.rowId

theorem Table.table_rowId (t : Table) : t.rowId.table = t := by
  cases t with
  | side x => exact x.table_sessionId
  | session | names => rfl

/-- rows refer to keys of other tables -/
theorem Table.table_anchor_ne {t : Table} (h : t ≠ .session) : t.anchor.table ≠ t := by
  match t with
  | .session => contradiction
  | .side _ => intro e; cases e
  | .names u =>
    intro e
    have := u.column_table_mem
    rw [show u.column.table = .names u from e] at this
    simp [relations] at this

theorem Value.order_integer {m n : Int64} : (integer m).order (integer n) = .eq ↔ m = n := by
  rw [← Int64.toInt_inj, order, compareInt]
  split
  · simp; omega
  · split <;> simp <;> omega

theorem Value.equal_integer {a : Value} {n : Int64} (ha : a = .null ∨ ∃ m, a = .integer m) :
    Operator.equal.compare a (.integer n) = some true ↔ a = .integer n := by
  rcases ha with rfl | ⟨m, rfl⟩
  · simp [Operator.compare]
  · simp [Operator.compare, Operator.accepts, order_integer]

/-! ## What conditions read -/

theorem Condition.holds_of_columns {c : Condition} {a b : Row} (h : ∀ k : Column, k.table ∈ c.tables → a k = b k)
    (v : Variables) : c.holds v a = c.holds v b := by
  cases c with
  | compares k comparison => rw [holds, holds, truth, truth, h k (by simp [tables])]
  | isOfType t => cases t <;> rw [holds, holds, truth, truth, h _ (by simp [tables, Column.table])]
  | refersTo k t => rw [holds, holds, truth, truth, h k (by simp [tables])]
  | equates j k => rw [holds, holds, truth, truth, h j (by simp [tables]), h k (by simp [tables])]

namespace Row

/-- the columns of these tables; others are `NULL` -/
def only (tables : List Table) (row : Row) : Row := fun c => if c.table ∈ tables then row c else .null

theorem only_apply {tables : List Table} {row : Row} {c : Column} (h : c.table ∈ tables) : row.only tables c = row c :=
  if_pos h

theorem only_congr {ts us : List Table} (h : ∀ t, t ∈ ts ↔ t ∈ us) (row : Row) : row.only ts = row.only us := by
  funext c
  simp only [only, h]

end Row

/-! ## Sessions with all their rows -/

namespace Store

/-- the row of the session in a table with a row a session -/
def relation? (s : Store) (r : SessionRow) : Table → Option Row
  | .session => some r.row
  | .side x => (s.rows (.side x)).find? fun q => q x.sessionId = .integer r.id
  | .names _ => none

/-- the cell of the session in a column of these tables -/
def cell (s : Store) (r : SessionRow) (c : Column) : Value := ((s.relation? r c.table).map fun q => q c).getD .null

/-- the row that goes with the session in any table -/
def partner? (s : Store) (r : SessionRow) : Table → Option Row
  | .names t => (s.rows (.names t)).find? fun q => q (.names t .id) = s.cell r t.column
  | t => s.relation? r t

/-- the session with the columns of all rows that go with it -/
def view (s : Store) (r : SessionRow) : Row := fun c => ((s.partner? r c.table).map fun q => q c).getD .null

theorem view_eq_cell (s : Store) (r : SessionRow) {c : Column} (h : c.table ∈ Table.relations) :
    s.view r c = s.cell r c := by
  unfold view cell
  rcases hc : c.table with _ | x | u
  · rfl
  · rfl
  · rw [hc] at h; simp [Table.relations] at h

variable {s : Store}

/-- the row in a joined table is the one whose key the session refers to -/
theorem partner?_eq_find? (s : Store) (r : SessionRow) {t : Table} (ht : t ≠ .session) :
    s.partner? r t = (s.rows t).find? fun q => q t.rowId = s.view r t.anchor := by
  cases t with
  | session => contradiction
  | side x => rfl
  | names u =>
    rw [partner?, Table.anchor, view_eq_cell s r u.column_table_mem]
    rfl

theorem rowId_integer (s : Store) (t : Table) : ∀ q ∈ s.rows t, ∃ n, q t.rowId = .integer n := by
  intro q hq
  match t with
  | .session | .side .flashInfo | .side .javaInfo =>
    obtain ⟨r, -, rfl⟩ := List.mem_map.1 hq
    exact ⟨_, rfl⟩
  | .names u =>
    obtain ⟨r, -, rfl⟩ := List.mem_map.1 hq
    exact ⟨r.id, by simp [NameRow.row, Table.rowId, NameRow.cell]⟩

theorem Sound.keys_nodup (h : s.Sound) (t : Table) : ((s.rows t).map fun q => q t.rowId).Nodup := by
  obtain ⟨ids, hids, hkeys⟩ : ∃ ids : List Int64, ids.Nodup ∧ ((s.rows t).map fun q => q t.rowId) = ids.map .integer := by
    match t with
    | .session => exact ⟨_, h.sessions_nodup, by rw [rows, List.map_map, List.map_map]; rfl⟩
    | .side .flashInfo => exact ⟨_, h.sides_nodup .flashInfo, by rw [rows, sideIds, List.map_map, List.map_map]; rfl⟩
    | .side .javaInfo => exact ⟨_, h.sides_nodup .javaInfo, by rw [rows, sideIds, List.map_map, List.map_map]; rfl⟩
    | .names u =>
      refine ⟨_, (h.names u).ids_nodup, ?_⟩
      rw [rows, List.map_map, List.map_map]
      simp [Function.comp_def, NameRow.row, Table.rowId, NameRow.cell]
  rw [hkeys]
  exact hids.map fun _ _ => Value.integer.inj

theorem Sound.cell_refers (h : s.Sound) {r : SessionRow} (hr : r ∈ s.sessions) (t : NameTable) :
    s.cell r t.column = .null ∨ ∃ n ∈ (s.names.get t).rows, s.cell r t.column = .integer n.id := by
  unfold cell
  cases hq : s.relation? r t.column.table with
  | none => exact .inl rfl
  | some q =>
    refine h.refers t.column.table t.column_table_mem q ?_ t
    rcases ht : t.column.table with _ | x | u
    · rw [ht] at hq
      cases hq
      exact List.mem_map_of_mem hr
    · rw [ht] at hq
      exact List.mem_of_find?_eq_some hq
    · rw [ht] at hq
      cases hq

theorem Sound.view_anchor (h : s.Sound) {r : SessionRow} (hr : r ∈ s.sessions) (t : Table) :
    s.view r t.anchor = .null ∨ ∃ n, s.view r t.anchor = .integer n := by
  cases t with
  | session | side => exact .inr ⟨r.id, rfl⟩
  | names u =>
    rw [Table.anchor, view_eq_cell s r u.column_table_mem]
    exact (h.cell_refers hr u).imp_right fun ⟨n, _, e⟩ => ⟨n.id, e⟩

end Store

/-! ## Joins -/

namespace Select

structure Linked (q : Select) : Prop where
  no_session : .session ∉ q.tables
  links : ∀ t ∈ q.tables, t.link ∈ q.conditions
  reads : ∀ c ∈ q.conditions, ∀ t ∈ c.tables, t ∈ .session :: q.tables

/-- the session has a row in each of these tables, and what can be asked of them holds -/
def admits (q : Select) (s : Store) (v : Variables) (seen : List Table) (r : SessionRow) : Bool :=
  (seen.all fun t => (s.partner? r t).isSome) && (q.ready seen).all (Condition.holds v (s.view r))

/-- the admitted sessions with what belongs to them in these tables -/
def joined (q : Select) (s : Store) (v : Variables) (seen : List Table) : List Row :=
  (s.sessions.filter (q.admits s v seen)).map fun r => (s.view r).only seen

variable {q : Select} {s : Store} {v : Variables}

theorem mem_ready {seen : List Table} {c : Condition} :
    c ∈ q.ready seen ↔ c ∈ q.conditions ∧ ∀ t ∈ c.tables, t ∈ seen := by
  simp [ready]

/-- a session is in the whole join if it has all rows and meets all conditions -/
theorem Linked.admits_iff (hq : q.Linked) {r : SessionRow} :
    q.admits s v (.session :: q.tables) r = true ↔
      (∀ t ∈ q.tables, (s.partner? r t).isSome) ∧ ∀ c ∈ q.conditions, c.holds v (s.view r) = true := by
  simp only [admits, Bool.and_eq_true, List.all_eq_true, mem_ready, List.forall_mem_cons]
  constructor
  · rintro ⟨⟨-, hrows⟩, hall⟩
    exact ⟨hrows, fun c hc => hall c ⟨hc, hq.reads c hc⟩⟩
  · rintro ⟨hrows, hall⟩
    exact ⟨⟨rfl, hrows⟩, fun c hc => hall c hc.1⟩

theorem joined_congr {ts us : List Table} (h : ∀ t, t ∈ ts ↔ t ∈ us) : q.joined s v ts = q.joined s v us := by
  have hadmits : q.admits s v ts = q.admits s v us := by
    funext r
    rw [Bool.eq_iff_iff]
    simp only [admits, Bool.and_eq_true, List.all_eq_true, mem_ready, h]
  simp only [joined, hadmits, Row.only_congr h]

/-- conditions that are ready see the view -/
theorem all_ready_only (seen : List Table) (row : Row) :
    (q.ready seen).all (Condition.holds v (row.only seen)) = (q.ready seen).all (Condition.holds v row) := by
  rw [Bool.eq_iff_iff, List.all_eq_true, List.all_eq_true]
  refine forall₂_congr fun c hc => ?_
  rw [Condition.holds_of_columns fun k hk => Row.only_apply ((mem_ready.1 hc).2 _ hk)]

theorem joinTable_session (q : Select) (s : Store) (v : Variables) :
    q.joinTable s v [] [Row.blank] .session = q.joined s v [.session] := by
  have hrow : ∀ r : SessionRow, Row.blank.extend .session r.row = (s.view r).only [.session] := by
    intro r
    funext c
    by_cases hc : c.table = .session
    · rw [Row.only_apply (by simp [hc]), Row.extend, if_pos hc, Store.view, hc]
      rfl
    · rw [Row.extend, if_neg hc, Row.only, if_neg (by simpa using hc)]
      rfl
  have hadmits : q.admits s v [.session] = fun r => (q.ready [.session]).all (Condition.holds v (s.view r)) := by
    funext r
    simp [admits, Store.partner?, Store.relation?]
  simp only [joinTable, List.flatMap_cons, List.flatMap_nil, List.append_nil, Store.rows, List.map_map, joined]
  rw [List.filter_map]
  simp only [Function.comp_def, hrow, all_ready_only, hadmits]

/-- the columns of a row that goes with the session are those of its view -/
theorem extend_partner {r : SessionRow} {t : Table} {row : Row} (h : s.partner? r t = some row) (seen : List Table) :
    ((s.view r).only seen).extend t row = (s.view r).only (t :: seen) := by
  funext c
  by_cases hc : c.table = t
  · rw [Row.extend, if_pos hc, Row.only_apply (by simp [hc]), Store.view, hc, h]
    rfl
  · rw [Row.extend, if_neg hc]
    simp only [Row.only, List.mem_cons, hc, false_or]

/-- what a session becomes when a table is joined -/
theorem extend_filter (hs : s.Sound) {r : SessionRow} (hr : r ∈ s.sessions) {t : Table} {seen : List Table}
    (ht : t ≠ .session) (hlink : t.link ∈ q.conditions) (hanchor : t.anchor.table ∈ seen) :
    ((s.rows t).map (((s.view r).only seen).extend t)).filter
        (fun row => (q.ready (t :: seen)).all (Condition.holds v row)) =
      if (s.partner? r t).isSome && (q.ready (t :: seen)).all (Condition.holds v (s.view r)) then
        [(s.view r).only (t :: seen)] else [] := by
  have hready : t.link ∈ q.ready (t :: seen) := by
    refine mem_ready.2 ⟨hlink, fun u hu => ?_⟩
    simp only [Table.link, Condition.tables, t.table_rowId, List.mem_cons, List.not_mem_nil, or_false] at hu
    rcases hu with rfl | rfl
    · exact List.mem_cons_of_mem _ hanchor
    · exact List.mem_cons_self
  let extended := ((s.view r).only seen).extend t
  let stays := fun row : Row => (q.ready (t :: seen)).all (Condition.holds v row)
  -- a row stays only if the session refers to its key
  have hkey : ∀ row ∈ s.rows t, stays (extended row) = true → row t.rowId = s.view r t.anchor := by
    intro row hrow hall
    have hholds := List.all_eq_true.1 hall _ hready
    obtain ⟨n, hn⟩ := s.rowId_integer t row hrow
    have hanchorCell : extended row t.anchor = s.view r t.anchor :=
      (if_neg (Table.table_anchor_ne ht)).trans (Row.only_apply hanchor)
    have hrowCell : extended row t.rowId = row t.rowId := if_pos t.table_rowId
    simp only [Condition.holds, Table.link, Condition.truth, hanchorCell, hrowCell, hn, decide_eq_true_eq] at hholds
    rw [hn, (Value.equal_integer (hs.view_anchor hr t)).1 hholds]
  have hfilter : (s.rows t).filter (stays ∘ extended) = (s.partner? r t).toList.filter (stays ∘ extended) := by
    rw [s.partner?_eq_find? r ht, ← filter_key_eq (hs.keys_nodup t), List.filter_filter]
    refine List.filter_congr fun row hrow => ?_
    cases hstays : (stays ∘ extended) row with
    | false => rfl
    | true => rw [hkey row hrow hstays]; simp
  rw [List.filter_map]
  show ((s.rows t).filter (stays ∘ extended)).map extended = _
  rw [hfilter]
  cases hp : s.partner? r t with
  | none => rfl
  | some row =>
    have hrow : extended row = (s.view r).only (t :: seen) := extend_partner hp seen
    simp only [Option.toList_some, Option.isSome_some, Bool.true_and, List.filter_singleton, Function.comp_apply, hrow]
    rw [show stays ((s.view r).only (t :: seen)) = _ from all_ready_only (t :: seen) (s.view r)]
    cases (q.ready (t :: seen)).all (Condition.holds v (s.view r)) with
    | false => rfl
    | true => exact congrArg (fun x => [x]) hrow

theorem admits_cons (q : Select) (s : Store) (v : Variables) (t : Table) (seen : List Table) (r : SessionRow) :
    (q.admits s v seen r &&
        ((s.partner? r t).isSome && (q.ready (t :: seen)).all (Condition.holds v (s.view r)))) =
      q.admits s v (t :: seen) r := by
  rw [Bool.eq_iff_iff]
  simp only [admits, Bool.and_eq_true, List.all_eq_true, mem_ready, List.mem_cons]
  constructor
  · rintro ⟨⟨hseen, -⟩, ht, hall⟩
    exact ⟨fun u hu => hu.elim (fun e => e ▸ ht) (hseen u), hall⟩
  · rintro ⟨hseen, hall⟩
    exact ⟨⟨fun u hu => hseen u (.inr hu), fun c hc => hall c ⟨hc.1, fun u hu => .inr (hc.2 u hu)⟩⟩,
      hseen t (.inl rfl), hall⟩

/-- joining one more table -/
theorem joinTable_joined (hs : s.Sound) {t : Table} {seen : List Table} (ht : t ≠ .session)
    (hlink : t.link ∈ q.conditions) (hanchor : t.anchor.table ∈ seen) :
    q.joinTable s v seen (q.joined s v seen) t = q.joined s v (t :: seen) := by
  have hstep : (s.sessions.filter (q.admits s v seen)).flatMap (fun r =>
      ((s.rows t).map (((s.view r).only seen).extend t)).filter
        (fun row => (q.ready (t :: seen)).all (Condition.holds v row))) =
      (s.sessions.filter (q.admits s v seen)).flatMap fun r =>
        if (s.partner? r t).isSome && (q.ready (t :: seen)).all (Condition.holds v (s.view r)) then
          [(s.view r).only (t :: seen)] else [] :=
    List.flatMap_congr fun r hr => extend_filter hs (List.mem_of_mem_filter hr) ht hlink hanchor
  rw [joinTable, joined, List.flatMap_map, hstep, flatMap_filter_if]
  simp only [admits_cons, joined]

/-- joining all tables of a list, in turn -/
theorem joinTables_joined (hs : s.Sound) {todo seen : List Table}
    (h : ∀ t ∈ todo, t ≠ .session ∧ t.link ∈ q.conditions ∧ t.anchor.table ∈ seen) :
    q.joinTables s v seen (q.joined s v seen) todo = q.joined s v (todo.reverse ++ seen) := by
  induction todo generalizing seen with
  | nil => rfl
  | cons t rest ih =>
    obtain ⟨ht, hlink, hanchor⟩ := h t List.mem_cons_self
    rw [joinTables, joinTable_joined hs ht hlink hanchor, ih, List.reverse_cons, List.append_assoc]
    · rfl
    · intro u hu
      obtain ⟨hu, hlink, hanchor⟩ := h u (List.mem_cons_of_mem _ hu)
      exact ⟨hu, hlink, List.mem_cons_of_mem _ hanchor⟩

theorem joinTables_append (q : Select) (s : Store) (v : Variables) (ts us seen : List Table) (rows : List Row) :
    q.joinTables s v seen rows (ts ++ us) =
      q.joinTables s v (ts.reverse ++ seen) (q.joinTables s v seen rows ts) us := by
  induction ts generalizing seen rows with
  | nil => rfl
  | cons t rest ih =>
    rw [List.cons_append, joinTables, joinTables, ih, List.reverse_cons, List.append_assoc]
    rfl

/-- **A report is over sessions, each taken once.** -/
theorem matching_eq (hq : q.Linked) (hs : s.Sound) (v : Variables) :
    q.matching s v = q.joined s v (.session :: q.tables) := by
  let sides := q.tables.filter fun t => t.side?.isSome
  let names := q.tables.filter fun t => t.side?.isNone
  have hread : ∀ t ∈ q.tables, t ≠ .session ∧ t.link ∈ q.conditions ∧ t.anchor.table ∈ .session :: q.tables := by
    intro t ht
    have hlink := hq.links t ht
    exact ⟨fun e => hq.no_session (e ▸ ht), hlink, hq.reads _ hlink _ (by simp [Table.link, Condition.tables])⟩
  have hsides : q.joinTables s v [.session] (q.joined s v [.session]) sides =
      q.joined s v (sides.reverse ++ [.session]) := by
    refine joinTables_joined hs fun t ht => ?_
    obtain ⟨ht, hside⟩ := List.mem_filter.1 ht
    obtain ⟨hne, hlink, -⟩ := hread t ht
    refine ⟨hne, hlink, ?_⟩
    cases t with
    | side x => exact List.mem_cons_self
    | session | names => cases hside
  -- names refer to the session or to a side table, which are all there
  have hnames : q.joinTables s v (sides.reverse ++ [.session]) (q.joined s v (sides.reverse ++ [.session])) names =
      q.joined s v (names.reverse ++ (sides.reverse ++ [.session])) := by
    refine joinTables_joined hs fun t ht => ?_
    obtain ⟨ht, hside⟩ := List.mem_filter.1 ht
    obtain ⟨hne, hlink, hanchor⟩ := hread t ht
    refine ⟨hne, hlink, ?_⟩
    cases t with
    | session => contradiction
    | side x => cases hside
    | names u =>
      have hmem := u.column_table_mem
      rw [Table.anchor] at hanchor ⊢
      rcases hu : u.column.table with _ | x | w
      · simp
      · rw [hu] at hanchor
        refine List.mem_append_left _ (List.mem_reverse.2 (List.mem_filter.2 ⟨?_, rfl⟩))
        exact (List.mem_cons.1 hanchor).resolve_left (by simp)
      · rw [hu] at hmem; simp [Table.relations] at hmem
  have hall : ∀ t, t ∈ names.reverse ++ (sides.reverse ++ [.session]) ↔ t ∈ .session :: q.tables := by
    intro t
    simp only [sides, names, List.mem_append, List.mem_reverse, List.mem_filter, List.mem_cons, List.not_mem_nil,
      or_false]
    cases hside : t.side? <;> simp [or_comm]
  rw [matching, joinTables, joinTable_session, joinOrder, joinTables_append, hsides, hnames, joined_congr hall]

end Select

end LaunchReports
