/-
What a grouped report means.

- `run_grouped`: on a reachable database an accepted request for numbers of messages, with a group and without an order,
  is answered with one row for each tuple of keys that an eligible session has. The row shows the labels of all the
  sessions with these keys and their number; the numbers add up to that of all eligible sessions.

Grouping is followed row by row: `Group.Partitions.place` is the step, `Group.partitions_ofRows` the run.
`Dimension.Sound.labels_eq` says why a group has the labels of any of its sessions.
-/
import Mathlib
import LaunchReports.Proofs.Report.Totals

namespace LaunchReports

/-! ## Grouping -/

namespace Group

/-- the groups are made of these rows, one group a key -/
structure Partitions (key : Row → List Value) (rows : List Row) (groups : List Group) : Prop where
  keys_nodup : (groups.map Group.key).Nodup
  members : ∀ g ∈ groups, g.rows = rows.filter fun row => key row = g.key
  inhabited : ∀ g ∈ groups, g.rows ≠ []
  placed : ∀ row ∈ rows, key row ∈ groups.map Group.key
  total : (groups.map fun g => g.rows.length).sum = rows.length

theorem map_key_place (k : List Value) (row : Row) (groups : List Group) :
    (place k row groups).map Group.key =
      if k ∈ groups.map Group.key then groups.map Group.key else groups.map Group.key ++ [k] := by
  induction groups with
  | nil => rfl
  | cons g rest ih =>
    rw [place]
    by_cases hk : g.key = k
    · simp [hk]
    · simp only [if_neg hk, List.map_cons, ih, List.mem_cons, Ne.symm hk, false_or]
      split <;> rfl

theorem sum_length_place (k : List Value) (row : Row) (groups : List Group) :
    ((place k row groups).map fun g => g.rows.length).sum = (groups.map fun g => g.rows.length).sum + 1 := by
  induction groups with
  | nil => rfl
  | cons g rest ih =>
    rw [place]
    split
    · simp only [List.map_cons, List.sum_cons, List.length_append, List.length_singleton]
      omega
    · simp only [List.map_cons, List.sum_cons, ih]
      omega

/-- a group after a row has come: an old one, an old one with the row, or a new one -/
theorem mem_place {k : List Value} {row : Row} {groups : List Group} (hn : (groups.map Group.key).Nodup) {g : Group}
    (h : g ∈ place k row groups) :
    g.key ≠ k ∧ g ∈ groups ∨ (∃ old ∈ groups, old.key = k ∧ g = ⟨k, old.rows ++ [row]⟩) ∨
      k ∉ groups.map Group.key ∧ g = ⟨k, [row]⟩ := by
  induction groups with
  | nil => exact .inr (.inr ⟨List.not_mem_nil, List.mem_singleton.1 h⟩)
  | cons first rest ih =>
    obtain ⟨hfirst, hrest⟩ := List.nodup_cons.1 hn
    rw [place] at h
    by_cases hk : first.key = k
    · rw [if_pos hk] at h
      rcases List.mem_cons.1 h with rfl | hg
      · exact .inr (.inl ⟨first, List.mem_cons_self, hk, by rw [hk]⟩)
      · refine .inl ⟨fun e => hfirst ?_, List.mem_cons_of_mem _ hg⟩
        rw [hk, ← e]
        exact List.mem_map_of_mem hg
    · rw [if_neg hk] at h
      rcases List.mem_cons.1 h with rfl | hg
      · exact .inl ⟨hk, List.mem_cons_self⟩
      · rcases ih hrest hg with ⟨hne, hmem⟩ | ⟨old, hold, hkey, he⟩ | ⟨hnew, he⟩
        · exact .inl ⟨hne, List.mem_cons_of_mem _ hmem⟩
        · exact .inr (.inl ⟨old, List.mem_cons_of_mem _ hold, hkey, he⟩)
        · exact .inr (.inr ⟨by simpa [Ne.symm hk] using hnew, he⟩)

variable {key : Row → List Value}

/-- one more row -/
theorem Partitions.place {rows : List Row} {groups : List Group} (h : Partitions key rows groups) (row : Row) :
    Partitions key (rows ++ [row]) (Group.place (key row) row groups) where
  keys_nodup := by
    rw [map_key_place]
    split
    · exact h.keys_nodup
    · next hnew => exact List.nodup_append.2 ⟨h.keys_nodup, List.nodup_singleton _, by simpa using hnew⟩
  members g hg := by
    rw [List.filter_append]
    rcases mem_place h.keys_nodup hg with ⟨hne, hmem⟩ | ⟨old, hold, hkey, rfl⟩ | ⟨hnew, rfl⟩
    · rw [h.members g hmem, List.filter_singleton]
      simp [Ne.symm hne]
    · rw [h.members old hold, hkey]
      simp
    · have hnone : rows.filter (fun r => key r = key row) = [] := by
        refine List.filter_eq_nil_iff.2 fun r hr e => hnew ?_
        rw [← of_decide_eq_true e]
        exact h.placed r hr
      simp [hnone]
  inhabited g hg := by
    rcases mem_place h.keys_nodup hg with ⟨-, hmem⟩ | ⟨old, -, -, rfl⟩ | ⟨-, rfl⟩
    · exact h.inhabited g hmem
    · simp
    · simp
  placed r hr := by
    rw [map_key_place]
    rcases List.mem_append.1 hr with hr | hr
    · split
      · exact h.placed r hr
      · exact List.mem_append_left _ (h.placed r hr)
    · rw [List.mem_singleton.1 hr]
      split
      · next hold => exact hold
      · exact List.mem_append_right _ List.mem_cons_self
  total := by rw [sum_length_place, h.total, List.length_append, List.length_singleton]

/-- all rows in turn -/
theorem Partitions.foldl {placed groups : _} (h : Partitions key placed groups) (rows : List Row) :
    Partitions key (placed ++ rows) (rows.foldl (fun groups row => Group.place (key row) row groups) groups) := by
  induction rows generalizing placed groups with
  | nil => rwa [List.append_nil]
  | cons row rest ih =>
    rw [List.append_cons]
    exact ih (h.place row)

theorem partitions_ofRows (key : Row → List Value) (rows : List Row) : Partitions key rows (ofRows key rows) := by
  have hnone : Partitions key [] [] := ⟨List.nodup_nil, nofun, nofun, nofun, rfl⟩
  exact hnone.foldl rows

theorem first_mem {g : Group} (h : g.rows ≠ []) : g.first ∈ g.rows := by
  rw [first, List.head?_eq_some_head h]
  exact List.head_mem h

/-- groups of the rows of some items: the items of each key, with the keys in the order of their first items -/
theorem ofRows_map {α : Type} {row : α → Row} {keysOf : α → List Value} (hkey : ∀ a, key (row a) = keysOf a)
    (items : List α) :
    ∃ parts : List (List Value), parts.Nodup ∧ (∀ keys, keys ∈ parts ↔ ∃ a ∈ items, keysOf a = keys) ∧
      (parts.map fun keys => (items.filter fun a => keysOf a = keys).length).sum = items.length ∧
      ofRows key (items.map row) = parts.map fun keys => ⟨keys, (items.filter fun a => keysOf a = keys).map row⟩ := by
  have h := partitions_ofRows key (items.map row)
  have hmembers : ∀ g ∈ ofRows key (items.map row), g.rows = (items.filter fun a => keysOf a = g.key).map row := by
    intro g hg
    rw [h.members g hg, List.filter_map]
    simp only [Function.comp_def, hkey]
  refine ⟨(ofRows key (items.map row)).map Group.key, h.keys_nodup, fun keys => ⟨fun hkeys => ?_, ?_⟩, ?_, ?_⟩
  · obtain ⟨g, hg, rfl⟩ := List.mem_map.1 hkeys
    have hfirst := first_mem (h.inhabited g hg)
    rw [hmembers g hg] at hfirst
    obtain ⟨a, ha, -⟩ := List.mem_map.1 hfirst
    exact ⟨a, List.mem_of_mem_filter ha, of_decide_eq_true (List.mem_filter.1 ha).2⟩
  · rintro ⟨a, ha, rfl⟩
    rw [← hkey]
    exact h.placed _ (List.mem_map_of_mem ha)
  · rw [← List.length_map row, ← h.total, List.map_map]
    refine congrArg List.sum (List.map_congr_left fun g hg => ?_)
    rw [hmembers g hg, List.length_map]
    rfl
  · rw [List.map_map]
    refine (List.map_id _).symm.trans (List.map_congr_left fun g hg => ?_)
    rw [Function.comp_apply, ← hmembers g hg]
    rfl

end Group

/-! ## Keys and labels -/

theorem Expression.mapM_pieceValue_congr {a b : Row} {pieces : List Piece}
    (h : ∀ c, Piece.column c ∈ pieces → a c = b c) : pieces.mapM (pieceValue a) = pieces.mapM (pieceValue b) := by
  induction pieces with
  | nil => rfl
  | cons p rest ih =>
    have hp : pieceValue a p = pieceValue b p := by
      cases p with
      | text t => rfl
      | column c => rw [pieceValue, pieceValue, h c List.mem_cons_self]
    rw [List.mapM_cons, List.mapM_cons, hp, ih fun c hc => h c (List.mem_cons_of_mem _ hc)]

theorem Expression.value_congr {e : Expression} {a b : Row} (h : ∀ c ∈ e.columns, a c = b c) :
    e.value a = e.value b := by
  cases e with
  | column c => exact h c List.mem_cons_self
  | isoWeek c => rw [value, value, h c List.mem_cons_self]
  | simTypeName => rw [value, value, h _ List.mem_cons_self]
  | joined pieces =>
    rw [value, value, mapM_pieceValue_congr fun c hc => h c (List.mem_filterMap.2 ⟨_, hc, rfl⟩)]

namespace Dimension

/-- what a row has under a key -/
def keyValue (d : Dimension) (row : Row) (k : GroupKey) : Value :=
  ((d.keyExpression? k).map fun e => e.value row).getD .null

/-- the keys of a session -/
def keysOf (d : Dimension) (s : Store) (x : SessionRow) : List Value := d.keys.map (d.keyValue (s.view x))

/-- what a report shows of a session -/
def labelsOf (d : Dimension) (s : Store) (x : SessionRow) : List Value :=
  d.labels.map fun l => l.expression.value (s.view x)

/-- sessions with the same keys have the same labels -/
theorem Sound.labelsOf_eq {d : Dimension} (hd : d.Sound) {s : Store} {x y : SessionRow}
    (h : d.keysOf s x = d.keysOf s y) : d.labelsOf s x = d.labelsOf s y := by
  refine List.map_congr_left fun l hl => ?_
  have hkey : ∀ k ∈ d.keys, d.keyValue (s.view x) k = d.keyValue (s.view y) k := List.map_inj_left.1 h
  rcases hd.determined l hl with ⟨k, hk, he⟩ | hnames
  · simpa [keyValue, he] using hkey k hk
  · refine Expression.value_congr fun c hc => ?_
    obtain ⟨t, -, rfl, hcolumn⟩ := hnames c hc
    have hid : s.view x t.column = s.view y t.column := hkey _ hcolumn
    have hpartner : s.partner? x (.names t) = s.partner? y (.names t) := by
      rw [s.partner?_eq_find? x (by simp), s.partner?_eq_find? y (by simp), Table.anchor, hid]
    rw [Store.view, Store.view, Column.table, hpartner]

end Dimension

/-! ## The report -/

namespace Request

variable {r : Request} {cs : List Criterion} {d : Dimension}

/-- a group that is accepted is a dimension -/
theorem exists_grouping {name : String} (hg : r.group? = some name) {dimension? : Option Dimension}
    (h : r.dimension = .ok dimension?) : ∃ d, Dimension.grouping? name = some d ∧ dimension? = some d := by
  simp only [Request.dimension, hg] at h
  split at h
  · next d hd =>
    cases h
    exact ⟨d, hd, rfl⟩
  · cases h

/-- the keys of a joined row are those of its session -/
theorem keys_tally (hd : d.Sound) (m : Measure) (name : String) (s : Store) (x : SessionRow) :
    d.keys.map ((tally m name cs (some d) none).keyValue
      ((s.view x).only (.session :: (tally m name cs (some d) none).tables))) = d.keysOf s x := by
  refine List.map_congr_left fun k hk => ?_
  obtain ⟨e, he, hcolumns⟩ := hd.keys_read k hk
  have hvalue : e.value ((s.view x).only (.session :: (tally m name cs (some d) none).tables)) = e.value (s.view x) :=
    Expression.value_congr fun c hc => Row.only_apply (tables_subset_tally hd m name none (hcolumns c hc))
  cases k with
  | column c => cases he; exact hvalue
  | expression e' => cases he; exact hvalue
  | label label =>
    obtain ⟨l, hl, rfl⟩ := Option.map_eq_some_iff.1 he
    have hfind : (tally m name cs (some d) none).labels.find? (fun l => l.name = label) = some l := hl
    rw [Select.keyValue, hfind, Dimension.keyValue, he]
    exact hvalue

/-- the labels of a joined row are those of its session -/
theorem labels_tally (hd : d.Sound) (m : Measure) (name : String) (s : Store) (x : SessionRow) :
    d.labels.map (fun l => l.expression.value ((s.view x).only (.session :: (tally m name cs (some d) none).tables))) =
      d.labelsOf s x :=
  List.map_congr_left fun l hl =>
    Expression.value_congr fun c hc => Row.only_apply (tables_subset_tally hd m name none (hd.labels_read l hl c hc))

/-- the sessions with these keys, as they are joined in a tally -/
def part (d : Dimension) (s : Store) (seen : List Table) (sessions : List SessionRow) (keys : List Value) : Group :=
  ⟨keys, (sessions.filter fun x => d.keysOf s x = keys).map fun x => (s.view x).only seen⟩

/-- the groups of a tally are the parts of its eligible sessions -/
theorem groups_tally (hdim : r.dimension = .ok (some d)) (hc : r.criteria = .ok cs) (m : Measure) (name : String)
    {s : Store} (hs : s.Sound) {v : Variables} (hv : ∀ b ∈ r.lookups, v.value b.target = Attached.lookup s b) :
    let q := tally m name cs (some d) none
    let eligible := s.sessions.filter fun x => r.Eligible (some d) s x
    ∃ parts : List (List Value), parts.Nodup ∧ (∀ keys, keys ∈ parts ↔ ∃ x ∈ eligible, d.keysOf s x = keys) ∧
      (parts.map fun keys => (eligible.filter fun x => d.keysOf s x = keys).length).sum = eligible.length ∧
      q.groups (q.matching s v) = parts.map (part d s (.session :: q.tables) eligible) := by
  intro q eligible
  have hsound : d.Sound := dimension_sound hdim d rfl
  have hkeys : q.keys.isEmpty = false := List.isEmpty_eq_false_iff.2 hsound.keys_some
  let key (row : Row) : List Value := q.keys.map (q.keyValue row)
  have hkey : ∀ x : SessionRow, key ((s.view x).only (.session :: q.tables)) = d.keysOf s x :=
    keys_tally hsound m name s
  rw [Select.groups, hkeys, matching_tally hdim hc m name none hs hv]
  exact Group.ofRows_map hkey eligible

/-- any session of a part shows the labels of its first one -/
theorem labels_part (hd : d.Sound) (m : Measure) (name : String) (s : Store) {sessions : List SessionRow}
    {x : SessionRow} (hx : x ∈ sessions) :
    (d.labels.map fun l => l.expression.value
      (part d s (.session :: (tally m name cs (some d) none).tables) sessions (d.keysOf s x)).first) =
        d.labelsOf s x := by
  have hpart : (part d s (.session :: (tally m name cs (some d) none).tables) sessions (d.keysOf s x)).rows ≠ [] :=
    List.ne_nil_of_mem (List.mem_map_of_mem (List.mem_filter.2 ⟨hx, decide_eq_true rfl⟩))
  obtain ⟨y, hy, hfirst⟩ := List.mem_map.1 (Group.first_mem hpart)
  rw [← hfirst, labels_tally hd m name s y]
  exact hd.labelsOf_eq (of_decide_eq_true (List.mem_filter.1 hy).2)

end Request

/-- a line shows the labels of its group and then the measure -/
theorem Select.line_eq {q : Select} {m : Measure} {name : String} (hm : q.measure = some (m, name)) (g : Group) :
    q.line g = (m.value g.rows).map fun cell =>
      ⟨(q.labels.map fun l => l.expression.value g.first) ++ [cell], g.first⟩ := by
  cases hv : m.value g.rows <;> simp [line, hm, hv, bind, Except.bind, pure, Except.pure, Except.map]

/-- one line a group, with its labels and the number of its rows -/
theorem Select.lines_count {q : Select} {name : String} (hm : q.measure = some (.count, name)) (groups : List Group) :
    groups.mapM q.line = .ok (groups.map fun g =>
      ⟨(q.labels.map fun l => l.expression.value g.first) ++ [.integer (Int64.ofNat g.rows.length)], g.first⟩) := by
  rw [mapM_eq_ok_iff, List.forall₂_map_right_iff, List.forall₂_same]
  intro g _
  simp only [line, hm]
  rfl

/-- **A grouped report parts the eligible sessions by their keys.** -/
theorem run_grouped {d : Database} (hd : d.Reachable) {r : Request} {p : Plan Aggregate} (hr : r.compile = .ok p)
    (hq : r.query = .messageCount) {name : String} (hg : r.group? = some name) (ho : r.order? = none)
    (leftover : Option Variables) :
    ∃ s dimension, d = .stored s ∧ Dimension.grouping? name = some dimension ∧
      let eligible := s.sessions.filter fun x => (∀ filter ∈ r.supplied, s.Matches x filter) ∧ dimension.Covers s x
      let count (keys : List Value) := (eligible.filter fun x => dimension.keysOf s x = keys).length
      ∃ (parts : List (List Value)) (labels : List Value → List Value),
        parts.Nodup ∧
        (∀ keys, keys ∈ parts ↔ ∃ x ∈ eligible, dimension.keysOf s x = keys) ∧
        (∀ x ∈ eligible, labels (dimension.keysOf s x) = dimension.labelsOf s x) ∧
        (∀ keys, (Int64.ofNat (count keys)).toInt = count keys) ∧
        (parts.map count).sum = eligible.length ∧
        (r.run Attached.answer ⟨d, leftover⟩).1 =
          .ok ⟨⟨dimension.labels.map Label.name ++ [r.query.key],
              parts.map fun keys => labels keys ++ [.integer (Int64.ofNat (count keys))]⟩,
            p.size, s.unmatched r.lookups⟩ := by
  obtain ⟨s, rfl, hs⟩ := hd.sound
  obtain ⟨dimension?, cs, v, hdim, hc, hv, hrun⟩ := r.run_tally hr ho (m := .count) (by rw [hq]; rfl) s leftover
  obtain ⟨dimension, hgrouping, rfl⟩ := Request.exists_grouping hg hdim
  refine ⟨s, dimension, rfl, hgrouping, ?_⟩
  intro eligible count
  have hsound := Dimension.grouping?_sound hgrouping
  obtain ⟨parts, hnodup, hmem, htotal, hgroups⟩ := Request.groups_tally hdim hc .count r.query.key hs hv
  have heligible : (s.sessions.filter fun x => r.Eligible (some dimension) s x) = eligible := by
    refine List.filter_congr fun x _ => decide_eq_decide.2 ?_
    simp [Request.Eligible]
  rw [heligible] at hmem htotal hgroups
  let seen := Table.session :: (Request.tally .count r.query.key cs (some dimension) none).tables
  let labels (keys : List Value) :=
    dimension.labels.map fun l => l.expression.value (Request.part dimension s seen eligible keys).first
  refine ⟨parts, labels, hnodup, hmem, ?_, fun keys => ?_, htotal, ?_⟩
  · intro x hx
    exact Request.labels_part hsound .count r.query.key s hx
  · have hcount := hs.toInt_count fun x =>
      decide (dimension.keysOf s x = keys) &&
        decide ((∀ filter ∈ r.supplied, s.Matches x filter) ∧ dimension.Covers s x)
    simpa only [count, eligible, List.filter_filter] using hcount
  · have hcount : ∀ ts keys, (Request.part dimension s ts eligible keys).rows.length = count keys := fun _ _ =>
      List.length_map _
    dsimp only at hrun
    rw [hrun, hgroups, Select.lines_count rfl]
    simp only [List.map_map, Function.comp_def, hcount]
    rfl

/-- all launches by simulation -/
def sampleByName : Request := { Request.everything with group := some "sim_name" }

/-- the name with id 1 stands for two launches, that with id 2 for one -/
theorem run_grouped_sample :
    ∃ parts : List (List Value), parts.Perm [[.integer 1], [.integer 2]] ∧
      (sampleByName.run Attached.answer (.ofDatabase (.stored Database.sampleStore))).1 =
        .ok ⟨⟨["sim_name", "message_count"], parts.map fun keys =>
          if keys = [.integer 1] then [.text "gas", .integer 2] else [.text "ice", .integer 1]⟩, 1, []⟩ := by
  let byName := Dimension.ofNames "sim_name" (.session .simName) .simName
  let launches := Database.sampleStore.sessions
  have hcompile : sampleByName.compile =
      .ok ⟨sampleByName.lookups, .messageCount, sampleByName.select [] (some byName) none⟩ := by decide
  have hgroup : sampleByName.group? = some "sim_name" := rfl
  obtain ⟨s, dimension, hs, hd, parts, labels, hnodup, hmem, hlabels, -, -, hrun⟩ :=
    run_grouped Database.reachable_sample hcompile rfl hgroup rfl none
  cases hs
  obtain rfl : byName = dimension := Option.some.inj ((by decide : _ = some _).symm.trans hd)
  have heligible : (launches.filter fun x =>
      (∀ filter ∈ sampleByName.supplied, Database.sampleStore.Matches x filter) ∧
        byName.Covers Database.sampleStore x) = launches := by
    decide
  simp only [launches] at heligible
  rw [heligible] at hmem hlabels hrun
  have hkeys : launches.map (byName.keysOf Database.sampleStore) = [[.integer 1], [.integer 1], [.integer 2]] := by
    decide
  have hparts : ∀ keys, keys ∈ parts ↔ keys ∈ [[Value.integer 1], [.integer 2]] := by
    intro keys
    rw [hmem, ← List.mem_map, hkeys]
    simp
  -- the first launch is of one simulation, the last of the other
  have hgas : labels [.integer 1] = [.text "gas"] := by
    have := hlabels _ (List.head_mem (by decide))
    exact this.trans (by decide)
  have hice : labels [.integer 2] = [.text "ice"] := by
    have := hlabels _ (List.getLast_mem (by decide))
    exact this.trans (by decide)
  refine ⟨parts, (List.perm_ext_iff_of_nodup hnodup (by decide)).2 hparts, hrun.trans ?_⟩
  have hrows : ∀ keys ∈ parts, labels keys ++ [.integer (Int64.ofNat
      (Database.sampleStore.sessions.filter fun x => byName.keysOf Database.sampleStore x = keys).length)] =
        if keys = [.integer 1] then [.text "gas", .integer 2] else [.text "ice", .integer 1] := by
    intro keys hk
    rcases List.mem_cons.1 ((hparts keys).1 hk) with rfl | hk
    · rw [hgas]
      decide
    · rw [List.mem_singleton.1 hk, hice]
      decide
  have hunmatched : Database.sampleStore.unmatched sampleByName.lookups = [] := by decide
  have hlookups : sampleByName.lookups = [] := by decide
  rw [List.map_congr_left hrows, hunmatched, hlookups]
  rfl

end LaunchReports
