/-
What the labels of a report tell of its rows.

- `run_labels`: on a reachable database no two rows of a grouped report without an order have the same labels, unless it
  groups by `host_java_os`. The rows of that one stand for different triples of names, which its labels only show run
  together.

A key is a label, or the id of a name that a label shows (`Dimension.Shows`); different ids have different names.
-/
import LaunchReports.Proofs.Report.Partition

namespace LaunchReports

/-! ## Names and ids -/

/-- a joined name is that of the id in the session's column -/
theorem Store.Sound.view_name {s : Store} (hs : s.Sound) {x : SessionRow} (hx : x ∈ s.sessions) {t : NameTable}
    (h : s.view x t.column ≠ .null) :
    ∃ row ∈ (s.names.get t).rows, s.view x t.column = .integer row.id ∧ s.view x (.names t .name) = .text row.name := by
  have hsome : (s.partner? x (.names t)).isSome := (hs.names_isSome_iff hx t).2 h
  obtain ⟨q, hq⟩ := Option.isSome_iff_exists.1 hsome
  have hname : s.view x (.names t .name) = q (.names t .name) := by
    rw [view, Column.table, hq]
    rfl
  rw [s.partner?_eq_find? x (by simp)] at hq
  obtain ⟨row, hrow, rfl⟩ := List.mem_map.1 (List.mem_of_find?_eq_some hq)
  refine ⟨row, hrow, ?_, ?_⟩
  · have hid : NameRow.row t row (Table.names t).rowId = s.view x (Table.names t).anchor := by
      simpa using List.find?_some hq
    rw [Table.anchor] at hid
    rw [← hid]
    simp [NameRow.row, Table.rowId, NameRow.cell]
  · rw [hname]
    simp [NameRow.row, NameRow.cell]

/-- sessions with the same name in a column have the same id there -/
theorem Store.Sound.id_eq_of_name_eq {s : Store} (hs : s.Sound) {x y : SessionRow} (hx : x ∈ s.sessions)
    (hy : y ∈ s.sessions) {t : NameTable} (hxid : s.view x t.column ≠ .null) (hyid : s.view y t.column ≠ .null)
    (h : s.view x (.names t .name) = s.view y (.names t .name)) : s.view x t.column = s.view y t.column := by
  obtain ⟨row, hrow, hid, hname⟩ := hs.view_name hx hxid
  obtain ⟨row', hrow', hid', hname'⟩ := hs.view_name hy hyid
  rw [hname, hname', Value.text.injEq] at h
  have hsame : row = row' := List.inj_on_of_nodup_map (hs.names t).names_nodup hrow hrow' h
  rw [hid, hid', hsame]

/-! ## Labels and keys -/

namespace Dimension

/-- the key is a label, or the id of a name that is one -/
def Shows (d : Dimension) (k : GroupKey) : Prop :=
  (∃ l ∈ d.labels, d.keyExpression? k = some l.expression) ∨
    ∃ link ∈ d.links, k = .column link.column ∧ ∃ l ∈ d.labels, l.expression = .column (.names link.target .name)

instance (d : Dimension) (k : GroupKey) : Decidable (d.Shows k) := by
  unfold Shows; infer_instance

/-- only the dimension of the whole Java system runs names together -/
theorem grouping?_shows {name : String} {d : Dimension} (h : grouping? name = some d) (hne : name ≠ javaOs.name) :
    ∀ k ∈ d.keys, d.Shows k := by
  have hall : ∀ d ∈ all, d.name ≠ javaOs.name → ∀ k ∈ d.keys, d.Shows k := by decide
  unfold grouping? at h
  cases hn : named? name with
  | some e =>
    rw [hn] at h
    cases h
    have hname : d.name = name := by simpa using List.find?_some hn
    exact hall d (List.mem_of_find?_eq_some hn) (hname ▸ hne)
  | none =>
    rw [hn] at h
    obtain ⟨f, -, rfl⟩ := Option.map_eq_some_iff.1 h
    intro k hk
    obtain rfl := List.mem_singleton.1 hk
    exact .inl ⟨_, List.mem_singleton.2 rfl, rfl⟩

/-- a covered session has an id in each linked column -/
theorem Covers.id_ne_null {d : Dimension} {s : Store} {x : SessionRow} (hc : d.Covers s x) (hd : d.Sound) (hs : s.Sound)
    (hx : x ∈ s.sessions) {link : NameLink} (hlink : link ∈ d.links) : s.view x link.target.column ≠ .null := by
  have hhas := hc.2 link hlink
  rw [hd.links_column link hlink] at hhas
  exact ((hs.has_iff hx link.target.column_table_mem).1 hhas).2

/-- sessions with the same labels have the same keys -/
theorem keysOf_eq_of_labelsOf_eq {d : Dimension} (hd : d.Sound) (hshows : ∀ k ∈ d.keys, d.Shows k) {s : Store}
    (hs : s.Sound) {x y : SessionRow} (hx : x ∈ s.sessions) (hy : y ∈ s.sessions) (hcx : d.Covers s x)
    (hcy : d.Covers s y) (h : d.labelsOf s x = d.labelsOf s y) : d.keysOf s x = d.keysOf s y := by
  have hlabel : ∀ l ∈ d.labels, l.expression.value (s.view x) = l.expression.value (s.view y) := List.map_inj_left.1 h
  refine List.map_congr_left fun k hk => ?_
  rcases hshows k hk with ⟨l, hl, he⟩ | ⟨link, hlink, rfl, l, hl, he⟩
  · simpa [keyValue, he] using hlabel l hl
  · have hname := hlabel l hl
    rw [he] at hname
    rw [hd.links_column link hlink]
    exact hs.id_eq_of_name_eq hx hy (hcx.id_ne_null hd hs hx hlink) (hcy.id_ne_null hd hs hy hlink) hname

/-- the names of an operating system, its version and its architecture, run together -/
def runTogether : String × String × String → String
  | (name, version, arch) => name ++ " " ++ version ++ " (" ++ arch ++ ")"

/-- these are the names of the Java system of the session -/
def JavaOsIs (s : Store) (x : SessionRow) : String × String × String → Prop
  | (name, version, arch) =>
    s.view x (.names .javaOsName .name) = .text name ∧ s.view x (.names .javaOsVersion .name) = .text version ∧
      s.view x (.names .javaOsArch .name) = .text arch

variable {s : Store} {x y : SessionRow} {names : String × String × String}

theorem javaOs_sound : javaOs.Sound := all_sound javaOs (by decide)

theorem exists_javaOsIs (hs : s.Sound) (hx : x ∈ s.sessions) (hc : javaOs.Covers s x) : ∃ names, JavaOsIs s x names := by
  have hname : ∀ link ∈ javaOs.links, ∃ name, s.view x (.names link.target .name) = .text name := by
    intro link hlink
    obtain ⟨row, -, -, hrow⟩ := hs.view_name hx (hc.id_ne_null javaOs_sound hs hx hlink)
    exact ⟨row.name, hrow⟩
  obtain ⟨name, hn⟩ := hname ⟨.java .osName, .javaOsName⟩ (by decide)
  obtain ⟨version, hv⟩ := hname ⟨.java .osVersion, .javaOsVersion⟩ (by decide)
  obtain ⟨arch, ha⟩ := hname ⟨.java .osArch, .javaOsArch⟩ (by decide)
  exact ⟨(name, version, arch), hn, hv, ha⟩

theorem JavaOsIs.labelsOf_eq (h : JavaOsIs s x names) : javaOs.labelsOf s x = [.text (runTogether names)] := by
  obtain ⟨hn, hv, ha⟩ := h
  have hjoined : ∀ a b c : String, "".intercalate [a, " ", b, " (", c, ")"] = a ++ " " ++ b ++ " (" ++ c ++ ")" := by
    intro a b c
    calc "".intercalate [a, " ", b, " (", c, ")"]
        = a ++ "" ++ " " ++ "" ++ b ++ "" ++ " (" ++ "" ++ c ++ "" ++ ")" := rfl
      _ = a ++ " " ++ b ++ " (" ++ c ++ ")" := by simp only [String.append_empty]
  simp [labelsOf, javaOs, Expression.value, Expression.pieceValue, hn, hv, ha, Expression.pieceText, hjoined, runTogether]

/-- sessions with the same names have the same keys -/
theorem JavaOsIs.keysOf_eq (hs : s.Sound) (hx : x ∈ s.sessions) (hy : y ∈ s.sessions) (hcx : javaOs.Covers s x)
    (hcy : javaOs.Covers s y) (h : JavaOsIs s x names) (h' : JavaOsIs s y names) :
    javaOs.keysOf s x = javaOs.keysOf s y := by
  have hid : ∀ link ∈ javaOs.links, s.view x (.names link.target .name) = s.view y (.names link.target .name) →
      s.view x link.target.column = s.view y link.target.column := fun link hlink hname =>
    hs.id_eq_of_name_eq hx hy (hcx.id_ne_null javaOs_sound hs hx hlink) (hcy.id_ne_null javaOs_sound hs hy hlink) hname
  have hname := hid ⟨.java .osName, .javaOsName⟩ (by decide) (h.1.trans h'.1.symm)
  have hversion := hid ⟨.java .osVersion, .javaOsVersion⟩ (by decide) (h.2.1.trans h'.2.1.symm)
  have harch := hid ⟨.java .osArch, .javaOsArch⟩ (by decide) (h.2.2.trans h'.2.2.symm)
  have hkeys : ∀ z, javaOs.keysOf s z = [s.view z (.java .osName), s.view z (.java .osVersion), s.view z (.java .osArch)] :=
    fun _ => rfl
  rw [hkeys, hkeys]
  exact congr (congrArg _ hname) (congr (congrArg _ hversion) (congrArg (fun v => [v]) harch))

end Dimension

/-! ## Reports -/

/-- a line begins with the labels of its group, and one cell follows -/
theorem Select.labels_of_lines {q : Select} {m : Measure} {name : String} (hm : q.measure = some (m, name))
    {groups : List Group} {lines : List Select.Line} (h : groups.mapM q.line = .ok lines) :
    (lines.map Line.cells).map List.dropLast =
        groups.map (fun g => q.labels.map fun l => l.expression.value g.first) ∧
      ∀ cells ∈ lines.map Line.cells, cells.length = q.labels.length + 1 := by
  have hlines := mapM_eq_ok_iff.1 h
  induction hlines with
  | nil => exact ⟨rfl, nofun⟩
  | @cons g line groups lines hg hrest ih =>
    obtain ⟨hdrop, hlength⟩ := ih (mapM_eq_ok_iff.2 hrest)
    rw [line_eq hm] at hg
    cases hv : m.value g.rows with
    | error e =>
      rw [hv] at hg
      cases hg
    | ok cell =>
      rw [hv] at hg
      cases hg
      refine ⟨?_, ?_⟩
      · rw [List.map_cons, List.map_cons, List.map_cons, hdrop, List.dropLast_concat]
      · intro cells hcells
        rcases List.mem_cons.1 hcells with rfl | hcells
        · rw [List.length_append, List.length_map]
          rfl
        · exact hlength cells hcells

/-- the rows of a grouped report stand for different keys, each with the labels of a session that has them -/
theorem Request.grouped_rows {r : Request} {p : Plan Aggregate} (hr : r.compile = .ok p) (hq : r.query ≠ .simType)
    {name : String} (hg : r.group? = some name) (ho : r.order? = none) {s : Store} (hs : s.Sound)
    {leftover : Option Variables} {o : Outcome} (hrun : (r.run Attached.answer ⟨.stored s, leftover⟩).1 = .ok o) :
    ∃ dimension, Dimension.grouping? name = some dimension ∧
      o.result.columns = dimension.labels.map Label.name ++ [r.query.key] ∧
      (∀ row ∈ o.result.rows, row.length = dimension.labels.length + 1) ∧
      ∃ (parts : List (List Value)) (labels : List Value → List Value), parts.Nodup ∧
        o.result.rows.map List.dropLast = parts.map labels ∧
        ∀ keys ∈ parts, ∃ x ∈ s.sessions, dimension.Covers s x ∧ dimension.keysOf s x = keys ∧
          labels keys = dimension.labelsOf s x := by
  obtain ⟨m, hm⟩ := Query.exists_measure hq
  obtain ⟨dimension?, cs, v, hdim, hc, hv, htally⟩ := r.run_tally hr ho hm s leftover
  obtain ⟨dimension, hgrouping, rfl⟩ := exists_grouping hg hdim
  have hsound := Dimension.grouping?_sound hgrouping
  obtain ⟨parts, hnodup, hmem, -, hgroups⟩ := groups_tally hdim hc m r.query.key hs hv
  dsimp only at htally hgroups hmem
  rw [hgroups] at htally
  let q := tally m r.query.key cs (some dimension) none
  let eligible := s.sessions.filter fun x => r.Eligible (some dimension) s x
  let part := part dimension s (.session :: q.tables) eligible
  cases hlines : (parts.map part).mapM q.line with
  | error e =>
    rw [hlines] at htally
    cases htally.symm.trans hrun
  | ok lines =>
    rw [hlines] at htally
    obtain rfl := Except.ok.inj (htally.symm.trans hrun)
    obtain ⟨hdrop, hlength⟩ := Select.labels_of_lines rfl hlines
    refine ⟨dimension, hgrouping, rfl, hlength, parts, _, hnodup, hdrop.trans (List.map_map ..), ?_⟩
    intro keys hkeys
    obtain ⟨x, hx, rfl⟩ := (hmem keys).1 hkeys
    obtain ⟨hsession, heligible⟩ := List.mem_filter.1 hx
    have hcovers : dimension.Covers s x := (of_decide_eq_true heligible).2 dimension (by simp)
    exact ⟨x, hsession, hcovers, rfl, labels_part hsound m r.query.key s hx⟩

/-- **What the labels of a report tell of its rows.** -/
theorem run_labels {d : Database} (hd : d.Reachable) {r : Request} {p : Plan Aggregate} (hr : r.compile = .ok p)
    (hq : r.query ≠ .simType) {name : String} (hg : r.group? = some name) (ho : r.order? = none)
    {leftover : Option Variables} {o : Outcome} (hrun : (r.run Attached.answer ⟨d, leftover⟩).1 = .ok o) :
    ∃ dimension, Dimension.grouping? name = some dimension ∧
      o.result.columns = dimension.labels.map Label.name ++ [r.query.key] ∧
      (∀ row ∈ o.result.rows, row.length = o.result.columns.length) ∧
      (name ≠ Dimension.javaOs.name → (o.result.rows.map List.dropLast).Nodup) ∧
      (name = Dimension.javaOs.name → ∃ names : List (String × String × String), names.Nodup ∧
        o.result.rows.map List.dropLast = names.map fun n => [.text (Dimension.runTogether n)]) := by
  obtain ⟨s, rfl, hs⟩ := hd.sound
  obtain ⟨dimension, hgrouping, hcolumns, hlength, parts, labels, hnodup, hlabels, hparts⟩ :=
    Request.grouped_rows hr hq hg ho hs hrun
  refine ⟨dimension, hgrouping, hcolumns, fun row hrow => ?_, fun hname => ?_, fun hname => ?_⟩
  · rw [hlength row hrow, hcolumns, List.length_append, List.length_map]
    rfl
  · rw [hlabels]
    refine hnodup.map_on fun keys hkeys keys' hkeys' hsame => ?_
    obtain ⟨x, hx, hcx, rfl, hlx⟩ := hparts keys hkeys
    obtain ⟨y, hy, hcy, rfl, hly⟩ := hparts keys' hkeys'
    rw [hlx, hly] at hsame
    exact Dimension.keysOf_eq_of_labelsOf_eq (Dimension.grouping?_sound hgrouping)
      (Dimension.grouping?_shows hgrouping hname) hs hx hy hcx hcy hsame
  · subst hname
    obtain rfl : Dimension.javaOs = dimension := Option.some.inj hgrouping
    have hnames : ∀ keys ∈ parts, ∃ names, (∃ x ∈ s.sessions, Dimension.javaOs.Covers s x ∧
        Dimension.javaOs.keysOf s x = keys ∧ Dimension.JavaOsIs s x names) ∧
          labels keys = [.text (Dimension.runTogether names)] := by
      intro keys hkeys
      obtain ⟨x, hx, hcx, hkx, hlx⟩ := hparts keys hkeys
      obtain ⟨names, h⟩ := Dimension.exists_javaOsIs hs hx hcx
      exact ⟨names, ⟨x, hx, hcx, hkx, h⟩, by rw [hlx, h.labelsOf_eq]⟩
    choose! names hheld hlabel using hnames
    refine ⟨parts.map names, ?_, ?_⟩
    · refine hnodup.map_on fun keys hkeys keys' hkeys' hsame => ?_
      obtain ⟨x, hx, hcx, hkx, h⟩ := hheld keys hkeys
      obtain ⟨y, hy, hcy, hky, h'⟩ := hheld keys' hkeys'
      rw [← hsame] at h'
      rw [← hkx, ← hky]
      exact h.keysOf_eq hs hx hy hcx hcy h'
    · rw [hlabels, List.map_map]
      exact List.map_congr_left hlabel

/-! ## Two systems with one label -/

namespace Database

/-- two launches, on systems whose names differ in where the version begins -/
def twinRecords : List SessionRecord :=
  [{ sampleSession with
      simType := .java
      java := some ⟨some "Mac OS", some "X 10.5", some "i386", none, none, none⟩ },
    { sampleSession with
      simType := .java
      java := some ⟨some "Mac OS X", some "10.5", some "i386", none, none, none⟩ }]

def twinStore : Store :=
  match (Store.empty.noteVersion Schema.version).write twinRecords with
  | .ok (s, _) => s
  | .error _ => Store.empty

theorem reachable_twin : (stored twinStore).Reachable := by
  have hwritten : (stored (Store.empty.noteVersion Schema.version)).write twinRecords =
      .ok (stored twinStore, ⟨2, 0, 2, 8⟩) := by
    decide
  exact .written (.created rfl) hwritten

end Database

/-- all launches by this group -/
def sampleGrouped (name : String) : Request := { Request.everything with group := some name }

/-- the rows of the report by the whole Java system -/
def twinRows : List (List Value) :=
  [[.text "Mac OS X 10.5 (i386)", .integer 1], [.text "Mac OS X 10.5 (i386)", .integer 1]]

theorem run_labels_sample :
    ([[.text "Mac OS"], [.text "Mac OS X"]] : List (List Value)).Nodup ∧
      ∃ names : List (String × String × String), names.Nodup ∧
        twinRows.map List.dropLast = names.map fun n => [.text (Dimension.runTogether n)] := by
  let byOsName := Dimension.ofNames "host_java_os_name" (.java .osName) .javaOsName
  have hcompile : ∀ d ∈ [byOsName, .javaOs], (sampleGrouped d.name).compile =
      .ok ⟨[], .messageCount, (sampleGrouped d.name).select [] (some d) none⟩ := by
    decide
  have hquery : ∀ name, (sampleGrouped name).query ≠ .simType := by
    intro name
    simp [sampleGrouped, Request.everything]
  have hnames : ((sampleGrouped byOsName.name).run Attached.answer (.ofDatabase (.stored Database.twinStore))).1 =
      .ok ⟨⟨["host_java_os_name", "message_count"],
        [[.text "Mac OS", .integer 1], [.text "Mac OS X", .integer 1]]⟩, 1, []⟩ := by
    decide
  have hsystems : ((sampleGrouped Dimension.javaOs.name).run Attached.answer
      (.ofDatabase (.stored Database.twinStore))).1 = .ok ⟨⟨["host_java_os", "message_count"], twinRows⟩, 1, []⟩ := by
    decide
  constructor
  · obtain ⟨-, -, -, -, hlabels, -⟩ := run_labels Database.reachable_twin (hcompile byOsName (by decide)) (hquery _)
      rfl rfl hnames
    exact hlabels (by decide)
  · obtain ⟨-, -, -, -, -, hlabels⟩ := run_labels Database.reachable_twin (hcompile .javaOs (by decide)) (hquery _)
      rfl rfl hsystems
    exact hlabels rfl

/-- the two rows of an accepted report have the same label -/
theorem rows_share_label :
    (Database.stored Database.twinStore).Reachable ∧ (∃ p, (sampleGrouped "host_java_os").compile = .ok p) ∧
      (sampleGrouped "host_java_os").order? = none ∧
      ((sampleGrouped "host_java_os").run Attached.answer (.ofDatabase (.stored Database.twinStore))).1 =
        .ok ⟨⟨["host_java_os", "message_count"], twinRows⟩, 1, []⟩ ∧
      ¬ (twinRows.map List.dropLast).Nodup := by
  refine ⟨Database.reachable_twin, ?_, rfl, by decide, by decide⟩
  exact ⟨⟨[], .messageCount, (sampleGrouped "host_java_os").select [] (some .javaOs) none⟩, by decide⟩

end LaunchReports
