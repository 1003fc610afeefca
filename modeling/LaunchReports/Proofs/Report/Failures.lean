/-
When an accepted report fails.

- `run_failing`: on a reachable database an accepted request without an order is answered, unless it asks for the sum of
  earlier launches and the running total of one of its rows leaves the integers of 64 bits. Then, and only then, its
  last statement fails with an integer overflow.

`Measure.total_fails_iff` says when a sum fails, `Request.exists_group_iff` which sessions are behind a row.
-/
import LaunchReports.Proofs.Report.Partition

namespace LaunchReports

/-! ## Sums -/

namespace Measure

/-- a running total of the numbers, taken from the first on, leaves the integers of 64 bits -/
def Overflows (ns : List Int64) : Prop := ∃ k ≤ ns.length, fitsInt64 ((ns.take k).map Int64.toInt).sum = false

instance (ns : List Int64) : Decidable (Overflows ns) := by
  unfold Overflows; infer_instance

/-- a running total ends with the first sum that does not fit -/
theorem total_overflow {ns : List Int64} {sum : Int64}
    (h : ∃ k ≤ ns.length, fitsInt64 (sum.toInt + ((ns.take k).map Int64.toInt).sum) = false) :
    total sum (ns.map .integer) = .error .integerOverflow := by
  have hstart : fitsInt64 (sum.toInt + 0) = true := by rw [Int.add_zero, fitsInt64_toInt]
  induction ns generalizing sum with
  | nil =>
    obtain ⟨k, -, hk⟩ := h
    rw [List.take_nil, List.map_nil, List.sum_nil, hstart] at hk
    cases hk
  | cons n ns ih =>
    rw [List.map_cons, total]
    by_cases hnext : fitsInt64 (sum.toInt + n.toInt) = true
    · have hexact := toInt_ofInt_of_fits hnext
      rw [if_pos hnext]
      apply ih
      · obtain ⟨k, hk, hsum⟩ := h
        cases k with
        | zero =>
          rw [List.take_zero, List.map_nil, List.sum_nil, hstart] at hsum
          cases hsum
        | succ k =>
          refine ⟨k, Nat.le_of_succ_le_succ hk, ?_⟩
          rwa [hexact, Int.add_assoc]
      · rw [Int.add_zero, fitsInt64_toInt]
    · exact if_neg hnext

/-- a sum fails exactly if a running total does not fit -/
theorem total_fails_iff (ns : List Int64) : total 0 (ns.map .integer) = .error .integerOverflow ↔ Overflows ns := by
  have hzero : ∀ k, (0 : Int64).toInt + ((ns.take k).map Int64.toInt).sum = ((ns.take k).map Int64.toInt).sum :=
    fun k => Int.zero_add _
  by_cases h : Overflows ns
  · refine iff_of_true (total_overflow ?_) h
    obtain ⟨k, hk, hsum⟩ := h
    exact ⟨k, hk, by rwa [hzero]⟩
  · refine iff_of_false ?_ h
    obtain ⟨n, hn, -⟩ : ∃ n, total 0 (ns.map .integer) = .ok n ∧ _ := by
      apply total_eq
      intro k hk
      rw [hzero]
      exact Bool.not_eq_false _ ▸ fun hsum => h ⟨k, hk, hsum⟩
    rw [hn]
    nofun

/-- nothing else goes wrong with a sum -/
theorem total_error {sum : Int64} {cells : List Value} {e : DatabaseError} (h : total sum cells = .error e) :
    e = .integerOverflow := by
  induction cells generalizing sum with
  | nil => cases h
  | cons cell cells ih =>
    cases cell with
    | integer n =>
      rw [total] at h
      split at h
      · exact ih h
      · exact (Except.error.inj h).symm
    | null | real | text | blob => exact ih h

theorem value_error {m : Measure} {rows : List Row} {e : DatabaseError} (h : m.value rows = .error e) :
    e = .integerOverflow := by
  cases m with
  | count => cases h
  | sum c =>
    simp only [value] at h
    split at h
    · cases h
    · next cells =>
      cases htotal : total 0 ((rows.map fun row => row c).filter fun v => v != .null) with
      | error d =>
        rw [htotal] at h
        cases h
        exact total_error htotal
      | ok n =>
        rw [htotal] at h
        cases h

/-- the sum over the rows of some items fails exactly if a running total of their numbers does not fit -/
theorem value_sum_fails_iff {α : Type} {c : Column} {rows : List Row} {items : List α} {cell : α → Option Int64}
    (h : rows.map (fun row => row c) = items.map fun a => .ofInteger? (cell a)) :
    value rows (.sum c) = .error .integerOverflow ↔ Overflows (items.filterMap cell) := by
  rw [value_sum h, ← total_fails_iff]
  split_ifs with hnone
  · rw [hnone]
    exact iff_of_false nofun nofun
  · cases total 0 ((items.filterMap cell).map .integer) with
    | error e => simp [Except.map]
    | ok n => simp [Except.map]

end Measure

/-! ## Lines -/

/-- either the measure of a group fails, and so do the lines, or each group has its line -/
theorem Select.mapM_line {q : Select} {m : Measure} {name : String} (hm : q.measure = some (m, name))
    (groups : List Group) :
    (∃ g ∈ groups, m.value g.rows = .error .integerOverflow) ∧ groups.mapM q.line = .error .integerOverflow ∨
      (¬ ∃ g ∈ groups, m.value g.rows = .error .integerOverflow) ∧ ∃ lines, groups.mapM q.line = .ok lines := by
  cases hlines : groups.mapM q.line with
  | ok lines =>
    refine .inr ⟨?_, lines, rfl⟩
    rintro ⟨g, hg, hfails⟩
    obtain ⟨i, hi, rfl⟩ := List.mem_iff_getElem.1 hg
    obtain ⟨hlength, hget⟩ := List.forall₂_iff_get.1 (mapM_eq_ok_iff.1 hlines)
    have hok := hget i hi (hlength ▸ hi)
    rw [List.get_eq_getElem, line_eq hm, hfails] at hok
    cases hok
  | error e =>
    obtain ⟨before, g, after, rfl, -, hg⟩ := mapM_eq_error_iff.1 hlines
    rw [line_eq hm] at hg
    cases hv : m.value g.rows with
    | ok cell =>
      rw [hv] at hg
      cases hg
    | error d =>
      rw [hv] at hg
      cases hg
      obtain rfl := Measure.value_error hv
      exact .inl ⟨⟨g, by simp, hv⟩, rfl⟩

/-! ## Rows of a report -/

namespace Request

/-- what tells the row of a session from other rows: its keys, and nothing without a group -/
def rowKeys (dimension : Option Dimension) (s : Store) (x : SessionRow) : List Value :=
  (dimension.map fun d => d.keysOf s x).getD []

/-- the sessions behind the row of a session, in the order of their table -/
def behind (r : Request) (dimension : Option Dimension) (s : Store) (x : SessionRow) : List SessionRow :=
  (s.sessions.filter fun y => r.Eligible dimension s y).filter fun y => rowKeys dimension s y = rowKeys dimension s x

/-- the request asks for a sum that cannot be had: a running total of one of its rows does not fit -/
def Overflows (r : Request) (dimension : Option Dimension) (s : Store) : Prop :=
  r.query = .sessionCount ∧
    ∃ x ∈ s.sessions, r.Eligible dimension s x ∧
      Measure.Overflows ((r.behind dimension s x).filterMap SessionRow.simSessionsSince)

instance (r : Request) (dimension : Option Dimension) (s : Store) : Decidable (r.Overflows dimension s) := by
  unfold Overflows; infer_instance

variable {r : Request} {cs : List Criterion} {dimension : Option Dimension}

/-- what is true of the rows of some group is true of what is behind some session -/
theorem exists_group_iff (hd : r.dimension = .ok dimension) (hc : r.criteria = .ok cs) (m : Measure) (name : String)
    {s : Store} (hs : s.Sound) {v : Variables} (hv : ∀ b ∈ r.lookups, v.value b.target = Attached.lookup s b)
    (P : List Row → Prop) (hnone : ¬ P []) :
    let q := tally m name cs dimension none
    (∃ g ∈ q.groups (q.matching s v), P g.rows) ↔
      ∃ x ∈ s.sessions, r.Eligible dimension s x ∧
        P ((r.behind dimension s x).map fun y => (s.view y).only (.session :: q.tables)) := by
  intro q
  let eligible := s.sessions.filter fun x => r.Eligible dimension s x
  have heligible : ∀ x, x ∈ eligible ↔ x ∈ s.sessions ∧ r.Eligible dimension s x := by
    intro x
    rw [List.mem_filter, decide_eq_true_iff]
  cases dimension with
  | none =>
    have hbehind : ∀ x, r.behind none s x = eligible := fun x => List.filter_eq_self.2 fun y _ => decide_eq_true rfl
    have hgroups : q.groups (q.matching s v) = [⟨[], eligible.map fun y => (s.view y).only (.session :: q.tables)⟩] := by
      rw [← matching_tally hd hc m name none hs hv]
      rfl
    simp only [hgroups, hbehind, List.mem_singleton, exists_eq_left]
    constructor
    · intro hP
      obtain ⟨x, hx⟩ : ∃ x, x ∈ eligible := by
        apply List.exists_mem_of_ne_nil
        intro hempty
        rw [hempty] at hP
        exact hnone hP
      exact ⟨x, ((heligible x).1 hx).1, ((heligible x).1 hx).2, hP⟩
    · rintro ⟨x, -, -, hP⟩
      exact hP
  | some d =>
    obtain ⟨parts, -, hparts, -, hgroups⟩ := groups_tally hd hc m name hs hv
    simp only [q, hgroups]
    constructor
    · rintro ⟨g, hg, hP⟩
      obtain ⟨keys, hkeys, rfl⟩ := List.mem_map.1 hg
      obtain ⟨x, hx, rfl⟩ := (hparts keys).1 hkeys
      exact ⟨x, ((heligible x).1 hx).1, ((heligible x).1 hx).2, hP⟩
    · rintro ⟨x, hx, hmatch, hP⟩
      exact ⟨_, List.mem_map_of_mem ((hparts _).2 ⟨x, (heligible x).2 ⟨hx, hmatch⟩, rfl⟩), hP⟩

/-- the measure of some group fails exactly if the request overflows -/
theorem exists_overflow_iff (hd : r.dimension = .ok dimension) (hc : r.criteria = .ok cs) {m : Measure}
    (hm : r.query.measure? = some m) (name : String) {s : Store} (hs : s.Sound) {v : Variables}
    (hv : ∀ b ∈ r.lookups, v.value b.target = Attached.lookup s b) :
    let q := tally m name cs dimension none
    (∃ g ∈ q.groups (q.matching s v), m.value g.rows = .error .integerOverflow) ↔ r.Overflows dimension s := by
  intro q
  cases hq : r.query with
  | messageCount =>
    rw [hq] at hm
    cases hm
    refine iff_of_false ?_ fun h => ?_
    · rintro ⟨g, -, hfails⟩
      cases hfails
    · cases hq.symm.trans h.1
  | sessionCount =>
    rw [hq] at hm
    cases hm
    have hempty : ¬ Measure.value [] (.sum (.session .simSessionsSince)) = .error .integerOverflow := nofun
    refine (exists_group_iff hd hc _ name hs hv (fun rows => Measure.value rows _ = _) hempty).trans ?_
    simp only [Overflows, hq, true_and]
    refine exists_congr fun x => and_congr_right fun _ => and_congr_right fun _ => ?_
    apply Measure.value_sum_fails_iff
    rw [List.map_map]
    exact List.map_congr_left fun y _ => rfl
  | simType =>
    rw [hq] at hm
    cases hm

end Request

/-! ## Reports -/

/-- the types of a simulation can always be told -/
theorem Request.evaluated_simTypes (s : Store) (v : Variables) :
    ∃ answer, Attached.evaluated s v Request.simTypes = .ok answer := by
  have hline : ∀ g, Request.simTypes.line g =
      .ok ⟨Request.simTypes.labels.map fun l => l.expression.value g.first, g.first⟩ := fun _ => rfl
  cases hlines : (simTypes.groups (simTypes.matching s v)).mapM simTypes.line with
  | error e =>
    obtain ⟨before, g, after, -, -, hg⟩ := mapM_eq_error_iff.1 hlines
    rw [hline] at hg
    cases hg
  | ok lines =>
    refine ⟨⟨simTypes.outputs, (simTypes.arrange none (Select.distinctLines lines)).map Select.Line.cells⟩, ?_⟩
    have hreadable : simTypes.unreadable? = none := rfl
    have hterm : simTypes.orderTerm? = .ok none := rfl
    rw [Attached.evaluated, hreadable]
    simp only [Select.evaluate, hterm, hlines]
    rfl

/-- **When an accepted report fails.** -/
theorem run_failing {d : Database} (hd : d.Reachable) {r : Request} {p : Plan Aggregate} (hr : r.compile = .ok p)
    (ho : r.order? = none) (leftover : Option Variables) :
    ∃ s dimension, d = .stored s ∧ r.dimension = .ok dimension ∧
      (r.Overflows dimension s →
        (r.run Attached.answer ⟨d, leftover⟩).1 = .error (.statementExecution (p.size - 1) .integerOverflow)) ∧
      (¬ r.Overflows dimension s → ∃ o, (r.run Attached.answer ⟨d, leftover⟩).1 = .ok o) := by
  obtain ⟨s, rfl, hs⟩ := hd.sound
  cases hm : r.query.measure? with
  | some m =>
    obtain ⟨dimension, cs, v, hdim, hc, hv, hrun⟩ := r.run_tally hr ho hm s leftover
    have hfails := Request.exists_overflow_iff hdim hc hm r.query.key hs hv
    dsimp only at hrun hfails
    refine ⟨s, dimension, rfl, hdim, ?_⟩
    have hmeasure : (Request.tally m r.query.key cs dimension none).measure = some (m, r.query.key) := rfl
    rcases Select.mapM_line hmeasure ((Request.tally m r.query.key cs dimension none).groups
        ((Request.tally m r.query.key cs dimension none).matching s v)) with ⟨hover, hlines⟩ | ⟨hfine, lines, hlines⟩
    · rw [hrun, hlines]
      exact ⟨fun _ => rfl, fun hnot => absurd (hfails.1 hover) hnot⟩
    · rw [hrun, hlines]
      exact ⟨fun hover => absurd (hfails.2 hover) hfine, fun _ => ⟨_, rfl⟩⟩
  | none =>
    obtain ⟨v, -, hrun⟩ := Attached.run_stored hr s leftover
    obtain ⟨dimension, arrangement, cs, -, hdim, -, -, -, rfl⟩ := Request.compile_ok_iff.1 hr
    obtain hq : r.query = .simType := by
      cases hq : r.query with
      | simType => rfl
      | messageCount | sessionCount => rw [hq] at hm; cases hm
    obtain ⟨answer, hanswer⟩ := Request.evaluated_simTypes s v
    simp only [Request.select_eq_simTypes hq, hanswer] at hrun
    refine ⟨s, dimension, rfl, hdim, fun hover => ?_, fun _ => ⟨_, hrun⟩⟩
    cases hq.symm.trans hover.1

/-! ## A sum that cannot be had -/

namespace Database

/-- three launches; what the first one reports leaves no room for the second -/
def crowdedRecords : List SessionRecord :=
  [{ sampleSession with simSessionsSince := some Int64.maxValue },
    { sampleSession with simSessionsSince := some 1 },
    { sampleSession with simSessionsSince := some (-1) }]

def crowdedStore : Store :=
  match (Store.empty.noteVersion Schema.version).write crowdedRecords with
  | .ok (s, _) => s
  | .error _ => Store.empty

theorem reachable_crowded : (stored crowdedStore).Reachable := by
  have hwritten : (stored (Store.empty.noteVersion Schema.version)).write crowdedRecords =
      .ok (stored crowdedStore, ⟨3, 0, 0, 3⟩) := by
    decide
  exact .written (.created rfl) hwritten

end Database

/-- all earlier launches -/
def sampleSum : Request := { Request.everything with query := .sessionCount }

theorem run_failing_sample :
    (sampleSum.run Attached.answer (.ofDatabase (.stored Database.crowdedStore))).1 =
        .error (.statementExecution 0 .integerOverflow) ∧
      ∃ o, (Request.everything.run Attached.answer (.ofDatabase (.stored Database.crowdedStore))).1 = .ok o := by
  have hcompile : ∀ r ∈ [sampleSum, Request.everything], r.compile = .ok ⟨[], r.query, r.select [] none none⟩ := by
    decide
  constructor
  · obtain ⟨s, dimension, hs, hd, hfails, -⟩ :=
      run_failing Database.reachable_crowded (hcompile sampleSum (by decide)) rfl none
    cases hs
    cases hd
    exact hfails (by decide)
  · obtain ⟨s, dimension, hs, hd, -, hanswered⟩ :=
      run_failing Database.reachable_crowded (hcompile Request.everything (by decide)) rfl none
    cases hs
    cases hd
    exact hanswered (by decide)

/-- an accepted request on accepted data fails, though its whole sum is an integer of 64 bits -/
theorem accepted_report_fails :
    (Database.stored Database.crowdedStore).Reachable ∧ (∃ p, sampleSum.compile = .ok p) ∧ sampleSum.order? = none ∧
      ((Database.crowdedStore.sessions.filterMap SessionRow.simSessionsSince).map Int64.toInt).sum =
        9223372036854775807 ∧
      (sampleSum.run Attached.answer (.ofDatabase (.stored Database.crowdedStore))).1 =
        .error (.statementExecution 0 .integerOverflow) :=
  ⟨Database.reachable_crowded, ⟨⟨[], .sessionCount, sampleSum.select [] none none⟩, by decide⟩, rfl,
    by decide, by decide⟩

end LaunchReports
