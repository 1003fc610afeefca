/-
What a report without a group means.

- `run_ungrouped`: on a reachable database an accepted request without group and order is answered with one cell: the
  number of the sessions that match every supplied filter, or the sum of what they report of earlier launches. The
  lookups that are reported as unmatched are those whose names are in no row.

`run_tally` says what any request without an order is answered with, grouped or not.
-/
import Mathlib
import LaunchReports.Proofs.Report.Matching
import LaunchReports.Proofs.Store.Answering

namespace LaunchReports

/-! ## Statements without an order -/

theorem Select.evaluated_unordered {q : Select} (h : q.arrangement = none) (hd : q.distinct = false) (s : Store)
    (v : Variables) :
    Attached.evaluated s v q =
      ((q.groups (q.matching s v)).mapM q.line).map fun lines => ⟨q.outputs, lines.map Line.cells⟩ := by
  have hreadable : q.unreadable? = none := by rw [unreadable?, h]; rfl
  have hterm : q.orderTerm? = .ok none := by rw [orderTerm?, h]
  rw [Attached.evaluated, hreadable]
  simp only [evaluate, hterm, hd]
  cases hlines : (q.groups (q.matching s v)).mapM q.line with
  | error e => rfl
  | ok lines => simp [bind, Except.bind, pure, Except.pure, arrange, h, Except.map]

/-- the tally of an accepted request without an order, and what it is answered with -/
theorem Request.run_tally {r : Request} {p : Plan Aggregate} (hr : r.compile = .ok p) (ho : r.order? = none)
    {m : Measure} (hm : r.query.measure? = some m) (s : Store) (leftover : Option Variables) :
    ∃ dimension cs, ∃ v : Variables, r.dimension = .ok dimension ∧ r.criteria = .ok cs ∧
      (∀ b ∈ r.lookups, v.value b.target = Attached.lookup s b) ∧
        let q := tally m r.query.key cs dimension none
        (r.run Attached.answer ⟨.stored s, leftover⟩).1 =
          match (q.groups (q.matching s v)).mapM q.line with
          | .ok lines => .ok ⟨⟨q.outputs, lines.map Select.Line.cells⟩, p.size, s.unmatched r.lookups⟩
          | .error e => .error (.statementExecution (p.size - 1) e) := by
  obtain ⟨v, hv, hrun⟩ := Attached.run_stored hr s leftover
  obtain ⟨dimension, arrangement, cs, -, hd, ha, -, hc, rfl⟩ := compile_ok_iff.1 hr
  have hnone : arrangement = none := by
    rw [Request.arrangement, ho] at ha
    cases ha
    rfl
  subst hnone
  refine ⟨dimension, cs, v, hd, hc, hv, ?_⟩
  have hselect : r.select cs dimension none = tally m r.query.key cs dimension none := by
    simp only [select, hm]
  simp only [hselect, Select.evaluated_unordered (q := tally m r.query.key cs dimension none) rfl rfl] at hrun
  dsimp only
  rw [hrun]
  cases ((tally m r.query.key cs dimension none).groups
    ((tally m r.query.key cs dimension none).matching s v)).mapM (tally m r.query.key cs dimension none).line <;> rfl

/-! ## Measures -/

theorem toInt_ofNat_of_le {n : Nat} {last : Int64} (h : (n : Int) ≤ last.toInt) : (Int64.ofNat n).toInt = n := by
  have hle := last.toInt_le
  have htop : Int64.maxValue.toInt = 2 ^ 63 - 1 := rfl
  rw [Int64.toInt_ofNat_of_lt]
  omega

/-- the count of the sessions that a store keeps fits -/
theorem Store.Sound.toInt_count {s : Store} (hs : s.Sound) (keep : SessionRow → Bool) :
    (Int64.ofNat (s.sessions.filter keep).length).toInt = (s.sessions.filter keep).length := by
  apply toInt_ofNat_of_le
  calc ((s.sessions.filter keep).length : Int)
      ≤ s.sessions.length := Int.ofNat_le.2 (List.length_filter_le keep s.sessions)
    _ ≤ s.lastSession.toInt := hs.sessions_length

/-- adding up stays exact while every partial sum fits -/
theorem Measure.total_eq {ns : List Int64} {sum : Int64}
    (h : ∀ k ≤ ns.length, fitsInt64 (sum.toInt + ((ns.take k).map Int64.toInt).sum) = true) :
    ∃ n, total sum (ns.map .integer) = .ok n ∧ n.toInt = sum.toInt + (ns.map Int64.toInt).sum := by
  induction ns generalizing sum with
  | nil => exact ⟨sum, rfl, by simp⟩
  | cons n ns ih =>
    have hnext : fitsInt64 (sum.toInt + n.toInt) = true := by simpa using h 1 (by simp)
    have hexact := toInt_ofInt_of_fits hnext
    have hrest : ∀ k ≤ ns.length,
        fitsInt64 ((Int64.ofInt (sum.toInt + n.toInt)).toInt + ((ns.take k).map Int64.toInt).sum) = true := by
      intro k hk
      have := h (k + 1) (Nat.succ_le_succ hk)
      rw [List.take_succ_cons, List.map_cons, List.sum_cons] at this
      rwa [hexact, Int.add_assoc]
    obtain ⟨m, hm, hsum⟩ := ih hrest
    refine ⟨m, ?_, by rw [hsum, hexact, List.map_cons, List.sum_cons, Int.add_assoc]⟩
    rw [List.map_cons, total]
    simpa [hnext] using hm

/-- `NULL` does not count in a sum -/
theorem Measure.value_sum {α : Type} {c : Column} {rows : List Row} {items : List α} {cell : α → Option Int64}
    (h : rows.map (fun row => row c) = items.map fun a => .ofInteger? (cell a)) :
    value rows (.sum c) =
      if items.filterMap cell = [] then .ok .null
      else (total 0 ((items.filterMap cell).map .integer)).map .integer := by
  have hcells : ((rows.map fun row => row c).filter fun v => v != .null) = (items.filterMap cell).map .integer := by
    rw [h]
    clear h
    induction items with
    | nil => rfl
    | cons a items ih =>
      rw [List.map_cons, List.filter_cons, ih]
      cases ha : cell a <;> simp [Value.ofInteger?, ha]
  simp only [value, hcells, List.isEmpty_iff, List.map_eq_nil_iff]

/-- without keys there is one group, and its measure is the only cell -/
theorem Select.lines_total {q : Select} {m : Measure} {name : String} (hl : q.labels = []) (hk : q.keys = [])
    (hm : q.measure = some (m, name)) (rows : List Row) :
    (q.groups rows).mapM q.line = (m.value rows).map fun value => [⟨[value], (Group.mk [] rows).first⟩] := by
  have hgroups : q.groups rows = [⟨[], rows⟩] := by simp [groups, hk, hm]
  rw [hgroups]
  cases hv : m.value rows <;> simp [line, hl, hm, hv, bind, Except.bind, pure, Except.pure, Except.map]

/-- **What an ungrouped report says.** -/
theorem run_ungrouped {d : Database} (hd : d.Reachable) {r : Request} {p : Plan Aggregate} (hr : r.compile = .ok p)
    (hg : r.group? = none) (ho : r.order? = none) (leftover : Option Variables) :
    ∃ s, d = .stored s ∧
      let matching := s.sessions.filter fun x => ∀ filter ∈ r.supplied, s.Matches x filter
      let launches := matching.filterMap SessionRow.simSessionsSince
      let unmatched := r.lookups.filter fun b : Binding => ∀ row ∈ (s.names.get b.target).rows, row.name ≠ b.name
      let outcome (cell : Value) : Outcome :=
        ⟨⟨[r.query.key], [[cell]]⟩, p.size, unmatched.map fun b => ⟨b.column.name, b.symbol, b.name⟩⟩
      (r.query = .messageCount →
        ∃ n : Int64, n.toInt = matching.length ∧
          (r.run Attached.answer ⟨d, leftover⟩).1 = .ok (outcome (.integer n))) ∧
      (r.query = .sessionCount → launches = [] →
        (r.run Attached.answer ⟨d, leftover⟩).1 = .ok (outcome .null)) ∧
      (r.query = .sessionCount → launches ≠ [] →
        (∀ k ≤ launches.length, fitsInt64 ((launches.take k).map Int64.toInt).sum = true) →
          ∃ n : Int64, n.toInt = (launches.map Int64.toInt).sum ∧
            (r.run Attached.answer ⟨d, leftover⟩).1 = .ok (outcome (.integer n))) := by
  obtain ⟨s, rfl, hs⟩ := hd.sound
  refine ⟨s, rfl, ?_⟩
  intro matching launches unmatched outcome
  -- what any measure is answered with
  have hrun : ∀ m, r.query.measure? = some m → ∃ rows : List Row,
      rows.length = matching.length ∧
      rows.map (fun row => row (.session .simSessionsSince)) =
        matching.map (fun x => .ofInteger? x.simSessionsSince) ∧
      ∀ cell, m.value rows = .ok cell → (r.run Attached.answer ⟨.stored s, leftover⟩).1 = .ok (outcome cell) := by
    intro m hm
    obtain ⟨dimension, cs, v, hdim, hc, hv, hrun⟩ := r.run_tally hr ho hm s leftover
    have hnone : dimension = none := by
      rw [Request.dimension, hg] at hdim
      cases hdim
      rfl
    subst hnone
    have hmatching : (s.sessions.filter fun x => r.Eligible none s x) = matching := by
      refine List.filter_congr fun x _ => decide_eq_decide.2 ?_
      simp [Request.Eligible]
    have hrows := Request.matching_tally hdim hc m r.query.key none hs hv
    rw [hmatching] at hrows
    refine ⟨(Request.tally m r.query.key cs none none).matching s v, ?_, ?_, fun cell hcell => ?_⟩
    · rw [hrows, List.length_map]
    · rw [hrows, List.map_map]
      exact List.map_congr_left fun x _ => rfl
    · rw [hrun, Select.lines_total rfl rfl rfl, hcell]
      rfl
  refine ⟨fun hq => ?_, fun hq hnone => ?_, fun hq hsome hfits => ?_⟩
  · obtain ⟨rows, hlength, -, hcell⟩ := hrun .count (by rw [hq]; rfl)
    exact ⟨_, hs.toInt_count _, hcell _ (by rw [Measure.value, hlength])⟩
  · obtain ⟨rows, -, hcells, hcell⟩ := hrun (.sum (.session .simSessionsSince)) (by rw [hq]; rfl)
    exact hcell _ (by rw [Measure.value_sum hcells, if_pos hnone])
  · obtain ⟨rows, -, hcells, hcell⟩ := hrun (.sum (.session .simSessionsSince)) (by rw [hq]; rfl)
    have hpartial : ∀ k ≤ launches.length, fitsInt64 ((0 : Int64).toInt + ((launches.take k).map Int64.toInt).sum) :=
      fun k hk => by simpa using hfits k hk
    obtain ⟨n, hn, hsum⟩ := Measure.total_eq hpartial
    refine ⟨n, by simpa using hsum, hcell _ ?_⟩
    rw [Measure.value_sum hcells, if_neg hsome]
    exact congrArg (Except.map Value.integer) hn

/-- launches on Linux with a Flash version above 10 -/
def sampleTotal (query : Query) : Request where
  query := query
  filters := .ofPairs [("host_simplified_os", some "Linux"), ("host_flash_version_major", some "greater_than:10")]
  group := none
  order := none
  limit := none

theorem run_ungrouped_sample :
    ((sampleTotal .messageCount).run Attached.answer (.ofDatabase (.stored Database.sampleStore))).1 =
        .ok ⟨⟨["message_count"], [[.integer 1]]⟩, 3, []⟩ ∧
      ((sampleTotal .sessionCount).run Attached.answer (.ofDatabase (.stored Database.sampleStore))).1 =
        .ok ⟨⟨["session_count"], [[.integer 3]]⟩, 3, []⟩ := by
  have hcompile : ∀ query, query ≠ .simType → (sampleTotal query).compile =
      .ok ⟨(sampleTotal query).lookups, query, (sampleTotal query).select
        [.compares (.flash .versionMajor) (.binary .greater (.integer 10)),
          .isNamed ⟨.session .hostSimplifiedOs, .simplifiedOs, "Linux"⟩] none none⟩ := by
    intro query hq
    cases query with
    | messageCount | sessionCount => decide
    | simType => contradiction
  constructor
  · obtain ⟨s, hs, hcount, -, -⟩ :=
      run_ungrouped Database.reachable_sample (hcompile .messageCount (by decide)) rfl rfl none
    cases hs
    obtain ⟨n, hn, hrun⟩ := hcount rfl
    obtain rfl : n = 1 := Int64.toInt_inj.1 (hn.trans (by decide))
    exact hrun.trans (by decide)
  · obtain ⟨s, hs, -, -, hsum⟩ :=
      run_ungrouped Database.reachable_sample (hcompile .sessionCount (by decide)) rfl rfl none
    cases hs
    obtain ⟨n, hn, hrun⟩ := hsum rfl (by decide) (by decide)
    obtain rfl : n = 3 := Int64.toInt_inj.1 (hn.trans (by decide))
    exact hrun.trans (by decide)

end LaunchReports
