/-
What the warning of an unmatched lookup is worth.

Each lookup whose name is in no row puts one warning into the envelope of a report, which says that the report is empty.

- `run_unmatched`: on a reachable database that is so for all tallies. They are over no session, whatever else the
  request asks for: a grouped one has no rows, an ungrouped one has the one row of zero launches. The types of a
  simulation are empty if the unmatched name is that of the simulation, but no other lookup counts for them.
- `simTypes_beside_warning`: they need not be empty beside a warning.
-/
import LaunchReports.Proofs.Report.Totals
import LaunchReports.Report.Envelope

namespace LaunchReports

/-! ## Warnings -/

/-- the warning of a lookup -/
def UnmatchedLookup.notice (u : UnmatchedLookup) : Notice :=
  ⟨"unmatched_lookup", "no `" ++ u.field ++ "` named `" ++ u.name ++ "`; the report is empty",
    some (.object [("field", .string u.field), ("symbol", .string u.symbol), ("name", .string u.name)])⟩

namespace Envelope

theorem warnings_withUnmatched (e : Envelope) (u : UnmatchedLookup) :
    (e.withUnmatched u).warnings = e.warnings ++ [u.notice] := by
  simp [withUnmatched, withWarning, withWarningDetails, UnmatchedLookup.notice]

theorem warnings_foldl_withUnmatched (us : List UnmatchedLookup) (e : Envelope) :
    (us.foldl withUnmatched e).warnings = e.warnings ++ us.map UnmatchedLookup.notice := by
  induction us generalizing e with
  | nil => rw [List.foldl_nil, List.map_nil, List.append_nil]
  | cons u us ih =>
    rw [List.foldl_cons, ih, warnings_withUnmatched, List.append_assoc]
    rfl

/-- one warning a lookup, after those that are there -/
theorem warnings_withOutcome (e : Envelope) (o : Outcome) :
    (e.withOutcome o).warnings = e.warnings ++ o.unmatched.map UnmatchedLookup.notice :=
  warnings_foldl_withUnmatched _ _

end Envelope

/-! ## Short results -/

namespace Select

theorem arrange_nil (q : Select) (term : Option OrderTerm) : q.arrange term [] = [] := by
  unfold arrange
  split
  · split <;> simp
  · rfl

/-- an order leaves one line as it is, a limit lets at least one through -/
theorem arrange_singleton {q : Select} (h : ∀ a ∈ q.arrangement, ∀ n ∈ a.limit, 1 ≤ n.toInt) (term : Option OrderTerm)
    (l : Line) : q.arrange term [l] = [l] := by
  unfold arrange
  split
  · next a t ha =>
    rw [List.mergeSort_singleton]
    split
    · next n hn =>
      have := h a ha n hn
      exact List.take_of_length_le (by rw [List.length_singleton]; omega)
    · rfl
  · rfl

/-- the lines behind a result -/
theorem evaluated_ok {q : Select} {s : Store} {v : Variables} {answer : ResultSet}
    (h : Attached.evaluated s v q = .ok answer) :
    ∃ term lines, (q.groups (q.matching s v)).mapM q.line = .ok lines ∧
      answer.rows = (q.arrange term (if q.distinct then distinctLines lines else lines)).map Line.cells := by
  unfold Attached.evaluated at h
  split at h
  · cases h
  · unfold evaluate at h
    cases hterm : q.orderTerm? with
    | error e => rw [hterm] at h; cases h
    | ok term =>
      cases hlines : (q.groups (q.matching s v)).mapM q.line with
      | error e => rw [hterm, hlines] at h; cases h
      | ok lines =>
        rw [hterm, hlines] at h
        cases h
        exact ⟨term, lines, rfl, rfl⟩

theorem distinctLines_eq_nil {lines : List Line} : distinctLines lines = [] ↔ lines = [] := by
  have hkept : ∀ (rest kept : List Line), kept ≠ [] →
      rest.foldl (fun kept l => if kept.any fun k => k.cells = l.cells then kept else kept ++ [l]) kept ≠ [] := by
    intro rest
    induction rest with
    | nil => exact fun _ h => h
    | cons l rest ih =>
      intro kept h
      refine ih _ ?_
      dsimp only
      split
      · exact h
      · simp
  cases lines with
  | nil => exact ⟨fun _ => rfl, fun _ => rfl⟩
  | cons l rest =>
    refine ⟨fun h => absurd h (hkept rest [l] ?_), nofun⟩
    exact List.cons_ne_nil _ _

end Select

/-! ## Tallies over no session -/

theorem Request.limit_pos {r : Request} {arrangement : Option Arrangement} (h : r.arrangement = .ok arrangement) :
    ∀ a ∈ arrangement, ∀ n ∈ a.limit, 1 ≤ n.toInt := by
  intro a ha n hn
  unfold Request.arrangement at h
  split at h
  · cases h; cases ha
  · split at h <;> cases h
    cases ha
    obtain ⟨k, hk, rfl⟩ := Option.map_eq_some_iff.1 hn
    have hpos : k.toNat ≠ 0 := by
      have := (Option.filter_eq_some_iff.1 hk).2
      simpa [← UInt64.toNat_inj] using this
    have htop : Int64.maxValue.toInt = 2 ^ 63 - 1 := rfl
    rw [Int64.toInt_ofNat_of_lt] <;> omega

/-- a lookup of a name that is in no row comes from a filter that no session matches -/
theorem Request.exists_unmatched_filter {r : Request} {s : Store} {b : Binding} (hb : b ∈ r.lookups)
    (hnone : ∀ row ∈ (s.names.get b.target).rows, row.name ≠ b.name) :
    ∃ f value, (f, value) ∈ r.supplied ∧ f.column = b.column ∧ ∀ x, ¬ s.Matches x (f, value) := by
  obtain ⟨⟨f, value⟩, hf, hbinding⟩ := List.mem_filterMap.1 hb
  obtain ⟨target, ht, rfl⟩ := Option.map_eq_some_iff.1 hbinding
  refine ⟨f, value, hf, rfl, fun x ⟨row, _, _, haccepts⟩ => ?_⟩
  obtain hg : f.grammar = .lookup target := by
    cases hgrammar : f.grammar <;> rw [hgrammar] at ht <;> cases ht
    rfl
  simp only [Field.Accepts, hg] at haccepts
  obtain ⟨q, hq, hname, -⟩ := haccepts
  exact hnone q hq hname

namespace Request

variable {r : Request} {cs : List Criterion} {dimension : Option Dimension} {arrangement : Option Arrangement}

/-- the statement behind an answer, and the lookups that are told -/
theorem run_ok {p : Plan Aggregate} (hr : r.compile = .ok p) {s : Store} {leftover : Option Variables} {o : Outcome}
    (h : (r.run Attached.answer ⟨.stored s, leftover⟩).1 = .ok o) :
    ∃ dimension arrangement cs, ∃ v : Variables, r.dimension = .ok dimension ∧ r.arrangement = .ok arrangement ∧
      r.missingFilter? = none ∧ r.criteria = .ok cs ∧
      (∀ b ∈ r.lookups, v.value b.target = Attached.lookup s b) ∧
      Attached.evaluated s v (r.select cs dimension arrangement) = .ok o.result ∧
      o.unmatched = s.unmatched r.lookups := by
  obtain ⟨v, hv, hrun⟩ := Attached.run_stored hr s leftover
  obtain ⟨dimension, arrangement, cs, -, hd, ha, hm, hc, rfl⟩ := compile_ok_iff.1 hr
  refine ⟨dimension, arrangement, cs, v, hd, ha, hm, hc, hv, ?_⟩
  rw [hrun] at h
  split at h
  · next answer hanswer => cases h; exact ⟨hanswer, rfl⟩
  · cases h

theorem isSome_dimension (hd : r.dimension = .ok dimension) : dimension.isSome = r.group?.isSome := by
  unfold Request.dimension at hd
  split at hd
  · next hg => cases hd; rw [hg]; rfl
  · next name hg =>
    split at hd <;> cases hd
    rw [hg]
    rfl

/-- a tally over no session: no rows with a group, else the measure of nothing -/
theorem rows_tally_of_none (hd : r.dimension = .ok dimension) (ha : r.arrangement = .ok arrangement)
    (hc : r.criteria = .ok cs) (m : Measure) {s : Store} (hs : s.Sound) {v : Variables}
    (hv : ∀ b ∈ r.lookups, v.value b.target = Attached.lookup s b)
    (hnone : ∀ x ∈ s.sessions, ¬ r.Eligible dimension s x)
    {answer : ResultSet} (h : Attached.evaluated s v (tally m r.query.key cs dimension arrangement) = .ok answer)
    {cell : Value} (hcell : m.value [] = .ok cell) : answer.rows = if dimension.isSome then [] else [[cell]] := by
  obtain ⟨term, lines, hlines, hrows⟩ := Select.evaluated_ok h
  have hmatching : (tally m r.query.key cs dimension arrangement).matching s v = [] := by
    rw [matching_tally hd hc m r.query.key arrangement hs hv, List.map_eq_nil_iff, List.filter_eq_nil_iff]
    intro x hx
    simpa using hnone x hx
  rw [hmatching] at hlines
  cases dimension with
  | none =>
    rw [Select.lines_total rfl rfl rfl, hcell] at hlines
    cases hlines
    rw [hrows]
    exact congrArg _ (Select.arrange_singleton (limit_pos ha) term _)
  | some d =>
    have hkeys : (tally m r.query.key cs (some d) arrangement).keys.isEmpty = false :=
      List.isEmpty_eq_false_iff.2 (dimension_sound hd d rfl).keys_some
    rw [Select.groups, hkeys] at hlines
    cases hlines
    rw [hrows]
    exact congrArg _ (Select.arrange_nil _ term)

end Request

/-! ## Types of a simulation -/

namespace Request

theorem linked_simTypes : simTypes.Linked where
  no_session := List.not_mem_nil
  links := nofun
  reads := by decide

/-- the types are those of the sessions of the simulation, whatever else is asked for -/
theorem rows_simTypes_eq_nil {r : Request} {s : Store} (hs : s.Sound) {v : Variables}
    (hv : ∀ b ∈ r.lookups, v.value b.target = Attached.lookup s b) {name : String}
    (hname : r.value? Field.simName.name = some name) {answer : ResultSet}
    (h : Attached.evaluated s v simTypes = .ok answer) :
    answer.rows = [] ↔ ∀ x ∈ s.sessions, ¬ s.Matches x (.simName, name) := by
  have simName_mem : Field.simName ∈ Field.all := by decide
  have hsupplied : (Field.simName, name) ∈ r.supplied := mem_supplied.2 ⟨simName_mem, hname⟩
  have hbound := hv ⟨_, .simName, name⟩ (List.mem_filterMap.2 ⟨_, hsupplied, rfl⟩)
  have hadmits : ∀ x ∈ s.sessions, simTypes.admits s v (.session :: simTypes.tables) x = true ↔
      s.Matches x (.simName, name) := by
    intro x hx
    have hmatches : s.Matches x (.simName, name) ↔ _ :=
      Criterion.matches_iff hs hx simName_mem (c := .isNamed ⟨_, .simName, name⟩) rfl (by rintro b ⟨⟩; exact hbound)
    rw [linked_simTypes.admits_iff, hmatches]
    simp [simTypes, Criterion.condition, Binding.condition, Criterion.table, Field.simName, Field.lookup, Column.table,
      Store.partner?, Store.relation?]
  obtain ⟨term, lines, hlines, hrows⟩ := Select.evaluated_ok h
  have hlength : lines.length = (simTypes.matching s v).length := by
    rw [← (mapM_eq_ok_iff.1 hlines).length_eq]
    exact List.length_map _
  calc answer.rows = []
      ↔ Select.distinctLines lines = [] := by rw [hrows, List.map_eq_nil_iff]; rfl
    _ ↔ simTypes.matching s v = [] := by
        rw [Select.distinctLines_eq_nil, ← List.length_eq_zero_iff, hlength, List.length_eq_zero_iff]
    _ ↔ ∀ x ∈ s.sessions, ¬ s.Matches x (.simName, name) := by
        rw [Select.matching_eq linked_simTypes hs, Select.joined, List.map_eq_nil_iff, List.filter_eq_nil_iff]
        exact forall₂_congr fun x hx => not_congr (hadmits x hx)

end Request

/-! ## Reports -/

/-- **What is told beside the warning of an unmatched lookup.** -/
theorem run_unmatched {d : Database} (hd : d.Reachable) {r : Request} {p : Plan Aggregate} (hr : r.compile = .ok p)
    {leftover : Option Variables} {o : Outcome} (ho : (r.run Attached.answer ⟨d, leftover⟩).1 = .ok o)
    {u : UnmatchedLookup} (hu : u ∈ o.unmatched) :
    ∃ s, d = .stored s ∧
      (∀ command, u.notice ∈ (Envelope.ofOutcome command o).warnings ∧
        u.notice ∈ (Envelope.ofSingleValue command o).warnings) ∧
      (∀ x ∈ s.sessions, ¬ ∀ filter ∈ r.supplied, s.Matches x filter) ∧
      (r.query ≠ .simType → o.result.rows =
        if r.group?.isSome then [] else [[if r.query = .messageCount then .integer 0 else .null]]) ∧
      (r.query = .simType → ∃ name, r.value? Field.simName.name = some name ∧
        (o.result.rows = [] ↔ ∀ x ∈ s.sessions, ¬ s.Matches x (.simName, name)) ∧
        (u.field = Field.simName.name → o.result.rows = [])) := by
  obtain ⟨s, rfl, hs⟩ := hd.sound
  obtain ⟨dimension, arrangement, cs, v, hdim, ha, hm, hc, hv, hanswer, hunmatched⟩ := Request.run_ok hr ho
  obtain ⟨b, hb, rfl⟩ := List.mem_map.1 (hunmatched ▸ hu)
  obtain ⟨hb, hnone⟩ := List.mem_filter.1 hb
  obtain ⟨f, value, hf, hcolumn, hmatches⟩ := Request.exists_unmatched_filter hb (of_decide_eq_true hnone)
  have hover : ∀ x ∈ s.sessions, ¬ ∀ filter ∈ r.supplied, s.Matches x filter := fun x _ h =>
    hmatches x (h (f, value) hf)
  refine ⟨s, rfl, fun command => ⟨?_, ?_⟩, hover, fun hq => ?_, fun hq => ?_⟩
  · rw [Envelope.ofOutcome, Envelope.warnings_withOutcome]
    exact List.mem_append_right _ (List.mem_map_of_mem hu)
  · rw [Envelope.ofSingleValue, Envelope.warnings_withOutcome]
    exact List.mem_append_right _ (List.mem_map_of_mem hu)
  · have heligible : ∀ x ∈ s.sessions, ¬ r.Eligible dimension s x := fun x hx h => hover x hx h.1
    rw [← Request.isSome_dimension hdim]
    cases hquery : r.query with
    | messageCount =>
      rw [Request.select_eq_tally (m := .count) (by rw [hquery]; rfl)] at hanswer
      exact Request.rows_tally_of_none hdim ha hc _ hs hv heligible hanswer rfl
    | sessionCount =>
      rw [Request.select_eq_tally (m := .sum (.session .simSessionsSince)) (by rw [hquery]; rfl)] at hanswer
      exact Request.rows_tally_of_none hdim ha hc _ hs hv heligible hanswer rfl
    | simType => exact absurd hquery hq
  · obtain ⟨name, hname⟩ := Request.exists_simName hq hm
    rw [Request.select_eq_simTypes hq] at hanswer
    have hrows := Request.rows_simTypes_eq_nil hs hv hname hanswer
    refine ⟨name, hname, hrows, fun hfield => hrows.2 fun x _ => ?_⟩
    have honly : ∀ f ∈ Field.all, f.name = Field.simName.name → f = .simName := by decide
    obtain ⟨hmem, hvalue⟩ := Request.mem_supplied.1 hf
    obtain rfl : f = .simName := honly f hmem ((congrArg Column.name hcolumn).trans hfield)
    obtain rfl : value = name := Option.some.inj (hvalue.symm.trans hname)
    exact hmatches x

/-- launches of a project that there is not -/
def sampleElsewhere : Request := { Request.everything with filters := .ofPairs [("sim_project", some "nowhere")] }

theorem run_unmatched_sample :
    ∃ o, (sampleElsewhere.run Attached.answer (.ofDatabase (.stored Database.sampleStore))).1 = .ok o ∧
      o.unmatched = [⟨"sim_project", "pid", "nowhere"⟩] ∧ o.result.rows = [[.integer 0]] := by
  have hcompile : sampleElsewhere.compile =
      .ok ⟨sampleElsewhere.lookups, .messageCount, sampleElsewhere.select
        [.isNamed ⟨.session .simProject, .simProject, "nowhere"⟩] none none⟩ := by decide
  have hrun : (sampleElsewhere.run Attached.answer (.ofDatabase (.stored Database.sampleStore))).1 =
      .ok ⟨⟨["message_count"], [[.integer 0]]⟩, 3, [⟨"sim_project", "pid", "nowhere"⟩]⟩ := by decide
  obtain ⟨-, -, -, -, hrows, -⟩ :=
    run_unmatched Database.reachable_sample hcompile hrun (u := ⟨"sim_project", "pid", "nowhere"⟩) (by decide)
  exact ⟨_, hrun, rfl, hrows (by decide)⟩

/-- the types of a simulation, of a project that there is not -/
def sampleTypesElsewhere : Request where
  query := .simType
  filters := .ofPairs [("sim_name", some "gas"), ("sim_project", some "nowhere")]
  group := none
  order := none
  limit := none

/-- the report has two rows and says that it is empty -/
theorem simTypes_beside_warning :
    ∃ o, (sampleTypesElsewhere.run Attached.answer (.ofDatabase (.stored Database.sampleStore))).1 = .ok o ∧
      (Database.stored Database.sampleStore).Reachable ∧ o.result.rows = [[.text "flash"], [.text "java"]] ∧
      (Envelope.ofOutcome "report" o).warnings.map Notice.message =
        ["no `sim_project` named `nowhere`; the report is empty"] :=
  ⟨⟨⟨["sim_type"], [[.text "flash"], [.text "java"]]⟩, 4, [⟨"sim_project", "pid", "nowhere"⟩]⟩, by decide,
    Database.reachable_sample, rfl, by decide⟩

end LaunchReports
