/-
The parameters of a plan, and the placeholders that they fill.

`Request.operands` are the comparisons with a value that the filters of a request ask for, in catalog order;
`Request.rowLimit?` is how many rows it wants of an ordered report.

- `compile_placeholders`: every statement of a plan has as many placeholders as parameters. Those of a tally are the
  operands, each behind its column and operator, and the limit at the end; the statement of the simulation types has none.

`Request.operands_tally` finds the operands of the filters among the conditions, `Request.tally_placeholders` the
placeholders in the text.
-/
import LaunchReports.Proofs.Report.Compilation
import LaunchReports.Proofs.Sql.Placeholders

namespace LaunchReports

open Placeholder

/-! ## Operands of filters -/

/-- the comparison that a value of the field stands for -/
def Field.comparison? (f : Field) (value : String) : Option Comparison :=
  match f.grammar with
  | .numeric => (Comparison.parseNumeric value.toList).toOption
  | .text => some (Comparison.parseText value.toList)
  | .lookup _ | .simType => none

/-- what the column of the field is compared with -/
def Field.operand? (f : Field) (value : String) : Option Operand :=
  (f.comparison? value).bind fun c => (Condition.compares f.column c).operand?

theorem Field.operand?_criterion {f : Field} {value : String} {c : Criterion} (h : f.criterion value = .ok c) :
    c.condition.operand? = f.operand? value := by
  unfold operand? comparison?
  rcases Request.criterion_cases h with ⟨hg, comparison, hread, rfl⟩ | ⟨hg, rfl⟩ | ⟨target, hg, rfl⟩ | ⟨hg, t, -, rfl⟩
  · rw [hg, hread]
    rfl
  · rw [hg]
    rfl
  · rw [hg]
    rfl
  · rw [hg]
    rfl

namespace Request

/-- the comparisons with a value that the filters ask for, in catalog order -/
def operands (r : Request) : List Operand := r.supplied.filterMap fun filter => filter.1.operand? filter.2

/-- how many rows of an ordered report are wanted -/
def rowLimit? (r : Request) : Option UInt64 := r.order?.bind fun _ => r.limit?

variable {r : Request} {cs : List Criterion} {dimension : Option Dimension} {arrangement : Option Arrangement}

/-- the operands stand among the conditions in the order of the filters -/
theorem operands_tally (hd : r.dimension = .ok dimension) (hc : r.criteria = .ok cs) (m : Measure) (name : String)
    (arrangement : Option Arrangement) : (tally m name cs dimension arrangement).operands = r.operands := by
  have himmediate : (Criterion.immediate cs).filterMap (fun c => c.condition.operand?) = r.operands := by
    rw [operands, ← filterMap_criteria hc Field.operand?_criterion, Criterion.immediate, List.filterMap_filter]
    refine List.filterMap_congr fun c _ => ?_
    cases c with
    | isNamed b => rfl
    | compares | isOfType => rfl
  -- neither names nor links are compared with a value
  rw [Select.operands, (tally_eq m name cs arrangement (dimension_sound hd)).1]
  simp only [List.filterMap_append, List.filterMap_map, Function.comp_def, himmediate]
  simp [Binding.condition, NameLink.condition, Condition.names, Condition.belongs, Condition.operand?]

/-! ## Limits -/

theorem toInt_ofNat_min (n : UInt64) :
    (Int64.ofNat (min n.toNat (Int64.maxValue.toInt.toNat))).toInt = min (n.toNat : Int) Int64.maxValue.toInt := by
  have htop : Int64.maxValue.toInt = 9223372036854775807 := rfl
  rw [htop, Int64.toInt_ofNat_of_lt (by omega)]
  omega

/-- the limit of an order is the one that is supplied, as far as it fits -/
theorem limit_arrangement (ha : r.arrangement = .ok arrangement) :
    (arrangement.bind Arrangement.limit).map Int64.toInt = r.rowLimit?.map fun n => min (n.toNat : Int) Int64.maxValue.toInt := by
  unfold Request.arrangement at ha
  unfold rowLimit?
  split at ha
  next hnone =>
    cases ha
    rw [hnone]
    rfl
  next raw hraw =>
    split at ha <;> cases ha
    rw [hraw, Option.bind_some, Option.bind_some, Option.map_map]
    exact congrArg (Option.map · r.limit?) (funext toInt_ofNat_min)

theorem isSome_rowLimit? : r.rowLimit?.isSome ↔ r.order?.isSome ∧ r.limit?.isSome := by
  unfold rowLimit?
  cases r.order? <;> simp

theorem rowLimit?_pos {n : UInt64} (h : n ∈ r.rowLimit?) : 1 ≤ n.toNat := by
  obtain ⟨order, -, hlimit⟩ := Option.bind_eq_some_iff.1 h
  have hne : n ≠ 0 := by simpa using (Option.filter_eq_some_iff.1 hlimit).2
  have hnat : n.toNat ≠ 0 := fun hzero => hne (UInt64.toNat_inj.1 hzero)
  omega

/-! ## Aggregates -/

theorem asks_grouping (hd : r.dimension = .ok dimension) :
    (∀ l ∈ (dimension.map Dimension.labels).getD [], Asks l.sql.toList []) ∧
      ∀ k ∈ (dimension.map Dimension.keys).getD [], Asks k.sql.toList [] := by
  have hliterals : ∀ w ∈ Dimension.literals, Inert w := by decide
  obtain ⟨hlabels, hkeys⟩ := forall_words (fun _ => Inert.of_isPlain) hliterals hd
  exact ⟨fun l hl => Label.asks_sql (hlabels l hl), fun k hk => GroupKey.asks_sql (hkeys k hk)⟩

/-- a tally asks for its operands -/
theorem asks_tally (hd : r.dimension = .ok dimension) (hc : r.criteria = .ok cs) (m : Measure)
    (arrangement : Option Arrangement) :
    Asks (tally m r.query.key cs dimension arrangement).unordered.toList (r.operands.map Operand.mark) := by
  obtain ⟨hlabels, hkeys⟩ := asks_grouping hd
  rw [← operands_tally hd hc m r.query.key arrangement]
  refine Select.asks_unordered hlabels ?_ hkeys
  intro p hp
  have hkey : Inert r.query.key.toList := by cases r.query <;> decide
  cases hp
  exact m.asks_named hkey

theorem asks_simTypes : Asks simTypes.unordered.toList [] := by
  refine Select.asks_unordered ?_ (by simp [simTypes]) (by simp [simTypes])
  intro l hl
  cases List.mem_singleton.1 hl
  exact Label.asks_sql (by decide)

/-- no column of an order is a placeholder -/
theorem not_mem_clause (ha : r.arrangement = .ok arrangement) : ∀ a ∈ arrangement, '?' ∉ a.order.clause.toList := by
  intro a hmem hc
  obtain ⟨raw, -, hread⟩ := arrangement_ok ha a hmem
  rcases Order.mem_clause hread hc with h | h | h <;> revert h <;> decide

/-- **The placeholders of a tally**: those of its operands, and that of its limit. -/
theorem tally_placeholders (hd : r.dimension = .ok dimension) (ha : r.arrangement = .ok arrangement)
    (hc : r.criteria = .ok cs) (m : Measure) :
    let s := tally m r.query.key cs dimension arrangement
    s.params = r.operands.map Operand.value ++ (arrangement.bind Arrangement.limit).toList.map Value.integer ∧
      Marked s.sql.toList
        (r.operands.map Operand.mark ++ (arrangement.bind Arrangement.limit).toList.map fun _ => " LIMIT ") ∧
      (" LIMIT ?".toList <:+ s.sql.toList ↔ r.order?.isSome ∧ r.limit?.isSome) ∧
      (r.order? = none → ¬ "LIMIT".toList <:+: s.sql.toList) := by
  intro s
  have hoperands : s.operands = r.operands := operands_tally hd hc m r.query.key arrangement
  have hasks : Asks s.unordered.toList (s.operands.map Operand.mark) := by
    rw [hoperands]
    exact asks_tally hd hc m arrangement
  refine ⟨?_, ?_, ?_, fun hnone => ?_⟩
  · rw [s.params_eq, hoperands]
    rfl
  · rw [← hoperands]
    exact Select.marked_sql hasks (not_mem_clause ha)
  · have hsome := congrArg Option.isSome (limit_arrangement ha)
    rw [Option.isSome_map, Option.isSome_map] at hsome
    rw [Select.limit_suffix_iff hasks (not_mem_clause ha), ← isSome_rowLimit?, ← hsome]
    rfl
  · apply Select.no_limit hasks
    show arrangement = none
    rw [Request.arrangement, hnone] at ha
    cases ha
    rfl

end Request

/-! ## Plans -/

/-- the statement has a parameter for each placeholder -/
def Statement.Aligned (s : Statement) : Prop := s.sql.toList.count '?' = s.params.length

theorem Statement.aligned_declare : declare.Aligned := by
  have key : Variable.declareSql.toList.count '?' = 0 := by decide
  exact key

/-- a binding asks for the name -/
theorem Statement.aligned_ofBinding (b : Binding) : (ofBinding b).Aligned := by
  have hsymbol : b.target.symbol.toList.count '?' = 0 :=
    List.count_eq_zero_of_not_mem (ColumnName.not_mem_of_isPlain b.target.isPlain_symbol (by decide))
  have hname : b.target.name.toList.count '?' = 0 := (Table.names b.target).asks_name.marked.count_eq
  show (Variable.bindSql b.target).toList.count '?' = 1
  delta Variable.bindSql
  simp only [String.toList_append, List.count_append, hsymbol, hname]
  decide

/-- the statements of a plan are aligned when its aggregate is -/
theorem Plan.aligned {α : Type} {text : α → Statement} {p : Plan α} (h : (text p.aggregate).Aligned) :
    ∀ s ∈ p.statements text, s.Aligned := by
  intro s hs
  obtain ⟨step, hstep, rfl⟩ := List.mem_map.1 hs
  rcases List.mem_append.1 hstep with hstep | hstep
  · unfold preparatory at hstep
    split at hstep
    · cases hstep
    · rcases List.mem_cons.1 hstep with rfl | hstep
      · exact Statement.aligned_declare
      · obtain ⟨b, -, rfl⟩ := List.mem_map.1 hstep
        exact Statement.aligned_ofBinding b
  · cases List.mem_singleton.1 hstep
    exact h

/-- **Placeholders and parameters line up.** -/
theorem compile_placeholders {r : Request} {plan : Plan Aggregate} (h : r.compile = .ok plan) :
    let s := plan.aggregate.select
    (∀ statement ∈ plan.statements Aggregate.statement, statement.sql.toList.count '?' = statement.params.length) ∧
      (r.query = .simType → '?' ∉ s.sql.toList ∧ s.params = []) ∧
      (r.query ≠ .simType → ∃ limit : Option Int64,
        limit.map Int64.toInt = r.rowLimit?.map (fun n => min (n.toNat : Int) Int64.maxValue.toInt) ∧
          (∀ n ∈ limit, 1 ≤ n.toInt) ∧
          s.params = r.operands.map Operand.value ++ limit.toList.map Value.integer ∧
          Marked s.sql.toList (r.operands.map Operand.mark ++ limit.toList.map fun _ => " LIMIT ") ∧
          (" LIMIT ?".toList <:+ s.sql.toList ↔ r.order?.isSome ∧ r.limit?.isSome)) ∧
      (r.query = .simType ∨ r.order? = none → ¬ "LIMIT".toList <:+: s.sql.toList) := by
  obtain ⟨dimension, arrangement, cs, -, hd, ha, -, hc, rfl⟩ := Request.compile_ok_iff.1 h
  dsimp only
  by_cases hq : r.query = .simType
  · have hmarked : Marked Request.simTypes.sql.toList [] := Select.marked_sql Request.asks_simTypes nofun
    have haligned : (Aggregate.statement ⟨r.query, Request.simTypes⟩).Aligned := hmarked.count_eq
    rw [Request.select_eq_simTypes hq]
    refine ⟨Plan.aligned haligned, fun _ => ⟨?_, rfl⟩, fun hne => (hne hq).elim, fun _ => ?_⟩
    · exact List.count_eq_zero.1 hmarked.count_eq
    · exact Select.no_limit Request.asks_simTypes rfl
  · obtain ⟨m, hm⟩ := Query.exists_measure hq
    obtain ⟨hparams, hmarked, hsuffix, hlimit⟩ := Request.tally_placeholders hd ha hc m
    rw [Request.select_eq_tally hm]
    generalize Request.tally m r.query.key cs dimension arrangement = s at *
    have haligned : (Aggregate.statement ⟨r.query, s⟩).Aligned := by
      refine hmarked.count_eq.trans ?_
      show _ = s.params.length
      rw [hparams]
      simp
    refine ⟨Plan.aligned haligned, fun heq => (hq heq).elim, fun _ => ?_, fun h => hlimit (h.resolve_left hq)⟩
    refine ⟨_, Request.limit_arrangement ha, fun n hn => ?_, hparams, hmarked, hsuffix⟩
    -- a limit that is supplied is not zero, and stays so when it is cut
    have hcut := Request.limit_arrangement ha
    rw [hn] at hcut
    obtain ⟨wanted, hwanted, hn⟩ := Option.map_eq_some_iff.1 hcut.symm
    have hpos := Request.rowLimit?_pos hwanted
    have htop : Int64.maxValue.toInt = 9223372036854775807 := rfl
    omega

/-- launches of a simulation past a revision, in English, and more rows than a limit can ask for -/
def sampleOrdered : Request where
  query := .sessionCount
  filters := .ofPairs
    [("sim_locale_language", some "en"), ("sim_name", some "gas"), ("sim_svn_revision", some "greater_than:5"),
      ("sim_dev", some "null")]
  group := none
  order := some "desc:session_count"
  limit := some 18446744073709551615

theorem compile_placeholders_sample :
    ∃ plan, sampleOrdered.compile = .ok plan ∧
      plan.aggregate.select.params = [.integer 5, .text "en", .integer 9223372036854775807] ∧
      Marked plan.aggregate.select.sql.toList
        ["session.sim_svn_revision > ", "session.sim_locale_language = ", " LIMIT "] := by
  have hcompile : sampleOrdered.compile = .ok ⟨sampleOrdered.lookups, .sessionCount, sampleOrdered.select
      [.compares (.session .simDev) .isNull,
        .compares (.session .simSvnRevision) (.binary .greater (.integer 5)),
        .compares (.session .simLocaleLanguage) (.binary .equal (.text "en")),
        .isNamed ⟨.session .simName, .simName, "gas"⟩]
      none (some ⟨⟨⟨none, "session_count"⟩, true⟩, some 9223372036854775807⟩)⟩ := by decide
  have hoperands : sampleOrdered.operands =
      [⟨.session .simSvnRevision, .greater, .integer 5⟩, ⟨.session .simLocaleLanguage, .equal, .text "en"⟩] := by
    decide
  have hlimit : sampleOrdered.rowLimit? = some 18446744073709551615 := by decide
  have hquery : sampleOrdered.query ≠ .simType := by decide
  obtain ⟨limit, hcut, -, hparams, hmarked, -⟩ := (compile_placeholders hcompile).2.2.1 hquery
  obtain ⟨n, rfl, hn⟩ : ∃ n, limit = some n ∧ n.toInt = 9223372036854775807 := by
    rw [hlimit] at hcut
    exact Option.map_eq_some_iff.1 hcut
  obtain rfl : n = 9223372036854775807 := Int64.toInt_inj.1 hn
  rw [hoperands] at hparams hmarked
  exact ⟨_, hcompile, hparams, hmarked⟩

end LaunchReports
