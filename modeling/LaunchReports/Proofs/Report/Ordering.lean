/-
What the order of a request can be, and where it stands in a plan.

- `compile_order`: an order is read from the name of a column, perhaps behind `desc:`, and from no other text, and the
  text can be put together again from what is read. A tally with an order is the tally of the same request without one,
  in which there is no `ORDER`, and behind it the column, the direction and perhaps a limit. The other statements of the
  plan are the same.

`Unordered` says of a text that nothing in it looks like an `ORDER`, and `Unordered.tally` finds this of a whole tally.
-/
import LaunchReports.Proofs.Report.Joins
import LaunchReports.Proofs.Sql.Dereference

namespace LaunchReports

open ColumnName

/-! ## Statements without their order -/

/-- nothing in the text looks like an `ORDER`, whatever stands before it -/
def Unordered (text : List Char) (_ : List Empty) : Prop := Without 'O' 'R' text

instance (text : List Char) (found : List Empty) : Decidable (Unordered text found) :=
  inferInstanceAs (Decidable (Without 'O' 'R' text))

theorem additive_unordered : Additive Unordered := ⟨by decide, Without.append⟩

namespace Unordered

theorem no_order {text : List Char} {found : List Empty} (h : Unordered text found) : ¬ "ORDER".toList <:+: text :=
  fun horder => h.inner (List.IsInfix.trans (by decide) horder)

theorem of_isPlain {name : List Char} (h : isPlain name = true) : Unordered name [] := by
  have hR : 'R' ∉ name := not_mem_of_isPlain h (by decide)
  refine ⟨fun e => hR (List.mem_of_mem_head? e), fun hinfix => hR ?_⟩
  exact hinfix.subset (List.mem_cons_of_mem _ List.mem_cons_self)

theorem column (c : Column) : Unordered c.text.toList [] := by
  have hdot : Unordered ".".toList [] := by decide
  rw [Column.text, String.toList_append, String.toList_append]
  exact ((of_isPlain c.table.isPlain_name).append hdot).append (of_isPlain c.isPlain_name)

theorem reference (t : NameTable) : Unordered (Variable.reference t.symbol).toList [] := by
  have hopening : Unordered Variable.opening [] := by decide
  have hclose : Unordered ['\'', ')'] [] := by decide
  rw [Variable.reference_toList]
  exact hopening.append ((of_isPlain t.isPlain_symbol).append hclose)

theorem condition (c : Condition) : Unordered c.sql.toList [] := by
  have hbehind : ∀ (k : Column) {rest : String}, Unordered rest.toList [] → Unordered (k.text ++ rest).toList [] := by
    intro k rest h
    rw [String.toList_append]
    exact (column k).append h
  have heq : Unordered " = ".toList [] := by decide
  cases c with
  | compares k comparison =>
    cases comparison with
    | isNull => exact hbehind k (by decide)
    | isNotNull => exact hbehind k (by decide)
    | binary op value =>
      have hrest : Unordered (" " ++ (op.symbol ++ " ?")).toList [] := by cases op <;> decide
      simpa only [Condition.sql, Comparison.sql, String.append_assoc] using hbehind k hrest
  | isOfType t => cases t <;> exact hbehind (.session .simType) (by decide)
  | refersTo k target =>
    rw [Condition.sql, String.toList_append, String.toList_append]
    exact ((column k).append heq).append (reference target)
  | equates k l =>
    rw [Condition.sql, String.toList_append, String.toList_append]
    exact ((column k).append heq).append (column l)

theorem measure (m : Measure) {name : String} (h : Unordered name.toList []) : Unordered (m.named name).toList [] := by
  have has : Unordered " AS ".toList [] := by decide
  have hsql : Unordered m.sql.toList [] := by
    cases m with
    | count => decide
    | sum k =>
      have hsum : Unordered "SUM(".toList [] := by decide
      have hclose : Unordered ")".toList [] := by decide
      rw [Measure.sql, String.toList_append, String.toList_append]
      exact (hsum.append (column k)).append hclose
  rw [Measure.named, String.toList_append, String.toList_append]
  exact (hsql.append has).append h

theorem tally {r : Request} {dimension : Option Dimension} (hd : r.dimension = .ok dimension) (m : Measure)
    (cs : List Criterion) (arrangement : Option Arrangement) :
    ¬ "ORDER".toList <:+: (Request.tally m r.query.key cs dimension arrangement).unordered.toList := by
  have hliterals : ∀ w ∈ Dimension.literals, Unordered w [] := by decide
  have hwords : ∀ w ∈ [" || ", "strftime('%G%V', ", ")", "CASE WHEN ", " = 0 THEN 'java' ELSE 'flash' END"],
      Unordered w.toList [] := by decide
  have hclauses : ∀ w ∈ ["SELECT ", "DISTINCT ", ", ", " FROM ", " GROUP BY "], Unordered w.toList [] := by decide
  have hconnectives : ∀ w ∈ [" WHERE ", " WHERE (", " AND ", ")"], Unordered w.toList [] := by decide
  have hname : Unordered r.query.key.toList [] := by cases r.query <;> decide
  obtain ⟨hlabels, hkeys⟩ := Request.forall_words (fun _ => of_isPlain) hliterals hd
  have hwhere := additive_unordered.whereClause hconnectives
    fun c (_ : c ∈ (Request.tally m r.query.key cs dimension arrangement).conditions) => condition c
  refine (additive_unordered.unordered hclauses (fun t => of_isPlain t.isPlain_name) ?_ ?_ hwhere ?_).no_order
  · intro l hl
    exact additive_unordered.label column hwords (by decide) (hlabels l hl)
  · intro p hp
    cases hp
    exact measure m hname
  · intro k hk
    exact additive_unordered.groupKey column hwords (hkeys k hk)

end Unordered

/-! ## Requests with and without an order -/

namespace Request

variable {r : Request} {plan : Plan Aggregate}

/-- a plan that computes a measure, taken apart -/
theorem tally_of_compile (h : r.compile = .ok plan) (hq : r.query ≠ .simType) :
    ∃ m dimension arrangement cs, r.dimension = .ok dimension ∧ r.arrangement = .ok arrangement ∧
      plan = ⟨r.lookups, r.query, tally m r.query.key cs dimension arrangement⟩ := by
  obtain ⟨dimension, arrangement, cs, -, hd, ha, -, -, rfl⟩ := compile_ok_iff.1 h
  obtain ⟨m, hm⟩ := Query.exists_measure hq
  exact ⟨m, dimension, arrangement, cs, hd, ha, by rw [select_eq_tally hm]⟩

/-- the rest of a plan is that of the request without its order -/
theorem compile_withoutOrder (h : r.compile = .ok plan) (hq : r.query ≠ .simType) :
    ∃ bare : Plan Aggregate, { r with order := none }.compile = .ok bare ∧ bare.bindings = plan.bindings ∧
      bare.aggregate.select.sql = plan.aggregate.select.unordered := by
  obtain ⟨dimension, arrangement, cs, hfields, hd, -, hmissing, hc, rfl⟩ := compile_ok_iff.1 h
  have hbare : { r with order := none }.compile = .ok ⟨r.lookups, r.query, r.select cs dimension none⟩ :=
    compile_ok_iff.2 ⟨dimension, none, cs, hfields, hd, rfl, hmissing, hc, rfl⟩
  obtain ⟨m, hm⟩ := Query.exists_measure hq
  refine ⟨_, hbare, rfl, ?_⟩
  rw [select_eq_tally hm, select_eq_tally hm]
  exact String.append_empty ..

theorem sql_of_order_none (h : r.compile = .ok plan) (hq : r.query ≠ .simType) (horder : r.order? = none) :
    plan.aggregate.select.sql = plan.aggregate.select.unordered := by
  obtain ⟨m, dimension, arrangement, cs, -, ha, rfl⟩ := tally_of_compile h hq
  rw [Request.arrangement, horder] at ha
  cases ha
  exact String.append_empty ..

/-- what an order puts behind a statement -/
theorem sql_of_order (h : r.compile = .ok plan) (hq : r.query ≠ .simType) {raw : String}
    (horder : r.order? = some raw) :
    ∃ o, Order.read? raw.toList = some o ∧
      plan.aggregate.select.sql = plan.aggregate.select.unordered ++
        (" ORDER BY " ++ o.column.text ++ (if o.descending then " DESC" else "") ++
          (if r.limit?.isSome then " LIMIT ?" else "")) := by
  obtain ⟨m, dimension, arrangement, cs, -, ha, rfl⟩ := tally_of_compile h hq
  rw [Request.arrangement, horder] at ha
  dsimp only at ha
  split at ha <;> cases ha
  next o hread =>
    refine ⟨o, hread, ?_⟩
    rw [← Option.isSome_map (f := fun n : UInt64 => Int64.ofNat (min n.toNat Int64.maxValue.toInt.toNat))]
    rfl

end Request

/-- **An order is the name of a column, perhaps behind `desc:`, and that name is all of it that comes into a plan.** -/
theorem compile_order (raw : String) :
    ((∃ o, Order.read? raw.toList = some o) ↔ ∃ column, ColumnName.Spells (Order.unmarked raw.toList) column) ∧
      (∀ o, Order.read? raw.toList = some o →
        (o.descending = true ↔ "desc:".toList <+: raw.toList) ∧
          raw = (if o.descending then "desc:" else "") ++ o.column.text ∧
          ∀ other : String, Order.read? other.toList = some o → other = raw) ∧
      ∀ (r : Request) (plan : Plan Aggregate), r.compile = .ok plan → r.query ≠ .simType →
        let s := plan.aggregate.select
        ∃ bare : Plan Aggregate, { r with order := none }.compile = .ok bare ∧ plan.preparatory = bare.preparatory ∧
          bare.aggregate.statement.sql =
            selectText s.outputSql (s.sources.map Table.name) s.conjuncts (s.keys.map GroupKey.sql) ∧
          ¬ "ORDER".toList <:+: bare.aggregate.statement.sql.toList ∧
          (r.order? = none → plan.aggregate.statement.sql = bare.aggregate.statement.sql) ∧
          (r.order? = some raw → ∃ o, Order.read? raw.toList = some o ∧
            plan.aggregate.statement.sql = bare.aggregate.statement.sql ++
              (" ORDER BY " ++ o.column.text ++ (if o.descending then " DESC" else "") ++
                (if r.limit?.isSome then " LIMIT ?" else ""))) := by
  have hput : ∀ (other : String) (o : Order), Order.read? other.toList = some o →
      other = (if o.descending then "desc:" else "") ++ o.column.text := by
    intro other o hread
    obtain ⟨column, hraw, hspells⟩ := Order.read?_eq_some_iff.1 hread
    rw [← String.toList_inj, hraw, String.toList_append, hspells.text_eq, Order.mark]
    cases o.descending <;> rfl
  refine ⟨Order.exists_read?_iff, fun o hread => ⟨Order.descending_iff hread, hput raw o hread, ?_⟩, ?_⟩
  · intro other hother
    rw [hput other o hother, ← hput raw o hread]
  · intro r plan hcompile hquery s
    obtain ⟨bare, hbare, hbindings, hsql⟩ := Request.compile_withoutOrder hcompile hquery
    have hpreparatory : plan.preparatory = bare.preparatory := by rw [Plan.preparatory, Plan.preparatory, hbindings]
    obtain ⟨m, dimension, arrangement, cs, hd, -, hplan⟩ := Request.tally_of_compile hcompile hquery
    have hdistinct : s.distinct = false := by simp only [s, hplan, Request.tally]
    refine ⟨bare, hbare, hpreparatory, hsql.trans (Select.unordered_eq hdistinct), ?_, ?_, ?_⟩
    · show ¬ "ORDER".toList <:+: bare.aggregate.select.sql.toList
      rw [hsql, hplan]
      exact Unordered.tally hd m cs arrangement
    · intro horder
      exact (Request.sql_of_order_none hcompile hquery horder).trans hsql.symm
    · intro horder
      obtain ⟨o, hread, htext⟩ := Request.sql_of_order hcompile hquery horder
      exact ⟨o, hread, htext.trans (congrArg (· ++ _) hsql.symm)⟩

/-- the five latest weeks of a simulation's launches -/
def sampleWeeks : Request where
  query := .messageCount
  filters := .ofPairs [("sim_name", some "gas")]
  group := some "week"
  order := some "desc:week"
  limit := some 5

theorem compile_order_sample :
    ∃ plan bare : Plan Aggregate, sampleWeeks.compile = .ok plan ∧ sampleWeeks.query ≠ .simType ∧
      { sampleWeeks with order := none }.compile = .ok bare ∧
      plan.aggregate.statement.sql = bare.aggregate.statement.sql ++ " ORDER BY week DESC LIMIT ?" := by
  have hcompile : sampleWeeks.compile = .ok ⟨sampleWeeks.lookups, .messageCount, sampleWeeks.select
      [.isNamed ⟨.session .simName, .simName, "gas"⟩] (some .week) (some ⟨⟨⟨none, "week"⟩, true⟩, some 5⟩)⟩ := by
    decide
  have hread : Order.read? "desc:week".toList = some ⟨⟨none, "week"⟩, true⟩ := by decide
  have hquery : sampleWeeks.query ≠ .simType := by decide
  obtain ⟨bare, hbare, -, -, -, -, hsql⟩ := (compile_order "desc:week").2.2 sampleWeeks _ hcompile hquery
  obtain ⟨o, ho, htext⟩ := hsql (by decide)
  obtain rfl := Option.some.inj (ho.symm.trans hread)
  exact ⟨_, bare, hcompile, hquery, hbare, htext⟩

end LaunchReports
