/-
The order of the statements of a plan, and the life of its variables.

- `compile_variable_lifetime`: an accepted request becomes a plan that declares the bindings once, if it looks anything
  up, then sets one variable a lookup, in catalog order and none twice, and ends with the aggregate. Whatever the text
  of the aggregate dereferences has been set by an earlier statement of the plan, a tally dereferences every variable
  that was set exactly once, and no request is refused for a variable.

`lookedUp` reads off the catalog and the filters what is looked up. `reads_select` says which variables the text of an
aggregate reads, `bindingPosition?_of_mem` where they are set.
-/
import LaunchReports.Proofs.Report.Compilation
import LaunchReports.Proofs.Sql.Dereference

namespace LaunchReports

open Variable

/-! ## What aggregates read -/

/-- neither the labels nor the keys of a report read a variable -/
theorem Request.reads_grouping {r : Request} {dimension : Option Dimension} (h : r.dimension = .ok dimension) :
    (∀ l ∈ (dimension.map Dimension.labels).getD [], Reads l.sql.toList []) ∧
      ∀ k ∈ (dimension.map Dimension.keys).getD [], Reads k.sql.toList [] := by
  have hliterals : ∀ w ∈ Dimension.literals, quiet w = true := by decide
  obtain ⟨hlabels, hkeys⟩ := forall_words (fun _ => quiet_of_isPlain) hliterals h
  exact ⟨fun l hl => Label.reads_sql (hlabels l hl), fun k hk => GroupKey.reads_sql (hkeys k hk)⟩

/-- the symbols of the variables that the aggregate of a request reads -/
def Request.symbolsRead (r : Request) : List String :=
  match r.query with
  | .simType => [NameTable.simName.symbol]
  | _ => r.lookups.map Binding.symbol

theorem Request.reads_select {r : Request} {cs : List Criterion} {dimension : Option Dimension}
    {arrangement : Option Arrangement} (hd : r.dimension = .ok dimension) (ha : r.arrangement = .ok arrangement)
    (hc : r.criteria = .ok cs) : Reads (r.select cs dimension arrangement).sql.toList r.symbolsRead := by
  have htally : ∀ m, r.query.measure? = some m →
      Reads (tally m r.query.key cs dimension arrangement).sql.toList (r.lookups.map Binding.symbol) := by
    intro m hm
    rw [← bindings_criteria hc, ← symbols_tally m r.query.key cs arrangement (dimension_sound hd)]
    obtain ⟨hlabels, hkeys⟩ := reads_grouping hd
    refine Select.reads_sql _ hlabels ?_ hkeys ?_
    · intro p hp
      have hkey : quiet r.query.key.toList = true := by cases r.query <;> decide
      cases hp
      exact m.reads_named hkey
    · intro a hm
      obtain ⟨raw, -, ho⟩ := arrangement_ok ha a hm
      exact Order.reads_clause ho
  unfold symbolsRead select
  cases hq : r.query with
  | messageCount => simpa [hq, Query.measure?] using htally .count (by rw [hq]; rfl)
  | sessionCount => simpa [hq, Query.measure?] using htally (.sum (.session .simSessionsSince)) (by rw [hq]; rfl)
  | simType =>
    refine simTypes.reads_sql ?_ (by simp [simTypes]) (by simp [simTypes]) (by simp [simTypes])
    intro l hl
    cases List.mem_singleton.1 hl
    exact Label.reads_sql (by decide)

/-! ## Where variables are set -/

/-- the lookup fields that have a filter with a text, in catalog order, each with its table and this text -/
def Request.lookedUp (r : Request) : List Binding :=
  Field.all.filterMap fun f =>
    match f.grammar, (r.filters.get? f.name).join with
    | .lookup target, some name => if name = "" then none else some ⟨f.column, target, name⟩
    | _, _ => none

theorem Request.lookups_eq (r : Request) : r.lookups = r.lookedUp := by
  rw [lookups, supplied, lookedUp, List.filterMap_filterMap]
  congr 1
  funext f
  cases hv : (r.filters.get? f.name).join with
  | none => cases hg : f.grammar <;> simp [value?, hv]
  | some name =>
    by_cases hname : name = ""
    · cases hg : f.grammar <;> simp [value?, hv, hname]
    · cases hg : f.grammar <;> simp [value?, hv, hname, Binding.ofField?, hg, Grammar.target?, Option.filter]

theorem declareSql_eq :
    declareSql =
      "CREATE TEMP TABLE IF NOT EXISTS report_bindings (symbol TEXT PRIMARY KEY NOT NULL, value INTEGER)" := by
  decide

theorem bindSql_eq (t : NameTable) :
    bindSql t =
      "INSERT OR REPLACE INTO temp.report_bindings (symbol, value) VALUES ('" ++ t.symbol ++ "', (SELECT " ++ t.name ++
        ".id FROM " ++ t.name ++ " WHERE " ++ t.name ++ ".name = ?)) RETURNING value" := by
  have hfront : "INSERT OR REPLACE INTO temp." ++ bindingsTable ++ " (symbol, value) VALUES ('" =
      "INSERT OR REPLACE INTO temp.report_bindings (symbol, value) VALUES ('" := by decide
  exact congrArg (fun front => front ++ t.symbol ++ "', (SELECT " ++ t.name ++ ".id FROM " ++ t.name ++ " WHERE " ++
    t.name ++ ".name = ?)) RETURNING value") hfront

/-- a variable that a plan binds is set after the declaration and before the aggregate -/
theorem Plan.bindingPosition?_of_mem {α : Type} {p : Plan α} {b : Binding} (hb : b ∈ p.bindings) :
    ∃ i, p.bindingPosition? b.symbol = some i ∧ 1 ≤ i ∧ i < p.size - 1 := by
  have hplace : (p.bindingPosition? b.symbol).isSome := isSome_bindingPosition?.2 ⟨b, hb, rfl⟩
  obtain ⟨i, hi⟩ := Option.isSome_iff_exists.1 hplace
  exact ⟨i, hi, bindingPosition?_bounds hi⟩

theorem Request.targets_sublist (r : Request) : (r.lookups.map Binding.target).Sublist Field.nameTables := by
  unfold lookups supplied Field.nameTables
  induction Field.all with
  | nil => exact List.Sublist.slnil
  | cons f fs ih =>
    cases hv : r.value? f.name with
    | none =>
      cases ht : f.grammar.target? with
      | none => simpa [hv, ht] using ih
      | some t => simpa [hv, ht] using ih.cons t
    | some value =>
      cases ht : f.grammar.target? with
      | none => simpa [hv, ht, Binding.ofField?] using ih
      | some t => simpa [hv, ht, Binding.ofField?] using ih.cons_cons t

/-- no two lookups of a request set the same variable -/
theorem Request.symbols_nodup (r : Request) : (r.lookups.map Binding.symbol).Nodup := by
  have htargets : (r.lookups.map Binding.target).Nodup := r.targets_sublist.nodup Field.nameTables_nodup
  have hsymbols := htargets.map fun _ _ => NameTable.symbol_injective
  rwa [List.map_map] at hsymbols

/-- whatever an aggregate reads is bound by a lookup of the request -/
theorem Request.exists_lookup_of_symbolsRead {r : Request} (hm : r.missingFilter? = none) {symbol : String}
    (hs : symbol ∈ r.symbolsRead) : ∃ b ∈ r.lookups, b.symbol = symbol := by
  unfold symbolsRead at hs
  split at hs
  next hq =>
    obtain ⟨b, hb, ht⟩ := simName_mem_lookups hq hm
    exact ⟨b, hb, by rw [Binding.symbol, ht, List.mem_singleton.1 hs]⟩
  next => exact List.mem_map.1 hs

/-! ## Plans -/

/-- **Every variable is set before it is read.** -/
theorem compile_variable_lifetime (r : Request) :
    match r.compile with
    | .error e => ∀ symbol, e ≠ .unboundVariable symbol
    | .ok plan =>
      plan.statements Aggregate.statement =
        (if r.lookedUp = [] then [] else
          ⟨.declareBindings,
              "CREATE TEMP TABLE IF NOT EXISTS report_bindings (symbol TEXT PRIMARY KEY NOT NULL, value INTEGER)", []⟩ ::
            r.lookedUp.map fun b =>
              ⟨.bindLookup b.column.name b.target.symbol,
                "INSERT OR REPLACE INTO temp.report_bindings (symbol, value) VALUES ('" ++ b.target.symbol ++
                  "', (SELECT " ++ b.target.name ++ ".id FROM " ++ b.target.name ++ " WHERE " ++ b.target.name ++
                  ".name = ?)) RETURNING value", [.text b.name]⟩) ++
          [⟨.aggregate r.query.key, plan.aggregate.select.sql, plan.aggregate.select.params⟩] ∧
      (r.lookedUp.map Binding.symbol).Nodup ∧
      (∀ symbol ∈ dereferenced plan.aggregate.select.sql.toList,
        ∃ i, plan.bindingPosition? symbol = some i ∧ 1 ≤ i ∧ i < plan.size - 1) ∧
      (r.query ≠ .simType →
        ∀ b ∈ r.lookedUp, (dereferenced plan.aggregate.select.sql.toList).count b.symbol = 1) := by
  cases h : r.compile with
  | error e =>
    intro symbol he
    have := Request.isRejection_compile h
    rw [he] at this
    cases this
  | ok plan =>
    obtain ⟨dimension, arrangement, cs, -, hd, ha, hm, hc, rfl⟩ := Request.compile_ok_iff.1 h
    have hreads := (Request.reads_select hd ha hc).eq
    rw [← r.lookups_eq]
    refine ⟨?_, r.symbols_nodup, ?_, ?_⟩
    · simp only [Plan.statements, Plan.steps, Plan.preparatory, List.map_append]
      congr 1
      cases r.lookups with
      | nil => rfl
      | cons b bs =>
        simp [Step.statement, Statement.declare, Statement.ofBinding, Function.comp_def, Binding.symbol, declareSql_eq,
          bindSql_eq]
    · intro symbol hs
      simp only [hreads] at hs
      obtain ⟨b, hb, rfl⟩ := Request.exists_lookup_of_symbolsRead hm hs
      exact Plan.bindingPosition?_of_mem hb
    · intro hq b hb
      have hread : r.symbolsRead = r.lookups.map Binding.symbol := by
        unfold Request.symbolsRead
        split
        · contradiction
        · rfl
      simp only [hreads, hread]
      exact List.count_eq_one_of_mem r.symbols_nodup (List.mem_map_of_mem hb)

end LaunchReports
