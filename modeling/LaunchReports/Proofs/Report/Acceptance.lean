/-
Which requests are accepted, and what is reported of the others.

`Request.Fault` says what can be wrong with a request, by the check that looks for it. The checks are made in the order
of their numbers: names of filters, group, order, the filter that a query needs, values.

- `compile_first_fault`: a request is refused exactly for the fault of the first check that finds one, and accepted
  when none does. So nothing else is ever reported of a request, and the group of an accepted one can be grouped by.
- `Field.criterion_eq_error_iff`: a field refuses exactly the values that it does not take, and reports them whole.
-/
import LaunchReports.Proofs.Report.Compilation
import LaunchReports.Proofs.Sql.Comparison
import LaunchReports.Proofs.Text.Precedence

namespace LaunchReports

/-! ## Values -/

namespace Field

/-- numeric fields take the tests for `NULL` and finite numbers, after an operator word or without one -/
def Takes (f : Field) (value : String) : Prop :=
  match f.grammar with
  | .numeric =>
    value = "null" ∨ value = "not_null" ∨ (Comparison.number? (Comparison.splitOperator value.toList).2).isSome
  | .simType => value = "java" ∨ value = "flash"
  | .text | .lookup _ => True

/-- why the field refuses the value -/
def complaint (f : Field) (value : String) : String :=
  match f.grammar with
  | .simType => "expected `java` or `flash`"
  | _ => "expected a numeric literal, got `" ++ String.ofList (Comparison.splitOperator value.toList).2 ++ "`"

end Field

theorem SimType.ofName?_eq_none_iff {name : String} : ofName? name = none ↔ name ≠ "java" ∧ name ≠ "flash" := by
  rw [ofName?, List.find?_eq_none]
  simp [all, SimType.name, eq_comm (b := name)]

namespace Field

/-- a field takes a value or reports it, whole, with a complaint -/
theorem criterion_eq_error_iff {f : Field} {value : String} {e : ReportError} :
    f.criterion value = .error e ↔ ¬ f.Takes value ∧ e = .badFilterValue f.name value (f.complaint value) := by
  unfold criterion Takes complaint
  cases f.grammar with
  | text => simp
  | lookup target => simp
  | numeric =>
    dsimp only
    rw [not_or, not_or, ← and_assoc, ← Comparison.nullTest?_eq_none_iff, Option.not_isSome_iff_eq_none]
    cases hp : Comparison.parseNumeric value.toList with
    | ok c =>
      have hno : ∀ e, Comparison.parseNumeric value.toList ≠ .error e := fun e => by rw [hp]; nofun
      simpa using fun hnull hnumber => (hno _ (Comparison.parseNumeric_eq_error_iff.2 ⟨hnull, hnumber, rfl⟩)).elim
    | error d =>
      obtain ⟨hnull, hnumber, rfl⟩ := Comparison.parseNumeric_eq_error_iff.1 hp
      simp only [hnull, hnumber, true_and, Except.error.injEq, eq_comm]
      rfl
  | simType =>
    dsimp only
    rw [not_or]
    cases ht : SimType.ofName? value with
    | none => simp [SimType.ofName?_eq_none_iff.1 ht, eq_comm]
    | some t =>
      have hno := SimType.ofName?_eq_none_iff.not.1 (by simp [ht] : SimType.ofName? value ≠ none)
      simpa using fun hjava hflash => (hno ⟨hjava, hflash⟩).elim

theorem exists_criterion_iff {f : Field} {value : String} : (∃ c, f.criterion value = .ok c) ↔ f.Takes value := by
  cases h : f.criterion value with
  | ok c =>
    have hno : f.criterion value ≠ .error (.badFilterValue f.name value (f.complaint value)) := by rw [h]; nofun
    rw [Ne, criterion_eq_error_iff] at hno
    simpa using hno
  | error e => simp [(criterion_eq_error_iff.1 h).1]

end Field

/-! ## Faults -/

namespace Request

/-- what is wrong with a request, with the number of the check that looks for it -/
inductive Fault (r : Request) : Nat → ReportError → Prop where
  /-- of the names that are no field the first in the order of bytes is reported, whatever its value -/
  | unknownField {name : String} (given : name ∈ r.filters.keys) (unknown : name ∉ Field.all.map Field.name)
      (first : ∀ other ∈ r.filters.keys, other ∉ Field.all.map Field.name → other = name ∨ utf8 name < utf8 other) :
      Fault r 1 (.badFilterField name)
  | unknownGroup {name : String} (given : r.group? = some name) (noDimension : name ∉ Dimension.all.map Dimension.name)
      (noField : name ∉ Field.all.map Field.name) : Fault r 2 (.badFilterField name)
  | unreadableOrder {raw : String} (given : r.order? = some raw) (unreadable : Order.read? raw.toList = none) :
      Fault r 3 (.badOrderField raw)
  | unnamedSimulation (asked : r.query = .simType) (unnamed : r.value? "sim_name" = none) :
      Fault r 4 (.missingRequiredFilter "sim_type" "sim_name")
  /-- of the values that their fields refuse the first in catalog order is reported -/
  | refusedValue {before after : List (Field × String)} {f : Field} {value : String}
      (given : r.supplied = before ++ (f, value) :: after) (taken : ∀ filter ∈ before, filter.1.Takes filter.2)
      (refused : ¬ f.Takes value) : Fault r 5 (.badFilterValue f.name value (f.complaint value))

variable {r : Request} {e : ReportError}

/-! ## One check at a time -/

theorem isNone_named?_iff {name : String} : (Field.named? name).isNone ↔ name ∉ Field.all.map Field.name := by
  simp [Field.named?]

/-- the name that is reported comes before all others that are no field -/
theorem fault_fields_iff : Fault r 1 e ↔ ∃ name, r.unknownField? = some name ∧ e = .badFilterField name := by
  have hsorted : r.filters.keys.Pairwise fun a b => precedes a b = true := List.pairwise_map.2 r.filters.sorted
  constructor
  · intro h
    cases h with
    | @unknownField name given unknown first =>
      refine ⟨name, ?_, rfl⟩
      obtain ⟨before, after, hkeys⟩ := List.append_of_mem given
      refine List.find?_eq_some_iff_append.2 ⟨isNone_named?_iff.2 unknown, before, after, hkeys, fun other ho => ?_⟩
      rw [Bool.not_eq_true', ← Bool.not_eq_true, isNone_named?_iff, not_not]
      by_contra hunknown
      -- in the order of the keys it would stand before the one that comes first
      rw [hkeys] at hsorted
      have hbefore : precedes other name = true := (List.pairwise_append.1 hsorted).2.2 _ ho _ List.mem_cons_self
      rcases first other (hkeys ▸ List.mem_append_left _ ho) hunknown with rfl | hafter
      · rw [precedes_irrefl] at hbefore; cases hbefore
      · have := precedes_trans hbefore (precedes_iff.2 hafter)
        rw [precedes_irrefl] at this; cases this
  · rintro ⟨name, hname, rfl⟩
    obtain ⟨hunknown, before, after, hkeys, hbefore⟩ := List.find?_eq_some_iff_append.1 hname
    refine .unknownField (List.mem_of_find?_eq_some hname) (isNone_named?_iff.1 hunknown) fun other ho hother => ?_
    rw [hkeys] at ho hsorted
    rcases List.mem_append.1 ho with ho | ho
    · have := hbefore other ho
      rw [isNone_named?_iff.2 hother] at this; cases this
    · rcases List.mem_cons.1 ho with rfl | ho
      · exact .inl rfl
      · exact .inr (precedes_iff.1 ((List.pairwise_cons.1 (List.pairwise_append.1 hsorted).2.1).1 other ho))

/-- a report groups by the dimensions and the fields -/
theorem grouping?_eq_none_iff {name : String} :
    Dimension.grouping? name = none ↔ name ∉ Dimension.all.map Dimension.name ∧ name ∉ Field.all.map Field.name := by
  rw [← isNone_named?_iff, Option.isNone_iff_eq_none]
  unfold Dimension.grouping?
  cases hn : Dimension.named? name with
  | some d =>
    have := List.mem_map_of_mem (f := Dimension.name) (List.mem_of_find?_eq_some hn)
    rw [show d.name = name by simpa using List.find?_some hn] at this
    simp [this]
  | none =>
    have : name ∉ Dimension.all.map Dimension.name := by simpa [Dimension.named?] using hn
    simp [this]

theorem fault_group_iff : Fault r 2 e ↔ r.dimension = .error e := by
  unfold dimension
  constructor
  · intro h
    cases h with
    | unknownGroup given noDimension noField =>
      rw [given]
      dsimp only
      rw [grouping?_eq_none_iff.2 ⟨noDimension, noField⟩]
  · intro h
    split at h
    · cases h
    next name hname =>
      split at h <;> cases h
      next hnone =>
        obtain ⟨hdimension, hfield⟩ := grouping?_eq_none_iff.1 hnone
        exact .unknownGroup hname hdimension hfield

theorem fault_order_iff : Fault r 3 e ↔ r.arrangement = .error e := by
  unfold arrangement
  constructor
  · intro h
    cases h with
    | unreadableOrder given unreadable =>
      rw [given]
      dsimp only
      rw [unreadable]
  · intro h
    split at h
    · cases h
    next raw hraw =>
      split at h <;> cases h
      next hnone => exact .unreadableOrder hraw hnone

theorem fault_simulation_iff :
    Fault r 4 e ↔ ∃ f, r.missingFilter? = some f ∧ e = .missingRequiredFilter r.query.key f.name := by
  unfold missingFilter?
  constructor
  · intro h
    cases h with
    | unnamedSimulation asked unnamed =>
      rw [if_pos ⟨asked, Option.isNone_iff_eq_none.2 unnamed⟩, asked]
      exact ⟨_, rfl, rfl⟩
  · rintro ⟨f, hf, rfl⟩
    split at hf
    next h =>
      cases hf
      rw [h.1]
      exact .unnamedSimulation h.1 (Option.isNone_iff_eq_none.1 h.2)
    · cases hf

theorem fault_values_iff : Fault r 5 e ↔ r.criteria = .error e := by
  rw [show r.criteria = r.supplied.mapM fun p => p.1.criterion p.2 from rfl, mapM_eq_error_iff]
  simp only [Field.exists_criterion_iff, Field.criterion_eq_error_iff]
  constructor
  · intro h
    cases h with
    | refusedValue given taken refused => exact ⟨_, _, _, given, taken, refused, rfl⟩
  · rintro ⟨before, ⟨f, value⟩, after, hgiven, htaken, hrefused, rfl⟩
    exact .refusedValue hgiven htaken hrefused

/-! ## All checks -/

/-- the checks before this one find nothing -/
def Passes (r : Request) (check : Nat) : Prop := ∀ earlier < check, ∀ e, ¬ Fault r earlier e

theorem passes_one (r : Request) : r.Passes 1 := by
  intro earlier hlt e h
  obtain rfl : earlier = 0 := by omega
  cases h

theorem Passes.next {check : Nat} (h : r.Passes check) (hnone : ∀ e, ¬ Fault r check e) : r.Passes (check + 1) := by
  intro earlier hlt
  rcases Nat.lt_succ_iff_lt_or_eq.1 hlt with hlt | rfl
  · exact h earlier hlt
  · exact hnone

/-- a check finds one fault at most -/
theorem Fault.unique {check : Nat} {d : ReportError} (h : Fault r check e) (k : Fault r check d) : e = d := by
  match check with
  | 0 => cases h
  | 1 =>
    obtain ⟨name, hname, rfl⟩ := fault_fields_iff.1 h
    obtain ⟨other, hother, rfl⟩ := fault_fields_iff.1 k
    rw [Option.some.inj (hname.symm.trans hother)]
  | 2 => exact Except.error.inj ((fault_group_iff.1 h).symm.trans (fault_group_iff.1 k))
  | 3 => exact Except.error.inj ((fault_order_iff.1 h).symm.trans (fault_order_iff.1 k))
  | 4 =>
    obtain ⟨f, hf, rfl⟩ := fault_simulation_iff.1 h
    obtain ⟨g, hg, rfl⟩ := fault_simulation_iff.1 k
    rw [Option.some.inj (hf.symm.trans hg)]
  | 5 => exact Except.error.inj ((fault_values_iff.1 h).symm.trans (fault_values_iff.1 k))
  | n + 6 => cases h

/-- the first fault is what compiling reports; without one there is a plan -/
theorem compile_cases (r : Request) :
    (∃ check e, Fault r check e ∧ r.Passes check ∧ r.compile = .error e) ∨
      (∃ plan, r.compile = .ok plan) ∧ ∀ check e, ¬ Fault r check e := by
  rw [compile_eq]
  cases hu : r.unknownField? with
  | some name => exact .inl ⟨1, _, fault_fields_iff.2 ⟨name, hu, rfl⟩, r.passes_one, rfl⟩
  | none =>
    have hfields := r.passes_one.next fun e h => by obtain ⟨_, hn, -⟩ := fault_fields_iff.1 h; rw [hu] at hn; cases hn
    cases hd : r.dimension with
    | error e => exact .inl ⟨2, e, fault_group_iff.2 hd, hfields, rfl⟩
    | ok dimension =>
      have hgroup := hfields.next fun e h => by rw [fault_group_iff, hd] at h; cases h
      cases ha : r.arrangement with
      | error e => exact .inl ⟨3, e, fault_order_iff.2 ha, hgroup, rfl⟩
      | ok arrangement =>
        have horder := hgroup.next fun e h => by rw [fault_order_iff, ha] at h; cases h
        cases hm : r.missingFilter? with
        | some f => exact .inl ⟨4, _, fault_simulation_iff.2 ⟨f, hm, rfl⟩, horder, rfl⟩
        | none =>
          have hsimulation := horder.next fun e h => by
            obtain ⟨_, hf, -⟩ := fault_simulation_iff.1 h; rw [hm] at hf; cases hf
          cases hc : r.criteria with
          | error e => exact .inl ⟨5, e, fault_values_iff.2 hc, hsimulation, rfl⟩
          | ok cs =>
            have hvalues := hsimulation.next fun e h => by rw [fault_values_iff, hc] at h; cases h
            refine .inr ⟨⟨_, rfl⟩, fun check e h => ?_⟩
            -- there are no more than five checks
            by_cases hlt : check < 6
            · exact hvalues check hlt e h
            · cases h <;> omega

end Request

/-- **A request is refused for its first fault, and accepted without one.** -/
theorem compile_first_fault (r : Request) :
    (∀ e, r.compile = .error e ↔ ∃ check, r.Fault check e ∧ ∀ earlier < check, ∀ d, ¬ r.Fault earlier d) ∧
      ((∃ plan, r.compile = .ok plan) ↔ ∀ check e, ¬ r.Fault check e) ∧
      ∀ plan name, r.compile = .ok plan → r.group? = some name → ∃ d, Dimension.grouping? name = some d := by
  rcases r.compile_cases with ⟨check, e, hfault, hpasses, hcompile⟩ | ⟨⟨plan, hcompile⟩, hnone⟩
  · rw [hcompile]
    refine ⟨fun d => ⟨fun h => ?_, ?_⟩, ?_, fun _ _ h => by cases h⟩
    · cases h
      exact ⟨check, hfault, hpasses⟩
    · rintro ⟨other, hother, hfirst⟩
      rcases Nat.lt_trichotomy check other with hlt | rfl | hlt
      · exact (hfirst check hlt e hfault).elim
      · rw [hfault.unique hother]
      · exact (hpasses other hlt d hother).elim
    · simpa using ⟨check, e, hfault⟩
  · refine ⟨fun d => ?_, ?_, fun p name _ hname => ?_⟩
    · rw [hcompile]
      simpa using fun check h => (hnone check d h).elim
    · simpa [hcompile] using hnone
    · rw [← Option.ne_none_iff_exists']
      intro hgrouping
      obtain ⟨hdimension, hfield⟩ := Request.grouping?_eq_none_iff.1 hgrouping
      exact hnone 2 _ (.unknownGroup hname hdimension hfield)

end LaunchReports
