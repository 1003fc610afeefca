/-
Requests that are spelled differently and supply the same.

A filter can be left out, `null` or empty, a group or an order left out or empty, a limit left out or zero, and each
time nothing is supplied. `Request.Agrees` says of two requests that they supply the same, by what stands in them;
`Request.agrees_iff` says it by what is read of them.

- `compile_spelling`: requests for one query that supply the same compile to the same plan, or fail with the same error.
  The types of a simulation are asked for with one and the same statement, whatever else is in the request.

There is one lemma a stage of compiling (`dimension_congr`, `arrangement_congr`, `supplied_congr`), since each stage
reads its own part of the request.
-/
import LaunchReports.Proofs.Report.Acceptance

namespace LaunchReports

/-! ## Spellings -/

/-- one value twice, or two spellings of no value -/
def Synonymous {α : Type} (blanks : List α) (a b : α) : Prop := a = b ∨ a ∈ blanks ∧ b ∈ blanks

/-- a reader that finds nothing in the blanks and tells all else apart reads two spellings alike only if they are -/
theorem synonymous_iff {α β : Type} {blanks : List α} (read : α → Option β) (hblank : ∀ a, read a = none ↔ a ∈ blanks)
    (hinj : ∀ a b v, read a = some v → read b = some v → a = b) {a b : α} :
    Synonymous blanks a b ↔ read a = read b := by
  constructor
  · rintro (rfl | ⟨ha, hb⟩)
    · rfl
    · rw [(hblank a).2 ha, (hblank b).2 hb]
  · intro h
    cases hb : read b with
    | none => exact .inr ⟨(hblank a).1 (h.trans hb), (hblank b).1 hb⟩
    | some v => exact .inl (hinj a b v (h.trans hb) hb)

section

variable {α : Type} {blank : α} {keep : α → Bool} (hkeep : ∀ a, keep a = false ↔ a = blank)

include hkeep

theorem filter_eq_none_iff {a : Option α} : a.filter keep = none ↔ a ∈ [none, some blank] := by
  cases a with
  | none => simp
  | some a => simp [hkeep]

/-- what can be left out, or be there and count as left out -/
theorem synonymous_filter_iff {a b : Option α} :
    Synonymous [none, some blank] a b ↔ a.filter keep = b.filter keep := by
  apply synonymous_iff
  · intro a
    exact filter_eq_none_iff hkeep
  · intro a b v ha hb
    rw [(Option.filter_eq_some_iff.1 ha).1, (Option.filter_eq_some_iff.1 hb).1]

end

namespace Request

/-- a filter that is left out, `null` or empty -/
def noFilter : List (Option (Option String)) := [none, some none, some (some "")]

/-- a group or an order that is left out or empty -/
def noText : List (Option String) := [none, some ""]

/-- a limit that is left out or zero -/
def noLimit : List (Option UInt64) := [none, some 0]

/-- the most rows that a statement can ask for, which is one less than two to the power of 63 -/
def mostRows : Nat := Int64.maxValue.toInt.toNat

/-- the limit is as high as a statement can ask for, or higher -/
def Vast (limit : Option UInt64) : Prop := ∃ n ∈ limit, mostRows ≤ n.toNat

/-- the requests supply the same; their limits matter only beside an order -/
structure Agrees (r s : Request) : Prop where
  query : r.query = s.query
  filters : ∀ f ∈ Field.all, Synonymous noFilter (r.filters.get? f.name) (s.filters.get? f.name)
  group : Synonymous noText r.group s.group
  order : Synonymous noText r.order s.order
  limit : r.order ∉ noText → Synonymous noLimit r.limit s.limit ∨ Vast r.limit ∧ Vast s.limit

variable {r s : Request}

theorem synonymous_filters_iff (field : String) :
    Synonymous noFilter (r.filters.get? field) (s.filters.get? field) ↔ r.value? field = s.value? field := by
  apply synonymous_iff fun v => (Option.join v).filter fun v : String => !v.isEmpty
  · intro v
    match v with
    | none | some none => simp [noFilter]
    | some (some v) => simp [noFilter]
  · intro a b v ha hb
    have ha := Option.join_eq_some_iff.1 (Option.filter_eq_some_iff.1 ha).1
    have hb := Option.join_eq_some_iff.1 (Option.filter_eq_some_iff.1 hb).1
    rw [ha, hb]

theorem not_isEmpty_eq_false_iff (text : String) : (!text.isEmpty) = false ↔ text = "" := by simp

theorem synonymous_text_iff {a b : Option String} :
    Synonymous noText a b ↔ (a.filter fun t => !t.isEmpty) = b.filter fun t => !t.isEmpty :=
  synonymous_filter_iff not_isEmpty_eq_false_iff

/-- what a statement can ask for of a limit -/
def cap (n : UInt64) : Nat := min n.toNat mostRows

theorem synonymous_limit_iff :
    Synonymous noLimit r.limit s.limit ∨ Vast r.limit ∧ Vast s.limit ↔ r.limit?.map cap = s.limit?.map cap := by
  have hsynonymous : Synonymous noLimit r.limit s.limit ↔ r.limit? = s.limit? :=
    synonymous_filter_iff fun n => by simp
  have hvast : ∀ {q : Request}, Vast q.limit → q.limit?.map cap = some mostRows := by
    rintro q ⟨n, hn, hle⟩
    have hne : n ≠ 0 := by
      rintro rfl
      exact absurd hle (by decide)
    have hcap : cap n = mostRows := Nat.min_eq_right hle
    rw [limit?, hn, Option.filter_some, if_pos (bne_iff_ne.2 hne), Option.map_some, hcap]
  constructor
  · rintro (h | ⟨hr, hs⟩)
    · rw [hsynonymous.1 h]
    · rw [hvast hr, hvast hs]
  · intro h
    cases hr : r.limit? with
    | none =>
      rw [hr, Option.map_none, eq_comm, Option.map_eq_none_iff] at h
      exact .inl (hsynonymous.2 (hr.trans h.symm))
    | some m =>
      rw [hr, Option.map_some, eq_comm, Option.map_eq_some_iff] at h
      obtain ⟨n, hs, hcap⟩ := h
      unfold cap at hcap
      by_cases hle : mostRows ≤ m.toNat
      · have hle' : mostRows ≤ n.toNat := by omega
        exact .inr ⟨⟨m, (Option.filter_eq_some_iff.1 hr).1, hle⟩, n, (Option.filter_eq_some_iff.1 hs).1, hle'⟩
      · have hmn : m = n := UInt64.toNat_inj.1 (by omega)
        exact .inl (hsynonymous.2 (by rw [hr, hs, hmn]))

/-- requests agree when the same is read of both -/
theorem agrees_iff :
    r.Agrees s ↔ r.query = s.query ∧ (∀ f ∈ Field.all, r.value? f.name = s.value? f.name) ∧ r.group? = s.group? ∧
      r.order? = s.order? ∧ (r.order?.isSome → r.limit?.map cap = s.limit?.map cap) := by
  have hordered : r.order?.isSome ↔ r.order ∉ noText := by
    rw [noText, ← filter_eq_none_iff not_isEmpty_eq_false_iff, ← Option.ne_none_iff_isSome]
    rfl
  have hfilters : (∀ f ∈ Field.all, Synonymous noFilter (r.filters.get? f.name) (s.filters.get? f.name)) ↔
      ∀ f ∈ Field.all, r.value? f.name = s.value? f.name :=
    forall₂_congr fun f _ => synonymous_filters_iff f.name
  rw [hordered, ← hfilters, ← synonymous_limit_iff, group?, group?, ← synonymous_text_iff, order?, order?,
    ← synonymous_text_iff]
  exact ⟨fun h => ⟨h.query, h.filters, h.group, h.order, h.limit⟩, fun ⟨hq, hf, hg, ho, hl⟩ => ⟨hq, hf, hg, ho, hl⟩⟩

/-! ## Stages -/

theorem unknownField?_eq_none (h : ∀ name ∈ r.filters.keys, name ∈ Field.all.map Field.name) :
    r.unknownField? = none := by
  refine List.find?_eq_none.2 fun name hname hunknown => ?_
  exact isNone_named?_iff.1 hunknown (h name hname)

theorem dimension_congr (h : r.group? = s.group?) : r.dimension = s.dimension := by rw [dimension, dimension, h]

theorem arrangement_congr (ho : r.order? = s.order?)
    (hl : r.order?.isSome → r.limit?.map cap = s.limit?.map cap) : r.arrangement = s.arrangement := by
  have hcut : ∀ q : Request, (q.limit?.map fun n => Int64.ofNat (min n.toNat Int64.maxValue.toInt.toNat)) =
      (q.limit?.map cap).map Int64.ofNat := by
    intro q
    rw [Option.map_map]
    rfl
  rw [arrangement, arrangement, hcut, hcut, ← ho]
  cases hr : r.order? with
  | none => rfl
  | some raw => rw [hl (by rw [hr]; rfl)]

theorem supplied_congr (h : ∀ f ∈ Field.all, r.value? f.name = s.value? f.name) : r.supplied = s.supplied :=
  List.filterMap_congr fun f hf => by rw [h f hf]

theorem missingFilter?_congr (hq : r.query = s.query) (h : ∀ f ∈ Field.all, r.value? f.name = s.value? f.name) :
    r.missingFilter? = s.missingFilter? := by
  rw [missingFilter?, missingFilter?, hq, h Field.simName (by decide)]

/-- compiling reads no more of a request than what it supplies -/
theorem compile_congr (hr : ∀ name ∈ r.filters.keys, name ∈ Field.all.map Field.name)
    (hs : ∀ name ∈ s.filters.keys, name ∈ Field.all.map Field.name) (h : r.Agrees s) : r.compile = s.compile := by
  obtain ⟨hquery, hvalues, hgroup, horder, hlimit⟩ := agrees_iff.1 h
  have hsupplied : r.supplied = s.supplied := supplied_congr hvalues
  have hcriteria : r.criteria = s.criteria := congrArg (List.mapM fun p : Field × String => p.1.criterion p.2) hsupplied
  have hlookups : r.lookups = s.lookups := by rw [lookups, lookups, hsupplied]
  have hselect : ∀ cs dimension arrangement, r.select cs dimension arrangement = s.select cs dimension arrangement := by
    intro cs dimension arrangement
    rw [select, select, hquery]
  rw [compile_eq, compile_eq, unknownField?_eq_none hr, unknownField?_eq_none hs, dimension_congr hgroup,
    arrangement_congr horder hlimit, missingFilter?_congr hquery hvalues, hcriteria, hlookups, hquery]
  simp only [hselect]

end Request

/-- the statement for the types of a simulation -/
def simTypeStatement : Statement where
  kind := .aggregate "sim_type"
  sql :=
    "SELECT DISTINCT CASE WHEN session.sim_type = 0 THEN 'java' ELSE 'flash' END AS sim_type FROM session " ++
      "WHERE session.sim_name = (SELECT value FROM temp.report_bindings WHERE symbol = 'sid')"
  params := []

/-- **What is not supplied is not supplied, however it is spelled.** -/
theorem compile_spelling :
    (∀ r s : Request, r.Agrees s ↔
      r.query = s.query ∧ (∀ f ∈ Field.all, r.value? f.name = s.value? f.name) ∧ r.group? = s.group? ∧
        r.order? = s.order? ∧ (r.order?.isSome → r.limit?.map Request.cap = s.limit?.map Request.cap)) ∧
      (∀ r s : Request, (∀ name ∈ r.filters.keys, name ∈ Field.all.map Field.name) →
        (∀ name ∈ s.filters.keys, name ∈ Field.all.map Field.name) → r.Agrees s → r.compile = s.compile) ∧
      ∀ (r : Request) (plan : Plan Aggregate), r.query = .simType → r.compile = .ok plan →
        plan.aggregate.statement = simTypeStatement := by
  refine ⟨fun _ _ => Request.agrees_iff, fun _ _ hr hs h => Request.compile_congr hr hs h, fun r plan hq h => ?_⟩
  obtain ⟨dimension, arrangement, cs, -, -, -, -, -, rfl⟩ := Request.compile_ok_iff.1 h
  dsimp only
  rw [Request.select_eq_simTypes hq, hq]
  decide +kernel

/-- nothing supplied beside the simulation and an order, by leaving it out -/
def sampleTerse : Request where
  query := .sessionCount
  filters := .ofPairs [("sim_name", some "gas")]
  group := none
  order := some "session_count"
  limit := some 9223372036854775808

/-- the same, spelled out -/
def sampleVerbose : Request where
  query := .sessionCount
  filters := .ofPairs [("sim_dev", none), ("sim_name", some "gas"), ("sim_project", some "")]
  group := some ""
  order := some "session_count"
  limit := some 18446744073709551615

theorem compile_spelling_sample :
    sampleTerse.Agrees sampleVerbose ∧ sampleTerse ≠ sampleVerbose ∧ sampleTerse.compile = sampleVerbose.compile ∧
      ∃ plan, { sampleVerbose with query := .simType }.compile = .ok plan ∧
        plan.aggregate.statement = simTypeStatement := by
  have hagrees : sampleTerse.Agrees sampleVerbose := (compile_spelling.1 _ _).2 (by decide)
  have hcompile : ∃ plan, { sampleVerbose with query := .simType }.compile = .ok plan :=
    ⟨⟨[⟨.session .simName, .simName, "gas"⟩], ⟨.simType, Request.simTypes⟩⟩, by decide⟩
  obtain ⟨plan, hplan⟩ := hcompile
  refine ⟨hagrees, by decide, compile_spelling.2.1 _ _ (by decide) (by decide) hagrees, plan, hplan, ?_⟩
  exact compile_spelling.2.2 _ plan rfl hplan

end LaunchReports
