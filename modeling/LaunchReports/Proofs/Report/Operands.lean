/-
What operands and names can change of a plan: its parameters, and nothing else.

`blank` takes the operands out of a comparison, a condition, a statement, a plan. The text of a statement is that of the
blank one (`Select.sql_blank`), and blanking goes through the making of a tally (`Request.tally_blank`).

- `Grammar.Alike`: two values of a field have one form. They are the same test, or comparisons by the same operator, or
  texts, or names.
- `statements_eq_of_alike`: requests with values of one form, accepted, become plans with the same statements. Kinds and
  texts agree, and there are as many parameters.
-/
import LaunchReports.Proofs.Report.Compilation
import LaunchReports.Proofs.Sql.Comparison

namespace LaunchReports

/-! ## Forms of values -/

namespace Grammar

/-- the values that test for `NULL` -/
def nullTests : List String := ["null", "not_null"]

/-- both values begin with the same operator word, or neither with one -/
def SameOperator (a b : String) : Prop :=
  ∀ word ∈ Comparison.operatorWords.map Prod.fst, word.isPrefixOf a.toList = word.isPrefixOf b.toList

instance (a b : String) : Decidable (SameOperator a b) := by unfold SameOperator; infer_instance

/-- two values of a field have one form -/
inductive Alike : Grammar → String → String → Prop where
  | numericTest {a : String} (test : a ∈ nullTests) : Alike .numeric a a
  | numeric {a b : String} (ha : a ∉ nullTests) (hb : b ∉ nullTests) (h : SameOperator a b) : Alike .numeric a b
  | textTest {a : String} (test : a ∈ nullTests) : Alike .text a a
  | text {a b : String} (ha : a ∉ nullTests) (hb : b ∉ nullTests) : Alike .text a b
  | simType {a : String} : Alike .simType a a
  | lookup {target : NameTable} {a b : String} : Alike (.lookup target) a b

end Grammar

/-- requests that differ at most in operands, in names and in how many rows they ask for -/
structure Request.Alike (r s : Request) : Prop where
  query : r.query = s.query
  group : r.group? = s.group?
  order : r.order? = s.order?
  limit : r.limit?.isSome = s.limit?.isSome
  values : ∀ f ∈ Field.all, Option.Rel f.grammar.Alike (r.value? f.name) (s.value? f.name)

/-! ## Blanks -/

/-- the comparison without its operand -/
def Comparison.blank : Comparison → Comparison
  | binary op _ => binary op .null
  | c => c

def Condition.blank : Condition → Condition
  | compares column comparison => compares column comparison.blank
  | c => c

def Binding.blank (b : Binding) : Binding := { b with name := "" }

def Criterion.blank : Criterion → Criterion
  | compares column comparison => compares column comparison.blank
  | isOfType t => isOfType t
  | isNamed b => isNamed b.blank

def Arrangement.blank (a : Arrangement) : Arrangement := { a with limit := a.limit.map fun _ => 0 }

def Select.blank (s : Select) : Select :=
  { s with conditions := s.conditions.map Condition.blank, arrangement := s.arrangement.map Arrangement.blank }

def Aggregate.blank (a : Aggregate) : Aggregate := { a with select := a.select.blank }

def Plan.blank (p : Plan Aggregate) : Plan Aggregate := ⟨p.bindings.map Binding.blank, p.aggregate.blank⟩

/-- what is seen of a statement beside the values of its parameters -/
def Statement.outline (s : Statement) : StatementKind × String × Nat := (s.kind, s.sql, s.params.length)

/-! ## Texts do not show what is blanked -/

theorem Condition.sql_blank (c : Condition) : c.blank.sql = c.sql := by
  cases c with
  | compares column comparison => cases comparison <;> rfl
  | isOfType | refersTo | equates => rfl

theorem Condition.length_params_blank (c : Condition) : c.blank.params.length = c.params.length := by
  cases c with
  | compares column comparison => cases comparison <;> rfl
  | isOfType | refersTo | equates => rfl

/-- only the texts of the conditions stand in a clause -/
theorem Select.sql_blank (s : Select) : s.blank.sql = s.sql := by
  have hwhere : Fragment.whereClause (s.blank.conditions.map Condition.fragment) =
      Fragment.whereClause (s.conditions.map Condition.fragment) := by
    apply Fragment.whereClause_congr
    simp only [blank, List.map_map]
    exact List.map_congr_left fun c _ => c.sql_blank
  have hunordered : s.blank.unordered = s.unordered := by
    rw [unordered, hwhere]
    rfl
  rw [sql, sql, hunordered]
  congr 1
  cases h : s.arrangement with
  | none => simp [blank, h]
  | some a => simp [blank, h, Arrangement.blank]

theorem Select.length_params_blank (s : Select) : s.blank.params.length = s.params.length := by
  have hconditions : (s.conditions.flatMap fun c => c.blank.params).length =
      (s.conditions.flatMap Condition.params).length := by
    simp only [List.length_flatMap, Condition.length_params_blank]
  have hlimit : (s.blank.arrangement.bind Arrangement.limit).toList.length =
      (s.arrangement.bind Arrangement.limit).toList.length := by
    cases h : s.arrangement with
    | none => simp [blank, h]
    | some a => cases hl : a.limit <;> simp [blank, h, Arrangement.blank, hl]
  rw [params, params, List.length_append, List.length_append, List.length_map, List.length_map, hlimit, blank,
    List.flatMap_map, hconditions]

/-- the statements of a plan can be told from the blank plan, but for their parameters -/
theorem Plan.outlines_blank (p : Plan Aggregate) :
    (p.blank.statements Aggregate.statement).map Statement.outline =
      (p.statements Aggregate.statement).map Statement.outline := by
  have hbind : ∀ b : Binding, (Statement.ofBinding b.blank).outline = (Statement.ofBinding b).outline := fun _ => rfl
  have haggregate : p.aggregate.blank.statement.outline = p.aggregate.statement.outline := by
    simp only [Aggregate.statement, Aggregate.blank, Statement.outline, Select.sql_blank, Select.length_params_blank]
  have hsteps : p.blank.steps.map (fun s => (s.statement Aggregate.statement).outline) =
      p.steps.map fun s => (s.statement Aggregate.statement).outline := by
    unfold steps preparatory blank
    cases p.bindings <;> simp [Step.statement, hbind, haggregate]
  simp only [statements, List.map_map]
  exact hsteps

/-! ## Blanking goes through the stages -/

namespace Criterion

theorem table_blank (c : Criterion) : c.blank.table = c.table := by cases c <;> rfl

theorem condition_blank (c : Criterion) : c.blank.condition = c.condition.blank := by cases c <;> rfl

theorem binding?_blank (c : Criterion) : c.blank.binding? = c.binding?.map Binding.blank := by cases c <;> rfl

theorem immediate_blank (cs : List Criterion) : immediate (cs.map blank) = (immediate cs).map blank := by
  simp [immediate, List.filter_map, Function.comp_def, binding?_blank]

theorem bindings_blank (cs : List Criterion) : bindings (cs.map blank) = (bindings cs).map Binding.blank := by
  simp [bindings, List.filterMap_map, List.map_filterMap, binding?_blank]

end Criterion

theorem Request.sides_blank (cs : List Criterion) (dimension : Option Dimension) :
    sides (cs.map Criterion.blank) dimension = sides cs dimension := by
  simp [sides, Criterion.touching, Criterion.table_blank, Function.comp_def]

theorem Request.tally_blank (m : Measure) (name : String) (cs : List Criterion) {dimension : Option Dimension}
    (arrangement : Option Arrangement) (h : ∀ d ∈ dimension, d.Sound) :
    (tally m name cs dimension arrangement).blank =
      tally m name (cs.map Criterion.blank) dimension (arrangement.map Arrangement.blank) := by
  obtain ⟨hconditions, htables⟩ := tally_eq m name cs arrangement h
  obtain ⟨hblank, htables'⟩ := tally_eq m name (cs.map Criterion.blank) (arrangement.map Arrangement.blank) h
  rw [sides_blank, ← htables] at htables'
  have hmap : (tally m name cs dimension arrangement).conditions.map Condition.blank =
      (tally m name (cs.map Criterion.blank) dimension (arrangement.map Arrangement.blank)).conditions := by
    rw [hconditions, hblank, sides_blank, Criterion.immediate_blank, Criterion.bindings_blank]
    simp only [List.map_append, List.map_map, Function.comp_def, Criterion.condition_blank]
    rfl
  exact Select.mk.injEq .. ▸ ⟨rfl, rfl, rfl, htables'.symm, hmap, rfl, rfl⟩

/-! ## Values of one form -/

theorem Comparison.splitOperator_fst {a b : String} (h : Grammar.SameOperator a b) :
    (splitOperator a.toList).1 = (splitOperator b.toList).1 := by
  have hfind : operatorWords.find? (fun w => w.1.isPrefixOf a.toList) =
      operatorWords.find? fun w => w.1.isPrefixOf b.toList := by
    rw [← List.head?_filter, ← List.head?_filter]
    congr 1
    exact List.filter_congr fun w hw => h w.1 (List.mem_map_of_mem hw)
  unfold splitOperator
  rw [hfind]
  split <;> rfl

theorem Comparison.nullTest?_of_not_mem {a : String} (h : a ∉ Grammar.nullTests) : nullTest? a.toList = none := by
  rw [nullTest?_eq_none_iff]
  simpa [Grammar.nullTests] using h

theorem Comparison.blank_parseNumeric {a b : String} (ha : a ∉ Grammar.nullTests) (hb : b ∉ Grammar.nullTests)
    (h : Grammar.SameOperator a b) {c d : Comparison} (hc : parseNumeric a.toList = .ok c)
    (hd : parseNumeric b.toList = .ok d) : c.blank = d.blank := by
  have key : ∀ {x : String} {k : Comparison}, x ∉ Grammar.nullTests → parseNumeric x.toList = .ok k →
      k.blank = .binary (splitOperator x.toList).1 .null := by
    intro x k hx hk
    rcases parseNumeric_eq_ok_iff.1 hk with htest | ⟨-, operand, -, rfl⟩
    · rw [nullTest?_of_not_mem hx] at htest; cases htest
    · rfl
  rw [key ha hc, key hb hd, splitOperator_fst h]

theorem Comparison.blank_parseText {a b : String} (ha : a ∉ Grammar.nullTests) (hb : b ∉ Grammar.nullTests) :
    (parseText a.toList).blank = (parseText b.toList).blank := by
  rw [parseText, parseText, nullTest?_of_not_mem ha, nullTest?_of_not_mem hb]
  rfl

/-- criteria of one form differ at most in what is blanked -/
theorem Field.blank_criterion {f : Field} {a b : String} (h : f.grammar.Alike a b) {c d : Criterion}
    (hc : f.criterion a = .ok c) (hd : f.criterion b = .ok d) : c.blank = d.blank := by
  unfold criterion at hc hd
  generalize f.grammar = g at h hc hd
  cases h with
  | numericTest | textTest | simType => rw [Except.ok.inj (hc.symm.trans hd)]
  | numeric ha hb h =>
    dsimp only at hc hd
    cases hk : Comparison.parseNumeric a.toList with
    | error e => rw [hk] at hc; cases hc
    | ok k =>
      cases hl : Comparison.parseNumeric b.toList with
      | error e => rw [hl] at hd; cases hd
      | ok l =>
        rw [hk] at hc
        rw [hl] at hd
        cases hc
        cases hd
        exact congrArg (Criterion.compares f.column) (Comparison.blank_parseNumeric ha hb h hk hl)
  | text ha hb =>
    cases hc
    cases hd
    exact congrArg (Criterion.compares f.column) (Comparison.blank_parseText ha hb)
  | lookup => cases hc; cases hd; rfl

namespace Request

variable {r s : Request}

theorem Alike.supplied (h : r.Alike s) :
    List.Forall₂ (fun p q => p.1 = q.1 ∧ p.1.grammar.Alike p.2 q.2) r.supplied s.supplied := by
  unfold Request.supplied
  have hvalues := h.values
  generalize Field.all = fs at hvalues ⊢
  induction fs with
  | nil => exact .nil
  | cons f fs ih =>
    have hrest := ih fun g hg => hvalues g (List.mem_cons_of_mem f hg)
    have hvalue := hvalues f List.mem_cons_self
    rw [List.filterMap_cons, List.filterMap_cons]
    generalize r.value? f.name = x at hvalue ⊢
    generalize s.value? f.name = y at hvalue ⊢
    cases hvalue with
    | none => exact hrest
    | some hvalue => exact .cons ⟨rfl, hvalue⟩ hrest

theorem Alike.criteria (h : r.Alike s) {cs ds : List Criterion} (hc : r.criteria = .ok cs) (hd : s.criteria = .ok ds) :
    cs.map Criterion.blank = ds.map Criterion.blank := by
  rw [criteria_ok_iff] at hc hd
  have hs := h.supplied
  generalize r.supplied = ps at hs hc
  generalize s.supplied = qs at hs hd
  induction hs generalizing cs ds with
  | nil => cases hc; cases hd; rfl
  | @cons p q ps qs hpq _ ih =>
    obtain ⟨f, value⟩ := q
    obtain ⟨rfl, halike⟩ := hpq
    cases hc with
    | cons hp hps =>
      cases hd with
      | cons hq hqs => rw [List.map_cons, List.map_cons, Field.blank_criterion halike hp hq, ih hps hqs]

theorem Alike.arrangement (h : r.Alike s) {a b : Option Arrangement} (ha : r.arrangement = .ok a)
    (hb : s.arrangement = .ok b) : a.map Arrangement.blank = b.map Arrangement.blank := by
  unfold Request.arrangement at ha hb
  rw [← h.order] at hb
  cases hr : r.order? with
  | none => rw [hr] at ha hb; cases ha; cases hb; rfl
  | some raw =>
    rw [hr] at ha hb
    dsimp only at ha hb
    cases ho : Order.read? raw.toList with
    | none => rw [ho] at ha; cases ha
    | some o =>
      rw [ho] at ha hb
      cases ha
      cases hb
      have hlimit := h.limit
      cases hx : r.limit? <;> cases hy : s.limit? <;> simp [hx, hy, Arrangement.blank] at hlimit ⊢

theorem Alike.dimension (h : r.Alike s) : r.dimension = s.dimension := by
  unfold Request.dimension
  rw [h.group]

/-- accepted requests of one form have plans that differ at most in what is blanked -/
theorem Alike.plan (h : r.Alike s) {p q : Plan Aggregate} (hp : r.compile = .ok p) (hq : s.compile = .ok q) :
    p.blank = q.blank := by
  obtain ⟨dimension, a, cs, -, hdim, ha, -, hc, rfl⟩ := compile_ok_iff.1 hp
  obtain ⟨_, b, ds, -, hdim', hb, -, hd, rfl⟩ := compile_ok_iff.1 hq
  rw [← h.dimension, hdim] at hdim'
  cases hdim'
  have hcriteria := h.criteria hc hd
  have hbindings : r.lookups.map Binding.blank = s.lookups.map Binding.blank := by
    rw [← bindings_criteria hc, ← bindings_criteria hd, ← Criterion.bindings_blank, ← Criterion.bindings_blank, hcriteria]
  have hselect : (r.select cs dimension a).blank = (s.select ds dimension b).blank := by
    unfold select
    rw [← h.query]
    cases r.query.measure? with
    | none => rfl
    | some m =>
      dsimp only
      rw [tally_blank _ _ _ _ (dimension_sound hdim), tally_blank _ _ _ _ (dimension_sound hdim), hcriteria,
        h.arrangement ha hb]
  simp only [Plan.blank, Aggregate.blank, hbindings, hselect, h.query]

end Request

/-- **Operands change nothing but parameters.** -/
theorem statements_eq_of_alike {r s : Request} (h : r.Alike s) {p q : Plan Aggregate} (hp : r.compile = .ok p)
    (hq : s.compile = .ok q) :
    List.Forall₂ (fun a b => a.kind = b.kind ∧ a.sql = b.sql ∧ a.params.length = b.params.length)
      (p.statements Aggregate.statement) (q.statements Aggregate.statement) := by
  have houtlines : (p.statements Aggregate.statement).map Statement.outline =
      (q.statements Aggregate.statement).map Statement.outline := by
    rw [← p.outlines_blank, ← q.outlines_blank, h.plan hp hq]
  rw [← List.forall₂_eq_eq_eq, List.forall₂_map_left_iff, List.forall₂_map_right_iff] at houtlines
  exact houtlines.imp fun _ _ h => by simpa [Statement.outline] using h

/-- launches of a simulation before a revision, in a language, by week -/
def sampleForm (name revision language : String) (limit : UInt64) : Request where
  query := .messageCount
  filters := .ofPairs
    [("sim_name", some name), ("sim_svn_revision", some revision), ("sim_locale_language", some language)]
  group := some "week"
  order := some "desc:week"
  limit := some limit

theorem statements_eq_of_alike_sample :
    let r := sampleForm "gas" "less_than:5" "en" 3
    let s := sampleForm "x'); DROP TABLE session; --" "less_than:-2.5" "?' OR 1 = 1" 90
    ∃ p q, r.compile = .ok p ∧ s.compile = .ok q ∧ p ≠ q ∧
      List.Forall₂ (fun a b => a.kind = b.kind ∧ a.sql = b.sql ∧ a.params.length = b.params.length)
        (p.statements Aggregate.statement) (q.statements Aggregate.statement) := by
  intro r s
  have hvalues : ∀ f ∈ Field.all, Option.Rel f.grammar.Alike (r.value? f.name) (s.value? f.name) := by
    have key : ∀ f ∈ Field.all, r.value? f.name = none ∧ s.value? f.name = none ∨
        f ∈ [Field.simName, .numeric (.session .simSvnRevision), .text (.session .simLocaleLanguage)] := by
      decide
    intro f hf
    rcases key f hf with ⟨hr, hs⟩ | hf
    · rw [hr, hs]
      exact .none
    · simp only [List.mem_cons, List.not_mem_nil, or_false] at hf
      rcases hf with rfl | rfl | rfl
      · exact .some .lookup
      · exact .some (.numeric (by decide) (by decide) (by decide))
      · exact .some (.text (by decide) (by decide))
  have halike : r.Alike s := ⟨rfl, rfl, rfl, rfl, hvalues⟩
  have hr : r.compile = .ok ⟨r.lookups, .messageCount, r.select
      [.compares (.session .simSvnRevision) (.binary .less (.integer 5)),
        .compares (.session .simLocaleLanguage) (.binary .equal (.text "en")),
        .isNamed ⟨.session .simName, .simName, "gas"⟩]
      (some .week) (some ⟨⟨⟨none, "week"⟩, true⟩, some 3⟩)⟩ := by decide
  have hs : s.compile = .ok ⟨s.lookups, .messageCount, s.select
      [.compares (.session .simSvnRevision) (.binary .less (.real (.ofDecimal ⟨true, 25, -1⟩))),
        .compares (.session .simLocaleLanguage) (.binary .equal (.text "?' OR 1 = 1")),
        .isNamed ⟨.session .simName, .simName, "x'); DROP TABLE session; --"⟩]
      (some .week) (some ⟨⟨⟨none, "week"⟩, true⟩, some 90⟩)⟩ := by decide
  exact ⟨_, _, hr, hs, by decide, statements_eq_of_alike halike hr hs⟩

end LaunchReports
