/-
What compiling a request yields, stage by stage.

`Request.compile_ok_iff` takes an accepted request apart: the checks that it passed, the criteria of its supplied
filters and the plan made of them. The plan is never refused for its variables, since the conditions that read one are
those of the bindings (`symbols_tally`). `tally_eq` lists what the statement of a tally joins and asks for,
`criterion_cases` what a filter can ask for.
-/
import Mathlib.Data.List.Forall2
import Mathlib.Data.List.Nodup
import LaunchReports.Report.Compile
import LaunchReports.Proofs.Catalog.References
import LaunchReports.Proofs.Report.Bindings
import LaunchReports.Proofs.Sql.Pieces

namespace LaunchReports

/-! ## Collecting each item once -/

namespace Assembly

variable {κ τ : Type}

theorem addNew_of_not_mem {α : Type} [DecidableEq α] {a : α} {items : List α} (h : a ∉ items) :
    addNew a items = items ++ [a] := if_neg h

/-- new items come to the end in their order -/
theorem foldl_addNew {α : Type} [DecidableEq α] (news items : List α) (h : news.Nodup)
    (hd : ∀ a ∈ news, a ∉ items) : news.foldl (fun acc a => addNew a acc) items = items ++ news := by
  induction news generalizing items with
  | nil => simp
  | cons a rest ih =>
    obtain ⟨ha, hrest⟩ := List.nodup_cons.1 h
    rw [List.foldl_cons, addNew_of_not_mem (hd a List.mem_cons_self), ih _ hrest]
    · simp
    · intro b hb hm
      rcases List.mem_append.1 hm with hm | hm
      · exact hd b (List.mem_cons_of_mem _ hb) hm
      · exact ha (List.mem_singleton.1 hm ▸ hb)

theorem foldl_requireJoin [DecidableEq τ] {α : Type} (f : α → τ) (l : List α) (a : Assembly κ τ) :
    l.foldl (fun a x => a.requireJoin (f x)) a =
      { a with joins := (l.map f).foldl (fun acc t => addNew t acc) a.joins } := by
  induction l generalizing a with
  | nil => rfl
  | cons x l ih => exact ih _

theorem foldl_requireLinkage [DecidableEq κ] {α : Type} (f : α → κ) (l : List α) (a : Assembly κ τ) :
    l.foldl (fun a x => a.requireLinkage (f x)) a =
      { a with linkage := (l.map f).foldl (fun acc c => addNew c acc) a.linkage } := by
  induction l generalizing a with
  | nil => rfl
  | cons x l ih => exact ih _

theorem foldl_attach [DecidableEq κ] [DecidableEq τ] (v : Vocabulary κ τ) (l : List SideTable) (a : Assembly κ τ) :
    l.foldl (attach v) a =
      { a with
        linkage := (l.map fun s => v.condition (.belongs s)).foldl (fun acc c => addNew c acc) a.linkage
        joins := (l.map fun s => v.table (.side s)).foldl (fun acc t => addNew t acc) a.joins } := by
  induction l generalizing a with
  | nil => rfl
  | cons s l ih => exact ih _

end Assembly

/-! ## Criteria -/

namespace Criterion

/-- the criteria that compare at once, without a variable -/
def immediate (cs : List Criterion) : List Criterion := cs.filter fun c => c.binding?.isNone

/-- the names to be looked up -/
def bindings (cs : List Criterion) : List Binding := cs.filterMap binding?

theorem condition_of_binding? {c : Criterion} {b : Binding} (h : c.binding? = some b) : c.condition = b.condition := by
  cases c with
  | isNamed b' => cases h; rfl
  | compares | isOfType => cases h

/-- a criterion touches the side table -/
def touching (cs : List Criterion) (s : SideTable) : Bool := cs.any fun c => c.table = .side s

end Criterion

open Criterion in
/-- what the steps of the criteria add to an assembly -/
theorem Assembly.foldl_steps (cs : List Criterion) (a : Assembly Condition Table) :
    (cs.flatMap Criterion.steps).foldl (step .structured) a =
      { a with
        direct := a.direct ++ (immediate cs).map condition
        deferred := a.deferred ++ (bindings cs).map Binding.condition
        flashTouched := a.flashTouched || touching cs .flashInfo
        javaTouched := a.javaTouched || touching cs .javaInfo } := by
  induction cs generalizing a with
  | nil => simp [immediate, bindings, touching]
  | cons c cs ih =>
    rw [List.flatMap_cons, List.foldl_append, ih]
    have htouch : ∀ t : Table, a.touchTable t =
        { a with
          flashTouched := a.flashTouched || decide (t = .side .flashInfo)
          javaTouched := a.javaTouched || decide (t = .side .javaInfo) } := by
      intro t
      match t with
      | .session | .names _ | .side .flashInfo | .side .javaInfo => simp [touchTable, Table.side?, touch]
    cases hb : c.binding? with
    | none =>
      simp [steps, step, hb, htouch, pushDirect, immediate, bindings, touching, Bool.or_assoc]
    | some b =>
      simp [steps, step, hb, condition_of_binding? hb, htouch, pushDeferred, immediate, bindings, touching, Bool.or_assoc]

/-! ## The statement of a tally -/

namespace Assembly

variable {κ τ : Type}

/-- what a dimension adds to an assembly -/
theorem group_adds [DecidableEq κ] [DecidableEq τ] (v : Vocabulary κ τ) (d : Dimension) (a : Assembly κ τ) :
    a.group v d =
      { a with
        joins := (d.links.map fun l => v.table (.names l.target)).foldl (fun acc t => addNew t acc) a.joins
        linkage := (d.links.map fun l => v.condition l.condition).foldl (fun acc c => addNew c acc) a.linkage
        flashTouched := a.flashTouched || d.side = some .flashInfo
        javaTouched := a.javaTouched || d.side = some .javaInfo } := by
  simp only [group, foldl_requireJoin, foldl_requireLinkage]
  cases d.side with
  | none => simp
  | some s => cases s <;> simp [touch]

/-- what a dimension adds to an assembly without links and joins -/
theorem group_eq {d : Dimension} (h : (d.links.map NameLink.target).Nodup) (a : Assembly Condition Table)
    (hl : a.linkage = []) (hj : a.joins = []) :
    a.group .structured d =
      { a with
        joins := d.links.map fun l => .names l.target
        linkage := d.links.map NameLink.condition
        flashTouched := a.flashTouched || d.side = some .flashInfo
        javaTouched := a.javaTouched || d.side = some .javaInfo } := by
  have hinj : ∀ l ∈ d.links, ∀ k ∈ d.links, l.target = k.target → l = k := List.inj_on_of_nodup_map h
  have hjoins : (d.links.map fun l => Table.names l.target).Nodup :=
    h.of_map.map_on fun l hl k hk e => hinj l hl k hk (Table.names.inj e)
  have hlinks : (d.links.map NameLink.condition).Nodup :=
    h.of_map.map_on fun l hl k hk e => hinj l hl k hk (Column.names.inj (Condition.equates.inj e).2).1
  rw [group_adds, hl, hj]
  simp only [Vocabulary.structured, id]
  rw [foldl_addNew _ _ hjoins (by simp), foldl_addNew _ _ hlinks (by simp), List.nil_append, List.nil_append]

end Assembly

namespace Request

open Criterion

/-- the name tables that the dimension shows -/
def links (dimension : Option Dimension) : List NameLink := (dimension.map Dimension.links).getD []

/-- the side tables that a criterion or the dimension touches -/
def sides (cs : List Criterion) (dimension : Option Dimension) : List SideTable :=
  SideTable.all.filter fun s => touching cs s || dimension.any fun d => d.side = some s

/-- the assembly of the criteria and the dimension before it is finished -/
def collected (cs : List Criterion) (dimension : Option Dimension) : Assembly Condition Table :=
  match dimension with
  | some d => (Assembly.run .structured (cs.flatMap Criterion.steps)).group .structured d
  | none => Assembly.run .structured (cs.flatMap Criterion.steps)

theorem collected_eq (cs : List Criterion) {dimension : Option Dimension} (h : ∀ d ∈ dimension, d.Sound) :
    collected cs dimension =
      { direct := (immediate cs).map condition
        deferred := (bindings cs).map Binding.condition
        linkage := (links dimension).map NameLink.condition
        joins := (links dimension).map fun l => .names l.target
        flashTouched := touching cs .flashInfo || dimension.any fun d => d.side = some .flashInfo
        javaTouched := touching cs .javaInfo || dimension.any fun d => d.side = some .javaInfo } := by
  have hrun : Assembly.run .structured (cs.flatMap Criterion.steps) =
      { Assembly.empty with
        direct := (immediate cs).map condition
        deferred := (bindings cs).map Binding.condition
        flashTouched := touching cs .flashInfo
        javaTouched := touching cs .javaInfo } := by
    rw [Assembly.run, Assembly.foldl_steps]
    simp [Assembly.empty]
  cases dimension with
  | none => rw [collected, hrun]; simp [links, Assembly.empty]
  | some d =>
    rw [collected, hrun, Assembly.group_eq (h d rfl).targets_nodup _ rfl rfl]
    simp [links]

variable (m : Measure) (name : String) (cs : List Criterion) {dimension : Option Dimension}
  (arrangement : Option Arrangement)

/-- the conditions and the joins of a tally -/
theorem tally_eq (h : ∀ d ∈ dimension, d.Sound) :
    (tally m name cs dimension arrangement).conditions =
        (immediate cs).map condition ++ (bindings cs).map Binding.condition ++
          ((links dimension).map NameLink.condition ++ (sides cs dimension).map .belongs) ∧
      (tally m name cs dimension arrangement).tables =
        ((links dimension).map fun l => .names l.target) ++ (sides cs dimension).map .side := by
  have hnodup : (sides cs dimension).Nodup := List.Nodup.filter _ (by decide)
  have hsides : (collected cs dimension).sides = sides cs dimension := by
    rw [collected_eq cs h]
    exact List.filter_congr fun s _ => by cases s <;> rfl
  have hbelongs : ((sides cs dimension).map Condition.belongs).Nodup :=
    hnodup.map fun s t e => by cases s <;> cases t <;> first | rfl | cases e
  have hjoined : ((sides cs dimension).map Table.side).Nodup := hnodup.map fun _ _ => Table.side.inj
  have hfinish : (collected cs dimension).finish .structured =
      ⟨(immediate cs).map condition ++ (bindings cs).map Binding.condition ++
          ((links dimension).map NameLink.condition ++ (sides cs dimension).map .belongs),
        ((links dimension).map fun l => .names l.target) ++ (sides cs dimension).map .side⟩ := by
    simp only [Assembly.finish, Assembly.foldl_attach, hsides]
    rw [collected_eq cs h]
    simp only [Vocabulary.structured, id]
    rw [Assembly.foldl_addNew _ _ hbelongs ?_, Assembly.foldl_addNew _ _ hjoined ?_]
    · simp
    · intro c hc hl
      obtain ⟨s, -, rfl⟩ := List.mem_map.1 hc
      obtain ⟨l, -, e⟩ := List.mem_map.1 hl
      cases s <;> simp [NameLink.condition, Condition.names, Condition.belongs, SideTable.sessionId] at e
  exact ⟨congrArg Assembled.conditions hfinish, congrArg Assembled.joins hfinish⟩

/-- the variables that a tally reads are those of its bindings, in their order -/
theorem symbols_tally (h : ∀ d ∈ dimension, d.Sound) :
    Fragment.symbols ((tally m name cs dimension arrangement).conditions.map Condition.fragment) =
      (bindings cs).map Binding.symbol := by
  have hnone : ∀ c ∈ immediate cs, c.condition.reads? = none := by
    intro c hc
    cases c with
    | isNamed b => simp [immediate, binding?] at hc
    | compares => rfl
    | isOfType => rfl
  have hdirect : (immediate cs).filterMap (fun c => c.condition.fragment.symbol) = [] := by
    rw [List.filterMap_eq_nil_iff]
    intro c hc
    simp [Condition.fragment, hnone c hc]
  rw [(tally_eq m name cs arrangement h).1]
  simp only [Fragment.symbols, List.map_append, List.filterMap_append, List.filterMap_map, List.map_map,
    Function.comp_def, hdirect]
  simp [Condition.fragment, Binding.condition, Condition.reads?, NameLink.condition, Condition.names,
    Condition.belongs, Binding.symbol]

end Request

/-! ## Stages -/

/-- a traversal succeeds when each item does -/
theorem mapM_eq_ok_iff {α β ε : Type} {f : α → Except ε β} {xs : List α} {ys : List β} :
    xs.mapM f = .ok ys ↔ List.Forall₂ (fun x y => f x = .ok y) xs ys := by
  induction xs generalizing ys with
  | nil => cases ys <;> simp [pure, Except.pure]
  | cons x xs ih =>
    rw [List.mapM_cons, List.forall₂_cons_left_iff]
    cases hx : f x with
    | error e => simp [bind, Except.bind]
    | ok y =>
      cases hxs : xs.mapM f with
      | error e => simp [bind, Except.bind, ← ih, hxs]
      | ok l => simp [bind, Except.bind, pure, Except.pure, ← ih, hxs, eq_comm]

/-- a traversal fails with the error of the first item that fails -/
theorem mapM_eq_error_iff {α β ε : Type} {f : α → Except ε β} {xs : List α} {e : ε} :
    xs.mapM f = .error e ↔
      ∃ before x after, xs = before ++ x :: after ∧ (∀ y ∈ before, ∃ z, f y = .ok z) ∧ f x = .error e := by
  induction xs with
  | nil => simp [pure, Except.pure]
  | cons x xs ih =>
    rw [List.mapM_cons]
    cases hx : f x with
    | error d =>
      simp only [bind, Except.bind, Except.error.injEq]
      constructor
      · rintro rfl
        exact ⟨[], x, xs, rfl, nofun, hx⟩
      · rintro ⟨before, y, after, h, hbefore, hy⟩
        cases before with
        | nil => cases h; rw [hx] at hy; exact Except.error.inj hy
        | cons z before =>
          cases h
          obtain ⟨_, hz⟩ := hbefore _ List.mem_cons_self
          rw [hx] at hz
          cases hz
    | ok y =>
      have hbind : (do let y ← Except.ok y; let ys ← xs.mapM f; pure (y :: ys)) = .error e ↔ xs.mapM f = .error e := by
        cases xs.mapM f <;> simp [bind, Except.bind, pure, Except.pure]
      rw [hbind, ih]
      constructor
      · rintro ⟨before, z, after, rfl, hbefore, hz⟩
        exact ⟨x :: before, z, after, rfl, List.forall_mem_cons.2 ⟨⟨y, hx⟩, hbefore⟩, hz⟩
      · rintro ⟨before, z, after, h, hbefore, hz⟩
        cases before with
        | nil => cases h; rw [hx] at hz; cases hz
        | cons w before =>
          cases h
          exact ⟨before, z, after, rfl, (List.forall_mem_cons.1 hbefore).2, hz⟩

/-- only the types of a simulation are not measured -/
theorem Query.exists_measure {q : Query} (h : q ≠ .simType) : ∃ m, q.measure? = some m := by
  cases q with
  | messageCount | sessionCount => exact ⟨_, rfl⟩
  | simType => contradiction

namespace Request

open Criterion

/-- the supplied filters, in catalog order -/
def supplied (r : Request) : List (Field × String) :=
  Field.all.filterMap fun f => (r.value? f.name).map fun value => (f, value)

/-- the names to be looked up for a request, in catalog order -/
def lookups (r : Request) : List Binding := r.supplied.filterMap fun p => Binding.ofField? p.1 p.2

/-- the criteria that a field can have -/
theorem criterion_cases {f : Field} {value : String} {c : Criterion} (h : f.criterion value = .ok c) :
    (f.grammar = .numeric ∧ ∃ comparison, Comparison.parseNumeric value.toList = .ok comparison ∧
      c = .compares f.column comparison) ∨
    (f.grammar = .text ∧ c = .compares f.column (Comparison.parseText value.toList)) ∨
    (∃ target, f.grammar = .lookup target ∧ c = .isNamed ⟨f.column, target, value⟩) ∨
    (f.grammar = .simType ∧ ∃ t, SimType.ofName? value = some t ∧ c = .isOfType t) := by
  unfold Field.criterion at h
  cases hg : f.grammar with
  | numeric =>
    simp only [hg] at h
    split at h <;> cases h
    next comparison hread => exact .inl ⟨rfl, comparison, hread, rfl⟩
  | text =>
    simp only [hg] at h
    cases h
    exact .inr (.inl ⟨rfl, rfl⟩)
  | lookup target =>
    simp only [hg] at h
    cases h
    exact .inr (.inr (.inl ⟨target, rfl, rfl⟩))
  | simType =>
    simp only [hg] at h
    split at h <;> cases h
    next t hname => exact .inr (.inr (.inr ⟨rfl, t, hname, rfl⟩))

theorem binding?_criterion {f : Field} {value : String} {c : Criterion} (h : f.criterion value = .ok c) :
    c.binding? = Binding.ofField? f value := by
  rcases criterion_cases h with ⟨hg, comparison, -, rfl⟩ | ⟨hg, rfl⟩ | ⟨target, hg, rfl⟩ | ⟨hg, t, -, rfl⟩ <;>
    simp [binding?, Binding.ofField?, hg, Grammar.target?]

theorem criteria_ok_iff {r : Request} {cs : List Criterion} :
    r.criteria = .ok cs ↔ List.Forall₂ (fun p c => p.1.criterion p.2 = .ok c) r.supplied cs := mapM_eq_ok_iff

/-- what can be told from a criterion can be told from its filter -/
theorem filterMap_criteria {r : Request} {cs : List Criterion} (h : r.criteria = .ok cs) {α : Type}
    {ofCriterion : Criterion → Option α} {ofFilter : Field → String → Option α}
    (heq : ∀ {f : Field} {value : String} {c : Criterion}, f.criterion value = .ok c → ofCriterion c = ofFilter f value) :
    cs.filterMap ofCriterion = r.supplied.filterMap fun p => ofFilter p.1 p.2 := by
  replace h := criteria_ok_iff.1 h
  generalize r.supplied = ps at h
  induction h with
  | nil => rfl
  | cons hc _ ih => rw [List.filterMap_cons, List.filterMap_cons, heq hc, ih]

theorem bindings_criteria {r : Request} {cs : List Criterion} (h : r.criteria = .ok cs) : bindings cs = r.lookups :=
  filterMap_criteria h binding?_criterion

theorem mem_supplied {r : Request} {f : Field} {value : String} :
    (f, value) ∈ r.supplied ↔ f ∈ Field.all ∧ r.value? f.name = some value := by
  simp [supplied, List.mem_filterMap]

/-- a dimension of a request goes by the name of its group -/
theorem dimension_ok {r : Request} {dimension : Option Dimension} (h : r.dimension = .ok dimension) :
    ∀ d ∈ dimension, ∃ name, r.group? = some name ∧ Dimension.grouping? name = some d := by
  intro d hd
  unfold Request.dimension at h
  split at h
  · cases h; cases hd
  · next name hn =>
    split at h <;> cases h
    next hg => cases hd; exact ⟨name, hn, hg⟩

theorem dimension_sound {r : Request} {dimension : Option Dimension} (h : r.dimension = .ok dimension) :
    ∀ d ∈ dimension, d.Sound := by
  intro d hd
  obtain ⟨name, -, hg⟩ := dimension_ok h d hd
  exact Dimension.grouping?_sound hg

/-- what is true of plain names and of the literals of the catalog is true of the words in a report -/
theorem forall_words {P : List Char → Prop} (hplain : ∀ w, ColumnName.isPlain w = true → P w)
    (hliterals : ∀ w ∈ Dimension.literals, P w) {r : Request} {dimension : Option Dimension}
    (h : r.dimension = .ok dimension) :
    (∀ l ∈ (dimension.map Dimension.labels).getD [], ∀ w ∈ l.words, P w) ∧
      ∀ k ∈ (dimension.map Dimension.keys).getD [], ∀ w ∈ k.words, P w := by
  cases dimension with
  | none => exact ⟨nofun, nofun⟩
  | some d =>
    obtain ⟨name, -, hg⟩ := dimension_ok h d rfl
    have hfield : ∀ f ∈ Field.all, ∀ w ∈ (Dimension.ofField f).words,
        ColumnName.isPlain w = true ∨ w ∈ Dimension.literals := by
      intro f _ w hw
      rw [Dimension.words_ofField, List.mem_singleton] at hw
      exact .inl (hw ▸ f.column.isPlain_name)
    have hwords : ∀ w ∈ d.words, P w := fun w hw =>
      (Dimension.forall_of_catalog Dimension.words_of_mem_all hfield hg w hw).elim (hplain w) (hliterals w)
    constructor
    · intro l hl w hw
      exact hwords w (List.mem_append_left _ (List.mem_flatMap.2 ⟨l, hl, hw⟩))
    · intro k hk w hw
      exact hwords w (List.mem_append_right _ (List.mem_flatMap.2 ⟨k, hk, hw⟩))

theorem arrangement_ok {r : Request} {arrangement : Option Arrangement} (h : r.arrangement = .ok arrangement) :
    ∀ a ∈ arrangement, ∃ raw, r.order? = some raw ∧ Order.read? raw.toList = some a.order := by
  intro a ha
  unfold Request.arrangement at h
  split at h
  · cases h; cases ha
  · next raw hr =>
    split at h <;> cases h
    next ho => cases ha; exact ⟨raw, hr, ho⟩

/-- the types of a simulation are asked for with its name -/
theorem exists_simName {r : Request} (hq : r.query = .simType) (h : r.missingFilter? = none) :
    ∃ name, r.value? Field.simName.name = some name := by
  rw [← Option.isSome_iff_exists, ← Option.ne_none_iff_isSome]
  intro hn
  simp [missingFilter?, hq, hn] at h

/-- the required filter of the simulation types is looked up -/
theorem simName_mem_lookups {r : Request} (hq : r.query = .simType) (h : r.missingFilter? = none) :
    ∃ b ∈ r.lookups, b.target = .simName := by
  obtain ⟨value, hv⟩ := exists_simName hq h
  have hs : (Field.simName, value) ∈ r.supplied := mem_supplied.2 ⟨by decide, hv⟩
  exact ⟨⟨_, .simName, value⟩, List.mem_filterMap.2 ⟨_, hs, rfl⟩, rfl⟩

theorem select_eq_tally {r : Request} {m : Measure} (h : r.query.measure? = some m) (cs : List Criterion)
    (dimension : Option Dimension) (arrangement : Option Arrangement) :
    r.select cs dimension arrangement = tally m r.query.key cs dimension arrangement := by rw [select, h]

theorem select_eq_simTypes {r : Request} (h : r.query = .simType) (cs : List Criterion) (dimension : Option Dimension)
    (arrangement : Option Arrangement) : r.select cs dimension arrangement = simTypes := by
  rw [select, h]
  rfl

/-- the variables that the statement of a report reads are bound by its lookups -/
theorem symbols_select {r : Request} {cs : List Criterion} {dimension : Option Dimension}
    {arrangement : Option Arrangement} (hd : r.dimension = .ok dimension) (hm : r.missingFilter? = none)
    (hc : r.criteria = .ok cs) :
    ∀ symbol ∈ Fragment.symbols ((r.select cs dimension arrangement).conditions.map Condition.fragment),
      ∃ b ∈ r.lookups, b.symbol = symbol := by
  intro symbol hs
  unfold select at hs
  cases hq : r.query with
  | simType =>
    simp only [hq, Query.measure?] at hs
    obtain rfl : symbol = "sid" := by
      simpa [simTypes, Fragment.symbols, Condition.fragment, Condition.reads?, NameTable.symbol] using hs
    obtain ⟨b, hb, ht⟩ := simName_mem_lookups hq hm
    exact ⟨b, hb, by rw [Binding.symbol, ht]; rfl⟩
  | messageCount | sessionCount =>
    simp only [hq, Query.measure?, symbols_tally _ _ _ _ (dimension_sound hd), bindings_criteria hc] at hs
    exact List.mem_map.1 hs

/-- no plan is refused for the variables that it reads -/
theorem compile_eq (r : Request) :
    r.compile =
      match r.unknownField? with
      | some field => .error (.badFilterField field)
      | none => do
        let dimension ← r.dimension
        let arrangement ← r.arrangement
        match r.missingFilter? with
        | some field => .error (.missingRequiredFilter r.query.key field.name)
        | none => do
          let cs ← r.criteria
          return ⟨r.lookups, r.query, r.select cs dimension arrangement⟩ := by
  unfold compile
  cases r.unknownField? with
  | some field => rfl
  | none =>
    cases hd : r.dimension with
    | error e => rfl
    | ok dimension =>
      cases r.arrangement with
      | error e => rfl
      | ok arrangement =>
        cases hm : r.missingFilter? with
        | some field => rfl
        | none =>
          cases hc : r.criteria with
          | error e => rfl
          | ok cs =>
            rw [← bindings_criteria hc]
            refine Plan.make_eq_ok fun symbol hs => ?_
            obtain ⟨b, hb, hbs⟩ := symbols_select hd hm hc symbol hs
            exact ⟨b, by rwa [← bindings_criteria hc] at hb, hbs⟩

/-- an accepted request, taken apart -/
theorem compile_ok_iff {r : Request} {plan : Plan Aggregate} :
    r.compile = .ok plan ↔ ∃ dimension arrangement cs,
      r.unknownField? = none ∧ r.dimension = .ok dimension ∧ r.arrangement = .ok arrangement ∧
        r.missingFilter? = none ∧ r.criteria = .ok cs ∧
          plan = ⟨r.lookups, r.query, r.select cs dimension arrangement⟩ := by
  rw [compile_eq]
  cases r.unknownField? <;> cases r.dimension <;> cases r.arrangement <;> cases r.missingFilter? <;>
    cases r.criteria <;> simp [bind, Except.bind, pure, Except.pure, eq_comm]

theorem isRejection_criterion {f : Field} {value : String} {e : ReportError} (h : f.criterion value = .error e) :
    e.isRejection := by
  unfold Field.criterion at h
  split at h
  · split at h <;> cases h
    rfl
  · cases h
  · cases h
  · split at h <;> cases h
    rfl

/-- a request that is not accepted is itself at fault -/
theorem isRejection_compile {r : Request} {e : ReportError} (h : r.compile = .error e) : e.isRejection := by
  rw [compile_eq] at h
  cases hu : r.unknownField? with
  | some field => rw [hu] at h; cases h; rfl
  | none =>
    simp only [hu] at h
    cases hd : r.dimension with
    | error d =>
      rw [hd] at h
      cases h
      unfold dimension at hd
      repeat' split at hd
      all_goals cases hd
      rfl
    | ok dimension =>
      cases ha : r.arrangement with
      | error a =>
        rw [hd, ha] at h
        cases h
        unfold arrangement at ha
        repeat' split at ha
        all_goals cases ha
        rfl
      | ok arrangement =>
        cases hm : r.missingFilter? with
        | some field => rw [hd, ha, hm] at h; cases h; rfl
        | none =>
          cases hc : r.criteria with
          | error c =>
            rw [hd, ha, hm, hc] at h
            cases h
            obtain ⟨-, p, -, -, -, hp⟩ := mapM_eq_error_iff.1 hc
            exact isRejection_criterion hp
          | ok cs => rw [hd, ha, hm, hc] at h; cases h

end Request

end LaunchReports
