/-
What an assembly has collected after any steps.

`ofHistory` reads the assembly off the steps: each condition in its section, each link and each table once, in the
order of first request, and the side tables that were touched. `run_eq` says that the steps lead there.

- `history_finish`: so the finished sections are told by the history alone. Side tables come last, each with one link
  and one join, unless the history has asked for these itself. A step asked for twice counts once, and it does not
  matter when a side table is touched.
-/
import LaunchReports.Proofs.Report.Compilation
import LaunchReports.Proofs.Text.Keys

namespace LaunchReports

/-! ## Items in the order of first request -/

section FirstRequests

variable {α : Type} [DecidableEq α]

/-- what was requested, in the order of first request, and behind it what else is implied -/
def withImplied (requested implied : List α) : List α := requested.eraseDups ++ implied.filter fun a => a ∉ requested

theorem eraseDups_of_nodup {l : List α} (h : l.Nodup) : l.eraseDups = l := by
  induction l with
  | nil => rfl
  | cons a l ih =>
    obtain ⟨ha, hl⟩ := List.nodup_cons.1 h
    have hkept : l.filter (fun b => !b == a) = l := by
      rw [List.filter_eq_self]
      intro b hb
      have hne : b ≠ a := fun e => ha (e ▸ hb)
      simpa using hne
    rw [List.eraseDups_cons, hkept, ih hl]

theorem eraseDups_append_nodup {requested implied : List α} (h : implied.Nodup) :
    (requested ++ implied).eraseDups = withImplied requested implied := by
  have hnew : implied.removeAll requested = implied.filter fun a => a ∉ requested := by
    refine List.filter_congr fun a _ => ?_
    simp
  rw [List.eraseDups_append, hnew, eraseDups_of_nodup (h.filter _), withImplied]

theorem eraseDups_append_subset {l m : List α} (h : ∀ a ∈ m, a ∈ l) (rest : List α) :
    (l ++ m ++ rest).eraseDups = (l ++ rest).eraseDups := by
  have hnone : m.removeAll l = [] := by
    rw [List.removeAll, List.filter_eq_nil_iff]
    simpa using h
  have hrest : rest.removeAll (l ++ m) = rest.removeAll l := by
    refine List.filter_congr fun a _ => ?_
    by_cases hl : a ∈ l
    · simp [hl]
    · have hm : a ∉ m := fun hm => hl (h a hm)
      simp [hl, hm]
  rw [List.eraseDups_append, List.eraseDups_append, List.eraseDups_append, hnone, hrest]
  simp

theorem eraseDups_repeat (before again middle after : List α) :
    (before ++ (again ++ (middle ++ (again ++ after)))).eraseDups =
      (before ++ (again ++ (middle ++ after))).eraseDups := by
  have hsubset : ∀ a ∈ again, a ∈ before ++ again ++ middle := by
    intro a ha
    simp [ha]
  have herase := eraseDups_append_subset hsubset after
  simpa only [List.append_assoc] using herase

theorem nodup_withImplied {requested implied : List α} (h : implied.Nodup) : (withImplied requested implied).Nodup := by
  rw [← eraseDups_append_nodup h]
  exact nodup_eraseDups _

theorem count_withImplied {requested implied : List α} (h : implied.Nodup) {a : α} (ha : a ∈ implied) :
    (withImplied requested implied).count a = 1 := by
  refine List.count_eq_one_of_mem (nodup_withImplied h) ?_
  rw [← eraseDups_append_nodup h, List.mem_eraseDups]
  exact List.mem_append_right _ ha

theorem eraseDups_map {β : Type} [DecidableEq β] {f : α → β} (hf : Function.Injective f) (l : List α) :
    (l.map f).eraseDups = l.eraseDups.map f := by
  induction hn : l.length using Nat.strong_induction_on generalizing l with
  | _ n ih =>
    cases l with
    | nil => rfl
    | cons a l =>
      have hfilter : (l.map f).filter (fun b => !b == f a) = (l.filter fun b => !b == a).map f := by
        rw [List.filter_map]
        congr 1
        refine List.filter_congr fun b _ => ?_
        simp [hf.eq_iff]
      rw [List.map_cons, List.eraseDups_cons, List.eraseDups_cons, hfilter, List.map_cons,
        ih _ (hn ▸ Nat.lt_succ_of_le (List.length_filter_le _ _)) _ rfl]

end FirstRequests

namespace Assembly

variable {κ τ : Type}

/-- items are added to the end of what was asked for before -/
theorem foldl_addNew_eraseDups {α : Type} [DecidableEq α] (news items : List α) :
    news.foldl (fun acc a => addNew a acc) items.eraseDups = (items ++ news).eraseDups := by
  have hone : ∀ (a : α) (items : List α), addNew a items.eraseDups = (items ++ [a]).eraseDups := by
    intro a items
    rw [eraseDups_append_nodup (List.nodup_singleton a)]
    by_cases ha : a ∈ items <;> simp [addNew, withImplied, ha]
  induction news generalizing items with
  | nil => simp
  | cons a news ih => rw [List.foldl_cons, hone, ih, List.append_assoc, List.singleton_append]

/-! ## What a step asks for -/

namespace Step

def direct? : Step κ τ → Option κ
  | direct c => some c
  | _ => none

def deferred? : Step κ τ → Option κ
  | deferred c => some c
  | _ => none

/-- the name tables that a step links to the columns that hold their ids -/
def nameLinks : Step κ τ → List NameLink
  | group name => ((Dimension.grouping? name).map Dimension.links).getD []
  | _ => []

/-- the links that a step asks for -/
def links (v : Vocabulary κ τ) : Step κ τ → List κ
  | linkage c => [c]
  | s => s.nameLinks.map fun l => v.condition l.condition

/-- the tables that a step asks for -/
def tables (v : Vocabulary κ τ) : Step κ τ → List τ
  | join t => [t]
  | s => s.nameLinks.map fun l => v.table (.names l.target)

/-- the side table that a step touches -/
def side? : Step κ τ → Option SideTable
  | touch s => some s
  | touchTable t => t.side?
  | group name => (Dimension.grouping? name).bind Dimension.side
  | _ => none

/-- the step brings a condition of its own -/
def IsCondition : Step κ τ → Prop
  | direct _ | deferred _ => True
  | _ => False

/-- the step only touches a side table -/
def IsTouch : Step κ τ → Prop
  | touch _ | touchTable _ => True
  | _ => False

theorem conditions_eq_none {s : Step κ τ} (h : ¬s.IsCondition) : s.direct? = none ∧ s.deferred? = none := by
  cases s with
  | direct | deferred => exact absurd trivial h
  | _ => exact ⟨rfl, rfl⟩

theorem requests_eq_nil {s : Step κ τ} (h : s.IsTouch) (v : Vocabulary κ τ) :
    s.direct? = none ∧ s.deferred? = none ∧ s.links v = [] ∧ s.tables v = [] := by
  cases s with
  | touch | touchTable => exact ⟨rfl, rfl, rfl, rfl⟩
  | _ => exact h.elim

end Step

/-- the side tables that the steps touch, in the order in which they come out -/
def touched (steps : List (Step κ τ)) : List SideTable :=
  SideTable.all.filter fun s => s ∈ steps.filterMap Step.side?

theorem nodup_touched (steps : List (Step κ τ)) : (touched steps).Nodup := List.Nodup.filter _ (by decide)

variable [DecidableEq κ] [DecidableEq τ] (v : Vocabulary κ τ)

/-- the assembly as its history tells it -/
def ofHistory (steps : List (Step κ τ)) : Assembly κ τ where
  direct := steps.filterMap Step.direct?
  deferred := steps.filterMap Step.deferred?
  linkage := (steps.flatMap (Step.links v)).eraseDups
  joins := (steps.flatMap (Step.tables v)).eraseDups
  flashTouched := decide (.flashInfo ∈ steps.filterMap Step.side?)
  javaTouched := decide (.javaInfo ∈ steps.filterMap Step.side?)

/-- what one step adds -/
theorem step_adds (a : Assembly κ τ) (s : Step κ τ) :
    step v a s =
      { direct := a.direct ++ s.direct?.toList
        deferred := a.deferred ++ s.deferred?.toList
        linkage := (s.links v).foldl (fun acc c => addNew c acc) a.linkage
        joins := (s.tables v).foldl (fun acc t => addNew t acc) a.joins
        flashTouched := a.flashTouched || s.side? = some .flashInfo
        javaTouched := a.javaTouched || s.side? = some .javaInfo } := by
  have htouch : ∀ side : SideTable, a.touch side =
      { a with
        flashTouched := a.flashTouched || decide (side = .flashInfo)
        javaTouched := a.javaTouched || decide (side = .javaInfo) } := by
    intro side
    cases side <;> simp [touch]
  cases s with
  | direct c =>
    simp [step, pushDirect, Step.direct?, Step.deferred?, Step.links, Step.tables, Step.nameLinks, Step.side?]
  | deferred c =>
    simp [step, pushDeferred, Step.direct?, Step.deferred?, Step.links, Step.tables, Step.nameLinks, Step.side?]
  | join t =>
    simp [step, requireJoin, Step.direct?, Step.deferred?, Step.links, Step.tables, Step.nameLinks, Step.side?]
  | linkage c =>
    simp [step, requireLinkage, Step.direct?, Step.deferred?, Step.links, Step.tables, Step.nameLinks, Step.side?]
  | touch side =>
    simp [step, htouch, Step.direct?, Step.deferred?, Step.links, Step.tables, Step.nameLinks, Step.side?]
  | touchTable t =>
    cases ht : t.side? <;>
      simp [step, touchTable, ht, htouch, Step.direct?, Step.deferred?, Step.links, Step.tables, Step.nameLinks,
        Step.side?]
  | group name =>
    cases hd : Dimension.grouping? name <;>
      simp [step, hd, group_adds, Step.direct?, Step.deferred?, Step.links, Step.tables, Step.nameLinks, Step.side?]

/-- one step takes a history to the longer one -/
theorem step_ofHistory (steps : List (Step κ τ)) (s : Step κ τ) :
    step v (ofHistory v steps) s = ofHistory v (steps ++ [s]) := by
  have hsingle : ∀ {β : Type} (f : Step κ τ → Option β), [s].filterMap f = (f s).toList := by
    intro β f
    cases h : f s <;> simp [h]
  rw [step_adds]
  simp [ofHistory, foldl_addNew_eraseDups, hsingle]

theorem run_eq (steps : List (Step κ τ)) : run v steps = ofHistory v steps := by
  induction steps using List.reverseRecOn with
  | nil => rfl
  | append_singleton steps s ih => rw [run, List.foldl_append, ← run, ih, ← step_ofHistory]; rfl

theorem sides_ofHistory (steps : List (Step κ τ)) : (ofHistory v steps).sides = touched steps := by
  refine List.filter_congr fun side _ => ?_
  cases side <;> rfl

/-- what is finished, as its history tells it -/
theorem finish_ofHistory (steps : List (Step κ τ)) :
    (ofHistory v steps).finish v =
      ⟨steps.filterMap Step.direct? ++ steps.filterMap Step.deferred? ++
          (steps.flatMap (Step.links v) ++ (touched steps).map fun s => v.condition (.belongs s)).eraseDups,
        (steps.flatMap (Step.tables v) ++ (touched steps).map fun s => v.table (.side s)).eraseDups⟩ := by
  simp only [finish, sides_ofHistory, foldl_attach]
  rw [ofHistory, foldl_addNew_eraseDups, foldl_addNew_eraseDups]

/-! ## Repeated and moved steps -/

/-- histories of the same steps lead to the same, where conditions, links and tables come in the same order -/
theorem ofHistory_congr {first second : List (Step κ τ)}
    (hdirect : first.filterMap Step.direct? = second.filterMap Step.direct?)
    (hdeferred : first.filterMap Step.deferred? = second.filterMap Step.deferred?)
    (hlinks : (first.flatMap (Step.links v)).eraseDups = (second.flatMap (Step.links v)).eraseDups)
    (htables : (first.flatMap (Step.tables v)).eraseDups = (second.flatMap (Step.tables v)).eraseDups)
    (hsteps : ∀ s, s ∈ first ↔ s ∈ second) : ofHistory v first = ofHistory v second := by
  have hsides : ∀ side, side ∈ first.filterMap Step.side? ↔ side ∈ second.filterMap Step.side? := by
    simp only [List.mem_filterMap, hsteps, implies_true]
  simp only [ofHistory, hdirect, hdeferred, hlinks, htables, hsides]

/-- asking once more changes nothing -/
theorem run_repeat {s : Step κ τ} (h : ¬s.IsCondition) (before middle after : List (Step κ τ)) :
    run v (before ++ s :: (middle ++ s :: after)) = run v (before ++ s :: (middle ++ after)) := by
  obtain ⟨hdirect, hdeferred⟩ := Step.conditions_eq_none h
  rw [run_eq, run_eq]
  apply ofHistory_congr
  · simp [List.filterMap_cons_none hdirect]
  · simp [List.filterMap_cons_none hdeferred]
  · simp only [List.flatMap_append, List.flatMap_cons]
    exact eraseDups_repeat _ _ _ _
  · simp only [List.flatMap_append, List.flatMap_cons]
    exact eraseDups_repeat _ _ _ _
  · intro t
    simp only [List.mem_append, List.mem_cons]
    tauto

/-- it does not matter when a side table is touched -/
theorem run_move {s : Step κ τ} (h : s.IsTouch) (before middle after : List (Step κ τ)) :
    run v (before ++ s :: (middle ++ after)) = run v (before ++ (middle ++ s :: after)) := by
  obtain ⟨hdirect, hdeferred, hlinks, htables⟩ := Step.requests_eq_nil h v
  rw [run_eq, run_eq]
  apply ofHistory_congr
  · simp [List.filterMap_cons_none hdirect]
  · simp [List.filterMap_cons_none hdeferred]
  · simp [hlinks]
  · simp [htables]
  · intro t
    simp only [List.mem_append, List.mem_cons]
    tauto

/-! ## Texts -/

/-- the links that a step asks for, as texts -/
def Step.linkTexts : Step Fragment String → List String
  | linkage c => [c.sql]
  | s => s.nameLinks.map fun l => l.condition.sql

/-- the links that are asked for outright are texts, without parameters and variables -/
def Textual (steps : List (Step Fragment String)) : Prop := ∀ c, .linkage c ∈ steps → c = .plain c.sql

/-- the links that come out, each once -/
def linkSection (steps : List (Step Fragment String)) : List String :=
  withImplied (steps.flatMap Step.linkTexts) ((touched steps).map fun s => (Condition.belongs s).sql)

/-- the joins that come out, each once -/
def joinSection (steps : List (Step Fragment String)) : List String :=
  withImplied (steps.flatMap (Step.tables .text)) ((touched steps).map fun s => (Table.side s).name)

variable {steps : List (Step Fragment String)}

theorem links_text (h : Textual steps) :
    steps.flatMap (Step.links .text) = (steps.flatMap Step.linkTexts).map .plain := by
  rw [List.map_flatMap]
  refine List.flatMap_congr fun s hs => ?_
  cases s with
  | linkage c => exact congrArg (fun c => [c]) (h c hs)
  | group name =>
    simp only [Step.links, Step.linkTexts, List.map_map]
    rfl
  | _ => rfl

theorem nodup_belongs (steps : List (Step Fragment String)) :
    ((touched steps).map fun s => (Condition.belongs s).sql).Nodup := by
  refine (nodup_touched steps).map fun s t h => ?_
  revert h
  cases s <;> cases t <;> decide

theorem nodup_sideNames (steps : List (Step Fragment String)) :
    ((touched steps).map fun s => (Table.side s).name).Nodup := by
  refine (nodup_touched steps).map fun s t h => ?_
  revert h
  cases s <;> cases t <;> decide

theorem finish_text (h : Textual steps) :
    (run .text steps).finish .text =
      ⟨steps.filterMap Step.direct? ++ steps.filterMap Step.deferred? ++ (linkSection steps).map .plain,
        joinSection steps⟩ := by
  have hplain : Function.Injective Fragment.plain := fun a b e => congrArg Fragment.sql e
  have himplied : (touched steps).map (fun s => Vocabulary.text.condition (.belongs s)) =
      ((touched steps).map fun s => (Condition.belongs s).sql).map .plain := by
    rw [List.map_map]
    rfl
  rw [run_eq, finish_ofHistory, links_text h, himplied, ← List.map_append, eraseDups_map hplain,
    eraseDups_append_nodup (nodup_belongs steps), ← linkSection]
  congr 1
  exact eraseDups_append_nodup (nodup_sideNames steps)

/-- **What an assembly has collected.** -/
theorem history_finish (h : Textual steps) :
    let directs := steps.filterMap Step.direct?
    let deferreds := steps.filterMap Step.deferred?
    let done := (run .text steps).finish .text
    (done.conditions = directs ++ deferreds ++ (linkSection steps).map .plain ∧ done.joins = joinSection steps) ∧
    ((linkSection steps).Nodup ∧ (joinSection steps).Nodup ∧ ∀ s ∈ touched steps,
      (linkSection steps).count (Condition.belongs s).sql = 1 ∧ (joinSection steps).count (Table.side s).name = 1) ∧
    (Fragment.allParams done.conditions = Fragment.allParams directs ++ Fragment.allParams deferreds ∧
      Fragment.symbols done.conditions = Fragment.symbols directs ++ Fragment.symbols deferreds) ∧
    (∀ s : Step Fragment String, ¬s.IsCondition → ∀ before middle after,
      run .text (before ++ s :: (middle ++ s :: after)) = run .text (before ++ s :: (middle ++ after))) ∧
    (∀ s : Step Fragment String, s.IsTouch → ∀ before middle after,
      run .text (before ++ s :: (middle ++ after)) = run .text (before ++ (middle ++ s :: after))) ∧
    ∀ name, Dimension.named? name = none → Field.named? name = none →
      ∀ a : Assembly Fragment String, step .text a (.group name) = a := by
  intro directs deferreds done
  have hdone : done = ⟨directs ++ deferreds ++ (linkSection steps).map .plain, joinSection steps⟩ := finish_text h
  have hparams : Fragment.allParams ((linkSection steps).map .plain) = [] := by
    simp [Fragment.allParams, Fragment.plain]
  have hsymbols : Fragment.symbols ((linkSection steps).map .plain) = [] := by
    simp [Fragment.symbols, Fragment.plain]
  rw [hdone]
  refine ⟨⟨rfl, rfl⟩, ⟨nodup_withImplied (nodup_belongs steps), nodup_withImplied (nodup_sideNames steps), ?_⟩,
    ⟨?_, ?_⟩, fun s hs => run_repeat .text hs, fun s hs => run_move .text hs, ?_⟩
  · intro s hs
    exact ⟨count_withImplied (nodup_belongs steps) (List.mem_map_of_mem hs),
      count_withImplied (nodup_sideNames steps) (List.mem_map_of_mem hs)⟩
  · rw [Fragment.allParams, List.flatMap_append, List.flatMap_append, ← Fragment.allParams, ← Fragment.allParams,
      ← Fragment.allParams, hparams, List.append_nil]
  · rw [Fragment.symbols, List.filterMap_append, List.filterMap_append, ← Fragment.symbols, ← Fragment.symbols,
      ← Fragment.symbols, hsymbols, List.append_nil]
  · intro name hdimension hfield a
    have hunknown : Dimension.grouping? name = none := by
      rw [Dimension.grouping?, hdimension, hfield]
      rfl
    rw [step, hunknown]

/-- links and joins asked for before, behind and instead of what touches and groups imply -/
def sampleSteps : List (Step Fragment String) :=
  [.touchTable (.side .javaInfo), .deferred ⟨"session.sim_name = @sid", [], some "sid"⟩,
    .linkage (.plain "session.id = session_flash_info.session_id"), .join "session_java_info",
    .group "host_flash_os", .group "nowhere", .join "deployment", .direct ⟨"session.sim_dev = ?", [.integer 1], none⟩,
    .touch .flashInfo, .linkage (.plain "session.id = session_flash_info.session_id"), .join "flash_os"]

theorem history_finish_sample :
    Textual sampleSteps ∧
      ((run .text sampleSteps).finish .text).conditions.map Fragment.sql =
        ["session.sim_dev = ?", "session.sim_name = @sid", "session.id = session_flash_info.session_id",
          "session_flash_info.host_flash_os = flash_os.id", "session.id = session_java_info.session_id"] ∧
      ((run .text sampleSteps).finish .text).joins =
        ["session_java_info", "flash_os", "deployment", "session_flash_info"] := by
  have htextual : Textual sampleSteps := by
    intro c hc
    simp only [sampleSteps, List.mem_cons, reduceCtorEq, false_or, Step.linkage.injEq, List.not_mem_nil, or_false] at hc
    rcases hc with rfl | rfl <;> rfl
  obtain ⟨⟨hconditions, hjoins⟩, -⟩ := history_finish htextual
  refine ⟨htextual, ?_, ?_⟩
  · rw [hconditions]
    decide
  · rw [hjoins]
    decide

end Assembly

end LaunchReports
