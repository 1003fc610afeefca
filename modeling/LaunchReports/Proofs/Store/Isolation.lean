/-
Reports do not see the variables that earlier reports left behind.

- `run_isolated`: on a connection with any leftover variables a request is answered as on a fresh connection to the same
  database, with the same result or the same error at the same place; so is each request of a sequence on one
  connection, and none of them changes the database.

Two runs are compared step by step. `Agree` relates two connections to one database whose variables are the same for the
name tables looked up so far; `Agree.bind` adds a table to them, also when the name is in no row and `NULL` takes the
place of what was there. The aggregate reads no others (`Request.reads_bound`), and what it yields depends on nothing
else (`Select.evaluate_congr`).
-/
import LaunchReports.Proofs.Report.Compilation
import LaunchReports.Store.Connection

namespace LaunchReports

variable {v w : Variables}

/-! ## What a result depends on -/

theorem Condition.holds_congr {c : Condition} (h : ∀ t, c.reads? = some t → v.value t = w.value t) (row : Row) :
    c.holds v row = c.holds w row := by
  cases c with
  | refersTo column target => rw [holds, holds, truth, truth, h target rfl]
  | isOfType t => cases t <;> rfl
  | compares | equates => rfl

namespace Select

/-- the same values in the variables that the conditions read -/
def SameReads (s : Select) (v w : Variables) : Prop :=
  ∀ c ∈ s.conditions, ∀ t, c.reads? = some t → v.value t = w.value t

variable {s : Select}

theorem joinTable_congr (h : s.SameReads v w) (store : Store) (seen : List Table) (rows : List Row) (t : Table) :
    s.joinTable store v seen rows t = s.joinTable store w seen rows t := by
  have hholds : ∀ row, (s.ready (t :: seen)).all (Condition.holds v row) =
      (s.ready (t :: seen)).all (Condition.holds w row) := by
    intro row
    rw [Bool.eq_iff_iff, List.all_eq_true, List.all_eq_true]
    refine forall₂_congr fun c hc => ?_
    rw [Condition.holds_congr (h c (List.mem_of_mem_filter hc))]
  simp only [joinTable, hholds]

theorem joinTables_congr (h : s.SameReads v w) (store : Store) (tables seen : List Table) (rows : List Row) :
    s.joinTables store v seen rows tables = s.joinTables store w seen rows tables := by
  induction tables generalizing seen rows with
  | nil => rfl
  | cons t rest ih => rw [joinTables, joinTables, joinTable_congr h, ih]

theorem evaluate_congr (h : s.SameReads v w) (store : Store) : s.evaluate store v = s.evaluate store w := by
  rw [evaluate, evaluate, matching, matching, joinTables_congr h]

end Select

/-! ## Two connections -/

namespace Attached

/-- connections to one database, with the same variables for these name tables -/
structure Agree (tables : List NameTable) (a b : Attached) : Prop where
  database : a.database = b.database
  values : ∃ v w, a.bound = some v ∧ b.bound = some w ∧ ∀ t ∈ tables, v.value t = w.value t

theorem agree_declare {a b : Attached} (h : a.database = b.database) : Agree [] a.declare b.declare :=
  ⟨h, _, _, rfl, rfl, fun _ ht => nomatch ht⟩

theorem value_insert (v : Variables) (t u : NameTable) (value : Value) :
    Variables.value (v.insert t.symbol value) u = if u = t then value else v.value u := by
  rw [Variables.value, Keyed.get?_insert]
  by_cases h : u = t
  · rw [if_pos h, if_pos (congrArg NameTable.symbol h)]
    rfl
  · rw [if_neg h, if_neg fun e => h (NameTable.symbol_injective e)]
    rfl

/-- a lookup gets the same answer on both, and its variable becomes the same -/
theorem Agree.bind {tables : List NameTable} {a b : Attached} (h : Agree tables a b) (c : Binding) :
    (a.bind c).1 = (b.bind c).1 ∧
      ∀ answer, (a.bind c).1 = .ok answer → Agree (c.target :: tables) (a.bind c).2 (b.bind c).2 := by
  obtain ⟨hdatabase, v, w, hv, hw, hagree⟩ := h
  unfold Attached.bind
  rw [hv, hw, ← hdatabase]
  cases hs : a.database.store? with
  | none => exact ⟨rfl, fun _ h => nomatch h⟩
  | some s =>
    refine ⟨rfl, fun _ _ => ⟨rfl, _, _, rfl, rfl, fun t ht => ?_⟩⟩
    rw [Binding.symbol, value_insert, value_insert]
    by_cases hc : t = c.target
    · rw [if_pos hc, if_pos hc]
    · rw [if_neg hc, if_neg hc]
      exact hagree t ((List.mem_cons.1 ht).resolve_left hc)

/-- the conditions of the aggregate read variables of these name tables only -/
def ReadsOnly (tables : List NameTable) (g : Aggregate) : Prop :=
  ∀ c ∈ g.select.conditions, ∀ t, c.reads? = some t → t ∈ tables

theorem Agree.select {tables : List NameTable} {a b : Attached} (h : Agree tables a b) {g : Aggregate}
    (hg : ReadsOnly tables g) : a.select g.select = b.select g.select := by
  obtain ⟨hdatabase, v, w, hv, hw, hagree⟩ := h
  have hsame : g.select.SameReads v w := fun c hc t ht => hagree t (hg c hc t ht)
  unfold Attached.select
  rw [hv, hw, ← hdatabase]
  simp only [Option.getD_some, Select.evaluate_congr hsame]

/-- an aggregate without variables needs no declaration -/
theorem select_congr {a b : Attached} (h : a.database = b.database) {g : Aggregate} (hg : ReadsOnly [] g) :
    a.select g.select = b.select g.select := by
  have hnone : (g.select.conditions.any fun c => c.reads?.isSome) = false := by
    rw [List.any_eq_false]
    intro c hc hs
    obtain ⟨t, ht⟩ := Option.isSome_iff_exists.1 hs
    cases hg c hc t ht
  have hsame : ∀ v w, g.select.SameReads v w := fun v w c hc t ht => nomatch hg c hc t ht
  unfold Attached.select
  rw [hnone, h]
  cases a.bound <;> cases b.bound <;> simp only [Select.evaluate_congr (hsame _ Keyed.empty)]

/-! ## Two runs -/

/-- a file that cannot be used gives its reason, any other answers by its step -/
theorem answer_eq (c : Step Aggregate) (a : Attached) :
    answer c a =
      match a.database with
      | .unusable reason => (.error reason, a)
      | _ =>
        match c with
        | .declare => (.ok .empty, a.declare)
        | .bind b => a.bind b
        | .aggregate g => (a.select g.select, a) := by
  unfold answer
  cases a.database <;> cases c <;> rfl

theorem answer_aggregate_congr {a b : Attached} (h : a.database = b.database) {g : Aggregate}
    (hs : a.select g.select = b.select g.select) : (answer (.aggregate g) a).1 = (answer (.aggregate g) b).1 := by
  rw [answer_eq, answer_eq, ← h]
  cases a.database with
  | unusable reason => rfl
  | schemaless | stored s => exact hs

/-- where the declaration goes through, nothing that was left over counts any more -/
theorem answer_declare_congr {a b : Attached} (h : a.database = b.database) :
    (answer .declare a).1 = (answer .declare b).1 ∧
      ∀ r, (answer .declare a).1 = .ok r → Agree [] (answer .declare a).2 (answer .declare b).2 := by
  rw [answer_eq, answer_eq, ← h]
  cases hdb : a.database with
  | unusable reason => exact ⟨rfl, fun _ hr => nomatch hr⟩
  | schemaless | stored s => exact ⟨rfl, fun _ _ => agree_declare h⟩

theorem Agree.answer_bind {tables : List NameTable} {a b : Attached} (h : Agree tables a b) (c : Binding) :
    (answer (.bind c) a).1 = (answer (.bind c) b).1 ∧
      ∀ r, (answer (.bind c) a).1 = .ok r → Agree (c.target :: tables) (answer (.bind c) a).2 (answer (.bind c) b).2 := by
  rw [answer_eq, answer_eq, ← h.database]
  cases hdb : a.database with
  | unusable reason => exact ⟨rfl, fun _ hr => nomatch hr⟩
  | schemaless | stored s => exact h.bind c

/-- a step with the same answer on both, and the rest of the run after it -/
theorem send_cons_congr {c : Step Aggregate} {a b : Attached} (h : (answer c a).1 = (answer c b).1)
    {rest : List (Step Aggregate)}
    (hrest : ∀ r, (answer c a).1 = .ok r → ∀ p,
      (Connection.send answer p (answer c a).2 rest).1 = (Connection.send answer p (answer c b).2 rest).1)
    (p : Progress) :
    (Connection.send answer p a (c :: rest)).1 = (Connection.send answer p b (c :: rest)).1 := by
  rw [Connection.send, Connection.send]
  rcases ha : answer c a with ⟨x, a'⟩
  rcases hb : answer c b with ⟨y, b'⟩
  rw [ha, hb] at h hrest
  cases h
  cases x with
  | error e => rfl
  | ok r => exact hrest r rfl _

/-- a run that is over with the aggregate -/
theorem send_aggregate_congr {a b : Attached} (h : a.database = b.database) {g : Aggregate}
    (hs : a.select g.select = b.select g.select) (p : Progress) :
    (Connection.send answer p a [.aggregate g]).1 = (Connection.send answer p b [.aggregate g]).1 := by
  apply send_cons_congr (answer_aggregate_congr h hs)
  intro _ _ _
  rfl

/-- the lookups and the aggregate of a plan go the same way on both -/
theorem Agree.send {tables : List NameTable} {a b : Attached} (h : Agree tables a b) {g : Aggregate}
    {bs : List Binding} (hg : ReadsOnly (bs.map Binding.target ++ tables) g) (p : Progress) :
    (Connection.send answer p a (bs.map .bind ++ [.aggregate g])).1 =
      (Connection.send answer p b (bs.map .bind ++ [.aggregate g])).1 := by
  induction bs generalizing tables a b p with
  | nil => exact send_aggregate_congr h.database (h.select hg) p
  | cons c bs ih =>
    have hrest : ReadsOnly (bs.map Binding.target ++ c.target :: tables) g := by
      intro d hd t ht
      have := hg d hd t ht
      simp only [List.map_cons, List.cons_append, List.mem_cons, List.mem_append] at this ⊢
      tauto
    obtain ⟨hfirst, hnext⟩ := h.answer_bind c
    exact send_cons_congr hfirst (fun r hr => ih (hnext r hr) hrest) p

/-- a whole plan goes the same way, whatever the variables were before -/
theorem execute_congr {a b : Attached} (h : a.database = b.database) {p : Plan Aggregate}
    (hp : ReadsOnly (p.bindings.map Binding.target) p.aggregate) :
    (p.execute answer a).1 = (p.execute answer b).1 := by
  have hsend : (Connection.send answer .start a p.steps).1 = (Connection.send answer .start b p.steps).1 := by
    rw [Plan.steps, Plan.preparatory]
    cases hbs : p.bindings with
    | nil =>
      rw [hbs] at hp
      exact send_aggregate_congr h (select_congr h hp) .start
    | cons c bs =>
      rw [hbs] at hp
      obtain ⟨hdeclare, hnext⟩ := answer_declare_congr h
      refine send_cons_congr hdeclare (fun r hr => (hnext r hr).send ?_) .start
      rwa [List.append_nil]
  unfold Plan.execute
  rcases ha : Connection.send answer .start a p.steps with ⟨x, a'⟩
  rcases hb : Connection.send answer .start b p.steps with ⟨y, b'⟩
  rw [ha, hb] at hsend
  cases hsend
  cases x <;> rfl

/-! ## What stays -/

theorem bind_database (a : Attached) (b : Binding) : (a.bind b).2.database = a.database := by
  unfold Attached.bind
  split <;> rfl

theorem answer_database (c : Step Aggregate) (a : Attached) : (answer c a).2.database = a.database := by
  rw [answer_eq]
  cases hdb : a.database with
  | unusable reason => exact hdb
  | schemaless | stored s =>
    cases c with
    | declare | aggregate g => exact hdb
    | bind b => exact (bind_database a b).trans hdb

theorem send_database (steps : List (Step Aggregate)) (p : Progress) (a : Attached) :
    (Connection.send answer p a steps).2.database = a.database := by
  induction steps generalizing p a with
  | nil => rfl
  | cons c rest ih =>
    rw [Connection.send, ← answer_database c a]
    split
    next t h => rw [h]
    next r t h => rw [h]; exact ih _ t

theorem run_database (r : Request) (a : Attached) : (r.run answer a).2.database = a.database := by
  rw [Request.run]
  split
  · rfl
  · next plan _ =>
    rw [Plan.execute, ← send_database plan.steps .start a]
    split <;> next h => rw [h]

/-! ## Requests -/

/-- what the aggregate of a compiled request reads is looked up before -/
theorem reads_bound {r : Request} {p : Plan Aggregate} (h : r.compile = .ok p) :
    ReadsOnly (p.bindings.map Binding.target) p.aggregate := by
  obtain ⟨dimension, arrangement, cs, -, hd, -, hm, hc, rfl⟩ := Request.compile_ok_iff.1 h
  intro c hcond t ht
  have hread : t.symbol ∈ Fragment.symbols ((r.select cs dimension arrangement).conditions.map Condition.fragment) :=
    List.mem_filterMap.2 ⟨_, List.mem_map_of_mem hcond, by rw [Condition.fragment, ht]; rfl⟩
  obtain ⟨b, hb, hsymbol⟩ := Request.symbols_select hd hm hc _ hread
  exact List.mem_map.2 ⟨b, hb, NameTable.symbol_injective hsymbol⟩

theorem run_congr {a b : Attached} (h : a.database = b.database) (r : Request) :
    (r.run answer a).1 = (r.run answer b).1 := by
  rw [Request.run, Request.run]
  cases hc : r.compile with
  | error e => rfl
  | ok p => exact execute_congr h (reads_bound hc)

/-- answers requests one after another on one connection -/
def serve : List Request → Attached → List (Except ReportError Outcome) × Attached
  | [], a => ([], a)
  | r :: rest, a =>
    let (outcome, b) := r.run answer a
    let (outcomes, c) := serve rest b
    (outcome :: outcomes, c)

theorem serve_eq (rs : List Request) {a : Attached} {d : Database} (h : a.database = d) :
    (serve rs a).1 = rs.map (fun r => (r.run answer (.ofDatabase d)).1) ∧ (serve rs a).2.database = d := by
  induction rs generalizing a with
  | nil => exact ⟨rfl, h⟩
  | cons r rest ih =>
    obtain ⟨houtcomes, hdatabase⟩ := ih ((run_database r a).trans h)
    refine ⟨?_, hdatabase⟩
    show (r.run answer a).1 :: (serve rest (r.run answer a).2).1 = _
    rw [houtcomes, run_congr (b := .ofDatabase d) h, List.map_cons]

/-- **No report sees the variables of another.** -/
theorem run_isolated (d : Database) (leftover : Option Variables) :
    (∀ r : Request,
      (r.run answer ⟨d, leftover⟩).1 = (r.run answer (.ofDatabase d)).1 ∧
        (r.run answer ⟨d, leftover⟩).2.database = d) ∧
      ∀ rs : List Request,
        (serve rs ⟨d, leftover⟩).1 = rs.map (fun r => (r.run answer (.ofDatabase d)).1) ∧
          (serve rs ⟨d, leftover⟩).2.database = d :=
  ⟨fun r => ⟨run_congr (a := ⟨d, leftover⟩) (b := .ofDatabase d) rfl r, run_database r _⟩, fun rs => serve_eq rs rfl⟩

end Attached

end LaunchReports
