/-
What running a plan on a stored database yields.

The lookups set one variable each, to the id of its name or to `NULL`; the aggregate is evaluated with these variables.
`send_stored` follows the steps, `run_stored` says what becomes of a request: the answer of its aggregate, or its error
at the place of the aggregate, and the lookups whose names are in no row.
-/
import LaunchReports.Proofs.Report.VariableLifetime
import LaunchReports.Proofs.Store.Isolation

namespace LaunchReports

/-- the lookups whose names are in no row of their tables -/
def Store.unmatched (s : Store) (bs : List Binding) : List UnmatchedLookup :=
  (bs.filter fun b : Binding => ∀ row ∈ (s.names.get b.target).rows, row.name ≠ b.name).map fun b =>
    ⟨b.column.name, b.symbol, b.name⟩

theorem Names.id?_eq_none_iff {n : Names} {name : String} : n.id? name = none ↔ ∀ row ∈ n.rows, row.name ≠ name := by
  simp [id?]

namespace Attached

/-! ## Variables -/

/-- the variables after these lookups -/
def assigned (s : Store) (v : Variables) (bs : List Binding) : Variables :=
  bs.foldl (fun v b => v.insert b.symbol (lookup s b)) v

theorem value_assigned_of_not_mem (s : Store) (v : Variables) {bs : List Binding} {t : NameTable}
    (h : t ∉ bs.map Binding.target) : (assigned s v bs).value t = v.value t := by
  induction bs generalizing v with
  | nil => rfl
  | cons c bs ih =>
    rw [List.map_cons, List.mem_cons, not_or] at h
    calc (assigned s v (c :: bs)).value t
        = Variables.value (v.insert c.symbol (lookup s c)) t := ih _ h.2
      _ = v.value t := by rw [Binding.symbol, value_insert, if_neg h.1]

/-- a variable holds the id of the name that was looked up -/
theorem value_assigned (s : Store) (v : Variables) {bs : List Binding} (h : (bs.map Binding.target).Nodup)
    {b : Binding} (hb : b ∈ bs) : (assigned s v bs).value b.target = lookup s b := by
  induction bs generalizing v with
  | nil => cases hb
  | cons c bs ih =>
    obtain ⟨hc, hrest⟩ := List.nodup_cons.1 h
    rcases List.mem_cons.1 hb with rfl | hb
    · calc (assigned s v (b :: bs)).value b.target
          = Variables.value (v.insert b.symbol (lookup s b)) b.target := value_assigned_of_not_mem s _ hc
        _ = lookup s b := by rw [Binding.symbol, value_insert, if_pos rfl]
    · exact ih _ hrest hb

/-! ## Runs -/

/-- how a plan ends with the answer to its aggregate -/
def finished (executed : Nat) (unmatched : List UnmatchedLookup) :
    Except DatabaseError ResultSet → Except ReportError Progress
  | .ok answer => .ok ⟨executed + 1, answer, unmatched⟩
  | .error e => .error (.statementExecution executed e)

theorem send_aggregate (s : Store) (bound : Option Variables) (g : Aggregate) (p : Progress) :
    (Connection.send answer p ⟨.stored s, bound⟩ [.aggregate g]).1 =
      finished p.executed p.unmatched (Attached.select ⟨.stored s, bound⟩ g.select) := by
  have hanswer : answer (.aggregate g) ⟨.stored s, bound⟩ =
      (Attached.select ⟨.stored s, bound⟩ g.select, ⟨.stored s, bound⟩) := rfl
  rw [Connection.send]
  simp only [hanswer]
  cases Attached.select ⟨.stored s, bound⟩ g.select with
  | error e => rfl
  | ok r => simp [Connection.send, finished, Progress.answered, Step.unmatched?]

theorem send_stored (s : Store) (v : Variables) (bs : List Binding) (g : Aggregate) (p : Progress) :
    (Connection.send answer p ⟨.stored s, some v⟩ (bs.map .bind ++ [.aggregate g])).1 =
      finished (p.executed + bs.length) (p.unmatched ++ s.unmatched bs)
        (Attached.select ⟨.stored s, some (assigned s v bs)⟩ g.select) := by
  induction bs generalizing v p with
  | nil => simpa [Store.unmatched, assigned] using send_aggregate s (some v) g p
  | cons b bs ih =>
    rw [List.map_cons, List.cons_append, Connection.send]
    have hanswer : answer (.bind b) ⟨.stored s, some v⟩ =
        (.ok ⟨["value"], [[lookup s b]]⟩, ⟨.stored s, some (v.insert b.symbol (lookup s b))⟩) := rfl
    have hunmatched : s.unmatched (b :: bs) =
        (Step.unmatched? (α := Aggregate) ⟨["value"], [[lookup s b]]⟩ (.bind b)).toList ++ s.unmatched bs := by
      simp only [Store.unmatched, ← Names.id?_eq_none_iff]
      cases hid : (s.names.get b.target).id? b.name <;>
        simp [Step.unmatched?, ResultSet.single?, lookup, Value.ofInteger?, hid]
    simp only [hanswer]
    rw [ih, hunmatched, Progress.answered, List.append_assoc, List.length_cons, Nat.add_right_comm, Nat.add_assoc]
    rfl

/-- the answer of a statement that can be read -/
def evaluated (s : Store) (v : Variables) (q : Select) : Except DatabaseError ResultSet :=
  match q.unreadable? with
  | some e => .error e
  | none => q.evaluate s v

theorem select_stored (s : Store) (v : Variables) (q : Select) :
    Attached.select ⟨.stored s, some v⟩ q = evaluated s v q := by
  unfold Attached.select evaluated
  cases q.unreadable? <;> rfl

/-- what becomes of an accepted request -/
theorem run_stored {r : Request} {p : Plan Aggregate} (h : r.compile = .ok p) (s : Store)
    (leftover : Option Variables) :
    ∃ v : Variables, (∀ b ∈ p.bindings, v.value b.target = lookup s b) ∧
      (r.run answer ⟨.stored s, leftover⟩).1 =
        match evaluated s v p.aggregate.select with
        | .ok answer => .ok ⟨answer, p.size, s.unmatched p.bindings⟩
        | .error e => .error (.statementExecution (p.size - 1) e) := by
  -- the variables that were left over do not matter, so let there be some
  have hbound : (r.run answer ⟨.stored s, leftover⟩).1 = (r.run answer ⟨.stored s, some Keyed.empty⟩).1 :=
    run_congr (a := ⟨.stored s, leftover⟩) (b := ⟨.stored s, some Keyed.empty⟩) rfl r
  have hnodup : (p.bindings.map Binding.target).Nodup := by
    obtain ⟨_, _, _, -, -, -, -, -, rfl⟩ := Request.compile_ok_iff.1 h
    exact r.targets_sublist.nodup Field.nameTables_nodup
  refine ⟨assigned s Keyed.empty p.bindings, fun b hb => value_assigned s _ hnodup hb, ?_⟩
  have hsend : (Connection.send answer .start ⟨.stored s, some Keyed.empty⟩ p.steps).1 =
      finished (p.size - 1) (s.unmatched p.bindings)
        (evaluated s (assigned s Keyed.empty p.bindings) p.aggregate.select) := by
    rw [← select_stored, Plan.steps, Plan.size, Plan.preparatory]
    cases hbs : p.bindings with
    | nil => exact send_aggregate s _ p.aggregate .start
    | cons b bs =>
      rw [if_neg (by simp), List.cons_append, Connection.send]
      have hdeclare : answer .declare ⟨.stored s, some Keyed.empty⟩ = (.ok .empty, ⟨.stored s, some Keyed.empty⟩) := rfl
      simp only [hdeclare]
      rw [send_stored]
      simp [Progress.answered, Progress.start, Step.unmatched?, Nat.add_comm]
  rw [hbound, Request.run, h]
  simp only [Plan.execute]
  rcases hs : Connection.send answer .start ⟨.stored s, some Keyed.empty⟩ p.steps with ⟨x, b⟩
  rw [hs] at hsend
  cases hsend
  cases evaluated s (assigned s Keyed.empty p.bindings) p.aggregate.select with
  | ok a => simp [Progress.outcome, Plan.size]
  | error e => rfl

end Attached

end LaunchReports
