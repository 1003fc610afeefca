/-
Which plan the lookups of a report make.

A `Builder` puts a plan together one lookup after another. It writes the declaration when it has no statement yet, and
keeps beside its statements the set of the variables that are bound. `Builder.Agrees` is the invariant that holds the
two together, `Builder.agrees_run` carries it through any lookups.

- `make_bindings`: the builder comes to what `Plan.make` says. A plan is refused exactly for the first variable that is
  read and that no lookup binds. Otherwise it has the declaration, if there is a lookup, then one statement a lookup,
  and the aggregate is the last; the place of a variable is the first statement that binds it.
-/
import Mathlib.Data.Finset.Insert
import LaunchReports.Report.Plan

namespace LaunchReports.Plan

variable {α : Type}

/-! ## Variables -/

/-- one of the lookups binds the variable -/
def Binds (bs : List Binding) (symbol : String) : Prop := ∃ b ∈ bs, b.symbol = symbol

theorem binds_append_singleton {bs : List Binding} {b : Binding} {symbol : String} :
    Binds (bs ++ [b]) symbol ↔ symbol = b.symbol ∨ Binds bs symbol := by
  constructor
  · rintro ⟨c, hc, rfl⟩
    rcases List.mem_append.1 hc with hc | hc
    · exact .inr ⟨c, hc, rfl⟩
    · exact .inl (by rw [List.mem_singleton.1 hc])
  · rintro (rfl | ⟨c, hc, rfl⟩)
    · exact ⟨b, List.mem_append_right bs (List.mem_singleton_self b), rfl⟩
    · exact ⟨c, List.mem_append_left [b] hc, rfl⟩

/-- the variable is the first that is read and not bound -/
def FirstUnbound (bs : List Binding) (reads : List String) (symbol : String) : Prop :=
  ∃ before after, reads = before ++ symbol :: after ∧ (∀ s ∈ before, Binds bs s) ∧ ¬Binds bs symbol

theorem find?_eq_some_iff_firstUnbound {bs : List Binding} {reads : List String} {symbol : String} :
    reads.find? (fun s => !(bs.any fun b => b.symbol = s)) = some symbol ↔ FirstUnbound bs reads symbol := by
  have hbinds : ∀ s, (bs.any fun b => b.symbol = s) = true ↔ Binds bs s := fun s => by simp [Binds]
  simp only [List.find?_eq_some_iff_append, Bool.not_eq_true', Bool.not_not, ← Bool.not_eq_true, hbinds, FirstUnbound]
  constructor
  · rintro ⟨hunbound, before, after, hreads, hbefore⟩
    exact ⟨before, after, hreads, hbefore, hunbound⟩
  · rintro ⟨before, after, hreads, hbefore, hunbound⟩
    exact ⟨hunbound, before, after, hreads, hbefore⟩

theorem make_eq_ok {bs : List Binding} {a : α} {reads : List String} (h : ∀ symbol ∈ reads, Binds bs symbol) :
    make bs a reads = .ok ⟨bs, a⟩ := by
  have hnone : reads.find? (fun symbol => !(bs.any fun b => b.symbol = symbol)) = none := by
    simpa [Binds] using h
  rw [make, hnone]

/-- a plan is refused for the first variable that is read and not bound -/
theorem make_eq_error_iff {bs : List Binding} {a : α} {reads : List String} {e : ReportError} :
    make bs a reads = .error e ↔ ∃ symbol, FirstUnbound bs reads symbol ∧ e = .unboundVariable symbol := by
  simp only [← find?_eq_some_iff_firstUnbound]
  rw [make]
  cases reads.find? fun symbol => !(bs.any fun b => b.symbol = symbol) with
  | none => simp
  | some symbol => simp [eq_comm]

theorem exists_make_eq_error_iff {bs : List Binding} {a : α} {reads : List String} :
    (∃ e, make bs a reads = .error e) ↔ ∃ symbol ∈ reads, ¬Binds bs symbol := by
  constructor
  · rintro ⟨e, he⟩
    obtain ⟨symbol, ⟨before, after, rfl, -, hunbound⟩, -⟩ := make_eq_error_iff.1 he
    exact ⟨symbol, by simp, hunbound⟩
  · rintro ⟨symbol, hread, hunbound⟩
    cases h : make bs a reads with
    | error e => exact ⟨e, rfl⟩
    | ok p =>
      rw [make] at h
      split at h
      next => cases h
      next hnone =>
        have hall : ∀ s ∈ reads, Binds bs s := by simpa [Binds] using hnone
        exact absurd (hall symbol hread) hunbound

/-! ## Places -/

theorem preparatory_eq (p : Plan α) :
    p.preparatory = if p.bindings = [] then [] else .declare :: p.bindings.map .bind := by
  rw [preparatory]
  simp only [List.isEmpty_iff]

theorem size_eq (p : Plan α) : p.size = if p.bindings = [] then 1 else p.bindings.length + 2 := by
  rw [size, preparatory_eq]
  split_ifs <;> simp

/-- the declaration binds nothing, so a place is one above that among the bindings -/
theorem bindingPosition?_eq (p : Plan α) (symbol : String) :
    p.bindingPosition? symbol = (p.bindings.findIdx? fun b => b.symbol = symbol).map (· + 1) := by
  rw [bindingPosition?, preparatory_eq]
  split_ifs with hnil
  · rw [hnil]
    rfl
  · rw [List.findIdx?_cons, List.findIdx?_map]
    rfl

/-- a variable has a place if it is bound -/
theorem isSome_bindingPosition? {p : Plan α} {symbol : String} :
    (p.bindingPosition? symbol).isSome ↔ Binds p.bindings symbol := by
  simp [bindingPosition?_eq, Binds]

/-- the lookup at the place of a variable is the first that binds it -/
theorem bindingPosition?_spec {p : Plan α} {symbol : String} {i : Nat} (h : p.bindingPosition? symbol = some i) :
    ∃ k b, i = k + 1 ∧ p.bindings[k]? = some b ∧ b.symbol = symbol ∧
      ∀ j < k, ∀ c, p.bindings[j]? = some c → c.symbol ≠ symbol := by
  rw [bindingPosition?_eq, Option.map_eq_some_iff] at h
  obtain ⟨k, hk, rfl⟩ := h
  obtain ⟨hlt, hsymbol, hbefore⟩ := List.findIdx?_eq_some_iff_getElem.1 hk
  refine ⟨k, p.bindings[k], rfl, List.getElem?_eq_getElem hlt, by simpa using hsymbol, ?_⟩
  intro j hj c hc
  obtain ⟨hjlt, rfl⟩ := List.getElem?_eq_some_iff.1 hc
  simpa using hbefore j hj

/-- a place stands between the declaration and the aggregate -/
theorem bindingPosition?_bounds {p : Plan α} {symbol : String} {i : Nat} (h : p.bindingPosition? symbol = some i) :
    1 ≤ i ∧ i < p.size - 1 := by
  obtain ⟨k, b, rfl, hk, -, -⟩ := bindingPosition?_spec h
  obtain ⟨hlt, -⟩ := List.getElem?_eq_some_iff.1 hk
  rw [size_eq, if_neg (List.ne_nil_of_length_pos (by omega))]
  omega

/-! ## Statements -/

/-- the statements before the aggregate -/
def lookupStatements (bs : List Binding) : List Statement :=
  if bs = [] then [] else .declare :: bs.map .ofBinding

theorem lookupStatements_append_singleton (bs : List Binding) (b : Binding) :
    lookupStatements (bs ++ [b]) =
      (if lookupStatements bs = [] then [.declare] else lookupStatements bs) ++ [.ofBinding b] := by
  by_cases hnil : bs = []
  · simp [lookupStatements, hnil]
  · simp [lookupStatements, hnil]

theorem statements_eq (text : α → Statement) (p : Plan α) :
    p.statements text = lookupStatements p.bindings ++ [text p.aggregate] := by
  rw [statements, steps, preparatory_eq, lookupStatements, List.map_append]
  congr 1
  split_ifs
  · rfl
  · simp [Step.statement, Function.comp_def]

theorem length_statements (text : α → Statement) (p : Plan α) : (p.statements text).length = p.size := by
  rw [statements, List.length_map, steps, List.length_append, size, List.length_singleton]

theorem getElem?_statements_succ (text : α → Statement) {p : Plan α} {k : Nat} {b : Binding}
    (h : p.bindings[k]? = some b) : (p.statements text)[k + 1]? = some (.ofBinding b) := by
  obtain ⟨hlt, hb⟩ := List.getElem?_eq_some_iff.1 h
  have hnil : p.bindings ≠ [] := List.ne_nil_of_length_pos (by omega)
  rw [statements_eq, lookupStatements, if_neg hnil, List.cons_append, List.getElem?_cons_succ,
    List.getElem?_append_left (by simpa using hlt), List.getElem?_map, h, Option.map_some]

/-- the declaration is the first statement, and no other one before the aggregate declares anything -/
theorem declares_iff (text : α → Statement) {p : Plan α} {i : Nat} (hi : i < p.size - 1) :
    (p.statements text)[i]?.map Statement.kind = some .declareBindings ↔ i = 0 := by
  have hnil : p.bindings ≠ [] := by
    intro hnil
    simp [size_eq, hnil] at hi
  cases i with
  | zero => simp [statements_eq, lookupStatements, hnil, Statement.declare]
  | succ k =>
    have hk : k < p.bindings.length := by
      simp only [size_eq, if_neg hnil] at hi
      omega
    rw [getElem?_statements_succ text (List.getElem?_eq_getElem hk)]
    simp [Statement.ofBinding]

/-- no statement before the place of a variable binds it -/
theorem not_bindLookup_of_lt (text : α → Statement) {p : Plan α} {symbol : String} {i j : Nat}
    (h : p.bindingPosition? symbol = some i) (hj : j < i) (field : String) :
    (p.statements text)[j]?.map Statement.kind ≠ some (.bindLookup field symbol) := by
  obtain ⟨k, b, rfl, hk, -, hbefore⟩ := bindingPosition?_spec h
  cases j with
  | zero =>
    rw [(declares_iff text (by have := bindingPosition?_bounds h; omega)).2 rfl]
    simp
  | succ j =>
    obtain ⟨hlt, -⟩ := List.getElem?_eq_some_iff.1 hk
    have hget : p.bindings[j]? = some p.bindings[j] := List.getElem?_eq_getElem (by omega)
    have hother := hbefore j (by omega) _ hget
    rw [getElem?_statements_succ text hget]
    simp [Statement.ofBinding, hother]

/-! ## Lookup after lookup -/

/-- a plan that is being put together, and the variables that are bound so far -/
structure Builder where
  preparatory : List Statement
  bound : Finset String

namespace Builder

def empty : Builder := ⟨[], ∅⟩

def bind (d : Builder) (b : Binding) : Builder where
  preparatory := (if d.preparatory = [] then [.declare] else d.preparatory) ++ [.ofBinding b]
  bound := insert b.symbol d.bound

def run (bs : List Binding) : Builder := bs.foldl bind empty

def finish (d : Builder) (aggregate : Statement) (reads : List String) : Except ReportError (List Statement) :=
  match reads.find? fun symbol => symbol ∉ d.bound with
  | some symbol => .error (.unboundVariable symbol)
  | none => .ok (d.preparatory ++ [aggregate])

/-- the statements are those of the lookups, and so are the variables -/
structure Agrees (d : Builder) (bs : List Binding) : Prop where
  preparatory_eq : d.preparatory = lookupStatements bs
  mem_bound : ∀ symbol, symbol ∈ d.bound ↔ Binds bs symbol

theorem agrees_empty : empty.Agrees [] where
  preparatory_eq := rfl
  mem_bound symbol := by simp [empty, Binds]

/-- one lookup more keeps the statements and the variables together -/
theorem Agrees.bind {d : Builder} {bs : List Binding} (h : d.Agrees bs) (b : Binding) :
    (d.bind b).Agrees (bs ++ [b]) where
  preparatory_eq := by rw [Builder.bind, lookupStatements_append_singleton, h.preparatory_eq]
  mem_bound symbol := by rw [Builder.bind, Finset.mem_insert, h.mem_bound, binds_append_singleton]

theorem agrees_run (bs : List Binding) : (run bs).Agrees bs := by
  induction bs using List.reverseRecOn with
  | nil => exact agrees_empty
  | append_singleton bs b ih =>
    rw [run, List.foldl_append]
    exact ih.bind b

/-- what agrees with the lookups finishes as their plan -/
theorem Agrees.finish_eq {d : Builder} {bs : List Binding} (h : d.Agrees bs) (a : α) (reads : List String)
    (text : α → Statement) : d.finish (text a) reads = (make bs a reads).map (statements text) := by
  have hunbound : (fun symbol => decide (symbol ∉ d.bound)) = fun symbol => !(bs.any fun b => b.symbol = symbol) := by
    funext symbol
    by_cases hbinds : Binds bs symbol
    · have hany : (bs.any fun b => b.symbol = symbol) = true := by simpa [Binds] using hbinds
      simp [h.mem_bound, hbinds, hany]
    · have hany : (bs.any fun b => b.symbol = symbol) = false := by simpa [Binds] using hbinds
      simp [h.mem_bound, hbinds, hany]
  rw [finish, make, hunbound]
  cases reads.find? fun symbol => !(bs.any fun b => b.symbol = symbol) with
  | some symbol => rfl
  | none => simp [Except.map, statements_eq, h.preparatory_eq]

end Builder

/-- **A plan binds what is read before it is read.** Fields and variables of the lookups may repeat. -/
theorem make_bindings (bs : List Binding) (a : α) (reads : List String) (text : α → Statement) :
    (Builder.run bs).finish (text a) reads = (make bs a reads).map (statements text) ∧
    ((∃ e, make bs a reads = .error e) ↔ ∃ symbol ∈ reads, ¬Binds bs symbol) ∧
    (∀ e, make bs a reads = .error e ↔ ∃ symbol, FirstUnbound bs reads symbol ∧ e = .unboundVariable symbol) ∧
    ((∀ symbol ∈ reads, Binds bs symbol) → ∃ p, make bs a reads = .ok p ∧
      p.statements text = (if bs = [] then [] else .declare :: bs.map .ofBinding) ++ [text a] ∧
      p.size = (p.statements text).length ∧
      p.size = (if bs = [] then 1 else bs.length + 2) ∧
      (∀ i < p.size - 1, (p.statements text)[i]?.map Statement.kind = some .declareBindings ↔ i = 0) ∧
      (∀ symbol, (p.bindingPosition? symbol).isSome ↔ Binds bs symbol) ∧
      ∀ symbol i, p.bindingPosition? symbol = some i →
        1 ≤ i ∧ i < p.size - 1 ∧
        (∃ b ∈ bs, b.symbol = symbol ∧ (p.statements text)[i]? = some (.ofBinding b)) ∧
        ∀ j < i, ∀ field, (p.statements text)[j]?.map Statement.kind ≠ some (.bindLookup field symbol)) := by
  refine ⟨(Builder.agrees_run bs).finish_eq a reads text, exists_make_eq_error_iff, fun e => make_eq_error_iff, ?_⟩
  intro hbound
  refine ⟨⟨bs, a⟩, make_eq_ok hbound, statements_eq text _, (length_statements text _).symm, size_eq _,
    fun i hi => declares_iff text hi, fun symbol => isSome_bindingPosition?, ?_⟩
  intro symbol i hi
  obtain ⟨hpos, hlt⟩ := bindingPosition?_bounds hi
  refine ⟨hpos, hlt, ?_, fun j hj field => not_bindLookup_of_lt text hi hj field⟩
  obtain ⟨k, b, rfl, hk, hsymbol, -⟩ := bindingPosition?_spec hi
  exact ⟨b, List.mem_of_getElem? hk, hsymbol, getElem?_statements_succ text hk⟩

/-- two lookups set the name, another one the project -/
theorem make_bindings_sample :
    let wave : Binding := ⟨.session .simName, .simName, "wave"⟩
    let energy : Binding := ⟨.session .simProject, .simProject, "energy"⟩
    let pendulum : Binding := ⟨.session .simName, .simName, "pendulum"⟩
    (∀ symbol ∈ ["pid", "sid"], Binds [wave, energy, pendulum] symbol) ∧
      ∃ p, make [wave, energy, pendulum] "SELECT 1" ["pid", "sid"] = .ok p ∧ p.size = 5 ∧
        (p.bindingPosition? "sid").isSome ∧ ¬(p.bindingPosition? "os").isSome := by
  intro wave energy pendulum
  have hbound : ∀ symbol ∈ ["pid", "sid"], Binds [wave, energy, pendulum] symbol := by
    simp [Binds, wave, energy, pendulum, Binding.symbol, NameTable.symbol]
  obtain ⟨p, hmake, -, -, hsize, -, hplaces, -⟩ :=
    (make_bindings [wave, energy, pendulum] "SELECT 1" ["pid", "sid"] fun sql =>
      ⟨.aggregate "message_count", sql, []⟩).2.2.2 hbound
  refine ⟨hbound, p, hmake, by simpa using hsize, ?_, ?_⟩
  · exact (hplaces "sid").2 (hbound "sid" (by simp))
  · rw [hplaces]
    simp [Binds, wave, energy, pendulum, Binding.symbol, NameTable.symbol]

end LaunchReports.Plan
