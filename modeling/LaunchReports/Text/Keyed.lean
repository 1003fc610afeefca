/-
Values under names, in the order of the names, each name once.

`get?_insert` says that an insertion sets its own name and no other.
-/
import LaunchReports.Text.Precedence

namespace LaunchReports

structure Keyed (α : Type) where
  entries : List (String × α)
  sorted : entries.Pairwise fun a b => precedes a.1 b.1 = true
deriving DecidableEq, Repr

namespace Keyed

variable {α : Type}

def empty : Keyed α := ⟨[], .nil⟩

instance : Inhabited (Keyed α) := ⟨empty⟩

/-- the pair in its place, instead of the one with the same name -/
def place (key : String) (value : α) : List (String × α) → List (String × α)
  | [] => [(key, value)]
  | (k, v) :: rest =>
    if precedes key k then (key, value) :: (k, v) :: rest
    else if key = k then (key, value) :: rest
    else (k, v) :: place key value rest

theorem mem_place {key : String} {value : α} {entries : List (String × α)}
    {p : String × α} (h : p ∈ place key value entries) : p = (key, value) ∨ p ∈ entries := by
  fun_induction place key value entries with
  | case1 => exact .inl (List.mem_singleton.1 h)
  | case2 => exact List.mem_cons.1 h
  | case3 v rest _ =>
    rcases List.mem_cons.1 h with h | h
    · exact .inl h
    · exact .inr (List.mem_cons_of_mem _ h)
  | case4 k v rest _ _ ih =>
    rcases List.mem_cons.1 h with h | h
    · exact .inr (h ▸ List.mem_cons_self)
    · exact (ih h).imp_right (List.mem_cons_of_mem _)

theorem pairwise_place {key : String} {value : α} {entries : List (String × α)}
    (h : entries.Pairwise fun a b => precedes a.1 b.1 = true) :
    (place key value entries).Pairwise fun a b => precedes a.1 b.1 = true := by
  fun_induction place key value entries with
  | case1 => exact List.pairwise_singleton _ _
  | case2 k v rest hk =>
    refine List.pairwise_cons.2 ⟨fun p hp => ?_, h⟩
    rcases List.mem_cons.1 hp with rfl | hp
    · exact hk
    · exact precedes_trans hk ((List.pairwise_cons.1 h).1 p hp)
  | case3 v rest =>
    exact List.pairwise_cons.2 (List.pairwise_cons.1 h)
  | case4 k v rest hk hne ih =>
    obtain ⟨hhead, htail⟩ := List.pairwise_cons.1 h
    refine List.pairwise_cons.2 ⟨fun p hp => ?_, ih htail⟩
    rcases mem_place hp with rfl | hp
    · exact precedes_total (by simpa using hk) hne
    · exact hhead p hp

def insert (f : Keyed α) (key : String) (value : α) : Keyed α :=
  ⟨place key value f.entries, pairwise_place f.sorted⟩

def get? (f : Keyed α) (key : String) : Option α := f.entries.lookup key

/-- the last pair of a name wins -/
def ofPairs (pairs : List (String × α)) : Keyed α :=
  pairs.foldl (fun f p => f.insert p.1 p.2) empty

def keys (f : Keyed α) : List String := f.entries.map Prod.fst

/-! ## Insertion and lookup -/

theorem lookup_cons_eq_ite {β : Type} (a k : String) (b : β) (rest : List (String × β)) :
    ((k, b) :: rest).lookup a = if a = k then some b else rest.lookup a := by
  rw [List.lookup_cons]
  by_cases h : a = k
  · rw [if_pos h, beq_iff_eq.2 h]
  · rw [if_neg h, beq_eq_false_iff_ne.2 h]

theorem lookup_place (key other : String) (value : α) (entries : List (String × α)) :
    (place key value entries).lookup other = if other = key then some value else entries.lookup other := by
  fun_induction place key value entries with
  | case1 => exact lookup_cons_eq_ite ..
  | case2 k v rest => exact lookup_cons_eq_ite ..
  | case3 v rest =>
    rw [lookup_cons_eq_ite, lookup_cons_eq_ite]
    by_cases h : other = key <;> simp [h]
  | case4 k v rest hk hne ih =>
    rw [lookup_cons_eq_ite, lookup_cons_eq_ite, ih]
    by_cases h : other = k
    · rw [if_pos h, if_pos h, if_neg fun e => hne (e.symm.trans h)]
    · rw [if_neg h, if_neg h]

theorem get?_insert (f : Keyed α) (key other : String) (value : α) :
    (f.insert key value).get? other = if other = key then some value else f.get? other :=
  lookup_place key other value f.entries

end Keyed

end LaunchReports
