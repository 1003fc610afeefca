/-
Lists whose entries are told apart by a key.

- `lookup_of_mem` and `find?_key_eq_some`: under its key an entry is found.
- `nodup_eraseDups`: of repeated keys one each is left.
- `Keyed.ofPairs_eq`: values under names do not depend on the order in which they come.
- `Keyed.get?_foldl_insert_last`: of the values inserted under a name the last one stays.
-/
import Mathlib.Data.List.Nodup
import LaunchReports.Text.Keyed

namespace LaunchReports

/-! ## Rows -/

/-- a key picks at most one row -/
theorem filter_key_eq {α κ : Type} [DecidableEq κ] {key : α → κ} {rows : List α} (h : (rows.map key).Nodup) (k : κ) :
    rows.filter (fun a => key a = k) = (rows.find? fun a => key a = k).toList := by
  induction rows with
  | nil => rfl
  | cons a rest ih =>
    obtain ⟨ha, hrest⟩ := List.nodup_cons.1 h
    by_cases hk : key a = k
    · have hnone : rest.filter (fun b => key b = k) = [] := by
        refine List.filter_eq_nil_iff.2 fun b hb e => ha ?_
        rw [hk, ← of_decide_eq_true e]
        exact List.mem_map_of_mem hb
      simp [hk, hnone]
    · simp [hk, ih hrest]

theorem find?_key_eq_some {α κ : Type} [DecidableEq κ] {key : α → κ} {rows : List α} (h : (rows.map key).Nodup)
    {k : κ} {a : α} : rows.find? (fun b => key b = k) = some a ↔ a ∈ rows ∧ key a = k := by
  rw [← Option.mem_toList, ← filter_key_eq h, List.mem_filter, decide_eq_true_iff]

/-- a row with a new key at the end -/
theorem nodup_map_snoc {α κ : Type} {key : α → κ} {rows : List α} {row : α} (h : (rows.map key).Nodup)
    (hnew : ∀ r ∈ rows, key r ≠ key row) : ((rows ++ [row]).map key).Nodup := by
  rw [List.map_append, List.nodup_append]
  refine ⟨h, List.nodup_singleton _, ?_⟩
  rintro a ha b hb rfl
  obtain ⟨r, hr, rfl⟩ := List.mem_map.1 ha
  exact hnew r hr (List.mem_singleton.1 hb)

/-! ## Items without repetition -/

/-- by strong induction on the length: the items that are left are no more -/
theorem nodup_eraseDups {α : Type} [DecidableEq α] (l : List α) : l.eraseDups.Nodup := by
  induction hn : l.length using Nat.strongRecOn generalizing l with
  | ind n ih =>
    cases l with
    | nil => exact List.nodup_nil
    | cons a l =>
      rw [List.eraseDups_cons, List.nodup_cons]
      constructor
      · simp
      · exact ih _ (hn ▸ Nat.lt_succ_of_le (List.length_filter_le _ _)) _ rfl

/-! ## Pairs -/

section

variable {α : Type} {list : List (String × α)}

theorem lookup_of_mem (h : (list.map Prod.fst).Nodup) {p : String × α} (hp : p ∈ list) :
    list.lookup p.1 = some p.2 := by
  induction list with
  | nil => cases hp
  | cons q rest ih =>
    obtain ⟨hq, hrest⟩ := List.nodup_cons.1 h
    rw [Keyed.lookup_cons_eq_ite]
    rcases List.mem_cons.1 hp with rfl | hp
    · exact if_pos rfl
    · have hne : p.1 ≠ q.1 := fun e => hq (e ▸ List.mem_map_of_mem hp)
      rw [if_neg hne, ih hrest hp]

theorem mem_of_lookup {κ : Type} [BEq κ] [LawfulBEq κ] {list : List (κ × α)} {key : κ} {value : α}
    (h : list.lookup key = some value) : (key, value) ∈ list := by
  obtain ⟨before, after, rfl, -⟩ := List.lookup_eq_some_iff.1 h
  exact List.mem_append_right _ List.mem_cons_self

theorem lookup_eq_none {name : String} (h : name ∉ list.map Prod.fst) : list.lookup name = none := by
  induction list with
  | nil => rfl
  | cons q rest ih =>
    rw [List.map_cons, List.mem_cons, not_or] at h
    rw [Keyed.lookup_cons_eq_ite, if_neg h.1, ih h.2]

end

namespace Keyed

variable {α : Type}

theorem place_perm {key : String} {value : α} {entries : List (String × α)} (h : key ∉ entries.map Prod.fst) :
    (place key value entries).Perm ((key, value) :: entries) := by
  fun_induction place key value entries with
  | case1 | case2 => exact .refl _
  | case3 v rest _ => exact absurd List.mem_cons_self h
  | case4 k v rest _ _ ih =>
    have hrest : key ∉ rest.map Prod.fst := fun hk => h (List.mem_cons_of_mem _ hk)
    exact ((ih hrest).cons _).trans (.swap ..)

theorem foldl_insert_perm (f : Keyed α) {pairs : List (String × α)}
    (h : (f.entries ++ pairs).Pairwise fun a b => a.1 ≠ b.1) :
    (pairs.foldl (fun f p => f.insert p.1 p.2) f).entries.Perm (f.entries ++ pairs) := by
  induction pairs generalizing f with
  | nil => rw [List.append_nil, List.foldl_nil]
  | cons p rest ih =>
    have hnew : p.1 ∉ f.entries.map Prod.fst := by
      rw [List.mem_map]
      rintro ⟨q, hq, e⟩
      exact (List.pairwise_append.1 h).2.2 q hq p List.mem_cons_self e
    have hplaced : (f.insert p.1 p.2).entries.Perm (f.entries ++ [p]) :=
      (place_perm hnew).trans (List.perm_append_singleton p _).symm
    have hall := hplaced.append_right rest
    rw [List.append_assoc, List.singleton_append] at hall
    refine (ih _ ?_).trans hall
    exact (hall.pairwise_iff fun hne e => hne e.symm).2 h

theorem keys_nodup (f : Keyed α) : (f.entries.map Prod.fst).Nodup := by
  refine List.pairwise_map.2 (f.sorted.imp ?_)
  intro a b hab e
  rw [e, precedes_irrefl] at hab
  cases hab

/-- the names decide the order of the entries -/
theorem ext_perm {f g : Keyed α} (h : f.entries.Perm g.entries) : f = g := by
  have hentries : f.entries = g.entries := by
    refine h.eq_of_pairwise (fun a b _ _ hab hba => ?_) f.sorted g.sorted
    have hloop := precedes_trans hab hba
    rw [precedes_irrefl] at hloop
    cases hloop
  cases f
  cases g
  cases hentries
  rfl

/-- pairs in any order, each name once -/
theorem ofPairs_eq (f : Keyed α) {pairs : List (String × α)} (h : pairs.Perm f.entries) : ofPairs pairs = f := by
  have hkeys : pairs.Pairwise fun a b => a.1 ≠ b.1 :=
    List.pairwise_map.1 ((h.map Prod.fst).nodup_iff.2 f.keys_nodup)
  exact ext_perm ((foldl_insert_perm empty hkeys).trans h)

theorem get?_eq_some_iff {f : Keyed α} {key : String} {value : α} :
    f.get? key = some value ↔ (key, value) ∈ f.entries := by
  constructor
  · exact fun h => mem_of_lookup h
  · exact fun h => lookup_of_mem f.keys_nodup h

/-- values under names are told apart by looking them up -/
theorem ext_get? {f g : Keyed α} (h : ∀ key, f.get? key = g.get? key) : f = g := by
  refine ext_perm ((List.perm_ext_iff_of_nodup f.keys_nodup.of_map g.keys_nodup.of_map).2 fun p => ?_)
  rw [← get?_eq_some_iff, ← get?_eq_some_iff, h]

/-! ### Insertions one after the other -/

variable {β : Type} {pairs : List (String × β)} {key : String} (value : β → α)

theorem get?_foldl_insert_of_notMem (h : key ∉ pairs.map Prod.fst) (f : Keyed α) :
    (pairs.foldl (fun f p => f.insert p.1 (value p.2)) f).get? key = f.get? key := by
  induction pairs generalizing f with
  | nil => rfl
  | cons p rest ih =>
    rw [List.map_cons, List.mem_cons, not_or] at h
    rw [List.foldl_cons, ih h.2, get?_insert, if_neg h.1]

/-- the last pair of a name wins -/
theorem get?_foldl_insert_last {before after : List (String × β)} {b : β} (h : key ∉ after.map Prod.fst) (f : Keyed α) :
    ((before ++ (key, b) :: after).foldl (fun f p => f.insert p.1 (value p.2)) f).get? key = some (value b) := by
  rw [List.foldl_append, List.foldl_cons, get?_foldl_insert_of_notMem value h, get?_insert, if_pos rfl]

theorem exists_last (h : key ∈ pairs.map Prod.fst) :
    ∃ before b after, pairs = before ++ (key, b) :: after ∧ key ∉ after.map Prod.fst := by
  induction pairs with
  | nil => cases h
  | cons p rest ih =>
    by_cases hrest : key ∈ rest.map Prod.fst
    · obtain ⟨before, b, after, rfl, hafter⟩ := ih hrest
      exact ⟨p :: before, b, after, rfl, hafter⟩
    · obtain rfl : key = p.1 := (List.mem_cons.1 h).resolve_right hrest
      exact ⟨[], p.2, rest, rfl, hrest⟩

end Keyed

end LaunchReports
