/-
Paths behind a place, and what cleaning keeps.

- `Leads`: what a cleaned path is good for. `Settled.join`: a name behind a cleaned path leaves it clean.
- `clean_keeps_place`: cleaning an absolute path keeps its place and leaves no `.` and no superfluous slash in its text.
  Cleaning again changes nothing, and a path that is followed from the cleaned path leads where it leads from the
  original.

All of it is read off the form of a cleaned path (`Settled`), so no path is walked a second time.
-/
import LaunchReports.Proofs.Path.Cleaning

namespace LaunchReports

namespace RawPath

open PathLetter

variable {α : Type} [DecidableEq α] [PathLetter α]

variable {base path : List α} {ups : Nat} {names : List (List α)}

/-! ## The text of a cleaned path -/

omit [DecidableEq α] in
/-- the pieces of a cleaned path are written, and none of them is `.` -/
theorem Settled.written (h : Settled path ups names) :
    ∀ piece ∈ List.replicate ups [dot, dot] ++ names, piece ≠ [] ∧ piece ≠ [dot] := by
  intro piece hpiece
  rcases h.pieces piece hpiece with rfl | hplain
  · simp
  · exact ⟨hplain.written, hplain.not_current⟩

theorem Settled.current_not_mem (h : Settled path ups names) : [dot] ∉ path.splitOn slash := by
  rw [h.text, splitOn_rooted h.unbroken, List.mem_cons, not_or]
  refine ⟨by simp, ?_⟩
  split_ifs with hnil
  · simp
  · exact fun hdot => (h.written _ hdot).2 rfl

/-- two slashes have an empty piece between them -/
theorem splitOn_doubled (before after : List α) :
    (before ++ [slash, slash] ++ after).splitOn slash = before.splitOn slash ++ [] :: after.splitOn slash := by
  rw [List.append_assoc, List.cons_append, List.singleton_append, List.splitOn_append_cons_self,
    List.splitOn_cons_eq_if_modifyHead, if_pos (by simp)]

theorem Settled.not_doubled (h : Settled path ups names) : ¬[slash, slash] <:+: path := by
  rintro ⟨before, after, htext⟩
  have hpieces := splitOn_rooted h.unbroken
  rw [← h.text, ← htext, splitOn_doubled] at hpieces
  obtain ⟨first, front, hfront⟩ := List.exists_cons_of_ne_nil (List.splitOn_ne_nil slash before)
  obtain ⟨last, back, hback⟩ := List.exists_cons_of_ne_nil (List.splitOn_ne_nil slash after)
  rw [hfront, hback, List.cons_append, List.cons.injEq] at hpieces
  split_ifs at hpieces with hnil
  · -- behind the slash of a root there is one empty piece, here there would be two
    have hlength := congrArg List.length hpieces.2
    simp only [List.length_append, List.length_cons, List.length_nil] at hlength
    omega
  · have hempty : [] ∈ List.replicate ups [dot, dot] ++ names := hpieces.2 ▸ by simp
    exact (h.written _ hempty).1 rfl

/-! ## Joining -/

theorem isAbsolute_of_unbroken (h : slash ∉ path) : isAbsolute path = false := by
  rw [← Bool.not_eq_true, isAbsolute_iff]
  rintro ⟨rest, hrest⟩
  exact h (by simp [hrest])

theorem join_absolute (h : isAbsolute path = true) : join base path = path := if_pos h

/-- a relative path stands behind the base, after a slash -/
theorem join_relative (h : isAbsolute path = false) :
    join base path = if base.getLast?.all (· = slash) then base ++ path else base ++ slash :: path := by
  rw [join, if_neg (by simp [h])]

theorem isAbsolute_join (h : isAbsolute base = true) : isAbsolute (join base path) = true := by
  by_cases hpath : isAbsolute path = true
  · rwa [join_absolute hpath]
  · obtain ⟨rest, hrest⟩ := isAbsolute_iff.1 h
    rw [isAbsolute_iff, join_relative (by simpa using hpath), hrest]
    split_ifs <;> simp

theorem placeFrom_join (h : isAbsolute path = false) (names : List (List α)) :
    placeFrom names (join base path) = placeFrom (placeFrom names base) path := by
  unfold placeFrom
  rw [join_relative h]
  split_ifs with hend
  · rcases List.eq_nil_or_concat' base with hnil | ⟨front, last, hlast⟩
    · rw [hnil]
      rfl
    · obtain rfl : last = slash := by simpa [hlast] using hend
      have hbase : base.splitOn slash = front.splitOn slash ++ [[]] := by
        rw [hlast, List.splitOn_append_cons_self, List.splitOn_nil]
      rw [hbase, hlast, List.append_assoc, List.singleton_append, List.splitOn_append_cons_self, List.foldl_append,
        List.foldl_append]
      rfl
  · rw [List.splitOn_append_cons_self, List.foldl_append]

omit [DecidableEq α] in
theorem rooted_concat (pieces : List (List α)) (last : List α) :
    rooted (pieces ++ [last]) = if pieces = [] then slash :: last else rooted pieces ++ slash :: last := by
  split_ifs with hnil
  · simp [rooted, hnil]
  · induction pieces with
    | nil => exact absurd rfl hnil
    | cons piece pieces ih =>
      by_cases hpieces : pieces = []
      · simp [rooted, hpieces]
      · have hrest := ih hpieces
        simp only [rooted, List.cons_append, List.cons.injEq, true_and] at hrest ⊢
        rw [List.intercalate_cons_of_ne_nil (by simp), hrest, List.intercalate_cons_of_ne_nil hpieces]
        simp

/-- only a root alone ends with a slash -/
theorem Settled.endsWith_iff (h : Settled path ups names) :
    (path.getLast?.all (· = slash) = true) ↔ List.replicate ups [dot, dot] ++ names = [] := by
  have hunbroken := h.unbroken
  have hwritten := fun piece hpiece => (h.written piece hpiece).1
  rw [h.text]
  rcases List.eq_nil_or_concat' (List.replicate ups [dot, dot] ++ names) with hnil | ⟨front, last, hlast⟩
  · simp [hnil, rooted]
  · rw [hlast] at hunbroken hwritten ⊢
    obtain ⟨before, c, rfl⟩ := (List.eq_nil_or_concat' last).resolve_left (hwritten last (by simp))
    have hc : c ≠ slash := by
      rintro rfl
      exact hunbroken _ (List.mem_append_right _ List.mem_cons_self) (by simp)
    obtain ⟨start, hstart⟩ : ∃ start, rooted (front ++ [before ++ [c]]) = start ++ [c] := by
      rw [rooted_concat]
      split_ifs
      · exact ⟨slash :: before, rfl⟩
      · exact ⟨rooted front ++ slash :: before, by simp⟩
    simp [hstart, hc]

/-! ## Clean paths -/

/-- the path is absolute and clean and leads to the place -/
structure Leads (path : List α) (names : List (List α)) : Prop where
  isAbsolute : isAbsolute path = true
  clean : clean path = path
  place : place path = names

theorem Settled.leads (h : Settled path ups names) : Leads path names := ⟨h.isAbsolute, h.clean_eq, h.place_eq⟩

theorem Settled.join (h : Settled base ups names) (hpath : Plain path) :
    Settled (join base path) ups (names ++ [path]) := by
  refine ⟨h.few, ?_, ?_⟩
  · intro name hname
    rcases List.mem_append.1 hname with hname | hname
    · exact h.plain name hname
    · rwa [List.mem_singleton.1 hname]
  · rw [join_relative (isAbsolute_of_unbroken hpath.unbroken), ← List.append_assoc, rooted_concat, h.text]
    have hend := h.endsWith_iff
    rw [h.text] at hend
    simp only [hend]
    split_ifs with hnil
    · rw [hnil]
      rfl
    · rfl

/-! ## What cleaning keeps -/

/-- a relative path is followed from the place before it -/
theorem place_clean_join (h : isAbsolute base = true) {rest : List α} (hrest : isAbsolute rest = false) :
    place (clean (join base rest)) = placeFrom (place base) rest := by
  rw [(settled_clean (isAbsolute_join h)).place_eq, place, placeFrom_join hrest, ← place]

end RawPath

/-! ## Texts -/

namespace Path

theorem toList_join (base path : String) : (join base path).toList = RawPath.join base.toList path.toList :=
  String.toList_ofList

/-- **Cleaning keeps the place of a path and leaves nothing superfluous in its text.** -/
theorem clean_keeps_place {path : String} (h : isAbsolute path = true) :
    isAbsolute (clean path) = true ∧
      (['.'] ∉ (clean path).toList.splitOn '/' ∧ .current ∉ components (clean path)) ∧
      ¬['/', '/'] <:+: (clean path).toList ∧
      ((clean path).toList.getLast? = some '/' → clean path = "/") ∧
      place (clean path) = place path ∧
      clean (clean path) = clean path ∧
      ∀ rest, isAbsolute rest = false →
        place (clean (join path rest)) = placeFrom (place path) rest ∧
        place (clean (join (clean path) rest)) = placeFrom (place path) rest := by
  have hclean := RawPath.settled_clean h
  rw [← toList_clean] at hclean
  have hagain : RawPath.clean (clean path).toList = (clean path).toList := hclean.clean_eq
  have hplace : place (clean path) = place path := hclean.place_eq
  refine ⟨hclean.isAbsolute, ⟨hclean.current_not_mem, ?_⟩, hclean.not_doubled, ?_, hplace, ?_, ?_⟩
  · rw [components, hclean.components_eq]
    simp
  · intro hlast
    have hroot := hclean.endsWith_iff.1 (by rw [hlast]; rfl)
    rw [← String.toList_inj, hclean.text, hroot]
    rfl
  · rw [← String.toList_inj, toList_clean, hagain]
  · intro rest hrest
    have hjoin {base : String} (hbase : isAbsolute base = true) :
        place (clean (join base rest)) = placeFrom (place base) rest := by
      rw [place, toList_clean, toList_join]
      exact RawPath.place_clean_join hbase hrest
    exact ⟨hjoin h, by rw [hjoin hclean.isAbsolute, hplace]⟩

/-- up above the root and back, with `.` and slashes in between -/
theorem clean_keeps_place_sample :
    isAbsolute "/..//./srv/../../data/" = true ∧ isAbsolute "../x/./y" = false ∧
      clean "/..//./srv/../../data/" = "/data" ∧
      place "/..//./srv/../../data/" = ["data".toList] ∧
      clean (join "/..//./srv/../../data/" "../x/./y") = "/x/y" ∧
      place (clean (join (clean "/..//./srv/../../data/") "../x/./y")) = ["x".toList, "y".toList] := by
  have habsolute : isAbsolute "/..//./srv/../../data/" = true := by decide
  have hrelative : isAbsolute "../x/./y" = false := by decide
  obtain ⟨-, -, -, -, hplace, -, hjoin⟩ := clean_keeps_place habsolute
  exact ⟨habsolute, hrelative, by decide, hplace.symm.trans (by decide), by decide, (hjoin _ hrelative).2⟩

end Path

end LaunchReports
