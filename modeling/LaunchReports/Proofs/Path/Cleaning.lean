/-
Where paths lead, read as texts, and what cleaning leaves of them.

`walk` takes the pieces of a path one after another: a name goes down, `..` goes up, and above the root is the root.
`place` is where an absolute path ends, `climbs` how many `..` on the way went up from the root.

- `clean_climbs`: behind the root a cleaned path has the names of its place, and one `..` before them if an odd number
  of `..` went up from the root. Each second one takes the one before it away (`second_climb_lost`).
- `Settled` says what cleaned paths look like: they are absolute, cleaning leaves them as they are, and their names are
  their place.
-/
import LaunchReports.Path.Lexical
import Mathlib.Data.List.Basic

namespace LaunchReports

namespace RawPath

open PathLetter

variable {α : Type} [DecidableEq α] [PathLetter α]

/-! ## Places -/

/-- one piece further from the place with these names below the root -/
def walk (names : List (List α)) (piece : List α) : List (List α) :=
  if piece = [] ∨ piece = [dot] then names
  else if piece = [dot, dot] then names.dropLast
  else names ++ [piece]

/-- the place of a path that is followed from another place -/
def placeFrom (base : List (List α)) (path : List α) : List (List α) := (path.splitOn slash).foldl walk base

/-- the place of a path that is followed from the root -/
def place (path : List α) : List (List α) := placeFrom [] path

/-- whether the piece goes up from the root -/
def climb (names : List (List α)) (piece : List α) : Nat := if piece = [dot, dot] ∧ names = [] then 1 else 0

/-- how many of the pieces go up from the root -/
def climbs (names : List (List α)) : List (List α) → Nat
  | [] => 0
  | piece :: rest => climb names piece + climbs (walk names piece) rest

theorem inner?_up : inner? [dot, dot] = some (.up : Component α) := by simp [inner?]

theorem walk_up (names : List (List α)) : walk names [dot, dot] = names.dropLast := by simp [walk]

theorem climb_up_root : climb ([] : List (List α)) [dot, dot] = 1 := if_pos ⟨rfl, rfl⟩

/-- a piece is nothing, `..` or a name -/
theorem inner?_cases (piece : List α) :
    (inner? piece = none ∧ ∀ names, walk names piece = names ∧ climb names piece = 0) ∨
      (inner? piece = some .up ∧ piece = [dot, dot]) ∨
      (inner? piece = some (.name piece) ∧ ∀ names, walk names piece = names ++ [piece] ∧ climb names piece = 0) := by
  by_cases hnothing : piece = [] ∨ piece = [dot]
  · left
    rcases hnothing with rfl | rfl <;> simp [inner?, walk, climb]
  · right
    by_cases hup : piece = [dot, dot]
    · subst hup
      exact .inl ⟨inner?_up, rfl⟩
    · rw [not_or] at hnothing
      right
      simp [inner?, walk, climb, hnothing, hup]

/-- what a name of a place looks like -/
structure Plain (piece : List α) : Prop where
  written : piece ≠ []
  not_current : piece ≠ [dot]
  not_up : piece ≠ [dot, dot]
  unbroken : slash ∉ piece

theorem Plain.inner?_eq {piece : List α} (h : Plain piece) : inner? piece = some (.name piece) := by
  simp [inner?, h.written, h.not_current, h.not_up]

theorem Plain.walk_eq {piece : List α} (h : Plain piece) (names : List (List α)) :
    walk names piece = names ++ [piece] := by
  simp [walk, h.written, h.not_current, h.not_up]

theorem Plain.climb_eq {piece : List α} (h : Plain piece) (names : List (List α)) : climb names piece = 0 := by
  simp [climb, h.not_up]

theorem foldl_walk_plain {pieces : List (List α)} (h : ∀ piece ∈ pieces, Plain piece) (names : List (List α)) :
    pieces.foldl walk names = names ++ pieces := by
  induction pieces generalizing names with
  | nil => simp
  | cons piece pieces ih =>
    rw [List.foldl_cons, (h piece List.mem_cons_self).walk_eq, ih fun p hp => h p (List.mem_cons_of_mem _ hp)]
    simp

theorem climbs_plain {pieces : List (List α)} (h : ∀ piece ∈ pieces, Plain piece) (names : List (List α)) :
    climbs names pieces = 0 := by
  induction pieces generalizing names with
  | nil => rfl
  | cons piece pieces ih =>
    rw [climbs, (h piece List.mem_cons_self).climb_eq, ih fun p hp => h p (List.mem_cons_of_mem _ hp)]

/-- above the root is the root -/
theorem foldl_walk_ups (n : Nat) : (List.replicate n [dot, dot]).foldl walk [] = ([] : List (List α)) := by
  induction n with
  | zero => rfl
  | succ n ih => rw [List.replicate_succ, List.foldl_cons, walk_up, List.dropLast_nil, ih]

/-- a walk over pieces between slashes leaves names -/
theorem plain_of_mem_foldl_walk {pieces names : List (List α)} (hpieces : ∀ piece ∈ pieces, slash ∉ piece)
    (hnames : ∀ name ∈ names, Plain name) : ∀ name ∈ pieces.foldl walk names, Plain name := by
  induction pieces generalizing names with
  | nil => exact hnames
  | cons piece pieces ih =>
    refine ih (fun p hp => hpieces p (List.mem_cons_of_mem _ hp)) ?_
    intro name hname
    unfold walk at hname
    split_ifs at hname with hnothing hup
    · exact hnames name hname
    · exact hnames name (List.dropLast_subset _ hname)
    · rcases List.mem_append.1 hname with hname | hname
      · exact hnames name hname
      · rw [List.mem_singleton.1 hname]
        rw [not_or] at hnothing
        exact ⟨hnothing.1, hnothing.2, hup, hpieces piece List.mem_cons_self⟩

/-! ## Pieces -/

theorem pieces_eq (path : List α) : pieces path = path.splitOn slash := by
  have key : ∀ (text piece : List α), piecesFrom piece text = text.splitOnPPrepend (· == slash) piece := by
    intro text
    induction text with
    | nil =>
      intro piece
      rw [piecesFrom, List.splitOnPPrepend_nil]
    | cons c text ih =>
      intro piece
      rw [piecesFrom, List.splitOnPPrepend_cons_eq_if, List.splitOnP_eq_splitOnPPrepend, ih, ih]
      simp
  rw [pieces, key, List.splitOn_eq_splitOnP, List.splitOnP_eq_splitOnPPrepend]

theorem not_mem_of_mem_splitOn {text piece : List α} (h : piece ∈ text.splitOn slash) : slash ∉ piece := by
  induction text generalizing piece with
  | nil => simp_all
  | cons c text ih =>
    rw [List.splitOn_cons_eq_if_modifyHead] at h
    split_ifs at h with hc
    · rcases List.mem_cons.1 h with rfl | h
      · simp
      · exact ih h
    · obtain ⟨first, rest, hsplit⟩ := List.exists_cons_of_ne_nil (List.splitOn_ne_nil slash text)
      rw [hsplit, List.modifyHead_cons] at h
      rcases List.mem_cons.1 h with rfl | h
      · have hfirst : slash ∉ first := ih (hsplit ▸ List.mem_cons_self)
        have hne : slash ≠ c := fun e => hc (by simp [← e])
        simp [hne, hfirst]
      · exact ih (hsplit ▸ List.mem_cons_of_mem _ h)

theorem plain_of_mem_place {path : List α} : ∀ name ∈ place path, Plain name :=
  plain_of_mem_foldl_walk (fun _ => not_mem_of_mem_splitOn) nofun

theorem isAbsolute_iff {path : List α} : isAbsolute path = true ↔ ∃ rest, path = slash :: rest := by
  rw [isAbsolute, beq_iff_eq, List.head?_eq_some_iff]

/-! ## The text of an absolute path -/

/-- the root with these pieces behind it -/
def rooted (pieces : List (List α)) : List α := slash :: List.intercalate [slash] pieces

theorem splitOn_rooted {pieces : List (List α)} (h : ∀ piece ∈ pieces, slash ∉ piece) :
    (rooted pieces).splitOn slash = [] :: if pieces = [] then [[]] else pieces := by
  rw [rooted, List.splitOn_cons_eq_if_modifyHead, if_pos (by simp)]
  split_ifs with hnil
  · rw [hnil]
    rfl
  · rw [List.splitOn_intercalate slash h hnil]

/-- where no piece is written there is nowhere to go -/
theorem foldl_walk_rooted {pieces : List (List α)} (h : ∀ piece ∈ pieces, slash ∉ piece) (names : List (List α)) :
    ((rooted pieces).splitOn slash).foldl walk names = pieces.foldl walk names := by
  rw [splitOn_rooted h]
  split_ifs with hnil <;> simp [walk, hnil]

theorem climbs_rooted {pieces : List (List α)} (h : ∀ piece ∈ pieces, slash ∉ piece) (names : List (List α)) :
    climbs names ((rooted pieces).splitOn slash) = climbs names pieces := by
  rw [splitOn_rooted h]
  split_ifs with hnil <;> simp [climbs, climb, walk, hnil]

/-! ## Cleaning -/

/-- what is clean after so many climbs at the place with these names, the last component first -/
def cleaned (climbs : Nat) (names : List (List α)) : List (Component α) :=
  (names.map .name).reverse ++ (List.replicate (climbs % 2) .up ++ [.root])

omit [DecidableEq α] [PathLetter α] in
theorem cleaned_concat (n : Nat) (names : List (List α)) (name : List α) :
    cleaned n (names ++ [name]) = .name name :: cleaned n names := by
  simp [cleaned]

omit [DecidableEq α] [PathLetter α] in
/-- at the root a `..` is kept, unless one is there already: then that one goes away -/
theorem cleanStep_up_root (n : Nat) : cleanStep (cleaned n ([] : List (List α))) .up = cleaned (n + 1) [] := by
  rcases Nat.mod_two_eq_zero_or_one n with h | h <;> simp [cleaned, cleanStep, Nat.add_mod, h]

/-- one piece: what is clean so far is told by the climbs and the place -/
theorem cleanStep_piece (n : Nat) (names : List (List α)) (piece : List α) :
    ([piece].filterMap inner?).foldl cleanStep (cleaned n names) =
      cleaned (n + climb names piece) (walk names piece) := by
  rcases inner?_cases piece with ⟨hinner, hnothing⟩ | ⟨hinner, rfl⟩ | ⟨hinner, hname⟩
  · rw [List.filterMap_cons_none hinner, (hnothing names).1, (hnothing names).2]
    rfl
  · rw [List.filterMap_cons_some hinner]
    rcases List.eq_nil_or_concat' names with rfl | ⟨before, last, rfl⟩
    · rw [climb_up_root, walk_up]
      exact cleanStep_up_root n
    · have hwalk : walk (before ++ [last]) [dot, dot] = before := (walk_up _).trans List.dropLast_concat
      have hclimb : climb (before ++ [last]) [dot, dot] = 0 := by simp [climb]
      rw [hwalk, hclimb, cleaned_concat]
      rfl
  · rw [List.filterMap_cons_some hinner, (hname names).1, (hname names).2, cleaned_concat]
    rfl

theorem foldl_cleanStep (rest : List (List α)) (n : Nat) (names : List (List α)) :
    (rest.filterMap inner?).foldl cleanStep (cleaned n names) =
      cleaned (n + climbs names rest) (rest.foldl walk names) := by
  induction rest generalizing n names with
  | nil => rfl
  | cons piece rest ih =>
    calc ((piece :: rest).filterMap inner?).foldl cleanStep (cleaned n names)
        = (rest.filterMap inner?).foldl cleanStep (([piece].filterMap inner?).foldl cleanStep (cleaned n names)) := by
          rw [← List.foldl_append, ← List.filterMap_append]
          rfl
      _ = cleaned (n + climb names piece + climbs (walk names piece) rest) (rest.foldl walk (walk names piece)) := by
          rw [cleanStep_piece, ih]
      _ = cleaned (n + climbs names (piece :: rest)) ((piece :: rest).foldl walk names) := by
          rw [climbs, Nat.add_assoc]
          rfl

theorem cleanComponents_eq {path : List α} (h : isAbsolute path = true) :
    cleanComponents (components path) =
      .root :: (List.replicate (climbs [] (path.splitOn slash) % 2) .up ++ (place path).map .name) := by
  have hcomponents : components path = .root :: (path.splitOn slash).filterMap inner? := by
    rw [components, pieces_eq, h]
    rfl
  have hstart : cleanStep [] (.root : Component α) = cleaned 0 [] := rfl
  rw [hcomponents, cleanComponents, List.foldl_cons, hstart, foldl_cleanStep, Nat.zero_add]
  simp [cleaned, place, placeFrom]

/-- the text of a cleaned path -/
theorem clean_text {path : List α} (h : isAbsolute path = true) :
    clean path = rooted (List.replicate (climbs [] (path.splitOn slash) % 2) [dot, dot] ++ place path) := by
  rw [clean, cleanComponents_eq h, ofComponents, rooted, relativeText]
  simp [Component.text, Function.comp_def]

/-! ## Cleaned paths -/

/-- the path is the root, so many `..`, not more than one, and then these names -/
structure Settled (path : List α) (ups : Nat) (names : List (List α)) : Prop where
  few : ups < 2
  plain : ∀ name ∈ names, Plain name
  text : path = rooted (List.replicate ups [dot, dot] ++ names)

theorem settled_clean {path : List α} (h : isAbsolute path = true) :
    Settled (clean path) (climbs [] (path.splitOn slash) % 2) (place path) :=
  ⟨Nat.mod_lt _ Nat.two_pos, plain_of_mem_place, clean_text h⟩

namespace Settled

variable {path : List α} {ups : Nat} {names : List (List α)}

theorem isAbsolute (h : Settled path ups names) : isAbsolute path = true := isAbsolute_iff.2 ⟨_, h.text⟩

omit [DecidableEq α] in
theorem pieces (h : Settled path ups names) :
    ∀ piece ∈ List.replicate ups [dot, dot] ++ names, piece = [dot, dot] ∨ Plain piece := fun piece hpiece =>
  (List.mem_append.1 hpiece).imp List.eq_of_mem_replicate (h.plain piece)

omit [DecidableEq α] in
theorem unbroken (h : Settled path ups names) : ∀ piece ∈ List.replicate ups [dot, dot] ++ names, slash ∉ piece := by
  intro piece hpiece
  rcases h.pieces piece hpiece with rfl | hplain
  · simp [dot_ne_slash.symm]
  · exact hplain.unbroken

theorem place_eq (h : Settled path ups names) : place path = names := by
  rw [place, placeFrom, h.text, foldl_walk_rooted h.unbroken, List.foldl_append, foldl_walk_ups,
    foldl_walk_plain h.plain, List.nil_append]

theorem climbs_eq (h : Settled path ups names) : climbs [] (path.splitOn slash) = ups := by
  rw [h.text, climbs_rooted h.unbroken]
  obtain rfl | rfl : ups = 0 ∨ ups = 1 := by have := h.few; omega
  · exact climbs_plain h.plain []
  · rw [List.replicate_one, List.singleton_append, climbs, climb_up_root, walk_up, List.dropLast_nil,
      climbs_plain h.plain]

theorem clean_eq (h : Settled path ups names) : clean path = path := by
  rw [clean_text h.isAbsolute, h.climbs_eq, h.place_eq, Nat.mod_eq_of_lt h.few, h.text]

theorem components_eq (h : Settled path ups names) :
    components path = .root :: (List.replicate ups .up ++ names.map .name) := by
  have hnames : names.filterMap inner? = names.map .name := by
    rw [← List.filterMap_eq_map]
    exact List.filterMap_congr fun name hname => (h.plain name hname).inner?_eq
  have hups : (List.replicate ups [dot, dot]).filterMap inner? = List.replicate ups (.up : Component α) :=
    List.filterMap_replicate_of_some inner?_up
  have hpieces : (path.splitOn slash).filterMap inner? = List.replicate ups .up ++ names.map .name := by
    rw [← hups, ← hnames, ← List.filterMap_append, h.text, splitOn_rooted h.unbroken]
    split_ifs with hnil
    · rw [hnil]
      rfl
    · rfl
  rw [components, pieces_eq, h.isAbsolute, hpieces]
  rfl

end Settled

end RawPath

/-! ## Texts -/

namespace Path

open RawPath (climbs)

/-- the place of a path that is followed from another place -/
def placeFrom (base : List (List Char)) (path : String) : List (List Char) := RawPath.placeFrom base path.toList

/-- the place of a path that is followed from the root -/
def place (path : String) : List (List Char) := RawPath.place path.toList

theorem toList_clean (path : String) : (clean path).toList = RawPath.clean path.toList := String.toList_ofList

/-- **What cleaning leaves of an absolute path.** -/
theorem clean_climbs {path : String} (h : isAbsolute path = true) :
    let ups := climbs [] (path.toList.splitOn '/') % 2
    (clean path).toList = '/' :: List.intercalate ['/'] (List.replicate ups ['.', '.'] ++ place path) ∧
      components (clean path) = .root :: (List.replicate ups .up ++ (place path).map .name) := by
  have hclean := RawPath.settled_clean h
  refine ⟨(toList_clean path).trans hclean.text, ?_⟩
  rw [components, toList_clean]
  exact hclean.components_eq

/-- two `..` go up from the root, and a cleaned path keeps neither -/
theorem second_climb_lost :
    isAbsolute "/../.." = true ∧ climbs [] ("/../..".toList.splitOn '/') = 2 ∧ clean "/../.." = "/" ∧
      ¬∀ path, isAbsolute path = true → (clean path).toList = '/' :: List.intercalate ['/']
        (List.replicate (climbs [] (path.toList.splitOn '/')) ['.', '.'] ++ place path) := by
  refine ⟨by decide, by decide, by decide, fun h => ?_⟩
  exact absurd (h "/../.." (by decide)) (by decide)

/-- up from the root three times, with a name that is left in between -/
theorem clean_climbs_sample :
    isAbsolute "/../a/../../b/../../c" = true ∧ climbs [] ("/../a/../../b/../../c".toList.splitOn '/') = 3 ∧
      clean "/../a/../../b/../../c" = "/../c" ∧
      components (clean "/../a/../../b/../../c") = [.root, .up, .name ['c']] := by
  have habsolute : isAbsolute "/../a/../../b/../../c" = true := by decide
  obtain ⟨htext, hcomponents⟩ := clean_climbs habsolute
  exact ⟨habsolute, by decide, String.toList_inj.1 htext, hcomponents⟩

end Path

end LaunchReports
