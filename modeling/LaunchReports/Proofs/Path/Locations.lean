/-
Where the home, the working directory and the database are.

`Refused` says for which choices there are no places, `designated` which place a choice means for the database.

- `resolve_places`: every other choice is resolved. The three paths are absolute, cleaning leaves them as they are, and
  they lead to the home, the working directory and the designated place. An absolute choice alone decides the database,
  a relative one whose first component is not `~` together with the working directory.
- `stray_tilde_accepted`: only a text is refused for the `~` that it begins with. Other bytes are taken as they are.
-/
import LaunchReports.Path.Locations
import LaunchReports.Proofs.Path.Joining
import LaunchReports.Proofs.Text.Utf8

namespace LaunchReports
namespace RawPath

open PathLetter

variable {α : Type} [DecidableEq α] [PathLetter α]

/-! ## What stands behind a component -/

theorem text_of_inner? {piece : List α} {c : Component α} (h : inner? piece = some c) :
    c.text = piece ∧ c ≠ .root ∧ piece ≠ [] := by
  have hwritten : piece ≠ [] := by
    rintro rfl
    cases h
  rcases inner?_cases piece with ⟨hinner, -⟩ | ⟨hinner, rfl⟩ | ⟨hinner, -⟩ <;> cases hinner.symm.trans h
  · exact ⟨rfl, nofun, hwritten⟩
  · exact ⟨rfl, nofun, hwritten⟩

/-- the texts of components lead where the pieces lead that they were read from -/
theorem foldl_walk_texts (pieces names : List (List α)) :
    ((pieces.filterMap inner?).map Component.text).foldl walk names = pieces.foldl walk names := by
  induction pieces generalizing names with
  | nil => rfl
  | cons piece pieces ih =>
    rw [List.foldl_cons, ← ih]
    cases hinner : inner? piece with
    | none =>
      have hnothing : walk names piece = names := by
        rcases inner?_cases piece with ⟨-, h⟩ | ⟨h, -⟩ | ⟨h, -⟩
        · exact (h names).1
        · cases h.symm.trans hinner
        · cases h.symm.trans hinner
      rw [List.filterMap_cons_none hinner, hnothing]
    | some c => rw [List.filterMap_cons_some hinner, List.map_cons, List.foldl_cons, (text_of_inner? hinner).1]

variable {pieces : List (List α)}

theorem splitOn_ofComponents (h : ∀ piece ∈ pieces, slash ∉ piece) :
    (ofComponents (pieces.filterMap inner?)).splitOn slash =
      if pieces.filterMap inner? = [] then [[]] else (pieces.filterMap inner?).map Component.text := by
  have hinner : ∀ c ∈ pieces.filterMap inner?, c.text ∈ pieces ∧ c ≠ .root := by
    intro c hc
    obtain ⟨piece, hpiece, hread⟩ := List.mem_filterMap.1 hc
    obtain ⟨htext, hroot, -⟩ := text_of_inner? hread
    exact ⟨htext ▸ hpiece, hroot⟩
  revert hinner
  cases pieces.filterMap inner? with
  | nil => exact fun _ => rfl
  | cons c cs =>
    intro hinner
    have htext : ofComponents (c :: cs) = relativeText (c :: cs) := by
      unfold ofComponents
      split
      next hroot => exact absurd (List.cons.inj hroot).1 (hinner c List.mem_cons_self).2
      next => rfl
    rw [htext, relativeText, if_neg (List.cons_ne_nil c cs)]
    refine List.splitOn_intercalate slash (fun text hmem => ?_) (by simp)
    obtain ⟨d, hd, rfl⟩ := List.mem_map.1 hmem
    exact h _ (hinner d hd).1

/-- components without a root are a relative path, which leads on from any place -/
theorem placeFrom_ofComponents (h : ∀ piece ∈ pieces, slash ∉ piece) (names : List (List α)) :
    placeFrom names (ofComponents (pieces.filterMap inner?)) = pieces.foldl walk names := by
  rw [← foldl_walk_texts, placeFrom, splitOn_ofComponents h]
  split_ifs with hnil
  · rw [hnil]
    rfl
  · rfl

theorem isAbsolute_ofComponents (h : ∀ piece ∈ pieces, slash ∉ piece) :
    isAbsolute (ofComponents (pieces.filterMap inner?)) = false := by
  rw [← Bool.not_eq_true, isAbsolute_iff]
  rintro ⟨rest, hrest⟩
  have hsplit := splitOn_ofComponents h
  -- a slash in front would leave an empty piece before it
  rw [hrest, List.splitOn_cons_eq_if_modifyHead, if_pos (by simp)] at hsplit
  split_ifs at hsplit with hnil
  · exact List.splitOn_ne_nil slash rest (List.cons.inj hsplit).2
  · obtain ⟨c, cs, hcs⟩ := List.exists_cons_of_ne_nil hnil
    obtain ⟨piece, -, hread⟩ := List.mem_filterMap.1 (hcs ▸ List.mem_cons_self : c ∈ pieces.filterMap inner?)
    obtain ⟨htext, -, hwritten⟩ := text_of_inner? hread
    rw [hcs, List.map_cons] at hsplit
    exact hwritten (htext.symm.trans (List.cons.inj hsplit).1.symm)

/-! ## The first component -/

variable {path name : List α} {rest : List (List α)}

/-- only an absolute path, or an empty one, has nothing before its first slash -/
theorem first_eq_nil (h : path.splitOn slash = [] :: rest) : isAbsolute path = true ∨ path = [] := by
  cases path with
  | nil => exact .inr rfl
  | cons c path =>
    rw [List.splitOn_cons_eq_if_modifyHead] at h
    split_ifs at h with hc
    · rw [beq_iff_eq] at hc
      exact .inl (isAbsolute_iff.2 ⟨path, by rw [hc]⟩)
    · obtain ⟨first, behind, hsplit⟩ := List.exists_cons_of_ne_nil (List.splitOn_ne_nil slash path)
      rw [hsplit] at h
      cases h

/-- a name before the first slash is the first component, and the pieces behind it follow -/
theorem components_of_first (hname : Plain name) (h : path.splitOn slash = name :: rest) :
    components path = .name name :: rest.filterMap inner? := by
  have hrelative : isAbsolute path = false := by
    rw [← Bool.not_eq_true, isAbsolute_iff]
    rintro ⟨behind, rfl⟩
    rw [List.splitOn_cons_eq_if_modifyHead, if_pos (by simp)] at h
    exact hname.written (List.cons.inj h).1.symm
  have hcurrent : (pieces path).head? ≠ some [dot] := by
    rw [pieces_eq, h]
    simpa using hname.not_current
  rw [components, if_neg hcurrent, hrelative, pieces_eq, h, List.filterMap_cons_some hname.inner?_eq]
  rfl

/-- a first component that is a name stands before the first slash -/
theorem first_of_components (hfirst : (components path).head? = some (.name name)) :
    (path.splitOn slash).head? = some name := by
  obtain ⟨first, rest, hsplit⟩ := List.exists_cons_of_ne_nil (List.splitOn_ne_nil slash path)
  cases habsolute : isAbsolute path with
  | true =>
    rw [components, habsolute] at hfirst
    cases hfirst
  | false =>
    rw [components, habsolute, pieces_eq, hsplit] at hfirst
    by_cases hnil : first = []
    · obtain rfl : path = [] := (first_eq_nil (hnil ▸ hsplit)).resolve_left (by simp [habsolute])
      obtain rfl : rest = [] := (List.cons.inj hsplit).2.symm
      simp [hnil, inner?] at hfirst
    by_cases hcurrent : first = [dot]
    · simp [hcurrent] at hfirst
    by_cases hup : first = [dot, dot]
    · simp [hup, inner?_up] at hfirst
    have hinner : inner? first = some (.name first) := by simp [inner?, hnil, hcurrent, hup]
    rw [hsplit]
    simpa [hcurrent, hinner] using hfirst

end RawPath

namespace Places

open RawPath PathLetter

/-! ## Choices -/

/-- the path is a text that begins like a home, but its first component is another name than `~` -/
def Foreign (path : List UInt8) (text : String) : Prop :=
  path = utf8 text ∧ text.toList.head? = some '~' ∧ (path.splitOn slash).head? ≠ some (utf8 "~")

/-- why there are no places, the first reason first -/
inductive Refused (home workingDirectory : List UInt8) (chosen : Option (List UInt8)) : LocationError → Prop
  | home : isAbsolute home = false →
      Refused home workingDirectory chosen (.notAbsolute "home_dir" (Utf8.display home))
  | workingDirectory : isAbsolute home = true → isAbsolute workingDirectory = false →
      Refused home workingDirectory chosen (.notAbsolute "cwd" (Utf8.display workingDirectory))
  | foreignHome {path : List UInt8} {text : String} : isAbsolute home = true → isAbsolute workingDirectory = true →
      chosen = some path → Foreign path text → Refused home workingDirectory chosen (.foreignHome text)

/-- the place that a choice means, seen from the places of the home and the working directory -/
def designated (home workingDirectory : List (List UInt8)) : Option (List UInt8) → List (List UInt8)
  | none => home ++ [utf8 ".simstats", utf8 "stats.sqlite"]
  | some path =>
    if (path.splitOn slash).head? = some (utf8 "~") then (path.splitOn slash).tail.foldl walk home
    else placeFrom (if isAbsolute path then [] else workingDirectory) path

variable {home workingDirectory path : List UInt8} {chosen : Option (List UInt8)}

theorem plain_tilde : Plain (utf8 "~") := ⟨by decide, by decide, by decide, by decide⟩

theorem Foreign.expandHome_eq {text : String} (h : Foreign path text) :
    expandHome home path = .error (.foreignHome text) := by
  obtain ⟨rfl, hhead, hfirst⟩ := h
  have hcomponents : (components (utf8 text)).head? ≠ some (.name (utf8 "~")) := fun h => hfirst (first_of_components h)
  rw [expandHome, if_neg hcomponents, Utf8.text?_eq_some_iff.2 rfl, if_pos (by simpa using hhead), Utf8.display_utf8]

/-- behind `~` stands a path inside the home -/
theorem expandHome_own (home : List UInt8) {rest : List (List UInt8)} (h : path.splitOn slash = utf8 "~" :: rest) :
    ∃ inner, expandHome home path = .ok (join home inner) ∧ isAbsolute inner = false ∧
      ∀ names, placeFrom names inner = rest.foldl walk names := by
  have hunbroken : ∀ piece ∈ rest, slash ∉ piece := fun piece hp =>
    not_mem_of_mem_splitOn (h ▸ List.mem_cons_of_mem _ hp)
  refine ⟨ofComponents (rest.filterMap inner?), ?_, isAbsolute_ofComponents hunbroken,
    placeFrom_ofComponents hunbroken⟩
  rw [expandHome, components_of_first plain_tilde h, List.head?_cons, if_pos rfl, List.tail_cons]

theorem expandHome_other (hfirst : (path.splitOn slash).head? ≠ some (utf8 "~")) (hforeign : ∀ text, ¬Foreign path text) :
    expandHome home path = .ok path := by
  have hcomponents : (components path).head? ≠ some (.name (utf8 "~")) := fun h => hfirst (first_of_components h)
  have htext : (Utf8.text? path).any (fun text => text.toList.head? = some '~') = false := by
    cases hread : Utf8.text? path with
    | none => rfl
    | some text =>
      have hhead := fun hhead => hforeign text ⟨Utf8.text?_eq_some_iff.1 hread, hhead, hfirst⟩
      simpa using hhead
  rw [expandHome, if_neg hcomponents, htext, if_neg Bool.false_ne_true]

/-! ## Resolving -/

theorem resolve_home (h : isAbsolute home = false) :
    resolve home workingDirectory chosen = .error (.notAbsolute "home_dir" (Utf8.display home)) := by
  rw [resolve, absolute, if_neg (by simp [h])]
  rfl

theorem resolve_workingDirectory (hhome : isAbsolute home = true) (h : isAbsolute workingDirectory = false) :
    resolve home workingDirectory chosen = .error (.notAbsolute "cwd" (Utf8.display workingDirectory)) := by
  rw [resolve, absolute, absolute, if_pos hhome, if_neg (by simp [h])]
  rfl

theorem resolve_none (hhome : isAbsolute home = true) (hwork : isAbsolute workingDirectory = true) :
    resolve home workingDirectory none =
      .ok ⟨clean home, clean workingDirectory, join (join (clean home) (utf8 ".simstats")) (utf8 "stats.sqlite")⟩ := by
  rw [resolve, absolute, absolute, if_pos hhome, if_pos hwork]
  rfl

theorem resolve_some (hhome : isAbsolute home = true) (hwork : isAbsolute workingDirectory = true)
    (path : List UInt8) :
    resolve home workingDirectory (some path) = (expandHome (clean home) path).map fun expanded =>
      ⟨clean home, clean workingDirectory, clean (join (clean workingDirectory) expanded)⟩ := by
  rw [resolve, absolute, absolute, if_pos hhome, if_pos hwork]
  cases hexpanded : expandHome (clean home) path <;>
    simp [bind, Except.bind, Except.map, pure, Except.pure, hexpanded]

/-- a path that is not the home's stands behind the working directory -/
theorem resolve_other (hhome : isAbsolute home = true) (hwork : isAbsolute workingDirectory = true)
    (hfirst : (path.splitOn slash).head? ≠ some (utf8 "~")) (hforeign : ∀ text, ¬Foreign path text) :
    resolve home workingDirectory (some path) =
      .ok ⟨clean home, clean workingDirectory, clean (join (clean workingDirectory) path)⟩ := by
  rw [resolve_some hhome hwork, expandHome_other hfirst hforeign]
  rfl

theorem Refused.resolve_eq {e : LocationError} (h : Refused home workingDirectory chosen e) :
    resolve home workingDirectory chosen = .error e := by
  cases h with
  | home h => exact resolve_home h
  | workingDirectory hhome h => exact resolve_workingDirectory hhome h
  | foreignHome hhome hwork hchosen hforeign =>
    rw [hchosen, resolve_some hhome hwork, hforeign.expandHome_eq]
    rfl

theorem leads_default {names : List (List UInt8)} (h : isAbsolute home = true) :
    Leads (join (join (clean home) (utf8 ".simstats")) (utf8 "stats.sqlite")) (designated (place home) names none) := by
  have hdirectory : Plain (utf8 ".simstats") := ⟨by decide, by decide, by decide, by decide⟩
  have hdatabase : Plain (utf8 "stats.sqlite") := ⟨by decide, by decide, by decide, by decide⟩
  have hsettled := ((settled_clean h).join hdirectory).join hdatabase
  rw [List.append_assoc] at hsettled
  exact hsettled.leads

theorem leads_own (base : List UInt8) (h : isAbsolute home = true) {inner : List UInt8}
    (hinner : isAbsolute inner = false) {rest names : List (List UInt8)}
    (hrest : ∀ names, placeFrom names inner = rest.foldl walk names) (hpath : path.splitOn slash = utf8 "~" :: rest) :
    Leads (clean (join base (join (clean home) inner))) (designated (place home) names (some path)) := by
  have habsolute : isAbsolute (join (clean home) inner) = true := isAbsolute_join (settled_clean h).isAbsolute
  have hplace : place (join (clean home) inner) = rest.foldl walk (place home) := by
    rw [place, placeFrom_join hinner, ← place, (settled_clean h).place_eq, hrest]
  have hdesignated : designated (place home) names (some path) = rest.foldl walk (place home) := by
    rw [designated, hpath, List.head?_cons, if_pos rfl, List.tail_cons]
  rw [join_absolute habsolute, hdesignated, ← hplace]
  exact (settled_clean habsolute).leads

theorem leads_other {base : List UInt8} (hbase : isAbsolute base = true) {names : List (List UInt8)}
    (hfirst : (path.splitOn slash).head? ≠ some (utf8 "~")) :
    Leads (clean (join (clean base) path)) (designated names (place base) (some path)) := by
  have habsolute : isAbsolute (join (clean base) path) = true := isAbsolute_join (settled_clean hbase).isAbsolute
  have hplace : place (join (clean base) path) = designated names (place base) (some path) := by
    rw [designated, if_neg hfirst]
    cases habs : isAbsolute path with
    | true => rw [join_absolute habs, if_pos rfl, place]
    | false => rw [place, placeFrom_join habs, ← place, (settled_clean hbase).place_eq, if_neg Bool.false_ne_true]
  rw [← hplace]
  exact (settled_clean habsolute).leads

/-- between absolute paths only a foreign home is refused -/
theorem resolve_cases (hhome : isAbsolute home = true) (hwork : isAbsolute workingDirectory = true)
    (chosen : Option (List UInt8)) :
    (∃ e, Refused home workingDirectory chosen e) ∨
      ∃ database, resolve home workingDirectory chosen = .ok ⟨clean home, clean workingDirectory, database⟩ ∧
        Leads database (designated (place home) (place workingDirectory) chosen) := by
  cases chosen with
  | none => exact .inr ⟨_, resolve_none hhome hwork, leads_default hhome⟩
  | some path =>
    by_cases hown : (path.splitOn slash).head? = some (utf8 "~")
    · obtain ⟨rest, hpieces⟩ := List.head?_eq_some_iff.1 hown
      obtain ⟨inner, hexpanded, hinner, hrest⟩ := expandHome_own (clean home) hpieces
      refine .inr ⟨_, ?_, leads_own (clean workingDirectory) hhome hinner hrest hpieces⟩
      rw [resolve_some hhome hwork, hexpanded]
      rfl
    by_cases hforeign : ∃ text, Foreign path text
    · obtain ⟨text, hforeign⟩ := hforeign
      exact .inl ⟨_, .foreignHome hhome hwork rfl hforeign⟩
    · exact .inr ⟨_, resolve_other hhome hwork hown (not_exists.1 hforeign), leads_other hwork hown⟩

/-- what is not refused is resolved -/
theorem refused_or_resolved (home workingDirectory : List UInt8) (chosen : Option (List UInt8)) :
    (∃ e, Refused home workingDirectory chosen e) ∨
      ∃ p, resolve home workingDirectory chosen = .ok p ∧ Leads p.home (place home) ∧
        Leads p.workingDirectory (place workingDirectory) ∧
        Leads p.database (designated (place home) (place workingDirectory) chosen) := by
  cases hhome : isAbsolute home with
  | false => exact .inl ⟨_, .home hhome⟩
  | true =>
    cases hwork : isAbsolute workingDirectory with
    | false => exact .inl ⟨_, .workingDirectory hhome hwork⟩
    | true =>
      rcases resolve_cases hhome hwork chosen with hrefused | ⟨database, hok, hdatabase⟩
      · exact .inl hrefused
      · exact .inr ⟨_, hok, (settled_clean hhome).leads, (settled_clean hwork).leads, hdatabase⟩

theorem resolve_eq_error_iff {e : LocationError} :
    resolve home workingDirectory chosen = .error e ↔ Refused home workingDirectory chosen e := by
  refine ⟨fun h => ?_, Refused.resolve_eq⟩
  rcases refused_or_resolved home workingDirectory chosen with ⟨reason, hrefused⟩ | ⟨p, hok, -⟩
  · cases hrefused.resolve_eq.symm.trans h
    exact hrefused
  · cases hok.symm.trans h

theorem absolute_of_resolve {p : Places} (h : resolve home workingDirectory chosen = .ok p) :
    isAbsolute home = true ∧ isAbsolute workingDirectory = true := by
  cases hhome : isAbsolute home with
  | false => cases (resolve_home hhome).symm.trans h
  | true =>
    cases hwork : isAbsolute workingDirectory with
    | false => cases (resolve_workingDirectory hhome hwork).symm.trans h
    | true => exact ⟨rfl, rfl⟩

/-- a choice that is not the home's, and not refused either, stands behind the working directory -/
theorem database_of_resolve {p : Places} (hfirst : (path.splitOn slash).head? ≠ some (utf8 "~"))
    (h : resolve home workingDirectory (some path) = .ok p) : p.database = clean (join p.workingDirectory path) := by
  obtain ⟨hhome, hwork⟩ := absolute_of_resolve h
  have hforeign : ∀ text, ¬Foreign path text := by
    intro text hforeign
    cases (Refused.foreignHome hhome hwork rfl hforeign).resolve_eq.symm.trans h
  cases (resolve_other hhome hwork hfirst hforeign).symm.trans h
  rfl

/-- **Where the places are.** -/
theorem resolve_places (home workingDirectory : List UInt8) (chosen : Option (List UInt8)) :
    (∀ e, resolve home workingDirectory chosen = .error e ↔ Refused home workingDirectory chosen e) ∧
    ((∀ e, ¬Refused home workingDirectory chosen e) → ∃ p, resolve home workingDirectory chosen = .ok p ∧
      Leads p.home (place home) ∧ Leads p.workingDirectory (place workingDirectory) ∧
      Leads p.database (designated (place home) (place workingDirectory) chosen)) ∧
    ∀ path p otherHome otherDirectory other, chosen = some path → (path.splitOn slash).head? ≠ some (utf8 "~") →
      resolve home workingDirectory chosen = .ok p → resolve otherHome otherDirectory chosen = .ok other →
      isAbsolute path = true ∨ other.workingDirectory = p.workingDirectory → other.database = p.database := by
  refine ⟨fun e => resolve_eq_error_iff, ?_, ?_⟩
  · intro haccepted
    rcases refused_or_resolved home workingDirectory chosen with ⟨e, hrefused⟩ | hresolved
    · exact absurd hrefused (haccepted e)
    · exact hresolved
  · rintro path p otherHome otherDirectory other rfl hfirst hp hother hsame
    rw [database_of_resolve hfirst hp, database_of_resolve hfirst hother]
    rcases hsame with habsolute | hdirectory
    · rw [join_absolute habsolute, join_absolute habsolute]
    · rw [hdirectory]

/-- more slashes behind `~`, and up from the home -/
theorem resolve_places_sample :
    (∀ e, ¬Refused (utf8 "/home//analyst/") (utf8 "/../srv/.") (some (utf8 "~//etc/../../x")) e) ∧
      ∃ p, resolve (utf8 "/home//analyst/") (utf8 "/../srv/.") (some (utf8 "~//etc/../../x")) = .ok p ∧
        Leads p.home [utf8 "home", utf8 "analyst"] ∧ Leads p.workingDirectory [utf8 "srv"] ∧
        Leads p.database [utf8 "home", utf8 "x"] := by
  have haccepted : ∀ e, ¬Refused (utf8 "/home//analyst/") (utf8 "/../srv/.") (some (utf8 "~//etc/../../x")) e := by
    intro e h
    cases h with
    | home h => exact absurd h (by decide)
    | workingDirectory _ h => exact absurd h (by decide)
    | foreignHome _ _ hchosen hforeign =>
      cases hchosen
      exact hforeign.2.2 (by decide)
  obtain ⟨p, hresolve, hhome, hwork, hdatabase⟩ :=
    (resolve_places (utf8 "/home//analyst/") (utf8 "/../srv/.") (some (utf8 "~//etc/../../x"))).2.1 haccepted
  exact ⟨haccepted, p, hresolve, hhome, hwork, hdatabase⟩

/-- a name that begins with `~` and is no text -/
def strayTilde : List UInt8 := [0x7E, 0xFF, 0x2F, 0x78]

/-- such a name is accepted, though its first component is not `~` -/
theorem stray_tilde_accepted :
    (strayTilde.head? = some 0x7E ∧ (strayTilde.splitOn slash).head? ≠ some (utf8 "~")) ∧
      resolve (utf8 "/home/analyst") (utf8 "/srv") (some strayTilde) =
        .ok ⟨utf8 "/home/analyst", utf8 "/srv", utf8 "/srv/" ++ strayTilde⟩ ∧
      ¬∀ home workingDirectory path, (∃ e, resolve home workingDirectory (some path) = .error e) ↔
        isAbsolute home = false ∨ isAbsolute workingDirectory = false ∨
          path.head? = some 0x7E ∧ (path.splitOn slash).head? ≠ some (utf8 "~") := by
  have hforeign : strayTilde.head? = some 0x7E ∧ (strayTilde.splitOn slash).head? ≠ some (utf8 "~") := by decide
  have hresolve : resolve (utf8 "/home/analyst") (utf8 "/srv") (some strayTilde) =
      .ok ⟨utf8 "/home/analyst", utf8 "/srv", utf8 "/srv/" ++ strayTilde⟩ := rfl
  refine ⟨hforeign, hresolve, fun hclaim => ?_⟩
  obtain ⟨e, he⟩ := (hclaim _ _ _).2 (.inr (.inr hforeign))
  cases hresolve.symm.trans he

end Places

end LaunchReports
