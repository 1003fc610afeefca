/-
Paths that are texts: what is done with their bytes could as well be done with their characters.

- `clean_utf8`, `join_utf8`: the bytes of a cleaned text are the cleaned bytes, and so for joined texts.
- `Locations.resolve_utf8`: the places of texts are texts, so nothing is lost where they are displayed.

No character but the slash has a byte that is one (`slash_mem_utf8EncodeChar`). So the pieces of the bytes are the bytes
of the pieces, and every operation keeps to pieces.
-/
import LaunchReports.Proofs.Path.Locations

namespace LaunchReports

namespace RawPath

open PathLetter

/-! ## Letters -/

theorem slash_mem_utf8EncodeChar {c : Char} : (slash : UInt8) ∈ String.utf8EncodeChar c ↔ c = slash := by
  have hchar : c = slash ↔ c.val.toNat = 47 := by rw [← Char.toNat_inj]; rfl
  have hslash : (slash : UInt8).toNat = 47 := rfl
  rw [hchar]
  unfold String.utf8EncodeChar
  generalize c.val.toNat = v
  dsimp only
  split_ifs <;>
    simp only [List.mem_cons, List.not_mem_nil, or_false, ← UInt8.toNat_inj, hslash, UInt8.toNat_ofNat',
      Nat.reducePow] <;>
    omega

theorem exists_utf8EncodeChar_eq (c : Char) : ∃ b rest, String.utf8EncodeChar c = b :: rest := by
  refine List.exists_cons_of_ne_nil fun hnil => ?_
  have hlength := congrArg List.length hnil
  rw [String.length_utf8EncodeChar] at hlength
  exact absurd hlength (Nat.ne_of_gt c.utf8Size_pos)

/-- the bytes of the characters -/
def bytes (text : List Char) : List UInt8 := text.flatMap String.utf8EncodeChar

theorem bytes_cons (c : Char) (text : List Char) : bytes (c :: text) = String.utf8EncodeChar c ++ bytes text := rfl

theorem bytes_append (front back : List Char) : bytes (front ++ back) = bytes front ++ bytes back := List.flatMap_append

theorem bytes_slash_cons (text : List Char) : bytes (slash :: text) = slash :: bytes text := rfl

theorem bytes_injective : Function.Injective bytes := by
  intro a b h
  have htexts : String.ofList a = String.ofList b := Utf8.utf8_injective (by rw [utf8_ofList, utf8_ofList]; exact h)
  rw [← String.toList_ofList (l := a), htexts, String.toList_ofList]

theorem slash_mem_bytes {text : List Char} : slash ∈ bytes text ↔ slash ∈ text := by
  simp [bytes, List.mem_flatMap, slash_mem_utf8EncodeChar]

/-! ## Pieces -/

theorem bytes_intercalate (list : List (List Char)) :
    bytes (List.intercalate [slash] list) = List.intercalate [slash] (list.map bytes) := by
  induction list with
  | nil => rfl
  | cons text list ih =>
    by_cases hnil : list = []
    · simp [hnil]
    · rw [List.intercalate_cons_of_ne_nil hnil, List.map_cons, List.intercalate_cons_of_ne_nil (by simpa using hnil),
        bytes_append, bytes_append, ih]
      rfl

/-- the pieces of the bytes are the bytes of the pieces -/
theorem splitOn_bytes (text : List Char) : (bytes text).splitOn slash = (text.splitOn slash).map bytes := by
  have htext : bytes text = List.intercalate [slash] ((text.splitOn slash).map bytes) := by
    rw [← bytes_intercalate, List.intercalate_splitOn]
  rw [htext]
  refine List.splitOn_intercalate slash (fun piece hpiece => ?_) (by simp)
  obtain ⟨letters, hletters, rfl⟩ := List.mem_map.1 hpiece
  rw [slash_mem_bytes]
  exact not_mem_of_mem_splitOn hletters

theorem isAbsolute_bytes (text : List Char) : isAbsolute (bytes text) = isAbsolute text := by
  cases text with
  | nil => rfl
  | cons c text =>
    by_cases hc : c = slash
    · rw [hc]
      rfl
    · obtain ⟨b, rest, hb⟩ := exists_utf8EncodeChar_eq c
      have hbyte : b ≠ slash := by
        rintro rfl
        exact hc (slash_mem_utf8EncodeChar.1 (by simp [hb]))
      simp [isAbsolute, bytes_cons, hb, hbyte, hc]

/-! ## Components -/

def Component.bytes : Component Char → Component UInt8
  | root => .root
  | current => .current
  | up => .up
  | name text => .name (RawPath.bytes text)

theorem inner?_bytes (piece : List Char) : inner? (bytes piece) = (inner? piece).map Component.bytes := by
  have hnil : bytes piece = [] ↔ piece = [] := bytes_injective.eq_iff' rfl
  have hcurrent : bytes piece = [dot] ↔ piece = [dot] := bytes_injective.eq_iff' rfl
  have hup : bytes piece = [dot, dot] ↔ piece = [dot, dot] := bytes_injective.eq_iff' rfl
  simp only [inner?, List.isEmpty_iff, hnil, hcurrent, hup, Bool.or_eq_true, decide_eq_true_eq]
  split_ifs <;> rfl

theorem components_bytes (text : List Char) : components (bytes text) = (components text).map Component.bytes := by
  have hfound : ((text.splitOn slash).map bytes).filterMap inner? =
      ((text.splitOn slash).filterMap inner?).map Component.bytes := by
    rw [List.filterMap_map, List.map_filterMap]
    exact List.filterMap_congr fun piece _ => inner?_bytes piece
  have hcurrent : ((text.splitOn slash).map bytes).head? = some [dot] ↔ (text.splitOn slash).head? = some [dot] := by
    rw [List.head?_map]
    exact (Option.map_injective bytes_injective).eq_iff' rfl
  rw [components, components, pieces_eq, pieces_eq, splitOn_bytes, isAbsolute_bytes]
  simp only [hfound, hcurrent]
  split_ifs <;> rfl

theorem ofComponents_bytes (list : List (Component Char)) :
    ofComponents (list.map Component.bytes) = bytes (ofComponents list) := by
  have htext : ∀ c : Component Char, c.bytes.text = bytes c.text := by
    intro c
    cases c <;> rfl
  have hrelative (list : List (Component Char)) : relativeText (list.map Component.bytes) = bytes (relativeText list) := by
    rw [relativeText, relativeText, bytes_intercalate, List.map_map, List.map_map]
    exact congrArg _ (List.map_congr_left fun c _ => htext c)
  cases list with
  | nil => rfl
  | cons c list =>
    cases c with
    | root =>
      show slash :: relativeText (list.map Component.bytes) = bytes (slash :: relativeText list)
      rw [bytes_slash_cons, hrelative]
    | current => exact hrelative (.current :: list)
    | up => exact hrelative (.up :: list)
    | name text => exact hrelative (.name text :: list)

/-! ## Operations -/

theorem cleanStep_bytes (done : List (Component Char)) (c : Component Char) :
    cleanStep (done.map Component.bytes) c.bytes = (cleanStep done c).map Component.bytes := by
  cases c with
  | root | current | name => rfl
  | up =>
    cases done with
    | nil => rfl
    | cons d done => cases d <;> rfl

theorem clean_bytes (text : List Char) : clean (bytes text) = bytes (clean text) := by
  have hfold (list done : List (Component Char)) :
      (list.map Component.bytes).foldl cleanStep (done.map Component.bytes) =
        (list.foldl cleanStep done).map Component.bytes := by
    induction list generalizing done with
    | nil => rfl
    | cons c list ih => rw [List.map_cons, List.foldl_cons, List.foldl_cons, cleanStep_bytes, ih]
  have hcomponents := hfold (components text) []
  rw [List.map_nil] at hcomponents
  rw [clean, clean, cleanComponents, cleanComponents, components_bytes, hcomponents, ← List.map_reverse,
    ofComponents_bytes]

theorem endsWith_bytes (text : List Char) :
    (bytes text).getLast?.all (· = slash) = text.getLast?.all (· = slash) := by
  rcases List.eq_nil_or_concat' text with rfl | ⟨front, c, rfl⟩
  · rfl
  · by_cases hc : c = slash
    · have hslash : bytes [slash] = [slash] := rfl
      rw [hc, bytes_append, hslash]
      simp
    · have hlast : ∀ b ∈ (String.utf8EncodeChar c).getLast?, b ≠ slash := by
        rintro b hb rfl
        exact hc (slash_mem_utf8EncodeChar.1 (List.mem_of_mem_getLast? hb))
      obtain ⟨b, rest, hb⟩ := exists_utf8EncodeChar_eq c
      have hsome : (b :: rest).getLast? = some ((b :: rest).getLast (List.cons_ne_nil b rest)) :=
        List.getLast?_eq_some_getLast _
      rw [hb, hsome] at hlast
      rw [bytes_append, bytes_cons, hb, List.getLast?_append, List.getLast?_append]
      simp [bytes, hsome, hlast _ rfl, hc]

theorem join_bytes (base text : List Char) : join (bytes base) (bytes text) = bytes (join base text) := by
  rw [join, join, isAbsolute_bytes, endsWith_bytes]
  split_ifs
  · rfl
  · rw [bytes_append]
  · rw [bytes_append, bytes_slash_cons]

theorem clean_utf8 (path : String) : clean (utf8 path) = utf8 (Path.clean path) := by
  rw [Path.clean, utf8_ofList, utf8_eq]
  exact clean_bytes _

theorem join_utf8 (base path : String) : join (utf8 base) (utf8 path) = utf8 (Path.join base path) := by
  rw [Path.join, utf8_ofList, utf8_eq, utf8_eq]
  exact join_bytes _ _

end RawPath

/-! ## Places -/

open RawPath

theorem Places.expandHome_utf8 {home path : String} {expanded : List UInt8}
    (h : expandHome (utf8 home) (utf8 path) = .ok expanded) : ∃ text, expanded = utf8 text := by
  unfold expandHome at h
  split_ifs at h
  · have hrest : ofComponents (components (utf8 path)).tail =
        utf8 (String.ofList (ofComponents (components path.toList).tail)) := by
      rw [utf8_ofList, utf8_eq]
      show ofComponents (components (bytes path.toList)).tail = bytes _
      rw [components_bytes, ← List.map_tail, ofComponents_bytes]
    cases h
    exact ⟨_, by rw [hrest, join_utf8]⟩
  · cases h
    exact ⟨_, rfl⟩

/-- the places of texts, before they are displayed -/
theorem Places.resolve_utf8 {home workingDirectory : String} {chosen : Option String} {p : Places}
    (h : resolve (utf8 home) (utf8 workingDirectory) (chosen.map utf8) = .ok p) :
    ∃ database, p = ⟨utf8 (Path.clean home), utf8 (Path.clean workingDirectory), utf8 database⟩ := by
  obtain ⟨hhome, hwork⟩ := absolute_of_resolve h
  cases chosen with
  | none =>
    have hok := (resolve_none hhome hwork).symm.trans h
    simp only [clean_utf8, join_utf8, Except.ok.injEq] at hok
    exact ⟨_, hok.symm⟩
  | some path =>
    have hok := (resolve_some hhome hwork (utf8 path)).symm.trans h
    simp only [clean_utf8] at hok
    cases hexpanded : expandHome (utf8 (Path.clean home)) (utf8 path) with
    | error e =>
      rw [hexpanded] at hok
      cases hok
    | ok expanded =>
      obtain ⟨text, rfl⟩ := expandHome_utf8 hexpanded
      simp only [hexpanded, Except.map, join_utf8, clean_utf8, Except.ok.injEq] at hok
      exact ⟨_, hok.symm⟩

/-- **The places of texts are texts.** -/
theorem Locations.resolve_utf8 {home workingDirectory : String} {chosen : Option String} {l : Locations}
    (h : resolve home workingDirectory chosen = .ok l) :
    Places.resolve (utf8 home) (utf8 workingDirectory) (chosen.map utf8) =
        .ok ⟨utf8 l.home, utf8 l.workingDirectory, utf8 l.database⟩ ∧
      l.home = Path.clean home ∧ l.workingDirectory = Path.clean workingDirectory := by
  unfold resolve at h
  cases hplaces : Places.resolve (utf8 home) (utf8 workingDirectory) (chosen.map utf8) with
  | error e =>
    rw [hplaces] at h
    cases h
  | ok p =>
    obtain ⟨database, rfl⟩ := Places.resolve_utf8 hplaces
    rw [hplaces] at h
    obtain rfl := Except.ok.inj h
    simp only [Places.display, Utf8.display_utf8, and_self]

end LaunchReports
