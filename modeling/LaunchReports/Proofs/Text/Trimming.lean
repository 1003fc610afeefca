/-
White space around a text.

- `Text.Trimmed.trim_append`: white space around a text is what trimming takes off.
- `Text.exists_trim`: and nothing else is, from a text that is not all white space.
-/
import Mathlib.Data.List.Basic
import Mathlib.Data.List.TakeWhile
import LaunchReports.Text.Blank

namespace LaunchReports.Text

/-- not empty, without white space at either end -/
structure Trimmed (text : List Char) : Prop where
  ne_nil : text ≠ []
  first : ∀ c ∈ text.head?, isBlank c = false
  last : ∀ c ∈ text.getLast?, isBlank c = false

theorem trimmed_iff {text : List Char} :
    Trimmed text ↔ text ≠ [] ∧ (text.head?.all fun c => !isBlank c) = true ∧
      (text.getLast?.all fun c => !isBlank c) = true := by
  simp only [Option.all_eq_true, Bool.not_eq_true']
  exact ⟨fun h => ⟨h.ne_nil, h.first, h.last⟩, fun ⟨hne, hfirst, hlast⟩ => ⟨hne, hfirst, hlast⟩⟩

-- by the two characters at the ends; a search through all characters would not come to an end
instance (text : List Char) : Decidable (Trimmed text) := decidable_of_iff _ trimmed_iff.symm

/-- a text is trimmed if the pieces at its ends are free of white space -/
theorem Trimmed.of_ends {front back : List Char} (middle : List Char) (hfront : front ≠ []) (hback : back ≠ [])
    (hf : ∀ c ∈ front, isBlank c = false) (hb : ∀ c ∈ back, isBlank c = false) :
    Trimmed (front ++ middle ++ back) := by
  refine ⟨List.append_ne_nil_of_right_ne_nil _ hback, ?_, ?_⟩
  · intro c hc
    rw [List.append_assoc, List.head?_append_of_ne_nil _ hfront] at hc
    exact hf c (List.mem_of_mem_head? hc)
  · intro c hc
    rw [List.getLast?_append_of_ne_nil _ hback] at hc
    exact hb c (List.mem_of_mem_getLast? hc)

theorem dropWhile_isBlank {blanks text : List Char} (hblanks : allBlank blanks = true)
    (htext : ∀ c ∈ text.head?, isBlank c = false) : (blanks ++ text).dropWhile isBlank = text := by
  rw [List.dropWhile_append_of_pos (List.all_eq_true.1 hblanks)]
  cases text with
  | nil => rfl
  | cons c text => rw [List.dropWhile_cons, htext c rfl]; rfl

theorem allBlank_reverse {blanks : List Char} (h : allBlank blanks = true) : allBlank blanks.reverse = true := by
  rwa [allBlank, List.all_reverse]

/-- white space around a text is what trimming takes off -/
theorem Trimmed.trim_append {text : List Char} (h : Trimmed text) {before after : List Char}
    (hbefore : allBlank before = true) (hafter : allBlank after = true) : trim (before ++ text ++ after) = text := by
  have hstart : trimStart (before ++ text ++ after) = text ++ after := by
    rw [trimStart, List.append_assoc]
    apply dropWhile_isBlank hbefore
    rw [List.head?_append_of_ne_nil _ h.ne_nil]
    exact h.first
  rw [trim, hstart, trimEnd, List.reverse_append, dropWhile_isBlank (allBlank_reverse hafter), List.reverse_reverse]
  rw [List.head?_reverse]
  exact h.last

theorem Trimmed.trim_eq {text : List Char} (h : Trimmed text) : trim text = text := by
  have hbare : trim ([] ++ text ++ []) = text := h.trim_append rfl rfl
  rwa [List.nil_append, List.append_nil] at hbare

/-- a text is not all white space if something in it is trimmed -/
theorem Trimmed.allBlank_append {text : List Char} (h : Trimmed text) (before after : List Char) :
    allBlank (before ++ text ++ after) = false := by
  obtain ⟨c, rest, rfl⟩ := List.exists_cons_of_ne_nil h.ne_nil
  refine List.all_eq_false.2 ⟨c, by simp, ?_⟩
  rw [h.first c rfl]
  exact Bool.false_ne_true

/-- white space in front, and then something else -/
theorem exists_dropWhile {text : List Char} (h : allBlank text = false) :
    ∃ blanks c rest, text = blanks ++ c :: rest ∧ text.dropWhile isBlank = c :: rest ∧ allBlank blanks = true ∧
      isBlank c = false := by
  cases hrest : text.dropWhile isBlank with
  | nil =>
    have hall : text.all isBlank = true := List.all_eq_true.2 (List.dropWhile_eq_nil_iff.1 hrest)
    rw [allBlank, hall] at h
    cases h
  | cons c rest =>
    refine ⟨text.takeWhile isBlank, c, rest, ?_, rfl, List.all_takeWhile, ?_⟩
    · rw [← hrest, List.takeWhile_append_dropWhile]
    · have hhead := List.head?_dropWhile_not isBlank text
      rwa [hrest] at hhead

/-- trimming leaves what stands between the white space at both ends -/
theorem exists_trim {text : List Char} (h : allBlank text = false) :
    ∃ before after, text = before ++ trim text ++ after ∧ allBlank before = true ∧ allBlank after = true ∧
      Trimmed (trim text) := by
  obtain ⟨before, c, rest, htext, hstart, hbefore, hc⟩ := exists_dropWhile h
  have hreverse : allBlank (c :: rest).reverse = false := by
    rw [allBlank, List.all_reverse, List.all_cons, hc, Bool.false_and]
  obtain ⟨after, d, body, hbody, hend, hafter, hd⟩ := exists_dropWhile hreverse
  have htrim : trim text = (d :: body).reverse := by rw [trim, trimStart, hstart, trimEnd, hend]
  have hwhole : c :: rest = (d :: body).reverse ++ after.reverse := by
    rw [← List.reverse_append, ← hbody, List.reverse_reverse]
  rw [htrim]
  refine ⟨before, after.reverse, ?_, hbefore, allBlank_reverse hafter, by simp, fun e he => ?_, fun e he => ?_⟩
  · rw [htext, hwhole, List.append_assoc]
  · have hhead := congrArg List.head? hwhole
    rw [List.head?_append_of_ne_nil _ (by simp), he] at hhead
    cases hhead
    exact hc
  · rw [List.getLast?_reverse] at he
    cases he
    exact hd

end LaunchReports.Text
