/-
The characters in the text of a real.

`Binary64.mem_text`: digits, the marks and letters of `Binary64.marks`, and what the style ends a whole number with.
-/
import LaunchReports.Number.Shortest
import LaunchReports.Proofs.Number.Numerals

namespace LaunchReports

namespace Scientific

variable {s : Scientific} {c : Char}

theorem isDigit_of_mem_ofSteps {steps : Nat} {e : Int} (h : c ∈ (ofSteps steps e).digits) : c.isDigit = true := by
  have hdigits : c ∈ (Numeral.ofNat steps).reverse.dropWhile (· = '0') := List.mem_reverse.1 h
  exact Numeral.isDigit_of_mem_ofNat (List.mem_reverse.1 ((List.dropWhile_sublist _).subset hdigits))

/-- the shortest digits are those of a grid -/
theorem exists_shortest (tie : Tie) (m : Nat) (q : Int) : ∃ steps e, shortest tie m q = ofSteps steps e := by
  unfold shortest
  dsimp only
  cases hfound : (List.range 17).findSome? _ with
  | none => exact ⟨_, _, rfl⟩
  | some found =>
    obtain ⟨n, -, hn⟩ := List.exists_of_findSome?_eq_some hfound
    obtain ⟨steps, -, rfl⟩ := Option.map_eq_some_iff.1 hn
    exact ⟨steps, _, rfl⟩

theorem isDigit_of_mem_shortest {tie : Tie} {m : Nat} {q : Int} (h : c ∈ (shortest tie m q).digits) :
    c.isDigit = true := by
  obtain ⟨steps, e, hsteps⟩ := exists_shortest tie m q
  exact isDigit_of_mem_ofSteps (hsteps ▸ h)

theorem isDigit_of_mem_zeros {n : Nat} (h : c ∈ List.replicate n '0') : c.isDigit = true := by
  rw [List.eq_of_mem_replicate h]
  rfl

theorem mem_positional (hdigits : ∀ d ∈ s.digits, d.isDigit = true) {whole : List Char} (h : c ∈ s.positional whole) :
    c.isDigit = true ∨ c = '.' ∨ c ∈ whole := by
  unfold positional at h
  dsimp only at h
  split_ifs at h with hsmall hwhole
  · simp only [List.cons_append, List.mem_cons, List.mem_append] at h
    rcases h with rfl | rfl | hzero | hdigit
    · exact .inl rfl
    · exact .inr (.inl rfl)
    · exact .inl (isDigit_of_mem_zeros hzero)
    · exact .inl (hdigits c hdigit)
  · simp only [List.mem_append] at h
    rcases h with (hdigit | hzero) | hend
    · exact .inl (hdigits c hdigit)
    · exact .inl (isDigit_of_mem_zeros hzero)
    · exact .inr (.inr hend)
  · simp only [List.mem_append, List.mem_cons] at h
    rcases h with hdigit | rfl | hdigit
    · exact .inl (hdigits c (List.mem_of_mem_take hdigit))
    · exact .inr (.inl rfl)
    · exact .inl (hdigits c (List.mem_of_mem_drop hdigit))

theorem mem_exponential (hdigits : ∀ d ∈ s.digits, d.isDigit = true) (h : c ∈ s.exponential) :
    c.isDigit = true ∨ c ∈ ['.', 'e', '-', '+'] := by
  unfold exponential at h
  simp only [List.mem_append, List.mem_cons] at h
  rcases h with (hdigit | hfraction) | rfl | hsign | hexponent
  · exact .inl (hdigits c (List.mem_of_mem_take hdigit))
  · split_ifs at hfraction
    · cases hfraction
    · rcases List.mem_cons.1 hfraction with rfl | hdigit
      · exact .inr (by decide)
      · exact .inl (hdigits c (List.mem_of_mem_drop hdigit))
  · exact .inr (by decide)
  · split_ifs at hsign <;> exact .inr (by rw [hsign]; decide)
  · exact .inl (Numeral.isDigit_of_mem_ofNat hexponent)

end Scientific

namespace Binary64

/-- what stands in the text of a real beside digits -/
def marks : List Char := ['.', 'e', '-', '+', 'N', 'a', 'i', 'n', 'f']

theorem mem_layout {style : RealStyle} {s : Scientific} (hdigits : ∀ d ∈ s.digits, d.isDigit = true) {c : Char}
    (h : c ∈ style.layout s) : c.isDigit = true ∨ c ∈ marks ∨ c ∈ style.whole := by
  have hpositional (h : c ∈ s.positional style.whole) : c.isDigit = true ∨ c ∈ marks ∨ c ∈ style.whole :=
    (Scientific.mem_positional hdigits h).imp_right (Or.imp_left fun hpoint => by rw [hpoint]; decide)
  unfold RealStyle.layout at h
  split at h
  · exact hpositional h
  · split_ifs at h
    · exact hpositional h
    · have hmarks : ['.', 'e', '-', '+'] ⊆ marks := by decide
      exact (Scientific.mem_exponential hdigits h).imp_right fun hmark => .inl (hmarks hmark)

theorem mem_text {x : Binary64} {style : RealStyle} {c : Char} (h : c ∈ x.text style) :
    c.isDigit = true ∨ c ∈ marks ∨ c ∈ style.whole := by
  unfold text at h
  cases hform : x.form with
  | nan =>
    have hword : ['N', 'a', 'N'] ⊆ marks := by decide
    rw [hform] at h
    exact .inr (.inl (hword h))
  | infinite negative =>
    have hwords : ['-', 'i', 'n', 'f'] ⊆ marks ∧ ['i', 'n', 'f'] ⊆ marks := by decide
    simp only [hform] at h
    split_ifs at h
    · exact .inr (.inl (hwords.1 h))
    · exact .inr (.inl (hwords.2 h))
  | finite negative m q =>
    have hsize (h : c ∈ if m = 0 then '0' :: style.whole else style.layout (Scientific.shortest style.tie m q)) :
        c.isDigit = true ∨ c ∈ marks ∨ c ∈ style.whole := by
      split_ifs at h
      · rcases List.mem_cons.1 h with rfl | hend
        · exact .inl rfl
        · exact .inr (.inr hend)
      · exact mem_layout (fun _ => Scientific.isDigit_of_mem_shortest) h
    simp only [hform] at h
    by_cases hnegative : negative = true
    · rw [if_pos hnegative] at h
      rcases List.mem_cons.1 h with rfl | h
      · exact .inr (.inl (by decide))
      · exact hsize h
    · rw [if_neg hnegative] at h
      exact hsize h

end Binary64

end LaunchReports
