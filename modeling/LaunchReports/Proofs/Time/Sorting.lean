/-
Stored timestamps sort chronologically.

- `Timestamp.normalize_sorted`: of two timestamps that name seconds of the years 0 to 9999, each in any form, the stored
  texts are of one length and stand, byte by byte, in the order of the seconds. A timestamp that is accepted names a
  second (`Timestamp.Names`), unless it names a leap second.
-/
import LaunchReports.Proofs.Text.Precedence
import LaunchReports.Proofs.Time.Chronology
import LaunchReports.Proofs.Time.Readings

namespace LaunchReports

/-! ## Stored texts -/

namespace Moment

theorem shaped_stored {n : Int} (h : FourDigitYear n) : Text.Shaped "0000-00-00 00:00:00".toList (ofUnix n).stored :=
  shaped_ofUnix h rfl

theorem precedesChars_stored {a b : Int} (ha : FourDigitYear a) (hb : FourDigitYear b) :
    precedesChars (ofUnix a).stored (ofUnix b).stored = true ↔ a < b := by
  have htext := precedesChars_ofUnix ha hb ' ' [] []
  simp only [List.append_nil, precedesChars, Bool.false_eq_true, and_false, or_false] at htext
  exact htext

end Moment

/-! ## Timestamps -/

namespace Timestamp

theorem normalize_eq_ok {raw s : String} (h : normalize raw = .ok s) :
    ∃ m, moment raw.toList = .ok m ∧ s = String.ofList m.stored := by
  rw [normalize] at h
  cases hm : moment raw.toList with
  | error e =>
    rw [hm] at h
    cases h
  | ok m =>
    rw [hm] at h
    cases h
    exact ⟨m, rfl, rfl⟩

/-- the second that a timestamp names is stored -/
theorem normalize_names {raw s : String} {n : Int} (h : normalize raw = .ok s) (hn : Names n (Text.trim raw.toList)) :
    s = String.ofList (Moment.ofUnix n).stored := by
  obtain ⟨m, hm, rfl⟩ := normalize_eq_ok h
  rw [moment_names hm hn]

/-- **Stored timestamps sort chronologically.** -/
theorem normalize_sorted :
    (∀ raw s, normalize raw = .ok s →
      ∃ n, Names n (Text.trim raw.toList) ∨ Leap n (Text.trim raw.toList)) ∧
    ∀ raw raw' s s' n n', normalize raw = .ok s → normalize raw' = .ok s' →
      Names n (Text.trim raw.toList) → Names n' (Text.trim raw'.toList) → FourDigitYear n → FourDigitYear n' →
      s.length = 19 ∧ s'.length = 19 ∧ (utf8 s < utf8 s' ↔ n < n') ∧ (s = s' ↔ n = n') := by
  constructor
  · intro raw s h
    obtain ⟨m, hm, -⟩ := normalize_eq_ok h
    obtain ⟨n, -, hn⟩ := moment_cases hm
    exact ⟨n, hn⟩
  · intro raw raw' s s' n n' h h' hn hn' hyears hyears'
    have hlength (m : Int) (hm : FourDigitYear m) : (String.ofList (Moment.ofUnix m).stored).length = 19 := by
      rw [String.length_ofList, (Moment.shaped_stored hm).length_eq]
      rfl
    have horder := Moment.precedesChars_stored hyears hyears'
    have hconverse := Moment.precedesChars_stored hyears' hyears
    obtain rfl := normalize_names h hn
    obtain rfl := normalize_names h' hn'
    refine ⟨hlength n hyears, hlength n' hyears', ?_, fun heq => ?_, fun heq => by rw [heq]⟩
    · rw [← precedes_iff, precedes, String.toList_ofList, String.toList_ofList, horder]
    · -- equal texts do not stand before each other
      have hstored := congrArg String.toList heq
      rw [String.toList_ofList, String.toList_ofList] at hstored
      rw [hstored, precedesChars_irrefl] at horder hconverse
      simp only [Bool.false_eq_true, false_iff] at horder hconverse
      omega

/-- a second spelled in Berlin, and the one after it as a number -/
theorem normalize_sorted_sample :
    normalize "2009-08-07T11:00:03.25+02:00" = .ok "2009-08-07 09:00:03" ∧
      normalize "+01249635604 " = .ok "2009-08-07 09:00:04" ∧
      utf8 "2009-08-07 09:00:03" < utf8 "2009-08-07 09:00:04" := by
  have hdated : normalize "2009-08-07T11:00:03.25+02:00" = .ok "2009-08-07 09:00:03" := by decide
  have hnumber : normalize "+01249635604 " = .ok "2009-08-07 09:00:04" := by decide
  have hyears : FourDigitYear 1249635603 := ⟨⟨2009, 8, 7⟩, Date.counted_iff.2 ⟨by decide, by decide⟩, by decide⟩
  have hyears' : FourDigitYear 1249635604 := ⟨⟨2009, 8, 7⟩, Date.counted_iff.2 ⟨by decide, by decide⟩, by decide⟩
  have hsigned : Numeral.Signed "+01249635604".toList 1249635604 :=
    .plus (List.cons_ne_nil _ _) (List.all_eq_true.1 (by decide))
  obtain ⟨-, -, horder, -⟩ := normalize_sorted.2 _ _ _ _ 1249635603 1249635604 hdated hnumber (.dated dated_sample)
    (.numeral hsigned) hyears hyears'
  exact ⟨hdated, hnumber, horder.2 (by decide)⟩

end Timestamp

end LaunchReports
