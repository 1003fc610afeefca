/-
Times in milliseconds and their texts.

- `Moment.unixMillisText_eq`: a time is written with its own digits up to the end of the year 9999, and as the last
  millisecond of that year from there on. No count on the way to the text leaves its machine word
  (`Moment.nanosOfMillis?_eq_some`, `Moment.fitsInt64_seconds`).
- `Moment.precedesChars_millisOf`: the texts stand in the order of the times.
- `Moment.unixMillisText_ordered`: shape, order and last text, and the timestamp that the text is.
-/
import LaunchReports.Proofs.Text.Precedence
import LaunchReports.Proofs.Time.Chronology
import LaunchReports.Proofs.Time.Timestamps

namespace LaunchReports.Moment

/-! ## Counts -/

/-- the last millisecond of the year 9999 -/
def lastMillis : Nat := 253402300799999

/-- a 64-bit number of milliseconds can be counted in nanoseconds -/
theorem nanosOfMillis?_eq_some {ms : Nat} (h : ms < 2 ^ 64) : nanosOfMillis? ms = some (ms * 1000000) := by
  have hmax : maxNanos = 170141183460469231731687303715884105727 := rfl
  have hcount : ms * nanosPerMilli ≤ maxNanos := by
    rw [nanosPerMilli, hmax]
    omega
  exact if_pos hcount

theorem fitsInt64_seconds {ms : Nat} (h : ms < 2 ^ 64) : fitsInt64 ((ms * 1000000 / nanosPerSecond : Nat) : Int) := by
  have hmin : Int64.minValue.toInt = -9223372036854775808 := rfl
  have hmax : Int64.maxValue.toInt = 9223372036854775807 := rfl
  rw [fitsInt64, Bool.and_eq_true, decide_eq_true_iff, decide_eq_true_iff, hmin, hmax, nanosPerSecond]
  omega

theorem ofUnixNanos?_of_le {ms : Nat} (h : ms ≤ lastMillis) :
    ofUnixNanos? (ms * 1000000) = some (ofUnix (ms / 1000 : Nat), ms % 1000) := by
  have hlast : lastMillis = 253402300799999 := rfl
  have hseconds : ms * 1000000 / nanosPerSecond = ms / 1000 := by
    rw [nanosPerSecond]
    omega
  have hmillis : ms * 1000000 % nanosPerSecond / nanosPerMilli = ms % 1000 := by
    rw [nanosPerSecond, nanosPerMilli]
    omega
  have hrange : inRange (ms / 1000 : Nat) = true := inRange_iff.2 (by omega)
  rw [ofUnixNanos?, hseconds, hmillis]
  exact if_pos hrange

theorem ofUnixNanos?_of_lt {nanos : Nat} (h : (lastMillis + 1) * 1000000 ≤ nanos) : ofUnixNanos? nanos = none := by
  have hlast : lastMillis = 253402300799999 := rfl
  have hrange : ¬inRange (nanos / nanosPerSecond : Nat) = true := by
    rw [inRange_iff, nanosPerSecond]
    omega
  rw [ofUnixNanos?]
  exact if_neg hrange

/-! ## Texts -/

/-- the text of a time up to the last millisecond -/
def millisOf (ms : Nat) : List Char := millisText (ofUnix (ms / 1000 : Nat)) (ms % 1000)

theorem millisText_eq (m : Moment) (millis : Nat) :
    millisText m millis =
      dateText m.date ++ 'T' :: m.clockText ++ ('.' :: Numeral.padded 3 millis ++ ['Z']) := by
  simp only [millisText, List.append_assoc, List.cons_append]

theorem fourDigitYear_of_le {ms : Nat} (h : ms ≤ lastMillis) : FourDigitYear (ms / 1000 : Nat) := by
  have hlast : lastMillis = 253402300799999 := rfl
  exact .of_le (by omega) (by omega)

theorem millisOf_lastMillis : millisOf lastMillis = "9999-12-31T23:59:59.999Z".toList := by decide

theorem unixMillisText_of_le {ms : Nat} (h : ms ≤ lastMillis) : unixMillisText ms = millisOf ms := by
  have hlast : lastMillis = 253402300799999 := rfl
  have hsmall : ms < 2 ^ 64 := by omega
  rw [unixMillisText, nanosOfMillis?_eq_some hsmall, Option.getD_some, ofUnixNanos?_of_le h, Option.map_some,
    Option.getD_some, millisOf]

theorem unixMillisText_of_lt {ms : Nat} (h : lastMillis < ms) : unixMillisText ms = "9999-12-31T23:59:59.999Z".toList := by
  have hnanos : (lastMillis + 1) * 1000000 ≤ (nanosOfMillis? ms).getD maxNanos := by
    rw [nanosOfMillis?, nanosPerMilli]
    split
    · exact Nat.mul_le_mul_right _ h
    · decide
  rw [unixMillisText, ofUnixNanos?_of_lt hnanos, Option.map_none, Option.getD_none]

/-- a time past the last millisecond is written as the last millisecond -/
theorem unixMillisText_eq (ms : Nat) : unixMillisText ms = millisOf (min ms lastMillis) := by
  rcases Nat.lt_or_ge lastMillis ms with h | h
  · rw [unixMillisText_of_lt h, Nat.min_eq_right (Nat.le_of_lt h), millisOf_lastMillis]
  · rw [unixMillisText_of_le h, Nat.min_eq_left h]

/-- the texts of the years up to 9999 stand in the order of the times -/
theorem precedesChars_millisOf {ms ms' : Nat} (h : ms ≤ lastMillis) (h' : ms' ≤ lastMillis) :
    precedesChars (millisOf ms) (millisOf ms') = true ↔ ms < ms' := by
  have hmillis : ms % 1000 < 10 ^ 3 := Nat.mod_lt ms (by decide)
  have hmillis' : ms' % 1000 < 10 ^ 3 := Nat.mod_lt ms' (by decide)
  have htail : precedesChars ('.' :: Numeral.padded 3 (ms % 1000) ++ ['Z'])
      ('.' :: Numeral.padded 3 (ms' % 1000) ++ ['Z']) = true ↔ ms % 1000 < ms' % 1000 := by
    rw [List.cons_append, List.cons_append, precedesChars_cons, Numeral.precedesChars_padded (by decide) hmillis hmillis',
      precedesChars_irrefl]
    simp only [Bool.false_eq_true, and_false, or_false]
  have htext := precedesChars_ofUnix (fourDigitYear_of_le h) (fourDigitYear_of_le h') 'T'
    ('.' :: Numeral.padded 3 (ms % 1000) ++ ['Z']) ('.' :: Numeral.padded 3 (ms' % 1000) ++ ['Z'])
  rw [millisOf, millisOf, millisText_eq, millisText_eq, htext, htail]
  omega

/-- the text of a time is a date and time with an offset, which names the second of the time -/
theorem dated_millisOf {ms : Nat} (h : ms ≤ lastMillis) : Timestamp.Dated (ms / 1000 : Nat) (millisOf ms) := by
  obtain ⟨hfirst, hlast⟩ := (fourDigitYear_of_le h).year
  have hfraction : Timestamp.Fraction ('.' :: Numeral.padded 3 (ms % 1000)) :=
    .some (Numeral.padded_ne_nil 3 _) fun c => Numeral.isDigit_of_mem_padded
  have hmark : 'T'.toNat < 0x80 := by decide
  have hdated := Timestamp.Dated.intro (isValid_ofUnix (ms / 1000 : Nat)) hfirst hlast hmark hfraction .utc
    (counted_ofUnix (ms / 1000 : Nat))
  have hseconds : ((ms / 1000 : Nat) / 86400 * 86400 + (ofUnix (ms / 1000 : Nat)).secondOfDay - 0 : Int) =
      (ms / 1000 : Nat) := by
    rw [secondOfDay_ofUnix]
    omega
  rwa [hseconds, ← millisText_eq] at hdated

/-! ## 64-bit times -/

/-- the text of a 64-bit time -/
def unixMillis (ms : UInt64) : String := String.ofList (unixMillisText ms.toNat)

theorem toList_unixMillis (ms : UInt64) : (unixMillis ms).toList = unixMillisText ms.toNat := String.toList_ofList

theorem shaped_unixMillisText (ms : Nat) : Text.Shaped "0000-00-00T00:00:00.000Z".toList (unixMillisText ms) := by
  have hyears := fourDigitYear_of_le (Nat.min_le_right ms lastMillis)
  have hmillis := Text.Shaped.padded 3 (min ms lastMillis % 1000) (by decide) (Nat.mod_lt _ (by decide))
  have hzone : Text.Shaped ['Z'] ['Z'] := .cons rfl List.Forall₂.nil
  rw [unixMillisText_eq, millisOf, millisText_eq]
  exact (shaped_ofUnix hyears rfl).append ((hmillis.cons rfl).append hzone)

theorem unixMillis_lt_iff {ms ms' : UInt64} :
    utf8 (unixMillis ms) < utf8 (unixMillis ms') ↔ min ms.toNat lastMillis < min ms'.toNat lastMillis := by
  rw [← precedes_iff, precedes, toList_unixMillis, toList_unixMillis, unixMillisText_eq, unixMillisText_eq]
  exact precedesChars_millisOf (Nat.min_le_right _ _) (Nat.min_le_right _ _)

theorem normalize_unixMillis {ms : UInt64} (h : ms.toNat ≤ lastMillis) :
    ∃ s, Timestamp.normalize (unixMillis ms) = .ok s ∧
      Timestamp.normalize (String.ofList (Numeral.ofNat (ms.toNat / 1000))) = .ok s := by
  have hlast : lastMillis = 253402300799999 := rfl
  have hrange : inRange (ms.toNat / 1000 : Nat) = true := inRange_iff.2 (by omega)
  have hdated := Timestamp.moment_dated (dated_millisOf h) (inRange_iff.1 hrange).2
  have hnumeral := Timestamp.moment_numeral hrange
  rw [unixMillis, unixMillisText_of_le h]
  exact ⟨_, Timestamp.normalize_ofList hdated, Timestamp.normalize_ofList hnumeral⟩

/-- **Times in milliseconds, written.** -/
theorem unixMillisText_ordered :
    (∀ ms : UInt64, nanosOfMillis? ms.toNat = some (ms.toNat * 1000000) ∧
      fitsInt64 ((ms.toNat * 1000000 / nanosPerSecond : Nat) : Int)) ∧
    (∀ ms, Text.Shaped "0000-00-00T00:00:00.000Z".toList (unixMillis ms).toList) ∧
    (∀ ms ms', ms ≤ ms' → utf8 (unixMillis ms) ≤ utf8 (unixMillis ms')) ∧
    (∀ ms ms', ms < ms' → ms'.toNat ≤ 253402300799999 → utf8 (unixMillis ms) < utf8 (unixMillis ms')) ∧
    (∀ ms, 253402300799999 ≤ ms.toNat → unixMillis ms = "9999-12-31T23:59:59.999Z") ∧
    ∀ ms, ms.toNat ≤ 253402300799999 →
      (∃ front, front.length = 19 ∧
        (unixMillis ms).toList = front ++ '.' :: Numeral.padded 3 (ms.toNat % 1000) ++ ['Z']) ∧
      ∃ s, Timestamp.normalize (unixMillis ms) = .ok s ∧
        Timestamp.normalize (String.ofList (Numeral.ofNat (ms.toNat / 1000))) = .ok s := by
  have hlast : lastMillis = 253402300799999 := rfl
  refine ⟨fun ms => ⟨nanosOfMillis?_eq_some ms.toNat_lt, fitsInt64_seconds ms.toNat_lt⟩, fun ms => ?_, fun ms ms' h => ?_,
    fun ms ms' h hle => ?_, fun ms h => ?_, fun ms h => ⟨?_, normalize_unixMillis h⟩⟩
  · rw [toList_unixMillis]
    exact shaped_unixMillisText ms.toNat
  · rw [UInt64.le_iff_toNat_le] at h
    apply List.not_lt.1
    rw [unixMillis_lt_iff]
    omega
  · rw [UInt64.lt_iff_toNat_lt] at h
    rw [unixMillis_lt_iff]
    omega
  · rw [unixMillis, unixMillisText_eq, hlast, Nat.min_eq_right h, ← hlast, millisOf_lastMillis]
    rfl
  · have hyears := fourDigitYear_of_le h
    have hmark : 'T'.isDigit = false := rfl
    refine ⟨_, (shaped_ofUnix hyears hmark).length_eq, ?_⟩
    rw [toList_unixMillis, unixMillisText_of_le h, millisOf, millisText]

/-- a time of August 2009, and the last that is written with its own digits -/
theorem unixMillisText_ordered_sample :
    unixMillis 1249635603250 = "2009-08-07T09:00:03.250Z" ∧
      utf8 (unixMillis 1249635603250) < utf8 (unixMillis 253402300799999) ∧
      unixMillis 253402300800000 = "9999-12-31T23:59:59.999Z" ∧
      ∃ s, Timestamp.normalize "2009-08-07T09:00:03.250Z" = .ok s ∧ Timestamp.normalize "1249635603" = .ok s := by
  obtain ⟨-, -, -, hstrict, hconstant, hdigits⟩ := unixMillisText_ordered
  have htext : unixMillis 1249635603250 = "2009-08-07T09:00:03.250Z" := by decide
  obtain ⟨s, hs, hnumeral⟩ := (hdigits 1249635603250 (by decide)).2
  rw [htext] at hs
  exact ⟨htext, hstrict _ _ (by decide) (by decide), hconstant _ (by decide), s, hs, hnumeral⟩

end LaunchReports.Moment
