/-
What is read as a timestamp.

- `Timestamp.offsetForm?_cases`: a text is read as a date and time with an offset only if it is one (`Timestamp.Dated`) or
  names a leap second (`Timestamp.Leap`).
- `Timestamp.storedForm?_eq_some_iff`: what is read as the stored form, a sign before the year allowed
  (`Timestamp.StoredText`).
- `Timestamp.moment_cases`: a timestamp that is read names a second (`Timestamp.Names`) or a leap second.
- `Timestamp.moment_names`: a second that a timestamp names is the one that it is read as.
- `Timestamp.moment_eq_beyondCalendar_iff`: the timestamps that are read and cannot be kept.

Each reader of a piece is inverted once: it takes the piece that it stands for off the front of the text.
-/
import LaunchReports.Proofs.Time.Timestamps

namespace LaunchReports.Timestamp

open Numeral

/-! ## Pieces -/

theorem skip_eq_some_iff {c : Char} {text rest : List Char} : skip c text = some rest ↔ text = c :: rest := by
  cases text with
  | nil => simp [skip]
  | cons d text =>
    simp only [skip, List.cons.injEq]
    split_ifs with hd
    · simp [hd]
    · simp [hd]

theorem monthDay_eq_some {year : Int} {d : Date} {text rest : List Char} (h : monthDay year text = some (d, rest)) :
    d.year = year ∧ text = '-' :: padded 2 d.month ++ '-' :: padded 2 d.day ++ rest := by
  simp only [monthDay, Option.bind_eq_bind, Option.bind_eq_some_iff, skip_eq_some_iff, Prod.exists,
    digits_eq_some_iff Nat.two_pos] at h
  obtain ⟨_, rfl, month, _, ⟨-, rfl⟩, _, rfl, day, _, ⟨-, rfl⟩, ⟨⟩⟩ := h
  simp

theorem clock_eq_some {date : Date} {m : Moment} {text rest : List Char} (h : clock date text = some (m, rest)) :
    m.date = date ∧ text = m.clockText ++ rest := by
  simp only [clock, Option.bind_eq_bind, Option.bind_eq_some_iff, skip_eq_some_iff, Prod.exists,
    digits_eq_some_iff Nat.two_pos] at h
  obtain ⟨hour, _, ⟨-, rfl⟩, _, rfl, minute, _, ⟨-, rfl⟩, _, rfl, second, _, ⟨-, rfl⟩, ⟨⟩⟩ := h
  simp [Moment.clockText]

theorem skipFraction_eq_some {text zone : List Char} (h : skipFraction text = some zone) :
    ∃ fraction, Fraction fraction ∧ text = fraction ++ zone := by
  unfold skipFraction at h
  split at h
  · next d rest =>
    split at h
    · next hd =>
      cases h
      refine ⟨'.' :: d :: rest.takeWhile Char.isDigit, .some (List.cons_ne_nil _ _) ?_, ?_⟩
      · exact List.forall_mem_cons.2 ⟨hd, fun c hc => List.all_eq_true.1 List.all_takeWhile c hc⟩
      · rw [List.cons_append, List.cons_append, List.takeWhile_append_dropWhile]
    · cases h
  · cases h
  · cases h
    exact ⟨[], .none, rfl⟩

theorem offsetSize_eq_some {text : List Char} {n : Nat} (h : offsetSize text = some n) :
    ∃ hours minutes, hours ≤ 23 ∧ minutes ≤ 59 ∧ text = padded 2 hours ++ ':' :: padded 2 minutes ∧
      n = hours * 3600 + minutes * 60 := by
  simp only [offsetSize, Option.bind_eq_bind, Option.bind_eq_some_iff, skip_eq_some_iff, Prod.exists,
    digits_eq_some_iff Nat.two_pos] at h
  obtain ⟨hours, _, ⟨-, rfl⟩, _, rfl, minutes, rest, ⟨-, rfl⟩, h⟩ := h
  split at h
  · next hsmall =>
    simp only [Bool.and_eq_true, decide_eq_true_eq, List.isEmpty_iff] at hsmall
    obtain ⟨⟨rfl, hhours⟩, hminutes⟩ := hsmall
    cases h
    exact ⟨hours, minutes, hhours, hminutes, by rw [List.append_nil], rfl⟩
  · cases h

theorem offset_eq_some {text : List Char} {shift : Int} (h : offset text = some shift) : Zone text shift := by
  unfold offset at h
  split at h
  · cases h
    exact .utc
  · cases h
    exact .utcLower
  · obtain ⟨n, hn, rfl⟩ := Option.map_eq_some_iff.1 h
    obtain ⟨hours, minutes, hhours, hminutes, rfl, rfl⟩ := offsetSize_eq_some hn
    exact .east hhours hminutes
  · obtain ⟨n, hn, rfl⟩ := Option.map_eq_some_iff.1 h
    obtain ⟨hours, minutes, hhours, hminutes, rfl, rfl⟩ := offsetSize_eq_some hn
    exact .west hhours hminutes
  · cases h

/-! ## A date and time with an offset -/

/-- a date and time with an offset in the 61st second of a minute, which ends a month in UTC. The second before stands for
it. -/
inductive Leap : Int → List Char → Prop
  | intro {m : Moment} {k shift : Int} {separator : Char} {fraction zone : List Char} :
      m.isValid → m.second = 59 → 0 ≤ m.date.year → m.date.year ≤ 9999 → separator.toNat < 0x80 → Fraction fraction →
      Zone zone shift → Date.Counted k m.date →
      isLeapPlace (Moment.ofUnix (k * 86400 + m.secondOfDay - shift)) = true →
      Moment.inRange (k * 86400 + m.secondOfDay - shift) = true →
      Leap (k * 86400 + m.secondOfDay - shift)
        (Moment.dateText m.date ++ separator :: Moment.clockText { m with second := 60 } ++ (fraction ++ zone))

theorem Leap.inRange {n : Int} {text : List Char} (h : Leap n text) : Moment.inRange n = true := by
  obtain ⟨-, -, -, -, -, -, -, -, -, hrange⟩ := h
  exact hrange

theorem counted_of_isValid {m : Moment} (h : m.isValid) :
    Date.Counted (Calendar.dayNumber m.date - Moment.epochDay) m.date :=
  Date.counted_iff.2 ⟨(isValid_iff.1 h).1, by omega⟩

/-- the pieces of a date and time with an offset -/
theorem offsetForm?_eq_some {text : List Char} {n : Int} (h : offsetForm? text = some n) :
    ∃ time separator fraction zone shift,
      text = Moment.dateText time.date ++ separator :: time.clockText ++ (fraction ++ zone) ∧
        separator.toNat < 0x80 ∧ Fraction fraction ∧ Zone zone shift ∧ 0 ≤ time.date.year ∧ time.date.year ≤ 9999 ∧
        (beforeLeap time).isValid ∧ n = (beforeLeap time).toUnix - shift ∧
        (time.second = 60 → isLeapPlace (Moment.ofUnix n) = true ∧ Moment.inRange n = true) := by
  simp only [offsetForm?, Option.bind_eq_bind, Option.bind_eq_some_iff, Prod.exists,
    digits_eq_some_iff (show 0 < 4 by decide)] at h
  obtain ⟨year, _, ⟨hyear, rfl⟩, date, after, hdate, h⟩ := h
  obtain ⟨hdateYear, rfl⟩ := monthDay_eq_some hdate
  cases after with
  | nil => cases h
  | cons separator after =>
    dsimp only at h
    split at h
    · next hseparator =>
      simp only [Option.bind_some, Option.bind_eq_some_iff, Prod.exists] at h
      obtain ⟨time, after, htime, zone, hskip, shift, hzone, h⟩ := h
      obtain ⟨rfl, rfl⟩ := clock_eq_some htime
      obtain ⟨fraction, hfraction, rfl⟩ := skipFraction_eq_some hskip
      have hyearText : Moment.yearText time.date.year = padded 4 year := by
        rw [hdateYear, Moment.yearText, if_neg (by omega), Int.natAbs_natCast]
      refine ⟨time, separator, fraction, zone, shift, ?_, hseparator, hfraction, offset_eq_some hzone, by omega,
        by omega, ?_⟩
      · simp only [Moment.dateText, hyearText, List.append_assoc, List.cons_append]
      · split at h
        · next hvalid =>
          split at h
          · cases h
          · next hleap =>
            cases h
            simp only [Bool.and_eq_true, decide_eq_true_eq, Bool.not_eq_true', Bool.and_eq_false_iff] at hleap
            refine ⟨hvalid, rfl, fun hsecond => ?_⟩
            simpa [hsecond] using hleap
        · cases h
    · cases h

theorem offsetForm?_cases {text : List Char} {n : Int} (h : offsetForm? text = some n) : Dated n text ∨ Leap n text := by
  obtain ⟨time, separator, fraction, zone, shift, rfl, hseparator, hfraction, hzone, hfirst, hlast, hvalid, rfl, hleap⟩ :=
    offsetForm?_eq_some h
  have hcounted := counted_of_isValid hvalid
  by_cases hsecond : time.second = 60
  · have hbefore : beforeLeap time = { time with second := 59 } := if_pos hsecond
    obtain ⟨hplace, hrange⟩ := hleap hsecond
    rw [hbefore] at hvalid hcounted hplace hrange ⊢
    rw [toUnix_of_counted hcounted] at hplace hrange ⊢
    have htime : time.clockText = Moment.clockText { { time with second := 59 } with second := 60 } := by
      rw [← hsecond]
    rw [htime]
    exact .inr (.intro hvalid rfl hfirst hlast hseparator hfraction hzone hcounted hplace hrange)
  · have hbefore : beforeLeap time = time := if_neg hsecond
    rw [hbefore] at hvalid hcounted ⊢
    rw [toUnix_of_counted hcounted]
    exact .inl (.intro hvalid hfirst hlast hseparator hfraction hzone hcounted)

/-! ## The stored form -/

/-- a year of four digits, with an optional sign -/
inductive YearText : Int → List Char → Prop
  | plain {n : Nat} : n ≤ 9999 → YearText n (padded 4 n)
  | plus {n : Nat} : n ≤ 9999 → YearText n ('+' :: padded 4 n)
  | minus {n : Nat} : n ≤ 9999 → YearText (-n) ('-' :: padded 4 n)

/-- a moment in the stored form, a sign before its year allowed -/
inductive StoredText (m : Moment) : List Char → Prop
  | intro {year : List Char} : m.isValid → YearText m.date.year year →
      StoredText m (year ++ ('-' :: padded 2 m.date.month ++ '-' :: padded 2 m.date.day ++ ' ' :: m.clockText))

theorem YearText.signedYear_append {year : Int} {front : List Char} (h : YearText year front) (rest : List Char) :
    signedYear (front ++ rest) = some (year, rest) := by
  cases h with
  | plain hn => exact signedYear_padded (Nat.lt_succ_of_le hn) rest
  | plus hn | minus hn =>
    rw [List.cons_append, signedYear, digits_padded (by decide) (Nat.lt_succ_of_le hn)]
    rfl

theorem signedYear_eq_some {year : Int} {text rest : List Char} (h : signedYear text = some (year, rest)) :
    ∃ front, YearText year front ∧ text = front ++ rest := by
  obtain ⟨n, hn, ⟨rfl, rfl⟩ | ⟨rfl, rfl⟩ | ⟨rfl, rfl⟩⟩ := signedYear_cases h
  · exact ⟨_, .plus (Nat.le_of_lt_succ hn), rfl⟩
  · exact ⟨_, .minus (Nat.le_of_lt_succ hn), rfl⟩
  · exact ⟨_, .plain (Nat.le_of_lt_succ hn), rfl⟩

theorem storedForm?_eq_some_iff {text : List Char} {m : Moment} : storedForm? text = some m ↔ StoredText m text := by
  constructor
  · intro h
    simp only [storedForm?, Option.bind_eq_bind, Option.bind_eq_some_iff, Prod.exists, skip_eq_some_iff] at h
    obtain ⟨year, _, hyear, date, _, hdate, _, rfl, time, rest, htime, h⟩ := h
    obtain ⟨front, hfront, rfl⟩ := signedYear_eq_some hyear
    obtain ⟨rfl, rfl⟩ := monthDay_eq_some hdate
    obtain ⟨rfl, rfl⟩ := clock_eq_some htime
    split at h
    · next hvalid =>
      simp only [Bool.and_eq_true, List.isEmpty_iff] at hvalid
      obtain ⟨rfl, hvalid⟩ := hvalid
      cases h
      rw [List.append_nil]
      exact .intro hvalid hfront
    · cases h
  · rintro ⟨hvalid, hyear⟩
    have hdate := monthDay_written (isValid_iff.1 hvalid).1 (' ' :: m.clockText)
    have htime := clock_clockText hvalid []
    rw [List.append_nil] at htime
    simp only [storedForm?, hyear.signedYear_append, hdate, htime, skip_cons, Option.bind_eq_bind, Option.bind_some,
      List.isEmpty_nil, hvalid, Bool.and_self, if_true]

/-! ## Forms apart -/

theorem Dated.int?_eq_none {n : Int} {text : List Char} (h : Dated n text) : int? text = none := by
  obtain ⟨-, -, -, -, -, -, -⟩ := h
  rw [List.append_assoc]
  exact int?_dateText _ _

theorem Dated.offsetForm?_eq {n : Int} {text : List Char} (h : Dated n text) : offsetForm? text = some n := by
  obtain ⟨hvalid, hfirst, hlast, hseparator, hfraction, hzone, hcounted⟩ := h
  rw [← toUnix_of_counted hcounted]
  exact offsetForm?_written hvalid hfirst hlast hseparator hfraction hzone

theorem int?_eq_none_of_offsetForm? {n : Int} {text : List Char} (h : offsetForm? text = some n) : int? text = none := by
  obtain ⟨time, _, _, _, _, rfl, -⟩ := offsetForm?_eq_some h
  rw [List.append_assoc]
  exact int?_dateText _ _

theorem StoredText.int?_eq_none {m : Moment} {text : List Char} (h : StoredText m text) : int? text = none := by
  obtain ⟨-, hyear⟩ := h
  generalize m.date.year = year at hyear
  cases hyear with
  | @plain n hn =>
    obtain ⟨c, more, hmore⟩ := List.exists_cons_of_ne_nil (padded_ne_nil 4 n)
    rw [hmore, List.cons_append]
    exact Numeral.int?_eq_none (d := '-') (by simp) rfl
  | plus hn | minus hn => exact Numeral.int?_eq_none (d := '-') (by simp) rfl

theorem StoredText.offsetForm?_eq_none {m : Moment} {text : List Char} (h : StoredText m text) :
    offsetForm? text = none := by
  obtain ⟨hvalid, hyear⟩ := h
  generalize hy : m.date.year = year at hyear
  cases hyear with
  | @plain n hn =>
    have htext : padded 4 n ++ ('-' :: padded 2 m.date.month ++ '-' :: padded 2 m.date.day ++ ' ' :: m.clockText) =
        m.stored := by
      simp only [Moment.stored, Moment.dateText, hy, Moment.yearText, if_neg (Int.not_lt.2 (Int.natCast_nonneg n)),
        Int.natAbs_natCast, List.append_assoc, List.cons_append]
    rw [htext]
    exact offsetForm?_stored hvalid (by omega)
  | plus hn | minus hn =>
    rw [List.cons_append, offsetForm?, digits_nondigit rfl (by decide)]
    rfl

/-! ## Timestamps -/

/-- the second that a timestamp names, the white space around it taken off; a leap second is not named by a number -/
inductive Names (n : Int) : List Char → Prop
  | numeral {text : List Char} : Signed text n → Names n text
  | dated {text : List Char} : Dated n text → Names n text
  | stored {m : Moment} {k : Int} {text : List Char} : StoredText m text → Date.Counted k m.date →
      n = k * 86400 + m.secondOfDay → Names n text

theorem StoredText.isValid {m : Moment} {text : List Char} (h : StoredText m text) : m.isValid := by
  obtain ⟨hvalid, -⟩ := h
  exact hvalid

theorem StoredText.names {m : Moment} {text : List Char} (h : StoredText m text) : Names m.toUnix text := by
  have hcounted := counted_of_isValid h.isValid
  exact .stored h hcounted (toUnix_of_counted hcounted)

theorem ofUnix_toUnix {m : Moment} (h : m.isValid) : Moment.ofUnix m.toUnix = m := by
  have hcounted := counted_of_isValid h
  rw [toUnix_of_counted hcounted, ofUnix_of_counted h hcounted]

/-- what is read names the second that it is read as, or it is a leap second -/
theorem moment_cases {raw : List Char} {m : Moment} (h : moment raw = .ok m) :
    ∃ n, m = Moment.ofUnix n ∧ (Names n (Text.trim raw) ∨ Leap n (Text.trim raw)) := by
  simp only [moment] at h
  split at h
  · cases h
  split at h
  · next n hnumber =>
    split at h
    · cases h
      exact ⟨n, rfl, .inl (.numeral (int?_eq_some_iff.1 (Option.eq_some_of_filter_eq_some hnumber)))⟩
    · cases h
  split at h
  · next n hoffset =>
    split at h
    · cases h
      exact ⟨n, rfl, (offsetForm?_cases hoffset).imp_left .dated⟩
    · cases h
  split at h
  · next hstored =>
    cases h
    have htext := storedForm?_eq_some_iff.1 hstored
    exact ⟨m.toUnix, (ofUnix_toUnix htext.isValid).symm, .inl htext.names⟩
  · cases h

/-- the second that a timestamp names is the one that it is read as -/
theorem moment_names {raw : List Char} {m : Moment} {n : Int} (h : moment raw = .ok m) (hn : Names n (Text.trim raw)) :
    m = Moment.ofUnix n := by
  simp only [moment] at h
  split at h
  · cases h
  cases hn with
  | numeral hsigned =>
    have hnumber := int?_signed hsigned
    have hoffset : offsetForm? (Text.trim raw) = none := by
      rw [← Option.not_isSome_iff_eq_none, Option.isSome_iff_exists]
      rintro ⟨k, hk⟩
      cases hnumber.symm.trans (int?_eq_none_of_offsetForm? hk)
    have hstored : storedForm? (Text.trim raw) = none := by
      rw [← Option.not_isSome_iff_eq_none, Option.isSome_iff_exists]
      rintro ⟨k, hk⟩
      cases hnumber.symm.trans (storedForm?_eq_some_iff.1 hk).int?_eq_none
    rw [hnumber, hoffset, hstored] at h
    cases hfits : fitsInt64 n with
    | true =>
      rw [Option.filter_some_pos hfits] at h
      dsimp only at h
      split at h
      · cases h
        rfl
      · cases h
    | false =>
      rw [Option.filter_some_neg (by simp [hfits])] at h
      cases h
  | dated hdated =>
    rw [hdated.int?_eq_none, hdated.offsetForm?_eq] at h
    dsimp only [Option.filter_none] at h
    split at h
    · cases h
      rfl
    · cases h
  | stored htext hcounted hsecond =>
    rw [htext.int?_eq_none, htext.offsetForm?_eq_none, storedForm?_eq_some_iff.2 htext] at h
    cases h
    rw [hsecond, ofUnix_of_counted htext.isValid hcounted]

/-- the timestamps that are read and cannot be kept -/
theorem moment_eq_beyondCalendar_iff {raw : List Char} :
    moment raw = .error .beyondCalendar ↔ ∃ n, Dated n (Text.trim raw) ∧ Moment.lastUnix < n := by
  constructor
  · intro h
    simp only [moment] at h
    split at h
    · cases h
    split at h
    · split at h <;> cases h
    split at h
    · next n hoffset =>
      split at h
      · cases h
      · next hlate =>
        rcases offsetForm?_cases hoffset with hdated | hleap
        · exact ⟨n, hdated, Int.not_le.1 hlate⟩
        · exact absurd (Moment.inRange_iff.1 hleap.inRange).2 hlate
    split at h <;> cases h
  · rintro ⟨n, hdated, hlate⟩
    have hne : (Text.trim raw).isEmpty = false := List.isEmpty_eq_false_iff.2 hdated.trimmed.ne_nil
    simp only [moment, hne, hdated.int?_eq_none, hdated.offsetForm?_eq, Option.filter_none, Bool.false_eq_true, if_false,
      if_neg (Int.not_le.2 hlate)]

end LaunchReports.Timestamp
