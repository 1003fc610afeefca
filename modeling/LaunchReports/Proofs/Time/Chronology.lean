/-
Texts of moments stand in the order of time.

- `Date.dayNumber_lt_iff`: days are numbered in the order of year, month and day (`Date.Before`).
- `FourDigitYear`: the seconds of the years 0 to 9999.
- `Moment.shaped_ofUnix`: the text of such a second has digits and marks in fixed places (`Text.Shaped`).
- `Moment.precedesChars_ofUnix`: the texts of two such seconds, with the same mark between date and time, stand in the
  order of the seconds, whatever follows them.

Every number in such a text has the same width as its counterpart, so the first that differs decides.
-/
import Mathlib.Algebra.Order.BigOperators.Group.List
import Mathlib.Algebra.Order.Group.Nat
import LaunchReports.Proofs.Time.Timestamps

namespace LaunchReports

/-! ## Days -/

namespace Date

open Calendar

/-- an earlier day, by year, month and day -/
def Before (d e : Date) : Prop :=
  d.year < e.year ∨ d.year = e.year ∧ (d.month < e.month ∨ d.month = e.month ∧ d.day < e.day)

theorem before_trichotomy (d e : Date) : d.Before e ∨ d = e ∨ e.Before d := by
  obtain ⟨year, month, day⟩ := d
  obtain ⟨year', month', day'⟩ := e
  simp only [Before, mk.injEq]
  omega

theorem dayNumber_lt {d e : Date} (hd : d.isValid) (he : e.isValid) (h : d.Before e) : dayNumber d < dayNumber e := by
  obtain ⟨i, k, hi, hk, hdate, hnumber⟩ := exists_of_isValid hd
  obtain ⟨j, l, hj, hl, hdate', hnumber'⟩ := exists_of_isValid he
  rw [hdate, hdate'] at h
  rw [hnumber, hnumber']
  rcases h with hyear | ⟨hyear, hmonth | ⟨hmonth, hday⟩⟩
  · -- a day lies before the end of its year
    have hend := sum_take_le (monthLengths (isLeap d.year)) i
    have hnext := daysBeforeYear_mono (a := d.year + 1) (b := e.year) hyear
    rw [sum_monthLengths] at hend
    rw [daysBeforeYear_succ] at hnext
    omega
  · -- and before the end of its month
    dsimp only at hyear hmonth
    have hmore := List.monotone_sum_take (monthLengths (isLeap d.year)) (Nat.lt_of_succ_lt_succ hmonth)
    dsimp only at hmore
    rw [sum_take_succ] at hmore
    rw [← hyear] at hl ⊢
    omega
  · dsimp only at hyear hmonth hday
    rw [← hyear, ← Nat.succ.inj hmonth]
    omega

theorem dayNumber_lt_iff {d e : Date} (hd : d.isValid) (he : e.isValid) :
    dayNumber d < dayNumber e ↔ d.Before e := by
  refine ⟨fun h => ?_, dayNumber_lt hd he⟩
  rcases before_trichotomy d e with hbefore | rfl | hbehind
  · exact hbefore
  · omega
  · have := dayNumber_lt he hd hbehind
    omega

theorem dayNumber_inj {d e : Date} (hd : d.isValid) (he : e.isValid) : dayNumber d = dayNumber e ↔ d = e := by
  refine ⟨fun h => ?_, congrArg dayNumber⟩
  rw [← ofDayNumber_dayNumber hd, h, ofDayNumber_dayNumber he]

end Date

/-! ## Years -/

/-- a second of the years 0 to 9999 -/
def FourDigitYear (n : Int) : Prop := ∃ d, Date.Counted (n / 86400) d ∧ 0 ≤ d.year ∧ d.year ≤ 9999

theorem Date.Counted.unique {k : Int} {d e : Date} (hd : Counted k d) (he : Counted k e) : d = e := by
  rw [← ofDayNumber_dayNumber hd.spec.1, ← ofDayNumber_dayNumber he.spec.1, hd.spec.2, he.spec.2]

theorem FourDigitYear.year {n : Int} (h : FourDigitYear n) :
    0 ≤ (Moment.ofUnix n).date.year ∧ (Moment.ofUnix n).date.year ≤ 9999 := by
  obtain ⟨d, hcounted, hyear⟩ := h
  rwa [(Moment.counted_ofUnix n).unique hcounted]

/-- the seconds from the start of 1970 to the end of the year 9999 -/
theorem FourDigitYear.of_le {n : Int} (hfirst : 0 ≤ n) (hlast : n ≤ 253402300799) : FourDigitYear n := by
  have hepoch : Moment.epochDay = 719528 := rfl
  have hzero : Calendar.daysBeforeYear 0 = 0 := rfl
  have hyear := (Moment.year_ofUnix (Moment.inRange_iff.2 ⟨by omega, hlast⟩)).2
  exact ⟨(Moment.ofUnix n).date, Moment.counted_ofUnix n, Moment.le_year_ofUnix_iff.2 (by omega), hyear⟩

/-! ## Shapes -/

/-- a text with a digit wherever the shape has one, and the character of the shape elsewhere -/
def Text.Shaped (shape text : List Char) : Prop :=
  List.Forall₂ (fun p c => if p.isDigit then c.isDigit = true else c = p) shape text

namespace Text.Shaped

theorem length_eq {shape text : List Char} (h : Shaped shape text) : text.length = shape.length :=
  (List.Forall₂.length_eq h).symm

theorem append {shape shape' text text' : List Char} (h : Shaped shape text) (h' : Shaped shape' text') :
    Shaped (shape ++ shape') (text ++ text') :=
  List.rel_append h h'

theorem cons {c : Char} (hc : c.isDigit = false) {shape text : List Char} (h : Shaped shape text) :
    Shaped (c :: shape) (c :: text) :=
  List.Forall₂.cons (by simp [hc]) h

theorem digits {text : List Char} (h : ∀ c ∈ text, c.isDigit = true) : Shaped (List.replicate text.length '0') text := by
  induction text with
  | nil => exact List.Forall₂.nil
  | cons c text ih =>
    obtain ⟨hc, htext⟩ := List.forall_mem_cons.1 h
    exact List.Forall₂.cons hc (ih htext)

theorem padded (width n : Nat) (hw : 0 < width) (h : n < 10 ^ width) :
    Shaped (List.replicate width '0') (Numeral.padded width n) := by
  have hdigits := digits fun c (hc : c ∈ Numeral.padded width n) => Numeral.isDigit_of_mem_padded hc
  rwa [Numeral.length_padded hw h] at hdigits

end Text.Shaped

namespace Moment

open Text

theorem shaped_dateText {d : Date} (hd : d.isValid) (hfirst : 0 ≤ d.year) (hlast : d.year ≤ 9999) :
    Shaped "0000-00-00".toList (dateText d) := by
  obtain ⟨hmonth, hday⟩ := Timestamp.month_day_le hd
  rw [dateText, yearText, if_neg (Int.not_lt.2 hfirst)]
  have hyear := Shaped.padded 4 d.year.natAbs (by decide) (by omega)
  have hmonth := Shaped.padded 2 d.month (by decide) (by omega)
  have hday := Shaped.padded 2 d.day (by decide) (by omega)
  exact (hyear.append (hmonth.cons rfl)).append (hday.cons rfl)

theorem shaped_clockText {m : Moment} (hm : m.isValid) : Shaped "00:00:00".toList m.clockText := by
  obtain ⟨-, hhour, hminute, hsecond⟩ := Timestamp.isValid_iff.1 hm
  have hhour := Shaped.padded 2 m.hour (by decide) (by omega)
  have hminute := Shaped.padded 2 m.minute (by decide) (by omega)
  have hsecond := Shaped.padded 2 m.second (by decide) (by omega)
  exact (hhour.append (hminute.cons rfl)).append (hsecond.cons rfl)

/-- date and time with a mark between them -/
theorem shaped_ofUnix {n : Int} (h : FourDigitYear n) {mark : Char} (hmark : mark.isDigit = false) :
    Shaped ("0000-00-00".toList ++ mark :: "00:00:00".toList)
      (dateText (ofUnix n).date ++ mark :: (ofUnix n).clockText) := by
  obtain ⟨hfirst, hlast⟩ := h.year
  have hvalid := isValid_ofUnix n
  exact (shaped_dateText (Timestamp.isValid_iff.1 hvalid).1 hfirst hlast).append ((shaped_clockText hvalid).cons hmark)

end Moment

/-! ## Order -/

theorem precedesChars_cons (c : Char) (s t : List Char) :
    precedesChars (c :: s) (c :: t) = true ↔ precedesChars s t = true := by
  simp [precedesChars]

namespace Moment

open Numeral

theorem precedesChars_dateText {d e : Date} (hd : d.isValid) (he : e.isValid) (hfirst : 0 ≤ d.year)
    (hfirst' : 0 ≤ e.year) (hlast : d.year ≤ 9999) (hlast' : e.year ≤ 9999) (s t : List Char) :
    precedesChars (dateText d ++ s) (dateText e ++ t) = true ↔ d.Before e ∨ d = e ∧ precedesChars s t = true := by
  obtain ⟨hmonth, hday⟩ := Timestamp.month_day_le hd
  obtain ⟨hmonth', hday'⟩ := Timestamp.month_day_le he
  obtain ⟨year, month, day⟩ := d
  obtain ⟨year', month', day'⟩ := e
  dsimp only at hfirst hfirst' hlast hlast' hmonth hmonth' hday hday'
  simp only [dateText, yearText, if_neg (Int.not_lt.2 hfirst), if_neg (Int.not_lt.2 hfirst'), List.append_assoc,
    List.cons_append]
  rw [precedesChars_padded (by decide) (by omega) (by omega), precedesChars_cons,
    precedesChars_padded (by decide) (by omega) (by omega), precedesChars_cons,
    precedesChars_padded (by decide) (by omega) (by omega)]
  simp only [Date.Before, Date.mk.injEq]
  cases precedesChars s t <;> simp only [Bool.false_eq_true, and_false, or_false, and_true] <;> omega

theorem precedesChars_clockText {m n : Moment} (hm : m.isValid) (hn : n.isValid) (s t : List Char) :
    precedesChars (m.clockText ++ s) (n.clockText ++ t) = true ↔
      m.secondOfDay < n.secondOfDay ∨ m.secondOfDay = n.secondOfDay ∧ precedesChars s t = true := by
  obtain ⟨-, hhour, hminute, hsecond⟩ := Timestamp.isValid_iff.1 hm
  obtain ⟨-, hhour', hminute', hsecond'⟩ := Timestamp.isValid_iff.1 hn
  simp only [clockText, List.append_assoc, List.cons_append]
  rw [precedesChars_padded (by decide) (by omega) (by omega), precedesChars_cons,
    precedesChars_padded (by decide) (by omega) (by omega), precedesChars_cons,
    precedesChars_padded (by decide) (by omega) (by omega)]
  simp only [secondOfDay]
  cases precedesChars s t <;> simp only [Bool.false_eq_true, and_false, or_false, and_true] <;> omega

theorem secondOfDay_lt {m : Moment} (hm : m.isValid) : m.secondOfDay < 86400 := by
  obtain ⟨-, hhour, hminute, hsecond⟩ := Timestamp.isValid_iff.1 hm
  rw [secondOfDay]
  omega

theorem toUnix_ofUnix (n : Int) : (ofUnix n).toUnix = n := by
  rw [Timestamp.toUnix_of_counted (counted_ofUnix n), secondOfDay_ofUnix]
  omega

/-- texts of seconds stand in the order of time -/
theorem precedesChars_ofUnix {a b : Int} (ha : FourDigitYear a) (hb : FourDigitYear b) (mark : Char) (s t : List Char) :
    precedesChars (dateText (ofUnix a).date ++ mark :: (ofUnix a).clockText ++ s)
        (dateText (ofUnix b).date ++ mark :: (ofUnix b).clockText ++ t) = true ↔
      a < b ∨ a = b ∧ precedesChars s t = true := by
  have hvalid := isValid_ofUnix a
  have hvalid' := isValid_ofUnix b
  have hdate := (Timestamp.isValid_iff.1 hvalid).1
  have hdate' := (Timestamp.isValid_iff.1 hvalid').1
  have hclock := secondOfDay_lt hvalid
  have hclock' := secondOfDay_lt hvalid'
  have hunix := toUnix_ofUnix a
  have hunix' := toUnix_ofUnix b
  rw [toUnix] at hunix hunix'
  rw [List.append_assoc, List.append_assoc, List.cons_append, List.cons_append,
    precedesChars_dateText hdate hdate' ha.year.1 hb.year.1 ha.year.2 hb.year.2, precedesChars_cons,
    precedesChars_clockText hvalid hvalid', ← Date.dayNumber_lt_iff hdate hdate', ← Date.dayNumber_inj hdate hdate']
  cases precedesChars s t <;> simp only [Bool.false_eq_true, and_false, or_false, and_true] <;> omega

end Moment

end LaunchReports
