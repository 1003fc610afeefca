/-
Day numbers count the days of the calendar.

- `Date.Counted`: the days of the calendar, counted one at a time from the first day of 1970, forwards and backwards. A
  day is followed by the next of its month, by the first of the next month or by the first of the next year.
- `Date.counted_iff`: a day is counted as `k` if it is a day of the calendar and its number is `k` more than that of the
  first day of 1970.
- `Date.dayNumber_ofDayNumber` and `Date.ofDayNumber_dayNumber`: days and their numbers go with each other.

A year is found by a guess that is off by one at most (`Calendar.yearOfDay_spec`), month and day by taking month lengths
off (`Calendar.monthAndDay_spec`).
-/
import Mathlib.Algebra.GroupWithZero.Nat
import Mathlib.Data.Int.Init
import Mathlib.Tactic.Common
import LaunchReports.Time.Moment

namespace LaunchReports

namespace Calendar

/-! ## Years -/

def yearLength (year : Int) : Nat := if isLeap year then 366 else 365

theorem isLeap_iff (year : Int) : isLeap year = true ↔ year % 4 = 0 ∧ (year % 100 ≠ 0 ∨ year % 400 = 0) := by
  simp [isLeap]

theorem daysBeforeYear_succ (year : Int) : daysBeforeYear (year + 1) = daysBeforeYear year + yearLength year := by
  unfold daysBeforeYear yearLength
  split_ifs with hleap
  · rw [isLeap_iff] at hleap
    omega
  · rw [isLeap_iff] at hleap
    omega

theorem daysBeforeYear_mono {a b : Int} (h : a ≤ b) : daysBeforeYear a ≤ daysBeforeYear b := by
  unfold daysBeforeYear
  omega

/-- the guess is right up to one year -/
theorem yearOfDay_spec (n : Int) : daysBeforeYear (yearOfDay n) ≤ n ∧ n < daysBeforeYear (yearOfDay n + 1) := by
  unfold yearOfDay
  have hguess : daysBeforeYear (n * 400 / 146097 - 1) ≤ n ∧ n < daysBeforeYear (n * 400 / 146097 + 2) := by
    unfold daysBeforeYear
    omega
  dsimp only
  split_ifs with hlater hearlier
  · refine ⟨hlater, ?_⟩
    rw [Int.add_assoc]
    exact hguess.2
  · refine ⟨hguess.1, ?_⟩
    rw [Int.sub_add_cancel]
    exact hearlier
  · exact ⟨Int.not_lt.1 hearlier, Int.not_le.1 hlater⟩

theorem le_yearOfDay_iff {n year : Int} : year ≤ yearOfDay n ↔ daysBeforeYear year ≤ n := by
  obtain ⟨hle, hlt⟩ := yearOfDay_spec n
  constructor
  · intro h
    exact Int.le_trans (daysBeforeYear_mono h) hle
  · intro h
    by_contra hlater
    have hnext := daysBeforeYear_mono (a := yearOfDay n + 1) (b := year) (by omega)
    omega

/-- a day lies in one year only -/
theorem yearOfDay_eq {n year : Int} (h : daysBeforeYear year ≤ n) (hnext : n < daysBeforeYear (year + 1)) :
    yearOfDay n = year := by
  obtain ⟨hle, hlt⟩ := yearOfDay_spec n
  by_contra hne
  rcases Int.lt_or_gt_of_ne hne with hless | hmore
  · have := daysBeforeYear_mono (a := yearOfDay n + 1) (b := year) (by omega)
    omega
  · have := daysBeforeYear_mono (a := year + 1) (b := yearOfDay n) (by omega)
    omega

/-! ## Months -/

theorem length_monthLengths (leap : Bool) : (monthLengths leap).length = 12 := rfl

theorem sum_monthLengths (year : Int) : (monthLengths (isLeap year)).sum = yearLength year := by
  unfold yearLength
  cases isLeap year <;> rfl

theorem monthLength_succ (year : Int) (i : Nat) : monthLength year (i + 1) = (monthLengths (isLeap year)).getD i 0 :=
  rfl

theorem daysBeforeMonth_succ (leap : Bool) (i : Nat) : daysBeforeMonth leap (i + 1) = ((monthLengths leap).take i).sum := by
  rw [daysBeforeMonth, Nat.add_sub_cancel, List.sum_eq_foldl]

/-- lengths are taken off until the rest lies within one -/
theorem monthAndDay_spec {lengths : List Nat} {i d : Nat} (h : d < lengths.getD i 0) (month : Nat) :
    monthAndDay month lengths ((lengths.take i).sum + d) = (month + i, d + 1) := by
  induction lengths generalizing i month with
  | nil => simp at h
  | cons length rest ih =>
    cases i with
    | zero =>
      have hd : d < length := by simpa using h
      simp [monthAndDay, hd]
    | succ i =>
      have hd : d < rest.getD i 0 := by simpa using h
      have hbeyond : ¬ length + ((rest.take i).sum + d) < length := by omega
      rw [List.take_succ_cons, List.sum_cons, Nat.add_assoc, monthAndDay, if_neg hbeyond, Nat.add_sub_cancel_left,
        ih hd]
      simp only [Prod.mk.injEq, and_true]
      omega

/-- a day of a year lies in one of its months -/
theorem exists_month {lengths : List Nat} {n : Nat} (h : n < lengths.sum) :
    ∃ i d, i < lengths.length ∧ d < lengths.getD i 0 ∧ (lengths.take i).sum + d = n := by
  induction lengths generalizing n with
  | nil => simp at h
  | cons length rest ih =>
    by_cases hn : n < length
    · exact ⟨0, n, by simp, by simpa using hn, by simp⟩
    · rw [List.sum_cons] at h
      obtain ⟨i, d, hi, hd, hsum⟩ := ih (n := n - length) (by omega)
      refine ⟨i + 1, d, by simpa using hi, by simpa using hd, ?_⟩
      rw [List.take_succ_cons, List.sum_cons]
      omega

/-- the days of a year before the end of a month -/
theorem sum_take_succ (lengths : List Nat) (i : Nat) :
    (lengths.take (i + 1)).sum = (lengths.take i).sum + lengths.getD i 0 := by
  induction lengths generalizing i with
  | nil => simp
  | cons length rest ih =>
    cases i with
    | zero => simp
    | succ i =>
      simp only [List.take_succ_cons, List.sum_cons, List.getD_cons_succ]
      rw [ih i, Nat.add_assoc]

theorem sum_take_le (lengths : List Nat) (i : Nat) : (lengths.take i).sum + lengths.getD i 0 ≤ lengths.sum := by
  have hsplit : (lengths.take (i + 1)).sum + (lengths.drop (i + 1)).sum = lengths.sum := by
    rw [← List.sum_append, List.take_append_drop]
  rw [← sum_take_succ]
  omega

end Calendar

/-! ## Days -/

namespace Date

open Calendar

theorem isValid_iff (d : Date) :
    d.isValid = true ↔ (1 ≤ d.month ∧ d.month ≤ 12) ∧ 1 ≤ d.day ∧ d.day ≤ monthLength d.year d.month := by
  simp [isValid, and_assoc]

/-- a day of the calendar by its year and the days before it, with month and day counted from zero -/
theorem exists_of_isValid {d : Date} (h : d.isValid) :
    ∃ i k, i < 12 ∧ k < (monthLengths (isLeap d.year)).getD i 0 ∧ d = ⟨d.year, i + 1, k + 1⟩ ∧
      dayNumber d = daysBeforeYear d.year + (((monthLengths (isLeap d.year)).take i).sum + k : Nat) := by
  obtain ⟨year, month, day⟩ := d
  obtain ⟨⟨hmonth, hlast⟩, hday, hlength⟩ := (isValid_iff _).1 h
  dsimp only at hmonth hlast hday hlength
  obtain ⟨i, rfl⟩ : ∃ i, month = i + 1 := ⟨month - 1, by omega⟩
  obtain ⟨k, rfl⟩ : ∃ k, day = k + 1 := ⟨day - 1, by omega⟩
  rw [monthLength_succ] at hlength
  refine ⟨i, k, by omega, hlength, rfl, ?_⟩
  simp only [dayNumber, daysBeforeMonth_succ]
  omega

theorem ofDayNumber_eq {year : Int} {i k : Nat} (h : k < (monthLengths (isLeap year)).getD i 0) :
    ofDayNumber (daysBeforeYear year + (((monthLengths (isLeap year)).take i).sum + k : Nat)) = ⟨year, i + 1, k + 1⟩ := by
  have hwithin := sum_take_le (monthLengths (isLeap year)) i
  rw [sum_monthLengths] at hwithin
  have hyear : yearOfDay (daysBeforeYear year + (((monthLengths (isLeap year)).take i).sum + k : Nat)) = year := by
    apply yearOfDay_eq
    · omega
    · rw [daysBeforeYear_succ]
      omega
  have hday : daysBeforeYear year + (((monthLengths (isLeap year)).take i).sum + k : Nat) - daysBeforeYear year =
      (((monthLengths (isLeap year)).take i).sum + k : Nat) := by
    omega
  rw [ofDayNumber, hyear, hday, Int.toNat_natCast, monthAndDay_spec h, Nat.add_comm 1 i]

/-- a day of the calendar is the one of its number -/
theorem ofDayNumber_dayNumber {d : Date} (h : d.isValid) : ofDayNumber (dayNumber d) = d := by
  obtain ⟨i, k, -, hk, hd, hnumber⟩ := exists_of_isValid h
  rw [hnumber, ofDayNumber_eq hk, ← hd]

/-- every number is that of a day of the calendar -/
theorem ofDayNumber_spec (n : Int) : (ofDayNumber n).isValid ∧ dayNumber (ofDayNumber n) = n := by
  obtain ⟨hle, hlt⟩ := yearOfDay_spec n
  rw [daysBeforeYear_succ] at hlt
  have hwithin : (n - daysBeforeYear (yearOfDay n)).toNat < (monthLengths (isLeap (yearOfDay n))).sum := by
    rw [sum_monthLengths]
    omega
  obtain ⟨i, k, hi, hk, hsum⟩ := exists_month hwithin
  have hn : n = daysBeforeYear (yearOfDay n) + (((monthLengths (isLeap (yearOfDay n))).take i).sum + k : Nat) := by
    rw [hsum]
    omega
  rw [length_monthLengths] at hi
  have hd : ofDayNumber n = ⟨yearOfDay n, i + 1, k + 1⟩ := by
    rw [hn, ofDayNumber_eq hk, ← hn]
  constructor
  · rw [hd, isValid_iff]
    exact ⟨⟨Nat.succ_pos i, hi⟩, Nat.succ_pos k, hk⟩
  · rw [hd, dayNumber, daysBeforeMonth_succ]
    dsimp only
    omega

theorem isValid_ofDayNumber (n : Int) : (ofDayNumber n).isValid := (ofDayNumber_spec n).1

theorem dayNumber_ofDayNumber (n : Int) : dayNumber (ofDayNumber n) = n := (ofDayNumber_spec n).2

/-! ## Day after day -/

/-- the day after a day of the calendar -/
def next (d : Date) : Date :=
  if d.day < monthLength d.year d.month then { d with day := d.day + 1 }
  else if d.month < 12 then ⟨d.year, d.month + 1, 1⟩
  else ⟨d.year + 1, 1, 1⟩

theorem next_spec {d : Date} (h : d.isValid) : d.next.isValid ∧ dayNumber d.next = dayNumber d + 1 := by
  obtain ⟨i, k, hi, hk, hd, hnumber⟩ := exists_of_isValid h
  rw [hnumber, hd]
  simp only [next, monthLength_succ]
  split_ifs with hday hmonth
  · -- a day later in the same month
    constructor
    · rw [isValid_iff]
      exact ⟨⟨Nat.succ_pos i, hi⟩, Nat.succ_pos _, hday⟩
    · simp only [dayNumber, daysBeforeMonth_succ]
      omega
  · -- the last day of a month
    have hlast : (monthLengths (isLeap d.year)).getD i 0 = k + 1 := Nat.le_antisymm (Nat.not_lt.1 hday) hk
    constructor
    · have hlength : 1 ≤ monthLength d.year (i + 1 + 1) := by
        have hall : ∀ leap, ∀ j < 12, 1 ≤ (monthLengths leap).getD j 0 := by decide
        exact hall _ (i + 1) hmonth
      rw [isValid_iff]
      exact ⟨⟨Nat.succ_pos _, hmonth⟩, Nat.le_refl 1, hlength⟩
    · simp only [dayNumber, daysBeforeMonth_succ]
      rw [sum_take_succ, hlast]
      omega
  · -- the last day of a year
    have hlast : (monthLengths (isLeap d.year)).getD i 0 = k + 1 := Nat.le_antisymm (Nat.not_lt.1 hday) hk
    constructor
    · rw [isValid_iff]
      exact ⟨⟨Nat.le_refl 1, by simp⟩, Nat.le_refl 1, by simp [monthLength, monthLengths]⟩
    · obtain rfl : i = 11 := by omega
      have hsum := sum_take_succ (monthLengths (isLeap d.year)) 11
      have hwhole : (monthLengths (isLeap d.year)).take 12 = monthLengths (isLeap d.year) := rfl
      rw [hwhole, sum_monthLengths, hlast] at hsum
      have hfirst : daysBeforeMonth (isLeap (d.year + 1)) 1 = 0 := rfl
      simp only [dayNumber, hfirst]
      rw [daysBeforeYear_succ, hsum]
      omega

/-- the days of the calendar, counted from the first day of 1970 -/
inductive Counted : Int → Date → Prop
  | start : Counted 0 ⟨1970, 1, 1⟩
  | next {k : Int} {d : Date} : Counted k d → Counted (k + 1) d.next
  | previous {k : Int} {d : Date} : d.isValid → Counted (k + 1) d.next → Counted k d

theorem Counted.spec {k : Int} {d : Date} (h : Counted k d) : d.isValid ∧ dayNumber d = Moment.epochDay + k := by
  induction h with
  | start => exact ⟨rfl, rfl⟩
  | @next k d _ ih =>
    obtain ⟨hvalid, hnumber⟩ := next_spec ih.1
    refine ⟨hvalid, ?_⟩
    rw [hnumber, ih.2, Int.add_assoc]
  | @previous k d hvalid _ ih =>
    refine ⟨hvalid, ?_⟩
    have hnumber := (next_spec hvalid).2
    rw [ih.2] at hnumber
    omega

/-- the day after a number is that of the next number -/
theorem next_ofDayNumber (n : Int) : (ofDayNumber n).next = ofDayNumber (n + 1) := by
  obtain ⟨hvalid, hnumber⟩ := next_spec (isValid_ofDayNumber n)
  rw [dayNumber_ofDayNumber] at hnumber
  rw [← ofDayNumber_dayNumber hvalid, hnumber]

theorem counted_ofDayNumber (k : Int) : Counted k (ofDayNumber (Moment.epochDay + k)) := by
  induction k using Int.induction_on with
  | zero => exact .start
  | succ i ih =>
    have hstep := ih.next
    rwa [next_ofDayNumber, Int.add_assoc] at hstep
  | pred i ih =>
    apply Counted.previous (isValid_ofDayNumber _)
    rw [next_ofDayNumber, Int.add_assoc, Int.sub_add_cancel]
    exact ih

/-- **A day is counted by its number.** -/
theorem counted_iff {k : Int} {d : Date} : Counted k d ↔ d.isValid ∧ dayNumber d = Moment.epochDay + k := by
  constructor
  · exact Counted.spec
  · rintro ⟨hvalid, hnumber⟩
    rw [← ofDayNumber_dayNumber hvalid, hnumber]
    exact counted_ofDayNumber k

end Date

end LaunchReports
