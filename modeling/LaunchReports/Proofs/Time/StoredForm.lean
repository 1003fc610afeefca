/-
Texts of moments, read back.

- `Timestamp.storedForm?_stored`: the stored form of a moment of the years -9999 to 9999 is read as that moment, and
  nothing but such moments is read (`Timestamp.storedForm?_range`).
- `Timestamp.offsetForm?_written`: a date and time with an offset is read as the seconds that its parts make.
- `Timestamp.int?_dateText`, `Timestamp.offsetForm?_stored`, `Timestamp.offsetForm?_ofInt`, `Timestamp.storedForm?_ofInt`:
  no form of a timestamp is taken for another.

Each piece of a text is read back whatever follows it.
-/
import LaunchReports.Proofs.Number.Numerals
import LaunchReports.Proofs.Text.Trimming
import LaunchReports.Time.Timestamp

namespace LaunchReports

/-! ## Digits and white space -/

namespace Text

theorem isBlank_of_isDigit {c : Char} (h : c.isDigit = true) : isBlank c = false := by
  have hbounds := Char.isDigit_iff_toNat.1 h
  have hzero : '0'.toNat = 48 := rfl
  have hnine : '9'.toNat = 57 := rfl
  simp only [isBlank, Bool.or_eq_false_iff, Bool.and_eq_false_iff, decide_eq_false_iff_not]
  omega

theorem isBlank_of_mem_padded {width n : Nat} {c : Char} (h : c ∈ Numeral.padded width n) : isBlank c = false :=
  isBlank_of_isDigit (Numeral.isDigit_of_mem_padded h)

end Text

/-! ## Pieces -/

namespace Timestamp

open Numeral

theorem digits_padded {width n : Nat} (hw : 0 < width) (h : n < 10 ^ width) (rest : List Char) :
    digits width (padded width n ++ rest) = some (n, rest) := by
  have hlength := length_padded hw h
  have hhead : (padded width n ++ rest).take width = padded width n := List.take_left' hlength
  have htail : (padded width n ++ rest).drop width = rest := List.drop_left' hlength
  have hall : (padded width n).all Char.isDigit = true := List.all_eq_true.2 fun c hc => isDigit_of_mem_padded hc
  simp only [digits, hhead, htail, hlength, hall, decide_true, Bool.and_true, if_true, toNat_padded]

theorem digits_two {n : Nat} (h : n ≤ 99) (rest : List Char) : digits 2 (padded 2 n ++ rest) = some (n, rest) :=
  digits_padded (by decide) (Nat.lt_succ_of_le h) rest

/-- what is read as a number of so many digits -/
theorem digits_eq_some_iff {width n : Nat} {text rest : List Char} (hw : 0 < width) :
    digits width text = some (n, rest) ↔ n < 10 ^ width ∧ text = padded width n ++ rest := by
  constructor
  · intro h
    simp only [digits] at h
    split at h
    · next hdigits =>
      simp only [Bool.and_eq_true, decide_eq_true_eq, List.all_eq_true] at hdigits
      obtain ⟨hlength, hall⟩ := hdigits
      obtain ⟨rfl, rfl⟩ := Prod.mk.inj (Option.some.inj h)
      have hne : text.take width ≠ [] := List.length_pos_iff.1 (by rw [hlength]; exact hw)
      have hlt := toNat_lt hall
      have hhead := padded_toNat hne hall
      rw [hlength] at hlt hhead
      exact ⟨hlt, by rw [hhead, List.take_append_drop]⟩
    · cases h
  · rintro ⟨hn, rfl⟩
    exact digits_padded hw hn rest

theorem digits_nondigit {width : Nat} {c : Char} (h : c.isDigit = false) (hw : 0 < width) (text : List Char) :
    digits width (c :: text) = none := by
  obtain ⟨width, rfl⟩ := Nat.exists_eq_succ_of_ne_zero (Nat.ne_of_gt hw)
  simp only [digits, List.take_succ_cons, List.all_cons, h, Bool.false_and, Bool.and_false, Bool.false_eq_true, if_false]

theorem skip_cons (c : Char) (text : List Char) : skip c (c :: text) = some text := if_pos rfl

theorem month_day_le {d : Date} (h : d.isValid) : d.month ≤ 12 ∧ d.day ≤ 31 := by
  simp only [Date.isValid, Bool.and_eq_true, decide_eq_true_eq] at h
  have hlengths : ∀ leap, ∀ i < 12, (Calendar.monthLengths leap).getD i 0 ≤ 31 := by decide
  obtain ⟨⟨⟨hone, hlast⟩, -⟩, hday⟩ := h
  obtain ⟨i, hi⟩ := Nat.exists_eq_succ_of_ne_zero (Nat.ne_of_gt hone)
  rw [hi] at hday hlast
  exact ⟨hi ▸ hlast, Nat.le_trans hday (hlengths _ i hlast)⟩

/-- the month and day of a day of the calendar -/
theorem monthDay_written {d : Date} (h : d.isValid) (rest : List Char) :
    monthDay d.year ('-' :: padded 2 d.month ++ '-' :: padded 2 d.day ++ rest) = some (d, rest) := by
  obtain ⟨hmonth, hday⟩ := month_day_le h
  simp only [monthDay, List.cons_append, List.append_assoc, skip_cons, Option.bind_eq_bind, Option.bind_some,
    digits_two (Nat.le_trans hmonth (by decide)), digits_two (Nat.le_trans hday (by decide))]
  rfl

/-- digits are no month -/
theorem monthDay_digits {text : List Char} (h : ∀ c ∈ text, c.isDigit = true) (year : Int) : monthDay year text = none := by
  cases text with
  | nil => rfl
  | cons c text =>
    have hc : c ≠ '-' := by
      rintro rfl
      cases h '-' List.mem_cons_self
    simp only [monthDay, skip, if_neg hc, Option.bind_eq_bind, Option.bind_none]

theorem isValid_iff {m : Moment} :
    m.isValid = true ↔ m.date.isValid = true ∧ m.hour ≤ 23 ∧ m.minute ≤ 59 ∧ m.second ≤ 59 := by
  simp [Moment.isValid, and_assoc]

theorem clock_clockText {m : Moment} (h : m.isValid) (rest : List Char) :
    clock m.date (m.clockText ++ rest) = some (m, rest) := by
  obtain ⟨-, hhour, hminute, hsecond⟩ := isValid_iff.1 h
  simp only [clock, Moment.clockText, List.cons_append, List.append_assoc, skip_cons, Option.bind_eq_bind,
    Option.bind_some, digits_two (Nat.le_trans hhour (by decide)), digits_two (Nat.le_trans hminute (by decide)),
    digits_two (Nat.le_trans hsecond (by decide))]
  rfl

/-- a year without a sign -/
theorem signedYear_padded {n : Nat} (hn : n < 10 ^ 4) (rest : List Char) :
    signedYear (padded 4 n ++ rest) = some ((n : Int), rest) := by
  have hdigits := digits_padded (by decide) hn rest
  obtain ⟨c, more, hmore⟩ := List.exists_cons_of_ne_nil (padded_ne_nil 4 n)
  have hc : c.isDigit = true := isDigit_of_mem_padded (hmore ▸ List.mem_cons_self)
  rw [hmore, List.cons_append] at hdigits ⊢
  unfold signedYear
  split
  · next he => cases he; cases hc
  · next he => cases he; cases hc
  · rw [hdigits]
    rfl

theorem signedYear_yearText {year : Int} (hfirst : -9999 ≤ year) (hlast : year ≤ 9999) (rest : List Char) :
    signedYear (Moment.yearText year ++ rest) = some (year, rest) := by
  have hfour : year.natAbs < 10 ^ 4 := by omega
  unfold Moment.yearText
  split_ifs with hsign
  · rw [List.cons_append, signedYear, digits_padded (by decide) hfour, Option.map_some, Option.some.injEq,
      Prod.mk.injEq]
    exact ⟨by omega, rfl⟩
  · rw [signedYear_padded hfour, Option.some.injEq, Prod.mk.injEq]
    exact ⟨by omega, rfl⟩

/-- a year that is read is four digits, behind a sign or not -/
theorem signedYear_cases {year : Int} {text rest : List Char} (h : signedYear text = some (year, rest)) :
    ∃ n < 10 ^ 4, text = '+' :: padded 4 n ++ rest ∧ year = (n : Int) ∨ text = '-' :: padded 4 n ++ rest ∧ year = -n ∨
      text = padded 4 n ++ rest ∧ year = n := by
  unfold signedYear at h
  split at h
  all_goals
    obtain ⟨⟨n, after⟩, hdigits, he⟩ := Option.map_eq_some_iff.1 h
    obtain ⟨hn, rfl⟩ := (digits_eq_some_iff (by decide)).1 hdigits
    obtain ⟨rfl, rfl⟩ := Prod.mk.inj he
  · exact ⟨n, hn, .inl ⟨rfl, rfl⟩⟩
  · exact ⟨n, hn, .inr (.inl ⟨rfl, rfl⟩)⟩
  · exact ⟨n, hn, .inr (.inr ⟨rfl, rfl⟩)⟩

theorem signedYear_bounds {year : Int} {text rest : List Char} (h : signedYear text = some (year, rest)) :
    -9999 ≤ year ∧ year ≤ 9999 := by
  obtain ⟨n, hn, ⟨-, rfl⟩ | ⟨-, rfl⟩ | ⟨-, rfl⟩⟩ := signedYear_cases h <;> omega

/-! ## The stored form -/

theorem storedForm?_stored {m : Moment} (h : m.isValid) (hfirst : -9999 ≤ m.date.year) (hlast : m.date.year ≤ 9999) :
    storedForm? m.stored = some m := by
  have hdate := (isValid_iff.1 h).1
  have hyear := signedYear_yearText hfirst hlast
    ('-' :: padded 2 m.date.month ++ '-' :: padded 2 m.date.day ++ ' ' :: m.clockText)
  have hday := monthDay_written hdate (' ' :: m.clockText)
  have htime := clock_clockText h []
  rw [List.append_nil] at htime
  have htext : m.stored = Moment.yearText m.date.year ++
      ('-' :: padded 2 m.date.month ++ '-' :: padded 2 m.date.day ++ ' ' :: m.clockText) := by
    simp only [Moment.stored, Moment.dateText, List.append_assoc, List.cons_append]
  rw [htext]
  simp only [storedForm?, hyear, hday, htime, skip_cons, Option.bind_eq_bind, Option.bind_some, List.isEmpty_nil, h,
    Bool.and_self, if_true]

theorem monthDay_year {year : Int} {text rest : List Char} {d : Date} (h : monthDay year text = some (d, rest)) :
    d.year = year := by
  simp only [monthDay, Option.bind_eq_bind, Option.bind_eq_some_iff] at h
  obtain ⟨_, -, _, -, _, -, _, -, he⟩ := h
  cases he
  rfl

theorem clock_date {d : Date} {text rest : List Char} {m : Moment} (h : clock d text = some (m, rest)) : m.date = d := by
  simp only [clock, Option.bind_eq_bind, Option.bind_eq_some_iff] at h
  obtain ⟨_, -, _, -, _, -, _, -, _, -, he⟩ := h
  cases he
  rfl

/-- only moments that the stored form can hold are read from it -/
theorem storedForm?_range {text : List Char} {m : Moment} (h : storedForm? text = some m) :
    m.isValid ∧ -9999 ≤ m.date.year ∧ m.date.year ≤ 9999 := by
  simp only [storedForm?, Option.bind_eq_bind, Option.bind_eq_some_iff] at h
  obtain ⟨⟨year, _⟩, hyear, ⟨date, _⟩, hdate, _, -, ⟨time, _⟩, htime, he⟩ := h
  dsimp only at hdate htime he
  split at he
  · next hvalid =>
    cases he
    rw [Bool.and_eq_true] at hvalid
    rw [clock_date htime, monthDay_year hdate]
    exact ⟨hvalid.2, signedYear_bounds hyear⟩
  · cases he

/-! ## The form with an offset -/

/-- a fraction of a second -/
inductive Fraction : List Char → Prop
  | none : Fraction []
  | some {text : List Char} : text ≠ [] → (∀ c ∈ text, c.isDigit = true) → Fraction ('.' :: text)

/-- an offset from UTC and the seconds it puts the local time ahead -/
inductive Zone : List Char → Int → Prop
  | utc : Zone ['Z'] 0
  | utcLower : Zone ['z'] 0
  | east {hours minutes : Nat} : hours ≤ 23 → minutes ≤ 59 →
      Zone ('+' :: padded 2 hours ++ ':' :: padded 2 minutes) (hours * 3600 + minutes * 60 : Nat)
  | west {hours minutes : Nat} : hours ≤ 23 → minutes ≤ 59 →
      Zone ('-' :: padded 2 hours ++ ':' :: padded 2 minutes) (-(hours * 3600 + minutes * 60 : Nat))

theorem offsetSize_written {hours minutes : Nat} (hh : hours ≤ 23) (hm : minutes ≤ 59) :
    offsetSize (padded 2 hours ++ ':' :: padded 2 minutes) = some (hours * 3600 + minutes * 60) := by
  have hminutes := digits_two (Nat.le_trans hm (by decide)) []
  rw [List.append_nil] at hminutes
  simp only [offsetSize, digits_two (Nat.le_trans hh (by decide)), skip_cons, hminutes, Option.bind_eq_bind,
    Option.bind_some, List.isEmpty_nil, hh, hm, decide_true, Bool.and_self, if_true]

theorem offsetSize_lt {text : List Char} {n : Nat} (h : offsetSize text = some n) : n < 86400 := by
  simp only [offsetSize, Option.bind_eq_bind, Option.bind_eq_some_iff] at h
  obtain ⟨⟨hours, _⟩, -, _, -, ⟨minutes, _⟩, -, he⟩ := h
  dsimp only at he
  split at he
  · next hsmall =>
    simp only [Bool.and_eq_true, decide_eq_true_eq] at hsmall
    cases he
    omega
  · cases he

theorem offset_bounds {text : List Char} {shift : Int} (h : offset text = some shift) :
    -86400 < shift ∧ shift < 86400 := by
  unfold offset at h
  split at h
  · cases h
    decide
  · cases h
    decide
  · obtain ⟨n, hn, rfl⟩ := Option.map_eq_some_iff.1 h
    have := offsetSize_lt hn
    omega
  · obtain ⟨n, hn, rfl⟩ := Option.map_eq_some_iff.1 h
    have := offsetSize_lt hn
    omega
  · cases h

theorem Zone.offset_eq {zone : List Char} {shift : Int} (h : Zone zone shift) : offset zone = some shift := by
  cases h with
  | utc | utcLower => rfl
  | east hh hm | west hh hm => rw [List.cons_append, offset, offsetSize_written hh hm]; rfl

/-- an offset goes on with no number and is no fraction -/
theorem Zone.first {zone : List Char} {shift : Int} (h : Zone zone shift) :
    ∃ c rest, zone = c :: rest ∧ c.isDigit = false ∧ c ≠ '.' := by
  cases h with
  | utc | utcLower | east | west => exact ⟨_, _, rfl, rfl, by decide⟩

theorem skipFraction_append {fraction zone : List Char} {shift : Int} (hf : Fraction fraction) (hz : Zone zone shift) :
    skipFraction (fraction ++ zone) = some zone := by
  obtain ⟨c, rest, rfl, hc, hpoint⟩ := hz.first
  cases hf with
  | none =>
    unfold skipFraction
    split
    · next he => cases he; exact absurd rfl hpoint
    · next he => cases he; exact absurd rfl hpoint
    · rfl
  | @some text hne hdigits =>
    obtain ⟨d, more, rfl⟩ := List.exists_cons_of_ne_nil hne
    have hmore : ∀ c ∈ more, c.isDigit = true := fun c hc => hdigits c (List.mem_cons_of_mem d hc)
    have hrest : (more ++ c :: rest).dropWhile Char.isDigit = c :: rest := by
      rw [List.dropWhile_append_of_pos hmore, List.dropWhile_cons, hc]
      rfl
    rw [List.cons_append, List.cons_append, skipFraction, if_pos (hdigits d List.mem_cons_self), hrest]

theorem digits_yearText {year : Int} (hfirst : 0 ≤ year) (hlast : year ≤ 9999) (rest : List Char) :
    digits 4 (Moment.yearText year ++ rest) = some (year.toNat, rest) := by
  rw [Moment.yearText, if_neg (Int.not_lt.2 hfirst), digits_padded (by decide) (by omega), Option.some.injEq,
    Prod.mk.injEq]
  exact ⟨by omega, rfl⟩

/-- date, separator and time are read from any text that begins with them -/
theorem offsetForm?_append {m : Moment} (h : m.isValid) (hfirst : 0 ≤ m.date.year) (hlast : m.date.year ≤ 9999)
    {separator : Char} (hs : separator.toNat < 0x80) (rest : List Char) :
    offsetForm? (Moment.dateText m.date ++ separator :: m.clockText ++ rest) =
      (skipFraction rest).bind fun zone => (offset zone).map fun shift => m.toUnix - shift := by
  have hyear := digits_yearText hfirst hlast
    ('-' :: padded 2 m.date.month ++ '-' :: padded 2 m.date.day ++ separator :: (m.clockText ++ rest))
  have hdate := monthDay_written (isValid_iff.1 h).1 (separator :: (m.clockText ++ rest))
  have htext : Moment.dateText m.date ++ separator :: m.clockText ++ rest = Moment.yearText m.date.year ++
      ('-' :: padded 2 m.date.month ++ '-' :: padded 2 m.date.day ++ separator :: (m.clockText ++ rest)) := by
    simp only [Moment.dateText, List.append_assoc, List.cons_append]
  have hnatural : ((m.date.year.toNat : Nat) : Int) = m.date.year := Int.toNat_of_nonneg hfirst
  have hordinary : m.second ≠ 60 := by
    have := (isValid_iff.1 h).2.2.2
    omega
  have hcivil : beforeLeap m = m := if_neg hordinary
  rw [htext]
  simp only [offsetForm?, hyear, hnatural, hdate, clock_clockText h, hs, if_true, Option.bind_eq_bind, Option.bind_some,
    hcivil, h, hordinary, decide_false, Bool.false_and, Bool.false_eq_true, if_false]
  cases skipFraction rest with
  | none => rfl
  | some zone => cases hzone : offset zone <;> simp [hzone]

theorem offsetForm?_written {m : Moment} (h : m.isValid) (hfirst : 0 ≤ m.date.year) (hlast : m.date.year ≤ 9999)
    {separator : Char} (hs : separator.toNat < 0x80) {fraction zone : List Char} {shift : Int} (hf : Fraction fraction)
    (hz : Zone zone shift) :
    offsetForm? (Moment.dateText m.date ++ separator :: m.clockText ++ (fraction ++ zone)) = some (m.toUnix - shift) := by
  rw [offsetForm?_append h hfirst hlast hs, skipFraction_append hf hz, Option.bind_some, hz.offset_eq]
  rfl

/-! ## Forms apart -/

theorem yearText_ne_nil (year : Int) : Moment.yearText year ≠ [] := by
  unfold Moment.yearText
  split_ifs
  · exact List.cons_ne_nil _ _
  · exact padded_ne_nil 4 _

/-- a date is no numeral: a hyphen stands within it -/
theorem int?_dateText (d : Date) (rest : List Char) : int? (Moment.dateText d ++ rest) = none := by
  obtain ⟨c, more, hyear⟩ := List.exists_cons_of_ne_nil (yearText_ne_nil d.year)
  rw [Moment.dateText, hyear]
  simp only [List.cons_append, List.append_assoc]
  apply int?_eq_none (d := '-')
  · simp
  · rfl

/-- the stored form has no offset -/
theorem offsetForm?_stored {m : Moment} (h : m.isValid) (hlast : m.date.year ≤ 9999) : offsetForm? m.stored = none := by
  by_cases hsign : m.date.year < 0
  · have hyear : Moment.yearText m.date.year = '-' :: padded 4 m.date.year.natAbs := if_pos hsign
    rw [Moment.stored, Moment.dateText, hyear]
    have hnone : ∀ rest, digits 4 ('-' :: rest) = none := digits_nondigit rfl (by decide)
    simp only [List.cons_append, offsetForm?, hnone, Option.bind_eq_bind, Option.bind_none]
  · have hblank : ' '.toNat < 0x80 := by decide
    have happend := offsetForm?_append h (Int.not_lt.1 hsign) hlast hblank []
    rw [List.append_nil] at happend
    exact happend

theorem digits_ofInt_rest {width n : Nat} {k : Int} {rest : List Char} (hw : 0 < width)
    (h : digits width (ofInt k) = some (n, rest)) : ∀ c ∈ rest, c.isDigit = true := by
  cases k with
  | ofNat k =>
    have htext : ofNat k = padded width n ++ rest := ((digits_eq_some_iff hw).1 h).2
    exact fun c hc => isDigit_of_mem_ofNat (htext ▸ List.mem_append_right _ hc)
  | negSucc k =>
    rw [ofInt, digits_nondigit rfl hw] at h
    cases h

theorem offsetForm?_ofInt (n : Int) : offsetForm? (ofInt n) = none := by
  cases hyear : digits 4 (ofInt n) with
  | none => simp only [offsetForm?, hyear, Option.bind_eq_bind, Option.bind_none]
  | some year =>
    have hrest := monthDay_digits (digits_ofInt_rest (by decide) hyear) year.1
    simp only [offsetForm?, hyear, hrest, Option.bind_eq_bind, Option.bind_some, Option.bind_none]

theorem signedYear_rest {year : Int} {text rest : List Char} (h : signedYear text = some (year, rest)) :
    ∀ c ∈ rest, c ∈ text.tail := by
  intro c hc
  obtain ⟨n, -, ⟨rfl, -⟩ | ⟨rfl, -⟩ | ⟨rfl, -⟩⟩ := signedYear_cases h
  · exact List.mem_append_right _ hc
  · exact List.mem_append_right _ hc
  · rw [List.tail_append_of_ne_nil (padded_ne_nil 4 n)]
    exact List.mem_append_right _ hc

theorem storedForm?_ofInt (n : Int) : storedForm? (ofInt n) = none := by
  have htail : ∀ c ∈ (ofInt n).tail, c.isDigit = true := by
    intro c hc
    cases n with
    | ofNat n => exact isDigit_of_mem_ofNat (List.mem_of_mem_tail hc)
    | negSucc n => exact isDigit_of_mem_ofNat hc
  cases hyear : signedYear (ofInt n) with
  | none => simp only [storedForm?, hyear, Option.bind_eq_bind, Option.bind_none]
  | some year =>
    have hrest := monthDay_digits (fun c hc => htail c (signedYear_rest hyear c hc)) year.1
    simp only [storedForm?, hyear, hrest, Option.bind_eq_bind, Option.bind_some, Option.bind_none]

end Timestamp

end LaunchReports
