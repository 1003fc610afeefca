/-
What a timestamp is stored as.

- `Timestamp.normalize_spelled`: every spelling of a second from the start of the year -9999 to the end of the year 9999
  is stored alike, as the date and time that denotes the second; a numeral beyond is refused; what is stored is stored
  as it is.

A second is spelled as a numeral (`Timestamp.Spells`), as a date and time with an offset (`Timestamp.Dated`) or in the
stored form, with any white space around it. What the stored form denotes is said by counting days
(`Timestamp.Denotes`).
-/
import LaunchReports.Proofs.Time.Calendar
import LaunchReports.Proofs.Time.StoredForm

namespace LaunchReports

/-! ## Moments by their seconds -/

namespace Moment

theorem isValid_ofUnix (n : Int) : (ofUnix n).isValid := by
  rw [Timestamp.isValid_iff]
  refine ⟨Date.isValid_ofDayNumber _, ?_, ?_, ?_⟩
  all_goals
    simp only [ofUnix]
    omega

theorem secondOfDay_ofUnix (n : Int) : ((ofUnix n).secondOfDay : Int) = n % 86400 := by
  simp only [secondOfDay, ofUnix]
  omega

theorem counted_ofUnix (n : Int) : Date.Counted (n / 86400) (ofUnix n).date := by
  have hcounted := Date.counted_ofDayNumber (n / 86400)
  rwa [Int.add_comm] at hcounted

theorem inRange_iff {n : Int} : inRange n = true ↔ -377705116800 ≤ n ∧ n ≤ 253402300799 := by
  rw [inRange, Bool.and_eq_true, decide_eq_true_iff, decide_eq_true_iff]
  rfl

theorem le_year_ofUnix_iff {n year : Int} :
    year ≤ (ofUnix n).date.year ↔ Calendar.daysBeforeYear year ≤ n / 86400 + epochDay :=
  Calendar.le_yearOfDay_iff

/-- a second in range falls in a year of four digits -/
theorem year_ofUnix {n : Int} (h : inRange n = true) : -9999 ≤ (ofUnix n).date.year ∧ (ofUnix n).date.year ≤ 9999 := by
  obtain ⟨hfrom, hto⟩ := inRange_iff.1 h
  have hepoch : epochDay = 719528 := rfl
  have hfirst : Calendar.daysBeforeYear (-9999) = -3652059 := rfl
  have hlast : Calendar.daysBeforeYear 10000 = 3652425 := rfl
  refine ⟨le_year_ofUnix_iff.2 (by omega), ?_⟩
  by_contra hlate
  have hnext := le_year_ofUnix_iff.1 (show 10000 ≤ (ofUnix n).date.year by omega)
  omega

end Moment

namespace Timestamp

/-! ## Spellings -/

/-- a text in the stored form, read in UTC by the calendar of day after day, is so many seconds from 1970 -/
def Denotes (text : List Char) (n : Int) : Prop :=
  ∃ m : Moment, ∃ k : Int, m.isValid ∧ -9999 ≤ m.date.year ∧ m.date.year ≤ 9999 ∧ text = m.stored ∧
    Date.Counted k m.date ∧ n = k * 86400 + m.secondOfDay

/-- a date and time of the years 0 to 9999 with an offset. Its seconds are those of the local time less the offset,
rounded down: a fraction does not count. -/
inductive Dated : Int → List Char → Prop
  | intro {m : Moment} {k shift : Int} {separator : Char} {fraction zone : List Char} :
      m.isValid → 0 ≤ m.date.year → m.date.year ≤ 9999 → separator.toNat < 0x80 → Fraction fraction →
      Zone zone shift → Date.Counted k m.date →
      Dated (k * 86400 + m.secondOfDay - shift)
        (Moment.dateText m.date ++ separator :: m.clockText ++ (fraction ++ zone))

/-- the spellings of a second -/
inductive Spells (n : Int) : List Char → Prop
  | numeral : Spells n (Numeral.ofInt n)
  | dated {text : List Char} : Dated n text → Spells n text
  | stored {text : List Char} : Denotes text n → Spells n text

theorem toUnix_of_counted {m : Moment} {k : Int} (h : Date.Counted k m.date) : m.toUnix = k * 86400 + m.secondOfDay := by
  have hday : Calendar.dayNumber m.date - Moment.epochDay = k := by
    rw [h.spec.2]
    omega
  rw [Moment.toUnix, hday]

/-- a moment is the one of its seconds -/
theorem ofUnix_of_counted {m : Moment} {k : Int} (hm : m.isValid) (h : Date.Counted k m.date) :
    Moment.ofUnix (k * 86400 + m.secondOfDay) = m := by
  obtain ⟨hdate, hhour, hminute, hsecond⟩ := isValid_iff.1 hm
  obtain ⟨date, hour, minute, second⟩ := m
  dsimp only at hdate hhour hminute hsecond h
  have hday : (k * 86400 + (Moment.secondOfDay ⟨date, hour, minute, second⟩ : Nat)) / 86400 = k := by
    simp only [Moment.secondOfDay]
    omega
  have hclock : ((k * 86400 + (Moment.secondOfDay ⟨date, hour, minute, second⟩ : Nat)) % 86400).toNat =
      hour * 3600 + minute * 60 + second := by
    simp only [Moment.secondOfDay]
    omega
  have hnumber : k + Moment.epochDay = Calendar.dayNumber date := by rw [h.spec.2, Int.add_comm]
  rw [Moment.ofUnix]
  simp only [hday, hclock, hnumber, Date.ofDayNumber_dayNumber hdate, Moment.mk.injEq, true_and]
  omega

theorem Denotes.ofUnix {text : List Char} {n : Int} (h : Denotes text n) :
    text = (Moment.ofUnix n).stored ∧ storedForm? text = some (Moment.ofUnix n) ∧ (Moment.ofUnix n).date.year ≤ 9999 := by
  obtain ⟨m, k, hvalid, hfirst, hlast, rfl, hcounted, rfl⟩ := h
  rw [ofUnix_of_counted hvalid hcounted]
  exact ⟨rfl, storedForm?_stored hvalid hfirst hlast, hlast⟩

theorem denotes_ofUnix {n : Int} (h : Moment.inRange n = true) : Denotes (Moment.ofUnix n).stored n := by
  obtain ⟨hfirst, hlast⟩ := Moment.year_ofUnix h
  refine ⟨Moment.ofUnix n, n / 86400, Moment.isValid_ofUnix n, hfirst, hlast, rfl, Moment.counted_ofUnix n, ?_⟩
  rw [Moment.secondOfDay_ofUnix]
  omega

/-- a text denotes one second at most -/
theorem Denotes.unique {text : List Char} {n n' : Int} (h : Denotes text n) (h' : Denotes text n') : n' = n := by
  obtain ⟨m, k, hvalid, hfirst, hlast, rfl, hcounted, rfl⟩ := h
  obtain ⟨m', k', hvalid', hfirst', hlast', htext, hcounted', rfl⟩ := h'
  have hread := storedForm?_stored hvalid' hfirst' hlast'
  rw [← htext, storedForm?_stored hvalid hfirst hlast, Option.some.injEq] at hread
  rw [← toUnix_of_counted hcounted', ← toUnix_of_counted hcounted, hread]

/-- no offset takes a day of the years from 0 below the first second -/
theorem firstUnix_le_toUnix {m : Moment} (hm : m.date.isValid) (hyear : 0 ≤ m.date.year) {shift : Int}
    (hshift : shift < 86400) : Moment.firstUnix ≤ m.toUnix - shift := by
  have hmono : Calendar.daysBeforeYear 0 ≤ Calendar.daysBeforeYear m.date.year := Calendar.daysBeforeYear_mono hyear
  have hzero : Calendar.daysBeforeYear 0 = 0 := rfl
  have hepoch : Moment.epochDay = 719528 := rfl
  obtain ⟨i, d, -, -, -, hnumber⟩ := Date.exists_of_isValid hm
  rw [Moment.firstUnix, Moment.toUnix]
  omega

theorem Dated.firstUnix_le {n : Int} {text : List Char} (h : Dated n text) : Moment.firstUnix ≤ n := by
  obtain ⟨hvalid, hfirst, -, -, -, hzone, hcounted⟩ := h
  rw [← toUnix_of_counted hcounted]
  exact firstUnix_le_toUnix (isValid_iff.1 hvalid).1 hfirst (offset_bounds hzone.offset_eq).2

/-! ## Reading -/

theorem trimmed_ofInt (n : Int) : Text.Trimmed (Numeral.ofInt n) := by
  have hblank : ∀ c ∈ Numeral.ofInt n, Text.isBlank c = false := by
    intro c hc
    rcases Numeral.mem_ofInt hc with rfl | hdigit
    · rfl
    · exact Text.isBlank_of_isDigit hdigit
  refine ⟨Numeral.ofInt_ne_nil n, ?_, ?_⟩
  · exact fun c hc => hblank c (List.mem_of_mem_head? hc)
  · exact fun c hc => hblank c (List.mem_of_mem_getLast? hc)

theorem trimmed_dateText (d : Date) (middle : List Char) {back : List Char} (hne : back ≠ [])
    (hback : ∀ c ∈ back, Text.isBlank c = false) : Text.Trimmed (Moment.dateText d ++ (middle ++ back)) := by
  have hyear : ∀ c ∈ Moment.yearText d.year, Text.isBlank c = false := by
    intro c hc
    unfold Moment.yearText at hc
    split_ifs at hc
    · rcases List.mem_cons.1 hc with rfl | hc
      · rfl
      · exact Text.isBlank_of_mem_padded hc
    · exact Text.isBlank_of_mem_padded hc
  have htext : Moment.dateText d ++ (middle ++ back) =
      Moment.yearText d.year ++ ('-' :: Numeral.padded 2 d.month ++ '-' :: Numeral.padded 2 d.day ++ middle) ++ back := by
    simp only [Moment.dateText, List.append_assoc]
  rw [htext]
  exact .of_ends _ (yearText_ne_nil d.year) hne hyear hback

theorem trimmed_stored (m : Moment) : Text.Trimmed m.stored := by
  have hsecond : ∀ c ∈ Numeral.padded 2 m.second, Text.isBlank c = false := fun c => Text.isBlank_of_mem_padded
  have htrimmed := trimmed_dateText m.date (' ' :: Numeral.padded 2 m.hour ++ ':' :: Numeral.padded 2 m.minute ++ [':'])
    (Numeral.padded_ne_nil 2 m.second) hsecond
  have htext : m.stored = Moment.dateText m.date ++
      ((' ' :: Numeral.padded 2 m.hour ++ ':' :: Numeral.padded 2 m.minute ++ [':']) ++ Numeral.padded 2 m.second) := by
    simp only [Moment.stored, Moment.clockText, List.append_assoc, List.cons_append, List.nil_append]
  rwa [htext]

theorem Zone.not_isBlank {zone : List Char} {shift : Int} (h : Zone zone shift) : ∀ c ∈ zone, Text.isBlank c = false := by
  intro c hc
  cases h with
  | utc | utcLower =>
    rw [List.mem_singleton] at hc
    subst hc
    rfl
  | east | west =>
    rw [List.cons_append] at hc
    rcases List.mem_cons.1 hc with rfl | hc
    · rfl
    rcases List.mem_append.1 hc with hc | hc
    · exact Text.isBlank_of_mem_padded hc
    rcases List.mem_cons.1 hc with rfl | hc
    · rfl
    · exact Text.isBlank_of_mem_padded hc

theorem Dated.trimmed {n : Int} {text : List Char} (h : Dated n text) : Text.Trimmed text := by
  obtain @⟨m, k, shift, separator, fraction, zone, -, -, -, -, -, hzone, -⟩ := h
  obtain ⟨c, rest, hcons, -⟩ := hzone.first
  have hne : zone ≠ [] := hcons ▸ List.cons_ne_nil c rest
  have htrimmed := trimmed_dateText m.date (separator :: m.clockText ++ fraction) hne hzone.not_isBlank
  simpa only [List.append_assoc, List.cons_append] using htrimmed

theorem Spells.trimmed {n : Int} {text : List Char} (h : Spells n text) : Text.Trimmed text := by
  cases h with
  | numeral => exact trimmed_ofInt n
  | dated h => exact h.trimmed
  | stored h => exact h.ofUnix.1 ▸ trimmed_stored _

/-- white space around a timestamp does not count -/
theorem moment_append {text before after : List Char} (h : Text.Trimmed text) (hbefore : Text.allBlank before = true)
    (hafter : Text.allBlank after = true) : moment (before ++ text ++ after) = moment text := by
  simp only [moment, h.trim_append hbefore hafter, h.trim_eq]

/-- the forms are tried one after another on a text without white space around it -/
theorem moment_trimmed {text : List Char} (h : Text.Trimmed text) :
    moment text =
      match (Numeral.int? text).filter fitsInt64 with
      | some seconds => if Moment.inRange seconds then .ok (Moment.ofUnix seconds) else .error .epochOutOfRange
      | none =>
        match offsetForm? text with
        | some seconds => if seconds ≤ Moment.lastUnix then .ok (Moment.ofUnix seconds) else .error .beyondCalendar
        | none =>
          match storedForm? text with
          | some m => .ok m
          | none => .error (.unsupported (String.ofList text)) := by
  have hne : text.isEmpty = false := List.isEmpty_eq_false_iff.2 h.ne_nil
  unfold moment
  dsimp only
  rw [h.trim_eq, hne]
  exact if_neg Bool.false_ne_true

/-- the seconds in range are 64-bit integers -/
theorem fitsInt64_of_inRange {n : Int} (h : Moment.inRange n = true) : fitsInt64 n = true := by
  obtain ⟨hfrom, hto⟩ := Moment.inRange_iff.1 h
  have hmin : Int64.minValue.toInt = -9223372036854775808 := rfl
  have hmax : Int64.maxValue.toInt = 9223372036854775807 := rfl
  rw [fitsInt64, Bool.and_eq_true, decide_eq_true_iff, decide_eq_true_iff, hmin, hmax]
  omega

theorem moment_numeral {n : Int} (h : Moment.inRange n = true) : moment (Numeral.ofInt n) = .ok (Moment.ofUnix n) := by
  rw [moment_trimmed (trimmed_ofInt n), Numeral.int?_ofInt, Option.filter_some_pos (fitsInt64_of_inRange h)]
  exact if_pos h

/-- a numeral is read as a number or not at all -/
theorem moment_numeral_error {n : Int} (h : Moment.inRange n = false) : ∃ e, moment (Numeral.ofInt n) = .error e := by
  rw [moment_trimmed (trimmed_ofInt n), Numeral.int?_ofInt, offsetForm?_ofInt, storedForm?_ofInt]
  cases hfits : fitsInt64 n with
  | true =>
    rw [Option.filter_some_pos hfits]
    exact ⟨.epochOutOfRange, if_neg (by simp [h])⟩
  | false =>
    rw [Option.filter_some_neg (by simp [hfits])]
    exact ⟨_, rfl⟩

theorem moment_dated {n : Int} {text : List Char} (h : Dated n text) (hn : n ≤ Moment.lastUnix) :
    moment text = .ok (Moment.ofUnix n) := by
  have htrimmed := h.trimmed
  obtain ⟨hvalid, hfirst, hlast, hseparator, hfraction, hzone, hcounted⟩ := h
  have hread := offsetForm?_written hvalid hfirst hlast hseparator hfraction hzone
  rw [toUnix_of_counted hcounted] at hread
  rw [moment_trimmed htrimmed, hread, List.append_assoc, int?_dateText]
  exact if_pos hn

theorem moment_stored {m : Moment} (h : m.isValid) (hfirst : -9999 ≤ m.date.year) (hlast : m.date.year ≤ 9999) :
    moment m.stored = .ok m := by
  have hnumber : Numeral.int? m.stored = none := by
    rw [Moment.stored, int?_dateText]
  rw [moment_trimmed (trimmed_stored m), hnumber, offsetForm?_stored h hlast, storedForm?_stored h hfirst hlast]
  rfl

theorem moment_spelled {n : Int} {text : List Char} (hn : Moment.inRange n = true) (h : Spells n text) :
    moment text = .ok (Moment.ofUnix n) := by
  cases h with
  | numeral => exact moment_numeral hn
  | dated h => exact moment_dated h (Moment.inRange_iff.1 hn).2
  | stored h =>
    obtain ⟨hfirst, hlast⟩ := Moment.year_ofUnix hn
    rw [h.ofUnix.1]
    exact moment_stored (Moment.isValid_ofUnix n) hfirst hlast

theorem offsetForm?_firstUnix_le {text : List Char} {n : Int} (h : offsetForm? text = some n) : Moment.firstUnix ≤ n := by
  simp only [offsetForm?, Option.bind_eq_bind, Option.bind_eq_some_iff] at h
  obtain ⟨⟨year, _⟩, -, ⟨date, after⟩, hdate, h⟩ := h
  cases after with
  | nil => cases h
  | cons separator after =>
    dsimp only at hdate h
    split at h
    · simp only [Option.bind_some, Option.bind_eq_some_iff] at h
      obtain ⟨⟨time, _⟩, htime, _, -, shift, hshift, h⟩ := h
      have hyear : (beforeLeap time).date.year = (year : Int) := by
        have hdate' : (beforeLeap time).date = time.date := by
          unfold beforeLeap
          split <;> rfl
        rw [hdate', clock_date htime, monthDay_year hdate]
      split at h
      · next hvalid =>
        split at h
        · cases h
        · cases h
          apply firstUnix_le_toUnix (isValid_iff.1 hvalid).1 _ (offset_bounds hshift).2
          rw [hyear]
          exact Int.natCast_nonneg year
      · cases h
    · cases h

/-- whatever is read is a moment that the stored form can hold -/
theorem moment_range {raw : List Char} {m : Moment} (h : moment raw = .ok m) :
    m.isValid ∧ -9999 ≤ m.date.year ∧ m.date.year ≤ 9999 := by
  have hseconds : ∀ n, Moment.inRange n = true → m = Moment.ofUnix n →
      m.isValid ∧ -9999 ≤ m.date.year ∧ m.date.year ≤ 9999 := by
    rintro n hn rfl
    exact ⟨Moment.isValid_ofUnix n, Moment.year_ofUnix hn⟩
  simp only [moment] at h
  split at h
  · cases h
  split at h
  · split at h
    · next hn =>
      cases h
      exact hseconds _ hn rfl
    · cases h
  split at h
  · next hoffset =>
    split at h
    · next hlast =>
      cases h
      exact hseconds _ (Moment.inRange_iff.2 ⟨offsetForm?_firstUnix_le hoffset, hlast⟩) rfl
    · cases h
  split at h
  · next hstored =>
    cases h
    exact storedForm?_range hstored
  · cases h

/-! ## The stored text -/

theorem normalize_ofList {text : List Char} {m : Moment} (h : moment text = .ok m) :
    normalize (String.ofList text) = .ok (String.ofList m.stored) := by
  rw [normalize, String.toList_ofList, h]
  rfl

/-- **What a timestamp is stored as.** -/
theorem normalize_spelled :
    (∀ n, Moment.inRange n = true → ∃ s : String, Denotes s.toList n ∧ (∀ n', Denotes s.toList n' → n' = n) ∧
      ∀ text, Spells n text → ∀ before after, Text.allBlank before = true → Text.allBlank after = true →
        normalize (String.ofList (before ++ text ++ after)) = .ok s) ∧
    (∀ n, Moment.inRange n = false → ∀ before after, Text.allBlank before = true → Text.allBlank after = true →
      ∃ e, normalize (String.ofList (before ++ Numeral.ofInt n ++ after)) = .error e) ∧
    (∀ n text, Dated n text → Moment.firstUnix ≤ n) ∧
    ∀ raw s, normalize raw = .ok s → normalize s = .ok s := by
  refine ⟨fun n hn => ?_, fun n hn before after hbefore hafter => ?_, fun n text h => h.firstUnix_le, fun raw s h => ?_⟩
  · refine ⟨String.ofList (Moment.ofUnix n).stored, ?_, ?_, ?_⟩
    · rw [String.toList_ofList]
      exact denotes_ofUnix hn
    · intro n' h'
      rw [String.toList_ofList] at h'
      exact (denotes_ofUnix hn).unique h'
    · intro text h before after hbefore hafter
      apply normalize_ofList
      rw [moment_append h.trimmed hbefore hafter]
      exact moment_spelled hn h
  · obtain ⟨e, he⟩ := moment_numeral_error hn
    refine ⟨e, ?_⟩
    rw [normalize, String.toList_ofList, moment_append (trimmed_ofInt n) hbefore hafter, he]
    rfl
  · cases hm : moment raw.toList with
    | error e =>
      rw [normalize, hm] at h
      cases h
    | ok m =>
      rw [normalize, hm] at h
      cases h
      obtain ⟨hvalid, hfirst, hlast⟩ := moment_range hm
      exact normalize_ofList (moment_stored hvalid hfirst hlast)

/-- a second of August 2009, spelled in Berlin -/
theorem dated_sample : Dated 1249635603 "2009-08-07T11:00:03.25+02:00".toList := by
  have hcounted : Date.Counted 14463 ⟨2009, 8, 7⟩ := Date.counted_iff.2 ⟨by decide, by decide⟩
  have hvalid : Moment.isValid ⟨⟨2009, 8, 7⟩, 11, 0, 3⟩ := by decide
  have hfraction : Fraction ['.', '2', '5'] := .some (List.cons_ne_nil '2' ['5']) (List.all_eq_true.1 rfl)
  have hours : 2 ≤ 23 := by decide
  have minutes : 0 ≤ 59 := by decide
  have hzone : Zone "+02:00".toList 7200 := .east hours minutes
  exact .intro hvalid (by decide) (by decide) (by decide) hfraction hzone hcounted

theorem normalize_spelled_sample :
    Denotes "2009-08-07 09:00:03".toList 1249635603 ∧
      normalize " 2009-08-07T11:00:03.25+02:00\n" = .ok "2009-08-07 09:00:03" ∧
      normalize "2009-08-07 09:00:03" = .ok "2009-08-07 09:00:03" ∧ ∃ e, normalize "253402300800" = .error e := by
  obtain ⟨hinside, houtside, -, hagain⟩ := normalize_spelled
  obtain ⟨s, hs, -, hspelled⟩ := hinside 1249635603 (by decide)
  have hnumeral : normalize "1249635603" = .ok s := hspelled _ .numeral [] [] rfl rfl
  have hvalue : normalize "1249635603" = .ok "2009-08-07 09:00:03" := by decide
  obtain rfl : s = "2009-08-07 09:00:03" := Except.ok.inj (hnumeral.symm.trans hvalue)
  refine ⟨hs, ?_, hagain _ _ hnumeral, houtside 253402300800 (by decide) [] [] rfl rfl⟩
  exact hspelled _ (.dated dated_sample) [' '] ['\n'] rfl rfl

end Timestamp

end LaunchReports
