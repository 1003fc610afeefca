/-
Decimal literals and the numbers that they denote.

- `Literal.read?_eq_some_iff`: what is read as a literal is an optional sign, digits with at most one point among them
  and an optional exponent, and nothing else (`Literal.Spelled`).
- `Literal.toRat_value`: what is read denotes the number of the literal, exactly (`Literal.number`).
- `Numeral.Signed.spelled`: a whole number is a literal of its own number.
-/
import Mathlib.Algebra.Order.Field.Rat
import Mathlib.Data.List.TakeWhile
import Mathlib.Tactic.FieldSimp
import Mathlib.Tactic.Ring
import LaunchReports.Number.Decimal
import LaunchReports.Proofs.Number.Numerals

namespace LaunchReports

/-! ## Grammar -/

namespace Decimal

inductive Sign : Bool → List Char → Prop
  | none : Sign false []
  | plus : Sign false ['+']
  | minus : Sign true ['-']

/-- digits before and after a point. The point may be left out if there are none after it. -/
inductive Mantissa : List Char → List Char → List Char → Prop
  | whole {whole : List Char} : whole ≠ [] → (∀ c ∈ whole, c.isDigit = true) → Mantissa whole [] whole
  | point {whole fraction : List Char} : whole ≠ [] → (∀ c ∈ whole, c.isDigit = true) →
      (∀ c ∈ fraction, c.isDigit = true) → Mantissa whole fraction (whole ++ '.' :: fraction)
  | fraction {fraction : List Char} : fraction ≠ [] → (∀ c ∈ fraction, c.isDigit = true) →
      Mantissa [] fraction ('.' :: fraction)

inductive Exponent : Int → List Char → Prop
  | none : Exponent 0 []
  | lower {e : Int} {text : List Char} : Numeral.Signed text e → Exponent e ('e' :: text)
  | upper {e : Int} {text : List Char} : Numeral.Signed text e → Exponent e ('E' :: text)

/-- the number `± digits · 10 ^ exponent` -/
def toRat (d : Decimal) : ℚ := (if d.negative then -1 else 1) * d.digits * 10 ^ d.exponent

end Decimal

namespace Literal

open Decimal

/-- the texts of a literal -/
inductive Spelled : List Char → Literal → Prop
  | intro {negative : Bool} {e : Int} {sign whole fraction mantissa exponent : List Char} :
      Sign negative sign → Mantissa whole fraction mantissa → Exponent e exponent →
      Spelled (sign ++ (mantissa ++ exponent)) ⟨negative, whole, fraction, e⟩

/-- the number that a literal denotes -/
def number (l : Literal) : ℚ :=
  (if l.negative then -1 else 1) *
    (Numeral.toNat l.whole + Numeral.toNat l.fraction / 10 ^ l.fraction.length) * 10 ^ l.exponent

/-! ## Reading -/

theorem exponent?_eq_some_iff {text : List Char} {e : Int} : exponent? text = some e ↔ Exponent e text := by
  constructor
  · intro h
    cases text with
    | nil =>
      cases h
      exact .none
    | cons mark rest =>
      rw [exponent?] at h
      split at h
      · next hmark =>
        have hsigned := Numeral.int?_eq_some_iff.1 h
        rcases hmark with rfl | rfl
        · exact .lower hsigned
        · exact .upper hsigned
      · cases h
  · intro h
    cases h with
    | none => rfl
    | lower hsigned | upper hsigned => exact Numeral.int?_signed hsigned

theorem splitSign_eq {text body : List Char} {negative : Bool} (h : splitSign text = (negative, body)) :
    ∃ sign, Sign negative sign ∧ text = sign ++ body := by
  unfold splitSign at h
  split at h
  · cases h
    exact ⟨_, .minus, rfl⟩
  · cases h
    exact ⟨_, .plus, rfl⟩
  · cases h
    exact ⟨_, .none, rfl⟩

theorem splitFraction_eq {text fraction tail : List Char} (h : splitFraction text = (fraction, tail)) :
    text = '.' :: fraction ++ tail ∧ (∀ c ∈ fraction, c.isDigit = true) ∨ fraction = [] ∧ text = tail := by
  unfold splitFraction at h
  split at h
  · cases h
    refine .inl ⟨?_, fun c hc => List.mem_takeWhile_imp hc⟩
    rw [List.cons_append, List.takeWhile_append_dropWhile]
  · cases h
    exact .inr ⟨rfl, rfl⟩

theorem Spelled.of_read? {text : List Char} {l : Literal} (h : read? text = some l) : Spelled text l := by
  unfold read? at h
  rcases hsplit : splitSign text with ⟨negative, body⟩
  rcases hfraction : splitFraction (body.dropWhile Char.isDigit) with ⟨fraction, tail⟩
  simp only [hsplit, hfraction, Bool.and_eq_true, List.isEmpty_iff] at h
  have hbody : body = body.takeWhile Char.isDigit ++ body.dropWhile Char.isDigit := List.takeWhile_append_dropWhile.symm
  have hwhole : ∀ c ∈ body.takeWhile Char.isDigit, c.isDigit = true := fun c => List.mem_takeWhile_imp
  obtain ⟨sign, hsign, rfl⟩ := splitSign_eq hsplit
  generalize body.takeWhile Char.isDigit = whole at h hbody hwhole
  generalize body.dropWhile Char.isDigit = rest at hfraction hbody
  subst hbody
  split at h
  · cases h
  · next hdigits =>
    obtain ⟨e, hexponent, rfl⟩ := Option.map_eq_some_iff.1 h
    replace hexponent := exponent?_eq_some_iff.1 hexponent
    rcases splitFraction_eq hfraction with ⟨rfl, hall⟩ | ⟨rfl, rfl⟩
    · by_cases hempty : whole = []
      · subst hempty
        have hspelled := Spelled.intro hsign (.fraction (fun hnone => hdigits ⟨rfl, hnone⟩) hall) hexponent
        exact hspelled
      · have hspelled := Spelled.intro hsign (.point hempty hwhole hall) hexponent
        rwa [List.append_assoc] at hspelled
    · exact .intro hsign (.whole (fun hnone => hdigits ⟨hnone, rfl⟩) hwhole) hexponent

theorem splitSign_append {negative : Bool} {sign whole fraction mantissa : List Char} (hsign : Sign negative sign)
    (h : Mantissa whole fraction mantissa) (tail : List Char) :
    splitSign (sign ++ (mantissa ++ tail)) = (negative, mantissa ++ tail) := by
  have hfirst : ∃ c rest, mantissa = c :: rest ∧ c ≠ '-' ∧ c ≠ '+' := by
    have hdigit (c : Char) (hc : c.isDigit = true) : c ≠ '-' ∧ c ≠ '+' := by
      constructor <;> rintro rfl <;> cases hc
    cases h with
    | whole hne hall | point hne hall =>
      obtain ⟨c, rest, rfl⟩ := List.exists_cons_of_ne_nil hne
      exact ⟨c, _, rfl, hdigit c (hall c List.mem_cons_self)⟩
    | fraction => exact ⟨'.', _, rfl, by decide, by decide⟩
  cases hsign with
  | none =>
    obtain ⟨c, rest, rfl, hminus, hplus⟩ := hfirst
    rw [List.nil_append, List.cons_append, splitSign]
    · exact fun _ e => hminus (List.cons.inj e).1
    · exact fun _ e => hplus (List.cons.inj e).1
  | plus | minus => rfl

theorem splitFraction_append {whole fraction mantissa tail : List Char} {e : Int} (h : Mantissa whole fraction mantissa)
    (htail : Exponent e tail) :
    (mantissa ++ tail).takeWhile Char.isDigit = whole ∧
      splitFraction ((mantissa ++ tail).dropWhile Char.isDigit) = (fraction, tail) := by
  -- neither a digit nor a point begins an exponent
  have hstop : tail.takeWhile Char.isDigit = [] ∧ tail.dropWhile Char.isDigit = tail ∧ splitFraction tail = ([], tail) := by
    cases htail <;> exact ⟨rfl, rfl, rfl⟩
  obtain ⟨hnone, hall, hpoint⟩ := hstop
  have hend (hdigits : ∀ c ∈ fraction, c.isDigit = true) : splitFraction ('.' :: (fraction ++ tail)) = (fraction, tail) := by
    rw [splitFraction, List.takeWhile_append_of_pos hdigits, List.dropWhile_append_of_pos hdigits, hnone, hall,
      List.append_nil]
  cases h with
  | whole hne hdigits =>
    rw [List.takeWhile_append_of_pos hdigits, List.dropWhile_append_of_pos hdigits, hnone, hall, List.append_nil]
    exact ⟨rfl, hpoint⟩
  | point hne hdigits hfraction =>
    rw [List.append_assoc, List.takeWhile_append_of_pos hdigits, List.dropWhile_append_of_pos hdigits]
    exact ⟨List.append_nil _, hend hfraction⟩
  | fraction hne hfraction => exact ⟨rfl, hend hfraction⟩

/-- what is read as a literal -/
theorem read?_eq_some_iff {text : List Char} {l : Literal} : read? text = some l ↔ Spelled text l := by
  refine ⟨Spelled.of_read?, ?_⟩
  rintro ⟨hsign, hmantissa, hexponent⟩
  obtain ⟨hwhole, hfraction⟩ := splitFraction_append hmantissa hexponent
  have hsome {whole fraction mantissa : List Char} (h : Mantissa whole fraction mantissa) :
      (whole.isEmpty && fraction.isEmpty) = false := by
    cases h with
    | whole hne | point hne => rw [List.isEmpty_eq_false_iff.2 hne, Bool.false_and]
    | fraction hne => rw [List.isEmpty_eq_false_iff.2 hne, Bool.and_false]
  simp only [read?, splitSign_append hsign hmantissa, hwhole, hfraction, hsome hmantissa, Bool.false_eq_true, if_false,
    exponent?_eq_some_iff.2 hexponent, Option.map_some]

/-! ## Numbers -/

theorem toNat_digits (l : Literal) :
    Numeral.toNat l.digits = 10 ^ l.fraction.length * Numeral.toNat l.whole + Numeral.toNat l.fraction := by
  rw [digits, Numeral.toNat, Nat.ofDigitChars_append, Nat.ofDigitChars_eq_ofDigitChars_zero]
  rfl

/-- a literal is read as its number -/
theorem toRat_value (l : Literal) : l.value.toRat = l.number := by
  have hten : (10 : ℚ) ^ l.fraction.length ≠ 0 := pow_ne_zero _ (by norm_num)
  have hpower : (10 : ℚ) ^ (l.exponent - l.fraction.length) = 10 ^ l.exponent / 10 ^ l.fraction.length := by
    rw [zpow_sub₀ (by norm_num), zpow_natCast]
  rw [Decimal.toRat, number, value, hpower, toNat_digits]
  push_cast
  field_simp

end Literal

/-- a whole number is a literal -/
theorem Numeral.Signed.spelled {text : List Char} {n : Int} (h : Signed text n) :
    ∃ l, Literal.Spelled text l ∧ l.number = n := by
  have hspelled {negative : Bool} {sign digits : List Char} (hsign : Decimal.Sign negative sign) (hne : digits ≠ [])
      (hdigits : ∀ c ∈ digits, c.isDigit = true) :
      Literal.Spelled (sign ++ digits) ⟨negative, digits, [], 0⟩ ∧
        Literal.number ⟨negative, digits, [], 0⟩ = (if negative then -1 else 1) * toNat digits := by
    have hintro := Literal.Spelled.intro hsign (.whole hne hdigits) .none
    rw [List.append_nil] at hintro
    refine ⟨hintro, ?_⟩
    simp [Literal.number, toNat, Nat.ofDigitChars]
  cases h with
  | plain hne hdigits =>
    obtain ⟨hl, hnumber⟩ := hspelled .none hne hdigits
    exact ⟨_, hl, by rw [hnumber]; simp⟩
  | plus hne hdigits =>
    obtain ⟨hl, hnumber⟩ := hspelled .plus hne hdigits
    exact ⟨_, hl, by rw [hnumber]; simp⟩
  | minus hne hdigits =>
    obtain ⟨hl, hnumber⟩ := hspelled .minus hne hdigits
    exact ⟨_, hl, by rw [hnumber]; simp⟩

end LaunchReports
