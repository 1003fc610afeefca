/-
How numbers are read from JSON text.

- `Token.numberAt_append`: a number is read alike whatever follows it, unless that goes on with the number.
- `Token.numberAt_ofInt`: an integer of 64 bits, with or without a sign, is read back from its numeral.
-/
import Mathlib.Data.List.Basic
import Mathlib.Data.List.TakeWhile
import LaunchReports.Json.Token
import LaunchReports.Proofs.Number.Numerals

namespace LaunchReports

namespace Token

/-! ## Any number -/

/-- a text that cannot go on with a number in front of it -/
def EndsNumber (rest : List Char) : Prop :=
  ∀ c ∈ rest.head?, c.isDigit = false ∧ c ≠ '.' ∧ c ≠ 'e' ∧ c ≠ 'E'

theorem EndsNumber.takeWhile_append {rest : List Char} (h : EndsNumber rest) (cs : List Char) :
    (cs ++ rest).takeWhile Char.isDigit = cs.takeWhile Char.isDigit := by
  induction cs with
  | nil =>
    cases rest with
    | nil => rfl
    | cons c rest => rw [List.nil_append, List.takeWhile_cons, (h c rfl).1]; rfl
  | cons c cs ih => rw [List.cons_append, List.takeWhile_cons, List.takeWhile_cons, ih]

theorem EndsNumber.dropWhile_append {rest : List Char} (h : EndsNumber rest) (cs : List Char) :
    (cs ++ rest).dropWhile Char.isDigit = cs.dropWhile Char.isDigit ++ rest := by
  induction cs with
  | nil =>
    cases rest with
    | nil => rfl
    | cons c rest => rw [List.nil_append, List.dropWhile_cons, (h c rfl).1]; rfl
  | cons c cs ih =>
    rw [List.cons_append, List.dropWhile_cons, List.dropWhile_cons, ih]
    split <;> rfl

theorem splitSign_append {text : List Char} (h : text ≠ []) (rest : List Char) :
    Decimal.splitSign (text ++ rest) = ((Decimal.splitSign text).1, (Decimal.splitSign text).2 ++ rest) := by
  match text, h with
  | c :: cs, _ =>
    unfold Decimal.splitSign
    rw [List.cons_append]
    split <;> simp_all

theorem exponentOf_append {text tail rest : List Char} {e : Int} (h : exponentOf text = (.ok e, tail))
    (hrest : EndsNumber rest) : exponentOf (text ++ rest) = (.ok e, tail ++ rest) := by
  have hne : text ≠ [] := by
    rintro rfl
    cases h
  unfold exponentOf at h ⊢
  simp only [splitSign_append hne, hrest.takeWhile_append, hrest.dropWhile_append] at h ⊢
  split at h
  · cases h
  · next hdigits => cases h; rw [if_neg hdigits]

theorem finishReal_append {negative : Bool} {g : Gathered} {text tail rest : List Char} {n : JsonNumber}
    (h : finishReal negative g text = (.ok n, tail)) (hrest : EndsNumber rest) :
    finishReal negative g (text ++ rest) = (.ok n, tail ++ rest) := by
  cases text with
  | nil =>
    cases rest with
    | nil => simpa using h
    | cons c rest =>
      obtain ⟨-, -, he, hE⟩ := hrest c rfl
      simp only [finishReal, Prod.mk.injEq] at h
      simp [finishReal, he, hE, ← h.1, ← h.2]
  | cons mark more =>
    rw [List.cons_append, finishReal]
    rw [finishReal] at h
    split at h
    · next hmark =>
      rw [if_pos hmark]
      rcases hexponent : exponentOf more with ⟨e | e, after⟩
      · rw [hexponent] at h
        cases h
      · rw [exponentOf_append hexponent hrest]
        rw [hexponent] at h
        obtain ⟨hn, rfl⟩ := Prod.mk.inj h
        exact Prod.ext hn rfl
    · next hmark =>
      rw [if_neg hmark]
      obtain ⟨hn, rfl⟩ := Prod.mk.inj h
      exact Prod.ext hn rfl

theorem numberAt_minus (body : List Char) : numberAt ('-' :: body) = unsignedAt true body := rfl

theorem numberAt_unsigned {c : Char} (h : c ≠ '-') (cs : List Char) :
    numberAt (c :: cs) = unsignedAt false (c :: cs) :=
  if_neg fun e => h (Option.some.inj e)

theorem unsignedAt_append {negative : Bool} {body tail rest : List Char} {n : JsonNumber}
    (h : unsignedAt negative body = (.ok n, tail)) (hrest : EndsNumber rest) :
    unsignedAt negative (body ++ rest) = (.ok n, tail ++ rest) := by
  simp only [unsignedAt, hrest.takeWhile_append, hrest.dropWhile_append] at h ⊢
  by_cases hdigits : (body.takeWhile Char.isDigit).isEmpty
  · rw [if_pos hdigits] at h
    cases (Prod.mk.inj h).1
  · rw [if_neg hdigits] at h ⊢
    split at h
    · cases (Prod.mk.inj h).1
    · next hzero =>
      rw [if_neg hzero]
      cases hafter : body.dropWhile Char.isDigit with
      | nil =>
        rw [hafter] at h
        obtain ⟨hn, rfl⟩ := Prod.mk.inj h
        cases rest with
        | nil => exact Prod.ext hn rfl
        | cons c rest =>
          obtain ⟨-, hpoint, he, hE⟩ := hrest c rfl
          simp only [List.nil_append, hpoint, he, hE, or_self, if_false]
          exact Prod.ext hn rfl
      | cons mark after =>
        rw [hafter] at h
        simp only [List.cons_append, hrest.takeWhile_append, hrest.dropWhile_append] at h ⊢
        by_cases hpoint : mark = '.'
        · rw [if_pos hpoint] at h ⊢
          split at h
          · cases (Prod.mk.inj h).1
          · next hfraction =>
            rw [if_neg hfraction]
            exact finishReal_append h hrest
        · rw [if_neg hpoint] at h ⊢
          split at h
          · next hmark =>
            rw [if_pos hmark]
            exact finishReal_append h hrest
          · next hmark =>
            rw [if_neg hmark]
            obtain ⟨hn, rfl⟩ := Prod.mk.inj h
            exact Prod.ext hn rfl

/-- a number is read alike whatever follows it, unless that goes on with it -/
theorem numberAt_append {text tail rest : List Char} {n : JsonNumber} (h : numberAt text = (.ok n, tail))
    (hrest : EndsNumber rest) : numberAt (text ++ rest) = (.ok n, tail ++ rest) := by
  match text, h with
  | [], h => cases h
  | c :: cs, h =>
    by_cases hc : c = '-'
    · subst hc
      rw [numberAt_minus] at h
      rw [List.cons_append, numberAt_minus]
      exact unsignedAt_append h hrest
    · rw [numberAt_unsigned hc] at h
      rw [List.cons_append, numberAt_unsigned hc]
      exact unsignedAt_append h hrest

/-- a number begins with a digit or a minus sign -/
theorem numberAt_first {c : Char} {cs tail : List Char} {n : JsonNumber} (h : numberAt (c :: cs) = (.ok n, tail)) :
    c = '-' ∨ c.isDigit = true := by
  by_cases hc : c = '-'
  · exact .inl hc
  · rw [numberAt_unsigned hc] at h
    cases hdigit : c.isDigit with
    | true => exact .inr rfl
    | false =>
      rw [unsignedAt, List.takeWhile_cons, hdigit] at h
      cases (Prod.mk.inj h).1

/-! ## Integers -/

/-- only zero begins with a zero -/
theorem head?_ofNat {n : Nat} (h : (Numeral.ofNat n).head? = some '0') : n = 0 := by
  induction n using Nat.strongRecOn with
  | ind n ih =>
    rw [Numeral.ofNat] at h
    by_cases hn : n < 10
    · rw [Nat.toDigits_of_lt_base hn, List.head?_cons, Option.some.injEq] at h
      have hall : ∀ m < 10, Nat.digitChar m = '0' → m = 0 := by decide
      exact hall n hn h
    · have hdiv : n / 10 < n := Nat.div_lt_self (by omega) (by decide)
      rw [Nat.toDigits_of_base_le (by decide) (by omega),
        List.head?_append_of_ne_nil _ Nat.toDigits_ne_nil] at h
      have := ih (n / 10) hdiv h
      omega

theorem length_ofNat_zero : (Numeral.ofNat 0).length = 1 := by decide

theorem le_ofDigitChars (digits : List Char) (a : Nat) : a ≤ Nat.ofDigitChars 10 digits a := by
  induction digits generalizing a with
  | nil => exact Nat.le_refl a
  | cons c digits ih =>
    rw [Nat.ofDigitChars_cons]
    exact Nat.le_trans (by omega) (ih _)

/-- digits are gathered whole as long as their number fits -/
theorem foldl_digit {digits : List Char} {a : Nat} (h : Nat.ofDigitChars 10 digits a < twoTo 64) :
    digits.foldl (Gathered.digit true) ⟨a, 0, false⟩ = ⟨Nat.ofDigitChars 10 digits a, 0, false⟩ := by
  induction digits generalizing a with
  | nil => rfl
  | cons c digits ih =>
    rw [Nat.ofDigitChars_cons, Nat.mul_comm] at h ⊢
    have hnext : ¬ twoTo 64 ≤ a * 10 + (c.toNat - '0'.toNat) :=
      Nat.not_le.2 (Nat.lt_of_le_of_lt (le_ofDigitChars digits _) h)
    have hstep : Gathered.digit true ⟨a, 0, false⟩ c = ⟨a * 10 + (c.toNat - '0'.toNat), 0, false⟩ := by
      simp only [Gathered.digit, hnext, decide_false, Bool.or_self, Bool.false_eq_true, if_false, if_true]
    rw [List.foldl_cons, hstep, ih h]

theorem unsignedAt_ofNat (negative : Bool) {n : Nat} (h : n < twoTo 64) :
    unsignedAt negative (Numeral.ofNat n) = (wholeOf negative ⟨n, 0, false⟩, []) := by
  have hdigits : ∀ c ∈ Numeral.ofNat n, c.isDigit = true := fun c hc => Numeral.isDigit_of_mem_ofNat hc
  have hnonempty : (Numeral.ofNat n).isEmpty = false := List.isEmpty_eq_false_iff.2 (Numeral.ofNat_ne_nil n)
  have hzero : ¬ ((Numeral.ofNat n).head? = some '0' ∧ 1 < (Numeral.ofNat n).length) := by
    rintro ⟨hhead, hlength⟩
    rw [head?_ofNat hhead, length_ofNat_zero] at hlength
    omega
  have hvalue : Nat.ofDigitChars 10 (Numeral.ofNat n) 0 = n := Numeral.toNat_ofNat n
  have hwhole : Gathered.whole (Numeral.ofNat n) = ⟨n, 0, false⟩ := by
    rw [Gathered.whole, foldl_digit (by rwa [hvalue]), hvalue]
  rw [unsignedAt, List.takeWhile_eq_self_iff.2 hdigits, List.dropWhile_eq_nil_iff.2 hdigits]
  simp only [hnonempty, hzero, hwhole, if_false, Bool.false_eq_true]

/-- an integer of 64 bits is read back from its numeral -/
theorem numberAt_ofInt {n : Int} (h : fitsInt64 n = true ∨ fitsUInt64 n = true) :
    numberAt (Numeral.ofInt n) = (.ok (.integer n), []) := by
  have hsize : twoTo 64 = 18446744073709551616 := rfl
  have hhalf : twoTo 63 = 9223372036854775808 := rfl
  have hmin : Int64.minValue.toInt = -9223372036854775808 := rfl
  have hmax : Int64.maxValue.toInt = 9223372036854775807 := rfl
  have husize : UInt64.size = 18446744073709551616 := rfl
  simp only [fitsInt64, fitsUInt64, Bool.and_eq_true, decide_eq_true_eq, hmin, hmax, husize] at h
  cases n with
  | ofNat n =>
    rw [Int.ofNat_eq_natCast] at h ⊢
    obtain ⟨c, cs, hcs⟩ := List.exists_cons_of_ne_nil (Numeral.ofNat_ne_nil n)
    have hdigit : c.isDigit = true := Numeral.isDigit_of_mem_ofNat (hcs ▸ List.mem_cons_self)
    have hc : c ≠ '-' := by
      rintro rfl
      cases hdigit
    have hnumeral : Numeral.ofInt (n : Int) = c :: cs := hcs
    have hunsigned := unsignedAt_ofNat false (n := n) (by omega)
    rw [hcs] at hunsigned
    rw [hnumeral, numberAt_unsigned hc, hunsigned]
    rfl
  | negSucc n =>
    have hnumeral : Numeral.ofInt (.negSucc n) = '-' :: Numeral.ofNat (n + 1) := rfl
    rw [Int.negSucc_eq] at h
    rw [hnumeral, numberAt_minus, unsignedAt_ofNat true (by omega)]
    have hfits : ¬ (n + 1 = 0 ∨ twoTo 63 < n + 1) := by omega
    rw [wholeOf, if_neg Bool.false_ne_true, if_neg (by decide), if_neg hfits]
    rfl

end Token

end LaunchReports
