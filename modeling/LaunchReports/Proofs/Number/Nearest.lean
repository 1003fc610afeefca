/-
A decimal is read as the nearest real.

- `Binary64.number`: the number that a finite real stands for.
- `Binary64.roundHalfEven_error`: rounding errs by a half at most, and by a half only towards an even number.
- `Binary64.nearest_scaled`: no finite real is nearer to a quotient than its rounded significand in its unit.
- `Binary64.nearest_ofDecimal`: of all finite reals none is nearer to a decimal in range than the one that it is read
  as; if another is as near, that one has the even bits (`Binary64.Nearest`).

In the unit of the rounded significand a larger real is a whole number, so rounding decides. A smaller real has a
smaller unit; it lies below the least significand of 53 bits, which is nearer.
-/
import LaunchReports.Proofs.Number.Rounding

namespace LaunchReports.Binary64

/-! ## Numbers -/

/-- the number that a finite real stands for -/
def number (x : Binary64) : ℚ :=
  match x.form with
  | .finite negative m q => (if negative then -1 else 1) * (m * 2 ^ q)
  | _ => 0

/-- a finite real is a whole number of at most 53 bits in its unit -/
theorem exists_number {x : Binary64} (h : x.isFinite = true) :
    ∃ z q : Int, x.number = z * 2 ^ q ∧ |z| < 2 ^ 53 ∧ -1074 ≤ q := by
  have hfraction : x.bits.toNat % twoTo 52 < twoTo 52 := Nat.mod_lt _ (by decide)
  have hunit : twoTo 52 = 4503599627370496 := rfl
  have hsigned (negative : Bool) {m : Nat} {q : Int} (hm : m < 9007199254740992) (hq : -1074 ≤ q) :
      ∃ z q' : Int, (if negative then -1 else 1 : ℚ) * (m * 2 ^ q) = z * 2 ^ q' ∧ |z| < 2 ^ 53 ∧ -1074 ≤ q' := by
    have hsize : |(m : Int)| < 2 ^ 53 := by
      rw [Nat.abs_cast]
      exact_mod_cast hm
    cases negative with
    | true => exact ⟨-m, q, by push_cast; simp, by rwa [abs_neg], hq⟩
    | false => exact ⟨m, q, by simp, hsize, hq⟩
  rw [isFinite_iff] at h
  unfold number form
  dsimp only
  rw [if_neg h]
  split_ifs with hzero
  · exact hsigned _ (by omega) le_rfl
  · exact hsigned _ (by omega) (by omega)

theorem exists_signed_number {x : Binary64} (h : x.isFinite = true) (negative : Bool) :
    ∃ z q : Int, (if negative then -1 else 1) * x.number = z * 2 ^ q ∧ |z| < 2 ^ 53 ∧ -1074 ≤ q := by
  obtain ⟨z, q, hnumber, hsize, hq⟩ := exists_number h
  cases negative with
  | true => exact ⟨-z, q, by rw [hnumber]; simp, by rwa [abs_neg], hq⟩
  | false => exact ⟨z, q, by rw [hnumber]; simp, hsize, hq⟩

theorem form_ofMagnitude {negative : Bool} {m : Nat} (h : m < infinityBits) :
    (ofMagnitude negative m).form =
      if m < twoTo 52 then .finite negative m (-1074)
      else .finite negative (twoTo 52 + m % twoTo 52) ((m / twoTo 52 : Nat) - 1075) := by
  have htop : infinityBits = 9218868437227405312 := rfl
  have hunit : twoTo 52 = 4503599627370496 := rfl
  have hfields : twoTo 11 = 2048 := rfl
  have hsign : twoTo 63 = 9223372036854775808 := rfl
  have hword : (ofMagnitude negative m).bits.toNat = m + if negative then twoTo 63 else 0 := by
    rw [ofMagnitude, UInt64.toNat_ofNat']
    split <;> omega
  have hnegative : decide (twoTo 63 ≤ m + if negative then twoTo 63 else 0) = negative := by
    cases negative
    · rw [decide_eq_false_iff_not, if_neg Bool.false_ne_true]
      omega
    · exact decide_eq_true (Nat.le_add_left _ _)
  have hfield : (m + if negative then twoTo 63 else 0) / twoTo 52 % twoTo 11 = m / twoTo 52 := by
    rw [hunit, hfields, hsign]
    split <;> omega
  have hfraction : (m + if negative then twoTo 63 else 0) % twoTo 52 = m % twoTo 52 := by
    rw [hunit, hsign]
    split <;> omega
  have hfinite : m / twoTo 52 ≠ twoTo 11 - 1 := by
    rw [hunit, hfields]
    omega
  unfold form
  dsimp only
  rw [hword, hnegative, hfield, hfraction, if_neg hfinite]
  by_cases hsmall : m < twoTo 52
  · rw [if_pos (Nat.div_eq_of_lt hsmall), if_pos hsmall, Nat.mod_eq_of_lt hsmall]
  · have hfields : m / twoTo 52 ≠ 0 := by
      rw [hunit] at hsmall ⊢
      omega
    rw [if_neg hfields, if_neg hsmall]

/-- a significand that carries makes the next larger real -/
theorem number_ofMagnitude {negative : Bool} {f r : Nat} (hr : r ≤ twoTo 53) (hf : f = 0 ∨ twoTo 52 ≤ r)
    (h : f * twoTo 52 + r < infinityBits) :
    (ofMagnitude negative (f * twoTo 52 + r)).number = (if negative then -1 else 1) * (r * 2 ^ ((f : Int) - 1074)) := by
  have hunit : twoTo 52 = 4503599627370496 := rfl
  have hcarry : twoTo 53 = 2 * twoTo 52 := rfl
  rw [number, form_ofMagnitude h]
  by_cases hsmall : f * twoTo 52 + r < twoTo 52
  · obtain rfl : f = 0 := by omega
    simp only [if_pos hsmall]
    simp
  · simp only [if_neg hsmall]
    congr 1
    by_cases hfull : r = twoTo 53
    · have hfield : (f * twoTo 52 + r) / twoTo 52 = f + 2 := by
        rw [hunit]
        omega
      have hfraction : twoTo 52 + (f * twoTo 52 + r) % twoTo 52 = twoTo 52 := by
        rw [hunit]
        omega
      have hexponent : ((f + 2 : Nat) : Int) - 1075 = f - 1074 + 1 := by omega
      rw [hfield, hfraction, hexponent, hfull, hcarry, zpow_add_one₀ two_ne_zero]
      push_cast
      ring
    · have hlarge : twoTo 52 ≤ r := by
        rcases hf with rfl | hlarge
        · omega
        · exact hlarge
      have hfield : (f * twoTo 52 + r) / twoTo 52 = f + 1 := by
        rw [hunit]
        omega
      have hfraction : twoTo 52 + (f * twoTo 52 + r) % twoTo 52 = r := by
        rw [hunit]
        omega
      have hexponent : ((f + 1 : Nat) : Int) - 1075 = f - 1074 := by omega
      rw [hfield, hfraction, hexponent]

/-! ## Rounding -/

theorem roundHalfEven_error {n d : Nat} (hd : 0 < d) :
    |(n / d : ℚ) - roundHalfEven n d| ≤ 1 / 2 ∧
      (|(n / d : ℚ) - roundHalfEven n d| = 1 / 2 → roundHalfEven n d % 2 = 0) := by
  have hpos : (0 : ℚ) < d := Nat.cast_pos.2 hd
  have hsplit : (n : ℚ) = d * (n / d : Nat) + (n % d : Nat) := by exact_mod_cast (Nat.div_add_mod n d).symm
  have hquotient : (n / d : ℚ) = (n / d : Nat) + (n % d : Nat) / d :=
    calc (n / d : ℚ) = (d * (n / d : Nat) + (n % d : Nat)) / d := congrArg (· / (d : ℚ)) hsplit
      _ = (n / d : Nat) + (n % d : Nat) / d := by rw [add_div, mul_div_cancel_left₀ _ hpos.ne']
  -- the rest as a part of the whole, against a half
  have hpart : ((n % d : Nat) / d : ℚ) < 1 := (div_lt_one₀ hpos).2 (Nat.cast_lt.2 (Nat.mod_lt n hd))
  have hnonneg : (0 : ℚ) ≤ (n % d : Nat) / d := div_nonneg (Nat.cast_nonneg _) hpos.le
  have hhalf : (1 / 2 : ℚ) ≤ (n % d : Nat) / d ↔ d ≤ 2 * (n % d) := by
    rw [div_le_div_iff₀ two_pos hpos, one_mul, mul_comm]
    exact_mod_cast Iff.rfl
  have hhalf' : ((n % d : Nat) / d : ℚ) ≤ 1 / 2 ↔ 2 * (n % d) ≤ d := by
    rw [div_le_div_iff₀ hpos two_pos, one_mul, mul_comm]
    exact_mod_cast Iff.rfl
  rw [hquotient]
  generalize ((n % d : Nat) / d : ℚ) = part at hpart hnonneg hhalf hhalf'
  unfold roundHalfEven
  dsimp only
  split_ifs with hup
  · have hlarge : 1 / 2 ≤ part := hhalf.2 (by omega)
    have herror : |((n / d : Nat) : ℚ) + part - (n / d + 1 : Nat)| = 1 - part := by
      rw [Nat.cast_add_one, add_sub_add_left_eq_sub, abs_sub_comm, abs_of_pos (sub_pos.2 hpart)]
    rw [herror]
    refine ⟨by linarith, fun htie => ?_⟩
    have hexact := hhalf'.1 (by linarith)
    omega
  · have hsmall : part ≤ 1 / 2 := hhalf'.2 (by omega)
    rw [add_sub_cancel_left, abs_of_nonneg hnonneg]
    refine ⟨hsmall, fun htie => ?_⟩
    have hexact := hhalf.1 htie.ge
    omega

/-- nothing whole is nearer than what errs by a half at most -/
theorem nearest_of_error {x : ℚ} {r : Int} (h : |x - r| ≤ 1 / 2) (j : Int) :
    |x - r| ≤ |x - j| ∧ (|x - r| = |x - j| → j = r ∨ |x - r| = 1 / 2) := by
  by_cases hj : j = r
  · subst hj
    exact ⟨le_rfl, fun _ => .inl rfl⟩
  · have hapart : (1 : ℚ) ≤ |(r - j : ℚ)| := by
      have hwhole : 1 ≤ |r - j| := Int.one_le_abs (sub_ne_zero.2 (Ne.symm hj))
      exact_mod_cast hwhole
    have htriangle := abs_sub_le (r : ℚ) x j
    rw [abs_sub_comm (r : ℚ) x] at htriangle
    refine ⟨by linarith, fun heq => .inr ?_⟩
    linarith

/-! ## Quotients -/

/-- no finite real is nearer to a quotient than its rounded significand -/
theorem nearest_scaled {v : ℚ} {n d : Nat} {q : Int} (hd : 0 < d) (hv : v = n / d * 2 ^ q)
    (hlow : q = -1074 ∨ twoTo 52 * d ≤ n) {z q' : Int} (hz : |z| < 2 ^ 53) (hq : -1074 ≤ q') :
    |v - roundHalfEven n d * 2 ^ q| ≤ |v - z * 2 ^ q'| ∧
      (|v - roundHalfEven n d * 2 ^ q| = |v - z * 2 ^ q'| →
        (z * 2 ^ q' : ℚ) = roundHalfEven n d * 2 ^ q ∨ roundHalfEven n d % 2 = 0) := by
  have hunit : (0 : ℚ) < 2 ^ q := zpow_pos two_pos q
  obtain ⟨herror, heven⟩ := roundHalfEven_error (n := n) hd
  have hscaled (x : ℚ) : |v - x * 2 ^ q| = |n / d - x| * 2 ^ q := by
    rw [hv, ← sub_mul, abs_mul, abs_of_pos hunit]
  have hnearest (j : Int) := nearest_of_error (x := n / d) (r := roundHalfEven n d) (by exact_mod_cast herror) j
  rcases le_or_gt q q' with hcoarse | hfine
  · have hgrid : (z * 2 ^ q' : ℚ) = ((z * 2 ^ (q' - q).toNat : Int) : ℚ) * 2 ^ q := by
      have hshift : q' = (q' - q).toNat + q := by omega
      rw [Int.cast_mul, Int.cast_pow, Int.cast_ofNat, mul_assoc, ← zpow_natCast, ← zpow_add₀ two_ne_zero, ← hshift]
    obtain ⟨hle, htie⟩ := hnearest (z * 2 ^ (q' - q).toNat)
    rw [hgrid, hscaled, hscaled]
    refine ⟨mul_le_mul_of_nonneg_right hle hunit.le, fun heq => ?_⟩
    rcases htie (mul_right_cancel₀ hunit.ne' heq) with hsame | hhalf
    · rw [hsame]
      exact .inl rfl
    · exact .inr (heven hhalf)
  · -- the least significand of 53 bits lies between the smaller real and the quotient
    have hleast : (2 ^ 52 : ℚ) * 2 ^ q ≤ v := by
      have hfull : (2 ^ 52 : ℚ) ≤ n / d := by
        rw [le_div_iff₀ (Nat.cast_pos.2 hd), ← cast_twoTo]
        exact_mod_cast hlow.resolve_left (by omega)
      rw [hv]
      exact mul_le_mul_of_nonneg_right hfull hunit.le
    have hbelow : (z * 2 ^ q' : ℚ) < 2 ^ 52 * 2 ^ q :=
      calc (z * 2 ^ q' : ℚ) < 2 ^ 53 * 2 ^ q' :=
            mul_lt_mul_of_pos_right (by exact_mod_cast lt_of_abs_lt hz) (zpow_pos two_pos q')
        _ = 2 ^ 52 * 2 ^ (q' + 1) := by rw [zpow_add_one₀ two_ne_zero, pow_succ, mul_assoc, mul_comm 2]
        _ ≤ 2 ^ 52 * 2 ^ q :=
            mul_le_mul_of_nonneg_left (zpow_le_zpow_right₀ one_le_two (by omega)) (pow_nonneg zero_le_two 52)
    have hstrict : |v - roundHalfEven n d * 2 ^ q| < |v - z * 2 ^ q'| :=
      calc |v - roundHalfEven n d * 2 ^ q| = |(n / d : ℚ) - roundHalfEven n d| * 2 ^ q := hscaled _
        _ ≤ |(n / d : ℚ) - 2 ^ 52| * 2 ^ q := by
            have hle := (hnearest (2 ^ 52)).1
            push_cast at hle
            exact mul_le_mul_of_nonneg_right hle hunit.le
        _ = v - 2 ^ 52 * 2 ^ q := by rw [← hscaled, abs_of_nonneg (sub_nonneg.2 hleast)]
        _ < v - z * 2 ^ q' := sub_lt_sub_left hbelow v
        _ ≤ |v - z * 2 ^ q'| := le_abs_self _
    exact ⟨hstrict.le, fun heq => absurd heq hstrict.ne⟩

/-- no finite real is nearer to the number, and one that is as near is equal or leaves the even bits to this one -/
structure Nearest (v : ℚ) (x : Binary64) : Prop where
  finite : x.isFinite = true
  nearest : ∀ y : Binary64, y.isFinite = true → |v - x.number| ≤ |v - y.number|
  even : ∀ y : Binary64, y.isFinite = true → |v - x.number| = |v - y.number| →
    y.number = x.number ∨ x.bits.toNat % 2 = 0

theorem signed_signed (negative : Bool) (v : ℚ) :
    (if negative then -1 else 1) * ((if negative then -1 else 1) * v) = v := by
  cases negative <;> simp

theorem abs_sub_signed (negative : Bool) (v w : ℚ) :
    |(if negative then -1 else 1) * v - w| = |v - (if negative then -1 else 1) * w| := by
  cases negative with
  | true => rw [if_pos rfl, neg_one_mul, neg_one_mul, sub_neg_eq_add, ← abs_neg, neg_sub_left, neg_neg, add_comm]
  | false => rw [if_neg Bool.false_ne_true, one_mul, one_mul]

theorem bits_ofMagnitude_even {negative : Bool} {m : Nat} (h : m < infinityBits) (heven : m % 2 = 0) :
    (ofMagnitude negative m).bits.toNat % 2 = 0 := by
  have htop : infinityBits = 9218868437227405312 := rfl
  have hsign : twoTo 63 = 9223372036854775808 := rfl
  rw [ofMagnitude, UInt64.toNat_ofNat']
  split <;> omega

/-- below half of the smallest real nothing is nearer than zero -/
theorem nearest_zero {negative : Bool} {v : ℚ} (h : |v| < 2 ^ (-1075 : Int)) : Nearest v (ofMagnitude negative 0) := by
  have hzero : (ofMagnitude negative 0).number = 0 := by
    have hnumber := @number_ofMagnitude negative 0 0 (by decide) (.inl rfl) (by decide)
    rwa [Nat.zero_mul, Nat.add_zero, Nat.cast_zero, zero_mul, mul_zero] at hnumber
  have hfar {y : Binary64} (hy : y.isFinite = true) (hnonzero : y.number ≠ 0) : |v| < |v - y.number| := by
    obtain ⟨z, q, hnumber, -, hq⟩ := exists_number hy
    have hwhole : (1 : ℚ) ≤ |(z : ℚ)| := by
      have hz : z ≠ 0 := fun hz => hnonzero (by rw [hnumber, hz, Int.cast_zero, zero_mul])
      exact_mod_cast Int.one_le_abs hz
    have hsize : 2 * 2 ^ (-1075 : Int) ≤ |y.number| :=
      calc (2 * 2 ^ (-1075 : Int) : ℚ) = 2 ^ (-1074 : Int) := by
            rw [← zpow_one_add₀ two_ne_zero]
            rfl
        _ ≤ 2 ^ q := zpow_le_zpow_right₀ one_le_two hq
        _ ≤ |(z : ℚ)| * 2 ^ q := le_mul_of_one_le_left (zpow_pos two_pos q).le hwhole
        _ = |y.number| := by rw [hnumber, abs_mul, abs_of_pos (zpow_pos two_pos q : (0 : ℚ) < 2 ^ q)]
    have htriangle := abs_sub_abs_le_abs_sub y.number v
    rw [abs_sub_comm] at htriangle
    linarith
  refine ⟨isFinite_ofMagnitude_iff.2 (by decide), fun y hy => ?_, fun y hy => ?_⟩
  · by_cases hnumber : y.number = 0
    · rw [hzero, hnumber]
    · rw [hzero, sub_zero]
      exact (hfar hy hnumber).le
  · intro htie
    rw [hzero, sub_zero] at htie
    by_contra hother
    exact (hfar hy fun hnumber => hother (.inl (hnumber.trans hzero.symm))).ne htie

/-- a quotient in range is rounded to the nearest real -/
theorem nearest_ofRatio {negative : Bool} {num den : Nat} (hden : den ≠ 0)
    (h : (num / den : ℚ) < 2 ^ 1024 - 2 ^ 970) :
    Nearest ((if negative then -1 else 1) * (num / den)) (ofRatio negative num den) := by
  by_cases hnum : num = 0
  · subst hnum
    rw [Nat.cast_zero, zero_div, mul_zero]
    exact nearest_zero (by rw [abs_zero]; exact zpow_pos two_pos _)
  obtain ⟨n, d, q, hd, hvalue, hsmallest, hbelow, habove, hmagnitude⟩ := magnitude_spec hnum hden
  have hinrange := (magnitude_lt_iff hden).2 h
  have hround : roundHalfEven n d ≤ twoTo 53 := roundHalfEven_le hd hbelow
  have hfield : (q + 1074).toNat = 0 ∨ twoTo 52 ≤ roundHalfEven n d :=
    habove.imp (fun hq => by omega) (le_roundHalfEven hd)
  have hunit : ((q + 1074).toNat : Int) - 1074 = q := by omega
  have hnumber : (ofRatio negative num den).number = (if negative then -1 else 1) * (roundHalfEven n d * 2 ^ q) := by
    rw [ofRatio, hmagnitude, number_ofMagnitude hround hfield (hmagnitude ▸ hinrange), hunit]
  -- the sign of the quotient is given to the other real
  have hnearest (y : Binary64) (hy : y.isFinite = true) :
      |(num / den : ℚ) - roundHalfEven n d * 2 ^ q| ≤ |(num / den : ℚ) - (if negative then -1 else 1) * y.number| ∧
        (|(num / den : ℚ) - roundHalfEven n d * 2 ^ q| = |(num / den : ℚ) - (if negative then -1 else 1) * y.number| →
          (if negative then -1 else 1) * y.number = roundHalfEven n d * 2 ^ q ∨ roundHalfEven n d % 2 = 0) := by
    obtain ⟨z, q', hz, hsize, hq⟩ := exists_signed_number hy negative
    rw [hz]
    exact nearest_scaled hd hvalue habove hsize hq
  have hown : |(if negative then -1 else 1) * (num / den) - (ofRatio negative num den).number| =
      |(num / den : ℚ) - roundHalfEven n d * 2 ^ q| := by
    rw [hnumber, abs_sub_signed, signed_signed]
  refine ⟨isFinite_ofMagnitude_iff.2 hinrange, fun y hy => ?_, fun y hy htie => ?_⟩
  · rw [hown, abs_sub_signed]
    exact (hnearest y hy).1
  · rw [hown, abs_sub_signed] at htie
    rcases (hnearest y hy).2 htie with hsame | heven
    · rw [hnumber, ← hsame, signed_signed]
      exact .inl rfl
    · have hword : twoTo 52 % 2 = 0 := rfl
      refine .inr (bits_ofMagnitude_even hinrange ?_)
      rw [hmagnitude, Nat.add_mod, Nat.mul_mod, hword, heven, Nat.mul_zero]

/-- **A decimal in range is read as the nearest real.** -/
theorem nearest_ofDecimal {d : Decimal} (h : |d.toRat| < 2 ^ 1024 - 2 ^ 970) : Nearest d.toRat (ofDecimal d) := by
  have hsigned : d.toRat = (if d.negative then -1 else 1) * |d.toRat| := by
    rw [abs_toRat, Decimal.toRat, mul_assoc]
  obtain ⟨hread, hsmall⟩ | ⟨hread, hlarge⟩ | ⟨num, den, hden, hvalue, hread⟩ := ofDecimal_cases d
  · have htiny : (10 : ℚ) ^ (-400 : Int) ≤ 2 ^ (-1075 : Int) := by
      rw [zpow_neg, zpow_neg, zpow_ofNat, zpow_ofNat]
      exact inv_anti₀ (pow_pos two_pos 1075) (two_pow_le_ten_pow (by decide))
    rw [hread]
    exact nearest_zero (hsmall.trans_le htiny)
  · exact absurd h (not_lt.2 (half_above_largest_le.trans hlarge))
  · rw [hread, hsigned, hvalue]
    exact nearest_ofRatio hden (hvalue ▸ h)

end LaunchReports.Binary64
