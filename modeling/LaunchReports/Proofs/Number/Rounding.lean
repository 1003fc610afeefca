/-
Which decimals have a finite nearest real.

- `Binary64.roundHalfEven_le_iff`: rounding stays at or below an odd number exactly below the half above it.
- `Binary64.unitExponent_spec`: the exponent at which a quotient has a significand of 53 bits.
- `Binary64.isFinite_ofDecimal_iff`: the real nearest to a decimal is finite exactly if the decimal is smaller than
  `2 ^ 1024 - 2 ^ 970`, the number half a unit above the largest real.

The bits of a magnitude are those of an infinity from the exponent field 2047 on. Two fields below, no significand
carries so far; one field below, the significand does if it is rounded up to `2 ^ 53`.
-/
import Mathlib.Algebra.Order.Field.Power
import Mathlib.Algebra.Order.Field.Rat
import Mathlib.Tactic.Linarith
import Mathlib.Tactic.NormNum
import LaunchReports.Number.Binary64
import LaunchReports.Proofs.Number.Literals

namespace LaunchReports.Binary64

/-! ## Bits -/

theorem isFinite_iff {x : Binary64} : x.isFinite = true ↔ x.bits.toNat / twoTo 52 % twoTo 11 ≠ twoTo 11 - 1 := by
  unfold isFinite form
  dsimp only
  by_cases htop : x.bits.toNat / twoTo 52 % twoTo 11 = twoTo 11 - 1
  · rw [if_pos htop]
    split_ifs <;> simp [htop]
  · rw [if_neg htop]
    split_ifs <;> simp [htop]

theorem isFinite_ofMagnitude_iff {negative : Bool} {m : Nat} :
    (ofMagnitude negative m).isFinite = true ↔ m < infinityBits := by
  have htop : infinityBits = 9218868437227405312 := rfl
  have hfraction : twoTo 52 = 4503599627370496 := rfl
  have hfields : twoTo 11 = 2048 := rfl
  have hsign : (if negative then twoTo 63 else 0) = 0 ∨ (if negative then twoTo 63 else 0) = 9223372036854775808 := by
    cases negative
    · exact .inl rfl
    · exact .inr rfl
  rw [isFinite_iff, ofMagnitude, UInt64.toNat_ofNat', hfraction, hfields]
  omega

/-! ## Rounding -/

theorem roundHalfEven_bounds (n d : Nat) : n / d ≤ roundHalfEven n d ∧ roundHalfEven n d ≤ n / d + 1 := by
  unfold roundHalfEven
  dsimp only
  split
  · exact ⟨Nat.le_succ _, Nat.le_refl _⟩
  · exact ⟨Nat.le_refl _, Nat.le_succ _⟩

/-- a half above an odd number is rounded away from it -/
theorem roundHalfEven_le_iff {n d m : Nat} (hd : 0 < d) (hodd : m % 2 = 1) :
    roundHalfEven n d ≤ m ↔ 2 * n < (2 * m + 1) * d := by
  obtain ⟨hlow, hhigh⟩ := roundHalfEven_bounds n d
  have hn := Nat.div_add_mod n d
  have hr := Nat.mod_lt n hd
  have hhalf : (2 * m + 1) * d = 2 * (d * m) + d := by ring
  rw [hhalf]
  rcases Nat.lt_trichotomy (n / d) m with h | h | h
  · have hmul : d * (n / d + 1) ≤ d * m := Nat.mul_le_mul_left d h
    rw [Nat.mul_succ] at hmul
    omega
  · rw [h] at hn
    rw [roundHalfEven, h]
    split_ifs with hup <;> omega
  · have hmul : d * (m + 1) ≤ d * (n / d) := Nat.mul_le_mul_left d h
    rw [Nat.mul_succ] at hmul
    omega

theorem le_roundHalfEven {n d k : Nat} (hd : 0 < d) (h : k * d ≤ n) : k ≤ roundHalfEven n d :=
  ((Nat.le_div_iff_mul_le hd).2 h).trans (roundHalfEven_bounds n d).1

theorem roundHalfEven_le {n d k : Nat} (hd : 0 < d) (h : n < k * d) : roundHalfEven n d ≤ k :=
  (roundHalfEven_bounds n d).2.trans ((Nat.div_lt_iff_lt_mul hd).2 h)

/-! ## Exponents -/

theorem cast_twoTo (n : Nat) : (twoTo n : ℚ) = 2 ^ n := by
  rw [twoTo]
  exact Nat.cast_pow 2 n

theorem scaled_spec (num : Nat) {den : Nat} (hden : 0 < den) (q : Int) :
    0 < (scaled num den q).2 ∧ ((scaled num den q).1 : ℚ) / (scaled num den q).2 = num / den / 2 ^ q := by
  unfold scaled
  split_ifs with hq
  · have hneg : (2 : ℚ) ^ q = (2 ^ q.natAbs)⁻¹ := by
      rw [← zpow_natCast, ← zpow_neg]
      congr 1
      omega
    refine ⟨hden, ?_⟩
    rw [Nat.cast_mul, cast_twoTo, hneg]
    field_simp
  · have hcast : (2 : ℚ) ^ q = 2 ^ q.natAbs := by
      rw [← zpow_natCast]
      congr 1
      omega
    refine ⟨Nat.mul_pos hden (Nat.pow_pos (by decide)), ?_⟩
    rw [Nat.cast_mul, cast_twoTo, hcast, div_div]

theorem le_scaled_iff (num : Nat) {den : Nat} (hden : 0 < den) (q : Int) (k : Nat) :
    twoTo k * (scaled num den q).2 ≤ (scaled num den q).1 ↔ (2 : ℚ) ^ (q + k) ≤ num / den := by
  obtain ⟨hpos, hvalue⟩ := scaled_spec num hden q
  have hpos : (0 : ℚ) < (scaled num den q).2 := Nat.cast_pos.2 hpos
  have hpower : (0 : ℚ) < 2 ^ q := zpow_pos (by norm_num) q
  calc twoTo k * (scaled num den q).2 ≤ (scaled num den q).1
      ↔ (2 ^ k * (scaled num den q).2 : ℚ) ≤ (scaled num den q).1 := by
        rw [← cast_twoTo, ← Nat.cast_mul, Nat.cast_le]
    _ ↔ (2 : ℚ) ^ k ≤ num / den / 2 ^ q := by rw [← le_div_iff₀ hpos, hvalue]
    _ ↔ (2 : ℚ) ^ (q + k) ≤ num / den := by
        rw [le_div_iff₀ hpower, zpow_add₀ (by norm_num), zpow_natCast, mul_comm]

/-- a quotient lies within a factor of two of the quotient of the powers below its terms -/
theorem log2_bounds {num den : Nat} (hnum : num ≠ 0) (hden : den ≠ 0) :
    (2 : ℚ) ^ ((num.log2 : Int) - den.log2 - 1) ≤ num / den ∧
      (num / den : ℚ) < 2 ^ ((num.log2 : Int) - den.log2 + 1) := by
  have hpower (n : Nat) : (0 : ℚ) < 2 ^ n := pow_pos (by norm_num) n
  have hpos : (0 : ℚ) < den := Nat.cast_pos.2 (Nat.pos_of_ne_zero hden)
  have hlow {n : Nat} (hn : n ≠ 0) : (2 : ℚ) ^ n.log2 ≤ n := by exact_mod_cast Nat.log2_self_le hn
  have hhigh (n : Nat) : (n : ℚ) < 2 ^ (n.log2 + 1) := by exact_mod_cast Nat.lt_log2_self
  constructor
  · calc (2 : ℚ) ^ ((num.log2 : Int) - den.log2 - 1)
        = 2 ^ num.log2 / 2 ^ (den.log2 + 1) := by
          rw [← zpow_natCast, ← zpow_natCast, ← zpow_sub₀ (by norm_num)]
          congr 1
          omega
      _ ≤ num / 2 ^ (den.log2 + 1) := div_le_div_of_nonneg_right (hlow hnum) (hpower _).le
      _ ≤ num / den := div_le_div_of_nonneg_left (Nat.cast_nonneg num) hpos (hhigh den).le
  · calc (num / den : ℚ)
        ≤ num / 2 ^ den.log2 := div_le_div_of_nonneg_left (Nat.cast_nonneg num) (hpower _) (hlow hden)
      _ < 2 ^ (num.log2 + 1) / 2 ^ den.log2 := div_lt_div_of_pos_right (hhigh num) (hpower _)
      _ = 2 ^ ((num.log2 : Int) - den.log2 + 1) := by
          rw [← zpow_natCast, ← zpow_natCast, ← zpow_sub₀ (by norm_num)]
          congr 1
          omega

/-- the exponent at which a quotient has a significand of 53 bits, unless it is the smallest there is -/
theorem unitExponent_spec {num den : Nat} (hnum : num ≠ 0) (hden : den ≠ 0) :
    -1074 ≤ unitExponent num den ∧ (num / den : ℚ) < 2 ^ (unitExponent num den + 53) ∧
      (unitExponent num den = -1074 ∨ (2 : ℚ) ^ (unitExponent num den + 52) ≤ num / den) := by
  have hpos := Nat.pos_of_ne_zero hden
  obtain ⟨hlow, hhigh⟩ := log2_bounds hnum hden
  unfold unitExponent
  dsimp only
  generalize hq : max ((num.log2 : Int) - den.log2 - 53) (-1074) = q
  split_ifs with hlarge
  · rw [le_scaled_iff _ hpos] at hlarge
    refine ⟨by omega, hhigh.trans_le (zpow_le_zpow_right₀ (by norm_num) (by omega)), .inr ?_⟩
    rwa [Int.add_assoc]
  · rw [le_scaled_iff _ hpos, not_le] at hlarge
    refine ⟨by omega, hlarge, ?_⟩
    by_cases hsmallest : q = -1074
    · exact .inl hsmallest
    · have hfit : q + 52 = (num.log2 : Int) - den.log2 - 1 := by omega
      rw [hfit]
      exact .inr hlow

/-! ## Magnitudes -/

/-- the quotient whose rounding is the significand, and its unit -/
theorem magnitude_spec {num den : Nat} (hnum : num ≠ 0) (hden : den ≠ 0) :
    ∃ n d : Nat, ∃ q : Int, 0 < d ∧ (num / den : ℚ) = n / d * 2 ^ q ∧ -1074 ≤ q ∧ n < twoTo 53 * d ∧
      (q = -1074 ∨ twoTo 52 * d ≤ n) ∧ magnitude num den = (q + 1074).toNat * twoTo 52 + roundHalfEven n d := by
  have hpos := Nat.pos_of_ne_zero hden
  obtain ⟨hsmallest, hbelow, habove⟩ := unitExponent_spec hnum hden
  obtain ⟨hd, hvalue⟩ := scaled_spec num hpos (unitExponent num den)
  refine ⟨(scaled num den (unitExponent num den)).1, (scaled num den (unitExponent num den)).2,
    unitExponent num den, hd, ?_, hsmallest, ?_, ?_, ?_⟩
  · rw [hvalue, div_mul_cancel₀ _ (zpow_pos two_pos _).ne']
  · exact Nat.lt_of_not_le fun hlarge => not_le.2 hbelow ((le_scaled_iff num hpos _ 53).1 hlarge)
  · exact habove.imp_right (le_scaled_iff num hpos _ 52).2
  · rw [magnitude, if_neg hnum]

theorem half_above_largest : (2 : ℚ) ^ 1024 - 2 ^ 970 = (2 ^ 54 - 1) * 2 ^ 970 := by
  rw [sub_one_mul, ← pow_add]

theorem lt_half_iff {n d : Nat} (hd : 0 < d) :
    2 * n < (2 ^ 54 - 1) * d ↔ (n / d : ℚ) < (2 ^ 54 - 1) / 2 := by
  have hcast : ((2 ^ 54 - 1 : Nat) : ℚ) = 2 ^ 54 - 1 := by norm_num
  rw [div_lt_div_iff₀ (Nat.cast_pos.2 hd) two_pos, ← hcast, mul_comm (n : ℚ)]
  exact_mod_cast Iff.rfl

theorem magnitude_lt_iff {num den : Nat} (hden : den ≠ 0) :
    magnitude num den < infinityBits ↔ (num / den : ℚ) < 2 ^ 1024 - 2 ^ 970 := by
  have htop : infinityBits = 2047 * twoTo 52 := rfl
  have hcarry : twoTo 53 = 2 * twoTo 52 := rfl
  have hunit : 0 < twoTo 52 := by decide
  have hscale : (0 : ℚ) < 2 ^ 970 := pow_pos (by norm_num) 970
  rw [half_above_largest]
  by_cases hnum : num = 0
  · subst hnum
    rw [magnitude, if_pos rfl, Nat.cast_zero, zero_div]
    exact iff_of_true (by decide) (mul_pos (by norm_num) hscale)
  obtain ⟨n, d, q, hd, hvalue, hsmallest, hbelow, habove, hmagnitude⟩ := magnitude_spec hnum hden
  have hpos : (0 : ℚ) < d := Nat.cast_pos.2 hd
  rw [hmagnitude, hvalue]
  rcases lt_trichotomy q 971 with hfields | rfl | hfields
  · have hround : roundHalfEven n d ≤ twoTo 53 := roundHalfEven_le hd hbelow
    have hfield : (q + 1074).toNat * twoTo 52 ≤ 2044 * twoTo 52 := Nat.mul_le_mul_right _ (by omega)
    have hsignificand : (n / d : ℚ) < 2 ^ 53 := by
      rw [div_lt_iff₀ hpos, ← cast_twoTo]
      exact_mod_cast hbelow
    refine iff_of_true (by omega) ?_
    calc (n / d * 2 ^ q : ℚ) < 2 ^ 53 * 2 ^ q := mul_lt_mul_of_pos_right hsignificand (zpow_pos two_pos q)
      _ ≤ 2 ^ 53 * 2 ^ (970 : Int) :=
          mul_le_mul_of_nonneg_left (zpow_le_zpow_right₀ (by norm_num) (by omega)) (by norm_num)
      _ = 2 ^ 53 * 2 ^ 970 := by rw [zpow_ofNat]
      _ < (2 ^ 54 - 1) * 2 ^ 970 := mul_lt_mul_of_pos_right (by norm_num) hscale
  · -- the significand carries from `2 ^ 53` on, and `2 ^ 53 - 1` is odd
    have hfield : ((971 : Int) + 1074).toNat * twoTo 52 = 2045 * twoTo 52 := rfl
    calc ((971 : Int) + 1074).toNat * twoTo 52 + roundHalfEven n d < infinityBits
        ↔ roundHalfEven n d ≤ twoTo 53 - 1 := by omega
      _ ↔ 2 * n < (2 ^ 54 - 1) * d := roundHalfEven_le_iff hd (by decide)
      _ ↔ (n / d : ℚ) < (2 ^ 54 - 1) / 2 := lt_half_iff hd
      _ ↔ (n / d * 2 ^ (971 : Int) : ℚ) < (2 ^ 54 - 1) * 2 ^ 970 := by
          rw [zpow_ofNat, pow_succ' 2 970, ← mul_assoc, mul_lt_mul_iff_left₀ hscale, lt_div_iff₀ two_pos]
  · have hlarge := habove.resolve_left (by omega)
    have hround : twoTo 52 ≤ roundHalfEven n d := le_roundHalfEven hd hlarge
    have hfield : 2046 * twoTo 52 ≤ (q + 1074).toNat * twoTo 52 := Nat.mul_le_mul_right _ (by omega)
    have hsignificand : (2 ^ 52 : ℚ) ≤ n / d := by
      rw [le_div_iff₀ hpos, ← cast_twoTo]
      exact_mod_cast hlarge
    refine iff_of_false (by omega) (not_lt.2 ?_)
    calc ((2 ^ 54 - 1) * 2 ^ 970 : ℚ) ≤ 2 ^ 54 * 2 ^ 970 := mul_le_mul_of_nonneg_right (by norm_num) hscale.le
      _ = 2 ^ 52 * 2 ^ (972 : Int) := by rw [zpow_ofNat, ← pow_add, ← pow_add]
      _ ≤ 2 ^ 52 * 2 ^ q := mul_le_mul_of_nonneg_left (zpow_le_zpow_right₀ (by norm_num) (by omega)) (by norm_num)
      _ ≤ n / d * 2 ^ q := mul_le_mul_of_nonneg_right hsignificand (zpow_pos two_pos q).le

/-! ## Decimals -/

theorem abs_toRat (d : Decimal) : |d.toRat| = d.digits * 10 ^ d.exponent := by
  have hsign : |(if d.negative then -1 else 1 : ℚ)| = 1 := by split <;> simp
  rw [Decimal.toRat, abs_mul, abs_mul, hsign, one_mul, Nat.abs_cast, abs_of_pos (zpow_pos (by norm_num) _)]

/-- a number lies between the powers of ten that its digits reach -/
theorem places_bounds {d : Decimal} (h : d.digits ≠ 0) :
    (10 : ℚ) ^ (d.exponent + (Numeral.ofNat d.digits).length - 1) ≤ |d.toRat| ∧
      |d.toRat| < 10 ^ (d.exponent + (Numeral.ofNat d.digits).length) := by
  have hten : (0 : ℚ) < 10 ^ d.exponent := zpow_pos (by norm_num) _
  have hsome : 0 < (Numeral.ofNat d.digits).length := List.length_pos_iff.2 (Numeral.ofNat_ne_nil _)
  generalize hlength : (Numeral.ofNat d.digits).length = len at hsome ⊢
  have hhigh : d.digits < 10 ^ len := (Nat.length_toDigits_le_iff (by decide) hsome).1 hlength.le
  have hlow : 10 ^ (len - 1) ≤ d.digits := by
    by_contra hless
    rcases Nat.eq_zero_or_pos (len - 1) with hzero | hpos
    · rw [hzero] at hless
      omega
    · have hshort := (Nat.length_toDigits_le_iff (by decide) hpos).2 (Nat.not_le.1 hless)
      rw [← Numeral.ofNat, hlength] at hshort
      omega
  rw [abs_toRat]
  constructor
  · calc (10 : ℚ) ^ (d.exponent + len - 1) = 10 ^ (len - 1) * 10 ^ d.exponent := by
          rw [← zpow_natCast, ← zpow_add₀ (by norm_num)]
          congr 1
          omega
      _ ≤ d.digits * 10 ^ d.exponent := mul_le_mul_of_nonneg_right (by exact_mod_cast hlow) hten.le
  · calc (d.digits * 10 ^ d.exponent : ℚ) < 10 ^ len * 10 ^ d.exponent :=
          mul_lt_mul_of_pos_right (by exact_mod_cast hhigh) hten
      _ = 10 ^ (d.exponent + len) := by rw [← zpow_natCast, ← zpow_add₀ (by norm_num), Int.add_comm]

theorem two_pow_le_ten_pow {n k : Nat} (h : n ≤ 3 * k) : (2 : ℚ) ^ n ≤ 10 ^ k :=
  calc (2 : ℚ) ^ n ≤ 2 ^ (3 * k) := pow_le_pow_right₀ (by norm_num) h
    _ = 8 ^ k := by rw [pow_mul]; norm_num
    _ ≤ 10 ^ k := pow_le_pow_left₀ (by norm_num) (by norm_num) k

/-- `10 ^ 400` is out of range -/
theorem half_above_largest_le : (2 ^ 1024 - 2 ^ 970 : ℚ) ≤ 10 ^ (400 : Int) :=
  calc (2 ^ 1024 - 2 ^ 970 : ℚ) ≤ 2 ^ 1024 := sub_le_self _ (pow_nonneg (by norm_num) _)
    _ ≤ 10 ^ 400 := two_pow_le_ten_pow (by decide)
    _ = 10 ^ (400 : Int) := (zpow_ofNat _ _).symm

theorem lt_half_above_largest {k : Nat} (h : k ≤ 970) : (2 : ℚ) ^ k < 2 ^ 1024 - 2 ^ 970 := by
  have hscale : (0 : ℚ) < 2 ^ 970 := pow_pos (by norm_num) 970
  calc (2 : ℚ) ^ k ≤ 2 ^ 970 := pow_le_pow_right₀ (by norm_num) h
    _ < (2 ^ 54 - 1) * 2 ^ 970 := lt_mul_of_one_lt_left hscale (by norm_num)
    _ = 2 ^ 1024 - 2 ^ 970 := half_above_largest.symm

theorem isFinite_infinity (negative : Bool) : (infinity negative).isFinite = false := by
  cases negative <;> decide

/-- a decimal is read by its place if it is far out of the range, and as a quotient otherwise -/
theorem ofDecimal_cases (d : Decimal) :
    (ofDecimal d = ofMagnitude d.negative 0 ∧ |d.toRat| < 10 ^ (-400 : Int)) ∨
      (ofDecimal d = infinity d.negative ∧ (10 : ℚ) ^ (400 : Int) ≤ |d.toRat|) ∨
        ∃ num den : Nat, den ≠ 0 ∧ |d.toRat| = num / den ∧ ofDecimal d = ofRatio d.negative num den := by
  have hten (n : Nat) : (tenTo n : ℚ) = 10 ^ n := by
    rw [tenTo]
    exact Nat.cast_pow 10 n
  unfold ofDecimal
  dsimp only
  split_ifs with hsmall hlarge hwhole
  · refine .inl ⟨rfl, ?_⟩
    by_cases hzero : d.digits = 0
    · rw [abs_toRat, hzero, Nat.cast_zero, zero_mul]
      exact zpow_pos (by norm_num) _
    · have hplaces := hsmall.resolve_left hzero
      exact (places_bounds hzero).2.trans_le (zpow_le_zpow_right₀ (by norm_num) (by omega))
  · have hdigits : d.digits ≠ 0 := fun hzero => hsmall (.inl hzero)
    refine .inr (.inl ⟨rfl, ?_⟩)
    exact (zpow_le_zpow_right₀ (by norm_num) (by omega)).trans (places_bounds hdigits).1
  · refine .inr (.inr ⟨_, 1, one_ne_zero, ?_, rfl⟩)
    rw [abs_toRat, Nat.cast_mul, hten, Nat.cast_one, div_one, ← zpow_natCast, Int.natAbs_of_nonneg hwhole]
  · have hpower : tenTo d.exponent.natAbs ≠ 0 := (Nat.pow_pos (by decide)).ne'
    refine .inr (.inr ⟨_, _, hpower, ?_, rfl⟩)
    rw [abs_toRat, hten, ← zpow_natCast, Int.ofNat_natAbs_of_nonpos (by omega), zpow_neg, div_inv_eq_mul]

/-- **The decimals whose nearest real is finite.** -/
theorem isFinite_ofDecimal_iff {d : Decimal} : (ofDecimal d).isFinite = true ↔ |d.toRat| < 2 ^ 1024 - 2 ^ 970 := by
  obtain ⟨hread, hsmall⟩ | ⟨hread, hlarge⟩ | ⟨num, den, hden, hvalue, hread⟩ := ofDecimal_cases d
  · rw [hread]
    refine iff_of_true (isFinite_ofMagnitude_iff.2 (by decide)) ?_
    calc |d.toRat| < 10 ^ (-400 : Int) := hsmall
      _ ≤ 2 ^ 0 := zpow_le_one_of_nonpos₀ (by norm_num) (by norm_num)
      _ < 2 ^ 1024 - 2 ^ 970 := lt_half_above_largest (Nat.zero_le 970)
  · rw [hread, isFinite_infinity]
    exact iff_of_false Bool.false_ne_true (not_lt.2 (half_above_largest_le.trans hlarge))
  · rw [hread, ofRatio, isFinite_ofMagnitude_iff, magnitude_lt_iff hden, hvalue]

end LaunchReports.Binary64
