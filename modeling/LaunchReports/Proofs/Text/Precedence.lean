/-
The order of texts, byte by byte.

`precedes` compares code points. UTF-8 keeps their order: `utf8EncodeChar_lt` says so of one character with anything
behind it, and `precedes_iff_bytes` of whole texts.
-/
import LaunchReports.Proofs.Text.Utf8
import LaunchReports.Text.Precedence

namespace LaunchReports

/-! ## Characters -/

theorem digit_lt {m n : Nat} (h : m < n) : m / 64 < n / 64 ∨ m / 64 = n / 64 ∧ m % 64 < n % 64 := by omega

/-- the greater number has the greater digit, in base 64, where the two differ first -/
theorem digits_lt {m n : Nat} (h : m < n) :
    m / 262144 < n / 262144 ∨ m / 262144 = n / 262144 ∧
      (m / 4096 % 64 < n / 4096 % 64 ∨ m / 4096 % 64 = n / 4096 % 64 ∧
        (m / 64 % 64 < n / 64 % 64 ∨ m / 64 % 64 = n / 64 % 64 ∧ m % 64 < n % 64)) := by
  have hdigits : ∀ k : Nat, k / 64 / 64 = k / 4096 ∧ k / 4096 / 64 = k / 262144 := fun k =>
    ⟨Nat.div_div_eq_div_mul .., Nat.div_div_eq_div_mul ..⟩
  rcases digit_lt h with h | ⟨h, hlast⟩
  · have hthird := digit_lt h
    rw [(hdigits m).1, (hdigits n).1] at hthird
    rcases hthird with h | ⟨h, hthird⟩
    · have hsecond := digit_lt h
      rw [(hdigits m).2, (hdigits n).2] at hsecond
      omega
    · omega
  · omega

/-- a smaller character has the smaller bytes, whatever stands behind -/
theorem utf8EncodeChar_lt {x y : Char} (h : x.toNat < y.toNat) (s t : List UInt8) :
    String.utf8EncodeChar x ++ s < String.utf8EncodeChar y ++ t := by
  have hvalid : y.val.toNat < 1114112 := by
    have hy := y.valid
    simp only [UInt32.isValidChar, Nat.isValidChar] at hy
    omega
  have h : x.val.toNat < y.val.toNat := h
  unfold String.utf8EncodeChar
  generalize x.val.toNat = m at *
  generalize y.val.toNat = n at *
  have hdigits := digits_lt h
  have hbyte : ∀ k d b : Nat, d + b ≤ 256 → 0 < d → (k % d + b) % 256 = k % d + b := by
    intro k d b hd hpos
    have := Nat.mod_lt k hpos
    omega
  have hm : m / 262144 % 8 = m / 262144 := by omega
  have hn : n / 262144 % 8 = n / 262144 := by omega
  -- one case for each pair of lengths; the shorter encoding has the smaller first byte
  dsimp only
  split_ifs <;>
    simp (disch := decide) only [List.cons_append, List.nil_append, List.cons_lt_cons_iff, UInt8.lt_iff_toNat_lt,
      ← UInt8.toNat_inj, UInt8.toNat_ofNat', Nat.reducePow, hbyte] <;>
    omega

/-! ## Texts -/

theorem append_lt_append_iff (front : List UInt8) {s t : List UInt8} : front ++ s < front ++ t ↔ s < t := by
  induction front with
  | nil => rfl
  | cons b front ih =>
    rw [List.cons_append, List.cons_append, List.cons_lt_cons_iff, ih]
    simp

theorem precedesChars_iff (a b : List Char) :
    precedesChars a b = true ↔ a.flatMap String.utf8EncodeChar < b.flatMap String.utf8EncodeChar := by
  fun_induction precedesChars a b with
  | case1 a => simp
  | case2 y t =>
    have hne : String.utf8EncodeChar y ≠ [] := by
      rw [← List.length_pos_iff, String.length_utf8EncodeChar]
      exact y.utf8Size_pos
    obtain ⟨b, rest, hb⟩ := List.exists_cons_of_ne_nil hne
    rw [List.flatMap_nil, List.flatMap_cons, hb, List.cons_append]
    simp
  | case3 x s y t ih =>
    rw [List.flatMap_cons, List.flatMap_cons]
    rcases Nat.lt_trichotomy x.toNat y.toNat with h | h | h
    · simpa [h] using utf8EncodeChar_lt h _ _
    · obtain rfl := Char.toNat_inj.1 h
      rw [append_lt_append_iff, ← ih]
      simp
    · have hgt := utf8EncodeChar_lt h (t.flatMap String.utf8EncodeChar) (s.flatMap String.utf8EncodeChar)
      have hno := List.lt_asymm hgt
      simpa [Nat.not_lt_of_gt h, Nat.ne_of_gt h] using hno

/-- **Texts stand in the order of their bytes.** -/
theorem precedes_iff {a b : String} : precedes a b = true ↔ utf8 a < utf8 b := by
  rw [utf8_eq, utf8_eq, precedes, precedesChars_iff]

end LaunchReports
