/-
Numerals of whole numbers.

- `Numeral.int?_ofInt`: an integer is read back from its numeral.
- `Numeral.int?_eq_some_iff`: digits with an optional sign are read, and nothing else (`Numeral.Signed`).
- `Numeral.precedesChars_padded`: numerals of one width stand in the order of their numbers, whatever follows them.
- `Numeral.padded_toNat`: so a run of digits is the numeral of its number in its width.
-/
import Mathlib.Algebra.Group.Nat.Defs
import Mathlib.Data.List.Basic
import Mathlib.Tactic.Common
import LaunchReports.Number.Numeral
import LaunchReports.Text.Precedence

namespace LaunchReports

namespace Numeral

/-! ## Digits -/

theorem isDigit_of_mem_ofNat {n : Nat} {c : Char} (h : c ∈ ofNat n) : c.isDigit = true :=
  Nat.isDigit_of_mem_toDigits (by decide) (by decide) h

theorem ofNat_ne_nil (n : Nat) : ofNat n ≠ [] := Nat.toDigits_ne_nil

theorem ofInt_ne_nil (n : Int) : ofInt n ≠ [] := by
  cases n with
  | ofNat n => exact ofNat_ne_nil n
  | negSucc n => exact List.cons_ne_nil _ _

theorem mem_ofInt {n : Int} {c : Char} (h : c ∈ ofInt n) : c = '-' ∨ c.isDigit = true := by
  cases n with
  | ofNat n => exact .inr (isDigit_of_mem_ofNat h)
  | negSucc n => exact (List.mem_cons.1 h).imp_right isDigit_of_mem_ofNat

theorem isDigit_of_mem_padded {width n : Nat} {c : Char} (h : c ∈ padded width n) : c.isDigit = true := by
  rcases List.mem_append.1 h with hzero | hdigit
  · obtain rfl := List.eq_of_mem_replicate hzero
    rfl
  · exact isDigit_of_mem_ofNat hdigit

theorem padded_ne_nil (width n : Nat) : padded width n ≠ [] :=
  List.append_ne_nil_of_right_ne_nil _ (ofNat_ne_nil n)

theorem length_padded {width n : Nat} (hw : 0 < width) (h : n < 10 ^ width) : (padded width n).length = width := by
  have hshort : (ofNat n).length ≤ width := (Nat.length_toDigits_le_iff (by decide) hw).2 h
  rw [padded, List.length_append, List.length_replicate, Nat.sub_add_cancel hshort]

theorem toNat_padded (width n : Nat) : toNat (padded width n) = n := by
  rw [toNat, padded, Nat.ofDigitChars_append, Nat.ofDigitChars_replicate_zero, Nat.mul_zero]
  exact toNat_ofNat n

theorem toNat_cons (c : Char) (text : List Char) :
    toNat (c :: text) = 10 ^ text.length * (c.toNat - '0'.toNat) + toNat text := by
  rw [toNat, Nat.ofDigitChars_cons, Nat.mul_zero, Nat.zero_add, Nat.ofDigitChars_eq_ofDigitChars_zero]
  rfl

/-- so many digits make no greater number -/
theorem toNat_lt {text : List Char} (h : ∀ c ∈ text, c.isDigit = true) : toNat text < 10 ^ text.length := by
  induction text with
  | nil => decide
  | cons c text ih =>
    have hc := (Char.isDigit_iff_toNat.1 (h c List.mem_cons_self)).2
    have hnine : '9'.toNat = 57 := rfl
    have hzero : '0'.toNat = 48 := rfl
    have hdigit : c.toNat - '0'.toNat ≤ 9 := by omega
    have htext : toNat text < 10 ^ text.length := ih fun d hd => h d (List.mem_cons_of_mem c hd)
    rw [toNat_cons, List.length_cons, Nat.pow_succ]
    calc 10 ^ text.length * (c.toNat - '0'.toNat) + toNat text
        < 10 ^ text.length * (c.toNat - '0'.toNat) + 10 ^ text.length := Nat.add_lt_add_left htext _
      _ = 10 ^ text.length * (c.toNat - '0'.toNat + 1) := (Nat.mul_succ _ _).symm
      _ ≤ 10 ^ text.length * 10 := Nat.mul_le_mul_left _ (Nat.succ_le_succ hdigit)

/-! ## Reading -/

theorem nat?_ofNat (n : Nat) : nat? (ofNat n) = some n := by
  have hall : (ofNat n).all Char.isDigit = true := List.all_eq_true.2 fun c hc => isDigit_of_mem_ofNat hc
  have hsome : (ofNat n).isEmpty = false := List.isEmpty_eq_false_iff.2 (ofNat_ne_nil n)
  rw [nat?, hall, hsome, toNat_ofNat]
  rfl

theorem nat?_eq_none {text : List Char} {c : Char} (hc : c ∈ text) (h : c.isDigit = false) : nat? text = none := by
  have hall : text.all Char.isDigit = false := List.all_eq_false.2 ⟨c, hc, by simp [h]⟩
  rw [nat?, hall, Bool.and_false]
  rfl

theorem int?_digit {c : Char} (h : c.isDigit = true) (text : List Char) :
    int? (c :: text) = (nat? (c :: text)).map fun n => (n : Int) := by
  unfold int?
  split
  · next he => cases he; cases h
  · next he => cases he; cases h
  · rfl

/-- an integer is read back from its numeral -/
theorem int?_ofInt (n : Int) : int? (ofInt n) = some n := by
  cases n with
  | ofNat n =>
    obtain ⟨c, text, htext⟩ := List.exists_cons_of_ne_nil (ofNat_ne_nil n)
    have hc : c.isDigit = true := isDigit_of_mem_ofNat (htext ▸ List.mem_cons_self)
    rw [ofInt, htext, int?_digit hc, ← htext, nat?_ofNat]
    rfl
  | negSucc n =>
    rw [ofInt, int?, nat?_ofNat]
    rfl

theorem int?_eq_none {c d : Char} {text : List Char} (hd : d ∈ text) (h : d.isDigit = false) :
    int? (c :: text) = none := by
  unfold int?
  split
  · next he => cases he; rw [nat?_eq_none hd h]; rfl
  · next he => cases he; rw [nat?_eq_none hd h]; rfl
  · rw [nat?_eq_none (List.mem_cons_of_mem c hd) h]; rfl

/-- digits with an optional sign, and the number that they denote -/
inductive Signed : List Char → Int → Prop
  | plain {text : List Char} : text ≠ [] → (∀ c ∈ text, c.isDigit = true) → Signed text (toNat text)
  | plus {text : List Char} : text ≠ [] → (∀ c ∈ text, c.isDigit = true) → Signed ('+' :: text) (toNat text)
  | minus {text : List Char} : text ≠ [] → (∀ c ∈ text, c.isDigit = true) → Signed ('-' :: text) (-(toNat text : Int))

theorem nat?_eq_some_iff {text : List Char} {n : Nat} :
    nat? text = some n ↔ text ≠ [] ∧ (∀ c ∈ text, c.isDigit = true) ∧ toNat text = n := by
  simp [nat?, and_assoc]

theorem int?_signed {text : List Char} {n : Int} (h : Signed text n) : int? text = some n := by
  cases h with
  | @plain text hne hdigits =>
    obtain ⟨c, rest, rfl⟩ := List.exists_cons_of_ne_nil hne
    rw [int?_digit (hdigits c List.mem_cons_self), nat?_eq_some_iff.2 ⟨hne, hdigits, rfl⟩]
    rfl
  | plus hne hdigits | minus hne hdigits =>
    rw [int?, nat?_eq_some_iff.2 ⟨hne, hdigits, rfl⟩]
    rfl

theorem int?_eq_some_iff {text : List Char} {n : Int} : int? text = some n ↔ Signed text n := by
  refine ⟨fun h => ?_, int?_signed⟩
  have hdigits {ds : List Char} {f : Int → Int} (h : (do let k ← nat? ds; pure (k : Int)).map f = some n) :
      ds ≠ [] ∧ (∀ c ∈ ds, c.isDigit = true) ∧ f (toNat ds) = n := by
    obtain ⟨_, hlifted, rfl⟩ := Option.map_eq_some_iff.1 h
    obtain ⟨k, hk, ⟨⟩⟩ := Option.bind_eq_some_iff.1 hlifted
    obtain ⟨hne, hds, rfl⟩ := nat?_eq_some_iff.1 hk
    exact ⟨hne, hds, rfl⟩
  unfold int? at h
  split at h
  · obtain ⟨hne, hds, rfl⟩ := hdigits h
    exact .minus hne hds
  · obtain ⟨hne, hds, rfl⟩ := hdigits h
    exact .plus hne hds
  · obtain ⟨hne, hds, rfl⟩ := hdigits h
    exact .plain hne hds

/-! ## Order -/

theorem mul_add_lt_iff {k a b r s : Nat} (hr : r < k) (hs : s < k) : k * a + r < k * b + s ↔ a < b ∨ a = b ∧ r < s := by
  rcases Nat.lt_trichotomy a b with hab | rfl | hba
  · have hstep : k * (a + 1) ≤ k * b := Nat.mul_le_mul_left k hab
    rw [Nat.mul_succ] at hstep
    exact iff_of_true (by omega) (.inl hab)
  · omega
  · have hstep : k * (b + 1) ≤ k * a := Nat.mul_le_mul_left k hba
    rw [Nat.mul_succ] at hstep
    exact iff_of_false (by omega) (by omega)

/-- the first digit that differs decides which number is the greater -/
theorem precedesChars_digits {x y : List Char} (hlength : x.length = y.length) (hx : ∀ c ∈ x, c.isDigit = true)
    (hy : ∀ c ∈ y, c.isDigit = true) (s t : List Char) :
    precedesChars (x ++ s) (y ++ t) = true ↔ toNat x < toNat y ∨ toNat x = toNat y ∧ precedesChars s t = true := by
  induction x generalizing y with
  | nil =>
    obtain rfl := List.length_eq_zero_iff.1 hlength.symm
    simp
  | cons c x ih =>
    cases y with
    | nil => cases hlength
    | cons d y =>
      have hlength : x.length = y.length := Nat.succ.inj hlength
      obtain ⟨hc, hx⟩ := List.forall_mem_cons.1 hx
      obtain ⟨hd, hy⟩ := List.forall_mem_cons.1 hy
      have hsize := toNat_lt hx
      have hsize' := toNat_lt hy
      rw [← hlength] at hsize'
      -- digits are in the order of what they stand for
      have hc := (Char.isDigit_iff_toNat.1 hc).1
      have hd := (Char.isDigit_iff_toNat.1 hd).1
      have hless := mul_add_lt_iff (a := c.toNat - '0'.toNat) (b := d.toNat - '0'.toNat) hsize hsize'
      have hmore := mul_add_lt_iff (a := d.toNat - '0'.toNat) (b := c.toNat - '0'.toNat) hsize' hsize
      simp only [List.cons_append, precedesChars, Bool.or_eq_true, decide_eq_true_eq, Bool.and_eq_true, beq_iff_eq,
        ih hlength hx hy, toNat_cons, ← hlength]
      cases precedesChars s t <;> simp only [Bool.false_eq_true, and_false, or_false, and_true] <;> omega

/-- numerals of one width stand in the order of their numbers -/
theorem precedesChars_padded {width m n : Nat} (hw : 0 < width) (hm : m < 10 ^ width) (hn : n < 10 ^ width)
    (s t : List Char) :
    precedesChars (padded width m ++ s) (padded width n ++ t) = true ↔ m < n ∨ m = n ∧ precedesChars s t = true := by
  have hlength : (padded width m).length = (padded width n).length := by
    rw [length_padded hw hm, length_padded hw hn]
  rw [precedesChars_digits hlength (fun _ => isDigit_of_mem_padded) (fun _ => isDigit_of_mem_padded), toNat_padded,
    toNat_padded]

/-- digits are the numeral of their number, in their width -/
theorem padded_toNat {text : List Char} (hne : text ≠ []) (h : ∀ c ∈ text, c.isDigit = true) :
    padded text.length (toNat text) = text := by
  have hlength : (padded text.length (toNat text)).length = text.length :=
    length_padded (List.length_pos_iff.2 hne) (toNat_lt h)
  have hbefore := precedesChars_digits hlength (fun _ => isDigit_of_mem_padded) h [] []
  have hbehind := precedesChars_digits hlength.symm h (fun _ => isDigit_of_mem_padded) [] []
  rw [List.append_nil, List.append_nil, toNat_padded] at hbefore hbehind
  apply eq_of_not_precedesChars
  · simpa [precedesChars_irrefl] using hbefore
  · simpa [precedesChars_irrefl] using hbehind

end Numeral

end LaunchReports
