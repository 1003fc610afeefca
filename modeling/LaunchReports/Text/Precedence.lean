/-
The order of texts by their code points, which is also the order of their UTF-8 bytes.

The first character that differs decides, and a text comes before every longer one that begins with it.
-/
namespace LaunchReports

/-- `a` comes before `b` -/
def precedesChars : List Char → List Char → Bool
  | _, [] => false
  | [], _ :: _ => true
  | a :: s, b :: t => a.toNat < b.toNat || (a.toNat == b.toNat && precedesChars s t)

def precedes (a b : String) : Bool := precedesChars a.toList b.toList

/-! ## It is a strict linear order -/

theorem precedesChars_trans {a b c : List Char} (h : precedesChars a b = true) (k : precedesChars b c = true) :
    precedesChars a c = true := by
  fun_induction precedesChars a b generalizing c with
  | case1 => simp at h
  | case2 =>
    cases c with
    | nil => simp [precedesChars] at k
    | cons => rfl
  | case3 x s y t ih =>
    cases c with
    | nil => simp [precedesChars] at k
    | cons z u =>
      simp only [precedesChars, Bool.or_eq_true, decide_eq_true_eq, Bool.and_eq_true, beq_iff_eq] at h k ⊢
      rcases h with h | ⟨h, hs⟩ <;> rcases k with k | ⟨k, kt⟩
      · exact .inl (Nat.lt_trans h k)
      · exact .inl (k ▸ h)
      · exact .inl (h ▸ k)
      · exact .inr ⟨h.trans k, ih hs kt⟩

theorem precedesChars_irrefl (a : List Char) : precedesChars a a = false := by
  induction a with
  | nil => rfl
  | cons x s ih => simp [precedesChars, ih]

theorem eq_of_not_precedesChars {a b : List Char} (h : precedesChars a b = false) (k : precedesChars b a = false) :
    a = b := by
  fun_induction precedesChars a b with
  | case1 s =>
    cases s with
    | nil => rfl
    | cons => simp [precedesChars] at k
  | case2 => simp at h
  | case3 x s y t ih =>
    simp only [precedesChars, Bool.or_eq_false_iff, decide_eq_false_iff_not, Bool.and_eq_false_iff,
      beq_eq_false_iff_ne] at h k
    have hxy : x = y := Char.toNat_inj.1 (by omega)
    subst hxy
    rw [ih (h.2.resolve_left (by simp)) (k.2.resolve_left (by simp))]

theorem precedes_trans {a b c : String} (h : precedes a b = true) (k : precedes b c = true) : precedes a c = true :=
  precedesChars_trans h k

theorem precedes_irrefl (a : String) : precedes a a = false := precedesChars_irrefl _

theorem precedes_total {a b : String} (h : precedes a b = false) (hne : a ≠ b) : precedes b a = true := by
  rw [← Bool.not_eq_false]
  exact fun k => hne (String.toList_injective (eq_of_not_precedesChars h k))

end LaunchReports
