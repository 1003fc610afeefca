/-
Powers of two and ten, and the ranges of machine integers.
-/
namespace LaunchReports

def twoTo (n : Nat) : Nat := Nat.pow 2 n

def tenTo (n : Nat) : Nat := Nat.pow 10 n

/-- the integers of 64 bits with a sign -/
def fitsInt64 (n : Int) : Bool := Int64.minValue.toInt ≤ n && n ≤ Int64.maxValue.toInt

/-- the integers of 64 bits without a sign -/
def fitsUInt64 (n : Int) : Bool := 0 ≤ n && n.toNat < UInt64.size

theorem fitsInt64_toInt (n : Int64) : fitsInt64 n.toInt = true := by
  rw [fitsInt64, Bool.and_eq_true, decide_eq_true_eq, decide_eq_true_eq]
  exact ⟨n.minValue_le_toInt, n.toInt_le⟩

theorem toInt_ofInt_of_fits {n : Int} (h : fitsInt64 n = true) : (Int64.ofInt n).toInt = n := by
  simp only [fitsInt64, Bool.and_eq_true, decide_eq_true_eq] at h
  exact Int64.toInt_ofInt_of_le h.1 (Int.lt_add_one_of_le h.2)

end LaunchReports
