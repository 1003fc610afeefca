/-
What reading a filter value yields, and what a comparison is shown as.

- `parseNumeric_eq_ok_iff` and `parseNumeric_eq_error_iff` tell the outcomes of a numeric value apart: a test for
  `NULL`, an operator with a number, or neither.
- `display_eq_text_iff`: no other comparison is shown as a comparison with a text is.
-/
import Mathlib.Tactic.SplitIfs
import LaunchReports.Proofs.Sql.Literal
import LaunchReports.Sql.Comparison

namespace LaunchReports

/-- the first blank ends the operator -/
theorem Operator.symbol_append_inj {op op' : Operator} {rest rest' : List Char} :
    op.symbol.toList ++ ' ' :: rest = op'.symbol.toList ++ ' ' :: rest' ↔ op = op' ∧ rest = rest' := by
  cases op <;> cases op' <;> simp [symbol]

namespace Comparison

/-! ## Reading -/

theorem nullTest?_eq_none_iff {value : String} :
    nullTest? value.toList = none ↔ value ≠ "null" ∧ value ≠ "not_null" := by
  unfold nullTest?
  simp only [String.toList_inj]
  split_ifs with hnull hnot <;> simp [*]

variable {value : List Char}

theorem parseNumeric_eq_ok_iff {c : Comparison} :
    parseNumeric value = .ok c ↔
      nullTest? value = some c ∨
        nullTest? value = none ∧ ∃ operand, number? (splitOperator value).2 = some operand ∧
          binary (splitOperator value).1 operand = c := by
  unfold parseNumeric
  cases nullTest? value with
  | some test => simp
  | none =>
    dsimp only
    cases number? (splitOperator value).2 with
    | some operand => simp
    | none => simp

theorem parseNumeric_eq_error_iff {e : NonNumericOperand} :
    parseNumeric value = .error e ↔
      nullTest? value = none ∧ number? (splitOperator value).2 = none ∧ ⟨String.ofList (splitOperator value).2⟩ = e := by
  unfold parseNumeric
  cases nullTest? value with
  | some test => simp
  | none =>
    dsimp only
    cases number? (splitOperator value).2 with
    | some operand => simp
    | none => simp

/-! ## Displays -/

theorem toList_display_binary (op : Operator) (operand : Value) :
    (binary op operand).display.toList = op.symbol.toList ++ ' ' :: operand.literal.toList := by
  simp [display]

theorem display_eq_text_iff {c : Comparison} {op : Operator} {text : String} :
    c.display = (binary op (.text text)).display ↔ c = binary op (.text text) := by
  rw [← String.toList_inj, toList_display_binary]
  cases c with
  | isNull | isNotNull => cases op <;> simp [display, Operator.symbol]
  | binary op' operand =>
    rw [toList_display_binary, Operator.symbol_append_inj, String.toList_inj, Value.literal_eq_text_iff, binary.injEq]

end Comparison

end LaunchReports
