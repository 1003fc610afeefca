/-
The grammar of numeric filters.

- `Comparison.prefixed_iff`: a filter value begins with one operator word at most.
- `Comparison.number?_eq_some_iff`: what is read as a number, and as which (`Comparison.Operand`).
- `Comparison.Operand.nearest`: a real operand is the real nearest to what is written.
- `Comparison.parseNumeric_grammar`: what a filter value is read as, and when it is refused.
-/
import LaunchReports.Proofs.Number.Nearest
import LaunchReports.Proofs.Sql.Comparison

namespace LaunchReports.Comparison

open Numeral (Signed)
open Literal (Spelled)

/-! ## Operators -/

/-- the operator that a value begins with and what follows it; without an operator word it is equality -/
inductive Prefixed : List Char → Operator → List Char → Prop
  | less (rest : List Char) : Prefixed ("less_than:".toList ++ rest) .less rest
  | lessOrEqual (rest : List Char) : Prefixed ("less_than_equal:".toList ++ rest) .lessOrEqual rest
  | greater (rest : List Char) : Prefixed ("greater_than:".toList ++ rest) .greater rest
  | greaterOrEqual (rest : List Char) : Prefixed ("greater_than_equal:".toList ++ rest) .greaterOrEqual rest
  | equal {value : List Char} : ¬"less_than:".toList <+: value → ¬"less_than_equal:".toList <+: value →
      ¬"greater_than:".toList <+: value → ¬"greater_than_equal:".toList <+: value → Prefixed value .equal value

theorem prefixed_splitOperator (value : List Char) : Prefixed value (splitOperator value).1 (splitOperator value).2 := by
  unfold splitOperator
  split
  · next word op hfind =>
    have hword : word.isPrefixOf value = true := List.find?_some (p := fun w : List Char × Operator => w.1.isPrefixOf value) hfind
    obtain ⟨rest, rfl⟩ := List.isPrefixOf_iff_prefix.1 hword
    rw [List.drop_left]
    have hmem := List.mem_of_find?_eq_some hfind
    simp only [operatorWords, List.mem_cons, Prod.mk.injEq, List.not_mem_nil, or_false] at hmem
    rcases hmem with ⟨rfl, rfl⟩ | ⟨rfl, rfl⟩ | ⟨rfl, rfl⟩ | ⟨rfl, rfl⟩
    · exact .less rest
    · exact .lessOrEqual rest
    · exact .greater rest
    · exact .greaterOrEqual rest
  · next hnone =>
    have hword : ∀ w ∈ operatorWords, ¬w.1 <+: value := fun w hw hprefix =>
      List.find?_eq_none.1 hnone w hw (List.isPrefixOf_iff_prefix.2 hprefix)
    simp only [operatorWords, List.forall_mem_cons] at hword
    obtain ⟨hless, hlessOrEqual, hgreater, hgreaterOrEqual, -⟩ := hword
    exact .equal hless hlessOrEqual hgreater hgreaterOrEqual

/-- a value begins with one operator word at most -/
theorem prefixed_iff {value rest : List Char} {op : Operator} :
    Prefixed value op rest ↔ splitOperator value = (op, rest) := by
  constructor
  · intro h
    cases h with
    | less | lessOrEqual | greater | greaterOrEqual => rfl
    | equal hless hlessOrEqual hgreater hgreaterOrEqual =>
      simp only [← List.isPrefixOf_iff_prefix, Bool.not_eq_true] at hless hlessOrEqual hgreater hgreaterOrEqual
      simp only [splitOperator, operatorWords, List.find?_cons, hless, hlessOrEqual, hgreater, hgreaterOrEqual,
        List.find?_nil]
  · intro h
    have hprefixed := prefixed_splitOperator value
    rwa [h] at hprefixed

/-! ## Operands -/

/-- the number that is an operand: a whole number of 64 bits, or the real nearest to a literal in range -/
inductive Operand (text : List Char) : Value → Prop
  | integer {n : Int64} : Signed text n.toInt → Operand text (.integer n)
  | real {l : Literal} : (¬∃ n : Int64, Signed text n.toInt) → Spelled text l → |l.number| < 2 ^ 1024 - 2 ^ 970 →
      Operand text (.real (Binary64.ofDecimal l.value))

theorem Operand.nearest {text : List Char} {x : Binary64} (h : Operand text (.real x)) :
    ∃ l, Spelled text l ∧ Binary64.Nearest l.number x := by
  cases h with
  | @real l _ hl hfinite =>
    rw [← Literal.toRat_value] at hfinite
    have hnearest := Binary64.nearest_ofDecimal hfinite
    rw [Literal.toRat_value] at hnearest
    exact ⟨l, hl, hnearest⟩

theorem integer_iff {text : List Char} {n : Int} :
    (Numeral.int? text).filter fitsInt64 = some n ↔ Signed text n ∧ fitsInt64 n = true := by
  rw [Option.filter_eq_some_iff, Numeral.int?_eq_some_iff]

/-- what is read as a number -/
theorem number?_eq_some_iff {text : List Char} {v : Value} : number? text = some v ↔ Operand text v := by
  unfold number?
  cases hinteger : (Numeral.int? text).filter fitsInt64 with
  | some n =>
    obtain ⟨hsigned, hfits⟩ := integer_iff.1 hinteger
    have hn := toInt_ofInt_of_fits hfits
    rw [← hn] at hsigned
    simp only [Option.some.injEq]
    constructor
    · rintro rfl
      exact .integer hsigned
    · intro h
      cases h with
      | @integer k hk =>
        have hsame := Option.some.inj ((Numeral.int?_signed hsigned).symm.trans (Numeral.int?_signed hk))
        rw [Int64.toInt_inj.1 hsame]
      | real hnone => exact absurd ⟨_, hsigned⟩ hnone
  | none =>
    have hnone : ¬∃ n : Int64, Signed text n.toInt := by
      rintro ⟨n, hn⟩
      cases hinteger.symm.trans (integer_iff.2 ⟨hn, fitsInt64_toInt n⟩)
    simp only [Decimal.read?, Option.map_map, Option.map_eq_some_iff, Option.filter_eq_some_iff,
      Literal.read?_eq_some_iff]
    constructor
    · rintro ⟨_, ⟨⟨l, hl, rfl⟩, hfinite⟩, rfl⟩
      rw [Function.comp_apply, Binary64.isFinite_ofDecimal_iff, Literal.toRat_value] at hfinite
      exact .real hnone hl hfinite
    · intro h
      cases h with
      | integer hn => exact absurd ⟨_, hn⟩ hnone
      | @real l _ hl hfinite =>
        rw [← Literal.toRat_value, ← Binary64.isFinite_ofDecimal_iff] at hfinite
        exact ⟨_, ⟨⟨l, hl, rfl⟩, hfinite⟩, rfl⟩

theorem abs_toInt_le (n : Int64) : |(n.toInt : ℚ)| ≤ 2 ^ 63 := by
  have hlow : -2 ^ 63 ≤ n.toInt := n.minValue_le_toInt
  have hhigh : n.toInt ≤ 2 ^ 63 := n.toInt_le.trans (by decide)
  exact abs_le.2 ⟨by exact_mod_cast hlow, by exact_mod_cast hhigh⟩

/-- a text is an operand if it is a literal in range -/
theorem exists_operand_iff {text : List Char} :
    (∃ v, Operand text v) ↔ ∃ l, Spelled text l ∧ |l.number| < 2 ^ 1024 - 2 ^ 970 := by
  constructor
  · rintro ⟨_, hn | ⟨-, hl, hfinite⟩⟩
    · obtain ⟨l, hl, hnumber⟩ := hn.spelled
      exact ⟨l, hl, hnumber ▸ (abs_toInt_le _).trans_lt (Binary64.lt_half_above_largest (by decide))⟩
    · exact ⟨_, hl, hfinite⟩
  · rintro ⟨l, hl, hfinite⟩
    by_cases hinteger : ∃ n : Int64, Signed text n.toInt
    · obtain ⟨n, hn⟩ := hinteger
      exact ⟨_, .integer hn⟩
    · exact ⟨_, .real hinteger hl hfinite⟩

/-! ## Filters -/

theorem nullTest?_eq_some_iff {value : String} {c : Comparison} :
    nullTest? value.toList = some c ↔ value = "null" ∧ c = .isNull ∨ value = "not_null" ∧ c = .isNotNull := by
  unfold nullTest?
  simp only [String.toList_inj]
  split_ifs with hnull hnot
  · simp [hnull, eq_comm]
  · simp [hnot, eq_comm]
  · simp [hnull, hnot]

variable {value : String} {op : Operator} {rest : List Char}

/-- a value that is no test for `NULL` is read by its operator and operand -/
theorem parseNumeric_prefixed (hprefixed : Prefixed value.toList op rest) (hnull : value ≠ "null")
    (hnot : value ≠ "not_null") :
    (∀ c, parseNumeric value.toList = .ok c ↔ ∃ v, Operand rest v ∧ c = .binary op v) ∧
      ∀ e, parseNumeric value.toList = .error e ↔ e = ⟨String.ofList rest⟩ ∧ ¬∃ v, Operand rest v := by
  have htest := nullTest?_eq_none_iff.2 ⟨hnull, hnot⟩
  have hsplit := prefixed_iff.1 hprefixed
  constructor
  · intro c
    rw [parseNumeric_eq_ok_iff, htest, hsplit]
    simp only [number?_eq_some_iff, reduceCtorEq, false_or, true_and, @eq_comm _ c]
  · intro e
    rw [parseNumeric_eq_error_iff, htest, hsplit]
    simp only [Option.eq_none_iff_forall_ne_some, ne_eq, number?_eq_some_iff, not_exists, true_and, @eq_comm _ e]
    exact and_comm

/-- the operators that a filter value can name, with their words -/
def named : List (String × Operator) :=
  [("", .equal), ("less_than:", .less), ("less_than_equal:", .lessOrEqual), ("greater_than:", .greater),
    ("greater_than_equal:", .greaterOrEqual)]

/-- no operator word and no test for `NULL` begins with a digit or a minus sign -/
theorem exists_ofInt_eq_cons (n : Int) :
    ∃ c rest, Numeral.ofInt n = c :: rest ∧ c ≠ 'l' ∧ c ≠ 'g' ∧ c ≠ 'n' := by
  cases n with
  | ofNat n =>
    obtain ⟨c, rest, hcons⟩ := List.exists_cons_of_ne_nil (Numeral.ofNat_ne_nil n)
    have hdigit : c.isDigit = true := Numeral.isDigit_of_mem_ofNat (hcons ▸ List.mem_cons_self)
    refine ⟨c, rest, hcons, ?_, ?_, ?_⟩ <;> rintro rfl <;> cases hdigit
  | negSucc n => exact ⟨'-', _, rfl, by decide, by decide, by decide⟩

/-- a whole number is read back behind every operator -/
theorem parseNumeric_ofInt (n : Int64) {p : String × Operator} (hp : p ∈ named) :
    parseNumeric (p.1.toList ++ Numeral.ofInt n.toInt) = .ok (.binary p.2 (.integer n)) := by
  have hnumber : number? (Numeral.ofInt n.toInt) = some (.integer n) :=
    number?_eq_some_iff.2 (.integer (Numeral.int?_eq_some_iff.1 (Numeral.int?_ofInt n.toInt)))
  have hread {text : List Char} {op : Operator} (htest : nullTest? text = none)
      (hprefixed : Prefixed text op (Numeral.ofInt n.toInt)) : parseNumeric text = .ok (.binary op (.integer n)) := by
    rw [parseNumeric_eq_ok_iff, prefixed_iff.1 hprefixed]
    exact .inr ⟨htest, _, hnumber, rfl⟩
  simp only [named, List.mem_cons, List.not_mem_nil, or_false] at hp
  rcases hp with rfl | rfl | rfl | rfl | rfl
  · obtain ⟨c, rest, hcons, hl, hg, hn⟩ := exists_ofInt_eq_cons n.toInt
    have hequal : Prefixed (c :: rest) .equal (c :: rest) := by
      apply Prefixed.equal <;> simp [hl.symm, hg.symm]
    rw [← hcons] at hequal
    exact hread (by simp [nullTest?, hcons, hn]) hequal
  · exact hread rfl (.less _)
  · exact hread rfl (.lessOrEqual _)
  · exact hread rfl (.greater _)
  · exact hread rfl (.greaterOrEqual _)

/-- **The grammar of numeric filters.** -/
theorem parseNumeric_grammar (value : String) (n : Int64) :
    (parseNumeric value.toList = .ok .isNull ↔ value = "null") ∧
    (parseNumeric value.toList = .ok .isNotNull ↔ value = "not_null") ∧
    (∃ op rest, Prefixed value.toList op rest ∧
      (∀ op' rest', Prefixed value.toList op' rest' → op' = op ∧ rest' = rest) ∧
      (value ≠ "null" → value ≠ "not_null" →
        ((∃ c, parseNumeric value.toList = .ok c) ↔ ∃ l, Spelled rest l ∧ |l.number| < 2 ^ 1024 - 2 ^ 970) ∧
        (∀ c, parseNumeric value.toList = .ok c ↔ ∃ v, Operand rest v ∧ c = .binary op v) ∧
        (∀ x, parseNumeric value.toList = .ok (.binary op (.real x)) →
          ∃ l, Spelled rest l ∧ Binary64.Nearest l.number x) ∧
        ∀ e, parseNumeric value.toList = .error e → e.operand = String.ofList rest)) ∧
    ∀ p ∈ named, parseNumeric (p.1.toList ++ Numeral.ofInt n.toInt) = .ok (.binary p.2 (.integer n)) := by
  have hprefixed := prefixed_splitOperator value.toList
  refine ⟨?_, ?_, ⟨_, _, hprefixed, ?_, ?_⟩, fun p => parseNumeric_ofInt n⟩
  · simp [parseNumeric_eq_ok_iff, nullTest?_eq_some_iff]
  · simp [parseNumeric_eq_ok_iff, nullTest?_eq_some_iff]
  · intro op' rest' h
    exact Prod.mk.inj (prefixed_iff.1 h).symm
  · intro hnull hnot
    obtain ⟨hok, herror⟩ := parseNumeric_prefixed hprefixed hnull hnot
    refine ⟨?_, hok, fun x hx => ?_, fun e he => by rw [((herror e).1 he).1]⟩
    · rw [← exists_operand_iff]
      simp only [hok]
      exact ⟨fun ⟨c, v, hv, hc⟩ => ⟨v, hv⟩, fun ⟨v, hv⟩ => ⟨_, v, hv, rfl⟩⟩
    · obtain ⟨v, hoperand, hv⟩ := (hok _).1 hx
      obtain rfl := (Comparison.binary.inj hv).2
      exact hoperand.nearest

/-- a literal without digits before its point, and a whole number behind another operator -/
theorem parseNumeric_grammar_sample :
    (∃ c, parseNumeric "less_than:-.5e1".toList = .ok c) ∧
      parseNumeric "greater_than_equal:-3".toList = .ok (.binary .greaterOrEqual (.integer (-3))) := by
  obtain ⟨-, -, ⟨op, rest, -, hunique, hgrammar⟩, hwhole⟩ := parseNumeric_grammar "less_than:-.5e1" (-3)
  obtain ⟨rfl, rfl⟩ := hunique .less "-.5e1".toList (.less _)
  have hone : Signed ['1'] 1 := .plain (List.cons_ne_nil _ _) (List.all_eq_true.1 rfl)
  have hhalf : Decimal.Mantissa [] ['5'] ['.', '5'] := .fraction (List.cons_ne_nil _ _) (List.all_eq_true.1 rfl)
  have hspelled : Spelled "-.5e1".toList ⟨true, [], ['5'], 1⟩ := .intro .minus hhalf (.lower hone)
  have hnumber : Literal.number ⟨true, [], ['5'], 1⟩ = -5 := by
    have hfive : Numeral.toNat ['5'] = 5 := rfl
    have hnone : Numeral.toNat [] = 0 := rfl
    rw [Literal.number, hfive, hnone]
    norm_num
  have hrange : |Literal.number ⟨true, [], ['5'], 1⟩| < 2 ^ 1024 - 2 ^ 970 := by
    refine lt_trans ?_ (Binary64.lt_half_above_largest (k := 3) (by decide))
    rw [hnumber]
    norm_num
  have hread := (hgrammar (by decide) (by decide)).1.2 ⟨_, hspelled, hrange⟩
  exact ⟨hread, hwhole ("greater_than_equal:", .greaterOrEqual) (by decide)⟩

end LaunchReports.Comparison
