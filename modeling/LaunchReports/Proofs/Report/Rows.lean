/-
The rows of a result as JSON objects.

`Value.Encodes` says which JSON value stands for a cell; `Value.bytesOfHex?` reads the bytes of a blob back.

- `ResultSet.Under`: under distinct names an object has all cells of a row, each under its column, in their order.
- `ResultSet.LastUnder`: where names repeat, or a row is too short or too long, each name that has a cell is there once,
  in the order of first occurrence, with its last cell.
- `rows_under_columns`: the objects of a result are such, and the single value of a result is the one that the first
  object has under the first column.
-/
import LaunchReports.Proofs.Report.Envelopes

namespace LaunchReports

/-! ## Cells -/

namespace Value

/-- the bytes that are written in hex, two digits a byte -/
def bytesOfHex? : List Char → Option (List UInt8)
  | [] => some []
  | [_] => none
  | high :: low :: rest => do
    return UInt8.ofNat (16 * (← Token.hexValue? high) + (← Token.hexValue? low)) :: (← bytesOfHex? rest)

theorem bytesOfHex?_hexOfByte (b : UInt8) (rest : List Char) :
    bytesOfHex? (hexOfByte b ++ rest) = (bytesOfHex? rest).map (b :: ·) := by
  have hb : 16 * (b.toNat / 16 % 16) + b.toNat % 16 = b.toNat := by
    have := b.toNat_lt
    omega
  rw [hexOfByte, List.cons_append, List.singleton_append, bytesOfHex?]
  simp only [Token.hexValue?_hexDigit, Option.pure_def, Option.bind_eq_bind, Option.bind_some, hb, UInt8.ofNat_toNat]
  cases bytesOfHex? rest <;> rfl

theorem bytesOfHex?_flatMap (bytes : List UInt8) : bytesOfHex? (bytes.flatMap hexOfByte) = some bytes := by
  induction bytes with
  | nil => rfl
  | cons b bytes ih => rw [List.flatMap_cons, bytesOfHex?_hexOfByte, ih, Option.map_some]

theorem length_flatMap_hexOfByte (bytes : List UInt8) : (bytes.flatMap hexOfByte).length = 2 * bytes.length := by
  induction bytes with
  | nil => rfl
  | cons b bytes ih =>
    rw [List.flatMap_cons, List.length_append, ih, List.length_cons, hexOfByte, List.length_cons, List.length_singleton]
    omega

/-- the JSON value that stands for a cell -/
inductive Encodes : Value → Json → Prop
  | null : Encodes .null .null
  | integer (n : Int64) : Encodes (.integer n) (.number (.integer n.toInt))
  | nan {x : Binary64} : x.form = .nan → Encodes (.real x) .null
  | infinite {x : Binary64} {negative : Bool} : x.form = .infinite negative → Encodes (.real x) .null
  | finite {x : Binary64} {negative : Bool} {m : Nat} {q : Int} : x.form = .finite negative m q →
      Encodes (.real x) (.number (.real x))
  | text (s : String) : Encodes (.text s) (.string s)
  | blob {bytes : List UInt8} {digits : List Char} : bytesOfHex? digits = some bytes →
      digits.length = 2 * bytes.length → Encodes (.blob bytes) (.string (String.ofList digits))

theorem encodes_toJson (v : Value) : v.Encodes v.toJson := by
  cases v with
  | null => exact .null
  | integer n => exact .integer n
  | real x =>
    rw [toJson, Json.real, Binary64.isFinite]
    cases hform : x.form with
    | nan => exact .nan hform
    | infinite negative => exact .infinite hform
    | finite negative m q => exact .finite hform
  | text s => exact .text s
  | blob bytes => exact .blob (bytesOfHex?_flatMap bytes) (length_flatMap_hexOfByte bytes)

theorem forall₂_encodes (row : List Value) : List.Forall₂ Encodes row (row.map toJson) := by
  induction row with
  | nil => exact .nil
  | cons v row ih => exact .cons v.encodes_toJson ih

end Value

/-! ## Rows -/

namespace ResultSet

/-- the members of an object are the cells of a row, each under its column -/
structure Under (columns : List String) (row : List Value) (members : List (String × Json)) : Prop where
  names : members.map Prod.fst = columns
  cells : List.Forall₂ Value.Encodes row (members.map Prod.snd)

/-- the names that have a cell are there once, in the order of first occurrence, each with its last cell -/
structure LastUnder (columns : List String) (row : List Value) (members : List (String × Json)) : Prop where
  names : members.map Prod.fst = (columns.take (min columns.length row.length)).eraseDups
  last : ∀ {before after : List String} {name : String} {cells others : List Value} {v : Value},
    columns = before ++ name :: after → row = cells ++ v :: others → cells.length = before.length →
      name ∉ after.take others.length → ∃ value, (name, value) ∈ members ∧ v.Encodes value

/-- the cells of a row beside their columns -/
def pairs (columns : List String) (row : List Value) : List (String × Json) := columns.zip (row.map Value.toJson)

theorem rowJson_eq (columns : List String) (row : List Value) :
    rowJson columns row = .object (Json.gathered (pairs columns row)) := rfl

variable {columns : List String} {row : List Value}

theorem names_pairs (columns : List String) (row : List Value) :
    (pairs columns row).map Prod.fst = columns.take (min columns.length row.length) := by
  rw [pairs, List.zip_eq_zip_take_min, List.length_map]
  exact List.map_fst_zip (by simp)

theorem under_pairs (h : row.length = columns.length) : Under columns row (pairs columns row) := by
  refine ⟨List.map_fst_zip (by simp [h]), ?_⟩
  rw [pairs, List.map_snd_zip (by simp [h])]
  exact Value.forall₂_encodes row

theorem rowJson_of_nodup (hnodup : columns.Nodup) (h : row.length = columns.length) :
    rowJson columns row = .object (pairs columns row) :=
  Json.ofPairs_of_nodup ((under_pairs h).names.symm ▸ hnodup)

theorem lastUnder_gathered (columns : List String) (row : List Value) :
    LastUnder columns row (Json.gathered (pairs columns row)) := by
  refine ⟨by rw [Json.keys_gathered, names_pairs], ?_⟩
  rintro before after name cells others v rfl rfl hlength hlast
  refine ⟨v.toJson, mem_of_lookup ?_, v.encodes_toJson⟩
  have hpairs : pairs (before ++ name :: after) (cells ++ v :: others) =
      pairs before cells ++ (name, v.toJson) :: pairs after others := by
    rw [pairs, List.map_append, List.zip_append (by simp [hlength]), List.map_cons, List.zip_cons_cons]
    rfl
  have hnone : name ∉ (pairs after others).reverse.map Prod.fst := by
    rw [List.map_reverse, List.mem_reverse, names_pairs]
    exact fun hmem => hlast (List.take_subset_take_left after (Nat.min_le_right ..) hmem)
  rw [Json.lookup_gathered, hpairs, List.reverse_append, List.reverse_cons, List.append_assoc, List.lookup_append,
    lookup_eq_none hnone, List.singleton_append, Keyed.lookup_cons_eq_ite, if_pos rfl]
  rfl

/-- the first cell of the first row is what the first object has under the first column -/
theorem member?_first {r : ResultSet} (hnodup : r.columns.Nodup) (hrows : ∀ row ∈ r.rows, row.length = r.columns.length)
    {first : Json} {others : List Json} {name : String} {names : List String} (hfirst : r.jsonRows = first :: others)
    (hcolumns : r.columns = name :: names) : first.member? name = some (.ofOption Value.toJson r.single?) := by
  obtain ⟨row, rows, hr, rfl, -⟩ := List.map_eq_cons_iff.1 hfirst
  have hlength := hrows row (hr ▸ List.mem_cons_self)
  rw [rowJson_of_nodup hnodup hlength]
  rw [hcolumns] at hlength ⊢
  obtain ⟨v, cells, rfl⟩ := List.exists_cons_of_length_eq_add_one hlength
  have hsingle : r.single? = some v := by rw [single?, hr]; rfl
  rw [hsingle]
  exact (Keyed.lookup_cons_eq_ite ..).trans (if_pos rfl)

theorem single?_eq_none {r : ResultSet} (hrows : ∀ row ∈ r.rows, row.length = r.columns.length)
    (h : r.rows = [] ∨ r.columns = []) : r.single? = none := by
  rw [single?, Option.bind_eq_none_iff]
  intro row hrow
  have hmem := List.mem_of_head? hrow
  rcases h with hnil | hnil
  · rw [hnil] at hmem
    cases hmem
  · have hlength := hrows row hmem
    rw [hnil] at hlength
    rw [List.eq_nil_of_length_eq_zero hlength]
    rfl

end ResultSet

/-! ## Answers -/

namespace Envelope

theorem data_ofOutcome (command : String) (o : Outcome) :
    (ofOutcome command o).data =
      some (.object [("columns", .strings o.result.columns), ("rows", .array o.result.jsonRows)]) := by
  rw [ofOutcome, withOutcome_eq_addAll, data_addAll]
  rfl

theorem data_ofSingleValue (command : String) (o : Outcome) :
    (ofSingleValue command o).data = some (.object [("value", .ofOption Value.toJson o.result.single?)]) := by
  rw [ofSingleValue, withOutcome_eq_addAll, data_addAll]
  rfl

end Envelope

open ResultSet

/-- **The objects of a result hold its rows under its columns, and its single value is the first of them.** -/
theorem rows_under_columns (r : ResultSet) :
    (r.columns.Nodup → (∀ row ∈ r.rows, row.length = r.columns.length) →
      List.Forall₂ (fun row j => ∃ members, j = .object members ∧ Under r.columns row members) r.rows r.jsonRows ∧
      ∀ command o, o.result = r → ∃ value,
        (Envelope.ofSingleValue command o).data = some (.object [("value", value)]) ∧
        (Envelope.ofOutcome command o).data =
          some (.object [("columns", .strings r.columns), ("rows", .array r.jsonRows)]) ∧
        (∀ first others name names, r.jsonRows = first :: others → r.columns = name :: names →
          first.member? name = some value) ∧
        (r.rows = [] ∨ r.columns = [] → value = .null)) ∧
    List.Forall₂ (fun row j => ∃ members, j = .object members ∧ LastUnder r.columns row members) r.rows r.jsonRows := by
  refine ⟨fun hnodup hrows => ⟨?_, ?_⟩, ?_⟩
  · rw [jsonRows, List.forall₂_map_right_iff, List.forall₂_same]
    intro row hrow
    exact ⟨_, rowJson_of_nodup hnodup (hrows row hrow), under_pairs (hrows row hrow)⟩
  · rintro command o rfl
    refine ⟨_, Envelope.data_ofSingleValue command o, Envelope.data_ofOutcome command o, ?_, ?_⟩
    · intro first others name names hfirst hcolumns
      exact member?_first hnodup hrows hfirst hcolumns
    · intro hnone
      rw [single?_eq_none hrows hnone]
      rfl
  · rw [jsonRows, List.forall₂_map_right_iff, List.forall₂_same]
    intro row _
    exact ⟨_, rowJson_eq r.columns row, lastUnder_gathered r.columns row⟩

/-- the least integer, bytes, and a real that is no number beside a text that looks like the bytes -/
def sampleTyped : ResultSet :=
  ⟨["n", "b"], [[.integer Int64.minValue, .blob [0, 0xab, 0x1f]], [.real Binary64.nan, .text "00ab1f"]]⟩

/-- a name that comes back, and a cell too many -/
def sampleRepeated : ResultSet := ⟨["n", "m", "n"], [[.integer 1, .null, .integer 3, .integer 4]]⟩

theorem rows_under_columns_sample :
    (sampleTyped.columns.Nodup ∧ (∀ row ∈ sampleTyped.rows, row.length = sampleTyped.columns.length) ∧
      List.Forall₂ (fun row j => ∃ members, j = .object members ∧ Under sampleTyped.columns row members)
        sampleTyped.rows sampleTyped.jsonRows ∧
      (Envelope.ofSingleValue "report" ⟨sampleTyped, 1, []⟩).data =
        some (.object [("value", .integer (-9223372036854775808))])) ∧
      ∃ members, sampleRepeated.jsonRows = [.object members] ∧ members.map Prod.fst = ["n", "m"] ∧
        ∃ value, ("n", value) ∈ members ∧ (Value.integer 3).Encodes value := by
  have hnodup : sampleTyped.columns.Nodup := by decide
  have hrows : ∀ row ∈ sampleTyped.rows, row.length = sampleTyped.columns.length := by decide
  obtain ⟨hunder, hsingle⟩ := (rows_under_columns sampleTyped).1 hnodup hrows
  obtain ⟨value, hdata, -, hfirst, -⟩ := hsingle "report" ⟨sampleTyped, 1, []⟩ rfl
  have hvalue : value = .integer (-9223372036854775808) := Option.some.inj (hfirst _ _ _ _ rfl rfl).symm
  obtain ⟨members, hmembers, hlast⟩ := (List.forall₂_cons.1 (rows_under_columns sampleRepeated).2).1
  have hcolumns : sampleRepeated.columns = ["n", "m"] ++ "n" :: [] := rfl
  have hrow : [Value.integer 1, .null, .integer 3, .integer 4] = [.integer 1, .null] ++ .integer 3 :: [.integer 4] := rfl
  have hthird := hlast.last hcolumns hrow rfl (by decide)
  exact ⟨⟨hnodup, hrows, hunder, hvalue ▸ hdata⟩, members, congrArg (fun j => [j]) hmembers, hlast.names, hthird⟩

end LaunchReports
