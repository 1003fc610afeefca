/-
Values that are read back from their written form.

- `Json.Valid`: numbers are integers of 64 bits or reals that are read back (`Json.Kept`), and no object has a name twice.
- `Json.keys_gathered` and `Json.lookup_gathered`: an object from pairs has each name once, in the order of first
  occurrence, with its last value.
- `Json.Valid.spelled` and `Reader.json_ofJson`: the written form of such a value spells it, and it is read as itself.

The induction is that of `Json.Valid`: a list of items or members is read if each of them is.
-/
import LaunchReports.Proofs.Json.Records

namespace LaunchReports

namespace Json

/-- a real that its written form keeps -/
def Kept (x : Binary64) : Prop := Token.numberAt (numberText (.real x)) = (.ok (.real x), [])

/-- a value that its written form keeps -/
inductive Valid : Json → Prop
  | null : Valid .null
  | bool (b : Bool) : Valid (.bool b)
  | integer {n : Int} : fitsInt64 n = true ∨ fitsUInt64 n = true → Valid (.integer n)
  | real {x : Binary64} : Kept x → Valid (.number (.real x))
  | string (s : String) : Valid (.string s)
  | array {items : List Json} : (∀ j ∈ items, Valid j) → Valid (.array items)
  | object {members : List (String × Json)} :
      (members.map Prod.fst).Nodup → (∀ m ∈ members, Valid m.2) → Valid (.object members)

/-! ## Texts -/

theorem lexeme_mark {t : Token} (h : t.isMark = true) : Token.Lexeme t t.written := by
  cases t with
  | objectStart | objectEnd | arrayStart | arrayEnd | comma | colon => exact .mark rfl
  | null | bool | number | string | broken => cases h

theorem Valid.lexeme {j : Json} (h : j.Valid) : ∀ t ∈ j.tokens, Token.Lexeme t t.written := by
  induction h with
  | null => exact List.forall_mem_singleton.2 .null
  | bool b =>
    cases b with
    | false => exact List.forall_mem_singleton.2 .boolFalse
    | true => exact List.forall_mem_singleton.2 .boolTrue
  | integer hn => exact List.forall_mem_singleton.2 (.number (Token.numberAt_ofInt hn))
  | real hx => exact List.forall_mem_singleton.2 (.number hx)
  | string s => exact List.forall_mem_singleton.2 (.written trivial)
  | array _ ih =>
    rw [tokens, List.forall_mem_cons]
    exact ⟨.mark rfl, forall_mem_itemTokens (fun _ => lexeme_mark) ih⟩
  | object _ _ ih =>
    rw [tokens, List.forall_mem_cons]
    exact ⟨.mark rfl, forall_mem_memberTokens (fun _ => lexeme_mark) (fun _ => .written trivial) ih⟩

/-- the written form spells the value -/
theorem Valid.spelled {j : Json} (h : j.Valid) : j.Spelled j.chars := by
  rw [chars_eq]
  exact Token.spelled_written h.lexeme

/-! ## Objects from pairs -/

theorem insertMember_of_not_mem {key : String} {members : List (String × Json)} (h : key ∉ members.map Prod.fst)
    (value : Json) : insertMember key value members = members ++ [(key, value)] := by
  induction members with
  | nil => rfl
  | cons m rest ih =>
    rw [List.map_cons, List.mem_cons, not_or] at h
    rw [insertMember, if_neg (Ne.symm h.1), ih h.2]
    rfl

theorem keys_insertMember (key : String) (value : Json) (members : List (String × Json)) :
    (insertMember key value members).map Prod.fst =
      if key ∈ members.map Prod.fst then members.map Prod.fst else members.map Prod.fst ++ [key] := by
  induction members with
  | nil => rfl
  | cons m rest ih =>
    rw [insertMember]
    by_cases hk : m.1 = key
    · simp [hk]
    · simp only [if_neg hk, List.map_cons, ih, List.mem_cons, Ne.symm hk, false_or]
      split <;> rfl

theorem lookup_insertMember (key name : String) (value : Json) (members : List (String × Json)) :
    (insertMember key value members).lookup name = if name = key then some value else members.lookup name := by
  induction members with
  | nil => exact Keyed.lookup_cons_eq_ite ..
  | cons m rest ih =>
    rw [insertMember]
    by_cases hk : m.1 = key
    · rw [if_pos hk, Keyed.lookup_cons_eq_ite, Keyed.lookup_cons_eq_ite, hk]
      split_ifs <;> rfl
    · rw [if_neg hk, Keyed.lookup_cons_eq_ite, Keyed.lookup_cons_eq_ite, ih]
      by_cases hname : name = m.1
      · rw [if_pos hname, if_pos hname, if_neg fun e => hk (hname.symm.trans e)]
      · rw [if_neg hname, if_neg hname]

/-- the members of an object from pairs -/
def gathered (pairs : List (String × Json)) : List (String × Json) :=
  pairs.foldl (fun members p => insertMember p.1 p.2 members) []

variable {pairs : List (String × Json)}

theorem ofPairs_gathered (pairs : List (String × Json)) : ofPairs pairs = .object (gathered pairs) := rfl

theorem gathered_concat (pairs : List (String × Json)) (p : String × Json) :
    gathered (pairs ++ [p]) = insertMember p.1 p.2 (gathered pairs) := List.foldl_concat ..

/-- each name is there once, in the order of first occurrence -/
theorem keys_gathered (pairs : List (String × Json)) :
    (gathered pairs).map Prod.fst = (pairs.map Prod.fst).eraseDups := by
  induction pairs using List.reverseRecOn with
  | nil => rfl
  | append_singleton pairs p ih =>
    rw [gathered_concat, keys_insertMember, ih, List.map_append, List.eraseDups_append]
    by_cases hp : p.1 ∈ pairs.map Prod.fst <;> simp [hp, List.removeAll, List.eraseDups_cons]

/-- under each name is its last value -/
theorem lookup_gathered (pairs : List (String × Json)) (name : String) :
    (gathered pairs).lookup name = pairs.reverse.lookup name := by
  induction pairs using List.reverseRecOn with
  | nil => rfl
  | append_singleton pairs p ih =>
    rw [gathered_concat, lookup_insertMember, ih, List.reverse_append, List.reverse_singleton, List.singleton_append,
      Keyed.lookup_cons_eq_ite]

theorem nodup_keys_gathered (pairs : List (String × Json)) : ((gathered pairs).map Prod.fst).Nodup := by
  rw [keys_gathered]
  exact nodup_eraseDups _

theorem mem_gathered {m : String × Json} (h : m ∈ gathered pairs) : m ∈ pairs := by
  have hlast := lookup_gathered pairs m.1
  rw [lookup_of_mem (nodup_keys_gathered pairs) h] at hlast
  exact List.mem_reverse.1 (mem_of_lookup hlast.symm)

/-- an object whose names are distinct is made of its members -/
theorem ofPairs_of_nodup (h : (pairs.map Prod.fst).Nodup) : ofPairs pairs = .object pairs := by
  rw [ofPairs_gathered]
  congr
  induction pairs using List.reverseRecOn with
  | nil => rfl
  | append_singleton pairs p ih =>
    rw [List.map_append, List.nodup_append] at h
    have hnew : p.1 ∉ pairs.map Prod.fst := fun hp => h.2.2 p.1 hp p.1 List.mem_cons_self rfl
    rw [gathered_concat, ih h.1, insertMember_of_not_mem hnew]

/-- an object from pairs has each name once -/
theorem valid_ofPairs (h : ∀ p ∈ pairs, p.2.Valid) : (ofPairs pairs).Valid :=
  .object (nodup_keys_gathered pairs) fun m hm => h m (mem_gathered hm)

end Json

/-! ## Reading -/

namespace Reader

theorem jsonItems_ofItems {items : List Json} (h : ∀ j ∈ items, json (Draft.ofJson j) = .ok j) :
    jsonItems (Draft.ofItems items) = .ok items := by
  induction items with
  | nil => rfl
  | cons item rest ih =>
    rw [List.forall_mem_cons] at h
    rw [Draft.ofItems, jsonItems, h.1, ih h.2]
    rfl

theorem jsonMembers_ofMembers {members : List (String × Json)} (h : ∀ m ∈ members, json (Draft.ofJson m.2) = .ok m.2) :
    jsonMembers (Draft.ofMembers members) = .ok members := by
  induction members with
  | nil => rfl
  | cons m rest ih =>
    rw [List.forall_mem_cons] at h
    rw [Draft.ofMembers, jsonMembers, h.1, ih h.2]
    rfl

/-- a value is read as itself -/
theorem json_ofJson {j : Json} (h : j.Valid) : json (Draft.ofJson j) = .ok j := by
  induction h with
  | null | bool | integer | real | string => rfl
  | array _ ih =>
    rw [Draft.ofJson, json, jsonItems_ofItems ih]
    rfl
  | object hkeys _ ih =>
    rw [Draft.ofJson, json, jsonMembers_ofMembers ih]
    exact congrArg Except.ok (Json.ofPairs_of_nodup hkeys)

theorem bool_ofJson (b : Bool) : bool (Draft.ofJson (.bool b)) = .ok b := rfl

/-- the items of an array, each read in its own way -/
theorem list_ofJson {α β : Type} {encode : α → Json} {read : Reader β} {f : α → β} {as : List α}
    (h : ∀ a ∈ as, read (Draft.ofJson (encode a)) = .ok (f a)) :
    list read (Draft.ofJson (.array (as.map encode))) = .ok (as.map f) := by
  have hitems : (Draft.ofItems (as.map encode)).mapM read = .ok (as.map f) := by
    induction as with
    | nil => rfl
    | cons a rest ih =>
      rw [List.forall_mem_cons] at h
      rw [List.map_cons, Draft.ofItems, List.mapM_cons, h.1, ih h.2]
      rfl
  rw [Draft.ofJson, list, hitems]
  rfl

/-- what is read from the written form of a value is read from its draft -/
theorem parse_compact {α : Type} {read : Reader α} {j : Json} (h : j.Valid) :
    parse read j.compact.toList = read (Draft.ofJson j) := by
  rw [Json.compact, String.toList_ofList]
  exact parse_spelled read h.spelled

/-- the value of a field that is there -/
theorem required_ofMembers {α : Type} {list : List (String × Json)} (hkeys : (list.map Prod.fst).Nodup)
    {m : String × Json} (hm : m ∈ list) (read : Reader α) :
    required (Draft.ofMembers list) m.1 read = read (Draft.ofJson m.2) := by
  rw [required, Draft.lookup_ofMembers hkeys hm]

end Reader

end LaunchReports
