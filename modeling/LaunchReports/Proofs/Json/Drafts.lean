/-
The texts of JSON values, and the drafts that are made of them.

- `Json.Spelled`: a text spells a value if it spells the tokens of the value; blanks and escapes do not matter.
- `Reader.parse_spelled`: a reader takes from such a text what it takes from the value's own draft.
- `Json.spelled_chars`: the written form of a value without reals spells it.
-/
import LaunchReports.Proofs.Json.Spelling
import LaunchReports.Json.Reading

namespace LaunchReports

/-! ## Tokens of values -/

namespace Json

mutual

/-- the tokens of a value -/
def tokens : Json → List Token
  | .null => [.null]
  | .bool b => [.bool b]
  | .number n => [.number n]
  | .string s => [.string s]
  | .array items => .arrayStart :: itemTokens items
  | .object members => .objectStart :: memberTokens members

/-- the tokens of the items of an array and of its closing bracket -/
def itemTokens : List Json → List Token
  | [] => [.arrayEnd]
  | [item] => item.tokens ++ [.arrayEnd]
  | item :: next :: rest => item.tokens ++ .comma :: itemTokens (next :: rest)

/-- the tokens of the members of an object and of its closing brace -/
def memberTokens : List (String × Json) → List Token
  | [] => [.objectEnd]
  | [(key, value)] => .string key :: .colon :: (value.tokens ++ [.objectEnd])
  | (key, value) :: next :: rest => .string key :: .colon :: (value.tokens ++ .comma :: memberTokens (next :: rest))

end

/-- a text that spells the value: each token in one of its texts, white space between them and at both ends -/
def Spelled (j : Json) (text : List Char) : Prop := Token.Spelled j.tokens text

/-- a value begins with a token that ends nothing -/
theorem tokens_first (j : Json) : ∃ t ts, j.tokens = t :: ts ∧ t ≠ .arrayEnd ∧ t ≠ .objectEnd := by
  cases j <;> exact ⟨_, _, tokens.eq_def _, nofun, nofun⟩

end Json

/-! ## Drafts of values -/

namespace Draft

mutual

/-- the draft of a value -/
def ofJson : Json → Draft
  | .null => .null
  | .bool b => .bool b
  | .number n => .number n
  | .string s => .string s
  | .array items => .array (ofItems items) .closed
  | .object members => .object (ofMembers members) .closed

def ofItems : List Json → List Draft
  | [] => []
  | item :: rest => ofJson item :: ofItems rest

def ofMembers : List (String × Json) → List (String × Draft)
  | [] => []
  | (key, value) :: rest => (key, ofJson value) :: ofMembers rest

end

theorem ofMembers_eq_map (members : List (String × Json)) :
    ofMembers members = members.map fun m => (m.1, ofJson m.2) := by
  induction members with
  | nil => rfl
  | cons m rest ih => rw [ofMembers, ih, List.map_cons]

/-! ### One step of a draft -/

theorem value_arrayStart {ts : List Token} (h : ts.head? ≠ some .arrayEnd) :
    (value (.arrayStart :: ts)).1 = .array (items .opening ts).1 (items .opening ts).2.1 ∧
      (value (.arrayStart :: ts)).2.val = (items .opening ts).2.2.val := by
  rw [value]
  · exact ⟨rfl, rfl⟩
  · rintro rest rfl
    exact h rfl

theorem value_objectStart {ts : List Token} (h : ts.head? ≠ some .objectEnd) :
    (value (.objectStart :: ts)).1 = .object (members .opening ts).1 (members .opening ts).2.1 ∧
      (value (.objectStart :: ts)).2.val = (members .opening ts).2.2.val := by
  rw [value]
  · exact ⟨rfl, rfl⟩
  · rintro rest rfl
    exact h rfl

/-- nothing follows where a bracket stands in the place of a value -/
theorem value_arrayEnd (ts : List Token) : (value (.arrayEnd :: ts)).2.val = [] := by
  rw [value]
  rfl

/-- what follows a value stands behind a first token that is one of the value -/
theorem exists_first {ts more : List Token} {t : Token} (h : (value ts).2.val = t :: more) :
    ∃ first rest, ts = first :: rest ∧ first ≠ .arrayEnd := by
  match ts, h with
  | [], h =>
    rw [value] at h
    cases h
  | first :: rest, h =>
    refine ⟨first, rest, rfl, ?_⟩
    rintro rfl
    rw [value_arrayEnd] at h
    cases h

/-- an item, a comma and more items -/
theorem items_comma {ts more : List Token} (place : Place) (h : (value ts).2.val = .comma :: more) :
    (items place ts).1 = (value ts).1 :: (items .comma more).1 ∧ (items place ts).2.1 = (items .comma more).2.1 ∧
      (items place ts).2.2.val = (items .comma more).2.2.val := by
  obtain ⟨t, ts, rfl, ht⟩ := exists_first h
  rcases hv : value (t :: ts) with ⟨item, after, hafter⟩
  rw [hv] at h
  obtain rfl : after = _ := h
  rw [items, hv]
  · exact ⟨rfl, rfl, rfl⟩
  · exact ht

/-- the last item and the closing bracket -/
theorem items_arrayEnd {ts more : List Token} (place : Place) (h : (value ts).2.val = .arrayEnd :: more) :
    (items place ts).1 = [(value ts).1] ∧ (items place ts).2.1 = .closed ∧ (items place ts).2.2.val = more := by
  obtain ⟨t, ts, rfl, ht⟩ := exists_first h
  rcases hv : value (t :: ts) with ⟨item, after, hafter⟩
  rw [hv] at h
  obtain rfl : after = _ := h
  rw [items, hv]
  · exact ⟨rfl, rfl, rfl⟩
  · exact ht

/-- a member, a comma and more members -/
theorem members_comma (key : String) {ts more : List Token} (place : Place)
    (h : (value ts).2.val = .comma :: more) :
    (members place (.string key :: .colon :: ts)).1 = (key, (value ts).1) :: (members .comma more).1 ∧
      (members place (.string key :: .colon :: ts)).2.1 = (members .comma more).2.1 ∧
      (members place (.string key :: .colon :: ts)).2.2.val = (members .comma more).2.2.val := by
  rcases hv : value ts with ⟨item, after, hafter⟩
  rw [hv] at h
  obtain rfl : after = _ := h
  rw [members, hv]
  exact ⟨rfl, rfl, rfl⟩

/-- the last member and the closing brace -/
theorem members_objectEnd (key : String) {ts more : List Token} (place : Place)
    (h : (value ts).2.val = .objectEnd :: more) :
    (members place (.string key :: .colon :: ts)).1 = [(key, (value ts).1)] ∧
      (members place (.string key :: .colon :: ts)).2.1 = .closed ∧
      (members place (.string key :: .colon :: ts)).2.2.val = more := by
  rcases hv : value ts with ⟨item, after, hafter⟩
  rw [hv] at h
  obtain rfl : after = _ := h
  rw [members, hv]
  exact ⟨rfl, rfl, rfl⟩

/-! ### Whole values -/

theorem itemTokens_first (item : Json) (more : List Json) (rest : List Token) :
    (Json.itemTokens (item :: more) ++ rest).head? ≠ some .arrayEnd := by
  obtain ⟨t, ts, ht, hne, -⟩ := item.tokens_first
  cases more <;>
  · rw [Json.itemTokens, ht]
    exact fun e => hne (Option.some.inj e)

theorem memberTokens_first (m : String × Json) (more : List (String × Json)) (rest : List Token) :
    (Json.memberTokens (m :: more) ++ rest).head? ≠ some .objectEnd := by
  cases more <;>
  · rw [Json.memberTokens]
    nofun

mutual

/-- the tokens of a value are taken for its draft, whatever follows them -/
theorem value_tokens (j : Json) (rest : List Token) :
    (value (j.tokens ++ rest)).1 = ofJson j ∧ (value (j.tokens ++ rest)).2.val = rest := by
  match j with
  | .null | .bool _ | .number _ | .string _ =>
    rw [Json.tokens, List.singleton_append, value, ofJson]
    exact ⟨rfl, rfl⟩
  | .array [] =>
    rw [Json.tokens, Json.itemTokens, List.cons_append, List.singleton_append, value, ofJson, ofItems]
    exact ⟨rfl, rfl⟩
  | .array (item :: more) =>
    obtain ⟨hvalue, hrest⟩ := value_arrayStart (itemTokens_first item more rest)
    obtain ⟨hlist, hending, hafter⟩ := items_tokens .opening (item :: more) (List.cons_ne_nil _ _) rest
    rw [Json.tokens, List.cons_append, hvalue, hrest, hlist, hending, ofJson]
    exact ⟨rfl, hafter⟩
  | .object [] =>
    rw [Json.tokens, Json.memberTokens, List.cons_append, List.singleton_append, value, ofJson, ofMembers]
    exact ⟨rfl, rfl⟩
  | .object (m :: more) =>
    obtain ⟨hvalue, hrest⟩ := value_objectStart (memberTokens_first m more rest)
    obtain ⟨hlist, hending, hafter⟩ := members_tokens .opening (m :: more) (List.cons_ne_nil _ _) rest
    rw [Json.tokens, List.cons_append, hvalue, hrest, hlist, hending, ofJson]
    exact ⟨rfl, hafter⟩

theorem items_tokens (place : Place) (list : List Json) (h : list ≠ []) (rest : List Token) :
    (items place (Json.itemTokens list ++ rest)).1 = ofItems list ∧
      (items place (Json.itemTokens list ++ rest)).2.1 = .closed ∧
      (items place (Json.itemTokens list ++ rest)).2.2.val = rest := by
  match list, h with
  | [item], _ =>
    obtain ⟨hvalue, hafter⟩ := value_tokens item (.arrayEnd :: rest)
    have hstep := items_arrayEnd place hafter
    rw [hvalue] at hstep
    rw [Json.itemTokens, List.append_assoc, List.singleton_append, ofItems, ofItems]
    exact hstep
  | item :: next :: more, _ =>
    obtain ⟨hvalue, hafter⟩ := value_tokens item (.comma :: (Json.itemTokens (next :: more) ++ rest))
    obtain ⟨hlist, hending, hrest⟩ := items_tokens .comma (next :: more) (List.cons_ne_nil _ _) rest
    have hstep := items_comma place hafter
    rw [hvalue, hlist, hending, hrest] at hstep
    rw [Json.itemTokens, List.append_assoc, List.cons_append, ofItems]
    exact hstep

theorem members_tokens (place : Place) (list : List (String × Json)) (h : list ≠ []) (rest : List Token) :
    (members place (Json.memberTokens list ++ rest)).1 = ofMembers list ∧
      (members place (Json.memberTokens list ++ rest)).2.1 = .closed ∧
      (members place (Json.memberTokens list ++ rest)).2.2.val = rest := by
  match list, h with
  | [(key, item)], _ =>
    obtain ⟨hvalue, hafter⟩ := value_tokens item (.objectEnd :: rest)
    have hstep := members_objectEnd key place hafter
    rw [hvalue] at hstep
    rw [Json.memberTokens, ofMembers, ofMembers, List.cons_append, List.cons_append, List.append_assoc,
      List.singleton_append]
    exact hstep
  | (key, item) :: next :: more, _ =>
    obtain ⟨hvalue, hafter⟩ := value_tokens item (.comma :: (Json.memberTokens (next :: more) ++ rest))
    obtain ⟨hlist, hending, hrest⟩ := members_tokens .comma (next :: more) (List.cons_ne_nil _ _) rest
    have hstep := members_comma key place hafter
    rw [hvalue, hlist, hending, hrest] at hstep
    rw [Json.memberTokens, ofMembers, List.cons_append, List.cons_append, List.append_assoc, List.cons_append]
    exact hstep

end

end Draft

/-! ## Reading what is spelled -/

/-- a mark, a string or a word does not care what follows -/
theorem Token.Apart.cons {t : Token} {ts : List Token} (h : Apart ts) (ht : ∀ n, t ≠ .number n) : Apart (t :: ts) :=
  List.isChain_cons.2 ⟨fun _ _ ⟨n, hn⟩ => absurd hn (ht n), h⟩

namespace Json

mutual

theorem apart_tokens (j : Json) {rest : List Token} (h : Token.Apart rest)
    (hmark : ∀ t ∈ rest.head?, t.isMark = true) : Token.Apart (j.tokens ++ rest) := by
  match j with
  | .null | .bool _ | .string _ =>
    rw [tokens]
    exact h.cons nofun
  | .number n =>
    rw [tokens]
    exact List.isChain_cons.2 ⟨fun u hu _ => hmark u hu, h⟩
  | .array items =>
    rw [tokens]
    exact (apart_itemTokens items h).cons nofun
  | .object members =>
    rw [tokens]
    exact (apart_memberTokens members h).cons nofun

theorem apart_itemTokens (items : List Json) {rest : List Token} (h : Token.Apart rest) :
    Token.Apart (itemTokens items ++ rest) := by
  match items with
  | [] =>
    rw [itemTokens]
    exact h.cons nofun
  | [item] =>
    have hend : Token.Apart (.arrayEnd :: rest) := h.cons nofun
    rw [itemTokens, List.append_assoc]
    exact apart_tokens item hend (by rintro t ⟨⟩; rfl)
  | item :: next :: more =>
    have hmore : Token.Apart (.comma :: (itemTokens (next :: more) ++ rest)) :=
      (apart_itemTokens (next :: more) h).cons nofun
    rw [itemTokens, List.append_assoc]
    exact apart_tokens item hmore (by rintro t ⟨⟩; rfl)

theorem apart_memberTokens (members : List (String × Json)) {rest : List Token} (h : Token.Apart rest) :
    Token.Apart (memberTokens members ++ rest) := by
  match members with
  | [] =>
    rw [memberTokens]
    exact h.cons nofun
  | [(key, item)] =>
    have hend : Token.Apart (.objectEnd :: rest) := h.cons nofun
    have hvalue : Token.Apart (.colon :: (item.tokens ++ .objectEnd :: rest)) :=
      (apart_tokens item hend (by rintro t ⟨⟩; rfl)).cons nofun
    rw [memberTokens, List.cons_append, List.cons_append, List.append_assoc]
    exact hvalue.cons nofun
  | (key, item) :: next :: more =>
    have hmore : Token.Apart (.comma :: (memberTokens (next :: more) ++ rest)) :=
      (apart_memberTokens (next :: more) h).cons nofun
    have hvalue : Token.Apart (.colon :: (item.tokens ++ .comma :: (memberTokens (next :: more) ++ rest))) :=
      (apart_tokens item hmore (by rintro t ⟨⟩; rfl)).cons nofun
    rw [memberTokens, List.cons_append, List.cons_append, List.append_assoc]
    exact hvalue.cons nofun

end

end Json

/-- **What is read from a text that spells a value is read from the draft of the value.** -/
theorem Reader.parse_spelled {α : Type} (read : Reader α) {j : Json} {text : List Char} (h : j.Spelled text) :
    Reader.parse read text = read (Draft.ofJson j) := by
  have happart : Token.Apart (j.tokens ++ []) := j.apart_tokens .nil nofun
  rw [List.append_nil] at happart
  have htokens : Token.tokens text = j.tokens := Token.tokens_of_spelled h happart
  obtain ⟨hroot, hrest⟩ := Draft.value_tokens j []
  rw [List.append_nil] at hroot hrest
  rw [Reader.parse, Draft.ofText, htokens, Draft.ofTokens]
  simp only [hroot, hrest]
  cases read (Draft.ofJson j) <;> rfl

/-! ## Written forms -/

namespace Json

mutual

theorem chars_eq (j : Json) : j.chars = j.tokens.flatMap Token.written := by
  match j with
  | .null | .bool true | .bool false | .number _ | .string _ =>
    rw [chars, tokens, List.flatMap_singleton]
    rfl
  | .array items =>
    rw [chars, tokens, List.flatMap_cons, itemChars_eq]
    rfl
  | .object members =>
    rw [chars, tokens, List.flatMap_cons, memberChars_eq]
    rfl

theorem itemChars_eq (items : List Json) : itemChars items = (itemTokens items).flatMap Token.written := by
  match items with
  | [] => rfl
  | [item] =>
    rw [itemChars, itemTokens, List.flatMap_append, ← chars_eq]
    rfl
  | item :: next :: more =>
    rw [itemChars, itemTokens, List.flatMap_append, List.flatMap_cons, ← chars_eq, itemChars_eq]
    rfl

theorem memberChars_eq (members : List (String × Json)) :
    memberChars members = (memberTokens members).flatMap Token.written := by
  match members with
  | [] => rfl
  | [(key, item)] =>
    rw [memberChars, memberTokens, List.flatMap_cons, List.flatMap_cons, List.flatMap_append, ← chars_eq]
    rfl
  | (key, item) :: next :: more =>
    rw [memberChars, memberTokens, List.flatMap_cons, List.flatMap_cons, List.flatMap_append, List.flatMap_cons,
      ← chars_eq, memberChars_eq]
    rfl

end

section

variable {P : Token → Prop}

/-- what is true of marks and of the tokens of the items is true of the tokens of an array -/
theorem forall_mem_itemTokens (hmark : ∀ t, t.isMark = true → P t) {items : List Json}
    (h : ∀ j ∈ items, ∀ t ∈ j.tokens, P t) : ∀ t ∈ itemTokens items, P t := by
  induction items with
  | nil => exact List.forall_mem_singleton.2 (hmark _ rfl)
  | cons item rest ih =>
    rw [List.forall_mem_cons] at h
    cases rest with
    | nil =>
      rw [itemTokens, List.forall_mem_append, List.forall_mem_singleton]
      exact ⟨h.1, hmark _ rfl⟩
    | cons next more =>
      rw [itemTokens, List.forall_mem_append, List.forall_mem_cons]
      exact ⟨h.1, hmark _ rfl, ih h.2⟩

/-- likewise for an object and the names of its members -/
theorem forall_mem_memberTokens (hmark : ∀ t, t.isMark = true → P t) (hname : ∀ s, P (.string s))
    {members : List (String × Json)} (h : ∀ m ∈ members, ∀ t ∈ m.2.tokens, P t) : ∀ t ∈ memberTokens members, P t := by
  induction members with
  | nil => exact List.forall_mem_singleton.2 (hmark _ rfl)
  | cons m rest ih =>
    rw [List.forall_mem_cons] at h
    cases rest with
    | nil =>
      rw [memberTokens, List.forall_mem_cons, List.forall_mem_cons, List.forall_mem_append, List.forall_mem_singleton]
      exact ⟨hname _, hmark _ rfl, h.1, hmark _ rfl⟩
    | cons next more =>
      rw [memberTokens, List.forall_mem_cons, List.forall_mem_cons, List.forall_mem_append, List.forall_mem_cons]
      exact ⟨hname _, hmark _ rfl, h.1, hmark _ rfl, ih h.2⟩

end

/-- a value whose numbers are integers of 64 bits -/
def Exact (j : Json) : Prop := ∀ t ∈ j.tokens, t.Exact

/-- the written form spells the value -/
theorem spelled_chars {j : Json} (h : j.Exact) : j.Spelled j.chars := by
  rw [chars_eq]
  exact Token.spelled_written fun t ht => .written (h t ht)

theorem exact_null : null.Exact := by simp [Exact, tokens, Token.Exact]

theorem exact_string (s : String) : (string s).Exact := by simp [Exact, tokens, Token.Exact]

theorem exact_integer {n : Int} (h : fitsInt64 n = true ∨ fitsUInt64 n = true) : (integer n).Exact := by
  simpa [Exact, integer, tokens, Token.Exact] using h

theorem exact_ofOption {α : Type} {encode : α → Json} {a : Option α} (h : ∀ b ∈ a, (encode b).Exact) :
    (ofOption encode a).Exact := by
  cases a with
  | none => exact exact_null
  | some b => exact h b rfl

theorem exact_object {members : List (String × Json)} (h : ∀ m ∈ members, m.2.Exact) : (object members).Exact := by
  have hmark : ∀ t : Token, t.isMark = true → t.Exact := by
    intro t ht
    cases t with
    | objectStart | objectEnd | arrayStart | arrayEnd | comma | colon => trivial
    | null | bool | number | string | broken => cases ht
  rw [Exact, tokens, List.forall_mem_cons]
  exact ⟨trivial, forall_mem_memberTokens hmark (fun _ => trivial) h⟩

end Json

end LaunchReports
