/-
The JSON forms of a request.

`Request.Form` says which JSON values stand for a request: an object with the members in any order, or an array of the
first few of their values, both with the filters in any order. Members at their default may be missing.

- `Request.parse_form`: a request is read from every text of every form.
- `Request.form_toJson`: the written form is one of them.
- `Request.parse_refused`: an object with an unknown name, or with a name twice, is no request.
-/
import LaunchReports.Report.Request
import LaunchReports.Proofs.Json.Records

namespace LaunchReports

namespace Request

/-! ## Forms -/

/-- a value for each field, with the filters in a given order -/
def values (r : Request) (filters : List (String × Option String)) : List (String × Json) :=
  [("query", .string r.query.key), ("filters", .object (filters.map fun p => (p.1, .ofOption .string p.2))),
    ("group", .ofOption .string r.group), ("order", .ofOption .string r.order),
    ("limit", .ofOption (fun n => .integer n.toNat) r.limit)]

/-- the fields at their defaults -/
def defaults : List (String × Json) := everything.values []

/-- the JSON values that stand for a request -/
inductive Form (r : Request) : Json → Prop
  | object {filters : List (String × Option String)} {list : List (String × Json)} :
    filters.Perm r.filters.entries → list.Subperm (r.values filters) →
    (∀ m ∈ r.values filters, m ∈ list ∨ m ∈ defaults) → Form r (.object list)
  | array {filters : List (String × Option String)} {list : List (String × Json)} :
    filters.Perm r.filters.entries → list <+: r.values filters →
    (∀ m ∈ r.values filters, m ∈ list ∨ m ∈ defaults) → Form r (.array (list.map Prod.snd))

/-! ## Fields -/

theorem readQuery_key (q : Query) : readQuery (Draft.ofJson (.string q.key)) = .ok q := by
  rw [Draft.ofJson]
  cases q <;> rfl

theorem readText_ofJson (s : Option String) : readText (Draft.ofJson (.ofOption .string s)) = .ok s :=
  Reader.optional_ofJson nofun Reader.string_ofJson s

theorem readLimit_ofJson (n : Option UInt64) :
    readLimit (Draft.ofJson (.ofOption (fun n => .integer n.toNat) n)) = .ok n :=
  Reader.optional_ofJson nofun Reader.uint64_ofJson n

theorem readFilters_ofJson {f : Filters} {filters : List (String × Option String)} (h : filters.Perm f.entries) :
    readFilters (Draft.ofJson (.object (filters.map fun p => (p.1, .ofOption .string p.2)))) = .ok f := by
  have hread : ∀ p ∈ filters, readText (Draft.ofJson (.ofOption .string p.2)) = .ok p.2 := fun p _ => readText_ofJson p.2
  have hpairs := Reader.map_ofJson hread
  rw [readText] at hpairs
  rw [readFilters, hpairs]
  exact congrArg Except.ok (f.ofPairs_eq h)

variable {r : Request} {filters : List (String × Option String)} {list : List (String × Json)}

theorem filled_values (h : filters.Perm r.filters.entries) : shape.Filled (r.values filters) :=
  .cons ⟨rfl, Reader.check_eq_ok (readQuery_key _)⟩ <|
    .cons ⟨rfl, Reader.check_eq_ok (readFilters_ofJson h)⟩ <|
    .cons ⟨rfl, Reader.check_eq_ok (readText_ofJson _)⟩ <|
    .cons ⟨rfl, Reader.check_eq_ok (readText_ofJson _)⟩ <|
    .cons ⟨rfl, Reader.check_eq_ok (readLimit_ofJson _)⟩ .nil

theorem names_nodup : shape.names.Nodup := by decide

/-- a field among members, or at its default where it is missing -/
theorem withDefault_eq {α : Type} (hkeys : ((r.values filters).map Prod.fst).Nodup)
    (hlist : list.Subperm (r.values filters)) (hrest : ∀ m ∈ r.values filters, m ∈ list ∨ m ∈ defaults)
    {name : String} {j absentJson : Json} (hj : (name, j) ∈ r.values filters) (habsent : (name, absentJson) ∈ defaults)
    {read : Reader α} {a absent : α} (hread : read (Draft.ofJson j) = .ok a)
    (hreadAbsent : read (Draft.ofJson absentJson) = .ok absent) :
    Reader.withDefault (Draft.ofMembers list) name read absent = .ok a := by
  have hthere : (name, j) ∈ list ∨ read (Draft.ofJson j) = .ok absent := by
    refine (hrest _ hj).imp_right fun hdefault => ?_
    have hnodup : (defaults.map Prod.fst).Nodup := by decide
    obtain rfl : j = absentJson := congrArg Prod.snd (List.inj_on_of_nodup_map hnodup hdefault habsent rfl)
    exact hreadAbsent
  rw [Reader.withDefault_ofMembers hkeys hlist hj hthere, hread]

theorem read_members (h : filters.Perm r.filters.entries) (hlist : list.Subperm (r.values filters))
    (hrest : ∀ m ∈ r.values filters, m ∈ list ∨ m ∈ defaults) {d : Draft}
    (hd : shape.members d = .ok (Draft.ofMembers list)) : read d = .ok r := by
  have hkeys : ((r.values filters).map Prod.fst).Nodup := (filled_values h).names_eq ▸ names_nodup
  have hquery : Reader.withDefault (Draft.ofMembers list) "query" readQuery .messageCount = .ok r.query :=
    withDefault_eq hkeys hlist hrest (.head _) (.head _) (readQuery_key _) (readQuery_key _)
  have hfilters : Reader.withDefault (Draft.ofMembers list) "filters" readFilters .empty = .ok r.filters :=
    withDefault_eq hkeys hlist hrest (.tail _ (.head _)) (.tail _ (.head _)) (readFilters_ofJson h)
      (readFilters_ofJson (f := .empty) (.refl _))
  have hgroup : Reader.withDefault (Draft.ofMembers list) "group" readText none = .ok r.group :=
    withDefault_eq hkeys hlist hrest (.tail _ (.tail _ (.head _))) (.tail _ (.tail _ (.head _))) (readText_ofJson _)
      (readText_ofJson none)
  have horder : Reader.withDefault (Draft.ofMembers list) "order" readText none = .ok r.order :=
    withDefault_eq hkeys hlist hrest (.tail _ (.tail _ (.tail _ (.head _)))) (.tail _ (.tail _ (.tail _ (.head _))))
      (readText_ofJson _) (readText_ofJson none)
  have hlimit : Reader.withDefault (Draft.ofMembers list) "limit" readLimit none = .ok r.limit :=
    withDefault_eq hkeys hlist hrest (.tail _ (.tail _ (.tail _ (.tail _ (.head _)))))
      (.tail _ (.tail _ (.tail _ (.tail _ (.head _))))) (readLimit_ofJson _) (readLimit_ofJson none)
  rw [read, hd]
  simp only [bind, Except.bind, hquery, hfilters, hgroup, horder, hlimit]
  rfl

/-- what stands for a request is read as that request -/
theorem Form.read_eq {j : Json} (h : Form r j) : Request.read (Draft.ofJson j) = .ok r := by
  cases h with
  | object hfilters hlist hrest =>
    exact read_members hfilters hlist hrest (Shape.members_object names_nodup (filled_values hfilters) hlist)
  | @array filters list hfilters hlist hrest =>
    have hoptional : ∀ f ∈ shape.fields, f.optional = true := by decide
    have hmembers := Shape.members_array (filled_values hfilters) hlist fun f hf =>
      hoptional f (List.mem_of_mem_drop hf)
    exact read_members hfilters hlist.sublist.subperm hrest hmembers

/-! ## The written form -/

theorem members_sublist (r : Request) : r.members.Sublist (r.values r.filters.entries) :=
  (((List.Sublist.refl _).append (Json.present_sublist ..)).append (Json.present_sublist ..)).append
    (Json.present_sublist ..)

theorem form_toJson (r : Request) : Form r r.toJson := by
  refine .object (.refl _) r.members_sublist.subperm fun m hm => ?_
  simp only [values, List.mem_cons, List.not_mem_nil, or_false] at hm
  simp only [members, List.mem_append]
  rcases hm with rfl | rfl | rfl | rfl | rfl
  · exact .inl (.inl (.inl (.inl (.head _))))
  · exact .inl (.inl (.inl (.inl (.tail _ (.head _)))))
  · refine (Json.mem_present "group" .string r.group).imp (fun h => .inl (.inl (.inr h))) fun h => ?_
    rw [h]
    exact .tail _ (.tail _ (.head _))
  · refine (Json.mem_present "order" .string r.order).imp (fun h => .inl (.inr h)) fun h => ?_
    rw [h]
    exact .tail _ (.tail _ (.tail _ (.head _)))
  · refine (Json.mem_present "limit" _ r.limit).imp .inr fun h => ?_
    rw [h]
    exact .tail _ (.tail _ (.tail _ (.tail _ (.head _))))

theorem exact_toJson (r : Request) : r.toJson.Exact := by
  refine Json.exact_object fun m hm => ?_
  have hmember := r.members_sublist.subset hm
  simp only [values, List.mem_cons, List.not_mem_nil, or_false] at hmember
  rcases hmember with rfl | rfl | rfl | rfl | rfl
  · exact Json.exact_string _
  · refine Json.exact_object fun m hm => ?_
    obtain ⟨p, -, rfl⟩ := List.mem_map.1 hm
    exact Json.exact_ofOption fun s _ => Json.exact_string s
  · exact Json.exact_ofOption fun s _ => Json.exact_string s
  · exact Json.exact_ofOption fun s _ => Json.exact_string s
  · exact Json.exact_ofOption fun n _ => Json.exact_integer (.inr (fitsUInt64_toNat n))

/-! ## Texts -/

theorem parse_form {j : Json} {text : List Char} (hform : Form r j) (htext : j.Spelled text) : parse text = .ok r := by
  rw [parse, Reader.parse_spelled _ htext, hform.read_eq]

theorem parse_refused {list : List (String × Json)} {text : List Char} (htext : (Json.object list).Spelled text)
    (h : (∃ m ∈ list, m.1 ∉ shape.names) ∨ ¬ (list.map Prod.fst).Nodup) : ∃ e, parse text = .error e := by
  obtain ⟨e, he⟩ := Shape.members_refused (s := shape) rfl h
  rw [parse, Reader.parse_spelled _ htext, read, he]
  exact ⟨e, rfl⟩

/-- **A request is read from its written form and from every text of every form of it; an object with a name that is
no field of a request, or with a name twice, is refused.** -/
theorem parse_forms (r : Request) :
    parse r.toJson.compact.toList = .ok r ∧
      (∀ j text, Form r j → j.Spelled text → parse text = .ok r) ∧
      ∀ (list : List (String × Json)) (text : List Char), (Json.object list).Spelled text →
        ((∃ m ∈ list, m.1 ∉ ["query", "filters", "group", "order", "limit"]) ∨ ¬ (list.map Prod.fst).Nodup) →
        ∃ e, parse text = .error e := by
  refine ⟨?_, fun j text => parse_form, fun list text => parse_refused⟩
  rw [Json.compact, String.toList_ofList]
  exact parse_form r.form_toJson (Json.spelled_chars r.exact_toJson)

/-- two members in another order, the other three at their defaults -/
def sampleForm : Json := .object [("limit", .integer 3), ("query", .string "session_count")]

def sampleText : String := " \x7b\"limit\" :3,\n\"query\":\"session_count\"\x7d\t"

theorem spelled_sampleText : sampleForm.Spelled sampleText.toList := by
  have htext : sampleText.toList =
      [' '] ++ (['{'] ++ ([] ++ (Json.quoted "limit" ++ ([' '] ++ ([':'] ++ ([] ++ (['3'] ++ ([] ++ ([','] ++
        (['\n'] ++ (Json.quoted "query" ++ ([] ++ ([':'] ++ ([] ++ (Json.quoted "session_count" ++ ([] ++ (['}'] ++
        ['\t']))))))))))))))))) := by
    decide
  rw [htext]
  exact .cons rfl (.mark rfl) <| .cons rfl (.written trivial) <| .cons rfl (.mark rfl) <| .cons rfl (.number rfl) <|
    .cons rfl (.mark rfl) <| .cons rfl (.written trivial) <| .cons rfl (.mark rfl) <| .cons rfl (.written trivial) <|
    .cons rfl (.mark rfl) <| .nil rfl

theorem form_sampleForm : Form ⟨.sessionCount, .empty, none, none, some 3⟩ sampleForm := by
  refine .object (.refl _) ⟨_, .swap .., .cons_cons _ (.cons _ (.cons _ (.cons _ (.cons_cons _ .slnil))))⟩ ?_
  simp [values, defaults, everything, Keyed.empty, Json.ofOption, Query.key]

theorem parse_forms_sample :
    parse sampleText.toList = .ok ⟨.sessionCount, .empty, none, none, some 3⟩ ∧
      ∃ e, parse (Json.object [("limit", .null), ("limit", .null)]).chars = .error e := by
  obtain ⟨-, hread, hrefused⟩ := parse_forms ⟨.sessionCount, .empty, none, none, some 3⟩
  refine ⟨hread sampleForm _ form_sampleForm spelled_sampleText, ?_⟩
  refine hrefused _ _ (Json.spelled_chars ?_) (.inr (by decide))
  exact Json.exact_object (by simp [Json.exact_null])

end Request

end LaunchReports
