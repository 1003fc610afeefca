/-
The written form of an envelope, and what is read from it.

Data or details that are `null` are read as absent, and nothing else is lost.

- `Envelope.parse_text`: an envelope whose values keep their written form is read back without these nulls.
- `Envelope.Stamped.parse_text`: likewise for an envelope with the time at which it was made.

Both are one statement about the members with some others after the command.
-/
import LaunchReports.Proofs.Json.Values
import LaunchReports.Report.Envelope

namespace LaunchReports

/-! ## Optional values -/

namespace Json

/-- the value, unless it is `null` -/
def nonNull? : Json → Option Json
  | .null => none
  | j => some j

theorem nonNull?_eq_some {i j : Json} : i.nonNull? = some j ↔ i = j ∧ j ≠ .null := by
  cases i with
  | null =>
    refine ⟨nofun, ?_⟩
    rintro ⟨rfl, h⟩
    exact absurd rfl h
  | bool | number | string | array | object =>
    constructor
    · rintro ⟨⟩
      exact ⟨rfl, nofun⟩
    · rintro ⟨rfl, -⟩
      rfl

theorem bind_nonNull?_eq_some {a : Option Json} {j : Json} : a.bind nonNull? = some j ↔ a = some j ∧ j ≠ .null := by
  cases a with
  | none => exact ⟨nofun, nofun⟩
  | some i => rw [Option.bind_some, nonNull?_eq_some, Option.some.injEq]

theorem bind_nonNull?_eq_self {a : Option Json} (h : ∀ j ∈ a, j ≠ .null) : a.bind nonNull? = a := by
  cases a with
  | none => rfl
  | some j => exact bind_nonNull?_eq_some.2 ⟨rfl, h j rfl⟩

theorem valid_ofOption {α : Type} {encode : α → Json} {a : Option α} (h : ∀ b ∈ a, (encode b).Valid) :
    (ofOption encode a).Valid := by
  cases a with
  | none => exact .null
  | some b => exact h b rfl

end Json

namespace Reader

theorem optional_json {a : Option Json} (h : ∀ j ∈ a, j.Valid) :
    optional json (Draft.ofJson (.ofOption id a)) = .ok (a.bind Json.nonNull?) := by
  cases a with
  | none => rfl
  | some j =>
    have hread := json_ofJson (h j rfl)
    cases j with
    | null => rfl
    | bool | number | string | array | object => exact congrArg (Except.map some) hread

/-- a member that is left out where there is no value -/
theorem optional_ofMembers {α β : Type} {full list : List (String × Json)} (hkeys : (full.map Prod.fst).Nodup)
    (hlist : list.Subperm full) {key : String} {encode : α → Json} {a : Option α}
    (hfull : (key, .ofOption encode a) ∈ full) (h : (key, .ofOption encode a) ∈ list ∨ a = none) (read : Reader β) :
    withDefault (Draft.ofMembers list) key (optional read) none = optional read (Draft.ofJson (.ofOption encode a)) := by
  refine withDefault_ofMembers hkeys hlist hfull (h.imp_right fun hnone => ?_)
  rw [hnone]
  rfl

end Reader

/-! ## Notices -/

namespace Notice

def withoutNulls (n : Notice) : Notice := { n with details := n.details.bind Json.nonNull? }

/-- the details, if there are any, satisfy `P` -/
def All (P : Json → Prop) (n : Notice) : Prop := ∀ j ∈ n.details, P j

/-- a value for each field -/
def values (n : Notice) : List (String × Json) :=
  [("code", .string n.code), ("message", .string n.message), ("details", .ofOption id n.details)]

theorem names_nodup : shape.names.Nodup := by decide

theorem members_sublist (n : Notice) : n.members.Sublist n.values :=
  (List.Sublist.refl _).append (Json.present_sublist ..)

variable {n : Notice}

theorem filled_values (h : n.All Json.Valid) : shape.Filled n.values :=
  .cons ⟨rfl, Reader.check_eq_ok (Reader.string_ofJson n.code)⟩ <|
    .cons ⟨rfl, Reader.check_eq_ok (Reader.string_ofJson n.message)⟩ <|
    .cons ⟨rfl, Reader.check_eq_ok (Reader.optional_json h)⟩ .nil

theorem valid_toJson (h : n.All Json.Valid) : n.toJson.Valid := by
  have hkeys : (n.values.map Prod.fst).Nodup := (filled_values h).names_eq ▸ names_nodup
  refine .object (nodup_keys_of_subperm n.members_sublist.subperm hkeys) fun m hm => ?_
  have hvalue := n.members_sublist.subset hm
  simp only [values, List.mem_cons, List.not_mem_nil, or_false] at hvalue
  rcases hvalue with rfl | rfl | rfl
  · exact .string _
  · exact .string _
  · exact Json.valid_ofOption h

/-- a notice is read back, without details that are `null` -/
theorem read_toJson (h : n.All Json.Valid) : read (Draft.ofJson n.toJson) = .ok n.withoutNulls := by
  have hfilled := filled_values h
  have hkeys : (n.values.map Prod.fst).Nodup := hfilled.names_eq ▸ names_nodup
  have hlist := n.members_sublist.subperm
  have hnodup := nodup_keys_of_subperm hlist hkeys
  have hcode : Reader.required (Draft.ofMembers n.members) "code" Reader.string = .ok n.code :=
    (Reader.required_ofMembers hnodup (.head _) _).trans (Reader.string_ofJson _)
  have hmessage : Reader.required (Draft.ofMembers n.members) "message" Reader.string = .ok n.message :=
    (Reader.required_ofMembers hnodup (.tail _ (.head _)) _).trans (Reader.string_ofJson _)
  have hdetails : Reader.withDefault (Draft.ofMembers n.members) "details" (Reader.optional Reader.json) none =
      .ok (n.details.bind Json.nonNull?) := by
    have hthere : ("details", Json.ofOption id n.details) ∈ n.members ∨ n.details = none :=
      (Json.mem_present "details" id n.details).imp_left (List.mem_append_right _)
    exact (Reader.optional_ofMembers hkeys hlist (.tail _ (.tail _ (.head _))) hthere _).trans (Reader.optional_json h)
  rw [read, toJson, Shape.members_object names_nodup hfilled hlist]
  simp only [bind, Except.bind, hcode, hmessage, hdetails]
  rfl

end Notice

/-! ## Envelopes -/

namespace Envelope

/-- without data or details that are `null` -/
def withoutNulls (e : Envelope) : Envelope :=
  { e with
    data := e.data.bind Json.nonNull?
    warnings := e.warnings.map Notice.withoutNulls
    error := e.error.map Notice.withoutNulls }

/-- the data and all details satisfy `P` -/
structure All (P : Json → Prop) (e : Envelope) : Prop where
  data : ∀ j ∈ e.data, P j
  warnings : ∀ n ∈ e.warnings, n.All P
  error : ∀ n ∈ e.error, n.All P

/-- all values keep their written form -/
structure Valid (e : Envelope) : Prop extends e.All Json.Valid where
  facts : ∀ p ∈ e.facts.entries, p.2.Valid

/-- a value for each field, with `stamp` after the command -/
def values (stamp : List (String × Json)) (e : Envelope) : List (String × Json) :=
  [("ok", .bool e.ok), ("command", .string e.command)] ++ stamp ++
    [("data", .ofOption id e.data), ("meta", .object e.facts.entries),
      ("warnings", .array (e.warnings.map Notice.toJson)), ("error", .ofOption Notice.toJson e.error)]

theorem members_sublist (stamp : List (String × Json)) (e : Envelope) : (e.members stamp).Sublist (e.values stamp) :=
  (List.Sublist.refl _).append <|
    ((Json.present_sublist "data" id e.data).append (List.Sublist.refl _)).append
      (Json.present_sublist "error" Notice.toJson e.error)

/-! ### Fields -/

theorem readFacts_ofJson {f : Keyed Json} (h : ∀ p ∈ f.entries, p.2.Valid) :
    readFacts (Draft.ofJson (.object f.entries)) = .ok f := by
  have hread : ∀ p ∈ f.entries, Reader.json (Draft.ofJson (id p.2)) = .ok p.2 := fun p hp => Reader.json_ofJson (h p hp)
  have hpairs := Reader.map_ofJson hread
  rw [show (f.entries.map fun p => (p.1, id p.2)) = f.entries from List.map_id _] at hpairs
  rw [readFacts, hpairs]
  exact congrArg Except.ok (f.ofPairs_eq (.refl _))

theorem readWarnings_ofJson {ns : List Notice} (h : ∀ n ∈ ns, n.All Json.Valid) :
    Reader.list Notice.read (Draft.ofJson (.array (ns.map Notice.toJson))) = .ok (ns.map Notice.withoutNulls) :=
  Reader.list_ofJson fun n hn => Notice.read_toJson (h n hn)

theorem readError_ofJson {n : Option Notice} (h : ∀ a ∈ n, a.All Json.Valid) :
    Reader.optional Notice.read (Draft.ofJson (.ofOption Notice.toJson n)) = .ok (n.map Notice.withoutNulls) := by
  cases n with
  | none => rfl
  | some n => exact congrArg (Except.map some) (Notice.read_toJson (h n rfl))

variable {e : Envelope} {stampFields : List FieldShape} {stamp : List (String × Json)}

theorem filled_values (h : e.Valid)
    (hstamp : List.Forall₂ (fun f m => f.name = m.1 ∧ f.check (Draft.ofJson m.2) = .ok ()) stampFields stamp) :
    (shapeWith stampFields).Filled (e.values stamp) := by
  refine List.rel_append (List.rel_append (.cons ?_ (.cons ?_ .nil)) hstamp)
    (.cons ?_ (.cons ?_ (.cons ?_ (.cons ?_ .nil))))
  · exact ⟨rfl, Reader.check_eq_ok (Reader.bool_ofJson e.ok)⟩
  · exact ⟨rfl, Reader.check_eq_ok (Reader.string_ofJson e.command)⟩
  · exact ⟨rfl, Reader.check_eq_ok (Reader.optional_json h.data)⟩
  · exact ⟨rfl, Reader.check_eq_ok (readFacts_ofJson h.facts)⟩
  · exact ⟨rfl, Reader.check_eq_ok (readWarnings_ofJson h.warnings)⟩
  · exact ⟨rfl, Reader.check_eq_ok (readError_ofJson h.error)⟩

theorem valid_members (h : e.Valid) (hkeys : ((e.values stamp).map Prod.fst).Nodup) (hstamp : ∀ m ∈ stamp, m.2.Valid) :
    (Json.object (e.members stamp)).Valid := by
  refine .object (nodup_keys_of_subperm (e.members_sublist stamp).subperm hkeys) fun m hm => ?_
  have hvalue := (e.members_sublist stamp).subset hm
  simp only [values, List.mem_append, List.mem_cons, List.not_mem_nil, or_false] at hvalue
  rcases hvalue with ((rfl | rfl) | hm) | rfl | rfl | rfl | rfl
  · exact .bool _
  · exact .string _
  · exact hstamp m hm
  · exact Json.valid_ofOption h.data
  · exact .object e.facts.keys_nodup h.facts
  · refine .array fun j hj => ?_
    obtain ⟨n, hn, rfl⟩ := List.mem_map.1 hj
    exact Notice.valid_toJson (h.warnings n hn)
  · exact Json.valid_ofOption fun n hn => Notice.valid_toJson (h.error n hn)

/-- the fields of an envelope among its members -/
theorem fields_ofMembers (h : e.Valid) (hkeys : ((e.values stamp).map Prod.fst).Nodup) :
    Reader.required (Draft.ofMembers (e.members stamp)) "ok" Reader.bool = .ok e.ok ∧
      Reader.required (Draft.ofMembers (e.members stamp)) "command" Reader.string = .ok e.command ∧
      Reader.withDefault (Draft.ofMembers (e.members stamp)) "data" (Reader.optional Reader.json) none =
        .ok e.withoutNulls.data ∧
      Reader.required (Draft.ofMembers (e.members stamp)) "meta" readFacts = .ok e.facts ∧
      Reader.required (Draft.ofMembers (e.members stamp)) "warnings" (Reader.list Notice.read) =
        .ok e.withoutNulls.warnings ∧
      Reader.withDefault (Draft.ofMembers (e.members stamp)) "error" (Reader.optional Notice.read) none =
        .ok e.withoutNulls.error := by
  have hlist := (e.members_sublist stamp).subperm
  have hnodup := nodup_keys_of_subperm hlist hkeys
  have hdata : ("data", Json.ofOption id e.data) ∈ e.members stamp ∨ e.data = none :=
    (Json.mem_present "data" id e.data).imp_left fun hm =>
      List.mem_append_right _ (List.mem_append_left _ (List.mem_append_left _ hm))
  have herror : ("error", Json.ofOption Notice.toJson e.error) ∈ e.members stamp ∨ e.error = none :=
    (Json.mem_present "error" Notice.toJson e.error).imp_left fun hm =>
      List.mem_append_right _ (List.mem_append_right _ hm)
  refine ⟨?_, ?_, ?_, ?_, ?_, ?_⟩
  · exact (Reader.required_ofMembers hnodup (.head _) _).trans (Reader.bool_ofJson _)
  · exact (Reader.required_ofMembers hnodup (.tail _ (.head _)) _).trans (Reader.string_ofJson _)
  · exact (Reader.optional_ofMembers hkeys hlist (by simp [values]) hdata _).trans (Reader.optional_json h.data)
  · have hm : ("meta", Json.object e.facts.entries) ∈ e.members stamp := by simp [members]
    exact (Reader.required_ofMembers hnodup hm _).trans (readFacts_ofJson h.facts)
  · have hm : ("warnings", Json.array (e.warnings.map Notice.toJson)) ∈ e.members stamp := by simp [members]
    exact (Reader.required_ofMembers hnodup hm _).trans (readWarnings_ofJson h.warnings)
  · exact (Reader.optional_ofMembers hkeys hlist (by simp [values]) herror _).trans (readError_ofJson h.error)

/-! ### Texts -/

theorem names_nodup : shape.names.Nodup := by decide

/-- **The text of an envelope is read back as the envelope without its nulls.** -/
theorem parse_text (h : e.Valid) : parse e.text.toList = .ok e.withoutNulls := by
  have hfilled : shape.Filled (e.values []) := filled_values h .nil
  have hkeys : ((e.values []).map Prod.fst).Nodup := hfilled.names_eq ▸ names_nodup
  obtain ⟨hok, hcommand, hdata, hfacts, hwarnings, herror⟩ := fields_ofMembers h hkeys
  have hvalid : e.toJson.Valid := valid_members h hkeys nofun
  rw [parse, text, Reader.parse_compact hvalid, read, toJson,
    Shape.members_object names_nodup hfilled (e.members_sublist []).subperm]
  simp only [bind, Except.bind, hok, hcommand, hdata, hfacts, hwarnings, herror]
  rfl

namespace Stamped

theorem stamped_names_nodup : shape.names.Nodup := by decide

theorem parse_text (time : String) (h : e.Valid) : parse (text ⟨time, e⟩).toList = .ok ⟨time, e.withoutNulls⟩ := by
  have hfilled : shape.Filled (e.values [("generated_at_utc", .string time)]) :=
    filled_values h (.cons ⟨rfl, Reader.check_eq_ok (Reader.string_ofJson time)⟩ .nil)
  have hkeys := hfilled.names_eq ▸ stamped_names_nodup
  have hlist := (e.members_sublist [("generated_at_utc", .string time)]).subperm
  obtain ⟨hok, hcommand, hdata, hfacts, hwarnings, herror⟩ := fields_ofMembers h hkeys
  have htime : Reader.required (Draft.ofMembers (e.members [("generated_at_utc", .string time)])) "generated_at_utc"
      Reader.string = .ok time := by
    have hm : ("generated_at_utc", Json.string time) ∈ e.members [("generated_at_utc", .string time)] := by simp [members]
    exact (Reader.required_ofMembers (nodup_keys_of_subperm hlist hkeys) hm _).trans (Reader.string_ofJson _)
  have hvalid : (toJson ⟨time, e⟩).Valid :=
    valid_members h hkeys fun m hm => by rw [List.mem_singleton.1 hm]; exact .string _
  rw [parse, text, Reader.parse_compact hvalid, read, toJson, Shape.members_object stamped_names_nodup hfilled hlist]
  simp only [bind, Except.bind, hok, hcommand, htime, hdata, hfacts, hwarnings, herror]
  rfl

end Stamped

/-! ### Nulls -/

theorem withoutNulls_eq_self (h : e.All (· ≠ .null)) : e.withoutNulls = e := by
  have hnotice : ∀ n : Notice, n.All (· ≠ .null) → n.withoutNulls = n := fun n hn => by
    rw [Notice.withoutNulls, Json.bind_nonNull?_eq_self hn]
  have hwarnings : e.warnings.map Notice.withoutNulls = e.warnings :=
    (List.map_congr_left fun n hn => hnotice n (h.warnings n hn)).trans (List.map_id _)
  have herror : e.error.map Notice.withoutNulls = e.error := by
    cases herror : e.error with
    | none => rfl
    | some n => exact congrArg some (hnotice n (h.error n herror))
  rw [withoutNulls, Json.bind_nonNull?_eq_self h.data, hwarnings, herror]

/-- what is left is what was there, and it is not `null` -/
theorem All.withoutNulls {P : Json → Prop} (h : e.All P) : e.withoutNulls.All fun j => P j ∧ j ≠ .null := by
  have hnotice : ∀ n : Notice, n.All P → n.withoutNulls.All fun j => P j ∧ j ≠ .null := fun n hn j hj =>
    have hthere := Json.bind_nonNull?_eq_some.1 hj
    ⟨hn j hthere.1, hthere.2⟩
  refine ⟨fun j hj => ?_, fun n hn => ?_, fun n hn => ?_⟩
  · have hthere := Json.bind_nonNull?_eq_some.1 hj
    exact ⟨h.data j hthere.1, hthere.2⟩
  · obtain ⟨w, hw, rfl⟩ := List.mem_map.1 hn
    exact hnotice w (h.warnings w hw)
  · obtain ⟨w, hw, rfl⟩ := Option.map_eq_some_iff.1 hn
    exact hnotice w (h.error w hw)

theorem All.imp {P Q : Json → Prop} (h : e.All P) (himp : ∀ j, P j → Q j) : e.All Q :=
  ⟨fun j hj => himp j (h.data j hj), fun n hn j hj => himp j (h.warnings n hn j hj),
    fun n hn j hj => himp j (h.error n hn j hj)⟩

theorem Valid.withoutNulls (h : e.Valid) : e.withoutNulls.Valid :=
  ⟨h.toAll.withoutNulls.imp fun _ => And.left, h.facts⟩

theorem withoutNulls_withoutNulls (e : Envelope) : e.withoutNulls.withoutNulls = e.withoutNulls := by
  have hall : e.All fun _ => True := ⟨fun _ _ => trivial, fun _ _ _ _ => trivial, fun _ _ _ _ => trivial⟩
  exact withoutNulls_eq_self (hall.withoutNulls.imp fun _ => And.right)

end Envelope

end LaunchReports
