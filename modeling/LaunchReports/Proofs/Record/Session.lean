/-
Session records are read back from their JSON form.
-/
import LaunchReports.Record.Session
import LaunchReports.Proofs.Json.Records

namespace LaunchReports

/-- one step of a computation that succeeds; unfolding the bind everywhere at once is slow -/
theorem ok_bind {ε α β : Type} (a : α) (f : α → Except ε β) : (Except.ok a >>= f) = f a := rfl

namespace Reader

theorem text?_ofJson (s : Option String) : text? (Draft.ofJson (textJson s)) = .ok s :=
  optional_ofJson nofun string_ofJson s

theorem integer?_ofJson (n : Option Int64) : integer? (Draft.ofJson (integerJson n)) = .ok n :=
  optional_ofJson nofun int64_ofJson n

theorem simType_name (t : SimType) : simType (Draft.ofJson (.string t.name)) = .ok t := by
  rw [Draft.ofJson]
  cases t <;> rfl

variable {α : Type} {list : List (String × Json)} (hkeys : (list.map Prod.fst).Nodup) (i : Nat) {name : String}
  {j : Json}

include hkeys

/-- a field by its place -/
theorem field_at {read : Reader (Option α)} {a : Option α} (hread : read (Draft.ofJson j) = .ok a)
    (h : list[i]? = some (name, j)) : field (Draft.ofMembers list) name read = .ok a := by
  rw [field, withDefault, Draft.lookup_ofMembers hkeys (List.mem_of_getElem? h)]
  exact hread

theorem required_at {read : Reader α} {a : α} (hread : read (Draft.ofJson j) = .ok a)
    (h : list[i]? = some (name, j)) : required (Draft.ofMembers list) name read = .ok a := by
  rw [required, Draft.lookup_ofMembers hkeys (List.mem_of_getElem? h)]
  exact hread

end Reader

namespace FieldShape

theorem name_text (o : Bool) (name : String) : (text o name).name = name := rfl

theorem name_integer (o : Bool) (name : String) : (integer o name).name = name := rfl

theorem check_text (o : Bool) (name : String) (s : Option String) :
    (text o name).check (Draft.ofJson (textJson s)) = .ok () :=
  Reader.check_eq_ok (Reader.text?_ofJson s)

theorem check_integer (o : Bool) (name : String) (n : Option Int64) :
    (integer o name).check (Draft.ofJson (integerJson n)) = .ok () :=
  Reader.check_eq_ok (Reader.integer?_ofJson n)

end FieldShape

namespace FlashInfo

theorem filled_members (f : FlashInfo) : shape.Filled f.members := by
  simp only [Shape.Filled, shape, members, List.forall₂_cons, FieldShape.name_text, FieldShape.name_integer,
    FieldShape.check_text, FieldShape.check_integer, List.Forall₂.nil, and_self]

theorem names_nodup : shape.names.Nodup := by decide

open Reader in
theorem read_toJson (f : FlashInfo) : read (Draft.ofJson f.toJson) = .ok f := by
  have hmembers := Shape.members_object names_nodup f.filled_members (.refl _)
  have hkeys : (f.members.map Prod.fst).Nodup := f.filled_members.names_eq ▸ names_nodup
  rw [toJson, read, hmembers]
  simp only [ok_bind, field_at hkeys 0 (text?_ofJson _) rfl, field_at hkeys 1 (integer?_ofJson _) rfl,
    field_at hkeys 2 (integer?_ofJson _) rfl, field_at hkeys 3 (integer?_ofJson _) rfl,
    field_at hkeys 4 (integer?_ofJson _) rfl, field_at hkeys 5 (integer?_ofJson _) rfl,
    field_at hkeys 6 (integer?_ofJson _) rfl, field_at hkeys 7 (text?_ofJson _) rfl,
    field_at hkeys 8 (text?_ofJson _) rfl]
  rfl

theorem toJson_ne_null (f : FlashInfo) : f.toJson ≠ .null := by
  rw [toJson]
  nofun

end FlashInfo

namespace JavaInfo

theorem filled_members (j : JavaInfo) : shape.Filled j.members := by
  simp only [Shape.Filled, shape, members, List.forall₂_cons, FieldShape.name_text, FieldShape.check_text,
    List.Forall₂.nil, and_self]

theorem names_nodup : shape.names.Nodup := by decide

open Reader in
theorem read_toJson (j : JavaInfo) : read (Draft.ofJson j.toJson) = .ok j := by
  have hmembers := Shape.members_object names_nodup j.filled_members (.refl _)
  have hkeys : (j.members.map Prod.fst).Nodup := j.filled_members.names_eq ▸ names_nodup
  rw [toJson, read, hmembers]
  simp only [ok_bind, field_at hkeys 0 (text?_ofJson _) rfl, field_at hkeys 1 (text?_ofJson _) rfl,
    field_at hkeys 2 (text?_ofJson _) rfl, field_at hkeys 3 (text?_ofJson _) rfl, field_at hkeys 4 (text?_ofJson _) rfl,
    field_at hkeys 5 (text?_ofJson _) rfl]
  rfl

theorem toJson_ne_null (j : JavaInfo) : j.toJson ≠ .null := by
  rw [toJson]
  nofun

end JavaInfo

namespace SessionRecord

/-- a value for each field -/
def values (r : SessionRecord) : List (String × Json) :=
  r.ownMembers ++ [("flash", .ofOption FlashInfo.toJson r.flash), ("java", .ofOption JavaInfo.toJson r.java)]

variable (r : SessionRecord)

theorem read_flash : Reader.optional FlashInfo.read (Draft.ofJson (.ofOption FlashInfo.toJson r.flash)) = .ok r.flash :=
  Reader.optional_ofJson FlashInfo.toJson_ne_null FlashInfo.read_toJson r.flash

theorem read_java : Reader.optional JavaInfo.read (Draft.ofJson (.ofOption JavaInfo.toJson r.java)) = .ok r.java :=
  Reader.optional_ofJson JavaInfo.toJson_ne_null JavaInfo.read_toJson r.java

theorem filled_values : shape.Filled r.values := by
  simp only [Shape.Filled, shape, values, ownMembers, List.cons_append, List.nil_append, List.forall₂_cons,
    FieldShape.name_text, FieldShape.name_integer, FieldShape.check_text, FieldShape.check_integer,
    Reader.check_eq_ok (Reader.string_ofJson _), Reader.check_eq_ok (Reader.simType_name _),
    Reader.check_eq_ok r.read_flash, Reader.check_eq_ok r.read_java, List.Forall₂.nil, and_self]

theorem names_nodup : shape.names.Nodup := by decide

theorem values_nodup : (r.values.map Prod.fst).Nodup := r.filled_values.names_eq ▸ names_nodup

theorem members_sublist : r.members.Sublist r.values := by
  rw [members, values, List.append_assoc]
  exact (List.Sublist.refl _).append ((Json.present_sublist ..).append (Json.present_sublist ..))

/-- a field that is left out of the written form where it has no value -/
theorem field_ofMembers {α : Type} {key : String} {encode : α → Json} {a : Option α} {read : Reader (Option α)}
    (hmem : (key, .ofOption encode a) ∈ r.values) (hread : read (Draft.ofJson (.ofOption encode a)) = .ok a)
    (h : (key, .ofOption encode a) ∈ r.members ∨ a = none) :
    Reader.field (Draft.ofMembers r.members) key read = .ok a := by
  rw [Reader.field, Reader.withDefault_ofMembers r.values_nodup r.members_sublist.subperm hmem, hread]
  exact h.imp_right fun hnone => hread.trans (congrArg Except.ok hnone)

open Reader in
theorem read_toJson : read (Draft.ofJson r.toJson) = .ok r := by
  have hmembers := Shape.members_object names_nodup r.filled_values r.members_sublist.subperm
  have hkeys : (r.members.map Prod.fst).Nodup := nodup_keys_of_subperm r.members_sublist.subperm r.values_nodup
  have hflash : Reader.field (Draft.ofMembers r.members) "flash" (Reader.optional FlashInfo.read) = .ok r.flash := by
    refine r.field_ofMembers (by simp [values]) r.read_flash ?_
    exact (Json.mem_present ..).imp_left fun h => List.mem_append_left _ (List.mem_append_right _ h)
  have hjava : Reader.field (Draft.ofMembers r.members) "java" (Reader.optional JavaInfo.read) = .ok r.java := by
    refine r.field_ofMembers (by simp [values]) r.read_java ?_
    exact (Json.mem_present ..).imp_left (List.mem_append_right _)
  rw [toJson, read, hmembers]
  simp only [ok_bind, required_at hkeys 0 (string_ofJson _) rfl, required_at hkeys 1 (simType_name _) rfl,
    required_at hkeys 2 (string_ofJson _) rfl, required_at hkeys 3 (string_ofJson _) rfl,
    field_at hkeys 4 (text?_ofJson _) rfl, field_at hkeys 5 (text?_ofJson _) rfl,
    field_at hkeys 6 (integer?_ofJson _) rfl, field_at hkeys 7 (integer?_ofJson _) rfl,
    field_at hkeys 8 (integer?_ofJson _) rfl, field_at hkeys 9 (integer?_ofJson _) rfl,
    field_at hkeys 10 (integer?_ofJson _) rfl, field_at hkeys 11 (integer?_ofJson _) rfl,
    field_at hkeys 12 (text?_ofJson _) rfl, field_at hkeys 13 (text?_ofJson _) rfl,
    field_at hkeys 14 (integer?_ofJson _) rfl, field_at hkeys 15 (integer?_ofJson _) rfl,
    field_at hkeys 16 (text?_ofJson _) rfl, field_at hkeys 17 (text?_ofJson _) rfl,
    field_at hkeys 18 (text?_ofJson _) rfl, hflash, hjava]
  rfl

end SessionRecord

end LaunchReports
