/-
The two forms of a record.

Members fill a shape if they are a value for each field, in the order of the fields. The object form of a record has
some of them in any order, the array form has the values of the first few.

- `Shape.members_object` and `Shape.members_array`: the members of either form, in the order in which they stand there.
- `Reader.withDefault_ofMembers`: the value of a field among them.
- `Shape.checkMembers_eq_ok`: an object passes only if every name in it is known and none is there twice.
-/
import Mathlib.Data.List.Forall2
import Mathlib.Data.List.Perm.Subperm
import LaunchReports.Proofs.Json.Drafts
import LaunchReports.Proofs.Text.Keys

namespace LaunchReports

/-! ## Values -/

theorem fitsUInt64_toNat (n : UInt64) : fitsUInt64 n.toNat = true := by
  have hlt := n.toNat_lt
  simp only [fitsUInt64, Bool.and_eq_true, decide_eq_true_eq, UInt64.size]
  omega

namespace Reader

variable {α : Type} {read : Reader α} {encode : α → Json}

theorem string_ofJson (s : String) : string (Draft.ofJson (.string s)) = .ok s := by
  rw [Draft.ofJson, string]

theorem int64_ofJson (n : Int64) : int64 (Draft.ofJson (.integer n.toInt)) = .ok n := by
  rw [Json.integer, Draft.ofJson, int64, if_pos (fitsInt64_toInt n), Int64.ofInt_toInt]

theorem uint64_ofJson (n : UInt64) : uint64 (Draft.ofJson (.integer n.toNat)) = .ok n := by
  rw [Json.integer, Draft.ofJson, uint64, if_pos (fitsUInt64_toNat n), Int.toNat_natCast, UInt64.ofNat_toNat]

/-- nothing is `null`, and no value is -/
theorem optional_ofJson (hnull : ∀ a, encode a ≠ .null) (h : ∀ a, read (Draft.ofJson (encode a)) = .ok a)
    (a : Option α) : optional read (Draft.ofJson (.ofOption encode a)) = .ok a := by
  cases a with
  | none => rw [Json.ofOption, Draft.ofJson, optional]
  | some a =>
    rw [Json.ofOption, optional, h]
    · rfl
    · intro e
      cases hj : encode a with
      | null => exact hnull a hj
      | bool | number | string | array | object =>
        rw [hj, Draft.ofJson] at e
        cases e

theorem map_ofJson {pairs : List (String × α)} (h : ∀ p ∈ pairs, read (Draft.ofJson (encode p.2)) = .ok p.2) :
    map read (Draft.ofJson (.object (pairs.map fun p => (p.1, encode p.2)))) = .ok pairs := by
  have hpairs : (Draft.ofMembers (pairs.map fun p => (p.1, encode p.2))).mapM
      (fun m => (read m.2).map fun a => (m.1, a)) = .ok pairs := by
    induction pairs with
    | nil => rfl
    | cons p rest ih =>
      rw [List.forall_mem_cons] at h
      rw [List.map_cons, Draft.ofMembers, List.mapM_cons, h.1, ih h.2]
      rfl
  rw [Draft.ofJson, map, hpairs]
  rfl

end Reader

/-! ## Members -/

theorem Json.present_sublist {α : Type} (key : String) (encode : α → Json) (a : Option α) :
    (present key encode a).Sublist [(key, .ofOption encode a)] := by
  cases a with
  | none => exact List.nil_sublist _
  | some a => exact List.Sublist.refl _

theorem Json.mem_present {α : Type} (key : String) (encode : α → Json) (a : Option α) :
    (key, .ofOption encode a) ∈ present key encode a ∨ a = none := by
  cases a with
  | none => exact .inr rfl
  | some a => exact .inl List.mem_cons_self

/-- no name is twice among some of the members if none is among all -/
theorem nodup_keys_of_subperm {α : Type} {list full : List (String × α)} (h : list.Subperm full)
    (hkeys : (full.map Prod.fst).Nodup) : (list.map Prod.fst).Nodup := by
  obtain ⟨sorted, hperm, hsublist⟩ := h
  exact (hperm.map Prod.fst).nodup_iff.1 ((hsublist.map Prod.fst).nodup hkeys)

namespace Draft

theorem keys_ofMembers (list : List (String × Json)) : (ofMembers list).map Prod.fst = list.map Prod.fst := by
  rw [ofMembers_eq_map, List.map_map]
  rfl

theorem mem_ofMembers {list : List (String × Json)} {m : String × Json} (h : m ∈ list) :
    (m.1, ofJson m.2) ∈ ofMembers list := by
  rw [ofMembers_eq_map]
  exact List.mem_map_of_mem h

theorem lookup_ofMembers {list : List (String × Json)} (hkeys : (list.map Prod.fst).Nodup) {m : String × Json}
    (h : m ∈ list) : (ofMembers list).lookup m.1 = some (ofJson m.2) :=
  lookup_of_mem (by rwa [keys_ofMembers]) (mem_ofMembers h)

end Draft

namespace Reader

variable {α : Type} {full list : List (String × Json)}

/-- the value of a field that is there, or that is at its default -/
theorem withDefault_ofMembers (hkeys : (full.map Prod.fst).Nodup) (hlist : list.Subperm full) {m : String × Json}
    (hm : m ∈ full) {read : Reader α} {absent : α} (h : m ∈ list ∨ read (Draft.ofJson m.2) = .ok absent) :
    withDefault (Draft.ofMembers list) m.1 read absent = read (Draft.ofJson m.2) := by
  unfold withDefault
  by_cases hthere : m ∈ list
  · rw [Draft.lookup_ofMembers (nodup_keys_of_subperm hlist hkeys) hthere]
  · have hname : m.1 ∉ list.map Prod.fst := by
      intro hname
      obtain ⟨other, hother, heq⟩ := List.mem_map.1 hname
      exact hthere (List.inj_on_of_nodup_map hkeys (hlist.subset hother) hm heq ▸ hother)
    rw [lookup_eq_none (by rwa [Draft.keys_ofMembers]), h.resolve_left hthere]

theorem check_eq_ok {read : Reader α} {d : Draft} {a : α} (h : read d = .ok a) : check read d = .ok () := by
  rw [check, h]
  rfl

end Reader

namespace Shape

variable {s : Shape}

/-! ## Checks -/

theorem checkMember_eq_ok (hs : s.closed = true) {before : List String} {key : String} {value : Draft} :
    s.checkMember before key value = .ok () ↔
      key ∉ before ∧ ∃ f, s.fields.find? (fun f => f.name = key) = some f ∧ f.check value = .ok () := by
  unfold checkMember
  cases s.fields.find? fun f => f.name = key with
  | none => simp [hs]
  | some f => by_cases h : key ∈ before <;> simp [h]

/-- an object passes if every name in it is known and none is there twice -/
theorem checkMembers_eq_ok (hs : s.closed = true) {before : List String} {list : List (String × Draft)} :
    s.checkMembers before list = .ok () ↔
      (∀ m ∈ list, m.1 ∉ before ∧ ∃ f, s.fields.find? (fun f => f.name = m.1) = some f ∧ f.check m.2 = .ok ()) ∧
        (list.map Prod.fst).Nodup := by
  induction list generalizing before with
  | nil => simp [checkMembers]
  | cons m rest ih =>
    have hstep : s.checkMembers before (m :: rest) = .ok () ↔
        s.checkMember before m.1 m.2 = .ok () ∧ s.checkMembers (m.1 :: before) rest = .ok () := by
      rw [checkMembers]
      cases s.checkMember before m.1 m.2 <;> simp [bind, Except.bind]
    rw [hstep, checkMember_eq_ok hs, ih, List.forall_mem_cons, List.map_cons, List.nodup_cons]
    simp only [List.mem_cons, not_or, List.mem_map, not_exists, not_and]
    constructor
    · rintro ⟨hm, hrest, hkeys⟩
      exact ⟨⟨hm, fun o ho => ⟨(hrest o ho).1.2, (hrest o ho).2⟩⟩, fun o ho => (hrest o ho).1.1, hkeys⟩
    · rintro ⟨⟨hm, hrest⟩, hfresh, hkeys⟩
      exact ⟨hm, fun o ho => ⟨⟨hfresh o ho, (hrest o ho).1⟩, (hrest o ho).2⟩, hkeys⟩

/-- a name that no field has, and a name that is there twice, are refused -/
theorem members_refused (hs : s.closed = true) {list : List (String × Json)}
    (h : (∃ m ∈ list, m.1 ∉ s.names) ∨ ¬ (list.map Prod.fst).Nodup) :
    ∃ e, s.members (Draft.ofJson (.object list)) = .error e := by
  have hnot : s.checkMembers [] (Draft.ofMembers list) ≠ .ok () := by
    intro hpass
    obtain ⟨hknown, hkeys⟩ := (checkMembers_eq_ok hs).1 hpass
    rw [Draft.keys_ofMembers] at hkeys
    obtain ⟨m, hm, hname⟩ := h.resolve_right (not_not.2 hkeys)
    obtain ⟨-, f, hf, -⟩ := hknown _ (Draft.mem_ofMembers hm)
    have hfound : f.name = m.1 := by simpa using List.find?_some hf
    exact hname (hfound ▸ List.mem_map_of_mem (List.mem_of_find?_eq_some hf))
  rw [Draft.ofJson, members]
  cases hpass : s.checkMembers [] (Draft.ofMembers list) with
  | error e => exact ⟨e, rfl⟩
  | ok u => exact absurd hpass hnot

/-! ## Filled shapes -/

/-- a value that passes for each field, in the order of the fields -/
def Filled (s : Shape) (full : List (String × Json)) : Prop :=
  List.Forall₂ (fun f m => f.name = m.1 ∧ f.check (Draft.ofJson m.2) = .ok ()) s.fields full

variable {full list : List (String × Json)}

theorem Filled.names_eq (h : s.Filled full) : s.names = full.map Prod.fst := by
  have hnames : List.Forall₂ (· = ·) s.names (full.map Prod.fst) := by
    rw [names, List.forall₂_map_left_iff, List.forall₂_map_right_iff]
    exact h.imp fun _ _ hm => hm.1
  rwa [List.forall₂_eq_eq_eq] at hnames

/-- each value passes for the field of its name -/
theorem Filled.field (h : s.Filled full) (hnames : s.names.Nodup) {m : String × Json} (hm : m ∈ full) :
    ∃ f, s.fields.find? (fun f => f.name = m.1) = some f ∧ f.check (Draft.ofJson m.2) = .ok () := by
  obtain ⟨i, hi, rfl⟩ := List.mem_iff_getElem.1 hm
  have hlength := List.Forall₂.length_eq h
  obtain ⟨hname, hcheck⟩ := h.get (hlength ▸ hi) hi
  exact ⟨s.fields[i], (find?_key_eq_some hnames).2 ⟨List.getElem_mem _, hname⟩, hcheck⟩

/-- an object whose names are known passes if each value does and no name is there twice, closed or not -/
theorem checkMembers_of_known {before : List String} {list : List (String × Draft)}
    (h : ∀ m ∈ list, m.1 ∉ before ∧ ∃ f, s.fields.find? (fun f => f.name = m.1) = some f ∧ f.check m.2 = .ok ())
    (hkeys : (list.map Prod.fst).Nodup) : s.checkMembers before list = .ok () := by
  induction list generalizing before with
  | nil => rfl
  | cons m rest ih =>
    rw [List.forall_mem_cons] at h
    obtain ⟨⟨hnew, f, hf, hcheck⟩, hrest⟩ := h
    obtain ⟨hname, hkeys⟩ := List.nodup_cons.1 hkeys
    have hstep : s.checkMember before m.1 m.2 = .ok () := by
      rw [checkMember, hf]
      simp [hnew, hcheck]
    rw [checkMembers, hstep]
    refine ih (fun o ho => ⟨?_, (hrest o ho).2⟩) hkeys
    rw [List.mem_cons, not_or]
    exact ⟨fun e => hname (e ▸ List.mem_map_of_mem ho), (hrest o ho).1⟩

/-- the object form: some of the members, in any order -/
theorem members_object (hnames : s.names.Nodup) (hfull : s.Filled full) (hlist : list.Subperm full) :
    s.members (Draft.ofJson (.object list)) = .ok (Draft.ofMembers list) := by
  have hkeys : (list.map Prod.fst).Nodup := nodup_keys_of_subperm hlist (hfull.names_eq ▸ hnames)
  have hpass : s.checkMembers [] (Draft.ofMembers list) = .ok () := by
    apply checkMembers_of_known
    · rw [Draft.ofMembers_eq_map, List.forall_mem_map]
      exact fun m hm => ⟨List.not_mem_nil, hfull.field hnames (hlist.subset hm)⟩
    · rwa [Draft.keys_ofMembers]
  rw [Draft.ofJson, members, hpass]
  rfl

/-- values pass for the first fields, and the other fields may be cut off -/
theorem checkItems_ofItems {fields : List FieldShape} (index : Nat)
    (hfull : List.Forall₂ (fun f m => f.name = m.1 ∧ f.check (Draft.ofJson m.2) = .ok ()) fields full)
    (hlist : list <+: full) (hrest : ∀ f ∈ fields.drop list.length, f.optional = true) :
    s.checkItems .closed index fields (Draft.ofItems (list.map Prod.snd)) = .ok () := by
  induction hfull generalizing index list with
  | nil =>
    rw [List.eq_nil_of_prefix_nil hlist]
    rfl
  | @cons f m fields full hm _ ih =>
    cases list with
    | nil =>
      rw [List.length_nil, List.drop_zero, List.forall_mem_cons] at hrest
      have hmore := ih (index + 1) List.nil_prefix hrest.2
      simpa [checkItems, Ending.listError?, hrest.1, Draft.ofItems] using hmore
    | cons other rest =>
      obtain ⟨rfl, hmore⟩ := List.cons_prefix_cons.1 hlist
      rw [List.map_cons, Draft.ofItems, checkItems, hm.2]
      exact ih (index + 1) hmore hrest

theorem zip_names (list more : List (String × Json)) :
    ((list ++ more).map Prod.fst).zip (Draft.ofItems (list.map Prod.snd)) = Draft.ofMembers list := by
  induction list with
  | nil => exact List.zip_nil_right
  | cons m rest ih =>
    rw [List.cons_append, List.map_cons, List.map_cons, Draft.ofItems, List.zip_cons_cons, ih, Draft.ofMembers]

/-- the array form: the values of the first members -/
theorem members_array (hfull : s.Filled full) (hlist : list <+: full)
    (hrest : ∀ f ∈ s.fields.drop list.length, f.optional = true) :
    s.members (Draft.ofJson (.array (list.map Prod.snd))) = .ok (Draft.ofMembers list) := by
  have hpass := checkItems_ofItems (s := s) 0 hfull hlist hrest
  rw [Draft.ofJson, members, hpass, hfull.names_eq]
  obtain ⟨more, rfl⟩ := hlist
  exact congrArg Except.ok (zip_names list more)

end Shape

end LaunchReports
