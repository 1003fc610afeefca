/-
The command line of a report, flag by flag.

`Flag` is an option of a report with its value, `Flag.Written` says with which arguments flags can be written, and
`ReportOptions.ofFlags` what they say together.

- `Scan.command_attached`, `Scan.command_separate`: one more flag is read, whichever way it takes its value.
- `Invocation.parse_written`: so a command line of flags is read as what the flags say.
- `Request.Flagged`: the flags of a request, in any order.
- `request_paths`: a request comes out the same from its flags and from a file with any JSON form of it.
-/
import LaunchReports.Proofs.Command.Merging
import LaunchReports.Proofs.Number.Numerals
import LaunchReports.Proofs.Report.RequestForms

namespace LaunchReports

/-! ## Flags -/

inductive Flag where
  | query (q : Query)
  | filter (field value : String)
  | group (name : String)
  | order (column : String)
  | limit (n : UInt64)
  | request (file : String)
deriving DecidableEq

namespace Flag

def option : Flag → OptionName
  | query _ => .query
  | filter .. => .filter
  | group _ => .group
  | order _ => .order
  | limit _ => .limit
  | request _ => .request

/-- the value of the option is read as what the flag says -/
def Says : Flag → String → Prop
  | query q, raw => Query.ofKey? raw = some q
  | filter field value, raw => parseFilter raw = some (field, value)
  | group name, raw => raw = name
  | order column, raw => raw = column
  | limit n, raw => parseLimit raw = some n
  | request file, raw => raw = file ∧ file ≠ ""

@[simp] def query? : Flag → Option Query
  | query q => some q
  | _ => none

@[simp] def filter? : Flag → Option (String × String)
  | filter field value => some (field, value)
  | _ => none

@[simp] def group? : Flag → Option String
  | group name => some name
  | _ => none

@[simp] def order? : Flag → Option String
  | order column => some column
  | _ => none

@[simp] def limit? : Flag → Option UInt64
  | limit n => some n
  | _ => none

@[simp] def request? : Flag → Option String
  | request file => some file
  | _ => none

/-- only filters can be given more than once -/
structure Once (flags : List Flag) : Prop where
  query : (flags.filterMap query?).length ≤ 1
  group : (flags.filterMap group?).length ≤ 1
  order : (flags.filterMap order?).length ≤ 1
  limit : (flags.filterMap limit?).length ≤ 1
  request : (flags.filterMap request?).length ≤ 1

theorem Once.prefix {flags more : List Flag} (h : Once (flags ++ more)) : Once flags := by
  have hle : ∀ {β : Type} {read : Flag → Option β}, ((flags ++ more).filterMap read).length ≤ 1 →
      (flags.filterMap read).length ≤ 1 := by
    intro β read h
    rw [List.filterMap_append, List.length_append] at h
    omega
  exact ⟨hle h.query, hle h.group, hle h.order, hle h.limit, hle h.request⟩

/-- the name of an option as an argument -/
def dashed (f : Flag) : String := "--" ++ f.option.long

/-- arguments for flags; a value of its own must not look like an option -/
inductive Written : List Flag → List String → Prop
  | none : Written [] []
  | attached {f : Flag} {raw : String} {flags : List Flag} {args : List String} : f.Says raw →
    Written flags args → Written (f :: flags) ((f.dashed ++ "=" ++ raw) :: args)
  | separate {f : Flag} {raw : String} {flags : List Flag} {args : List String} : f.Says raw →
    raw.toList.head? ≠ some '-' → Written flags args → Written (f :: flags) (f.dashed :: raw :: args)

end Flag

/-- what flags say together -/
def ReportOptions.ofFlags (flags : List Flag) : ReportOptions where
  query := flags.findSome? Flag.query?
  filters := flags.filterMap Flag.filter?
  group := flags.findSome? Flag.group?
  order := flags.findSome? Flag.order?
  limit := flags.findSome? Flag.limit?
  request := flags.findSome? Flag.request?
  explain := false
  singleValue := false

/-- the flags are all that is given -/
def Given.ofFlags (flags : List Flag) : Given := { Given.nothing with report := .ofFlags flags }

/-! ## One flag -/

/-- what is said once at most is what is said first -/
theorem findSome?_of_filterMap {α β : Type} {read : α → Option β} {list : List α} {o : Option β}
    (h : list.filterMap read = o.toList) : list.findSome? read = o := by
  rw [← List.head?_filterMap, h, Option.head?_toList]

/-- nothing is given yet in the place of an option that can be given once -/
theorem findSome?_eq_none_of_once {α β : Type} {read : α → Option β} {before : List α} {a : α}
    (h : ((before ++ [a]).filterMap read).length ≤ 1) (ha : (read a).isSome) : before.findSome? read = none := by
  obtain ⟨b, hb⟩ := Option.isSome_iff_exists.1 ha
  have hlast : [a].filterMap read = [b] := by simp [hb]
  rw [List.filterMap_append, hlast, List.length_append, List.length_singleton] at h
  exact findSome?_of_filterMap (List.eq_nil_of_length_eq_zero (by omega))

/-- one more flag -/
theorem ReportOptions.ofFlags_append (before : List Flag) (f : Flag) :
    ofFlags (before ++ [f]) =
      { query := before.findSome? Flag.query? <|> f.query?
        filters := before.filterMap Flag.filter? ++ f.filter?.toList
        group := before.findSome? Flag.group? <|> f.group?
        order := before.findSome? Flag.order? <|> f.order?
        limit := before.findSome? Flag.limit? <|> f.limit?
        request := before.findSome? Flag.request? <|> f.request?
        explain := false
        singleValue := false } := by
  have hone : ∀ {β : Type} (read : Flag → Option β), [f].findSome? read = read f := by
    intro β read
    rw [List.findSome?_singleton]
  have hfilters : [f].filterMap Flag.filter? = f.filter?.toList := by cases f <;> rfl
  simp only [ofFlags, List.findSome?_append, List.filterMap_append, hone, hfilters, Option.orElse_eq_orElse,
    Option.orElse_eq_or]

/-- a flag says its own beside those before it -/
theorem Given.setValue_flag {before : List Flag} {f : Flag} {raw : String} (hsaid : f.Says raw)
    (honce : Flag.Once (before ++ [f])) :
    (Given.ofFlags before).setValue f.option raw = .ok (.ofFlags (before ++ [f])) := by
  rw [ofFlags, ofFlags, ReportOptions.ofFlags_append]
  cases f with
  | query q =>
    have hnone := findSome?_eq_none_of_once honce.query rfl
    have hkey : Query.ofKey? raw = some q := hsaid
    simp [setValue, Flag.option, ReportOptions.ofFlags, once, checked, hnone, hkey]
    rfl
  | filter field value =>
    have hparse : parseFilter raw = some (field, value) := hsaid
    simp [setValue, Flag.option, ReportOptions.ofFlags, checked, hparse]
  | group name =>
    obtain rfl : raw = name := hsaid
    have hnone := findSome?_eq_none_of_once honce.group rfl
    simp [setValue, Flag.option, ReportOptions.ofFlags, once, hnone]
    rfl
  | order column =>
    obtain rfl : raw = column := hsaid
    have hnone := findSome?_eq_none_of_once honce.order rfl
    simp [setValue, Flag.option, ReportOptions.ofFlags, once, hnone]
    rfl
  | limit n =>
    have hnone := findSome?_eq_none_of_once honce.limit rfl
    have hparse : parseLimit raw = some n := hsaid
    simp [setValue, Flag.option, ReportOptions.ofFlags, once, checked, hnone, hparse]
    rfl
  | request file =>
    obtain ⟨rfl, hname⟩ : raw = file ∧ file ≠ "" := hsaid
    have hnone := findSome?_eq_none_of_once honce.request rfl
    have hpath : pathValue raw = .ok raw := if_neg (by simpa using hname)
    simp [setValue, Flag.option, ReportOptions.ofFlags, once, hnone, hpath]
    rfl

/-! ## Command lines -/

namespace Scan

/-- the flags are read, and the value of the last one may still have to be checked -/
structure Reads (s : Scan) (flags : List Flag) : Prop where
  settle : s.settle = .ok ⟨.ofFlags flags, .nothing, false⟩
  options : s.operandsOnly = false

theorem reads_ofFlags (flags : List Flag) : Reads ⟨.ofFlags flags, .nothing, false⟩ flags := ⟨rfl, rfl⟩

variable {s : Scan} {before : List Flag} {f : Flag} {raw : String}

theorem find?_option (f : Flag) :
    ((OptionName.taken (some .report)).find? fun o => o.long = f.option.long) = some f.option := by
  cases f <;> rfl

theorem not_mem_long (o : OptionName) : '=' ∉ o.long.toList := by cases o <;> decide

theorem splitLong_attached (o : OptionName) (value : String) :
    splitLong (o.long.toList ++ '=' :: value.toList) = (o.long, some value) := by
  obtain ⟨htake, hdrop⟩ := takeWhile_ne_append (not_mem_long o) value.toList
  simp only [splitLong, htake, hdrop, String.ofList_toList]

theorem splitLong_bare (o : OptionName) : splitLong o.long.toList = (o.long, none) := by
  obtain ⟨htake, hdrop⟩ := takeWhile_ne_self (not_mem_long o)
  simp only [splitLong, htake, hdrop, String.ofList_toList]

/-- an argument that names the option of a flag -/
theorem argument_option (hs : s.operandsOnly = false) {text : List Char} {attached : Option String}
    (hraw : raw.toList = '-' :: '-' :: text) (hne : text ≠ []) (hsplit : splitLong text = (f.option.long, attached)) :
    s.argument (some .report) raw = s.option f.option attached := by
  obtain ⟨c, rest, rfl⟩ := List.exists_cons_of_ne_nil hne
  rw [argument, hs, hraw]
  simp only [Bool.false_eq_true, if_false, hsplit, find?_option]

/-- the value of an option as an argument of its own -/
theorem argument_value {g : Given} {o : OptionName} (hraw : raw.toList.head? ≠ some '-') :
    argument (some .report) ⟨g, .awaited o, false⟩ raw = .ok ⟨g, .value o raw, false⟩ := by
  rw [argument, if_neg Bool.false_ne_true]
  split
  next h => rw [h] at hraw; exact absurd rfl hraw
  next h => rw [h] at hraw; exact absurd rfl hraw
  next h => rw [h] at hraw; exact absurd rfl hraw
  next => rfl

theorem takesValue_option (f : Flag) : f.option.takesValue = true := by cases f <;> rfl

theorem toList_dashed (f : Flag) : f.dashed.toList = '-' :: '-' :: f.option.long.toList := String.toList_append

/-- a flag with its value behind `=` is read at once -/
theorem command_attached (hs : s.Reads before) (hsaid : f.Says raw) (honce : Flag.Once (before ++ [f]))
    (args : List String) :
    s.command .report ((f.dashed ++ "=" ++ raw) :: args) =
      command .report ⟨.ofFlags (before ++ [f]), .nothing, false⟩ args := by
  have htext : (f.dashed ++ "=" ++ raw).toList = '-' :: '-' :: (f.option.long.toList ++ '=' :: raw.toList) := by
    rw [String.toList_append, String.toList_append, toList_dashed, List.append_assoc]
    rfl
  have hoption : s.option f.option (some raw) = .ok ⟨.ofFlags (before ++ [f]), .nothing, false⟩ := by
    simp only [option, takesValue_option, hs.settle, bind, Except.bind, Given.setValue_flag hsaid honce]
    rfl
  rw [command, argument_option hs.options htext (by simp) (splitLong_attached ..), hoption]
  rfl

/-- a value of its own is taken, and waits to be checked -/
theorem command_separate (hs : s.Reads before) (hraw : raw.toList.head? ≠ some '-') (args : List String) :
    s.command .report (f.dashed :: raw :: args) =
      command .report ⟨.ofFlags before, .value f.option raw, false⟩ args := by
  have hne : f.option.long.toList ≠ [] := by cases f <;> simp [Flag.option, OptionName.long]
  have hoption : s.option f.option none = .ok ⟨.ofFlags before, .awaited f.option, false⟩ := by
    simp only [option, takesValue_option, hs.settle]
    rfl
  rw [command, argument_option hs.options (toList_dashed f) hne (splitLong_bare _), hoption]
  change command .report ⟨.ofFlags before, .awaited f.option, false⟩ (raw :: args) = _
  rw [command, argument_value hraw]
  rfl

theorem reads_value (hsaid : f.Says raw) (honce : Flag.Once (before ++ [f])) :
    Reads ⟨.ofFlags before, .value f.option raw, false⟩ (before ++ [f]) where
  settle := by
    change ((Given.ofFlags before).setValue f.option raw).map _ = _
    rw [Given.setValue_flag hsaid honce]
    rfl
  options := rfl

/-- by induction on the flags: after each of them it is read beside those before it -/
theorem command_written {flags : List Flag} {args : List String} (h : Flag.Written flags args) (hs : s.Reads before)
    (honce : Flag.Once (before ++ flags)) : ∃ t, s.command .report args = .ok t ∧ t.Reads (before ++ flags) := by
  induction h generalizing s before with
  | none => exact ⟨s, rfl, by rwa [List.append_nil]⟩
  | attached hsaid _ ih =>
    rw [List.append_cons] at honce ⊢
    rw [command_attached hs hsaid honce.prefix]
    exact ih (reads_ofFlags _) honce
  | separate hsaid hraw _ ih =>
    rw [List.append_cons] at honce ⊢
    rw [command_separate hs hraw]
    exact ih (reads_value hsaid honce.prefix) honce

theorem Reads.finish_eq {database : Option String} (hs : s.Reads before) (hdatabase : database ≠ some "") :
    s.finish database = .ok (.ofFlags before) := by
  simp [finish, hs.settle, hdatabase, bind, Except.bind, pure, Except.pure]

end Scan

/-- a report is read as what its flags say -/
theorem Invocation.parse_written {flags : List Flag} {args : List String} (h : Flag.Written flags args)
    (honce : Flag.Once flags) {database : Option String} (hdatabase : database ≠ some "") :
    Invocation.parse database ("report" :: args) = .ok ⟨none, none, database, .report (.ofFlags flags)⟩ := by
  obtain ⟨t, hcommand, hreads⟩ := Scan.command_written h (Scan.reads_ofFlags []) honce
  have hcommand : Scan.start.command .report args = .ok t := hcommand
  have hinner := hreads.finish_eq hdatabase
  have houter : Scan.start.finish database = .ok .nothing := (Scan.reads_ofFlags []).finish_eq hdatabase
  have hprogram : Scan.start.program ("report" :: args) = .ok (Scan.start, some (.report, args)) := rfl
  simp only [parse, hprogram, hcommand, hinner, houter, bind, Except.bind]
  cases database <;> rfl

/-! ## The flags of a request -/

theorem parseLimit_ofNat (n : UInt64) : parseLimit (String.ofList (Numeral.ofNat n.toNat)) = some n := by
  unfold parseLimit
  rw [String.toList_ofList]
  dsimp only
  split
  next rest hplus =>
    have hdigit : '+' ∈ Numeral.ofNat n.toNat := by rw [hplus]; exact List.mem_cons_self
    exact absurd (Numeral.isDigit_of_mem_ofNat hdigit) (by decide)
  next =>
    rw [Numeral.nat?_ofNat, Option.filter_some, if_pos (fitsUInt64_toNat n), Option.map_some, UInt64.ofNat_toNat]

namespace Flag

/-- the value of the option as it is usually written -/
def value : Flag → String
  | query q => q.key
  | filter field value => field ++ "=" ++ value
  | group name => name
  | order column => column
  | limit n => String.ofList (Numeral.ofNat n.toNat)
  | request file => file

/-- flags are written one after the other, each as one argument -/
theorem written_map {flags : List Flag} (h : ∀ f ∈ flags, f.Says f.value) :
    Written flags (flags.map fun f => f.dashed ++ "=" ++ f.value) := by
  induction flags with
  | nil => exact .none
  | cons f flags ih =>
    obtain ⟨hf, hflags⟩ := List.forall_mem_cons.1 h
    exact .attached hf (ih hflags)

end Flag

namespace Request

/-- the flags of all but the query -/
def details (r : Request) : List Flag :=
  (r.filters.entries.map fun p => .filter p.1 (p.2.getD "")) ++ r.group.toList.map .group ++
    r.order.toList.map .order ++ r.limit.toList.map .limit

/-- the filters can be written as flags: each has a value, and the field can be told from it -/
structure Flaggable (r : Request) : Prop where
  keys : ∀ field ∈ r.filters.keys, Text.Trimmed field.toList ∧ '=' ∉ field.toList
  values : ∀ p ∈ r.filters.entries, p.2 ≠ none

/-- the flags of the request, in any order; messages are counted where no flag says what to count -/
inductive Flagged (r : Request) : List Flag → Prop
  | asked {flags : List Flag} : flags.Perm (.query r.query :: r.details) → Flagged r flags
  | unasked {flags : List Flag} : r.query = .messageCount → flags.Perm r.details → Flagged r flags

variable {r : Request} {flags : List Flag}

namespace Flagged

/-- what is said of all but the query -/
theorem filterMap_perm (h : r.Flagged flags) {β : Type} {read : Flag → Option β}
    (hquery : read (.query r.query) = none) : (flags.filterMap read).Perm (r.details.filterMap read) := by
  cases h with
  | asked hperm =>
    have hread := hperm.filterMap read
    rwa [List.filterMap_cons_none hquery] at hread
  | unasked _ hperm => exact hperm.filterMap read

theorem filterMap_eq (h : r.Flagged flags) {β : Type} {read : Flag → Option β} (hquery : read (.query r.query) = none)
    {o : Option β} (hdetails : r.details.filterMap read = o.toList) : flags.filterMap read = o.toList := by
  have hperm := h.filterMap_perm hquery
  rw [hdetails] at hperm
  cases o with
  | none => exact hperm.eq_nil
  | some b => exact List.perm_singleton.1 hperm

theorem group_eq (h : r.Flagged flags) : flags.filterMap Flag.group? = r.group.toList :=
  h.filterMap_eq rfl (by simp [details, List.filterMap_map, Function.comp_def])

theorem order_eq (h : r.Flagged flags) : flags.filterMap Flag.order? = r.order.toList :=
  h.filterMap_eq rfl (by simp [details, List.filterMap_map, Function.comp_def])

theorem limit_eq (h : r.Flagged flags) : flags.filterMap Flag.limit? = r.limit.toList :=
  h.filterMap_eq rfl (by simp [details, List.filterMap_map, Function.comp_def])

theorem request_eq (h : r.Flagged flags) : flags.filterMap Flag.request? = [] :=
  h.filterMap_eq (o := none) rfl (by simp [details, List.filterMap_map, Function.comp_def])

theorem filters_perm (h : r.Flagged flags) :
    (flags.filterMap Flag.filter?).Perm (r.filters.entries.map fun p => (p.1, p.2.getD "")) := by
  have hperm : (flags.filterMap Flag.filter?).Perm (r.details.filterMap Flag.filter?) := h.filterMap_perm rfl
  simpa [details, List.filterMap_map, Function.comp_def] using hperm

theorem query_eq (h : r.Flagged flags) :
    flags.filterMap Flag.query? = [r.query] ∨ flags.filterMap Flag.query? = [] ∧ r.query = .messageCount := by
  have hdetails : r.details.filterMap Flag.query? = [] := by simp [details, List.filterMap_map, Function.comp_def]
  cases h with
  | asked hperm =>
    have hread := hperm.filterMap Flag.query?
    rw [List.filterMap_cons_some (show Flag.query? (.query r.query) = some r.query from rfl), hdetails] at hread
    exact .inl (List.perm_singleton.1 hread)
  | unasked hquery hperm =>
    have hread := hperm.filterMap Flag.query?
    rw [hdetails] at hread
    exact .inr ⟨hread.eq_nil, hquery⟩

theorem once (h : r.Flagged flags) : Flag.Once flags where
  query := by rcases h.query_eq with hquery | ⟨hquery, -⟩ <;> simp [hquery]
  group := by rw [h.group_eq]; cases r.group <;> simp
  order := by rw [h.order_eq]; cases r.order <;> simp
  limit := by rw [h.limit_eq]; cases r.limit <;> simp
  request := by simp [h.request_eq]

/-- each flag can be written, whichever it is -/
theorem says_value (h : r.Flagged flags) (hr : r.Flaggable) : ∀ f ∈ flags, f.Says f.value := by
  have hdetails : ∀ f ∈ r.details, f.Says f.value := by
    intro f hf
    simp only [details, List.mem_append, List.mem_map] at hf
    rcases hf with ((⟨p, hp, rfl⟩ | ⟨_, -, rfl⟩) | ⟨_, -, rfl⟩) | ⟨n, -, rfl⟩
    · refine parseFilter_eq_some_iff.2 ⟨[], [], ?_, rfl, rfl, hr.keys p.1 (List.mem_map_of_mem hp)⟩
      simp [Flag.value]
    · rfl
    · rfl
    · exact parseLimit_ofNat n
  have hquery : (Flag.query r.query).Says (Flag.query r.query).value := by cases r.query <;> rfl
  intro f hf
  cases h with
  | asked hperm =>
    rcases List.mem_cons.1 (hperm.mem_iff.1 hf) with rfl | hf
    · exact hquery
    · exact hdetails f hf
  | unasked _ hperm => exact hdetails f (hperm.mem_iff.1 hf)

/-- the flags of a request say that request -/
theorem override_eq (h : r.Flagged flags) (hr : r.Flaggable) :
    (ReportOptions.ofFlags flags).override .everything = r := by
  have hquery : (flags.findSome? Flag.query?).getD .messageCount = r.query := by
    rcases h.query_eq with hquery | ⟨hquery, hcount⟩
    · rw [findSome?_of_filterMap (o := some r.query) hquery]; rfl
    · rw [findSome?_of_filterMap (o := none) hquery, hcount]; rfl
  have hfilters : (flags.filterMap Flag.filter?).foldl (fun f p => f.insert p.1 (some p.2)) .empty = r.filters := by
    have hpairs : ((flags.filterMap Flag.filter?).map fun p => (p.1, some p.2)).Perm r.filters.entries := by
      have hmap := h.filters_perm.map fun p => (p.1, some p.2)
      have hentries : (r.filters.entries.map fun p => (p.1, p.2.getD "")).map (fun p => (p.1, some p.2)) =
          r.filters.entries := by
        rw [List.map_map]
        refine (List.map_congr_left fun p hp => ?_).trans (List.map_id _)
        obtain ⟨v, hv⟩ := Option.ne_none_iff_exists'.1 (hr.values p hp)
        cases p
        cases hv
        rfl
      rwa [hentries] at hmap
    rw [← r.filters.ofPairs_eq hpairs, Keyed.ofPairs, List.foldl_map]
  have hgiven : ∀ {β : Type} {read : Flag → Option β} {o : Option β}, flags.filterMap read = o.toList →
      (flags.findSome? read <|> none) = o := by
    intro β read o hread
    rw [findSome?_of_filterMap hread]
    cases o <;> rfl
  have hgroup := hgiven h.group_eq
  have horder := hgiven h.order_eq
  have hlimit := hgiven h.limit_eq
  cases r
  exact (Request.mk.injEq ..).mpr ⟨hquery, hfilters, hgroup, horder, hlimit⟩

end Flagged

end Request

/-! ## Requests of command lines -/

namespace Command

/-- the arguments are those of a report, and it comes by this request -/
def Yields (answer : Answers) (l : Locations) (database : Option String) (args : List String) (r : Request) : Prop :=
  ∃ o, Invocation.parse database ("report" :: args) = .ok ⟨none, none, database, .report o⟩ ∧
    ∀ log, (follow (buildRequest (Host.answering answer) l.workingDirectory o) log).1 = .ok r

variable {answer : Answers} {l : Locations} {database : Option String} {flags : List Flag} {args : List String}
  {r : Request}

/-- a command line comes by one request at most -/
theorem Yields.iff_eq (h : Yields answer l database args r) (q : Request) :
    Yields answer l database args q ↔ q = r := by
  constructor
  · rintro ⟨o, ho, hq⟩
    obtain ⟨p, hp, hr⟩ := h
    cases ho.symm.trans hp
    exact Except.ok.inj ((hq []).symm.trans (hr []))
  · rintro rfl
    exact h

variable (hdatabase : database ≠ some "")

include hdatabase

theorem yields_iff (hargs : Flag.Written flags args) (honce : Flag.Once flags) :
    Yields answer l database args r ↔
      ∃ base, Based answer l (.ofFlags flags) base ∧ (ReportOptions.ofFlags flags).Overlays base r := by
  have hparse := Invocation.parse_written hargs honce hdatabase
  constructor
  · rintro ⟨o, ho, hbuild⟩
    rw [hparse] at ho
    cases ho
    exact (buildRequest_eq_ok_iff []).1 (hbuild [])
  · intro h
    exact ⟨_, hparse, fun log => (buildRequest_eq_ok_iff log).2 h⟩

theorem yields_flagged (hr : r.Flaggable) (hflags : r.Flagged flags) (hargs : Flag.Written flags args) :
    Yields answer l database args r := by
  refine (yields_iff hdatabase hargs hflags.once).2 ⟨.everything, ?_, ?_⟩
  · have hnone : (ReportOptions.ofFlags flags).request = none := findSome?_of_filterMap hflags.request_eq
    rw [Based, hnone]
  · exact ReportOptions.overlays_iff.2 (hflags.override_eq hr).symm

theorem yields_file {file text : String} {j : Json} (hargs : Flag.Written [.request file] args) (hform : r.Form j)
    (htext : j.Spelled text.toList) (hread : answer (.readText (Path.join l.workingDirectory file)) = .ok text) :
    Yields answer l database args r := by
  have honce : Flag.Once [.request file] := ⟨Nat.zero_le 1, Nat.zero_le 1, Nat.zero_le 1, Nat.zero_le 1, le_rfl⟩
  refine (yields_iff hdatabase hargs honce).2 ⟨r, ⟨text, hread, Request.parse_form hform htext⟩, ?_⟩
  exact ReportOptions.overlays_iff.2 rfl

end Command

/-- **Flags and request files agree.** -/
theorem request_paths (answer : Answers) (l : Locations) :
    (∀ o r log, (Command.follow (Command.buildRequest (Host.answering answer) l.workingDirectory o) log).1 = .ok r ↔
      ∃ base, Command.Based answer l o base ∧ o.Overlays base r) ∧
    (∀ (o : ReportOptions) base r before field after, o.Overlays base r → o.filters = before ++ (field, "") :: after →
      field ∉ after.map Prod.fst → r.value? field = none) ∧
    (∀ raw, (∃ p, parseFilter raw = some p) ↔
      ∃ front rest, raw.toList = front ++ '=' :: rest ∧ '=' ∉ front ∧ Text.allBlank front = false) ∧
    (∀ raw field value, parseFilter raw = some (field, value) ↔
      ∃ before after, raw.toList = before ++ field.toList ++ after ++ '=' :: value.toList ∧
        Text.allBlank before = true ∧ Text.allBlank after = true ∧ Text.Trimmed field.toList ∧ '=' ∉ field.toList) ∧
    ∀ database : Option String, database ≠ some "" →
      (∀ flags args r, Flag.Written flags args → Flag.Once flags →
        (Command.Yields answer l database args r ↔
          ∃ base, Command.Based answer l (.ofFlags flags) base ∧ (ReportOptions.ofFlags flags).Overlays base r)) ∧
      ∀ r : Request, r.Flaggable →
        (∀ flags, r.Flagged flags → Flag.Written flags (flags.map fun f => f.dashed ++ "=" ++ f.value) ∧
          ∀ args, Flag.Written flags args → ∀ q, Command.Yields answer l database args q ↔ q = r) ∧
        ∀ file (text : String) args j, Flag.Written [.request file] args → r.Form j → j.Spelled text.toList →
          answer (.readText (Path.join l.workingDirectory file)) = .ok text →
          ∀ q, Command.Yields answer l database args q ↔ q = r := by
  refine ⟨fun o r log => Command.buildRequest_eq_ok_iff log, ?_, fun _ => exists_parseFilter_iff,
    fun _ _ _ => parseFilter_eq_some_iff, fun database hdatabase => ⟨?_, fun r hr => ⟨?_, ?_⟩⟩⟩
  · intro o base r before field after hover hfilters hlast
    exact hover.value?_of_empty hfilters hlast
  · intro flags args r hargs honce
    exact Command.yields_iff hdatabase hargs honce
  · intro flags hflags
    refine ⟨Flag.written_map (hflags.says_value hr), fun args hargs => ?_⟩
    exact (Command.yields_flagged hdatabase hr hflags hargs).iff_eq
  · intro file text args j hargs hform htext hread
    exact (Command.yields_file hdatabase hargs hform htext hread).iff_eq

/-- launches of a simulation with a strange name, in any project -/
def sampleFlagged : Request where
  query := .sessionCount
  filters := .ofPairs [("sim_name", some "a=\"b c\""), ("sim_project", some "")]
  group := some "week"
  order := none
  limit := some 7

theorem request_paths_sample :
    Command.Yields (Host.granting sampleFlagged.toJson.compact (.stored Database.sampleStore)) ⟨"/home", "/work", "/db"⟩
        none ["--filter=sim_project=", "--group", "week", "--filter", " sim_name =a=\"b c\"", "--limit=+07",
          "--query=session_count"] sampleFlagged ∧
      Command.Yields (Host.granting sampleFlagged.toJson.compact (.stored Database.sampleStore))
        ⟨"/home", "/work", "/db"⟩ none ["--request", "weeks.json"] sampleFlagged := by
  have hflaggable : sampleFlagged.Flaggable := ⟨by decide, by decide⟩
  obtain ⟨-, -, -, -, hlines⟩ := request_paths
    (Host.granting sampleFlagged.toJson.compact (.stored Database.sampleStore)) ⟨"/home", "/work", "/db"⟩
  obtain ⟨hflags, hfile⟩ := (hlines none nofun).2 sampleFlagged hflaggable
  constructor
  · have hflagged : sampleFlagged.Flagged [.filter "sim_project" "", .group "week", .filter "sim_name" "a=\"b c\"",
        .limit 7, .query .sessionCount] := .asked (by decide)
    have hproject : (Flag.filter "sim_project" "").Says "sim_project=" := show parseFilter _ = _ by decide
    have hgroup : (Flag.group "week").Says "week" := rfl
    have hname : (Flag.filter "sim_name" "a=\"b c\"").Says " sim_name =a=\"b c\"" := show parseFilter _ = _ by decide
    have hlimit : (Flag.limit 7).Says "+07" := show parseLimit _ = _ by decide
    have hquery : (Flag.query .sessionCount).Says "session_count" := rfl
    refine ((hflags _ hflagged).2 _ ?_ _).2 rfl
    refine .attached hproject (.separate hgroup (by decide) ?_)
    exact .separate hname (by decide) (.attached hlimit (.attached hquery .none))
  · have hargs : Flag.Written [.request "weeks.json"] ["--request", "weeks.json"] :=
      .separate ⟨rfl, by decide⟩ (by decide) .none
    refine (hfile "weeks.json" _ _ _ hargs sampleFlagged.form_toJson ?_ rfl _).2 rfl
    rw [Json.compact, String.toList_ofList]
    exact Json.spelled_chars sampleFlagged.exact_toJson

end LaunchReports
