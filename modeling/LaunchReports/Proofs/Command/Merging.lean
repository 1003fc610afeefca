/-
A request file with the options of a report over it.

`Command.Based` says which request the options are put over, `ReportOptions.Overlays` what comes out, field by field.

- `ReportOptions.overlays_iff`: that is what the options make of a request, and nothing else is.
- `Command.buildRequest_eq_ok_iff`: a report that comes by a request comes by such a one.
- `parseFilter_eq_some_iff`: a filter is a field, white space around it, and after the first `=` its value.
-/
import LaunchReports.Proofs.Command.Report
import LaunchReports.Proofs.Text.Keys
import LaunchReports.Proofs.Text.Trimming

namespace LaunchReports

/-! ## Options over a request -/

namespace ReportOptions

/-- the request says what the options say, and what the other one says where they say nothing -/
structure Overlays (o : ReportOptions) (base r : Request) : Prop where
  query : r.query = o.query.getD base.query
  /-- of the filters of a field the last one counts -/
  named : ∀ before field value after, o.filters = before ++ (field, value) :: after → field ∉ after.map Prod.fst →
    r.filters.get? field = some (some value)
  unnamed : ∀ field ∉ o.filters.map Prod.fst, r.filters.get? field = base.filters.get? field
  group : r.group = (o.group <|> base.group)
  order : r.order = (o.order <|> base.order)
  limit : r.limit = (o.limit <|> base.limit)

variable {o : ReportOptions} {base r : Request}

theorem overlays_override (o : ReportOptions) (base : Request) : o.Overlays base (o.override base) where
  query := rfl
  named before field value after hfilters hlast := by
    rw [override, hfilters]
    exact Keyed.get?_foldl_insert_last some hlast base.filters
  unnamed field h := Keyed.get?_foldl_insert_of_notMem some h base.filters
  group := rfl
  order := rfl
  limit := rfl

theorem overlays_iff : o.Overlays base r ↔ r = o.override base := by
  constructor
  · intro h
    have hown := overlays_override o base
    have hfilters : r.filters = (o.override base).filters := by
      apply Keyed.ext_get?
      intro field
      by_cases hnamed : field ∈ o.filters.map Prod.fst
      · obtain ⟨before, value, after, hsplit, hlast⟩ := Keyed.exists_last hnamed
        rw [h.named before field value after hsplit hlast, hown.named before field value after hsplit hlast]
      · rw [h.unnamed field hnamed, hown.unnamed field hnamed]
    cases r
    exact (Request.mk.injEq ..).mpr ⟨h.query, hfilters, h.group, h.order, h.limit⟩
  · rintro rfl
    exact overlays_override o base

/-- an empty value takes away the filter that the request has -/
theorem Overlays.value?_of_empty (h : o.Overlays base r) {before after : List (String × String)} {field : String}
    (hfilters : o.filters = before ++ (field, "") :: after) (hlast : field ∉ after.map Prod.fst) :
    r.value? field = none := by
  rw [Request.value?, h.named before field "" after hfilters hlast]
  rfl

end ReportOptions

namespace Command

variable {answer : Answers} {l : Locations} {o : ReportOptions} {r : Request}

/-- the request that the options are put over: that of the request file, or the request for everything -/
def Based (answer : Answers) (l : Locations) (o : ReportOptions) (base : Request) : Prop :=
  match o.request with
  | none => base = .everything
  | some file => ∃ text, answer (.readText (Path.join l.workingDirectory file)) = .ok text ∧
      Request.parse text.toList = .ok base

theorem merged_iff : Merged answer l o r ↔ ∃ base, Based answer l o base ∧ o.Overlays base r := by
  simp only [ReportOptions.overlays_iff]
  unfold Merged Based
  cases o.request with
  | none => simp
  | some file =>
    constructor
    · rintro ⟨text, base, htext, hparse, hr⟩
      exact ⟨base, ⟨text, htext, hparse⟩, hr⟩
    · rintro ⟨base, ⟨text, htext, hparse⟩, hr⟩
      exact ⟨text, base, htext, hparse, hr⟩

theorem buildRequest_eq_ok_iff (log : List Access) :
    (follow (buildRequest (Host.answering answer) l.workingDirectory o) log).1 = .ok r ↔
      ∃ base, Based answer l o base ∧ o.Overlays base r := by
  rw [← merged_iff]
  constructor
  · intro h
    have hmerged (s : Request) (hs : Merged answer l o s) : Merged answer l o r := by
      rw [follow_buildRequest_merged log hs] at h
      cases h
      exact hs
    rcases request_cases answer l o with hunreadable | (hinvalid | ⟨s, e, hs, -⟩) | ⟨s, plan, hs, -⟩
    · obtain ⟨path, e, hread⟩ := follow_buildRequest_unreadable log hunreadable
      rw [hread] at h
      cases h
    · obtain ⟨path, e, hread⟩ := follow_buildRequest_invalid log hinvalid
      rw [hread] at h
      cases h
    · exact hmerged s hs
    · exact hmerged s hs
  · intro h
    rw [follow_buildRequest_merged log h]

end Command

/-! ## Filters -/

theorem takeWhile_ne_append {c : Char} {front : List Char} (h : c ∉ front) (rest : List Char) :
    (front ++ c :: rest).takeWhile (· ≠ c) = front ∧ (front ++ c :: rest).dropWhile (· ≠ c) = c :: rest := by
  have hfront : ∀ d ∈ front, decide (d ≠ c) = true := fun d hd => decide_eq_true fun e => h (e ▸ hd)
  rw [List.takeWhile_append_of_pos hfront, List.dropWhile_append_of_pos hfront]
  simp

theorem takeWhile_ne_self {c : Char} {text : List Char} (h : c ∉ text) :
    text.takeWhile (· ≠ c) = text ∧ text.dropWhile (· ≠ c) = [] := by
  have htext : ∀ d ∈ text, decide (d ≠ c) = true := fun d hd => decide_eq_true fun e => h (e ▸ hd)
  exact ⟨List.takeWhile_eq_self_iff.2 htext, List.dropWhile_eq_nil_iff.2 htext⟩

/-- what is read of a text with an `=` -/
theorem parseFilter_append {raw : String} {front rest : List Char} (hraw : raw.toList = front ++ '=' :: rest)
    (hfront : '=' ∉ front) :
    parseFilter raw =
      if Text.allBlank front then none else some (String.ofList (Text.trim front), String.ofList rest) := by
  obtain ⟨htake, hdrop⟩ := takeWhile_ne_append hfront rest
  simp only [parseFilter, hraw, htake, hdrop]

theorem exists_parseFilter_iff {raw : String} :
    (∃ p, parseFilter raw = some p) ↔
      ∃ front rest, raw.toList = front ++ '=' :: rest ∧ '=' ∉ front ∧ Text.allBlank front = false := by
  constructor
  · rintro ⟨p, hp⟩
    by_cases hmem : '=' ∈ raw.toList
    · obtain ⟨front, rest, hraw, hfront⟩ := List.eq_append_cons_of_mem hmem
      refine ⟨front, rest, hraw, hfront, ?_⟩
      rw [parseFilter_append hraw hfront] at hp
      by_contra hblank
      rw [if_pos (by simpa using hblank)] at hp
      cases hp
    · simp only [parseFilter, (takeWhile_ne_self hmem).2] at hp
      cases hp
  · rintro ⟨front, rest, hraw, hfront, hblank⟩
    rw [parseFilter_append hraw hfront, hblank]
    exact ⟨_, rfl⟩

theorem parseFilter_eq_some_iff {raw field value : String} :
    parseFilter raw = some (field, value) ↔
      ∃ before after, raw.toList = before ++ field.toList ++ after ++ '=' :: value.toList ∧
        Text.allBlank before = true ∧ Text.allBlank after = true ∧ Text.Trimmed field.toList ∧ '=' ∉ field.toList := by
  constructor
  · intro h
    obtain ⟨front, rest, hraw, hfront, hblank⟩ := exists_parseFilter_iff.1 ⟨_, h⟩
    rw [parseFilter_append hraw hfront, hblank] at h
    cases h
    obtain ⟨before, after, htrim, hbefore, hafter, htrimmed⟩ := Text.exists_trim hblank
    rw [String.toList_ofList, String.toList_ofList]
    refine ⟨before, after, by rw [hraw, ← htrim], hbefore, hafter, htrimmed, fun hmem => hfront ?_⟩
    rw [htrim]
    exact List.mem_append_left _ (List.mem_append_right _ hmem)
  · rintro ⟨before, after, hraw, hbefore, hafter, htrimmed, hfield⟩
    have hnone : ∀ {blanks : List Char}, Text.allBlank blanks = true → '=' ∉ blanks :=
      fun hblanks hmem => absurd (List.all_eq_true.1 hblanks _ hmem) (by decide)
    have hfront : '=' ∉ before ++ field.toList ++ after := by simp [hnone hbefore, hnone hafter, hfield]
    rw [parseFilter_append hraw hfront, htrimmed.allBlank_append, htrimmed.trim_append hbefore hafter]
    simp

end LaunchReports
