/-
Plans that are listed instead of executed.

- `Command.parse_explanation`: what a report answers when it just explains is read back whole, the listing with it.
- `text_literals_delimited`: in such a listing, as in a comparison that is shown, the text of a literal and its end can
  be told from the characters alone.
-/
import LaunchReports.Proofs.Command.Report
import LaunchReports.Proofs.Report.Envelopes
import LaunchReports.Proofs.Report.VariableLifetime
import LaunchReports.Proofs.Sql.Comparison

namespace LaunchReports

/-! ## Listings -/

theorem Statement.params_toJson (s : Statement) :
    s.toJson.member? "params" = some (.strings (s.params.map Value.literal)) := rfl

/-- the parameters of a statement that are texts, read off its literals -/
theorem Statement.textOfLiteral?_params (s : Statement) :
    (s.params.map Value.literal).map Value.textOfLiteral? = s.params.map Value.asText? := by
  rw [List.map_map]
  exact List.map_congr_left fun v _ => v.textOfLiteral?_literal

/-- a request looks at most each name table up -/
theorem Request.fitsUInt64_size {r : Request} {plan : Plan Aggregate} (h : r.compile = .ok plan) :
    fitsUInt64 plan.size = true := by
  obtain ⟨dimension, arrangement, cs, -, -, -, -, -, rfl⟩ := compile_ok_iff.1 h
  have hlookups : r.lookups.length ≤ Field.nameTables.length := by
    simpa using r.targets_sublist.length_le
  have htables : Field.nameTables.length + 2 < UInt64.size := by decide
  have hsize : (Plan.mk r.lookups (Aggregate.mk r.query (r.select cs dimension arrangement))).size ≤
      r.lookups.length + 2 := by
    rw [Plan.size_eq]
    split_ifs <;> simp
  simp only [fitsUInt64, Bool.and_eq_true, decide_eq_true_eq]
  omega

namespace Command

variable {r : Request} {plan : Plan Aggregate}

theorem explanation_eq_addAll (r : Request) (plan : Plan Aggregate) :
    explanation r plan = (Envelope.ofPlan CommandName.report.text Aggregate.statement plan).addAll
      [.fact "query" (.string r.query.key), .fact "executed" (.bool false)] := rfl

theorem data_explanation (r : Request) (plan : Plan Aggregate) :
    (explanation r plan).data = some (.object [("statements", plan.toJson Aggregate.statement)]) := by
  rw [explanation_eq_addAll, Envelope.data_addAll]
  rfl

/-- nothing is lost of a listing in its written form -/
theorem parse_explanation (h : r.compile = .ok plan) :
    Envelope.parse (explanation r plan).text.toList = .ok (explanation r plan) := by
  have hreported : Envelope.Reported (.ofPlan CommandName.report.text Aggregate.statement plan) :=
    .plan _ _ (Request.fitsUInt64_size h)
  have hkept : ∀ a ∈ [Addition.fact "query" (.string r.query.key), .fact "executed" (.bool false)], a.Kept := by
    intro a ha
    rcases List.mem_pair.1 ha with rfl | rfl
    · exact Addition.kept_fact _ (.string _)
    · exact Addition.kept_fact _ (.bool _)
  have hvalid := (Envelope.consistent_and_valid (.inr hreported)).2.addAll fun a ha => (hkept a ha).1
  have hnulls := hreported.all_ne_null.addAll fun a ha => (hkept a ha).2
  rw [explanation_eq_addAll, Envelope.parse_text hvalid, Envelope.withoutNulls_eq_self hnulls]

end Command

/-! ## Text literals -/

/-- **The literal of a text says where it ends: it is read back as that text, and nothing else is shown like it.** -/
theorem text_literals_delimited (text : String) :
    (∀ rest, Value.readLiteral ((Value.text text).literal.toList ++ rest) = some (text.toList, rest) ↔
      rest.head? ≠ some '\'') ∧
    (∀ v : Value, v.literal = (Value.text text).literal ↔ v = .text text) ∧
    (∀ op rest, ∃ behind,
      (Comparison.binary op (.text text)).display.toList ++ rest = op.symbol.toList ++ ' ' :: behind ∧
        (Value.readLiteral behind = some (text.toList, rest) ↔ rest.head? ≠ some '\'')) ∧
    (∀ op (c : Comparison), c.display = (Comparison.binary op (.text text)).display ↔ c = .binary op (.text text)) ∧
    ∀ answer l o r plan log, Command.Merged answer l o r → r.compile = .ok plan → o.explain = true →
      ∃ (e : Envelope) (listed : List Json),
        Command.follow (Command.report (Host.answering answer) l o) log =
            (.ok (), log ++ Command.requesting l o ++ [.print e.text]) ∧
          Envelope.parse e.text.toList = .ok e ∧ e.data = some (.object [("statements", .array listed)]) ∧
          List.Forall₂
            (fun (s : Statement) j => ∃ literals, j.member? "params" = some (.strings literals) ∧
              literals.map Value.textOfLiteral? = s.params.map Value.asText?)
            (plan.statements Aggregate.statement) listed := by
  have hread (rest : List Char) :
      Value.readLiteral ((Value.text text).literal.toList ++ rest) = some (text.toList, rest) ↔
        rest.head? ≠ some '\'' := by
    rw [Value.toList_literal, Value.readLiteral_eq_some_iff]
    exact and_iff_right rfl
  refine ⟨hread, fun v => Value.literal_eq_text_iff, fun op rest => ?_, fun op c => Comparison.display_eq_text_iff, ?_⟩
  · refine ⟨(Value.text text).literal.toList ++ rest, ?_, hread rest⟩
    rw [Comparison.toList_display_binary, List.append_assoc, List.cons_append]
  · intro answer l o r plan log hmerged hcompile hexplain
    refine ⟨Command.explanation r plan, _, Command.follow_report_explained log hmerged hcompile hexplain,
      Command.parse_explanation hcompile, Command.data_explanation r plan, ?_⟩
    rw [List.forall₂_map_right_iff, List.forall₂_same]
    exact fun s _ => ⟨_, s.params_toJson, s.textOfLiteral?_params⟩

/-- launches of a simulation whose name has quotes inside and at its end -/
def sampleExplained : ReportOptions where
  query := none
  filters := [("sim_name", "it's 'gas'")]
  group := none
  order := none
  limit := none
  request := none
  explain := true
  singleValue := false

theorem text_literals_delimited_sample :
    Value.readLiteral "'it''s ''gas''', 'next'".toList = some ("it's 'gas'".toList, ", 'next'".toList) ∧
    ∃ (e : Envelope) (listed : List Json) (j : Json) (literal : String),
      Command.follow (Command.report (Host.answering (Host.granting "" (.stored Database.sampleStore)))
          ⟨"/home", "/work", "/db"⟩ sampleExplained) [] = (.ok (), [.print e.text]) ∧
        Envelope.parse e.text.toList = .ok e ∧ e.data = some (.object [("statements", .array listed)]) ∧ j ∈ listed ∧
        j.member? "params" = some (.strings [literal]) ∧ Value.textOfLiteral? literal = some "it's 'gas'" := by
  obtain ⟨hread, -, -, -, hexplained⟩ := text_literals_delimited "it's 'gas'"
  refine ⟨(hread ", 'next'".toList).2 (by decide), ?_⟩
  have hcompile : (sampleExplained.override .everything).compile = .ok _ := rfl
  obtain ⟨e, listed, hfollow, hparse, hdata, hlisted⟩ := hexplained
    (Host.granting "" (.stored Database.sampleStore)) ⟨"/home", "/work", "/db"⟩ sampleExplained _ _ [] rfl hcompile rfl
  -- the declaration comes first, then the statement that looks the name up
  rcases hlisted with _ | ⟨-, _ | ⟨⟨literals, hparams, htexts⟩, -⟩⟩
  obtain ⟨literal, rfl, hliteral⟩ := List.map_eq_singleton_iff.1 htexts
  exact ⟨e, _, _, literal, hfollow, hparse, hdata, .tail _ (.head _), hparams, hliteral⟩

end LaunchReports
