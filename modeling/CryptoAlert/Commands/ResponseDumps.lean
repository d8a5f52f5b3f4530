import CryptoAlert.Commands.Payloads
import CryptoAlert.Lib.Patch

/-!
# The JSON form of review responses

A response is stored in a command, read by the worker that claims the command, sent to the graph
and read there. The dumps leave out nulls, whether they were given or not; what the graph keeps of
an edit are the fields that it finds.
-/

namespace CryptoAlert

def ReviewAction.name : ReviewAction → String
  | approve => "approve"
  | reject => "reject"
  | edit => "edit"

def ReviewAction.codec : Codec ReviewAction :=
  Codec.enum [approve, reject, edit] name (by intro a; cases a <;> decide)

/-- The fields of `ArtifactEdit`. -/
def ArtifactEdit.patch : Patch ArtifactEdit :=
  ((Patch.field "regime" Regime.codec fun _ => nofun).and
    ((Patch.field "factor_scores" Codec.integer.dict fun _ => nofun).and
    ((Patch.field "total_score" Codec.integer Codec.dump_integer_ne_null).and
    ((Patch.field "main_action" Action.codec Action.dump_ne_null).and
    ((Patch.field "reference_price" PositiveDecimal.codec PositiveDecimal.dump_ne_null).and
    ((Patch.field "entry_trigger" PositiveDecimal.codec PositiveDecimal.dump_ne_null).and
    ((Patch.field "stop_price" PositiveDecimal.codec PositiveDecimal.dump_ne_null).and
    ((Patch.field "target_1" PositiveDecimal.codec PositiveDecimal.dump_ne_null).and
    ((Patch.field "target_2" PositiveDecimal.codec PositiveDecimal.dump_ne_null).and
    ((Patch.field "probability" UnitInterval.codec fun _ => nofun).and
    ((Patch.field "position_size_class" PositionSizeClass.codec fun _ => nofun).and
    ((Patch.field "max_leverage" PositiveInteger.codec fun _ => nofun).and
    ((Patch.field "risk_pct" UnitDecimal.codec fun _ => nofun).and
    ((Patch.field "root_cause_chain"
      (Codec.text.list.subtype fun causes => 1 ≤ causes.length) fun _ => nofun).and
    ((Patch.field "why_not_opposite" NonEmptyText.codec fun _ => nofun).and
    ((Patch.field "invalidation" NonEmptyText.codec fun _ => nofun).and
    ((Patch.field "unavailable_data" Codec.text.list fun _ => nofun).and
    ((Patch.field "manual_execution_required" Codec.bool fun _ => nofun).and
    (Patch.field "expires_in_seconds" PositiveInteger.codec fun _ => nofun)
    (by decide)) (by decide)) (by decide)) (by decide)) (by decide)) (by decide)) (by decide))
    (by decide)) (by decide)) (by decide)) (by decide)) (by decide)) (by decide)) (by decide))
    (by decide)) (by decide)) (by decide)) (by decide)).iso
    (fun e => (e.regime, e.factorScores, e.totalScore, e.mainAction, e.referencePrice,
      e.entryTrigger, e.stopPrice, e.target1, e.target2, e.probability, e.positionSizeClass,
      e.maxLeverage, e.riskPct, e.rootCauseChain, e.whyNotOpposite, e.invalidation,
      e.unavailableData, e.manualExecutionRequired, e.expiresInSeconds))
    (fun (regime, scores, total, action, reference, entry, stop, first, second, probability, size,
      leverage, risk, causes, opposite, invalidation, unavailable, manual, expires) =>
      ⟨regime, scores, total, action, reference, entry, stop, first, second, probability, size,
        leverage, risk, causes, opposite, invalidation, unavailable, manual, expires⟩)
    (fun _ => rfl) (fun _ => rfl)

theorem ArtifactEdit.prune_patch (e : ArtifactEdit) : ArtifactEdit.patch.prune e = e.excludeNone :=
  rfl

/-- `DeepResearchReportEdit`. -/
def DeepResearchReport.editCodec : Codec DeepResearchReport :=
  (Record.field "report" DeepResearchReport.codec).codec (by decide)

namespace ReviewEdits

/-- `model_dump(mode="json", exclude_none=True)` of edits. -/
def dumpValues : ReviewEdits → Json
  | artifact edit => .obj (ArtifactEdit.patch.values edit.val)
  | deepResearch report => DeepResearchReport.editCodec.dump report

/-- `model_dump(mode="json", exclude_unset=True)` of edits. -/
def dumpSet : ReviewEdits → Json
  | artifact edit => ArtifactEdit.patch.codec.dump edit.val
  | deepResearch report => DeepResearchReport.editCodec.dump report

/-- The validation of edits: the first kind that accepts them. -/
def read (j : Json) : Option ReviewEdits :=
  ((ArtifactEdit.patch.codec.read j).bind fun edit =>
    if h : edit ≠ ArtifactEdit.unchanged then some (.artifact ⟨edit, h⟩) else none) <|>
  (DeepResearchReport.editCodec.read j).map .deepResearch

end ReviewEdits

/-- The fields of a response: its action with the edits and the comment that there are. -/
def responseFields (action : ReviewAction) (edits : Option Json)
    (comment : Option (BoundedText 1 1000)) : List (String × Json) :=
  ("action", ReviewAction.codec.dump action) ::
    (edits.toList.map fun j => ("edits", j)) ++
      comment.toList.map fun c => ("comment", (BoundedText.codec 1 1000).dump c)

/-- `model_dump(mode="json", exclude_none=True)` of a response. -/
def ReviewResponse.dumpValues (r : ReviewResponse) : Json :=
  .obj (responseFields r.action (r.edits.map ReviewEdits.dumpValues) r.comment)

/-- A field that may be missing or null. -/
def Json.optional {α : Type} (read : Json → Option α) : Option Json → Option (Option α)
  | none | some .null => some none
  | some j => (read j).map some

/-- `ReviewResponse.model_validate`; `none` where it raises. -/
def ReviewResponse.read : Json → Option ReviewResponse
  | .obj o =>
      if o.all fun kv => ["action", "edits", "comment"].contains kv.1 then do
        let action ← (o.lookup "action").bind ReviewAction.codec.read
        let edits ← Json.optional ReviewEdits.read (o.lookup "edits")
        let comment ← Json.optional (BoundedText.codec 1 1000).read (o.lookup "comment")
        if h : action = .edit ↔ edits.isSome = true then some ⟨action, edits, comment, h⟩
        else none
      else none
  | _ => none

/-- The stored form of edits. -/
def EditsDump.toJson : EditsDump → Json
  | .artifact edit => ArtifactEdit.patch.codec.dump edit
  | .deepResearch report => DeepResearchReport.editCodec.dump report

/-- The stored form of a response. -/
def ResponseDump.toJson (d : ResponseDump) : Json :=
  .obj (responseFields d.action (d.edits.map EditsDump.toJson) d.comment)

theorem ReviewEdits.dumpValues_eq (e : ReviewEdits) : e.dumpValues = e.modelDump.toJson := by
  cases e with
  | artifact edit => exact congrArg Json.obj (ArtifactEdit.patch.values_eq edit.val)
  | deepResearch report => rfl

theorem ReviewResponse.dumpValues_eq (r : ReviewResponse) : r.dumpValues = r.modelDump.toJson := by
  have hedits : r.edits.map ReviewEdits.dumpValues =
      (r.edits.map ReviewEdits.modelDump).map EditsDump.toJson := by
    rw [Option.map_map]
    exact Option.map_congr fun e _ => e.dumpValues_eq
  exact congrArg (fun j => Json.obj (responseFields r.action j r.comment)) hedits

/-- An object with a report is no artifact edit. -/
theorem ArtifactEdit.read_editCodec (report : DeepResearchReport) :
    ArtifactEdit.patch.codec.read (DeepResearchReport.editCodec.dump report) = none := by
  rfl

theorem DeepResearchReport.read_patch (edit : ArtifactEdit) :
    DeepResearchReport.editCodec.read (ArtifactEdit.patch.codec.dump edit) = none := by
  have hnames : "report" ∉ ArtifactEdit.patch.names := by decide
  have hlookup : (ArtifactEdit.patch.dump edit).lookup "report" = none := by
    rw [List.lookup_eq_none_iff]
    intro kv hkv
    rw [bne_iff_ne]
    exact fun heq => hnames (heq ▸ ArtifactEdit.patch.dump_names edit kv hkv)
  have hread : (Record.field "report" DeepResearchReport.codec).read
      (ArtifactEdit.patch.dump edit) = none := by
    change ((ArtifactEdit.patch.dump edit).lookup "report").bind _ = none
    rw [hlookup, Option.bind_none]
  change (if _ then (Record.field "report" DeepResearchReport.codec).read
    (ArtifactEdit.patch.dump edit) else none) = none
  rw [hread, ite_self]

theorem EditsDump.read_toJson (d : EditsDump) : ReviewEdits.read d.toJson = d.modelValidate := by
  cases d with
  | artifact edit =>
      rw [ReviewEdits.read, toJson, ArtifactEdit.patch.codec.read_dump, Option.bind_some,
        DeepResearchReport.read_patch, modelValidate]
      split <;> rfl
  | deepResearch report =>
      rw [ReviewEdits.read, toJson, ArtifactEdit.read_editCodec, Option.bind_none,
        DeepResearchReport.editCodec.read_dump]
      rfl

theorem EditsDump.toJson_ne_null (d : EditsDump) : d.toJson ≠ .null := by
  cases d with
  | artifact edit => exact nofun
  | deepResearch report => exact nofun

theorem Json.optional_some {α : Type} {read : Json → Option α} {j : Json} (h : j ≠ .null) :
    Json.optional read (some j) = (read j).map some := by
  cases j with
  | null => exact absurd rfl h
  | _ => rfl

section Fields

variable (action : ReviewAction) (edits : Option Json) (comment : Option (BoundedText 1 1000))

theorem lookup_action :
    (responseFields action edits comment).lookup "action" =
      some (ReviewAction.codec.dump action) := by
  rw [responseFields, List.cons_append, List.lookup_cons_self]

theorem lookup_edits : (responseFields action edits comment).lookup "edits" = edits := by
  cases edits <;> cases comment <;> rfl

theorem lookup_comment :
    (responseFields action edits comment).lookup "comment" =
      comment.map (BoundedText.codec 1 1000).dump := by
  cases edits <;> cases comment <;> rfl

theorem keys_responseFields :
    (responseFields action edits comment).all fun kv =>
      ["action", "edits", "comment"].contains kv.1 := by
  cases edits <;> cases comment <;> rfl

end Fields

/-- A worker and the graph read of a stored response what its typed form says. -/
theorem ResponseDump.read_toJson (d : ResponseDump) :
    ReviewResponse.read d.toJson = d.modelValidate := by
  have hcomment : Json.optional (BoundedText.codec 1 1000).read
      (d.comment.map (BoundedText.codec 1 1000).dump) = some d.comment := by
    cases d.comment with
    | none => rfl
    | some c =>
        change ((BoundedText.codec 1 1000).read ((BoundedText.codec 1 1000).dump c)).map some = _
        rw [(BoundedText.codec 1 1000).read_dump, Option.map_some]
  have hread : ReviewResponse.read d.toJson =
      (Json.optional ReviewEdits.read (d.edits.map EditsDump.toJson)).bind fun edits =>
        if h : d.action = .edit ↔ edits.isSome = true then some ⟨d.action, edits, d.comment, h⟩
        else none := by
    have hkeys := keys_responseFields d.action (d.edits.map EditsDump.toJson) d.comment
    change (if (responseFields d.action (d.edits.map EditsDump.toJson) d.comment).all
      (fun kv => ["action", "edits", "comment"].contains kv.1) then _ else none) = _
    rw [if_pos hkeys, lookup_action, lookup_edits, lookup_comment, Option.bind_some,
      ReviewAction.codec.read_dump, hcomment]
    rfl
  rw [hread, modelValidate]
  cases d.edits with
  | none => rfl
  | some e =>
      rw [Option.map_some, Json.optional_some e.toJson_ne_null, EditsDump.read_toJson]
      dsimp only
      cases e.modelValidate with
      | none => rfl
      | some edits => rfl

end CryptoAlert
