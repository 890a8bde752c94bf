import StoryReview.Downstream

/-!
# Flow 3: the final report

A finalizing session's catalog, review and reports. The session is marked
`finalizing` first; a non-retryable failure rolls it back to `active`, a
retryable one leaves it, and completion is left to the caller's transaction.
-/
namespace StoryReview.Finalization
open StoryReview

/-! ## The final review -/

def findingEntry (finding : Finding) : IssueEntry where
  issue := finding.id
  title := finding.title
  description := finding.description
  severity := some finding.severity
  source := .synthesis

def conflictEntry (conflict : ConflictItem) : IssueEntry where
  issue := conflict.id
  title := "Conflict " ++ conflict.id
  description := conflict.description
  source := .synthesis

def draftEntry (draft : IssueDraft) : IssueEntry where
  issue := draft.issue
  title := draft.title
  description := draft.description
  source := .facilitator

/-- The entries one synthesis version contributes, in order. -/
def synthesisEntries (report : SynthesisReport) : List IssueEntry :=
  report.mergedFindings.map findingEntry ++ report.conflicts.map conflictEntry

/-- The latest synthesis wins on collision, and any synthesis over a draft. -/
def catalogEntries (synthesisReports : List SynthesisReport) (turns : List TurnRecord) :
    OrderedDict IssueId IssueEntry :=
  (OrderedDict.ofList IssueEntry.issue (synthesisReports.flatMap synthesisEntries)).setDefaults
    IssueDraft.issue draftEntry (turns.flatMap TurnRecord.newIssues)

def issueCatalog (synthesisReports : List SynthesisReport) (turns : List TurnRecord) :
    Except Text (List IssueEntry) :=
  let entries := (catalogEntries synthesisReports turns).values
  if entries.length > 400 then
    .error s!"issue catalog exceeds the 400-entry cap ({entries.length})"
  else .ok entries

def aggregateResolutions (turns : List TurnRecord) : List ResolutionItem :=
  (latestResolutions (turns.flatMap TurnRecord.resolutions)).take 200

/-- The open list of the last turn that has a delegation. -/
def lastOpenIssues (turns : List TurnRecord) : List IssueId :=
  match turns.reverse.findSome? TurnRecord.delegation with
  | some delegation => delegation.openIssues
  | none => []

/-- Only an explicit acceptance may retain open issues. -/
def remainingOpenIssues (turns : List TurnRecord) (poAccepted : Bool) : List IssueId :=
  if poAccepted then lastOpenIssues turns else []

/-- `(po_accepted, final_turn_number)`; there is no last turn to read of an empty
history. -/
def acceptanceState (turns : List TurnRecord) : Option (Bool × ℕ) :=
  turns.getLast?.map fun last => (last.poAccepted, last.turnNumber)

/-- The first validator of the finalized review that fails. -/
def finalStateFailure (review : FinalizedReview) : Option Text :=
  let catalog := review.issues.map IssueEntry.issue
  let latest := resolutionMap review.resolutions
  if review.issues.length > 400 ∨ review.resolutions.length > 200 ∨
      review.remainingOpenIssues.length > 100 then
    some "a list is too long"
  else if review.synthesisReference.type ≠ .synthesis ∨
      review.synthesisReference.storyRunId ≠ review.storyRunId then
    some "final review requires this run's synthesis reference"
  else if review.remainingOpenIssues ≠ [] ∧ review.poAccepted = false then
    some "normal readiness cannot retain open issues"
  else if ¬ catalog.Nodup then
    some "issue catalog entries must be unique per issue id"
  else
    match review.remainingOpenIssues.find? fun issue =>
        (latest.get? issue).any fun item => decide item.disposition.Settled with
    | some issue =>
        some s!"remaining open issue has a resolved/accepted latest disposition: {issue}"
    | none =>
        match (latest.keys ++ review.remainingOpenIssues).filter fun issue =>
            decide (issue ∉ catalog) with
        | [] => none
        | missing => some s!"issues referenced without a catalog entry: {missing}"

def finalReviewInvalid (failure : Text) (correlationId : Uuid) : PyException :=
  .finalizationFailed ⟨503, makeError .finalReviewInvalid s!"invalid final state: {failure}"
    correlationId false⟩ false

/-- Assemble the deterministic finalized review; a validation failure is a
deterministic defect and never retried. -/
def buildFinalReview (session : SessionRecord) (synthesisReference : ArtifactReference)
    (synthesisReports : List SynthesisReport) (turns : List TurnRecord)
    (finalizedAt : Time) (correlationId : Uuid) : Except PyException FinalizedReview :=
  match acceptanceState turns with
  | none => .error .indexError
  | some (poAccepted, finalTurnNumber) =>
      match issueCatalog synthesisReports turns with
      | .error failure => .error (finalReviewInvalid failure correlationId)
      | .ok catalog =>
          let review : FinalizedReview := {
            storyId := session.storyId
            storyRunId := session.storyRunId
            synthesisReference := synthesisReference
            issues := catalog
            resolutions := aggregateResolutions turns
            remainingOpenIssues := remainingOpenIssues turns poAccepted
            poAccepted := poAccepted
            finalTurnNumber := finalTurnNumber
            finalizedAt := finalizedAt }
          match finalStateFailure review with
          | some failure => .error (finalReviewInvalid failure correlationId)
          | none => .ok review

/-! ## Downstream steps -/

/-- One synthesis version's content; malformed content is never retried. -/
def synthesisReport (reference : ArtifactReference) (correlationId : Uuid) :
    Orchestration SynthesisReport :=
  Program.tryCatch (Lineage.synthesisReport reference correlationId) fun
    | .validationError => .raise (.finalizationFailed ⟨503, makeError .upstreamUnavailable
        "malformed synthesis artifact content" correlationId false⟩ false)
    | .apiError error => .raise (.finalizationFailed error error.error.retryable)
    | .mcpTransportError | .deadlineExceededError | .mcpCallFailure _ =>
        .raise (.finalizationFailed ⟨503, makeError .upstreamUnavailable
          "artifact MCP unavailable" correlationId true⟩ true)
    | exc => .raise exc

def saveFinalReview (session : SessionRecord) (review : FinalizedReview)
    (key : IdempotencyKey) (correlationId : Uuid) : Orchestration ArtifactReference :=
  Program.tryCatch
    (Flows.saveArtifact .finalizedReview session.storyRunId (.finalizedReview review) key
      correlationId) fun
    | .apiError error => .raise (.finalizationFailed error error.error.retryable)
    | exc => .raise exc

/-- `RenderReportInput(…)`. -/
def renderReportInput (storyRunId : RunId) (reference : ArtifactReference)
    (format : Format) : Except PyException RenderReportInput :=
  if h : reference.storyRunId = storyRunId ∧ reference.type = .finalizedReview then
    .ok ⟨storyRunId, reference, format, h⟩
  else .error .validationError

/-- `report_client.call("render_report", …)`. -/
def callRender (request : RenderReportInput) (correlationId : Uuid) :
    Orchestration RenderReportOutput :=
  storeCall request.storyRunId (ReportStore.renderReport request)
    fun e => reportErrorFor e correlationId

/-- One `render_report` call. -/
def renderOne (session : SessionRecord) (finalReviewReference : ArtifactReference)
    (correlationId : Uuid) (format : Format) : Orchestration ArtifactReference := do
  let request ← Program.ofExcept
    (renderReportInput session.storyRunId finalReviewReference format)
  let output ← Program.tryCatch (callRender request correlationId) fun
    | .validationError => .raise (.finalizationFailed ⟨503, makeError .upstreamUnavailable
        "malformed render_report output" correlationId false⟩ false)
    | .mcpCallFailure error => .raise (.finalizationFailed ⟨503, makeError error.code
        error.message correlationId error.retryable⟩ error.retryable)
    | .mcpTransportError | .deadlineExceededError =>
        .raise (.finalizationFailed ⟨503, makeError .upstreamUnavailable
          "report MCP unavailable" correlationId true⟩ true)
    | exc => .raise exc
  pure output.reference

/-! ## The flow -/

structure FinalizationResult where
  finalReviewReference : ArtifactReference
  reportReferences : List ArtifactReference
deriving DecidableEq, Repr

/-- The synthesis references the turns produced, turn-ordered and deduplicated. -/
def versionReferences (turns : List TurnRecord) : List ArtifactReference :=
  (OrderedDict.empty.setDefaults ArtifactReference.artifactId id
    ((turns.flatMap TurnRecord.producedArtifacts).filter fun r =>
      decide (r.type = .synthesis))).values

/-- Every synthesis version the catalog unions, or the newest alone. -/
def catalogReferences (turns : List TurnRecord) (synthesisReference : ArtifactReference) :
    List ArtifactReference :=
  if versionReferences turns = [] then [synthesisReference] else versionReferences turns

/-- The guarded part: catalog, review, save and renders. -/
def produceReports (session : SessionRecord) (turns : List TurnRecord)
    (key : IdempotencyKey) (correlationId : Uuid) (synthesisReference : ArtifactReference) :
    Orchestration FinalizationResult := do
  let synthesisReports ← Program.traverse (fun r => synthesisReport r correlationId)
    (catalogReferences turns synthesisReference)
  let finalizedAt ← now
  let review ← Program.ofExcept (buildFinalReview session synthesisReference
    synthesisReports turns finalizedAt correlationId)
  let finalReference ← saveFinalReview session review key correlationId
  let reportReferences ← Program.traverse (renderOne session finalReference correlationId)
    session.requestedFormats
  pure ⟨finalReference, reportReferences⟩

def runFlow3 (session : SessionRecord) (turns : List TurnRecord) (key : IdempotencyKey)
    (correlationId : Uuid) (synthesisReference : ArtifactReference) :
    Orchestration FinalizationResult := do
  RecordsStore.updateSession session.sessionId { state := some .finalizing }
  let result ← Program.tryCatch
    (produceReports session turns key correlationId synthesisReference) fun
    | .finalizationFailed error false => do
        RecordsStore.updateSession session.sessionId { state := some .active }
        .raise (.finalizationFailed error false)
    | exc => .raise exc
  RecordsStore.setFinalizingTurnArtifacts session.sessionId
    (result.finalReviewReference :: result.reportReferences)
  pure result

/-- Report references, `completed` and the canonical response, in one
transaction. -/
def completeTransaction (slot : ClaimSlot) (sessionId : SessionId)
    (facilitatorTurnCount : Option ℕ) (response : CanonicalResponse)
    (result : FinalizationResult) : Orchestration Unit :=
  execute fun w => Idempotency.completed slot response
    (RecordsStore.sessionUpdated sessionId
      { state := some .completed
        facilitatorTurnCount := facilitatorTurnCount
        finalReviewReference := some result.finalReviewReference
        reportReferences := some result.reportReferences } w)

end StoryReview.Finalization
