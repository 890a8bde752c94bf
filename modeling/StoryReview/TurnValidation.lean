import StoryReview.Errors
import StoryReview.OrderedDict

/-!
# Facilitator turn validation

The turn-context rules that an accepted facilitator output satisfies: the
severity fence of the opening turn, the identifier lifecycle against the
decision state it was given, and a descriptor for every minted identifier.
The decision state itself is the latest-wins map over recorded resolutions
together with the open list of the last delegation.
-/
namespace StoryReview

/-- Latest-wins aggregation per issue id, in first-seen order. -/
def latestResolutions (resolutions : List ResolutionItem) : List ResolutionItem :=
  (OrderedDict.ofList ResolutionItem.issue resolutions).values

/-- `DecisionState(resolutions=…, open_issues=…)`. -/
def DecisionState.validate (resolutions : List ResolutionItem)
    (openIssues : List IssueId) : Except PyException DecisionState :=
  if h : resolutions.length ≤ 200 ∧ openIssues.length ≤ 100 then
    .ok ⟨resolutions, openIssues, h.1, h.2⟩
  else
    .error .validationError

/-- The name an invocation's result is reconciled under. -/
inductive InvocationId where
  | facilitatorTurn (key : IdempotencyKey) (sessionId : SessionId) (turnNumber : ℕ)
  | facilitatorSummary (key : IdempotencyKey) (sessionId : SessionId) (turnNumber : ℕ)
deriving DecidableEq, Repr

structure FacilitatorInvocation where
  sessionId : SessionId
  turnNumber : ℕ
  invocationId : InvocationId
  poMessage : Option Text := none
  synthesisReport : SynthesisReport
  synthesisReference : ArtifactReference
  evidenceReferences : List ArtifactReference := []
  decisionState : Option DecisionState := none

/-- `{item.issue: item for item in …}`. -/
def resolutionMap (resolutions : List ResolutionItem) : OrderedDict IssueId ResolutionItem :=
  OrderedDict.ofList ResolutionItem.issue resolutions

/-- The ids whose descriptor a turn may rely on: synthesis-born, or already seen
in the decision state. -/
def knownIssues (report : SynthesisReport) (decisionState : Option DecisionState) :
    List IssueId :=
  report.issueIds ++
    match decisionState with
    | none => []
    | some state => state.resolutions.map ResolutionItem.issue ++ state.openIssues

/-- Turn-1 resolutions may only be `resolved` dispositions for `info` or `minor`
synthesis findings. -/
def validateOpeningFence (output : FacilitatorTurnOutput) (report : SynthesisReport) :
    Except PyException Unit :=
  let fenceable := (report.mergedFindings.filter fun finding =>
    decide (finding.severity = .info ∨ finding.severity = .minor)).map Finding.id
  match output.resolutions.find? fun draft =>
      decide (draft.disposition ≠ .resolved ∨ draft.issue ∉ fenceable) with
  | none => .ok ()
  | some draft => .error (.turnInvalid (s!"opening-turn severity fence: issue {draft.issue} with " ++
      s!"disposition '{draft.disposition.wire}' may not be resolved on " ++
      "turn 1 — only info/minor synthesis findings with a " ++
      "`resolved` disposition may be settled before the PO's " ++
      "first answer; leave it for a later turn"))

def validateOpeningTurn (output : FacilitatorTurnOutput) (report : SynthesisReport) :
    Except PyException Unit :=
  if output.delegation.invoke ≠ .none then
    .error (.turnInvalid "the opening turn must emit delegation.invoke = none")
  else
    validateOpeningFence output report

/-- The ids this output reopens. -/
def FacilitatorTurnOutput.reopened (output : FacilitatorTurnOutput) : List IssueId :=
  (output.resolutions.filter fun draft =>
    decide (draft.disposition = .reopened)).map ResolutionDraft.issue

/-- The ids this output settles. -/
def FacilitatorTurnOutput.settledNow (output : FacilitatorTurnOutput) : List IssueId :=
  (output.resolutions.filter fun draft =>
    decide draft.disposition.Settled).map ResolutionDraft.issue

/-- A settled id on the open list needs a `reopened` disposition, and a turn
cannot settle an id and keep it on its own open list. -/
def validateIdentifierLifecycle (output : FacilitatorTurnOutput) (state : DecisionState) :
    Except PyException Unit :=
  let settled := fun issue =>
    ((resolutionMap state.resolutions).get? issue).filter fun recorded =>
      decide recorded.disposition.Settled
  match output.delegation.openIssues.findSome? fun issue =>
      (settled issue).filter fun _ => decide (issue ∉ output.reopened) with
  | some recorded => .error (.turnInvalid (s!"issue {recorded.issue} was {recorded.disposition.wire} at turn " ++
      s!"{recorded.turnNumber} — re-appearing in open_issues " ++
      "requires a reopened disposition this turn (identifiers " ++
      "are immutable; a new concern gets a fresh id)"))
  | none =>
      match output.delegation.openIssues.find? fun issue =>
          decide (issue ∈ output.settledNow) with
      | some issue => .error (.turnInvalid (s!"issue {issue} is resolved this turn but still listed in " ++
          "open_issues — a turn cannot settle and retain the same " ++
          "issue; either drop it from open_issues or re-open it later"))
      | none => .ok ()

/-- Every id the facilitator mints needs an `IssueDraft` on the turn it first
appears in `open_issues`. -/
def validateIssueDescriptors (output : FacilitatorTurnOutput) (report : SynthesisReport)
    (decisionState : Option DecisionState) : Except PyException Unit :=
  let described := output.newIssues.map IssueDraft.issue
  match output.delegation.openIssues.find? fun issue =>
      decide (issue ∉ knownIssues report decisionState ∧ issue ∉ described) with
  | none => .ok ()
  | some issue => .error (.turnInvalid (s!"issue {issue}" ++
      " is newly minted — it needs an IssueDraft in new_issues this turn, e.g. " ++
      "\"new_issues\": [\x7b\"issue\": \"" ++ issue ++
      "\", \"title\": \"...\", \"description\": \"...\"\x7d] " ++
      "(synthesis-born ids must not be re-described)"))

def validateFacilitatorTurn (output : FacilitatorTurnOutput)
    (request : FacilitatorInvocation) : Except PyException Unit := do
  (if request.turnNumber = 1 then
    validateOpeningTurn output request.synthesisReport else pure ())
  (match request.decisionState with
    | some state => validateIdentifierLifecycle output state
    | none => pure ())
  validateIssueDescriptors output request.synthesisReport request.decisionState

/-- Turn 10 parks the session. -/
def parkTurn : ℕ := 10

/-- Gate precedence, on the turn's final typed output. -/
def evaluateGate (facilitatorTurn : ℕ) (delegation : DelegationDecision) : TurnOutcome :=
  if facilitatorTurn ≥ parkTurn then .park
  else if delegation.openIssues = [] ∧ delegation.invoke = .none then .finalize
  else .cont

theorem evaluateGate_eq_park {n : ℕ} {d : DelegationDecision} :
    evaluateGate n d = .park ↔ parkTurn ≤ n := by
  unfold evaluateGate
  split_ifs with h <;> simp_all

/-! ## What the validators accept -/

theorem validateIssueDescriptors_eq_ok {output : FacilitatorTurnOutput}
    {report : SynthesisReport} {decisionState : Option DecisionState} :
    validateIssueDescriptors output report decisionState = .ok () ↔
      ∀ issue ∈ output.delegation.openIssues,
        issue ∈ knownIssues report decisionState ∨
          issue ∈ output.newIssues.map IssueDraft.issue := by
  simp only [validateIssueDescriptors]
  split
  · next h =>
      simp only [List.find?_eq_none, decide_eq_true_eq, not_and_or, not_not] at h
      exact ⟨fun _ => h, fun _ => rfl⟩
  · next issue h =>
      have hbad := List.find?_some h
      simp only [decide_eq_true_eq] at hbad
      refine ⟨by rintro ⟨⟩, fun hall => ?_⟩
      have hopen := List.mem_of_find?_eq_some h
      rcases hall issue hopen with hk | hd
      · exact absurd hk hbad.1
      · exact absurd hd hbad.2

theorem validateIdentifierLifecycle_eq_ok {output : FacilitatorTurnOutput}
    {state : DecisionState} :
    validateIdentifierLifecycle output state = .ok () ↔
      (∀ issue ∈ output.delegation.openIssues, ∀ recorded,
        (resolutionMap state.resolutions).get? issue = some recorded →
          recorded.disposition.Settled → issue ∈ output.reopened) ∧
        ∀ issue ∈ output.delegation.openIssues, issue ∉ output.settledNow := by
  simp only [validateIdentifierLifecycle]
  split
  · next recorded h =>
      refine ⟨by rintro ⟨⟩, fun hall => ?_⟩
      obtain ⟨issue, hopen, hget⟩ := List.exists_of_findSome?_eq_some h
      simp only [Option.filter_eq_some_iff, decide_eq_true_eq] at hget
      exact absurd (hall.1 issue hopen recorded hget.1.1 hget.1.2) hget.2
  · next h =>
      rw [List.findSome?_eq_none_iff] at h
      have hfirst : ∀ issue ∈ output.delegation.openIssues, ∀ recorded,
          (resolutionMap state.resolutions).get? issue = some recorded →
            recorded.disposition.Settled → issue ∈ output.reopened := by
        intro issue hopen recorded hget hset
        have hnone := h issue hopen
        by_contra hno
        simp [hget, hset, hno, Option.filter] at hnone
      split
      · next issue h' =>
          refine ⟨by rintro ⟨⟩, fun hall => ?_⟩
          have hset := List.find?_some h'
          exact absurd (of_decide_eq_true hset) (hall.2 issue (List.mem_of_find?_eq_some h'))
      · next h' =>
          simp only [List.find?_eq_none, decide_eq_true_eq] at h'
          exact ⟨fun _ => ⟨hfirst, h'⟩, fun _ => rfl⟩

/-- An accepted output passed the lifecycle check against the decision state it
was given and the descriptor check against what that state makes known. -/
theorem validateFacilitatorTurn_eq_ok {output : FacilitatorTurnOutput}
    {request : FacilitatorInvocation} (h : validateFacilitatorTurn output request = .ok ()) :
    (request.turnNumber = 1 →
        validateOpeningTurn output request.synthesisReport = .ok ()) ∧
      (∀ state, request.decisionState = some state →
        validateIdentifierLifecycle output state = .ok ()) ∧
      validateIssueDescriptors output request.synthesisReport request.decisionState =
        .ok () := by
  have bind_ok : ∀ {x : Except PyException Unit} {f : Unit → Except PyException Unit},
      (x >>= f) = .ok () → x = .ok () ∧ f () = .ok () := by
    intro x f hx
    cases x with
    | ok u => exact ⟨rfl, hx⟩
    | error e => cases hx
  simp only [validateFacilitatorTurn] at h
  refine ⟨fun h₁ => ?_, fun state hs => ?_, ?_⟩
  · rw [if_pos h₁] at h
    exact (bind_ok h).1
  · have h' := (bind_ok h).2
    rw [hs] at h'
    exact (bind_ok h').1
  · have h' := (bind_ok h).2
    exact (bind_ok h').2

end StoryReview
