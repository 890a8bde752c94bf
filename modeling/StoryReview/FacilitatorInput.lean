import Mathlib.Data.Finset.Dedup
import Mathlib.Data.Finset.Lattice.Basic
import StoryReview.TurnValidation

/-!
# The turn rules of the local adapter

`agent_kit` states the turn-context rules over sets and dictionaries of its own
request model, orchestration states them over the invocation it sends. A loop
that raises at the first bad element lets exactly the lists pass that have none,
so both copies come down to the same conditions.
-/
namespace StoryReview

/-! ## Guards that raise -/

section Guards
variable {ε α : Type}

/-- `if p: raise e`. -/
def raiseIf (p : Prop) [Decidable p] (e : ε) : Except ε Unit :=
  if p then .error e else .ok ()

@[simp] theorem raiseIf_eq_ok {p : Prop} [Decidable p] {e : ε} :
    raiseIf p e = .ok () ↔ ¬ p := by
  unfold raiseIf
  split_ifs with h <;> simp [h]

@[simp] theorem seq_eq_ok {x y : Except ε Unit} :
    (do x; y) = .ok () ↔ x = .ok () ∧ y = .ok () := by
  cases x with
  | ok u => simp [bind, Except.bind]
  | error e => simp [bind, Except.bind]

@[simp] theorem forM_eq_ok {f : α → Except ε Unit} {xs : List α} :
    xs.forM f = .ok () ↔ ∀ x ∈ xs, f x = .ok () := by
  induction xs with
  | nil => simp [pure, Except.pure]
  | cons x xs ih =>
      have hcons : (x :: xs).forM f = (do f x; xs.forM f) := rfl
      rw [hcons, seq_eq_ok, ih, List.forall_mem_cons]

end Guards

/-- The request model of the facilitator adapter: an invocation that passed the
adapter's own validators. -/
structure FacilitatorRequest extends FacilitatorInvocation where
  turnNumber_bounds : 1 ≤ turnNumber ∧ turnNumber ≤ 10
  opening_without_message : turnNumber = 1 → poMessage = none
  later_with_message : 1 < turnNumber → poMessage.isSome
  reference_is_synthesis : synthesisReference.type = .synthesis
  /-- Evidence belongs to the synthesis run. -/
  one_lineage : ∀ reference ∈ evidenceReferences,
    reference.storyRunId = synthesisReference.storyRunId

namespace AgentKit

/-- Why an output is turned down. -/
structure FacilitatorTurnInvalid where
  reason : Text
deriving DecidableEq, Repr

section Rules
variable (output : FacilitatorTurnOutput) (request : FacilitatorInvocation)

/-- The synthesis findings that turn 1 may settle. -/
def fenceable : Finset IssueId :=
  ((request.synthesisReport.mergedFindings.filter fun finding =>
    decide (finding.severity ∈ [.info, .minor])).map Finding.id).toFinset

/-- `_validate_opening_fence`. -/
def validateOpeningFence : Except FacilitatorTurnInvalid Unit :=
  output.resolutions.forM fun draft =>
    raiseIf (draft.disposition ≠ .resolved ∨ draft.issue ∉ fenceable request)
      ⟨s!"opening-turn severity fence: issue {draft.issue} with " ++
        s!"disposition '{draft.disposition.wire}' may not be resolved on " ++
        "turn 1 — only info/minor synthesis findings with a " ++
        "`resolved` disposition may be settled before the PO's " ++
        "first answer; leave it for a later turn"⟩

/-- Ids born in the latest synthesis. -/
def synthesisIssueIds : Finset IssueId :=
  (request.synthesisReport.mergedFindings.map Finding.id).toFinset ∪
    (request.synthesisReport.conflicts.map ConflictItem.id).toFinset

def known : Finset IssueId :=
  match request.decisionState with
  | none => synthesisIssueIds request
  | some state => synthesisIssueIds request ∪
      (state.resolutions.map ResolutionItem.issue).toFinset ∪ state.openIssues.toFinset

/-- `_validate_issue_descriptors`. -/
def validateIssueDescriptors : Except FacilitatorTurnInvalid Unit :=
  let described := (output.newIssues.map IssueDraft.issue).toFinset
  output.delegation.openIssues.forM fun issue =>
    raiseIf (issue ∉ known request ∧ issue ∉ described)
      ⟨s!"issue {issue}" ++
        " is newly minted — it needs an IssueDraft in new_issues this turn, e.g. " ++
        "\"new_issues\": [\x7b\"issue\": \"" ++ issue ++
        "\", \"title\": \"...\", \"description\": \"...\"\x7d] " ++
        "(synthesis-born ids must not be re-described)"⟩

/-- The ids this turn gives one of the dispositions `ds`. -/
def disposed (ds : List Disposition) : Finset IssueId :=
  ((output.resolutions.filter fun draft => decide (draft.disposition ∈ ds)).map
    ResolutionDraft.issue).toFinset

/-- The block of `validate_turn_output` about the decision state. Its second loop runs
over a set, and which element that names first is not specified. -/
def validateDecisions (state : DecisionState) : Except FacilitatorTurnInvalid Unit := do
  let latest := resolutionMap state.resolutions
  output.delegation.openIssues.forM fun issue =>
    match latest.get? issue with
    | none => .ok ()
    | some recorded =>
        raiseIf (recorded.disposition ∈ [.resolved, .accepted] ∧
            issue ∉ disposed output [.reopened])
          ⟨s!"issue {issue} was {recorded.disposition.wire} at turn " ++
            s!"{recorded.turnNumber} — re-appearing in open_issues " ++
            "requires a reopened disposition this turn (identifiers " ++
            "are immutable; a new concern gets a fresh id)"⟩
  let settledNow := disposed output [.resolved, .accepted]
  (output.delegation.openIssues.filter fun issue => decide (issue ∈ settledNow)).forM
    fun issue => .error ⟨s!"issue {issue} is resolved this turn but still listed in " ++
      "open_issues — a turn cannot settle and retain the same " ++
      "issue; either drop it from open_issues or re-open it later"⟩

/-- `validate_turn_output`. It reads only what the adapter's request model shares with
the invocation. -/
def validateTurnOutput : Except FacilitatorTurnInvalid Unit := do
  (if request.turnNumber = 1 then do
    raiseIf (output.delegation.invoke ≠ .none)
      ⟨"the opening turn must emit delegation.invoke = none"⟩
    validateOpeningFence output request
  else pure ())
  (match request.decisionState with
    | some state => validateDecisions output state
    | none => pure ())
  validateIssueDescriptors output request

/-! ## What each rule lets pass -/

variable {output request}

theorem mem_disposed_reopened {issue : IssueId} :
    issue ∈ disposed output [.reopened] ↔ issue ∈ output.reopened := by
  simp [disposed, FacilitatorTurnOutput.reopened]

theorem mem_settled {d : Disposition} : d ∈ [.resolved, .accepted] ↔ d.Settled := by
  cases d <;> decide

theorem mem_disposed_settled {issue : IssueId} :
    issue ∈ disposed output [.resolved, .accepted] ↔ issue ∈ output.settledNow := by
  unfold disposed FacilitatorTurnOutput.settledNow
  simp only [mem_settled, List.mem_toFinset]

theorem mem_known {issue : IssueId} :
    issue ∈ known request ↔ issue ∈ knownIssues request.synthesisReport request.decisionState := by
  unfold known knownIssues
  cases request.decisionState with
  | none => simp [synthesisIssueIds, SynthesisReport.issueIds, SynthesisReport.findingIds,
      SynthesisReport.conflictIds]
  | some state => simp [synthesisIssueIds, SynthesisReport.issueIds,
      SynthesisReport.findingIds, SynthesisReport.conflictIds]

theorem validateOpeningFence_agrees :
    validateOpeningFence output request = .ok () ↔
      StoryReview.validateOpeningFence output request.synthesisReport = .ok () := by
  have hfence : ∀ issue, issue ∈ fenceable request ↔
      issue ∈ (request.synthesisReport.mergedFindings.filter fun finding =>
        decide (finding.severity = .info ∨ finding.severity = .minor)).map Finding.id := by
    simp [fenceable]
  simp only [validateOpeningFence, forM_eq_ok, raiseIf_eq_ok, hfence,
    StoryReview.validateOpeningFence]
  split
  · next hnone => simpa using hnone
  · next draft hfound =>
      have hbad := List.find?_some hfound
      simp only [decide_eq_true_eq] at hbad
      simp only [reduceCtorEq, iff_false, not_forall, not_not]
      exact ⟨draft, List.mem_of_find?_eq_some hfound, hbad⟩

theorem validateDecisions_agrees {state : DecisionState} :
    validateDecisions output state = .ok () ↔
      validateIdentifierLifecycle output state = .ok () := by
  rw [validateIdentifierLifecycle_eq_ok, validateDecisions, seq_eq_ok, forM_eq_ok, forM_eq_ok]
  refine and_congr (forall₂_congr fun issue _ => ?_) ?_
  · cases (resolutionMap state.resolutions).get? issue with
    | none => simp
    | some recorded =>
        simp only [raiseIf_eq_ok, mem_settled, mem_disposed_reopened, Option.some.injEq,
          forall_eq']
        tauto
  · simp only [List.mem_filter, decide_eq_true_eq, mem_disposed_settled, reduceCtorEq]
    tauto

theorem validateIssueDescriptors_agrees :
    validateIssueDescriptors output request = .ok () ↔
      StoryReview.validateIssueDescriptors output request.synthesisReport
        request.decisionState = .ok () := by
  rw [validateIssueDescriptors_eq_ok, validateIssueDescriptors, forM_eq_ok]
  refine forall₂_congr fun issue _ => ?_
  simp only [raiseIf_eq_ok, mem_known, List.mem_toFinset]
  tauto

/-- Both copies accept the same outputs. -/
theorem validateTurnOutput_agrees :
    validateTurnOutput output request = .ok () ↔
      validateFacilitatorTurn output request = .ok () := by
  have hopening : (if request.turnNumber = 1 then do
        raiseIf (output.delegation.invoke ≠ .none)
          ⟨"the opening turn must emit delegation.invoke = none"⟩
        validateOpeningFence output request
      else pure () : Except FacilitatorTurnInvalid Unit) = .ok () ↔
      (if request.turnNumber = 1 then
        validateOpeningTurn output request.synthesisReport else pure ()) = .ok () := by
    split_ifs
    · rw [seq_eq_ok, raiseIf_eq_ok, validateOpeningFence_agrees, validateOpeningTurn]
      split_ifs with hinvoke <;> simp [hinvoke]
    · simp [pure, Except.pure]
  have hdecisions : (match request.decisionState with
        | some state => validateDecisions output state
        | none => pure ()) = .ok () ↔
      (match request.decisionState with
        | some state => validateIdentifierLifecycle output state
        | none => pure ()) = .ok () := by
    cases request.decisionState with
    | none => simp [pure, Except.pure]
    | some state => exact validateDecisions_agrees
  rw [validateTurnOutput, validateFacilitatorTurn, seq_eq_ok, seq_eq_ok, seq_eq_ok, seq_eq_ok,
    hopening, validateIssueDescriptors_agrees]
  exact and_congr_right' (and_congr_left' hdecisions)

end Rules

theorem rejects_iff {ε : Type} {x : Except ε Unit} : (∃ e, x = .error e) ↔ ¬ x = .ok () := by
  cases x <;> simp

/-- Orchestration's copy of the turn rules turns down the same outputs as the
adapter's. -/
theorem validateFacilitatorTurn_rejects_iff (output : FacilitatorTurnOutput)
    (request : FacilitatorInvocation) :
    (∃ e, validateFacilitatorTurn output request = .error e) ↔
      ∃ e, validateTurnOutput output request = .error e := by
  rw [rejects_iff, rejects_iff, validateTurnOutput_agrees]

end AgentKit
end StoryReview
