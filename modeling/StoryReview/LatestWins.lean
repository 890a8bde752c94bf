import StoryReview.DictLaws
import StoryReview.Catalog

/-!
# Latest dispositions

One aggregation of the recorded resolutions stands behind the decision state of
a facilitator turn and behind the final review. It may be taken in parts. The
two uses limit its size differently: the decision state refuses more than 200
items and the final review keeps the first 200.
-/
namespace StoryReview
open RecordsStore Finalization OrderedDict

section Latest
variable {resolutions later : List ResolutionItem} {turns : List TurnRecord}

/-- One item per issue, in the order of the first occurrences. -/
theorem issues_latestResolutions (resolutions : List ResolutionItem) :
    (latestResolutions resolutions).map ResolutionItem.issue =
      (resolutions.map ResolutionItem.issue).eraseDups := by
  rw [latestResolutions, map_key_values, keys_ofList]

/-- The last recorded item of an issue. -/
def lastOf (resolutions : List ResolutionItem) (issue : IssueId) : Option ResolutionItem :=
  (resolutions.filter fun item => decide (item.issue = issue)).getLast?

theorem lastOf_eq_get? (resolutions : List ResolutionItem) (issue : IssueId) :
    lastOf resolutions issue = (resolutionMap resolutions).get? issue := by
  rw [resolutionMap, get?_ofList, lastOf, List.getLast?_eq_head?_reverse, ← List.filter_reverse,
    List.head?_filter]

theorem lastOf_of_mem_latest {item : ResolutionItem} (h : item ∈ latestResolutions resolutions) :
    lastOf resolutions item.issue = some item := by
  rw [lastOf_eq_get?]
  exact get?_of_mem_values ResolutionItem.issue h

theorem mem_latest_of_lastOf {issue : IssueId} {item : ResolutionItem}
    (h : lastOf resolutions issue = some item) : item ∈ latestResolutions resolutions := by
  rw [lastOf_eq_get?] at h
  exact mem_values_of_get? h

theorem latestResolutions_append (resolutions later : List ResolutionItem) :
    latestResolutions (latestResolutions resolutions ++ later) =
      latestResolutions (resolutions ++ later) := by
  rw [latestResolutions, latestResolutions, ofList_values_append, latestResolutions]

/-- The state of a summary call, from a state that the stored turns gave. -/
theorem mergedDecisionState_eq {prior : Option DecisionState} {first : FacilitatorTurnOutput}
    {turnNumber : ℕ} (h : TurnsFlow.decisionState turns = .ok prior) :
    TurnsFlow.mergedDecisionState prior first turnNumber =
      DecisionState.validate (latestResolutions (recordedResolutions turns ++
        TurnsFlow.stampedResolutions first.resolutions turnNumber))
        first.delegation.openIssues := by
  rcases decisionState_eq_ok h with ⟨rfl, rfl⟩ | ⟨state, rfl, hresolutions, -⟩
  · rfl
  · rw [TurnsFlow.mergedDecisionState]
    simp only [Option.map_some, Option.getD_some, hresolutions, latestResolutions_append]

/-- Latest-wins aggregation keeps the last item of every issue in the order of the
first ones, may be resumed from its own result, and the decision state of a summary
call is the one recomputed from the stored turns and the first output. -/
theorem latestResolutions_compositional (xs ys : List ResolutionItem)
    (turns : List TurnRecord) (first : FacilitatorTurnOutput) (turnNumber : ℕ) :
    (latestResolutions xs).map ResolutionItem.issue = (xs.map ResolutionItem.issue).eraseDups ∧
    (∀ item ∈ latestResolutions xs, lastOf xs item.issue = some item) ∧
    latestResolutions (latestResolutions xs ++ ys) = latestResolutions (xs ++ ys) ∧
    ((TurnsFlow.decisionState turns).bind fun prior =>
        TurnsFlow.mergedDecisionState prior first turnNumber) =
      (TurnsFlow.decisionState turns).bind fun _ =>
        DecisionState.validate (latestResolutions (recordedResolutions turns ++
          TurnsFlow.stampedResolutions first.resolutions turnNumber))
          first.delegation.openIssues := by
  refine ⟨issues_latestResolutions xs, fun item => lastOf_of_mem_latest,
    latestResolutions_append xs ys, ?_⟩
  cases hstate : TurnsFlow.decisionState turns with
  | error e => rfl
  | ok prior => exact mergedDecisionState_eq hstate

end Latest

/-! ## The two readers -/

/-- The next facilitator turn is given the resolutions that the final review carries,
and no issue's last recorded resolution is missing from them. -/
structure DecisionsAgree (turns : List TurnRecord) : Prop where
  given : ∃ prior, TurnsFlow.decisionState turns = .ok prior ∧
    (prior.map DecisionState.resolutions).getD [] = aggregateResolutions turns
  complete : ∀ issue item, lastOf (recordedResolutions turns) issue = some item →
    item ∈ aggregateResolutions turns

section Agree
variable {turns : List TurnRecord}

/-- The issues that stored turns give a disposition to. -/
def decidedIssues (turns : List TurnRecord) : Finset IssueId :=
  ((recordedResolutions turns).map ResolutionItem.issue).toFinset

theorem length_latest (turns : List TurnRecord) :
    (latestResolutions (recordedResolutions turns)).length = (decidedIssues turns).card := by
  have hlength := congrArg List.length (issues_latestResolutions (recordedResolutions turns))
  have hnodup := nodup_eraseDups ((recordedResolutions turns).map ResolutionItem.issue)
  rw [List.length_map] at hlength
  rw [hlength, ← List.toFinset_card_of_nodup hnodup, decidedIssues]
  congr 1
  ext issue
  simp

theorem decisionsAgree_of_le (h : (decidedIssues turns).card ≤ 200) : DecisionsAgree turns := by
  have hsize : (latestResolutions (recordedResolutions turns)).length ≤ 200 :=
    length_latest turns ▸ h
  have haggregate : aggregateResolutions turns = latestResolutions (recordedResolutions turns) :=
    List.take_of_length_le hsize
  constructor
  · by_cases hnil : turns = []
    · subst hnil
      exact ⟨none, rfl, rfl⟩
    · refine ⟨some ⟨_, lastOpenIssues turns, hsize, length_lastOpenIssues_le⟩, ?_,
        haggregate.symm⟩
      rw [TurnsFlow.decisionState, if_neg hnil, DecisionState.validate,
        dif_pos ⟨hsize, length_lastOpenIssues_le⟩]
      rfl
  · intro issue item hitem
    rw [haggregate]
    exact mem_latest_of_lastOf hitem

theorem le_of_decisionsAgree (h : DecisionsAgree turns) : (decidedIssues turns).card ≤ 200 := by
  obtain ⟨prior, hstate, -⟩ := h.given
  rw [← length_latest]
  rcases decisionState_eq_ok hstate with ⟨rfl, -⟩ | ⟨state, -, hresolutions, -⟩
  · exact Nat.zero_le _
  · rw [← hresolutions]
    exact state.resolutions_le

/-- Whatever turns are stored, the decision state and the final review agree exactly
as long as at most 200 issues have a disposition. -/
theorem decisionsAgree_iff (turns : List TurnRecord) :
    DecisionsAgree turns ↔ (decidedIssues turns).card ≤ 200 :=
  ⟨le_of_decisionsAgree, decisionsAgree_of_le⟩

/-- Beyond 200 the next facilitator turn cannot be invoked, and the final review drops
the issues decided last. -/
theorem disagree_of_lt (h : 200 < (decidedIssues turns).card) :
    TurnsFlow.decisionState turns = .error .validationError ∧
      (aggregateResolutions turns).length < (decidedIssues turns).card := by
  have hlength := length_latest turns
  constructor
  · have hne : turns ≠ [] := by
      rintro rfl
      exact absurd h (by decide)
    have hsize : ¬((latestResolutions (recordedResolutions turns)).length ≤ 200 ∧
        (lastOpenIssues turns).length ≤ 100) := by omega
    rw [TurnsFlow.decisionState, if_neg hne, DecisionState.validate]
    exact congrArg _ (dif_neg hsize)
  · have htake := List.length_take_le 200 (latestResolutions (recordedResolutions turns))
    exact lt_of_le_of_lt htake h

end Agree

namespace Scenario

/-- The id of the `n`-th finding. -/
def numbered (n : ℕ) : IssueId := String.singleton (Char.ofNat (256 + n))

/-- Resolves `count` findings from the `first` on. -/
def resolves (first count : ℕ) (h : count ≤ 100) : FacilitatorTurnOutput :=
  settles "Settled."
    ((List.range' first count).map fun n => ⟨numbered n, .resolved, "Answered."⟩)
    (by simpa using h)

/-- A synthesis with 202 findings; turns 2 to 4 resolve all but one of them. -/
def thorough : Choice :=
  { environment (fun request =>
      if request.turnNumber = 1 then keepsOpen
      else if request.turnNumber = 4 then resolves 200 1 (by decide)
      else resolves ((request.turnNumber - 2) * 100) 100 (by decide)) with
    synthesis := synthesis (finding "F-1" :: (List.range 201).map fun n => finding (numbered n))
      (by simp) }

def createThorough : Attempt :=
  attempt (.createSession inBoth) 1 thorough none

def tellThorough (key : IdempotencyKey) : Attempt :=
  attempt (.turn ⟨1⟩ ⟨some "Why?", false, rfl⟩) key (later thorough) none

def manySettled : World :=
  World.after {} [createThorough, tellThorough 2, tellThorough 3, tellThorough 4]

/-- After three turns 201 issues are decided: no further message can be answered, and
the report loses one of them. -/
theorem manySettled_disagree : Reachable manySettled ∧
    ¬DecisionsAgree (manySettled.history ⟨1⟩) ∧
    TurnsFlow.decisionState (manySettled.history ⟨1⟩) = .error .validationError ∧
    (aggregateResolutions (manySettled.history ⟨1⟩)).length <
      (decidedIssues (manySettled.history ⟨1⟩)).card := by
  have hmany : 200 < (decidedIssues (manySettled.history ⟨1⟩)).card := by decide +kernel
  refine ⟨reachable_after _, fun hagree => ?_, disagree_of_lt hmany⟩
  exact absurd (le_of_decisionsAgree hagree) (Nat.not_le.mpr hmany)

end Scenario
end StoryReview
