import StoryReview.LatestWins

/-!
# What the opening turn settles

The opening output may resolve minor findings and draft issues, within the fence
of turn 1. A turn that stores both hands them on to every later reader, and the
record of the opening turn stores neither.
-/
namespace StoryReview
open RecordsStore Finalization OrderedDict

/-- What an opening output decides and drafts is stored with its turn and reaches the
decision state of turn 2, the final review and the issue catalog. -/
structure SettlementsKept (turn : TurnRecord) (output : FacilitatorTurnOutput) : Prop where
  resolutions : turn.resolutions = TurnsFlow.stampedResolutions output.resolutions 1
  newIssues : turn.newIssues = output.newIssues
  decisionState : ∃ prior, TurnsFlow.decisionState [turn] = .ok (some prior) ∧
    ∀ draft ∈ output.resolutions, ∃ item ∈ prior.resolutions, item.issue = draft.issue
  finalReview : ∀ later : List TurnRecord, ∀ draft ∈ output.resolutions,
    draft.issue ∉ decidedIssues later →
      ∃ item ∈ aggregateResolutions (turn :: later), item.issue = draft.issue ∧
        item.turnNumber = 1
  decided : ∀ later : List TurnRecord, ∀ draft ∈ output.resolutions,
    draft.issue ∈ decidedIssues (turn :: later)
  described : ∀ (reports : List SynthesisReport) (later : List TurnRecord),
    ∀ draft ∈ output.newIssues, draft.issue ∈ (catalogEntries reports (turn :: later)).keys

section Kept
variable {turn : TurnRecord} {later : List TurnRecord} {output : FacilitatorTurnOutput}

theorem recordedResolutions_cons :
    recordedResolutions (turn :: later) = turn.resolutions ++ recordedResolutions later := rfl

theorem mem_decidedIssues {turns : List TurnRecord} {issue : IssueId} :
    issue ∈ decidedIssues turns ↔ ∃ item ∈ recordedResolutions turns, item.issue = issue := by
  simp [decidedIssues]

/-- The resolutions of the first turn stand first in the aggregation, where the limit of
the final review does not reach. -/
theorem mem_aggregate_of_first (later : List TurnRecord)
    (hlength : turn.resolutions.length ≤ 200) {issue : IssueId}
    (hissue : issue ∈ turn.resolutions.map ResolutionItem.issue) :
    ∃ item ∈ aggregateResolutions (turn :: later), item.issue = issue := by
  have hfirst : issue ∈ (turn.resolutions.map ResolutionItem.issue).eraseDups :=
    List.mem_eraseDups.mpr hissue
  have hsize : (turn.resolutions.map ResolutionItem.issue).eraseDups.length ≤ 200 := by
    have hnodup := nodup_eraseDups (turn.resolutions.map ResolutionItem.issue)
    have hsub := (List.subperm_of_subset hnodup fun _ h => List.mem_eraseDups.mp h).length_le
    rw [List.length_map] at hsub
    exact hsub.trans hlength
  have hissues := issues_latestResolutions (recordedResolutions (turn :: later))
  rw [recordedResolutions_cons, List.map_append, List.eraseDups_append] at hissues
  have hmem : issue ∈ (aggregateResolutions (turn :: later)).map ResolutionItem.issue := by
    change issue ∈ ((latestResolutions (recordedResolutions (turn :: later))).take 200).map _
    rw [List.map_take, recordedResolutions_cons, hissues, List.take_append,
      List.take_of_length_le hsize]
    exact List.mem_append_left _ hfirst
  exact List.mem_map.mp hmem

theorem mem_of_lastOf {resolutions : List ResolutionItem} {issue : IssueId} {item : ResolutionItem}
    (h : lastOf resolutions issue = some item) : item ∈ resolutions ∧ item.issue = issue := by
  have hmem := List.mem_filter.mp (List.mem_of_getLast? h)
  exact ⟨hmem.1, of_decide_eq_true hmem.2⟩

theorem issue_mem_stamped {draft : ResolutionDraft} {n : ℕ} (h : draft ∈ output.resolutions) :
    draft.issue ∈ (TurnsFlow.stampedResolutions output.resolutions n).map
      ResolutionItem.issue := by
  rw [TurnsFlow.stampedResolutions, List.map_map]
  exact List.mem_map_of_mem h

/-- A turn that stores what the output decides and drafts keeps it for all readers. -/
theorem settlementsKept_of_stored
    (hresolutions : turn.resolutions = TurnsFlow.stampedResolutions output.resolutions 1)
    (hnew : turn.newIssues = output.newIssues) : SettlementsKept turn output where
  resolutions := hresolutions
  newIssues := hnew
  decisionState := by
    have hrecorded : recordedResolutions [turn] = turn.resolutions :=
      recordedResolutions_cons.trans (List.append_nil _)
    have hfew : (decidedIssues [turn]).card ≤ 200 := by
      have hcard := List.toFinset_card_le ((recordedResolutions [turn]).map ResolutionItem.issue)
      have hlimit := output.resolutions_le
      rw [List.length_map, hrecorded, hresolutions, TurnsFlow.stampedResolutions,
        List.length_map] at hcard
      rw [decidedIssues, hrecorded, hresolutions, TurnsFlow.stampedResolutions]
      omega
    obtain ⟨prior, hprior, hsame⟩ := (decisionsAgree_of_le hfew).given
    rcases decisionState_eq_ok hprior with ⟨hnil, -⟩ | ⟨state, rfl, hstate, -⟩
    · cases hnil
    · refine ⟨state, hprior, fun draft hdraft => ?_⟩
      have hissue : draft.issue ∈ (latestResolutions (recordedResolutions [turn])).map
          ResolutionItem.issue := by
        rw [issues_latestResolutions, List.mem_eraseDups, hrecorded, hresolutions]
        exact issue_mem_stamped hdraft
      rw [← hstate] at hissue
      exact List.mem_map.mp hissue
  finalReview := by
    intro later draft hdraft hundecided
    have hissue := hresolutions ▸ issue_mem_stamped (n := 1) hdraft
    have hlength : turn.resolutions.length ≤ 200 := by
      have hlimit := output.resolutions_le
      rw [hresolutions, TurnsFlow.stampedResolutions, List.length_map]
      omega
    obtain ⟨item, hitem, heq⟩ := mem_aggregate_of_first later hlength hissue
    refine ⟨item, hitem, heq, ?_⟩
    obtain ⟨hrecorded, -⟩ := mem_of_lastOf (lastOf_of_mem_latest (List.mem_of_mem_take hitem))
    rcases List.mem_append.mp hrecorded with hfirst | hlater
    · rw [hresolutions] at hfirst
      obtain ⟨_, -, rfl⟩ := List.mem_map.mp hfirst
      rfl
    · exact absurd (mem_decidedIssues.mpr ⟨item, hlater, heq⟩) hundecided
  decided := by
    intro later draft hdraft
    have hissue := hresolutions ▸ issue_mem_stamped (n := 1) hdraft
    obtain ⟨item, hitem, heq⟩ := List.mem_map.mp hissue
    exact mem_decidedIssues.mpr ⟨item, List.mem_append_left _ hitem, heq⟩
  described := by
    intro reports later draft hdraft
    refine mem_keys_catalogEntries.mpr (.inr ⟨turn, List.mem_cons_self, ?_⟩)
    rw [hnew]
    exact List.mem_map_of_mem hdraft

/-- A turn without resolutions and drafts keeps an output that has none, and no other. -/
theorem settlementsKept_iff_of_bare (hresolutions : turn.resolutions = [])
    (hnew : turn.newIssues = []) :
    SettlementsKept turn output ↔ output.resolutions = [] ∧ output.newIssues = [] := by
  constructor
  · intro h
    have hstamped := hresolutions ▸ h.resolutions
    exact ⟨List.map_eq_nil_iff.mp hstamped.symm, hnew ▸ h.newIssues.symm⟩
  · rintro ⟨hnothing, hnodraft⟩
    refine settlementsKept_of_stored ?_ (hnew.trans hnodraft.symm)
    rw [hresolutions, hnothing]
    rfl

/-- The record of the opening turn keeps what the opening output settles and drafts
exactly when there is nothing to keep. -/
theorem openingRecord_settlementsKept_iff (output : FacilitatorTurnOutput) (id : SessionId)
    (correlationId : Uuid) (artifacts : Flows.OpeningArtifacts) (createdAt completedAt : Time) :
    SettlementsKept (Flows.openingRecord id correlationId output artifacts createdAt completedAt)
        output ↔ output.resolutions = [] ∧ output.newIssues = [] :=
  settlementsKept_iff_of_bare rfl rfl

end Kept

/-! ## Stored opening turns -/

/-- The turn was stored from an output that the fence of turn 1 accepts, without its
resolutions and drafts. -/
def OpensFrom (turn : TurnRecord) (output : FacilitatorTurnOutput)
    (report : SynthesisReport) : Prop :=
  validateOpeningTurn output report = .ok () ∧ turn.facilitatorReply = some output.reply ∧
    turn.delegation = some output.delegation ∧ turn.resolutions = [] ∧ turn.newIssues = []

/-- Every turn that a session creation stored opens from an accepted output. -/
def OpeningsAccepted (w : World) : Prop :=
  ∀ id, ∀ row ∈ w.turns id, ∀ key, row.producer = .createSession key →
    ∃ output report, OpensFrom row.record output report

section Openings
variable {a : Attempt} {w₀ w w' : World} {s : SessionRecord}

theorem NewTurn.opensFrom {row : TurnRow} {key : IdempotencyKey} (h : NewTurn a w₀ w s row)
    (hproducer : row.producer = .createSession key) :
    ∃ output report, OpensFrom row.record output report := by
  cases h with
  | @opening request output artifacts _ _ _ _ hanswer hturn =>
      have haccepted := (validateFacilitatorTurn_eq_ok hanswer.2).1 hturn
      exact ⟨output, request.synthesisReport, haccepted, rfl, rfl, rfl, rfl⟩
  | accepted => cases hproducer
  | message => cases hproducer

theorem Commit.openingsAccepted (h : OpeningsAccepted w) (hc : Commit a w₀ w w') :
    OpeningsAccepted w' := by
  intro id
  have hold := h id
  generalize hrows : w'.turns id = rows
  have heffect := hrows ▸ hc.turns_cases id
  cases heffect with
  | same => exact hold
  | @append s row hid hs hstate hnew hclaim =>
      intro q hq key hproducer
      rcases List.mem_append.mp hq with hq | hq
      · exact hold q hq key hproducer
      · obtain rfl := List.mem_singleton.mp hq
        exact hnew.opensFrom hproducer
  | stamp =>
      intro q hq key hproducer
      obtain ⟨row, hrow, rfl⟩ := List.mem_map.mp hq
      rw [stampTurn_producer] at hproducer
      obtain ⟨output, report, haccepted, hreply, hrest⟩ := hold row hrow key hproducer
      refine ⟨output, report, haccepted, ?_, by simpa using hrest⟩
      rw [stampTurn_eq]
      exact hreply

theorem reachable_openingsAccepted (h : Reachable w) : OpeningsAccepted w := by
  induction h with
  | init => exact fun _ _ hrow => nomatch hrow
  | @step w a hw _ ih =>
      have hevolves := a.evolves hw.inv
      generalize a.result w = w' at hevolves
      induction hevolves with
      | refl => exact ih
      | tail _ hc ih => exact hc.openingsAccepted ih

/-- In every reachable world a stored opening turn goes back to an accepted output, and
keeps what that output settles and drafts exactly when there is nothing to keep. -/
theorem reachable_opening_settlementsKept_iff (h : Reachable w) {id : SessionId} {row : TurnRow}
    (hrow : row ∈ w.turns id) {key : IdempotencyKey} (hproducer : row.producer = .createSession key) :
    ∃ output report, validateOpeningTurn output report = .ok () ∧
      row.record.facilitatorReply = some output.reply ∧
      row.record.delegation = some output.delegation ∧
      (SettlementsKept row.record output ↔ output.resolutions = [] ∧ output.newIssues = []) := by
  obtain ⟨output, report, haccepted, hreply, hdelegation, hresolutions, hnew⟩ :=
    reachable_openingsAccepted h id row hrow key hproducer
  exact ⟨output, report, haccepted, hreply, hdelegation,
    settlementsKept_iff_of_bare hresolutions hnew⟩

end Openings

namespace Scenario

/-- An opening output that settles the minor finding and keeps the other one open. -/
def tidies : FacilitatorTurnOutput :=
  settles "One observation is settled, one question is left."
    [⟨"F-2", .resolved, "An observation only."⟩] (by decide)

def minorFinding : Finding := { finding "F-2" with severity := .minor }

def tidy : Choice :=
  { environment (fun request =>
      if request.turnNumber = 1 then tidies else keepsOpen) with
    synthesis := synthesis [finding "F-1", minorFinding] (by decide) }

def createTidy : Attempt :=
  attempt (.createSession inBoth) 1 tidy none

def tidied : World := World.after {} [createTidy]

def tidiedSynthesis : SynthesisReport := gaps [finding "F-1", minorFinding] (by decide)

/-- The accepted resolution of turn 1 is neither stored nor shown to turn 2, and the
acceptance of the session finalizes without it. -/
theorem tidied_forgets : Reachable tidied ∧
    validateOpeningTurn tidies tidiedSynthesis = .ok () ∧
    (tidied.history ⟨1⟩).map (fun turn => (turn.facilitatorReply, turn.resolutions)) =
      [(some tidies.reply, [])] ∧
    (∀ turn ∈ tidied.history ⟨1⟩, ¬SettlementsKept turn tidies) ∧
    aggregateResolutions (((accept 2 none).result tidied).history ⟨1⟩) = [] ∧
    (((accept 2 none).result tidied).session ⟨1⟩).map (fun row => row.record.state) =
      some .completed := by
  have hforgotten : ∀ turn ∈ tidied.history ⟨1⟩, turn.resolutions = [] := by decide +kernel
  refine ⟨reachable_after _, by decide +kernel, by decide +kernel, fun turn hturn hkept => ?_,
    by decide +kernel, by decide +kernel⟩
  have hstamped := hforgotten turn hturn ▸ hkept.resolutions
  cases hstamped

end Scenario
end StoryReview
