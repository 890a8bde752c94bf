import StoryReview.Lifecycle

/-!
# Open and settled issues

The decision state shows a facilitator the latest disposition of every issue and the open
list. An output is checked against it, but of a delegated turn's two outputs only the
summary is stored, and it is checked against a state that includes the first one. The
stored history stays consistent as long as a summary itself reopens what it keeps open of
the issues that the stored turns settle.
-/
namespace StoryReview
open RecordsStore Finalization

/-- The latest recorded disposition takes the issue off the table. -/
def Settles (resolutions : List ResolutionItem) (issue : IssueId) : Prop :=
  ∃ item, (resolutionMap resolutions).get? issue = some item ∧ item.disposition.Settled

/-- The resolutions that the turns record, in order. -/
def recordedResolutions (turns : List TurnRecord) : List ResolutionItem :=
  turns.flatMap TurnRecord.resolutions

/-- No issue is open and settled at once, in the stored turns, in the decision state of
the next facilitator turn and in the final review. -/
structure Consistent (turns : List TurnRecord) : Prop where
  stored : ∀ issue ∈ lastOpenIssues turns,
    ∀ item ∈ latestResolutions (recordedResolutions turns), item.issue = issue →
      ¬ item.disposition.Settled
  decisionState : ∀ state, TurnsFlow.decisionState turns = .ok (some state) →
    ∀ issue ∈ state.openIssues, ∀ item ∈ state.resolutions, item.issue = issue →
      ¬ item.disposition.Settled
  finalReview : ∀ poAccepted, ∀ issue ∈ remainingOpenIssues turns poAccepted,
    ∀ item ∈ aggregateResolutions turns, item.issue = issue → ¬ item.disposition.Settled

/-- What a message turn must respect beyond the checks: a summary reopens the settled
issues it keeps open, and a first answer to a session without turns, which gets no
decision state, settles none of the issues it keeps open. -/
structure RespectsSettled (w : World) (a : Attempt) : Prop where
  summary : a.MessageOn w a.sessionId → ∀ s request output, w.core a.sessionId = some s →
    SummaryAnswer a w s request output → ∀ issue ∈ output.delegation.openIssues,
      Settles (recordedResolutions (w.history a.sessionId)) issue → issue ∈ output.reopened
  bare : a.MessageOn w a.sessionId → w.history a.sessionId = [] →
    ∀ s request output, w.core a.sessionId = some s → FirstAnswer a w s request output →
      output.delegation.invoke = .none → output.delegation.reusePrevious = false →
      ∀ issue ∈ output.delegation.openIssues, issue ∉ output.settledNow

/-! ## Latest dispositions -/

section Settles
variable {resolutions : List ResolutionItem} {issue : IssueId}

theorem not_settles_nil : ¬ Settles [] issue := by
  rintro ⟨item, hitem, -⟩
  cases hitem

/-- Later resolutions decide, where they name the issue. -/
theorem settles_append {later : List ResolutionItem} :
    Settles (resolutions ++ later) issue ↔
      Settles later issue ∨ (∀ item ∈ later, item.issue ≠ issue) ∧ Settles resolutions issue := by
  have hnone : (resolutionMap later).get? issue = none ↔
      ∀ item ∈ later, item.issue ≠ issue := by
    simp only [resolutionMap, OrderedDict.get?_ofList, List.find?_eq_none, List.mem_reverse,
      decide_eq_true_eq, ne_eq]
  simp only [Settles]
  rw [show resolutionMap (resolutions ++ later) = _ from rfl, resolutionMap,
    OrderedDict.get?_ofList_append]
  cases hlater : (OrderedDict.ofList ResolutionItem.issue later).get? issue with
  | none =>
      have hfree := hnone.mp hlater
      simp only [Option.none_or, resolutionMap, hlater]
      constructor
      · exact fun h => .inr ⟨hfree, h⟩
      · rintro (⟨item, hitem, -⟩ | ⟨-, h⟩)
        · cases hitem
        · exact h
  | some item =>
      simp only [Option.some_or, resolutionMap, hlater]
      constructor
      · exact fun h => .inl h
      · rintro (h | ⟨hfree, -⟩)
        · exact h
        · have hfree' := hnone.mpr hfree
          rw [resolutionMap, hlater] at hfree'
          cases hfree'

/-- Aggregating first does not change what the latest dispositions are. -/
theorem settles_latestResolutions :
    Settles (latestResolutions resolutions) issue ↔ Settles resolutions issue := by
  simp only [Settles, latestResolutions, resolutionMap, OrderedDict.get?_ofList_values]

/-- The entries of the aggregation are the latest dispositions. -/
theorem settles_of_mem {item : ResolutionItem} (hitem : item ∈ latestResolutions resolutions)
    (hissue : item.issue = issue) (hsettled : item.disposition.Settled) :
    Settles resolutions issue :=
  ⟨item, hissue ▸ OrderedDict.get?_of_mem_values ResolutionItem.issue hitem, hsettled⟩

theorem settledNow_of_settles {output : FacilitatorTurnOutput} {n : ℕ}
    (h : Settles (TurnsFlow.stampedResolutions output.resolutions n) issue) :
    issue ∈ output.settledNow := by
  obtain ⟨item, hitem, hsettled⟩ := h
  rw [resolutionMap, OrderedDict.get?_ofList] at hitem
  have hmem := List.mem_reverse.mp (List.mem_of_find?_eq_some hitem)
  have hissue := List.find?_some hitem
  obtain ⟨draft, hdraft, rfl⟩ := List.mem_map.mp hmem
  simp only [FacilitatorTurnOutput.settledNow, List.mem_map, List.mem_filter,
    decide_eq_true_eq]
  exact ⟨draft, ⟨hdraft, hsettled⟩, of_decide_eq_true hissue⟩

theorem reopened_stamped {output : FacilitatorTurnOutput} {n : ℕ}
    (h : issue ∈ output.reopened) :
    ∃ item ∈ TurnsFlow.stampedResolutions output.resolutions n, item.issue = issue := by
  simp only [FacilitatorTurnOutput.reopened, List.mem_map, List.mem_filter] at h
  obtain ⟨draft, ⟨hdraft, -⟩, rfl⟩ := h
  exact ⟨_, List.mem_map_of_mem hdraft, rfl⟩

/-- An output that reopens what it keeps open and settles none of it leaves no issue both
open and settled. -/
theorem not_settles_stamped {output : FacilitatorTurnOutput} {n : ℕ}
    (hreopens : Settles resolutions issue → issue ∈ output.reopened)
    (hkeeps : issue ∉ output.settledNow) :
    ¬ Settles (resolutions ++ TurnsFlow.stampedResolutions output.resolutions n) issue := by
  rw [settles_append]
  rintro (hnow | ⟨hsilent, hbefore⟩)
  · exact hkeeps (settledNow_of_settles hnow)
  · obtain ⟨item, hitem, hissue⟩ := reopened_stamped (n := n) (hreopens hbefore)
    exact hsilent item hitem hissue

end Settles

/-! ## Histories -/

section Histories
variable {turns : List TurnRecord}

theorem lastOpenIssues_concat (turn : TurnRecord) :
    lastOpenIssues (turns ++ [turn]) = match turn.delegation with
      | some delegation => delegation.openIssues
      | none => lastOpenIssues turns := by
  simp only [lastOpenIssues, List.reverse_append, List.reverse_singleton,
    List.singleton_append, List.findSome?_cons]
  cases turn.delegation <;> rfl

theorem recordedResolutions_concat (turn : TurnRecord) :
    recordedResolutions (turns ++ [turn]) = recordedResolutions turns ++ turn.resolutions := by
  simp [recordedResolutions]

/-- No issue on the open list is settled. -/
def OpenUnsettled (turns : List TurnRecord) : Prop :=
  ∀ issue ∈ lastOpenIssues turns, ¬ Settles (recordedResolutions turns) issue

theorem openUnsettled_nil : OpenUnsettled [] := nofun

/-- The decision state of a coming turn is what the stored turns say. -/
theorem decisionState_eq_ok {state : Option DecisionState}
    (h : TurnsFlow.decisionState turns = .ok state) :
    (turns = [] ∧ state = none) ∨ ∃ st, state = some st ∧
      st.resolutions = latestResolutions (recordedResolutions turns) ∧
      st.openIssues = lastOpenIssues turns := by
  unfold TurnsFlow.decisionState DecisionState.validate at h
  split_ifs at h with hnil hsize
  · cases h
    exact .inl ⟨hnil, rfl⟩
  · cases h
    exact .inr ⟨_, rfl, rfl, rfl⟩
  · cases h

theorem OpenUnsettled.consistent (h : OpenUnsettled turns) : Consistent turns where
  stored issue hissue item hitem heq hsettled :=
    h issue hissue (settles_of_mem hitem heq hsettled)
  decisionState state hstate issue hissue item hitem heq hsettled := by
    rcases decisionState_eq_ok hstate with ⟨-, hnone⟩ | ⟨st, hst, hresolutions, hopen⟩
    · cases hnone
    · cases hst
      rw [hresolutions] at hitem
      rw [hopen] at hissue
      exact h issue hissue (settles_of_mem hitem heq hsettled)
  finalReview poAccepted issue hissue item hitem heq hsettled := by
    unfold remainingOpenIssues at hissue
    split_ifs at hissue
    · exact h issue hissue (settles_of_mem (List.mem_of_mem_take hitem) heq hsettled)
    · cases hissue

end Histories

/-! ## Steps -/

section Steps
variable {a : Attempt} {w₀ w w' : World} {s : SessionRecord}

/-- A final output is one of the two answers a turn is stored from. -/
theorem FinalOutput.storedAnswer {output : FacilitatorTurnOutput}
    {references : List ArtifactReference} (h : FinalOutput a w₀ w s output references) :
    ∃ request, StoredAnswer a w₀ s request output := by
  cases h with
  | plain hanswer _ _ hinvoke hreuse => exact ⟨_, .inl ⟨hanswer, hinvoke, hreuse⟩⟩
  | summary hanswer => exact ⟨_, .inr hanswer⟩

/-- The answer a message turn is stored from leaves no issue both open and settled. -/
theorem StoredAnswer.not_settles {request : FacilitatorInvocation}
    {output : FacilitatorTurnOutput} (hrespects : RespectsSettled w₀ a)
    (hmessage : a.MessageOn w₀ a.sessionId) (hs : w₀.core a.sessionId = some s)
    (h : StoredAnswer a w₀ s request output) {issue : IssueId}
    (hissue : issue ∈ output.delegation.openIssues) (n : ℕ) :
    ¬ Settles (recordedResolutions (w₀.history a.sessionId) ++
      TurnsFlow.stampedResolutions output.resolutions n) issue := by
  have hid := World.sessionId_of_core hs
  rcases h with ⟨hfirst, hinvoke, hreuse⟩ | hsummary
  · obtain ⟨-, hlifecycle, -⟩ := validateFacilitatorTurn_eq_ok hfirst.answers.2
    have hstate := hfirst.decisionState
    rw [hid] at hstate
    rcases decisionState_eq_ok hstate with ⟨hnil, -⟩ | ⟨state, hsome, hresolutions, -⟩
    · refine not_settles_stamped ?_
        (hrespects.bare hmessage hnil s request output hs hfirst hinvoke hreuse issue hissue)
      rw [hnil]
      exact fun h => absurd h not_settles_nil
    · obtain ⟨hreopens, hkeeps⟩ :=
        validateIdentifierLifecycle_eq_ok.mp (hlifecycle state hsome)
      refine not_settles_stamped (fun hbefore => ?_) (hkeeps issue hissue)
      obtain ⟨item, hitem, hsettled⟩ := settles_latestResolutions.mpr hbefore
      exact hreopens issue hissue item (hresolutions ▸ hitem) hsettled
  · obtain ⟨-, hlifecycle, -⟩ := validateFacilitatorTurn_eq_ok hsummary.answers.2
    obtain ⟨request₁, first, state, -, -, hstate⟩ := hsummary.merged
    obtain ⟨-, hkeeps⟩ := validateIdentifierLifecycle_eq_ok.mp (hlifecycle state hstate)
    refine not_settles_stamped (fun hbefore => ?_) (hkeeps issue hissue)
    exact hrespects.summary hmessage s request output hs hsummary issue hissue hbefore

/-- A new turn keeps open and settled issues apart. -/
theorem NewTurn.openUnsettled {row : TurnRow} (hrespects : RespectsSettled w₀ a)
    (hid : s.sessionId = a.sessionId) (h : NewTurn a w₀ w s row)
    (hold : OpenUnsettled (w.history a.sessionId)) :
    OpenUnsettled (w.history a.sessionId ++ [row.record]) := by
  intro issue hissue
  rw [lastOpenIssues_concat] at hissue
  rw [recordedResolutions_concat]
  cases h with
  | opening _ _ _ _ _ _ _ _ _ hempty =>
      rw [hid] at hempty
      simp only [World.history, hempty, Flows.openingRecord, List.map_nil]
      exact not_settles_nil
  | accepted =>
      rw [show (TurnsFlow.acceptedRecord _ _ _ _ _).resolutions = [] from rfl, List.append_nil]
      exact hold issue hissue
  | @message payload draft createdAt completedAt hrequest haccepted hsame hbefore hfinal =>
      rw [hid] at hrequest hsame hbefore
      have hmessage : a.MessageOn w₀ a.sessionId :=
        ⟨rfl, ⟨payload, hrequest, haccepted⟩, s, hbefore⟩
      obtain ⟨request, hanswer⟩ := hfinal.storedAnswer
      have hhistory : w.history a.sessionId = w₀.history a.sessionId := by
        rw [World.history, hsame, World.history]
      rw [hhistory]
      exact hanswer.not_settles hrespects hmessage hbefore.1 hissue _

/-- Recording artifacts on a turn changes neither open lists nor resolutions. -/
theorem OpenUnsettled.stamp {rows : List TurnRow} {n : ℕ} {references : List ArtifactReference}
    (h : OpenUnsettled (rows.map TurnRow.record)) :
    OpenUnsettled ((rows.map (stampTurn n references)).map TurnRow.record) := by
  have hopen : lastOpenIssues ((rows.map (stampTurn n references)).map TurnRow.record) =
      lastOpenIssues (rows.map TurnRow.record) := by
    simp only [lastOpenIssues, ← List.map_reverse, List.findSome?_map, Function.comp_def,
      stampTurn_delegation]
  have hresolutions : recordedResolutions
      ((rows.map (stampTurn n references)).map TurnRow.record) =
        recordedResolutions (rows.map TurnRow.record) := by
    simp only [recordedResolutions, List.flatMap_map, stampTurn_resolutions]
  rwa [OpenUnsettled, hopen, hresolutions]

theorem Commit.openUnsettled (hrespects : RespectsSettled w₀ a)
    (h : ∀ id, OpenUnsettled (w.history id)) (hc : Commit a w₀ w w') :
    ∀ id, OpenUnsettled (w'.history id) := by
  intro id
  have hold := h id
  unfold World.history at hold ⊢
  generalize hrows : w'.turns id = rows
  have heffect := hrows ▸ hc.turns_cases id
  cases heffect with
  | same => exact hold
  | append hid hs _ hnew =>
      subst hid
      rw [List.map_append, List.map_singleton]
      exact hnew.openUnsettled hrespects (World.sessionId_of_core hs) hold
  | stamp => exact hold.stamp

theorem Evolves.openUnsettled (hrespects : RespectsSettled w₀ a)
    (h : ∀ id, OpenUnsettled (w₀.history id)) (hw : Evolves a w₀ w₀ w) :
    ∀ id, OpenUnsettled (w.history id) := by
  induction hw with
  | refl => exact h
  | tail _ hc ih => exact hc.openUnsettled hrespects ih

end Steps

theorem ReachableIf.openUnsettled {w : World} (h : ReachableIf RespectsSettled w)
    (id : SessionId) : OpenUnsettled (w.history id) := by
  have hall : ∀ id, OpenUnsettled (w.history id) := by
    induction h with
    | init => exact fun _ => openUnsettled_nil
    | @step w a hw hrespects ih => exact Evolves.openUnsettled hrespects ih (a.evolves hw.inv)
  exact hall id

/-- In a run whose message turns respect the settled issues no reached state has an issue
that is open and settled at once. -/
theorem reachable_consistent {w : World} (h : ReachableIf RespectsSettled w)
    (id : SessionId) : Consistent (w.history id) :=
  (h.openUnsettled id).consistent

namespace Scenario

theorem recordedResolutions_created :
    recordedResolutions ((World.after {} [create]).history ⟨1⟩) = [] := by decide +kernel

/-- A message that settles nothing, on a session whose only turn is the opening one. -/
theorem consistent_asked : Consistent ((World.after {} [create, ask 2 none]).history ⟨1⟩) := by
  have hcreate : RespectsSettled {} create := by
    constructor <;> rintro ⟨-, ⟨payload, hrequest, -⟩, -⟩ <;> cases hrequest
  have hask : RespectsSettled (World.after {} [create]) (ask 2 none) := by
    constructor
    · intro _ s request output _ _ issue _ hsettles
      rw [show (ask 2 none).sessionId = ⟨1⟩ from rfl, recordedResolutions_created] at hsettles
      exact absurd hsettles not_settles_nil
    · intro _ hnil
      have hlength := congrArg List.length hnil
      exact absurd hlength (by decide +kernel)
  exact reachable_consistent (.step (ask 2 none) (.step create .init hcreate) hask) ⟨1⟩

/-- Turn 2 resolves the finding, turn 3 reopens it in its first output and only keeps it
open in its summary. -/
def forgetful : Choice := environment fun request =>
  match request.invocationId with
  | .facilitatorSummary _ _ _ => keepsOpen
  | .facilitatorTurn _ _ n =>
      if n = 1 then keepsOpen else if n = 2 then replaces else reopens

def tell (key : IdempotencyKey) : Attempt :=
  attempt (.turn ⟨1⟩ ⟨some "Why?", false, rfl⟩) key (later forgetful) none

def openAndSettled : World := World.after {} [create, tell 2, tell 3]

/-- The finding is on the open list of the last turn and resolved in the stored history;
accepting the session then fails and leaves it active. -/
theorem openAndSettled_inconsistent : Reachable openAndSettled ∧
    ¬ Consistent (openAndSettled.history ⟨1⟩) ∧
    lastOpenIssues (openAndSettled.history ⟨1⟩) = ["F-1"] ∧
    (latestResolutions (recordedResolutions (openAndSettled.history ⟨1⟩))).map
      (fun item => (item.issue, item.disposition)) = [("F-1", .resolved)] ∧
    (((accept 4 none).result openAndSettled).session ⟨1⟩).map
      (fun row => row.record.state) = some .active := by
  have hopen : lastOpenIssues (openAndSettled.history ⟨1⟩) = ["F-1"] := by decide +kernel
  have hsettled : ∃ item ∈ latestResolutions (recordedResolutions
      (openAndSettled.history ⟨1⟩)), item.issue = "F-1" ∧ item.disposition.Settled := by
    decide +kernel
  refine ⟨reachable_after _, fun hconsistent => ?_, hopen, by decide +kernel,
    by decide +kernel⟩
  obtain ⟨item, hitem, hissue, hdisposition⟩ := hsettled
  exact hconsistent.stored "F-1" (by simp [hopen]) item hitem hissue hdisposition

end Scenario
end StoryReview
