import StoryReview.Decisions

/-!
# Descriptors of open issues

An issue is described by a synthesis version of the run or by a draft that a turn stores.
The drafts of the opening output and of a delegated turn's first output are not stored,
and a resolution may name any id, while the descriptor check takes all of these for known.
Every open issue is described as long as nothing is opened on the strength of them alone.
-/
namespace StoryReview
open RecordsStore Finalization

namespace World
variable (w : World)

/-- An issue of the synthesis version that is stored under the artifact id. -/
def DescribedIn (run : RunId) (id : ArtifactId) (issue : IssueId) : Prop :=
  ∃ r report, (w.objects run).record id = some r ∧ r.reference.type = .synthesis ∧
    r.content = .synthesis report ∧ issue ∈ report.issueIds

/-- A draft of the issue is stored with a turn. -/
def Drafts (sessionId : SessionId) (issue : IssueId) : Prop :=
  ∃ turn ∈ w.history sessionId, issue ∈ turn.newIssues.map IssueDraft.issue

/-- The issue is on the open list of a stored turn. -/
def Opens (sessionId : SessionId) (issue : IssueId) : Prop :=
  ∃ turn ∈ w.history sessionId, ∃ delegation ∈ turn.delegation,
    issue ∈ delegation.openIssues

def Described (sessionId : SessionId) (issue : IssueId) : Prop :=
  (∃ id, w.DescribedIn ⟨sessionId.key⟩ id issue) ∨ w.Drafts sessionId issue

/-- Every open issue of every stored turn has a descriptor in the run of its session. -/
def OpenIssuesDescribed : Prop :=
  ∀ id row, w.session id = some row → ∀ turn ∈ w.history id,
    ∀ delegation ∈ turn.delegation, ∀ issue ∈ delegation.openIssues,
      (∃ artifactId, w.DescribedIn row.record.storyRunId artifactId issue) ∨ w.Drafts id issue

end World

/-- The opening output of a creation drafts only issues of its synthesis. -/
def Attempt.OpensFromSynthesis (a : Attempt) : Prop :=
  ∀ payload request output, a.request = .createSession payload →
    a.Answers request output → request.turnNumber = 1 →
    request.invocationId = .facilitatorTurn a.key a.sessionId 1 →
    request.decisionState = none → ∀ draft ∈ output.newIssues,
      draft.issue ∈ request.synthesisReport.issueIds

/-- What an attempt must respect beyond the descriptor check: the drafts of its opening
output, and an id that a message turn opens, though neither its synthesis nor the stored
output describes it and no stored turn had it open, was described before. -/
structure DescribesOpened (w : World) (a : Attempt) : Prop where
  opening : a.OpensFromSynthesis
  message : a.MessageOn w a.sessionId → ∀ s request output, w.core a.sessionId = some s →
    StoredAnswer a w s request output → ∀ issue ∈ output.delegation.openIssues,
      issue ∉ request.synthesisReport.issueIds →
      issue ∉ output.newIssues.map IssueDraft.issue → ¬ w.Opens a.sessionId issue →
        w.Described a.sessionId issue

/-! ## Canonical forms and issues -/

/-- Lists with equal canonical forms agree in what the forms of their elements determine. -/
theorem map_eq_of_modelDump_eq {α β : Type} [ModelDump α] {f : α → β}
    (hf : ∀ x y : α, modelDump x = modelDump y → f x = f y) {xs ys : List α}
    (h : modelDump xs = modelDump ys) : xs.map f = ys.map f := by
  induction xs generalizing ys with
  | nil =>
      cases ys with
      | nil => rfl
      | cons y ys => cases h
  | cons x xs ih =>
      cases ys with
      | nil => cases h
      | cons y ys =>
          injection h with hhead htail
          rw [List.map_cons, List.map_cons, hf x y hhead, ih htail]

/-- Syntheses with one digest name the same issues. -/
theorem issueIds_of_checksum_eq {s t : SynthesisReport}
    (h : canonicalChecksum (.synthesis s) = canonicalChecksum (.synthesis t)) :
    s.issueIds = t.issueIds := by
  simp only [canonicalChecksum, modelDump, Canonical.object, List.foldr_cons,
    Canonical.pair.injEq] at h
  obtain ⟨-, -, hfindings, hconflicts, -⟩ := h
  have hfinding : ∀ x y : Finding, modelDump x = modelDump y → x.id = y.id := by
    intro x y hxy
    injection hxy with hid
    injection hid
  have hconflict : ∀ x y : ConflictItem, modelDump x = modelDump y → x.id = y.id := by
    intro x y hxy
    injection hxy with hid
    injection hid
  have hfindings := map_eq_of_modelDump_eq hfinding hfindings
  have hconflicts := map_eq_of_modelDump_eq hconflict hconflicts
  rw [SynthesisReport.issueIds, SynthesisReport.issueIds, SynthesisReport.findingIds,
    SynthesisReport.conflictIds, hfindings, hconflicts]
  rfl

theorem World.StoresSynthesis.describedIn {w : World} {run : RunId} {id : ArtifactId}
    {report : SynthesisReport} (h : w.StoresSynthesis run id report) {issue : IssueId}
    (hissue : issue ∈ report.issueIds) : w.DescribedIn run id issue := by
  obtain ⟨r, stored, hr, htype, hcontent, hchecksum⟩ := h
  exact ⟨r, stored, hr, htype, hcontent, issueIds_of_checksum_eq hchecksum ▸ hissue⟩

/-! ## Steps -/

section Steps
variable {a : Attempt} {w₀ w w' : World} {s : SessionRecord} {id : SessionId}

theorem World.DescribedIn.mono {run : RunId} {artifactId : ArtifactId} {issue : IssueId}
    (h : w.DescribedIn run artifactId issue)
    (hgrow : (w.objects run).Grows (w'.objects run)) : w'.DescribedIn run artifactId issue := by
  obtain ⟨r, report, hr, htype, hcontent, hissue⟩ := h
  exact ⟨r, report, hgrow.record _ _ hr, htype, hcontent, hissue⟩

theorem World.Drafts.concat {issue : IssueId} {row : TurnRow} {rows : List TurnRow}
    (hrows : w'.turns id = rows ++ [row]) (hold : w.turns id = rows)
    (h : w.Drafts id issue ∨ issue ∈ row.record.newIssues.map IssueDraft.issue) :
    w'.Drafts id issue := by
  unfold World.Drafts World.history at h ⊢
  rw [hrows, List.map_append, List.map_singleton]
  rcases h with ⟨turn, hturn, hissue⟩ | hissue
  · exact ⟨turn, List.mem_append_left _ (hold ▸ hturn), hissue⟩
  · exact ⟨row.record, by simp, hissue⟩

/-- The final output was validated against a synthesis that is stored. -/
theorem FinalOutput.handed {output : FacilitatorTurnOutput}
    {references : List ArtifactReference} (h : FinalOutput a w₀ w s output references) :
    ∃ request artifactId, StoredAnswer a w₀ s request output ∧
      w.StoresSynthesis s.storyRunId artifactId request.synthesisReport := by
  cases h with
  | plain hanswer _ hstored hinvoke hreuse =>
      exact ⟨_, _, .inl ⟨hanswer, hinvoke, hreuse⟩, hstored⟩
  | summary hanswer hstored => exact ⟨_, _, .inr hanswer, hstored⟩

/-- So what it leaves open are issues of its synthesis. -/
theorem Attempt.OpensFromSynthesis.known (h : a.OpensFromSynthesis)
    {payload : CreateSessionRequest} {request : FacilitatorInvocation}
    {output : FacilitatorTurnOutput} (hrequest : a.request = .createSession payload)
    (hanswer : a.Answers request output) (hturn : request.turnNumber = 1)
    (hcall : request.invocationId = .facilitatorTurn a.key a.sessionId 1)
    (hnostate : request.decisionState = none) {issue : IssueId}
    (hissue : issue ∈ output.delegation.openIssues) :
    issue ∈ request.synthesisReport.issueIds := by
  obtain ⟨-, -, hdescriptors⟩ := validateFacilitatorTurn_eq_ok hanswer.2
  rcases validateIssueDescriptors_eq_ok.mp hdescriptors issue hissue with hknown | hdrafted
  · simpa [knownIssues, hnostate] using hknown
  · obtain ⟨draft, hdraft, rfl⟩ := List.mem_map.mp hdrafted
    exact h payload request output hrequest hanswer hturn hcall hnostate draft hdraft

/-- What a new turn opens is described, by the stores or by its own drafts. -/
theorem NewTurn.describes {row : TurnRow} (hdescribes : DescribesOpened w₀ a) (hinv : Inv w)
    (hgrows : (w₀.objects ⟨a.sessionId.key⟩).Grows (w.objects ⟨a.sessionId.key⟩))
    (hs : w.core a.sessionId = some s) (h : NewTurn a w₀ w s row)
    (hold : ∀ issue, w.Opens a.sessionId issue → w.Described a.sessionId issue) :
    ∀ delegation ∈ row.record.delegation, ∀ issue ∈ delegation.openIssues,
      w.Described a.sessionId issue ∨ issue ∈ row.record.newIssues.map IssueDraft.issue := by
  have hid := World.sessionId_of_core hs
  have hrun := hinv.run_of_core hs
  intro delegation hdelegation issue hissue
  cases h with
  | @opening request output artifacts createdAt completedAt payload hrequest hanswer hturn hcall
      hreport hnostate hstored =>
      obtain rfl := Option.some.inj hdelegation
      rw [hid] at hcall
      have hknown := hdescribes.opening.known hrequest hanswer hturn hcall hnostate hissue
      rw [hrun, ← hreport] at hstored
      exact .inl (.inl ⟨_, hstored.describedIn hknown⟩)
  | accepted => cases hdelegation
  | @message payload draft createdAt completedAt hrequest haccepted hsame hbefore hfinal =>
      obtain rfl := Option.some.inj hdelegation
      rw [hid] at hrequest hsame hbefore
      have hmessage : a.MessageOn w₀ a.sessionId :=
        ⟨rfl, ⟨payload, hrequest, haccepted⟩, s, hbefore⟩
      obtain ⟨request, artifactId, hanswer, hstored⟩ := hfinal.handed
      rw [hrun] at hstored
      by_cases hdraft : issue ∈ draft.output.newIssues.map IssueDraft.issue
      · exact .inr hdraft
      by_cases hknown : issue ∈ request.synthesisReport.issueIds
      · exact .inl (.inl ⟨_, hstored.describedIn hknown⟩)
      have hhistory : w.history a.sessionId = w₀.history a.sessionId := by
        rw [World.history, hsame, World.history]
      by_cases hopened : w.Opens a.sessionId issue
      · exact .inl (hold issue hopened)
      · have hfree : ¬ w₀.Opens a.sessionId issue := by
          rwa [World.Opens, hhistory] at hopened
        have hbefore' := hdescribes.message hmessage s request draft.output hbefore.1 hanswer
          issue hissue hknown hdraft hfree
        rcases hbefore' with ⟨artifactId, hin⟩ | hdrafted
        · exact .inl (.inl ⟨artifactId, hin.mono hgrows⟩)
        · exact .inl (.inr (by rwa [World.Drafts, hhistory]))

/-- Only a new turn opens issues, and nothing that described one is lost. -/
theorem Commit.describes (hdescribes : DescribesOpened w₀ a) (hinv : Inv w)
    (hgrows : ∀ run, (w₀.objects run).Grows (w.objects run))
    (h : ∀ id issue, w.Opens id issue → w.Described id issue) (hc : Commit a w₀ w w') :
    ∀ id issue, w'.Opens id issue → w'.Described id issue := by
  intro id issue hopened
  have hgrow := (hc.objects_cases ⟨id.key⟩).1
  have hkeep : (w.Drafts id issue → w'.Drafts id issue) → w.Described id issue →
      w'.Described id issue := fun hdrafts h => h.imp
        (fun ⟨artifactId, hin⟩ => ⟨artifactId, hin.mono hgrow⟩) hdrafts
  generalize hrows : w'.turns id = rows
  have heffect := hrows ▸ hc.turns_cases id
  cases heffect with
  | same =>
      have hhistory : w'.history id = w.history id := by rw [World.history, hrows, World.history]
      rw [World.Opens, hhistory] at hopened
      have hdrafts : w.Drafts id issue → w'.Drafts id issue := fun hd => by
        rwa [World.Drafts, hhistory]
      exact hkeep hdrafts (h id issue hopened)
  | @append s row hid hs hstate hnew hclaim =>
      subst hid
      have hnew' := hnew.describes hdescribes hinv (hgrows _) hs (h a.sessionId)
      have hdrafts : w.Drafts a.sessionId issue ∨
          issue ∈ row.record.newIssues.map IssueDraft.issue → w'.Drafts a.sessionId issue :=
        fun hd => World.Drafts.concat hrows rfl hd
      obtain ⟨turn, hturn, delegation, hdelegation, hissue⟩ := hopened
      rw [World.history, hrows, List.map_append, List.mem_append] at hturn
      rcases hturn with hturn | hturn
      · exact hkeep (fun hd => hdrafts (.inl hd))
          (h _ issue ⟨turn, hturn, delegation, hdelegation, hissue⟩)
      · rw [List.map_singleton, List.mem_singleton] at hturn
        subst hturn
        rcases hnew' delegation hdelegation issue hissue with hold | hdrafted
        · exact hkeep (fun hd => hdrafts (.inl hd)) hold
        · exact .inr (hdrafts (.inr hdrafted))
  | @stamp s n references =>
      have hturns : ∀ P : TurnRecord → Prop, (∀ row, P (stampTurn n references row).record ↔
          P row.record) → ((∃ turn ∈ w'.history id, P turn) ↔ ∃ turn ∈ w.history id, P turn) := by
        intro P hP
        simp only [World.history, hrows, List.mem_map, exists_exists_and_eq_and, hP]
      have hopened' : w.Opens id issue :=
        (hturns _ fun row => by simp only [stampTurn_delegation]).mp hopened
      exact hkeep (hturns _ fun row => by simp only [stampTurn_newIssues]).mpr
        (h id issue hopened')

theorem Evolves.describes (hdescribes : DescribesOpened w₀ a) (h₀ : Inv w₀)
    (h : ∀ id issue, w₀.Opens id issue → w₀.Described id issue) (hw : Evolves a w₀ w₀ w) :
    ∀ id issue, w.Opens id issue → w.Described id issue := by
  induction hw with
  | refl => exact h
  | tail hw hc ih => exact hc.describes hdescribes (h₀.evolves hw) (Evolves.grows hw) ih

end Steps

/-- In a run whose outputs open nothing undescribed every open issue of every stored turn
has a descriptor. -/
theorem reachable_openIssuesDescribed {w : World} (h : ReachableIf DescribesOpened w) :
    w.OpenIssuesDescribed := by
  have hall : ∀ id issue, w.Opens id issue → w.Described id issue := by
    induction h with
    | init =>
        rintro id issue ⟨turn, hturn, -⟩
        cases hturn
    | @step w a hw hdescribes ih =>
        exact Evolves.describes hdescribes hw.inv ih (a.evolves hw.inv)
  intro id row hrow turn hturn delegation hdelegation issue hissue
  have hrun := h.inv.run_of_core (World.core_of_session hrow)
  rw [show row.record.storyRunId = ⟨id.key⟩ from hrun]
  exact hall id issue ⟨turn, hturn, delegation, hdelegation, hissue⟩

namespace Scenario

/-- A message that keeps the finding of the only synthesis open. -/
theorem openIssuesDescribed_asked :
    (World.after {} [create, ask 2 none]).OpenIssuesDescribed := by
  have hcreate : DescribesOpened {} create := by
    constructor
    · rintro payload request output - ⟨⟨n, rfl⟩, -⟩ _ _ _
      nofun
    · rintro ⟨-, ⟨payload, hrequest, -⟩, -⟩
      cases hrequest
  have hask : DescribesOpened (World.after {} [create]) (ask 2 none) := by
    constructor
    · rintro payload request output hrequest
      cases hrequest
    · intro _ s request output _ hanswer issue hissue _ _ hfree
      have hopen : output.delegation.openIssues = ["F-1"] := by
        rcases hanswer with ⟨⟨⟨⟨n, rfl⟩, -⟩, -⟩, -⟩ | ⟨⟨⟨n, rfl⟩, -⟩, -⟩ <;> rfl
      rw [hopen, List.mem_singleton] at hissue
      subst hissue
      refine absurd ?_ hfree
      unfold World.Opens
      decide +kernel
  exact reachable_openIssuesDescribed (.step (ask 2 none) (.step create .init hcreate) hask)

def createMinting : Attempt :=
  attempt (.createSession inBoth) 1
    (environment fun _ => mints) none

def minted : World := World.after {} [createMinting]

def describes (issue : IssueId) : Content → Bool
  | .synthesis report => decide (issue ∈ report.issueIds)
  | _ => false

/-- The draft of the minted issue is stored nowhere, and accepting the session fails. -/
theorem minted_undescribed : Reachable minted ∧ ¬ minted.OpenIssuesDescribed ∧
    lastOpenIssues (minted.history ⟨1⟩) = ["F-1", "N-1"] ∧
    (((accept 2 none).result minted).session ⟨1⟩).map (fun row => row.record.state) =
      some .active := by
  refine ⟨reachable_after _, fun hdescribed => ?_, by decide +kernel, by decide +kernel⟩
  have hisSome : (minted.session ⟨1⟩).isSome = true := by decide +kernel
  obtain ⟨row, hrow⟩ := Option.isSome_iff_exists.mp hisSome
  have hopened : ∃ turn ∈ minted.history ⟨1⟩, ∃ delegation ∈ turn.delegation,
      "N-1" ∈ delegation.openIssues := by decide +kernel
  obtain ⟨turn, hturn, delegation, hdelegation, hissue⟩ := hopened
  rcases hdescribed ⟨1⟩ row hrow turn hturn delegation hdelegation "N-1" hissue with
    ⟨artifactId, r, report, hr, -, hcontent, hissue⟩ | hdrafts
  · have hrun : (minted.session ⟨1⟩).all (fun row =>
        decide (row.record.storyRunId = ⟨1⟩)) = true := by decide +kernel
    rw [hrow, Option.all_some, decide_eq_true_eq] at hrun
    have hsilent : ∀ r ∈ (minted.objects ⟨1⟩).records, describes "N-1" r.content = false := by
      decide +kernel
    have hnone := hsilent r (List.mem_of_find?_eq_some (hrun ▸ hr))
    rw [hcontent] at hnone
    exact of_decide_eq_false hnone hissue
  · have hnone : ∀ turn ∈ minted.history ⟨1⟩, "N-1" ∉ turn.newIssues.map IssueDraft.issue := by
      decide +kernel
    obtain ⟨turn, hturn, hissue⟩ := hdrafts
    exact hnone turn hturn hissue

end Scenario
end StoryReview
