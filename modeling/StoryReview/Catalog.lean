import StoryReview.Descriptors

/-!
# Building the final review

The final review has to describe every issue that a stored turn names, from the synthesis
versions that turns produced and the drafts they store, and must not retain a settled
issue. No facilitator check demands the first of resolutions at all, and of open issues
only against more than is stored. Where the stored outputs respect both, the build fails
for one reason only: more than 400 issues.
-/
namespace StoryReview
open RecordsStore Finalization

/-- The turn opens the issue or gives it a disposition. -/
def TurnRecord.Names (turn : TurnRecord) (issue : IssueId) : Prop :=
  (∃ delegation ∈ turn.delegation, issue ∈ delegation.openIssues) ∨
    ∃ item ∈ turn.resolutions, item.issue = issue

namespace World
variable (w : World)

/-- A stored turn names the issue. -/
def Names (sessionId : SessionId) (issue : IssueId) : Prop :=
  ∃ turn ∈ w.history sessionId, turn.Names issue

/-- The catalog of the stored turns has the issue, from a synthesis version that a turn
produced or from a stored draft. -/
def Catalogued (sessionId : SessionId) (issue : IssueId) : Prop :=
  (∃ turn ∈ w.history sessionId, ∃ r ∈ turn.producedArtifacts, r.type = .synthesis ∧
    w.DescribedIn ⟨sessionId.key⟩ r.artifactId issue) ∨ w.Drafts sessionId issue

/-- The store holds the synthesis report under the reference. -/
def Holds (reference : ArtifactReference) (report : SynthesisReport) : Prop :=
  ∃ r, (w.objects reference.storyRunId).record reference.artifactId = some r ∧
    r.content = .synthesis report

end World

def FacilitatorTurnOutput.Names (output : FacilitatorTurnOutput) (issue : IssueId) : Prop :=
  issue ∈ output.delegation.openIssues ∨ issue ∈ output.resolutions.map ResolutionDraft.issue

/-- What an attempt must respect so that the final review can be built: an issue that a
message turn is the first to name is drafted by the stored output, an issue of the
synthesis the turn itself produced, or in the catalog of the stored turns; and flow 3 is
not entered again once its result was recorded over the artifacts of the finalizing turn. -/
structure CataloguesNamed (w : World) (a : Attempt) : Prop extends RespectsSettled w a where
  opening : a.OpensFromSynthesis
  plain : a.MessageOn w a.sessionId → ∀ s request output, w.core a.sessionId = some s →
    FirstAnswer a w s request output → output.delegation.invoke = .none →
    output.delegation.reusePrevious = false → ∀ issue, output.Names issue →
      issue ∉ output.newIssues.map IssueDraft.issue → ¬ w.Names a.sessionId issue →
        w.Catalogued a.sessionId issue
  produced : a.MessageOn w a.sessionId → ∀ s request output, w.core a.sessionId = some s →
    SummaryAnswer a w s request output → ∀ issue, output.Names issue →
      issue ∉ output.newIssues.map IssueDraft.issue →
      issue ∉ request.synthesisReport.issueIds → ¬ w.Names a.sessionId issue →
        w.Catalogued a.sessionId issue
  unrecorded : Finalizes a w → w.Unstamped a.sessionId

/-! ## The build -/

section Build
variable {turns : List TurnRecord} {reports : List SynthesisReport} {issue : IssueId}

theorem mem_keys_catalogEntries : issue ∈ (catalogEntries reports turns).keys ↔
    (∃ report ∈ reports, issue ∈ report.issueIds) ∨
      ∃ turn ∈ turns, issue ∈ turn.newIssues.map IssueDraft.issue := by
  have hentries : ∀ report : SynthesisReport,
      (∃ entry ∈ synthesisEntries report, entry.issue = issue) ↔ issue ∈ report.issueIds := by
    intro report
    simp [synthesisEntries, SynthesisReport.issueIds, SynthesisReport.findingIds,
      SynthesisReport.conflictIds, or_and_right, exists_or, findingEntry, conflictEntry]
  rw [catalogEntries, OrderedDict.mem_keys_setDefaults, OrderedDict.mem_keys_ofList]
  refine or_congr ?_ ?_
  · simp only [List.mem_flatMap, ← hentries]
    constructor
    · rintro ⟨entry, ⟨report, hreport, hentry⟩, hissue⟩
      exact ⟨report, hreport, entry, hentry, hissue⟩
    · rintro ⟨report, hreport, entry, hentry, hissue⟩
      exact ⟨entry, ⟨report, hreport, hentry⟩, hissue⟩
  · simp only [List.mem_flatMap, List.mem_map]
    constructor
    · rintro ⟨draft, ⟨turn, hturn, hdraft⟩, hissue⟩
      exact ⟨turn, hturn, draft, hdraft, hissue⟩
    · rintro ⟨turn, hturn, draft, hdraft, hissue⟩
      exact ⟨draft, ⟨turn, hturn, hdraft⟩, hissue⟩

/-- Every catalog entry is filed under its own issue. -/
theorem issues_catalogEntries :
    (catalogEntries reports turns).values.map IssueEntry.issue =
      (catalogEntries reports turns).keys := by
  refine OrderedDict.map_values_eq_keys fun e he => ?_
  rcases OrderedDict.mem_entries_setDefaults he with hold | ⟨draft, -, rfl⟩
  · exact OrderedDict.key_of_mem_entries IssueEntry.issue hold
  · rfl

theorem lastOpenIssues_of_mem (h : issue ∈ lastOpenIssues turns) :
    ∃ turn ∈ turns, turn.Names issue := by
  unfold lastOpenIssues at h
  split at h
  · next delegation hfind =>
      obtain ⟨turn, hturn, hdelegation⟩ := List.exists_of_findSome?_eq_some hfind
      exact ⟨turn, List.mem_reverse.mp hturn, .inl ⟨delegation, hdelegation, h⟩⟩
  · cases h

theorem length_lastOpenIssues_le : (lastOpenIssues turns).length ≤ 100 := by
  unfold lastOpenIssues
  split
  · next delegation _ => exact delegation.openIssues_le
  · exact Nat.zero_le _

theorem remainingOpenIssues_subset (poAccepted : Bool) :
    ∀ issue ∈ remainingOpenIssues turns poAccepted, issue ∈ lastOpenIssues turns := by
  intro issue hissue
  unfold remainingOpenIssues at hissue
  split_ifs at hissue
  · exact hissue
  · cases hissue

theorem names_of_aggregated {item : ResolutionItem} (h : item ∈ aggregateResolutions turns) :
    ∃ turn ∈ turns, turn.Names item.issue := by
  have hrecorded := OrderedDict.mem_values_ofList _ (List.mem_of_mem_take h)
  obtain ⟨turn, hturn, hitem⟩ := List.mem_flatMap.mp hrecorded
  exact ⟨turn, hturn, .inr ⟨item, hitem, rfl⟩⟩

/-- Of a history that keeps open and settled issues apart and names only issues of the
catalog, the final review is built exactly when the catalog fits. -/
theorem buildFinalReview_ok_iff {session : SessionRecord} {reference : ArtifactReference}
    (hne : turns ≠ []) (hreference : reference.type = .synthesis ∧
      reference.storyRunId = session.storyRunId)
    (hopen : OpenUnsettled turns) (hnamed : ∀ turn ∈ turns, ∀ issue, turn.Names issue →
      issue ∈ (catalogEntries reports turns).keys) (finalizedAt : Time)
    (correlationId : Uuid) :
    (∃ review, buildFinalReview session reference reports turns finalizedAt correlationId =
      .ok review) ↔ (catalogEntries reports turns).values.length ≤ 400 := by
  obtain ⟨last, hlast⟩ := Option.isSome_iff_exists.mp (List.getLast?_isSome.mpr hne)
  have haccepted : acceptanceState turns = some (last.poAccepted, last.turnNumber) := by
    rw [acceptanceState, hlast, Option.map_some]
  unfold buildFinalReview
  rw [haccepted]
  unfold issueCatalog
  by_cases hfits : (catalogEntries reports turns).values.length ≤ 400
  · rw [if_neg (Nat.not_lt.mpr hfits)]
    refine ⟨fun _ => hfits, fun _ => ?_⟩
    dsimp only
    suffices hvalid : finalStateFailure _ = none by
      rw [hvalid]
      exact ⟨_, rfl⟩
    have hsub : ∀ issue ∈ remainingOpenIssues turns last.poAccepted,
        issue ∈ lastOpenIssues turns := remainingOpenIssues_subset last.poAccepted
    have hlengths : ¬ ((catalogEntries reports turns).values.length > 400 ∨
        (aggregateResolutions turns).length > 200 ∨
        (remainingOpenIssues turns last.poAccepted).length > 100) := by
      have hresolutions : (aggregateResolutions turns).length ≤ 200 := List.length_take_le _ _
      have hremaining : (remainingOpenIssues turns last.poAccepted).length ≤ 100 := by
        unfold remainingOpenIssues
        split_ifs
        · exact length_lastOpenIssues_le
        · exact Nat.zero_le _
      omega
    have hready : ¬ (remainingOpenIssues turns last.poAccepted ≠ [] ∧
        last.poAccepted = false) := by
      rintro ⟨hretains, hplain⟩
      exact hretains (by rw [remainingOpenIssues, hplain]; rfl)
    have hkeys : (catalogEntries reports turns).values.map IssueEntry.issue =
        (catalogEntries reports turns).keys := issues_catalogEntries
    have hunsettled : (remainingOpenIssues turns last.poAccepted).find? (fun issue =>
        ((resolutionMap (aggregateResolutions turns)).get? issue).any fun item =>
          decide item.disposition.Settled) = none := by
      rw [List.find?_eq_none]
      intro issue hissue hsettled
      obtain ⟨item, hitem, hdisposition⟩ := Option.any_eq_true _ _ |>.mp hsettled
      have hmem := hitem
      rw [resolutionMap, OrderedDict.get?_ofList] at hmem
      have haggregated := List.mem_reverse.mp (List.mem_of_find?_eq_some hmem)
      have hsame := List.find?_some hmem
      exact (hopen.consistent.finalReview last.poAccepted issue hissue item haggregated
        (of_decide_eq_true hsame)) (of_decide_eq_true hdisposition)
    have hcomplete : ((resolutionMap (aggregateResolutions turns)).keys ++
        remainingOpenIssues turns last.poAccepted).filter (fun issue =>
          decide (issue ∉ (catalogEntries reports turns).values.map IssueEntry.issue)) = [] := by
      rw [hkeys, List.filter_eq_nil_iff]
      intro issue hissue
      rw [decide_eq_true_eq, not_not]
      rcases List.mem_append.mp hissue with hresolved | hretained
      · obtain ⟨item, hitem, rfl⟩ := (OrderedDict.mem_keys_ofList _).mp hresolved
        obtain ⟨turn, hturn, hnames⟩ := names_of_aggregated hitem
        exact hnamed turn hturn _ hnames
      · obtain ⟨turn, hturn, hnames⟩ := lastOpenIssues_of_mem (hsub issue hretained)
        exact hnamed turn hturn _ hnames
    have hnodup : ((catalogEntries reports turns).values.map IssueEntry.issue).Nodup :=
      hkeys ▸ OrderedDict.nodup_keys _
    simp only [finalStateFailure, if_neg hlengths, hreference.1, hreference.2, ne_eq,
      not_true_eq_false, or_self, if_false]
    rw [if_neg hready, if_neg (not_not.mpr hnodup), hunsettled]
    dsimp only
    rw [hcomplete]
  · rw [if_pos (Nat.lt_of_not_le hfits)]
    refine ⟨?_, fun h => absurd h hfits⟩
    rintro ⟨review, hreview⟩
    cases hreview

end Build
/-! ## Recorded sessions -/

section Steps
variable {a : Attempt} {w₀ w w' : World} {s : SessionRecord} {id : SessionId}

/-- A session whose turns carry the record of a finalization is not active. -/
def RecordedClosed (w : World) : Prop :=
  ∀ id, w.Unstamped id ∨ ∃ s, w.core id = some s ∧ s.state ≠ .active

theorem World.Unstamped.congr (h : w.Unstamped id) (hturns : w'.turns id = w.turns id) :
    w'.Unstamped id := by
  rwa [World.Unstamped, World.history, hturns]

theorem RecordedClosed.of_eq (h : RecordedClosed w) (hcore : w'.core = w.core)
    (hturns : w'.turns = w.turns) : RecordedClosed w' := by
  intro id
  rw [hcore]
  exact (h id).imp_left fun h => h.congr (by rw [hturns])

/-- An update of a session: what is unstamped stays so, and a closed session is not
reopened. -/
theorem RecordedClosed.update (h : RecordedClosed w) {u : SessionUpdate}
    (hs : w.core a.sessionId = some s)
    (hkeeps : s.state ≠ .active → (u.apply 0 s).state ≠ .active ∨ w.Unstamped a.sessionId)
    (hcore : ∀ id, w'.core id =
      if id = a.sessionId then (w.core id).map (u.apply 0) else w.core id)
    (hturns : w'.turns = w.turns) : RecordedClosed w' := by
  intro id
  rw [hcore]
  rcases h id with hunstamped | ⟨s', hs', hstate⟩
  · exact .inl (hunstamped.congr (by rw [hturns]))
  · split_ifs with hid
    · subst hid
      rw [hs] at hs'
      cases hs'
      rcases hkeeps hstate with hclosed | hunstamped
      · exact .inr ⟨_, by rw [hs, Option.map_some], hclosed⟩
      · exact .inl (hunstamped.congr (by rw [hturns]))
    · exact .inr ⟨s', hs', hstate⟩

theorem Marks.keeps_recorded {u : SessionUpdate} (h : Marks a w₀ w s u)
    (hunrecorded : Finalizes a w₀ → w₀.Unstamped s.sessionId) (hstate : s.state ≠ .active) :
    (u.apply 0 s).state ≠ .active ∨ w.Unstamped s.sessionId := by
  cases h with
  | count hactive => exact absurd hactive hstate
  | finalizing => exact .inl nofun
  | rollBack _ hunstamped hfinalizes => exact .inr (hunstamped (hunrecorded hfinalizes))

theorem Closes.closed {u : SessionUpdate} {response : CanonicalResponse}
    (h : Closes a w₀ w s u response) (hstate : s.state ≠ .active) :
    (u.apply 0 s).state ≠ .active := by
  cases h with
  | persist _ hactive => exact absurd hactive hstate
  | completeTurn => exact nofun
  | completeFinalize => exact nofun
  | abandon => exact nofun

theorem Commit.recordedClosed (hunrecorded : Finalizes a w₀ → w₀.Unstamped a.sessionId)
    (h : RecordedClosed w) (hc : Commit a w₀ w w') : RecordedClosed w' := by
  cases hc with
  | quiet hq => exact h.of_eq (funext hq.core) hq.turns
  | draft hs hsaves =>
      obtain ⟨_, _, _, _, _, _, rfl⟩ := hsaves
      exact h.of_eq rfl rfl
  | claim => exact h.of_eq rfl rfl
  | release =>
      have hsame := w.sameButClaims_released a.slot
      exact h.of_eq (by funext id; rw [World.core, hsame.cores]; rfl) hsame.turns
  | storyRun => exact h.of_eq rfl rfl
  | session =>
      intro id
      refine (h id).imp (fun hu => hu) ?_
      rintro ⟨s, hs, hstate⟩
      refine ⟨s, ?_, hstate⟩
      simp only [World.core, World.cores, List.map_append, List.find?_append] at hs ⊢
      rw [hs, Option.some_or]
  | @turn s row hs hstate hvalid hnew =>
      have hid := World.sessionId_of_core hs
      intro id
      by_cases heq : id = s.sessionId
      · subst heq
        rw [hid] at *
        rcases h a.sessionId with hunstamped | ⟨s', hs', hclosed⟩
        · refine .inl ?_
          intro t ht
          rw [World.history, World.turns_setTurns, if_pos rfl, List.map_append,
            List.mem_append] at ht
          rcases ht with ht | ht
          · exact hunstamped t ht
          · rw [List.map_singleton, List.mem_singleton] at ht
            exact ht ▸ hnew.unstamped
        · rw [hs] at hs'
          cases hs'
          exact absurd hstate hclosed
      · refine (h id).imp_left fun hu => hu.congr ?_
        rw [World.turns_setTurns, if_neg heq]
  | mark hs hmarks =>
      have hid := World.sessionId_of_core hs
      refine h.update hs (fun hstate => ?_) (w.core_sessionUpdated _ _)
        (World.turns_sessionUpdated _ _ _)
      rw [← hid]
      exact hmarks.keeps_recorded (hid ▸ hunrecorded) hstate
  | finalReview => exact h.of_eq rfl rfl
  | report => exact h.of_eq rfl rfl
  | @stamp s references n hs hstate =>
      have hid := World.sessionId_of_core hs
      intro id
      by_cases heq : id = s.sessionId
      · subst heq
        rw [hid]
        exact .inr ⟨s, hs, hstate ▸ by decide⟩
      · refine (h id).imp_left fun hu => hu.congr ?_
        rw [World.turns_setTurns, if_neg heq]
  | @close s u response hs hcloses =>
      have hsame := (sessionUpdated a.sessionId u w).sameButClaims_completed a.slot response
      refine h.update hs (fun hstate => .inl (hcloses.closed hstate)) (fun id => ?_)
        (hsame.turns.trans (World.turns_sessionUpdated _ _ _))
      rw [World.core, hsame.cores]
      exact w.core_sessionUpdated _ _ id
  | @created payload response hrequest =>
      have hsame := w.sameButClaims_completed a.slot (.created response)
      exact h.of_eq (by funext id; rw [World.core, hsame.cores]; rfl) hsame.turns
  | @parkFailed s payload hrequest hs hstate =>
      have hsame := (sessionUpdated a.sessionId { state := some .parked }
        w).sameButClaims_released a.slot
      refine h.update (u := { state := some .parked }) hs (fun hclosed => absurd hstate hclosed)
        (fun id => ?_) (hsame.turns.trans (World.turns_sessionUpdated _ _ _))
      rw [World.core, hsame.cores]
      exact w.core_sessionUpdated _ _ id

/-! ## Catalogued issues -/

/-- Whatever the stored turns name is in their catalog. -/
def World.NamedCatalogued (w : World) (id : SessionId) : Prop :=
  ∀ issue, w.Names id issue → w.Catalogued id issue

theorem names_stampedResolutions {output : FacilitatorTurnOutput} {turn : TurnRecord} {n : ℕ}
    {issue : IssueId} (hdelegation : turn.delegation = some output.delegation)
    (hresolutions : turn.resolutions = TurnsFlow.stampedResolutions output.resolutions n)
    (h : turn.Names issue) : output.Names issue := by
  rcases h with ⟨delegation, hmem, hissue⟩ | ⟨item, hitem, rfl⟩
  · rw [hdelegation] at hmem
    exact .inl (Option.some.inj hmem ▸ hissue)
  · rw [hresolutions] at hitem
    obtain ⟨draft, hdraft, rfl⟩ := List.mem_map.mp hitem
    exact .inr (List.mem_map_of_mem hdraft)

/-- What a new turn names is in the catalog of the turns before it, or in what the turn
itself adds to the catalog. -/
theorem NewTurn.catalogues {row : TurnRow} (hnames : CataloguesNamed w₀ a) (hinv : Inv w)
    (hgrows : (w₀.objects ⟨a.sessionId.key⟩).Grows (w.objects ⟨a.sessionId.key⟩))
    (hs : w.core a.sessionId = some s) (h : NewTurn a w₀ w s row)
    (hold : w.NamedCatalogued a.sessionId) {issue : IssueId}
    (hissue : row.record.Names issue) : w.Catalogued a.sessionId issue ∨
      (∃ r ∈ row.record.producedArtifacts, r.type = .synthesis ∧
        w.DescribedIn ⟨a.sessionId.key⟩ r.artifactId issue) ∨
      issue ∈ row.record.newIssues.map IssueDraft.issue := by
  have hid := World.sessionId_of_core hs
  have hrun := hinv.run_of_core hs
  cases h with
  | @opening request output artifacts createdAt completedAt payload hrequest hanswer hturn hcall
      hreport hnostate hstored hsynthesis =>
      rcases hissue with ⟨delegation, hdelegation, hopen⟩ | ⟨item, hitem, -⟩
      · obtain rfl := Option.some.inj hdelegation
        rw [hid] at hcall
        have hknown := hnames.opening.known hrequest hanswer hturn hcall hnostate hopen
        rw [hrun, ← hreport] at hstored
        refine .inr (.inl ⟨artifacts.synthesis, ?_, hsynthesis.1, hstored.describedIn hknown⟩)
        simp [Flows.openingRecord]
      · cases hitem
  | accepted =>
      rcases hissue with ⟨delegation, hdelegation, -⟩ | ⟨item, hitem, -⟩
      · cases hdelegation
      · cases hitem
  | @message payload draft createdAt completedAt hrequest haccepted hsame hbefore hfinal =>
      rw [hid] at hrequest hsame hbefore
      have hmessage : a.MessageOn w₀ a.sessionId :=
        ⟨rfl, ⟨payload, hrequest, haccepted⟩, s, hbefore⟩
      have houtput : draft.output.Names issue := names_stampedResolutions rfl rfl hissue
      by_cases hdraft : issue ∈ draft.output.newIssues.map IssueDraft.issue
      · exact .inr (.inr hdraft)
      have hhistory : w.history a.sessionId = w₀.history a.sessionId := by
        rw [World.history, hsame, World.history]
      by_cases hnamed : w.Names a.sessionId issue
      · exact .inl (hold issue hnamed)
      have hfree : ¬ w₀.Names a.sessionId issue := by rwa [World.Names, hhistory] at hnamed
      have hmono : w₀.Catalogued a.sessionId issue → w.Catalogued a.sessionId issue := by
        unfold World.Catalogued World.Drafts
        rw [hhistory]
        refine Or.imp_left ?_
        rintro ⟨turn, hturn, r, hr, htype, hin⟩
        exact ⟨turn, hturn, r, hr, htype, hin.mono hgrows⟩
      simp only [TurnsFlow.messageRecord]
      generalize draft.newReferences ++
        (if draft.produced = true then [draft.synthesisReference] else []) = produced at hfinal ⊢
      cases hfinal with
      | plain hanswer _ _ hinvoke hreuse =>
          exact .inl (hmono (hnames.plain hmessage s _ _ hbefore.1 hanswer hinvoke hreuse issue
            houtput hdraft hfree))
      | @summary request output reviews reference hanswer hstored hreference =>
          rw [hrun] at hstored
          by_cases hknown : issue ∈ request.synthesisReport.issueIds
          · exact .inr (.inl ⟨reference, by simp, hreference.1, hstored.describedIn hknown⟩)
          · exact .inl (hmono (hnames.produced hmessage s _ _ hbefore.1 hanswer issue houtput
              hdraft hknown hfree))

theorem Commit.namedCatalogued (hnames : CataloguesNamed w₀ a) (hinv : Inv w)
    (hgrows : ∀ run, (w₀.objects run).Grows (w.objects run))
    (h : ∀ id, w.Unstamped id → w.NamedCatalogued id) (hc : Commit a w₀ w w') :
    ∀ id, w'.Unstamped id → w'.NamedCatalogued id := by
  intro id hunstamped issue hissue
  have hgrow := (hc.objects_cases ⟨id.key⟩).1
  generalize hrows : w'.turns id = rows
  have heffect := hrows ▸ hc.turns_cases id
  -- without a new turn only the objects have grown
  have hsame : w'.turns id = w.turns id → w'.Catalogued id issue := by
    intro hturns
    have hhistory : w'.history id = w.history id := by rw [World.history, hturns, World.history]
    rw [World.Names, hhistory] at hissue
    have hold := h id (hunstamped.congr hturns.symm) issue hissue
    unfold World.Catalogued World.Drafts at hold ⊢
    rw [hhistory]
    refine hold.imp_left ?_
    rintro ⟨turn, hturn, r, hr, htype, hin⟩
    exact ⟨turn, hturn, r, hr, htype, hin.mono hgrow⟩
  cases heffect with
  | same => exact hsame hrows
  | @append s row hid hs hstate hnew hclaim =>
      subst hid
      have hhistory : w'.history a.sessionId = w.history a.sessionId ++ [row.record] := by
        rw [World.history, hrows, List.map_append, List.map_singleton, World.history]
      have hbefore : w.Unstamped a.sessionId := by
        intro t ht
        exact hunstamped t (hhistory ▸ List.mem_append_left _ ht)
      have hold := h a.sessionId hbefore
      have hkept : w.Catalogued a.sessionId issue → w'.Catalogued a.sessionId issue := by
        unfold World.Catalogued World.Drafts
        rw [hhistory]
        rintro (⟨turn, hturn, r, hr, htype, hin⟩ | ⟨turn, hturn, hdraft⟩)
        · exact .inl ⟨turn, List.mem_append_left _ hturn, r, hr, htype, hin.mono hgrow⟩
        · exact .inr ⟨turn, List.mem_append_left _ hturn, hdraft⟩
      obtain ⟨turn, hturn, hnamed⟩ := hissue
      rw [hhistory, List.mem_append, List.mem_singleton] at hturn
      rcases hturn with hturn | rfl
      · exact hkept (hold issue ⟨turn, hturn, hnamed⟩)
      · rcases hnew.catalogues hnames hinv (hgrows _) hs hold hnamed with
          hcat | ⟨r, hr, htype, hin⟩ | hdraft
        · exact hkept hcat
        · exact .inl ⟨row.record, by simp [hhistory], r, hr, htype, hin.mono hgrow⟩
        · exact .inr ⟨row.record, by simp [hhistory], hdraft⟩
  | @stamp s n references hid hs hstate hreferences =>
      -- a row that was written to would carry the final review
      obtain ⟨final, hfinal, htype⟩ := hreferences
      refine hsame (hrows.trans ((List.map_congr_left fun row hrow => ?_).trans (List.map_id _)))
      unfold stampTurn
      split_ifs with hnumber
      · have hmem : (stampTurn n references row).record ∈ w'.history id := by
          rw [World.history, hrows]
          exact List.mem_map_of_mem (List.mem_map_of_mem hrow)
        have hclean := hunstamped _ hmem final (by rwa [stampTurn, if_pos hnumber])
        exact absurd htype hclean
      · rfl

theorem Evolves.recordedClosed (hunrecorded : Finalizes a w₀ → w₀.Unstamped a.sessionId)
    (h : RecordedClosed w₀) (hw : Evolves a w₀ w₀ w) : RecordedClosed w := by
  induction hw with
  | refl => exact h
  | tail _ hc ih => exact hc.recordedClosed hunrecorded ih

theorem Evolves.namedCatalogued (hnames : CataloguesNamed w₀ a) (h₀ : Inv w₀)
    (h : ∀ id, w₀.Unstamped id → w₀.NamedCatalogued id) (hw : Evolves a w₀ w₀ w) :
    ∀ id, w.Unstamped id → w.NamedCatalogued id := by
  induction hw with
  | refl => exact h
  | tail hw hc ih =>
      exact hc.namedCatalogued hnames (h₀.evolves hw) (Evolves.grows hw) ih

end Steps
/-! ## Runs -/

section Runs
variable {w : World} {id : SessionId}

/-- Each synthesis that the turns produced is among the versions the catalog unions. -/
theorem exists_versionReference {turns : List TurnRecord} {turn : TurnRecord}
    {r : ArtifactReference} (hturn : turn ∈ turns) (hr : r ∈ turn.producedArtifacts)
    (htype : r.type = .synthesis) : ∃ version ∈ versionReferences turns,
      version.artifactId = r.artifactId := by
  have hkey : r.artifactId ∈ ((OrderedDict.empty : OrderedDict ArtifactId ArtifactReference).setDefaults
      ArtifactReference.artifactId id ((turns.flatMap TurnRecord.producedArtifacts).filter
        fun r => decide (r.type = .synthesis))).keys := by
    refine OrderedDict.mem_keys_setDefaults.mpr (.inr ⟨r, ?_, rfl⟩)
    rw [List.mem_filter]
    exact ⟨List.mem_flatMap.mpr ⟨turn, hturn, hr⟩, decide_eq_true htype⟩
  obtain ⟨e, he, hid⟩ := List.mem_map.mp hkey
  refine ⟨e.2, List.mem_map_of_mem he, ?_⟩
  rcases OrderedDict.mem_entries_setDefaults he with hnone | ⟨x, -, rfl⟩
  · cases hnone
  · exact hid

theorem mem_versionReferences {turns : List TurnRecord} {version : ArtifactReference}
    (h : version ∈ versionReferences turns) : version.type = .synthesis ∧
      ∃ turn ∈ turns, version ∈ turn.producedArtifacts := by
  obtain ⟨e, he, rfl⟩ := List.mem_map.mp h
  rcases OrderedDict.mem_entries_setDefaults he with hnone | ⟨x, hx, rfl⟩
  · cases hnone
  · obtain ⟨hmem, htype⟩ := List.mem_filter.mp hx
    obtain ⟨turn, hturn, hr⟩ := List.mem_flatMap.mp hmem
    exact ⟨of_decide_eq_true htype, turn, hturn, hr⟩

theorem exists_of_forall₂ {α β : Type} {R : α → β → Prop} {xs : List α} {ys : List β}
    (h : List.Forall₂ R xs ys) {x : α} (hx : x ∈ xs) : ∃ y ∈ ys, R x y := by
  induction h with
  | nil => cases hx
  | cons hxy _ ih =>
      rcases List.mem_cons.mp hx with rfl | hx
      · exact ⟨_, List.mem_cons_self, hxy⟩
      · obtain ⟨y, hy, hR⟩ := ih hx
        exact ⟨y, List.mem_cons_of_mem _ hy, hR⟩

/-- The catalog built from the stored contents has what the stored turns catalogue. -/
theorem World.Catalogued.mem_keys (hinv : Inv w) {issue : IssueId}
    (h : w.Catalogued id issue) {reference : ArtifactReference} {reports : List SynthesisReport}
    (hreports : List.Forall₂ w.Holds (catalogReferences (w.history id) reference) reports) :
    issue ∈ (catalogEntries reports (w.history id)).keys := by
  rw [mem_keys_catalogEntries]
  refine h.imp_left ?_
  rintro ⟨turn, hturn, r, hr, htype, stored, report, hstored, -, hcontent, hissue⟩
  obtain ⟨version, hversion, hsame⟩ := exists_versionReference hturn hr htype
  have hrefs : catalogReferences (w.history id) reference = versionReferences (w.history id) :=
    if_neg (List.ne_nil_of_mem hversion)
  rw [hrefs] at hreports
  obtain ⟨report', hreport', record, hrecord, hcontent'⟩ := exists_of_forall₂ hreports hversion
  obtain ⟨hsynthesis, turn', hturn', hmem⟩ := mem_versionReferences hversion
  obtain ⟨hrun, -⟩ := hinv.produced id turn' hturn' version hmem hsynthesis
  rw [hrun, hsame, hstored, Option.some.injEq] at hrecord
  rw [← hrecord, hcontent, Content.synthesis.injEq] at hcontent'
  exact ⟨report', hreport', hcontent' ▸ hissue⟩

theorem ReachableIf.namedCatalogued (h : ReachableIf CataloguesNamed w) :
    RecordedClosed w ∧ ∀ id, w.Unstamped id → w.NamedCatalogued id := by
  induction h with
  | init =>
      refine ⟨fun id => .inl ?_, fun id _ issue => ?_⟩
      · intro t ht
        cases ht
      · rintro ⟨turn, hturn, -⟩
        cases hturn
  | @step w a hw hnames ih =>
      have hevolves := a.evolves hw.inv
      exact ⟨Evolves.recordedClosed hnames.unrecorded ih.1 hevolves,
        Evolves.namedCatalogued hnames hw.inv ih.2 hevolves⟩

/-- In a run whose outputs name only what the catalog will describe and whose recorded
finalizations are not entered again: wherever a finalize turn is stored and not yet
recorded over, the final review is built from the stored turns and syntheses, unless the
catalog has more than 400 issues. -/
theorem reachable_buildsFinalReview (h : ReachableIf CataloguesNamed w) {row : SessionRow}
    (hrow : w.session id = some row)
    (hstate : row.record.state = .active ∨ row.record.state = .finalizing ∧ w.Unstamped id)
    (hlast : ∃ turn, (w.history id).getLast? = some turn ∧ turn.outcome = .finalize)
    {reference : ArtifactReference} (hreference : reference.type = .synthesis ∧
      reference.storyRunId = row.record.storyRunId)
    {reports : List SynthesisReport}
    (hreports : List.Forall₂ w.Holds (catalogReferences (w.history id) reference) reports)
    (finalizedAt : Time) (correlationId : Uuid) :
    (∃ review, buildFinalReview row.record reference reports (w.history id) finalizedAt
      correlationId = .ok review) ↔
        (catalogEntries reports (w.history id)).values.length ≤ 400 := by
  obtain ⟨hclosed, hnamed⟩ := h.namedCatalogued
  have hunstamped : w.Unstamped id := by
    rcases hstate with hactive | ⟨-, hunstamped⟩
    · rcases hclosed id with hunstamped | ⟨s, hs, hne⟩
      · exact hunstamped
      · rw [World.core_of_session hrow] at hs
        cases hs
        exact absurd hactive hne
    · exact hunstamped
  have hopen := (h.mono fun _ _ hnames => hnames.toRespectsSettled).openUnsettled id
  obtain ⟨turn, hturn, -⟩ := hlast
  have hne : w.history id ≠ [] := by
    intro hnil
    rw [hnil] at hturn
    cases hturn
  refine buildFinalReview_ok_iff hne hreference hopen (fun turn hturn issue hissue => ?_) _ _
  exact (hnamed id hunstamped issue ⟨turn, hturn, hissue⟩).mem_keys h.inv hreports

/-- The synthesis versions that turns produced can be read back. -/
theorem Inv.exists_reports (hinv : Inv w) {references : List ArtifactReference}
    (h : ∀ r ∈ references, r.type = .synthesis ∧
      ∃ turn ∈ w.history id, r ∈ turn.producedArtifacts) :
    ∃ reports, List.Forall₂ w.Holds references reports := by
  induction references with
  | nil => exact ⟨[], .nil⟩
  | cons r references ih =>
      obtain ⟨reports, hreports⟩ := ih fun r hr => h r (List.mem_cons_of_mem _ hr)
      obtain ⟨htype, turn, hturn, hr⟩ := h r List.mem_cons_self
      obtain ⟨hrun, report, record, stored, hrecord, -, hcontent, -⟩ :=
        hinv.produced id turn hturn r hr htype
      exact ⟨stored :: reports, .cons ⟨record, hrun ▸ hrecord, hcontent⟩ hreports⟩

end Runs

namespace Scenario

/-- An acceptance that has stored its turn. -/
theorem buildsFinalReview_accepted : ∃ row reports,
    (World.after {} [create, accept 2 (some 10)]).session ⟨1⟩ = some row ∧
      ((∃ review, buildFinalReview row.record { reviewReference .business with
          type := .synthesis, storyRunId := ⟨1⟩ } reports
          ((World.after {} [create, accept 2 (some 10)]).history ⟨1⟩) 0 0 = .ok review) ↔
        (catalogEntries reports ((World.after {} [create, accept 2 (some 10)]).history
          ⟨1⟩)).values.length ≤ 400) := by
  have hsettled : RespectsSettled {} create := by
    constructor <;> rintro ⟨-, ⟨payload, hrequest, -⟩, -⟩ <;> cases hrequest
  have hcreate : CataloguesNamed {} create := by
    refine { hsettled with opening := ?_, plain := ?_, produced := ?_, unrecorded := ?_ }
    · rintro payload request output - ⟨⟨n, rfl⟩, -⟩ _ _ _
      nofun
    · rintro ⟨-, ⟨payload, hrequest, -⟩, -⟩
      cases hrequest
    · rintro ⟨-, ⟨payload, hrequest, -⟩, -⟩
      cases hrequest
    · intro _ t ht
      cases ht
  have hmessage : ¬ (accept 2 (some 10)).MessageOn (World.after {} [create]) ⟨1⟩ := by
    rintro ⟨-, ⟨payload, hrequest, haccepted⟩, -⟩
    cases hrequest
    cases haccepted
  have haccept : CataloguesNamed (World.after {} [create]) (accept 2 (some 10)) := by
    refine ⟨⟨fun h => absurd h hmessage, fun h => absurd h hmessage⟩, ?_,
      fun h => absurd h hmessage, fun h => absurd h hmessage, fun _ => ?_⟩
    · rintro payload request output hrequest
      cases hrequest
    · have hclean : ∀ t ∈ (World.after {} [create]).history ⟨1⟩,
          ∀ r ∈ t.producedArtifacts, r.type ≠ .finalizedReview := by decide +kernel
      exact hclean
  have hreachable : ReachableIf CataloguesNamed (World.after {} [create, accept 2 (some 10)]) :=
    .step (accept 2 (some 10)) (.step create .init hcreate) haccept
  have hactive : ((World.after {} [create, accept 2 (some 10)]).session ⟨1⟩).any (fun row =>
      decide (row.record.state = .active ∧ row.record.storyRunId = ⟨1⟩)) = true := by
    decide +kernel
  have hlast : ∃ turn, ((World.after {} [create, accept 2 (some 10)]).history ⟨1⟩).getLast? =
      some turn ∧ turn.outcome = .finalize := by
    have hany : (((World.after {} [create, accept 2 (some 10)]).history ⟨1⟩).getLast?).any
        (fun turn => decide (turn.outcome = .finalize)) = true := by decide +kernel
    obtain ⟨turn, hturn, houtcome⟩ := Option.any_eq_true _ _ |>.mp hany
    exact ⟨turn, hturn, of_decide_eq_true houtcome⟩
  have hversions : versionReferences
      ((World.after {} [create, accept 2 (some 10)]).history ⟨1⟩) ≠ [] := by decide +kernel
  obtain ⟨row, hrow, hdecided⟩ := Option.any_eq_true _ _ |>.mp hactive
  obtain ⟨hstate, hrun⟩ := of_decide_eq_true hdecided
  obtain ⟨reports, hreports⟩ := hreachable.inv.exists_reports
    fun r (hr : r ∈ versionReferences
      ((World.after {} [create, accept 2 (some 10)]).history ⟨1⟩)) => mem_versionReferences hr
  refine ⟨row, reports, hrow, ?_⟩
  refine reachable_buildsFinalReview hreachable hrow (.inl hstate) hlast ⟨rfl, hrun.symm⟩ ?_ 0 0
  rwa [catalogReferences, if_neg hversions]

/-- An issue that nothing describes is resolved. -/
def settlesUnknown : FacilitatorTurnOutput :=
  settles "Settled." [⟨"X-9", .resolved, "Answered."⟩] (by decide)

def tellUnknown (key : IdempotencyKey) : Attempt :=
  attempt (.turn ⟨1⟩ ⟨some "Why?", false, rfl⟩) key
    (later (environment fun _ => settlesUnknown)) none

/-- The attempt ends in the error of a final review that could not be built. -/
def failsInvalid (a : Attempt) (w : World) : Bool :=
  match (a.program.run a.choices w).1 with
  | .error (.apiError error) => decide (error.error.code = .finalReviewInvalid)
  | _ => false

def unknownSettled : World := World.after {} [create, tellUnknown 2]

/-- The turn is accepted and the session stays active, but no acceptance can finalize it. -/
theorem unknownSettled_invalid : Reachable unknownSettled ∧
    (unknownSettled.session ⟨1⟩).map (fun row => row.record.state) = some .active ∧
    (unknownSettled.history ⟨1⟩).map (fun turn => turn.resolutions.map ResolutionItem.issue) =
      [[], ["X-9"]] ∧
    failsInvalid (accept 3 none) unknownSettled = true ∧
    (((accept 3 none).result unknownSettled).session ⟨1⟩).map
      (fun row => row.record.state) = some .active ∧
    failsInvalid (accept 4 none) ((accept 3 none).result unknownSettled) = true :=
  ⟨reachable_after _, by decide +kernel, by decide +kernel, by decide +kernel,
    by decide +kernel, by decide +kernel⟩

end Scenario
end StoryReview
