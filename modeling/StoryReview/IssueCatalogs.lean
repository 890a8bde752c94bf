import StoryReview.DictLaws
import StoryReview.Catalog

/-!
# What the issue catalog contains

One dictionary takes the issues of every synthesis version, the later ones over
the earlier, and then the drafts of the turns as defaults. Its keys and values
are described here by the reports and turns alone.
-/
namespace StoryReview.Finalization
open RecordsStore OrderedDict

section Catalog
variable {reports : List SynthesisReport} {turns : List TurnRecord} {issue : IssueId}

/-- The ids of the synthesis reports, then those of the drafts, in order. -/
def describedIds (reports : List SynthesisReport) (turns : List TurnRecord) : List IssueId :=
  reports.flatMap SynthesisReport.issueIds ++
    (turns.flatMap TurnRecord.newIssues).map IssueDraft.issue

/-- The descriptor that a report gives last to an issue. -/
def lastDescriptor (report : SynthesisReport) (issue : IssueId) : Option IssueEntry :=
  ((synthesisEntries report).filter fun entry => decide (entry.issue = issue)).getLast?

/-- The last report that has the issue. -/
def lastReport (reports : List SynthesisReport) (issue : IssueId) : Option SynthesisReport :=
  (reports.filter fun report => decide (issue ∈ report.issueIds)).getLast?

/-- The first draft of an issue, as an entry. -/
def firstDraft (turns : List TurnRecord) (issue : IssueId) : Option IssueEntry :=
  (((turns.flatMap TurnRecord.newIssues).filter fun draft =>
    decide (draft.issue = issue)).head?).map draftEntry

theorem issues_synthesisEntries (report : SynthesisReport) :
    (synthesisEntries report).map IssueEntry.issue = report.issueIds := by
  simp [synthesisEntries, SynthesisReport.issueIds, SynthesisReport.findingIds,
    SynthesisReport.conflictIds, Function.comp_def, findingEntry, conflictEntry]

theorem keys_catalogEntries (reports : List SynthesisReport) (turns : List TurnRecord) :
    (catalogEntries reports turns).keys = (describedIds reports turns).eraseDups := by
  have hsynthesis : (reports.flatMap synthesisEntries).map IssueEntry.issue =
      reports.flatMap SynthesisReport.issueIds := by
    rw [List.map_flatMap]
    exact List.flatMap_congr fun report _ => issues_synthesisEntries report
  rw [catalogEntries, keys_setDefaults, keys_ofList, hsynthesis, describedIds]
  exact eraseDups_eraseDups_append _ _

theorem lastDescriptor_eq_get? (report : SynthesisReport) (issue : IssueId) :
    lastDescriptor report issue =
      (ofList IssueEntry.issue (synthesisEntries report)).get? issue := by
  rw [get?_ofList, lastDescriptor, List.getLast?_eq_head?_reverse, ← List.filter_reverse,
    List.head?_filter]

theorem isSome_lastDescriptor {report : SynthesisReport} :
    (lastDescriptor report issue).isSome ↔ issue ∈ report.issueIds := by
  rw [lastDescriptor_eq_get?, ← mem_keys_iff, keys_ofList, List.mem_eraseDups,
    issues_synthesisEntries]

/-- Of the synthesis versions the last one that has the issue describes it. -/
theorem get?_synthesisEntries (reports : List SynthesisReport) (issue : IssueId) :
    (ofList IssueEntry.issue (reports.flatMap synthesisEntries)).get? issue =
      (lastReport reports issue).bind fun report => lastDescriptor report issue := by
  induction reports using List.reverseRecOn with
  | nil => rfl
  | append_singleton reports report ih =>
      rw [List.flatMap_append, List.flatMap_singleton, get?_ofList_append, ih,
        ← lastDescriptor_eq_get?]
      by_cases h : issue ∈ report.issueIds
      · obtain ⟨entry, hentry⟩ := Option.isSome_iff_exists.mp (isSome_lastDescriptor.mpr h)
        simp [lastReport, h, hentry]
      · have hnone := Option.not_isSome_iff_eq_none.mp (isSome_lastDescriptor.not.mpr h)
        simp [lastReport, h, hnone]

theorem get?_catalogEntries (reports : List SynthesisReport) (turns : List TurnRecord)
    (issue : IssueId) :
    (catalogEntries reports turns).get? issue =
      ((lastReport reports issue).bind fun report => lastDescriptor report issue).or
        (firstDraft turns issue) := by
  rw [catalogEntries, get?_setDefaults, get?_synthesisEntries, firstDraft, List.head?_filter]

theorem length_catalogEntries (reports : List SynthesisReport) (turns : List TurnRecord) :
    (catalogEntries reports turns).values.length = (describedIds reports turns).toFinset.card := by
  have hkeys := congrArg List.length (keys_catalogEntries reports turns)
  rw [keys, List.length_map] at hkeys
  rw [values, List.length_map, hkeys, ← List.toFinset_card_of_nodup (nodup_eraseDups _)]
  congr 1
  ext issue
  simp

theorem issueCatalog_eq_ok {entries : List IssueEntry}
    (h : issueCatalog reports turns = .ok entries) :
    entries = (catalogEntries reports turns).values := by
  unfold issueCatalog at h
  dsimp only at h
  split_ifs at h
  exact (Except.ok.inj h).symm

/-- The entry of an id is the one looked up under it. -/
theorem get?_of_mem_catalog {entry : IssueEntry}
    (h : entry ∈ (catalogEntries reports turns).values) :
    (catalogEntries reports turns).get? entry.issue = some entry := by
  obtain ⟨e, he, rfl⟩ := List.mem_map.mp h
  have hkey : e.1 = e.2.issue := by
    rcases mem_entries_setDefaults he with hold | ⟨draft, -, rfl⟩
    · exact key_of_mem_entries IssueEntry.issue hold
    · rfl
  rw [← hkey]
  exact get?_eq_some_of_mem he

theorem issueCatalog_raises_iff (reports : List SynthesisReport) (turns : List TurnRecord) :
    (∃ failure, issueCatalog reports turns = .error failure) ↔
      400 < (describedIds reports turns).toFinset.card := by
  rw [← length_catalogEntries]
  unfold issueCatalog
  dsimp only
  split_ifs with hsize
  · simpa using hsize
  · simpa using hsize

/-- The catalog has exactly one entry for every id of a synthesis or a draft, in the
order of the first occurrences: the last descriptor of the last synthesis that has
the id, or else its first draft. It is refused only beyond 400 ids, and a later
synthesis removes none. -/
theorem issueCatalog_spec (reports : List SynthesisReport) (turns : List TurnRecord) :
    (∀ entries, issueCatalog reports turns = .ok entries →
      (entries.map IssueEntry.issue).Nodup ∧
      entries.map IssueEntry.issue = (describedIds reports turns).eraseDups ∧
      (∀ issue, issue ∈ entries.map IssueEntry.issue ↔
        (∃ report ∈ reports, issue ∈ report.issueIds) ∨
          ∃ turn ∈ turns, issue ∈ turn.newIssues.map IssueDraft.issue) ∧
      ∀ entry ∈ entries,
        match lastReport reports entry.issue with
        | some report => lastDescriptor report entry.issue = some entry
        | none => firstDraft turns entry.issue = some entry) ∧
    ((∃ failure, issueCatalog reports turns = .error failure) ↔
      400 < (describedIds reports turns).toFinset.card) ∧
    ∀ later entries entries', issueCatalog reports turns = .ok entries →
      issueCatalog (reports ++ [later]) turns = .ok entries' →
        ∀ issue ∈ entries.map IssueEntry.issue, issue ∈ entries'.map IssueEntry.issue := by
  refine ⟨?_, issueCatalog_raises_iff reports turns, ?_⟩
  · intro entries hentries
    obtain rfl := issueCatalog_eq_ok hentries
    rw [issues_catalogEntries]
    refine ⟨nodup_keys _, keys_catalogEntries reports turns, fun _ => mem_keys_catalogEntries, ?_⟩
    intro entry hentry
    have hget := get?_of_mem_catalog hentry
    rw [get?_catalogEntries] at hget
    cases hreport : lastReport reports entry.issue with
    | none => simpa [hreport] using hget
    | some report =>
        have hhas : entry.issue ∈ report.issueIds := by
          have hmem := List.mem_of_getLast? hreport
          exact of_decide_eq_true (List.mem_filter.mp hmem).2
        obtain ⟨found, hfound⟩ := Option.isSome_iff_exists.mp
          (isSome_lastDescriptor.mpr hhas)
        simpa [hreport, hfound] using hget
  · intro later entries entries' hentries hentries' issue hissue
    obtain rfl := issueCatalog_eq_ok hentries
    obtain rfl := issueCatalog_eq_ok hentries'
    rw [issues_catalogEntries, mem_keys_catalogEntries] at hissue ⊢
    refine hissue.imp_left ?_
    rintro ⟨report, hreport, hmem⟩
    exact ⟨report, List.mem_append_left _ hreport, hmem⟩

end Catalog
end StoryReview.Finalization
