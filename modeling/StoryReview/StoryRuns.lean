import StoryReview.Lifecycle

/-!
# Story runs and their sessions

A run is inserted before its session, and moved to a terminal state in the transaction
that moves the session there. The run of every session follows it, and a run without a
session is active: a process that dies between the two inserts of a creation leaves one.
-/
namespace StoryReview
open Program Flows RecordsStore

/-- The run is in the state of its session, up to finalization. -/
def StoryRunRecord.Follows (run : StoryRunRecord) (s : SessionRecord) : Prop :=
  run.state = s.state ∨ (run.state.Open ∧ s.state.Open)

theorem StoryRunRecord.Follows.open_iff {run : StoryRunRecord} {s : SessionRecord}
    (h : run.Follows s) : run.state.Open ↔ s.state.Open := by
  rcases h with heq | ⟨hrun, hs⟩
  · rw [heq]
  · exact ⟨fun _ => hs, fun _ => hrun⟩

/-- The run has a session. -/
def World.HasSession (w : World) (run : RunId) : Prop := ∃ s ∈ w.cores, s.storyRunId = run

structure RunsMatch (w : World) : Prop where
  follows : ∀ run ∈ w.storyRuns, ∀ s ∈ w.cores, s.storyRunId = run.storyRunId → run.Follows s
  orphans : ∀ run ∈ w.storyRuns, ¬ w.HasSession run.storyRunId → run.state.Open
  runs : ∀ s ∈ w.cores, ∃ run ∈ w.storyRuns, run.storyRunId = s.storyRunId

theorem runsMatch_init : RunsMatch {} := ⟨by simp, by simp, by simp [World.cores]⟩

/-- The terminal state that a session update hands on to the run. -/
def RecordsStore.SessionUpdate.retires (u : SessionUpdate) : Option SessionState :=
  u.state.filter fun state => decide (¬ state.Open)

section Updates
variable {w : World} {id : SessionId} {s : SessionRecord} {u : SessionUpdate}

/-- A terminal update moves the run of its session, and no other. -/
theorem World.storyRuns_sessionUpdated (hs : w.core id = some s) :
    (sessionUpdated id u w).storyRuns = w.storyRuns.map fun run =>
      match u.retires with
      | some state =>
          if s.storyRunId = run.storyRunId then { run with state := state, updatedAt := w.clock }
          else run
      | none => run := by
  have hretire : ∀ state, (retireStoryRun id state (w.modifySession id fun row =>
      { row with record := u.apply w.clock row.record })).storyRuns =
      w.storyRuns.map fun run => if s.storyRunId = run.storyRunId
        then { run with state := state, updatedAt := w.clock } else run := by
    intro state
    have hcore : (w.modifySession id fun row =>
        { row with record := u.apply w.clock row.record }).core id = some (u.apply 0 s) := by
      have hcores : (w.modifySession id fun row =>
          { row with record := u.apply w.clock row.record }).cores =
          w.cores.map fun s => if s.sessionId = id then u.apply 0 s else s :=
        w.modifySession_cores fun _ => rfl
      rw [World.core, hcores, ← World.cores_sessionUpdated, ← World.core,
        World.core_sessionUpdated, if_pos rfl, hs]
      rfl
    obtain ⟨row, hrow, hrecord⟩ := World.session_of_core hcore
    have hrun : row.record.core.storyRunId = s.storyRunId := by
      rw [hrecord]
      rfl
    have hrun : row.record.storyRunId = s.storyRunId := hrun
    simp only [retireStoryRun, hrow, Option.any_some, hrun, decide_eq_true_eq]
    rfl
  unfold sessionUpdated SessionUpdate.retires
  cases hstate : u.state with
  | none => simp [World.modifySession]
  | some state =>
      cases state with
      | active | finalizing => simp [World.modifySession, SessionState.Open, Option.filter]
      | parked | completed => simpa [SessionState.Open, Option.filter] using hretire _

theorem World.mem_cores_sessionUpdated {s' : SessionRecord}
    (h : s' ∈ (sessionUpdated id u w).cores) : ∃ q ∈ w.cores,
      s' = (if q.sessionId = id then u.apply 0 q else q) ∧ s'.storyRunId = q.storyRunId := by
  rw [World.cores_sessionUpdated] at h
  obtain ⟨q, hq, rfl⟩ := List.mem_map.mp h
  refine ⟨q, hq, rfl, ?_⟩
  split_ifs <;> rfl

theorem World.hasSession_sessionUpdated (run : RunId) :
    (sessionUpdated id u w).HasSession run ↔ w.HasSession run := by
  constructor
  · rintro ⟨s', hs', hrun⟩
    obtain ⟨q, hq, -, hsame⟩ := World.mem_cores_sessionUpdated hs'
    exact ⟨q, hq, hsame.symm.trans hrun⟩
  · rintro ⟨q, hq, hrun⟩
    refine ⟨if q.sessionId = id then u.apply 0 q else q, ?_, ?_⟩
    · rw [World.cores_sessionUpdated]
      exact List.mem_map_of_mem hq
    · split_ifs <;> exact hrun

/-- The run as an update of the session leaves it. -/
theorem World.mem_storyRuns_sessionUpdated (hs : w.core id = some s) {run' : StoryRunRecord}
    (h : run' ∈ (sessionUpdated id u w).storyRuns) : ∃ run ∈ w.storyRuns,
      run'.storyRunId = run.storyRunId ∧
        ((run'.state = run.state ∧ (u.retires = none ∨ s.storyRunId ≠ run.storyRunId)) ∨
          (u.retires = some run'.state ∧ s.storyRunId = run.storyRunId)) := by
  rw [World.storyRuns_sessionUpdated hs] at h
  obtain ⟨run, hrun, rfl⟩ := List.mem_map.mp h
  refine ⟨run, hrun, ?_⟩
  cases u.retires with
  | none => exact ⟨rfl, .inl ⟨rfl, .inl rfl⟩⟩
  | some state =>
      dsimp only
      split_ifs with hsame
      · exact ⟨rfl, .inr ⟨rfl, hsame⟩⟩
      · exact ⟨rfl, .inl ⟨rfl, .inr hsame⟩⟩

theorem state_of_retires {state : SessionState} (h : u.retires = some state) :
    (u.apply 0 s).state = state := by
  obtain ⟨hstate, -⟩ := Option.filter_eq_some_iff.mp h
  rw [SessionUpdate.apply, hstate]
  rfl

theorem open_of_retires (h : u.retires = none) (hopen : s.state.Open) :
    (u.apply 0 s).state.Open := by
  unfold SessionUpdate.retires at h
  unfold SessionUpdate.apply
  cases hstate : u.state with
  | none => exact hopen
  | some state =>
      rw [hstate, Option.filter_some_eq_none, decide_eq_true_eq, not_not] at h
      exact h

namespace RunsMatch

theorem congr {w' : World} (h : RunsMatch w) (hruns : w'.storyRuns = w.storyRuns)
    (hcores : w'.cores = w.cores) : RunsMatch w' := by
  refine ⟨?_, ?_, ?_⟩
  · rw [hruns, hcores]
    exact h.follows
  · simp only [World.HasSession, hruns, hcores]
    exact h.orphans
  · rw [hruns, hcores]
    exact h.runs

/-- An update of an open session, which may close it. -/
theorem update (h : RunsMatch w) (hw : Inv w) (hs : w.core id = some s)
    (hopen : s.state.Open) (u : SessionUpdate) : RunsMatch (sessionUpdated id u w) := by
  have hmem := World.mem_cores_of_core hs
  have hkey : ∀ q ∈ w.cores, q.sessionId = id ↔ q.storyRunId = s.storyRunId := by
    intro q hq
    have hq' := hw.keyed q hq
    have hs' := hw.keyed s hmem
    rw [World.sessionId_of_core hs] at hs'
    refine ⟨fun hid => ?_, fun hrun => ?_⟩
    · rw [hid, ← hs'] at hq'
      exact congrArg RunId.mk hq'
    · rw [hrun, hs'] at hq'
      exact congrArg SessionId.mk hq'.symm
  refine ⟨fun run' hrun' s' hs' hsame => ?_, fun run' hrun' horphan => ?_, fun s' hs' => ?_⟩
  · obtain ⟨run, hrun, hid, hstate⟩ := World.mem_storyRuns_sessionUpdated hs hrun'
    obtain ⟨q, hq, rfl, hqrun⟩ := World.mem_cores_sessionUpdated hs'
    have hmatch : q.storyRunId = run.storyRunId := hqrun.symm.trans (hsame.trans hid)
    have hfollows := h.follows run hrun q hq hmatch
    by_cases hown : q.sessionId = id
    · have hrunId := (hkey q hq).mp hown
      have hrunOpen : run.state.Open :=
        (h.follows run hrun s hmem (hrunId.symm.trans hmatch)).open_iff.mpr hopen
      rw [if_pos hown]
      rcases hstate with ⟨hkept, hnone | hother⟩ | ⟨hretires, -⟩
      · exact .inr ⟨hkept ▸ hrunOpen, open_of_retires hnone (hfollows.open_iff.mp hrunOpen)⟩
      · exact absurd (hrunId.symm.trans hmatch) hother
      · exact .inl (state_of_retires hretires).symm
    · rw [if_neg hown]
      rcases hstate with ⟨hkept, -⟩ | ⟨-, hown'⟩
      · unfold StoryRunRecord.Follows
        rw [hkept]
        exact hfollows
      · exact absurd ((hkey q hq).mpr (hmatch.trans hown'.symm)) hown
  · obtain ⟨run, hrun, hid, hstate⟩ := World.mem_storyRuns_sessionUpdated hs hrun'
    rw [World.hasSession_sessionUpdated, hid] at horphan
    rcases hstate with ⟨hkept, -⟩ | ⟨-, hown⟩
    · exact hkept ▸ h.orphans run hrun horphan
    · exact absurd ⟨s, hmem, hown⟩ horphan
  · obtain ⟨q, hq, -, hqrun⟩ := World.mem_cores_sessionUpdated hs'
    obtain ⟨run, hrun, hid⟩ := h.runs q hq
    rw [World.storyRuns_sessionUpdated hs, hqrun, ← hid]
    refine ⟨_, List.mem_map_of_mem hrun, ?_⟩
    cases u.retires with
    | none => rfl
    | some state =>
        dsimp only
        split_ifs <;> rfl

/-- A new run is active and has no session. -/
theorem newRun (h : RunsMatch w) {record : StoryRunRecord} (hopen : record.state.Open)
    (hnew : ¬ w.HasSession record.storyRunId) :
    RunsMatch { w with storyRuns := w.storyRuns ++ [record] } := by
  refine ⟨fun run hrun s hs hsame => ?_, fun run hrun horphan => ?_, fun s hs => ?_⟩
  · rcases List.mem_append.mp hrun with hrun | hrun
    · exact h.follows run hrun s hs hsame
    · rw [List.mem_singleton.mp hrun] at hsame
      exact absurd ⟨s, hs, hsame⟩ hnew
  · rcases List.mem_append.mp hrun with hrun | hrun
    · exact h.orphans run hrun horphan
    · rw [List.mem_singleton.mp hrun]
      exact hopen
  · obtain ⟨run, hmem, hid⟩ := h.runs s hs
    exact ⟨run, List.mem_append_left _ hmem, hid⟩

/-- A new session is active and the first one of its run. -/
theorem newSession (h : RunsMatch w) {record : SessionRecord} (hactive : record.state = .active)
    (hnew : ¬ w.HasSession record.storyRunId)
    (hrun : ∃ run ∈ w.storyRuns, run.storyRunId = record.storyRunId) :
    RunsMatch { w with sessions := w.sessions ++ [⟨record, none⟩] } := by
  have hcores : World.cores { w with sessions := w.sessions ++ [⟨record, none⟩] } =
      w.cores ++ [record.core] := by
    simp [World.cores]
  refine ⟨fun run hrun' s hs hsame => ?_, fun run hrun' horphan => ?_, fun s hs => ?_⟩
  · rw [hcores] at hs
    rcases List.mem_append.mp hs with hs | hs
    · exact h.follows run hrun' s hs hsame
    · obtain rfl := List.mem_singleton.mp hs
      refine .inr ⟨h.orphans run hrun' ?_, .inl hactive⟩
      rintro ⟨q, hq, hqrun⟩
      exact hnew ⟨q, hq, hqrun.trans hsame.symm⟩
  · refine h.orphans run hrun' ?_
    rintro ⟨q, hq, hqrun⟩
    refine horphan ⟨q, ?_, hqrun⟩
    rw [hcores]
    exact List.mem_append_left _ hq
  · rw [hcores] at hs
    rcases List.mem_append.mp hs with hs | hs
    · exact h.runs s hs
    · obtain rfl := List.mem_singleton.mp hs
      exact hrun

end RunsMatch

end Updates

/-! ## Durable steps -/

section Steps
variable {a : Attempt} {w₀ w w' : World}

theorem mem_of_storyRun {run : RunId} {record : StoryRunRecord}
    (h : w.storyRun run = some record) : record ∈ w.storyRuns ∧ record.storyRunId = run := by
  have hfound := List.find?_some h
  exact ⟨List.mem_of_find?_eq_some h, of_decide_eq_true hfound⟩

theorem storyRun_isSome {record : StoryRunRecord} (h : record ∈ w.storyRuns) :
    (w.storyRun record.storyRunId).isSome :=
  List.find?_isSome.mpr ⟨record, h, decide_eq_true rfl⟩

theorem Commit.runsMatch (h : RunsMatch w) (hw : Inv w) (hc : Commit a w₀ w w') :
    RunsMatch w' := by
  cases hc with
  | quiet hq => exact h.congr hq.storyRuns hq.cores
  | draft _ hsaves =>
      obtain ⟨_, _, _, _, _, _, rfl⟩ := hsaves
      exact h.congr rfl rfl
  | claim => exact h.congr rfl rfl
  | release =>
      refine h.congr ?_ (World.sameButClaims_released _ _).cores
      unfold Idempotency.released
      split <;> rfl
  | storyRun record hrequest hrecord hnew =>
      refine h.newRun (.inl hrecord.2) fun ⟨s, hs, hrun⟩ => ?_
      obtain ⟨run, hmem, hid⟩ := h.runs s hs
      have hsome := storyRun_isSome hmem
      rw [hid, hrun, hrecord.1, hnew] at hsome
      cases hsome
  | session storyId at_ hrequest hnew hrun =>
      refine h.newSession rfl (fun ⟨q, hq, hqrun⟩ => (hnew q hq).2 hqrun) ?_
      obtain ⟨record, hrecord⟩ := Option.isSome_iff_exists.mp hrun
      obtain ⟨hmem, hid⟩ := mem_of_storyRun hrecord
      exact ⟨record, hmem, hid⟩
  | turn => exact h.congr rfl rfl
  | mark hs hmarks => exact h.update hw hs hmarks.open_before _
  | finalReview => exact h.congr rfl rfl
  | report => exact h.congr rfl rfl
  | stamp => exact h.congr rfl rfl
  | close hs hcloses =>
      refine (h.update hw hs hcloses.open_before _).congr ?_
        (World.sameButClaims_completed _ _ _).cores
      unfold Idempotency.completed
      split <;> rfl
  | created =>
      refine h.congr ?_ (World.sameButClaims_completed _ _ _).cores
      unfold Idempotency.completed
      split <;> rfl
  | parkFailed hrequest hs hstate =>
      refine (h.update hw hs (.inl hstate) _).congr ?_ (World.sameButClaims_released _ _).cores
      unfold Idempotency.released
      split <;> rfl

theorem Evolves.runsMatch (h : RunsMatch w₀) (hw₀ : Inv w₀) (hw : Evolves a w₀ w₀ w) :
    RunsMatch w := by
  induction hw with
  | refl => exact h
  | tail hdone hc ih => exact hc.runsMatch ih (hw₀.evolves hdone)

theorem ReachableIf.runsMatch {P : World → Attempt → Prop} (h : ReachableIf P w) :
    RunsMatch w := by
  induction h with
  | init => exact runsMatch_init
  | @step w a hw _ ih => exact Evolves.runsMatch ih hw.inv (a.evolves hw.inv)

end Steps
end StoryReview
