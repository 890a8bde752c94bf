import StoryReview.Schemas
import Mathlib.Data.List.Infix

/-!
# Context compaction

Before each model call the facilitator may replace the older contents of the request by a
typed summary. A summary is stored as a checkpoint and applied again while it covers the
history. The shape of a content, a mapping or an object, plays no role; `none` stands for an
absent value, one of another type, or an exception.
-/
namespace StoryReview.Compaction

/-! ## Contents and summaries -/

/-- `data` is what a part carries beside text: a tool call or its response. -/
structure Part where
  text : Option Text
  data : Text := ""
deriving DecidableEq, Repr

structure Content where
  role : Text
  parts : Option (List Part)
deriving DecidableEq, Repr

def Content.textParts (content : Content) : List Text :=
  (content.parts.getD []).filterMap fun part => part.text.filter (· ≠ "")

/-- What the summarizer is given. -/
def texts (contents : List Content) : Text := "\n".intercalate (contents.flatMap Content.textParts)

structure ConversationSummary where
  unresolvedIssues : List Text
  decisions : List Text
  storyId : Text
  runId : Text
  artifactReferences : List Text
  openPoints : List Text
  complete : unresolvedIssues ≠ [] ∧ decisions ≠ [] ∧ storyId ≠ "" ∧ runId ≠ "" ∧
    artifactReferences ≠ [] ∧ openPoints ≠ []
deriving DecidableEq, Repr

/-- The fields of a mapping that validation reads. -/
structure SummaryFields where
  unresolvedIssues : Option (List Text) := none
  decisions : Option (List Text) := none
  storyId : Option Text := none
  runId : Option Text := none
  artifactReferences : Option (List Text) := none
  openPoints : Option (List Text) := none
deriving DecidableEq, Repr

inductive SummaryValue where
  | model (summary : ConversationSummary)
  | mapping (fields : SummaryFields)
  | other
deriving DecidableEq, Repr

namespace ConversationSummary

def modelValidate : SummaryValue → Option ConversationSummary
  | .model summary => some summary
  | .mapping fields => do
      let unresolvedIssues ← fields.unresolvedIssues
      let decisions ← fields.decisions
      let storyId ← fields.storyId
      let runId ← fields.runId
      let artifactReferences ← fields.artifactReferences
      let openPoints ← fields.openPoints
      if h : unresolvedIssues ≠ [] ∧ decisions ≠ [] ∧ storyId ≠ "" ∧ runId ≠ "" ∧
          artifactReferences ≠ [] ∧ openPoints ≠ [] then
        some ⟨unresolvedIssues, decisions, storyId, runId, artifactReferences, openPoints, h⟩
      else none
  | .other => none

def modelDump (summary : ConversationSummary) : SummaryFields :=
  ⟨summary.unresolvedIssues, summary.decisions, summary.storyId, summary.runId,
    summary.artifactReferences, summary.openPoints⟩

@[simp] theorem modelValidate_modelDump (summary : ConversationSummary) :
    modelValidate (.mapping summary.modelDump) = some summary := by
  simp only [modelValidate, modelDump, Option.bind_eq_bind, Option.bind_some,
    dif_pos summary.complete]

def summaryLines (summary : ConversationSummary) : List Text :=
  ["[conversation summary — replaces all earlier turns]",
    "story: " ++ summary.storyId ++ " (run " ++ summary.runId ++ ")",
    "unresolved issues: " ++ ", ".intercalate summary.unresolvedIssues,
    "decisions: " ++ "; ".intercalate summary.decisions,
    "artifacts: " ++ ", ".intercalate summary.artifactReferences,
    "open points: " ++ "; ".intercalate summary.openPoints]

def summaryContent (summary : ConversationSummary) : Content :=
  ⟨"user", some [{ text := some ("\n".intercalate summary.summaryLines) }]⟩

end ConversationSummary

open ConversationSummary

/-! ## The callback -/

inductive ContextLevel where
  | ok | warn | summarize
deriving DecidableEq, Repr

structure StoredCheckpoint where
  summary : SummaryValue
  sourceContentCount : Option ℤ
deriving DecidableEq, Repr

/-- The keys of the session state that telemetry and compaction share. -/
structure SessionState where
  contextLevel : Option ContextLevel := none
  compaction : Option StoredCheckpoint := none
deriving DecidableEq, Repr

structure Checkpoint where
  summary : ConversationSummary
  sourceContentCount : ℤ
deriving DecidableEq, Repr

def loadCheckpoint (state : SessionState) : Option Checkpoint := do
  let raw ← state.compaction
  let summary ← modelValidate raw.summary
  let count ← raw.sourceContentCount
  if count < 0 then none else some ⟨summary, count⟩

def keepRecentTurns : ℤ := 4

/-- `xs[start:]`, counted from the end when `start` is negative. -/
def sliceFrom {α : Type} (xs : List α) (start : ℤ) : List α :=
  xs.drop (if start < 0 then xs.length + start else start).toNat

def compacted (keep : ℤ) (summary : ConversationSummary) (contents : List Content) :
    List Content :=
  summaryContent summary :: sliceFrom contents (-keep)

/-- The summary of the stored checkpoint, while it covers the contents. -/
def covering (keep : ℤ) (state : SessionState) (contents : List Content) :
    Option ConversationSummary := do
  let checkpoint ← loadCheckpoint state
  if contents.length ≤ checkpoint.sourceContentCount + keep then some checkpoint.summary
  else none

structure Outcome where
  state : Option SessionState
  /-- What the contents of the request are replaced by, if they are. -/
  replaced : Option (List Content) := none
  /-- What the summarizer was given, and its answer. -/
  asked : Option (Text × Option SummaryValue) := none

def beforeModel (keep : ℤ) (summarizer : Text → Option SummaryValue)
    (state : Option SessionState) (contents : List Content) : Outcome :=
  match state with
  | none => { state := none }
  | some state =>
      if state.contextLevel ≠ some .summarize then { state := some state }
      else
        match covering keep state contents with
        | some summary =>
            { state := some state, replaced := some (compacted keep summary contents) }
        | none =>
            let text := texts contents
            let answer := summarizer text
            match answer.bind modelValidate with
            | none => { state := some state, asked := some (text, answer) }
            | some summary =>
                { state := some { state with
                    compaction := some ⟨.mapping summary.modelDump, some contents.length⟩ }
                  replaced := some (compacted keep summary contents)
                  asked := some (text, answer) }

/-! ## Slices, texts and checkpoints -/

/-- What a slice from the end leaves out lies before any checkpoint that covers the list. -/
theorem exists_older {α : Type} (xs : List α) (keep : ℤ) :
    ∃ older, xs = older ++ sliceFrom xs (-keep) ∧
      ∀ n : ℕ, (xs.length : ℤ) ≤ n + keep → older <+: xs.take n := by
  refine ⟨xs.take _, (List.take_append_drop _ xs).symm, fun n hn => ?_⟩
  split_ifs with hkeep
  · exact List.take_prefix_take_left (by omega)
  · rw [List.take_of_length_le (by omega : xs.length ≤ n)]
    exact List.take_prefix _ _

theorem exists_part {content : Content} {contents : List Content} {part : Text}
    (hcontent : content ∈ contents) (hpart : part ∈ content.textParts) :
    ∃ before after, texts contents = before ++ part ++ after := by
  have hmem : part ∈ contents.flatMap Content.textParts :=
    List.mem_flatMap.mpr ⟨content, hcontent, hpart⟩
  unfold texts
  generalize contents.flatMap Content.textParts = parts at hmem
  induction parts with
  | nil => cases hmem
  | cons first rest ih =>
      by_cases hrest : rest = []
      · subst hrest
        obtain rfl := List.mem_singleton.mp hmem
        exact ⟨"", "", by simp⟩
      · rw [String.intercalate_cons_of_ne_nil hrest]
        rcases List.mem_cons.mp hmem with rfl | hmem
        · exact ⟨"", "\n" ++ "\n".intercalate rest, by simp [String.append_assoc]⟩
        · obtain ⟨before, after, h⟩ := ih hmem
          exact ⟨first ++ "\n" ++ before, after, by rw [h]; simp only [String.append_assoc]⟩

theorem loadCheckpoint_stored (level : Option ContextLevel) (summary : ConversationSummary)
    (n : ℕ) :
    loadCheckpoint ⟨level, some ⟨.mapping summary.modelDump, some n⟩⟩ = some ⟨summary, n⟩ := by
  simp only [loadCheckpoint, Option.bind_eq_bind, Option.bind_some, modelValidate_modelDump,
    if_neg (Int.not_lt.mpr (Int.natCast_nonneg n))]

theorem covering_eq_some {keep : ℤ} {state : SessionState} {contents : List Content}
    {summary : ConversationSummary} (h : covering keep state contents = some summary) :
    ∃ count : ℤ, loadCheckpoint state = some ⟨summary, count⟩ ∧
      contents.length ≤ count + keep := by
  obtain ⟨checkpoint, hload, h⟩ := Option.bind_eq_some_iff.mp h
  split_ifs at h with hlength
  obtain rfl := Option.some.inj h
  exact ⟨checkpoint.sourceContentCount, hload, hlength⟩

/-- What a call can do, once for all that follows. -/
theorem beforeModel_cases (keep : ℤ) (summarizer : Text → Option SummaryValue)
    (state : SessionState) (contents : List Content) :
    (state.contextLevel ≠ some .summarize ∧
      beforeModel keep summarizer (some state) contents = { state := some state }) ∨
    (state.contextLevel = some .summarize ∧ ∃ summary,
      covering keep state contents = some summary ∧
      beforeModel keep summarizer (some state) contents =
        { state := some state, replaced := some (compacted keep summary contents) }) ∨
    (state.contextLevel = some .summarize ∧ covering keep state contents = none ∧
      (summarizer (texts contents)).bind modelValidate = none ∧
      beforeModel keep summarizer (some state) contents =
        { state := some state, asked := some (texts contents, summarizer (texts contents)) }) ∨
    (state.contextLevel = some .summarize ∧ covering keep state contents = none ∧
      ∃ value summary, summarizer (texts contents) = some value ∧
        modelValidate value = some summary ∧
        beforeModel keep summarizer (some state) contents =
          { state := some { state with
              compaction := some ⟨.mapping summary.modelDump, some contents.length⟩ }
            replaced := some (compacted keep summary contents)
            asked := some (texts contents, some value) }) := by
  by_cases hlevel : state.contextLevel = some .summarize
  · simp only [beforeModel, hlevel, ne_eq, not_true_eq_false, if_false, false_and, true_and,
      false_or]
    cases hcovering : covering keep state contents with
    | some summary => exact .inl ⟨summary, rfl, rfl⟩
    | none =>
        refine .inr ?_
        cases hsummary : (summarizer (texts contents)).bind modelValidate with
        | none => exact .inl ⟨rfl, rfl, by simp only⟩
        | some summary =>
            obtain ⟨value, hvalue, hvalid⟩ := Option.bind_eq_some_iff.mp hsummary
            exact .inr ⟨rfl, value, summary, hvalue, hvalid, by
              simp only [hvalue]⟩
  · exact .inl ⟨hlevel, by simp only [beforeModel, ne_eq, hlevel, not_false_eq_true, if_true]⟩

/-! ## A session -/

/-- One session: its history, the state that the callbacks share, and what the summarizer
was given so far, with its answers. -/
structure Session where
  history : List Content := []
  state : SessionState := {}
  asked : List (Text × Option SummaryValue) := []

/-- A call of the model: what the history has grown by, the level on record, and the
summarizer at that moment. -/
structure Call where
  appended : List Content
  level : Option ContextLevel
  summarizer : Text → Option SummaryValue

/-- The session when the model is about to be called. -/
def Session.grown (call : Call) (session : Session) : Session :=
  { session with
    history := session.history ++ call.appended
    state := { session.state with contextLevel := call.level } }

def Session.outcome (keep : ℤ) (call : Call) (session : Session) : Outcome :=
  beforeModel keep call.summarizer (some session.state) session.history

def Session.left (outcome : Outcome) (session : Session) : Session :=
  { session with
    state := outcome.state.getD session.state
    asked := session.asked ++ outcome.asked.toList }

def Session.called (keep : ℤ) (session : Session) (call : Call) : Session :=
  (session.grown call).left ((session.grown call).outcome keep call)

def Session.after (keep : ℤ) (calls : List Call) : Session :=
  calls.foldl (Session.called keep) {}

/-- The summary is what the summarizer made of the text. -/
def Summarizes (asked : List (Text × Option SummaryValue)) (text : Text)
    (summary : ConversationSummary) : Prop :=
  ∃ value, (text, some value) ∈ asked ∧ modelValidate value = some summary

/-- A checkpoint stands for the beginning of the history that it counts. -/
def Session.Covered (session : Session) : Prop :=
  ∀ checkpoint, loadCheckpoint session.state = some checkpoint →
    ∃ n : ℕ, checkpoint.sourceContentCount = n ∧ n ≤ session.history.length ∧
      Summarizes session.asked (texts (session.history.take n)) checkpoint.summary

theorem Session.Covered.grown {session : Session} (h : session.Covered) (call : Call) :
    (session.grown call).Covered := by
  intro checkpoint hload
  obtain ⟨n, hcount, hlength, hsummary⟩ := h checkpoint hload
  refine ⟨n, hcount, ?_, ?_⟩
  · exact hlength.trans (by simp [Session.grown])
  · simpa only [Session.grown, List.take_append_of_le_length hlength] using hsummary

theorem Session.Covered.askedMore {session : Session} (h : session.Covered)
    (more : List (Text × Option SummaryValue)) :
    Session.Covered { session with asked := session.asked ++ more } := by
  intro checkpoint hload
  obtain ⟨n, hcount, hlength, value, hvalue, hsummary⟩ := h checkpoint hload
  exact ⟨n, hcount, hlength, value, List.mem_append_left _ hvalue, hsummary⟩

theorem Session.Covered.left {keep : ℤ} {session : Session} (h : session.Covered)
    (call : Call) : (session.left (session.outcome keep call)).Covered := by
  unfold Session.outcome
  rcases beforeModel_cases keep call.summarizer session.state session.history with
    ⟨-, hout⟩ | ⟨-, summary, -, hout⟩ | ⟨-, -, -, hout⟩ | ⟨-, -, value, summary, -, hvalid, hout⟩
  all_goals rw [hout]
  · exact h.askedMore _
  · exact h.askedMore _
  · exact h.askedMore _
  · intro checkpoint hload
    obtain rfl := Option.some.inj ((loadCheckpoint_stored _ _ _).symm.trans hload)
    refine ⟨session.history.length, rfl, le_rfl, value, ?_, hvalid⟩
    exact List.mem_append_right _ (by simp [Session.left])

theorem covered_after (keep : ℤ) (calls : List Call) : (Session.after keep calls).Covered := by
  have hrun : ∀ session : Session, session.Covered →
      (calls.foldl (Session.called keep) session).Covered := by
    induction calls with
    | nil => exact fun _ h => h
    | cons call calls ih => exact fun session h => ih _ ((h.grown call).left call)
  exact hrun {} nofun

/-- The contents that a request is left with: a summary that the summarizer made of a text,
and the kept window; what lies before it is in that text, part by part. -/
def Session.LosesNothing (keep : ℤ) (session : Session) (outcome : Outcome) : Prop :=
  ∀ contents, outcome.replaced = some contents → ∃ summary text older,
    contents = summaryContent summary :: sliceFrom session.history (-keep) ∧
    session.history = older ++ sliceFrom session.history (-keep) ∧
    Summarizes (session.asked ++ outcome.asked.toList) text summary ∧
    ∀ content ∈ older, ∀ part ∈ content.textParts, ∃ before after, text = before ++ part ++ after

theorem Session.Covered.losesNothing {keep : ℤ} {session : Session} (h : session.Covered)
    (call : Call) : session.LosesNothing keep (session.outcome keep call) := by
  obtain ⟨older, hhistory, holder⟩ := exists_older session.history keep
  have htexts : ∀ n : ℕ, (session.history.length : ℤ) ≤ n + keep → ∀ content ∈ older,
      ∀ part ∈ content.textParts,
        ∃ before after, texts (session.history.take n) = before ++ part ++ after :=
    fun n hn content hcontent part hpart =>
      exists_part ((holder n hn).subset hcontent) hpart
  intro contents hcontents
  unfold Session.outcome at hcontents ⊢
  rcases beforeModel_cases keep call.summarizer session.state session.history with
    ⟨-, hout⟩ | ⟨-, summary, hcovering, hout⟩ | ⟨-, -, -, hout⟩ |
      ⟨-, -, value, summary, -, hvalid, hout⟩
  all_goals rw [hout] at hcontents ⊢
  · cases hcontents
  · obtain rfl := Option.some.inj hcontents
    obtain ⟨count, hload, hlength⟩ := covering_eq_some hcovering
    obtain ⟨n, rfl, -, value, hvalue, hvalid⟩ := h _ hload
    exact ⟨summary, _, older, rfl, hhistory, ⟨value, List.mem_append_left _ hvalue, hvalid⟩,
      htexts n hlength⟩
  · cases hcontents
  · obtain rfl := Option.some.inj hcontents
    refine ⟨summary, texts session.history, older, rfl, hhistory,
      ⟨value, List.mem_append_right _ (by simp), hvalid⟩,
      fun content hcontent part hpart => exists_part ?_ hpart⟩
    rw [hhistory]
    exact List.mem_append_left _ hcontent

/-- Whatever the levels, the growth and the summarizer's answers: a request that is compacted
has every content in its window or in the summarized text, and a failed summary changes
nothing. -/
theorem compaction_losesNothing (keep : ℤ) (calls : List Call) (call : Call) :
    let session := (Session.after keep calls).grown call
    let outcome := session.outcome keep call
    session.LosesNothing keep outcome ∧
    ∀ text answer, outcome.asked = some (text, answer) → answer.bind modelValidate = none →
      outcome.replaced = none ∧ outcome.state = some session.state := by
  refine ⟨((covered_after keep calls).grown call).losesNothing call, ?_⟩
  generalize (Session.after keep calls).grown call = session
  intro text answer hasked hfailed
  unfold Session.outcome at hasked ⊢
  rcases beforeModel_cases keep call.summarizer session.state session.history with
    ⟨-, hout⟩ | ⟨-, summary, -, hout⟩ | ⟨-, -, -, hout⟩ |
      ⟨-, -, value, summary, -, hvalid, hout⟩
  all_goals rw [hout] at hasked ⊢
  · cases hasked
  · cases hasked
  · exact ⟨rfl, rfl⟩
  · obtain ⟨-, rfl⟩ := Prod.mk.inj (Option.some.inj hasked)
    rw [Option.bind_some, hvalid] at hfailed
    cases hfailed

end StoryReview.Compaction
