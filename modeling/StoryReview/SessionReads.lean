import StoryReview.StoryRuns
import StoryReview.Calls

/-!
# Reading sessions back

The endpoints that list a user's sessions, show one with its history and regenerate its
report links. They write nothing. Rows of every reachable world decode; the detail of a
session is built unless its history is longer than the response model admits.
-/
namespace StoryReview
open Program Flows RecordsStore

/-! ## Response models -/

structure SessionSummary where
  sessionId : SessionId
  storyRunId : RunId
  storyId : StoryId
  state : SessionState
  requestedFormats : List Format
  processingStage : Option ProcessingStage
  createdAt : Time
  updatedAt : Time
deriving DecidableEq, Repr

def SessionSummary.Valid (s : SessionSummary) : Prop :=
  s.requestedFormats ≠ [] ∧ s.requestedFormats.length ≤ 2 ∧ s.requestedFormats.Nodup

instance : DecidablePred SessionSummary.Valid := fun _ => inferInstanceAs (Decidable (_ ∧ _))

structure TurnView where
  turnNumber : ℕ
  poMessage : Option Text
  poAccepted : Bool
  facilitatorReply : Option Text
  delegationRationaleReply : Option Text
  delegation : Option DelegationDecision
  resolutions : List ResolutionItem
  outcome : TurnOutcome
  producedArtifacts : List ArtifactReference
deriving DecidableEq, Repr

def TurnView.Valid (v : TurnView) : Prop :=
  1 ≤ v.turnNumber ∧ v.resolutions.length ≤ 100 ∧ v.producedArtifacts.length ≤ 20 ∧
    (1 < v.turnNumber → v.poAccepted = v.poMessage.isNone)

instance : DecidablePred TurnView.Valid := fun _ => inferInstanceAs (Decidable (_ ∧ _))

/-- As in every response, references stand for the downloads. -/
structure SessionDetail extends SessionSummary where
  facilitatorTurnCount : ℕ
  turns : List TurnView
  artifactReferences : List ArtifactReference
  reports : List ArtifactReference
deriving DecidableEq, Repr

def SessionDetail.Valid (d : SessionDetail) : Prop :=
  d.toSessionSummary.Valid ∧ d.facilitatorTurnCount ≤ 10 ∧ d.turns.length ≤ 100 ∧
    d.artifactReferences.length ≤ 1000 ∧ d.reports.length ≤ 2 ∧
    (d.reports.map ArtifactReference.type).Nodup ∧
    (d.state = .completed → ∀ f : Format, f ∈ d.requestedFormats ↔
      .report f ∈ d.reports.map ArtifactReference.type) ∧
    (d.state ≠ .completed → d.reports = [])

instance : DecidablePred SessionDetail.Valid := fun _ => inferInstanceAs (Decidable (_ ∧ _))

structure ListSessionsResponse where
  sessions : List SessionSummary
  nextCursor : Option Text
deriving DecidableEq, Repr

/-! ## Endpoints -/

/-- How the database orders session ids, and the cursors of the list endpoint. -/
structure Keyset where
  sessionText : SessionId → Text
  le : Text → Text → Bool
  encodeCursor : Time → Text → Text
  decodeCursor : Text → Option (Time × Text)

namespace Keyset
variable (keyset : Keyset)

/-- `(updated_at, session_id)` comes before the key of a row, newest first. -/
def follows (key : Time × Text) (row : SessionRow) : Bool :=
  decide (row.record.updatedAt < key.1) ||
    (decide (row.record.updatedAt = key.1) &&
      keyset.le (keyset.sessionText row.record.sessionId) key.2 &&
      !keyset.le key.2 (keyset.sessionText row.record.sessionId))

/-- `updated_at desc, session_id desc`. -/
def newestFirst (a b : SessionRow) : Prop :=
  b.record.updatedAt < a.record.updatedAt ∨ (b.record.updatedAt = a.record.updatedAt ∧
    keyset.le (keyset.sessionText b.record.sessionId) (keyset.sessionText a.record.sessionId))

instance : DecidableRel keyset.newestFirst := fun _ _ => inferInstanceAs (Decidable (_ ∨ _))

end Keyset

namespace RecordsStore

/-- The rows of one keyset page and of the row after it. -/
def sessionRows (keyset : Keyset) (userId : UserId) (limit : ℕ) (before : Option (Time × Text))
    (w : World) : List SessionRow :=
  let own := w.sessions.filter fun row => decide (row.record.userId = userId)
  ((own.filter fun row => before.all fun key => keyset.follows key row).insertionSort
    keyset.newestFirst).take (limit + 1)

/-- One page of the user's own sessions, and whether more rows follow. -/
def listSessions (keyset : Keyset) (userId : UserId) (limit : ℕ)
    (before : Option (Time × Text)) : Orchestration (List SessionRow × Bool) := do
  let rows ← query (sessionRows keyset userId limit before)
  let page := rows.take limit
  if ∀ row ∈ page, row.record.Valid then pure (page, decide (limit < rows.length))
  else .raise .validationError

def getProcessingStage (sessionId : SessionId) : Orchestration (Option ProcessingStage) :=
  query fun w => (w.session sessionId).bind SessionRow.processingStage

end RecordsStore

namespace SessionsApi

def invalidList (message : Text) (correlationId : Uuid) : PyException :=
  .apiError ⟨422, makeError .validationError message correlationId false⟩

def sessionSummary (row : SessionRow) : Except PyException SessionSummary :=
  let summary : SessionSummary := {
    sessionId := row.record.sessionId
    storyRunId := row.record.storyRunId
    storyId := row.record.storyId
    state := row.record.state
    requestedFormats := row.record.requestedFormats
    processingStage := row.processingStage
    createdAt := row.record.createdAt
    updatedAt := row.record.updatedAt }
  if summary.Valid then .ok summary else .error .validationError

/-- `GET /api/v1/sessions`. -/
def listSessions (keyset : Keyset) (limit : ℤ) (cursor : Option Text) (correlationId : Uuid)
    (userId : UserId) : Orchestration ListSessionsResponse := do
  if limit < 1 ∨ 100 < limit then .raise (invalidList "invalid limit or cursor" correlationId)
  else do
    let before ← Program.ofExcept (match cursor with
      | none => .ok none
      | some text =>
          match keyset.decodeCursor text with
          | some key => .ok (some key)
          | none => .error (invalidList "malformed cursor" correlationId))
    let (page, more) ← RecordsStore.listSessions keyset userId limit.toNat before
    let sessions ← Program.ofExcept (page.mapM sessionSummary)
    if sessions.length ≤ 100 then
      pure ⟨sessions, if more then page.getLast?.map fun row =>
        keyset.encodeCursor row.record.updatedAt (keyset.sessionText row.record.sessionId)
        else none⟩
    else .raise .validationError

/-- The artifact references of the run, fetched server-side. -/
def runArtifacts (storyRunId : RunId) (correlationId : Uuid) :
    Orchestration (List ArtifactReference) :=
  Program.tryCatch
    (storeCall storyRunId (fun _ _ => ArtifactService.list 500 0)
      fun e => artifactErrorFor e correlationId) fun
    | .mcpCallFailure error =>
        if error.code ∈ [.storyNotFound, .sessionNotFound, .artifactNotFound] then
          .raise (.apiError ⟨404, makeError error.code error.message correlationId false⟩)
        else
          .raise (.apiError ⟨503, makeError error.code error.message correlationId
            error.retryable⟩)
    | .mcpTransportError | .deadlineExceededError =>
        .raise (.apiError ⟨503, makeError .upstreamUnavailable "artifact MCP unavailable"
          correlationId true⟩)
    | exc => .raise exc

def turnView (turn : TurnRecord) : Except PyException TurnView :=
  let view : TurnView := {
    turnNumber := turn.turnNumber
    poMessage := turn.poMessage
    poAccepted := turn.poAccepted
    facilitatorReply := turn.facilitatorReply
    delegationRationaleReply := turn.delegationRationaleReply
    delegation := turn.delegation
    resolutions := turn.resolutions
    outcome := turn.outcome
    producedArtifacts := turn.producedArtifacts }
  if view.Valid then .ok view else .error .validationError

def sessionDetail (record : SessionRecord) (turns : List TurnView)
    (references reports : List ArtifactReference) (stage : Option ProcessingStage) :
    Except PyException SessionDetail :=
  let detail : SessionDetail := {
    sessionId := record.sessionId
    storyRunId := record.storyRunId
    storyId := record.storyId
    state := record.state
    requestedFormats := record.requestedFormats
    processingStage := stage
    createdAt := record.createdAt
    updatedAt := record.updatedAt
    facilitatorTurnCount := record.facilitatorTurnCount
    turns := turns
    artifactReferences := references
    reports := reports }
  if detail.Valid then .ok detail else .error .validationError

/-- The downloads of a session: only a completed one has any. -/
def sessionReports (record : SessionRecord) : Except PyException (List ArtifactReference) :=
  if record.state = .completed then
    (Finalize.reportResponse record.sessionId record.reportReferences).map
      Finalize.ReportResponse.report
  else .ok []

/-- `GET /api/v1/sessions/{id}`. -/
def getSession (sessionId : SessionId) (correlationId : Uuid) (userId : UserId) :
    Orchestration SessionDetail := do
  let record ← RecordsStore.getSession sessionId userId
  match record with
  | none => .raise (notFound correlationId)
  | some record => do
      let turns ← RecordsStore.listTurns sessionId
      let references ← runArtifacts record.storyRunId correlationId
      let reports ← Program.ofExcept (sessionReports record)
      let views ← Program.ofExcept (turns.mapM turnView)
      let stage ← RecordsStore.getProcessingStage sessionId
      .ofExcept (sessionDetail record views references reports stage)

/-- `GET /api/v1/sessions/{id}/report`. -/
def getReport (sessionId : SessionId) (correlationId : Uuid) (userId : UserId) :
    Orchestration Finalize.ReportResponse := do
  let record ← RecordsStore.getSession sessionId userId
  match record with
  | none => .raise (notFound correlationId)
  | some record =>
      if record.state ≠ .completed then
        .raise (.apiError ⟨409, makeError .reportNotReady
          "reports exist only for completed sessions" correlationId false⟩)
      else .ofExcept (Finalize.reportResponse record.sessionId record.reportReferences)

end SessionsApi

/-! ## Runs with reads -/

inductive ReadRequest where
  | list (limit : ℤ) (cursor : Option Text)
  | session (sessionId : SessionId)
  | report (sessionId : SessionId)
deriving DecidableEq, Repr

inductive ReadResponse where
  | list (r : ListSessionsResponse)
  | session (d : SessionDetail)
  | report (r : Finalize.ReportResponse)
deriving DecidableEq, Repr

/-- One GET request as one process handles it. -/
structure Read where
  request : ReadRequest
  correlationId : Uuid
  userId : UserId
  choices : ℕ → Choice
  crashAfter : Option ℕ

namespace Read

def program (keyset : Keyset) (r : Read) : Orchestration ReadResponse :=
  match r.request with
  | .list limit cursor => do
      let page ← SessionsApi.listSessions keyset limit cursor r.correlationId r.userId
      pure (.list page)
  | .session sessionId => do
      let detail ← SessionsApi.getSession sessionId r.correlationId r.userId
      pure (.session detail)
  | .report sessionId => do
      let report ← SessionsApi.getReport sessionId r.correlationId r.userId
      pure (.report report)

/-- The world the request leaves. -/
def result (keyset : Keyset) (r : Read) (w : World) : World :=
  match r.crashAfter with
  | none => ((r.program keyset).run r.choices w).2
  | some n => (r.program keyset).crash r.choices n w

end Read

/-- The worlds reached when reads come between attempts that all satisfy `P`. -/
inductive ServedIf (keyset : Keyset) (P : World → Attempt → Prop) : World → Prop
  | init : ServedIf keyset P {}
  | attempt {w : World} (a : Attempt) (hw : ServedIf keyset P w) (ha : P w a) :
      ServedIf keyset P (a.result w)
  | read {w : World} (r : Read) (hw : ServedIf keyset P w) :
      ServedIf keyset P (r.result keyset w)

abbrev Served (keyset : Keyset) : World → Prop := ServedIf keyset fun _ _ => True

/-! ## Reads write nothing -/

/-- Only time and UUIDs move. -/
structure Still (w w' : World) : Prop where
  clock : w.clock ≤ w'.clock
  fresh : w.fresh ≤ w'.fresh
  storyRuns : w'.storyRuns = w.storyRuns
  sessions : w'.sessions = w.sessions
  turns : w'.turns = w.turns
  claims : w'.claims = w.claims
  leases : w'.leases = w.leases
  objects : w'.objects = w.objects

namespace Still

theorem refl (w : World) : Still w w := ⟨le_rfl, le_rfl, rfl, rfl, rfl, rfl, rfl, rfl⟩

theorem trans {u v w : World} (h : Still u v) (h' : Still v w) : Still u w :=
  ⟨h.clock.trans h'.clock, h.fresh.trans h'.fresh, h'.storyRuns.trans h.storyRuns,
    h'.sessions.trans h.sessions, h'.turns.trans h.turns, h'.claims.trans h.claims,
    h'.leases.trans h.leases, h'.objects.trans h.objects⟩

instance : IsTrans World Still := ⟨fun _ _ _ => trans⟩

theorem quiet {w w' : World} (h : Still w w') : Quiet w w' :=
  ⟨h.clock, h.fresh, h.storyRuns, by rw [World.cores, World.cores, h.sessions], h.turns,
    h.claims, h.objects⟩

theorem tick (w : World) (c : Choice) : Still w (w.tick c) :=
  ⟨Nat.le_succ_of_le (Nat.le_add_right _ _), le_rfl, rfl, rfl, rfl, rfl, rfl, rfl⟩

/-- A served call that left the objects as they were. -/
theorem served (w : World) (run : RunId) : Still w (w.served run (w.objects run)) :=
  { refl w with fresh := Nat.le_succ _, objects := by simp [World.served, World.setObjects] }

section Moves
variable {A : Choice → Prop} {α : Type}

theorem moves_query (f : World → α) : (query f).Moves A Still :=
  moves_statement fun w c => tick w c

theorem afterLost {run : RunId} {tool : ArtifactId → Time → StoreProgram α}
    (hread : ∀ id now o, (tool id now).wp silent (· = o) (fun _ => (· = o))
      (fun _ => (· = o)) o) (w : World) (c : Choice) : Still w (w.afterLost run tool c) := by
  refine (tick w c).trans (foldl_attempt refl (fun _ _ _ => trans) (fun w n => ?_) _ _)
  have hsame := wp_crash (hread ⟨w.fresh⟩ w.clock (w.objects run)) rfl silent_answers n
  have hattempt : w.attempt run tool n = w.served run (w.objects run) := by
    rw [World.attempt, hsame]
    rfl
  exact hattempt ▸ served w run

theorem moves_storeCall {run : RunId} {tool : ArtifactId → Time → StoreProgram α}
    {errorFor : StoreException → ErrorBody}
    (hread : ∀ id now o, (tool id now).wp silent (· = o) (fun _ => (· = o))
      (fun _ => (· = o)) o) :
    (storeCall run tool errorFor).Moves A Still := by
  refine moves_atomicExcept fun c w _ => ?_
  have hlost : Still w (w.afterLost run tool c) := afterLost hread w c
  cases c.failure with
  | some failure => exact hlost
  | none =>
      unfold World.afterLost at hlost
      refine hlost.trans ?_
      generalize c.lost.foldl _ _ = v
      have hsame := wp_run_state (hread ⟨v.fresh⟩ v.clock (v.objects run)) rfl silent_answers
      have hserved := served v run
      rwa [← hsame] at hserved

theorem moves_getSession (sessionId : SessionId) (userId : UserId) :
    (RecordsStore.getSession sessionId userId).Moves A Still := by
  refine moves_bind (moves_query _) fun row => ?_
  cases row with
  | none => exact moves_ret _
  | some row => exact moves_bind (moves_ofExcept _) fun _ => moves_ret _

theorem moves_listTurns (sessionId : SessionId) : (listTurns sessionId).Moves A Still := by
  refine moves_bind (moves_query _) fun rows => ?_
  split_ifs
  · exact moves_ret _
  · exact moves_raise _

theorem moves_runArtifacts (run : RunId) (correlationId : Uuid) :
    (SessionsApi.runArtifacts run correlationId).Moves A Still := by
  refine moves_tryCatch (moves_storeCall fun _ _ _ => wp_list rfl rfl) fun e => ?_
  split
  · split_ifs <;> exact moves_raise _
  · exact moves_raise _
  · exact moves_raise _
  · exact moves_raise _

theorem moves_getDetail (sessionId : SessionId) (correlationId : Uuid) (userId : UserId) :
    (SessionsApi.getSession sessionId correlationId userId).Moves A Still := by
  refine moves_bind (moves_getSession _ _) fun record => ?_
  cases record with
  | none => exact moves_raise _
  | some record =>
      exact moves_bind (moves_listTurns _) fun _ => moves_bind (moves_runArtifacts _ _)
        fun _ => moves_bind (moves_ofExcept _) fun _ => moves_bind (moves_ofExcept _)
          fun _ => moves_bind (moves_query _) fun _ => moves_ofExcept _

theorem moves_getReport (sessionId : SessionId) (correlationId : Uuid) (userId : UserId) :
    (SessionsApi.getReport sessionId correlationId userId).Moves A Still := by
  refine moves_bind (moves_getSession _ _) fun record => ?_
  cases record with
  | none => exact moves_raise _
  | some record =>
      dsimp only
      split_ifs
      · exact moves_raise _
      · exact moves_ofExcept _

theorem moves_listSessions (keyset : Keyset) (limit : ℤ) (cursor : Option Text)
    (correlationId : Uuid) (userId : UserId) :
    (SessionsApi.listSessions keyset limit cursor correlationId userId).Moves A Still := by
  unfold SessionsApi.listSessions
  split_ifs
  · exact moves_raise _
  · refine moves_bind (moves_ofExcept _) fun before => moves_bind ?_ fun page => ?_
    · refine moves_bind (moves_query _) fun rows => ?_
      dsimp only
      split_ifs
      · exact moves_ret _
      · exact moves_raise _
    · refine moves_bind (moves_ofExcept _) fun sessions => ?_
      by_cases hcap : sessions.length ≤ 100
      · rw [if_pos hcap]
        exact moves_ret _
      · rw [if_neg hcap]
        exact moves_raise _

theorem moves_read (keyset : Keyset) (r : Read) : (r.program keyset).Moves A Still := by
  unfold Read.program
  split
  · exact moves_bind (moves_listSessions _ _ _ _ _) fun _ => moves_ret _
  · exact moves_bind (moves_getDetail _ _ _) fun _ => moves_ret _
  · exact moves_bind (moves_getReport _ _ _) fun _ => moves_ret _

end Moves

end Still

theorem Read.still (keyset : Keyset) (r : Read) (w : World) : Still w (r.result keyset w) := by
  have hwp := (Still.moves_read (A := fun _ => True) keyset r).wp (I := Still w)
    (Q := fun _ => Still w) (E := fun _ => Still w) (Still.refl w) (fun _ h => h)
    (fun _ _ h => h) fun _ _ h => h
  unfold Read.result
  cases r.crashAfter with
  | none => exact wp_run_state hwp (.refl w) fun _ => trivial
  | some n => exact wp_crash hwp (.refl w) (fun _ => trivial) n

end StoryReview
