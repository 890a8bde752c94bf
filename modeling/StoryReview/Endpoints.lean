import StoryReview.Flows

/-!
# Endpoints and runs of the service

The mutating endpoints with their error mapping, and the reachable worlds: from
the empty one, attempts run one after another, each to its end or until its
process dies after any number of steps. Idempotency keys are UUID v4 by type.
-/
namespace StoryReview
open Flows

/-! ## Endpoints -/

def mapIdempotencyReused (message : Text) (correlationId : Uuid) : PyException :=
  .apiError ⟨409, makeError .idempotencyKeyReused message correlationId false⟩

def mapSessionLocked (hint : ℕ) (correlationId : Uuid) : PyException :=
  .apiError ⟨409, makeError .sessionLocked
    "another request holds the session turn lease; wait for the hint and submit a new request"
    correlationId true none (some hint)⟩

def mapConstraintViolation (c : Constraint) (correlationId : Uuid) : PyException :=
  match c with
  | .oneActiveRunPerStory => .apiError ⟨409, makeError .storySessionActive
      "the story already has an active session; restore it instead" correlationId false⟩
  | .uniqueRow => .apiError ⟨409, makeError .idempotencyKeyReused
      "conflicting durable state for this request" correlationId false⟩

/-- `POST /api/v1/sessions`. -/
def postSession (payload : CreateSessionRequest) (key : IdempotencyKey)
    (correlationId : Uuid) (userId : UserId) : Orchestration CreateSessionResponse :=
  Program.tryCatch (runCreateSession payload key correlationId userId) fun
    | .idempotencyKeyReused message => .raise (mapIdempotencyReused message correlationId)
    | .constraintViolation c => .raise (mapConstraintViolation c correlationId)
    | exc => .raise exc

/-- `POST /api/v1/sessions/{id}/turns`. -/
def postTurn (sessionId : SessionId) (payload : TurnRequest) (key : IdempotencyKey)
    (correlationId : Uuid) (userId : UserId) : Orchestration TurnResponse :=
  Program.tryCatch (TurnsFlow.runTurn sessionId payload key correlationId userId) fun
    | .finalizationFailed error _ => .raise (.apiError error)
    | .sessionLocked hint => .raise (mapSessionLocked hint correlationId)
    | .idempotencyKeyReused message => .raise (mapIdempotencyReused message correlationId)
    | exc => .raise exc

namespace Finalize

def slot (sessionId : SessionId) (key : IdempotencyKey) : ClaimSlot :=
  ⟨.finalize, some sessionId, key⟩

def notFinalizing (correlationId : Uuid) : PyException :=
  .apiError ⟨409, makeError .notFinalizing "the session is active; submit a turn instead"
    correlationId false⟩

def readOnly (correlationId : Uuid) : PyException :=
  .apiError ⟨409, makeError .sessionReadOnly
    "the session is parked; start a new session on the same story instead"
    correlationId false⟩

structure ReportResponse where
  sessionId : SessionId
  report : List ArtifactReference
deriving DecidableEq, Repr

/-- Fresh signed URLs for the references. -/
def reportResponse (sessionId : SessionId) (references : List ArtifactReference) :
    Except PyException ReportResponse :=
  if references ≠ [] ∧ ReportReferences references then .ok ⟨sessionId, references⟩
  else .error .validationError

def canonicalReport (sessionId : SessionId) (references : List ArtifactReference) :
    Except PyException CanonicalReportResult :=
  let result : CanonicalReportResult := ⟨sessionId, references⟩
  if result.Valid then .ok result else .error .validationError

def replayReportResponse (response : Option CanonicalResponse) :
    Except PyException ReportResponse :=
  match response with
  | none => .error (.assertionError "canonical_response is not None")
  | some (.report result) => reportResponse result.sessionId result.reportReferences
  | some _ => .error .validationError

/-- Flow 3 from the stored turns, and the completing transaction. -/
def resumeFlow3 (session : SessionRecord) (key : IdempotencyKey) (correlationId : Uuid) :
    Orchestration ReportResponse := do
  let turns ← RecordsStore.listTurns session.sessionId
  if turns = [] then
    .raise (.assertionError "finalizing session without a durable turn record")
  else do
    let synthesisReference ← TurnsFlow.latestSynthesis session correlationId
    RecordsStore.setProcessingStage session.sessionId (some .finalizing)
    let result ← Finalization.runFlow3 session turns key correlationId synthesisReference
    let canonical ← Program.ofExcept
      (canonicalReport session.sessionId result.reportReferences)
    Finalization.completeTransaction (slot session.sessionId key) session.sessionId none
      (.report canonical) result
    .ofExcept (reportResponse session.sessionId result.reportReferences)

/-- Under the lease: re-read the state, claim, resume. -/
def resumeUnderLease (sessionId : SessionId) (key : IdempotencyKey) (correlationId : Uuid)
    (userId : UserId) : Orchestration ReportResponse := do
  let fresh ← RecordsStore.getSession sessionId userId
  match fresh with
  | none => .raise (.assertionError "fresh is not None")
  | some fresh =>
      match fresh.state with
      | .completed => .ofExcept (reportResponse fresh.sessionId fresh.reportReferences)
      | .active => .raise (notFinalizing correlationId)
      | .parked => .raise (readOnly correlationId)
      | .finalizing => do
          let claim ← Idempotency.claim (slot sessionId key) .empty
          match claim with
          | .replay response => .ofExcept (replayReportResponse response)
          | _ => resumeFlow3 fresh key correlationId

/-- The four-state dispatch. -/
def finalize (sessionId : SessionId) (key : IdempotencyKey) (correlationId : Uuid)
    (userId : UserId) : Orchestration ReportResponse := do
  let session ← RecordsStore.getSession sessionId userId
  match session with
  | none => .raise (notFound correlationId)
  | some session =>
      match session.state with
      | .completed => .ofExcept (reportResponse session.sessionId session.reportReferences)
      | .active => .raise (notFinalizing correlationId)
      | .parked => .raise (readOnly correlationId)
      | .finalizing => do
          let token ← TurnLease.acquire sessionId
          Program.ensure (resumeUnderLease sessionId key correlationId userId)
            (TurnsFlow.releaseLease sessionId token)

end Finalize

/-- `POST /api/v1/sessions/{id}/finalize`. A failed finalization is not mapped. -/
def postFinalize (sessionId : SessionId) (key : IdempotencyKey) (correlationId : Uuid)
    (userId : UserId) : Orchestration Finalize.ReportResponse :=
  Program.tryCatch (Finalize.finalize sessionId key correlationId userId) fun
    | .sessionLocked hint => .raise (mapSessionLocked hint correlationId)
    | .idempotencyKeyReused message => .raise (mapIdempotencyReused message correlationId)
    | exc => .raise exc

namespace Abandon

def slot (sessionId : SessionId) (key : IdempotencyKey) : ClaimSlot :=
  ⟨.abandon, some sessionId, key⟩

def readOnly (correlationId : Uuid) : PyException :=
  .apiError ⟨409, makeError .sessionReadOnly
    "the session is already parked or completed; it is read-only" correlationId false⟩

/-- Under the lease: claim, re-read the state, park atomically. -/
def parkNow (sessionId : SessionId) (key : IdempotencyKey) (correlationId : Uuid)
    (userId : UserId) : Orchestration SessionId := do
  let claim ← Idempotency.claim (slot sessionId key) .empty
  match claim with
  | .replay (some (.abandoned sessionId)) => pure sessionId
  | .replay (some _) => .raise .validationError
  | .replay none => .raise (.assertionError "canonical_response is not None")
  | _ => do
      let session ← RecordsStore.getSession sessionId userId
      match session with
      | none => .raise (.assertionError "session is not None")
      | some session =>
          if session.state ≠ .active ∧ session.state ≠ .finalizing then do
            Idempotency.release (slot sessionId key)
            .raise (readOnly correlationId)
          else do
            execute fun w => Idempotency.completed (slot sessionId key)
              (.abandoned session.sessionId)
              (RecordsStore.sessionUpdated sessionId { state := some .parked } w)
            pure session.sessionId

end Abandon

/-- `POST /api/v1/sessions/{id}/abandon`. -/
def postAbandon (sessionId : SessionId) (key : IdempotencyKey) (correlationId : Uuid)
    (userId : UserId) : Orchestration SessionId :=
  Program.tryCatch (do
    let session ← RecordsStore.getSession sessionId userId
    match session with
    | none => .raise (notFound correlationId)
    | some _ => do
        let token ← TurnLease.acquire sessionId
        Program.ensure (Abandon.parkNow sessionId key correlationId userId)
          (TurnsFlow.releaseLease sessionId token)) fun
    | .sessionLocked hint => .raise (mapSessionLocked hint correlationId)
    | .idempotencyKeyReused message => .raise (mapIdempotencyReused message correlationId)
    | exc => .raise exc

/-! ## Runs -/

inductive Request where
  | createSession (payload : CreateSessionRequest)
  | turn (sessionId : SessionId) (payload : TurnRequest)
  | finalize (sessionId : SessionId)
  | abandon (sessionId : SessionId)
deriving DecidableEq, Repr

inductive Response where
  | createSession (r : CreateSessionResponse)
  | turn (r : TurnResponse)
  | finalize (r : Finalize.ReportResponse)
  | abandon (sessionId : SessionId)
deriving DecidableEq, Repr

/-- One HTTP request as one process handles it: `crashAfter` is the number of
steps after which the process dies, if it does. -/
structure Attempt where
  request : Request
  key : IdempotencyKey
  correlationId : Uuid
  userId : UserId
  choices : ℕ → Choice
  crashAfter : Option ℕ

namespace Attempt

def program (a : Attempt) : Orchestration Response :=
  match a.request with
  | .createSession payload => do
      let r ← postSession payload a.key a.correlationId a.userId
      pure (.createSession r)
  | .turn sessionId payload => do
      let r ← postTurn sessionId payload a.key a.correlationId a.userId
      pure (.turn r)
  | .finalize sessionId => do
      let r ← postFinalize sessionId a.key a.correlationId a.userId
      pure (.finalize r)
  | .abandon sessionId => do
      let r ← postAbandon sessionId a.key a.correlationId a.userId
      pure (.abandon r)

/-- The world the attempt leaves. -/
def result (a : Attempt) (w : World) : World :=
  match a.crashAfter with
  | none => (a.program.run a.choices w).2
  | some n => a.program.crash a.choices n w

/-- The attempt's answer, when its process survives and no exception is raised. -/
def response (a : Attempt) (w : World) : Option Response :=
  match a.crashAfter with
  | none => (a.program.run a.choices w).1.toOption
  | some _ => none

end Attempt

/-- The worlds that a run reaches whose attempts all satisfy `P` in the world they
start from. -/
inductive ReachableIf (P : World → Attempt → Prop) : World → Prop
  | init : ReachableIf P {}
  | step {w : World} (a : Attempt) (hw : ReachableIf P w) (ha : P w a) :
      ReachableIf P (a.result w)

/-- The reachable worlds. -/
abbrev Reachable : World → Prop := ReachableIf fun _ _ => True

theorem ReachableIf.mono {P Q : World → Attempt → Prop} (h : ∀ w a, P w a → Q w a)
    {w : World} (hw : ReachableIf P w) : ReachableIf Q w := by
  induction hw with
  | init => exact .init
  | step a _ ha ih => exact .step a ih (h _ _ ha)

/-- What holds of the empty world and survives every admitted attempt holds of
every world reached. -/
theorem ReachableIf.invariant {P : World → Attempt → Prop} {I : World → Prop}
    (hinit : I {}) (hstep : ∀ w a, I w → P w a → I (a.result w)) {w : World}
    (hw : ReachableIf P w) : I w := by
  induction hw with
  | init => exact hinit
  | step a _ ha ih => exact hstep _ a ih ha

end StoryReview
