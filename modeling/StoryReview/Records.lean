import StoryReview.World

/-!
# Records, idempotency claims and turn leases

The persistence primitives of the orchestration service, one program step per
SQL statement or transaction. A row is validated when it is built and again
when it is read back.
-/
namespace StoryReview

/-! ## Story runs and sessions -/

namespace RecordsStore

/-- The insert, and the constraint it violates if any: the primary key, or the
partial index over open runs of one user and story. -/
def insertStoryRun (record : StoryRunRecord) (w : World) : Option Constraint × World :=
  if (w.storyRun record.storyRunId).isSome then (some .uniqueRow, w)
  else if w.storyRuns.any fun r => decide (r.userId = record.userId ∧
      r.storyId = record.storyId ∧ r.state ≠ .completed ∧ r.state ≠ .parked) then
    (some .oneActiveRunPerStory, w)
  else (none, { w with storyRuns := w.storyRuns ++ [record] })

def createStoryRunOrGet (record : StoryRunRecord) : Orchestration StoryRunRecord := do
  let violated ← statement (insertStoryRun record)
  match violated with
  | none => pure record
  | some violation =>
      let existing ← query fun w => w.storyRun record.storyRunId
      match existing.filter fun e =>
          decide (e.storyId = record.storyId ∧ e.userId = record.userId) with
      | some existing => pure existing
      | none => .raise (.constraintViolation violation)

/-- A session id is its primary key, and one session belongs to one run. -/
def insertSession (record : SessionRecord) (w : World) : Bool × World :=
  if w.sessions.any fun row => decide (row.record.sessionId = record.sessionId ∨
      row.record.storyRunId = record.storyRunId) then (false, w)
  else (true, { w with sessions := w.sessions ++ [⟨record, none⟩] })

/-- `_session_from_row`. -/
def sessionFromRow (row : SessionRow) : Except PyException SessionRecord :=
  if row.record.Valid then .ok row.record else .error .validationError

def createSessionOrGet (record : SessionRecord) : Orchestration SessionRecord := do
  let inserted ← statement (insertSession record)
  if inserted then pure record
  else
    let existing ← query fun w => w.sessions.find? fun row =>
      decide (row.record.storyRunId = record.storyRunId)
    match existing with
    | some row => .ofExcept (sessionFromRow row)
    | none => .raise (.constraintViolation .uniqueRow)

/-- Ownership-scoped: another user's session reads as absent. -/
def getSession (sessionId : SessionId) (userId : UserId) :
    Orchestration (Option SessionRecord) := do
  let row ← query fun w => (w.session sessionId).filter fun row =>
    decide (row.record.userId = userId)
  match row with
  | none => pure none
  | some row => do
      let record ← Program.ofExcept (sessionFromRow row)
      pure (some record)

def touchSession (sessionId : SessionId) : Orchestration Unit :=
  execute fun w => w.modifySession sessionId fun row =>
    { row with record := { row.record with updatedAt := w.clock } }

def setProcessingStage (sessionId : SessionId) (stage : Option ProcessingStage) :
    Orchestration Unit :=
  execute fun w => w.modifySession sessionId fun row => { row with processingStage := stage }

/-- The assignments of one `update sessions` statement. -/
structure SessionUpdate where
  state : Option SessionState := none
  facilitatorTurnCount : Option ℕ := none
  finalReviewReference : Option ArtifactReference := none
  reportReferences : Option (List ArtifactReference) := none

def SessionUpdate.apply (u : SessionUpdate) (clock : Time) (record : SessionRecord) :
    SessionRecord :=
  { record with
    state := u.state.getD record.state
    facilitatorTurnCount := u.facilitatorTurnCount.getD record.facilitatorTurnCount
    finalReviewReference := u.finalReviewReference.or record.finalReviewReference
    reportReferences := u.reportReferences.getD record.reportReferences
    updatedAt := clock }

/-- Move the session's story run to the same terminal state. -/
def retireStoryRun (sessionId : SessionId) (state : SessionState) (w : World) : World :=
  { w with storyRuns := w.storyRuns.map fun run =>
      if (w.session sessionId).any fun row => decide (row.record.storyRunId = run.storyRunId)
      then { run with state := state, updatedAt := w.clock } else run }

/-- The statement batch of `update_session`, as it runs inside a transaction. -/
def sessionUpdated (sessionId : SessionId) (u : SessionUpdate) (w : World) : World :=
  let w := w.modifySession sessionId fun row =>
    { row with record := u.apply w.clock row.record }
  match u.state with
  | some .parked => retireStoryRun sessionId .parked w
  | some .completed => retireStoryRun sessionId .completed w
  | _ => w

/-- Without an outer transaction only the session row changes in one statement;
the callers of this form never set a terminal state. -/
def updateSession (sessionId : SessionId) (u : SessionUpdate) : Orchestration Unit :=
  execute (sessionUpdated sessionId u)

/-! ## Turns -/

/-- `TurnRecord(…)`. -/
def turnRecord (record : TurnRecord) : Except PyException TurnRecord :=
  if record.Valid then .ok record else .error .validationError

def turnRow (w : World) (sessionId : SessionId) (turnNumber : ℕ) : Option TurnRow :=
  (w.turns sessionId).find? fun row => decide (row.record.turnNumber = turnNumber)

/-- Exactly one row per `(session, turn number)`; the table is kept in key order. -/
def insertTurn (row : TurnRow) (w : World) : Bool × World :=
  let sessionId := row.record.sessionId
  if (turnRow w sessionId row.record.turnNumber).isSome then (false, w)
  else (true, w.setTurns sessionId ((w.turns sessionId).orderedInsert
    (fun a b => a.record.turnNumber ≤ b.record.turnNumber) row))

def getTurn (sessionId : SessionId) (turnNumber : ℕ) : Orchestration (Option TurnRecord) := do
  let row ← query fun w => turnRow w sessionId turnNumber
  match row with
  | none => pure none
  | some row => do
      let record ← Program.ofExcept (turnRecord row.record)
      pure (some record)

/-- Insert-or-reuse: the persisted record is the authoritative one. -/
def createTurnOrGet (record : TurnRecord) (producer : Producer) :
    Orchestration TurnRecord := do
  let record ← Program.ofExcept (turnRecord record)
  let inserted ← statement (insertTurn ⟨record, producer⟩)
  if inserted then pure record
  else
    let existing ← getTurn record.sessionId record.turnNumber
    match existing with
    | some existing => pure existing
    | none => .raise (.constraintViolation .uniqueRow)

/-- All turns of a session, ordered by turn number. -/
def listTurns (sessionId : SessionId) : Orchestration (List TurnRecord) := do
  let rows ← query fun w => w.turns sessionId
  if ∀ row ∈ rows, row.record.Valid then pure (rows.map TurnRow.record)
  else .raise .validationError

/-- The number of the last turn whose outcome is `finalize`. -/
def finalizingTurnNumber (rows : List TurnRow) : Option ℕ :=
  (rows.reverse.find? fun row => decide (row.record.outcome = .finalize)).map
    fun row => row.record.turnNumber

def stampTurn (turnNumber : ℕ) (references : List ArtifactReference) (row : TurnRow) :
    TurnRow :=
  if row.record.turnNumber = turnNumber then
    { row with record := { row.record with producedArtifacts := references } }
  else row

/-- Deterministic overwrite of the finalizing turn's `produced_artifacts`. -/
def setFinalizingTurnArtifacts (sessionId : SessionId) (references : List ArtifactReference) :
    Orchestration Unit := do
  let turnNumber ← query fun w => finalizingTurnNumber (w.turns sessionId)
  match turnNumber with
  | none => pure ()
  | some n => execute fun w =>
      w.setTurns sessionId ((w.turns sessionId).map (stampTurn n references))

end RecordsStore

/-! ## Idempotency claims -/

namespace Idempotency

inductive ClaimOutcome where
  | claimed
  | replay (canonicalResponse : Option CanonicalResponse)
  | inProgress
deriving DecidableEq, Repr

def insertClaim (slot : ClaimSlot) (fingerprint : Fingerprint) (w : World) : Bool × World :=
  if (w.claims slot).isSome then (false, w)
  else (true, w.setClaim slot (some ⟨fingerprint, .inProgress, none⟩))

def claim (slot : ClaimSlot) (fingerprint : Fingerprint) : Orchestration ClaimOutcome := do
  let inserted ← statement (insertClaim slot fingerprint)
  if inserted then pure .claimed
  else
    let existing ← query fun w => w.claims slot
    match existing with
    | none => .raise .typeError
    | some existing =>
        if existing.requestFingerprint ≠ fingerprint then
          .raise (.idempotencyKeyReused
            s!"idempotency key already used with a different request body: {slot.key}")
        else
          match existing.state with
          | .completed => pure (.replay existing.canonicalResponse)
          | .inProgress => pure .inProgress

/-- `delete … where … and state = 'in_progress'`. -/
def released (slot : ClaimSlot) (w : World) : World :=
  match w.claims slot with
  | some ⟨_, .inProgress, _⟩ => w.setClaim slot none
  | _ => w

def release (slot : ClaimSlot) : Orchestration Unit := execute (released slot)

/-- `update … set state = 'completed', canonical_response = …`. -/
def completed (slot : ClaimSlot) (response : CanonicalResponse) (w : World) : World :=
  match w.claims slot with
  | some row => w.setClaim slot
      (some { row with state := .completed, canonicalResponse := some response })
  | none => w

def complete (slot : ClaimSlot) (response : CanonicalResponse) : Orchestration Unit :=
  execute (completed slot response)

end Idempotency

/-! ## Turn leases -/

namespace TurnLease

/-- Six minutes. -/
def ttl : Time := 360000000

/-- Insert, or take over an expired row; the new token when it was acquired. -/
def acquireStatement (sessionId : SessionId) (w : World) : Option Uuid × World :=
  let lease : Lease := ⟨w.fresh, w.clock, w.clock + ttl⟩
  let acquired := (some w.fresh,
    { w.setLease sessionId (some lease) with fresh := w.fresh + 1 })
  match w.leases sessionId with
  | none => acquired
  | some held =>
      if held.expiresAt ≤ w.clock then acquired
      else (none, { w with fresh := w.fresh + 1 })

/-- Whole seconds until the lease expires, rounded up. -/
def retryAfter (sessionId : SessionId) (w : World) : Option ℕ :=
  (w.leases sessionId).map fun lease => (lease.expiresAt - w.clock + 999999) / 1000000

/-- One acquisition attempt; `none` when the row vanished between the two
statements. -/
def attemptAcquire (sessionId : SessionId) : Orchestration (Option Uuid) := do
  let token ← statement (acquireStatement sessionId)
  match token with
  | some token => pure (some token)
  | none =>
      let hint ← query (retryAfter sessionId)
      match hint with
      | none => pure none
      | some hint => .raise (.sessionLocked (max 1 hint))

def acquireLoop (sessionId : SessionId) : ℕ → Orchestration Uuid
  | 0 => .raise (.sessionLocked 1)
  | n + 1 => do
      let token ← attemptAcquire sessionId
      match token with
      | some token => pure token
      | none => acquireLoop sessionId n

def acquire (sessionId : SessionId) : Orchestration Uuid := acquireLoop sessionId 3

/-- Extend the lease by the TTL; true only for the current token holder. -/
def renew (sessionId : SessionId) (token : Uuid) : Orchestration Bool :=
  statement fun w =>
    match (w.leases sessionId).filter fun lease => decide (lease.token = token) with
    | some lease =>
        (true, w.setLease sessionId (some { lease with expiresAt := w.clock + ttl }))
    | none => (false, w)

/-- Drop the lease row; only the current token holder's call does. -/
def release (sessionId : SessionId) (token : Uuid) : Orchestration Unit :=
  execute fun w =>
    if (w.leases sessionId).any fun lease => decide (lease.token = token) then
      w.setLease sessionId none
    else w

end TurnLease
end StoryReview
