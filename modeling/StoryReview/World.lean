import StoryReview.Stores
import StoryReview.TurnValidation

/-!
# The durable world and its environment

The state that survives a crash: the Cloud SQL tables, the bucket objects of
every run, the clock and the supply of fresh UUIDs. A program step reads one
`Choice` of the environment: how much time passes, what an agent answers, and
which fault a downstream call meets.

A turn row carries, besides the stored record, the request that inserted it.
No program reads that tag; it lets statements speak of the turns of a key.
-/
namespace StoryReview

inductive Route where
  | createSession | turns | finalize | abandon
deriving DecidableEq, Repr

/-! ## Requests and responses -/

structure CreateSessionRequest where
  storyId : StoryId
  requestedFormats : List Format
  formats_ne_nil : requestedFormats ≠ []
  formats_are_unique : requestedFormats.Nodup
deriving DecidableEq, Repr

structure TurnRequest where
  message : Option Text := none
  poAccepted : Bool := false
  validate_action : poAccepted = message.isNone
deriving DecidableEq, Repr

/-- The request body a claim is fingerprinted with. -/
inductive Fingerprint where
  | createSession (payload : CreateSessionRequest) (userId : UserId)
  | turn (payload : TurnRequest)
  | empty
deriving DecidableEq, Repr

/-- Report references as every response model admits them. -/
def ReportReferences (references : List ArtifactReference) : Prop :=
  references.length ≤ 2 ∧ (∀ r ∈ references, r.type = .reportMd ∨ r.type = .reportPdf) ∧
    (references.map ArtifactReference.type).Nodup

instance : DecidablePred ReportReferences := fun _ => inferInstanceAs (Decidable (_ ∧ _))

structure CanonicalTurnResult where
  sessionId : SessionId
  turnNumber : ℕ
  outcome : TurnOutcome
  state : SessionState
  facilitatorReply : Option Text
  delegationRationaleReply : Option Text
  issues : List IssueId
  delegation : Option DelegationDecision
  synthesis : Option ArtifactReference
  reportReferences : List ArtifactReference
deriving DecidableEq, Repr

def TurnOutcome.expectedState : TurnOutcome → SessionState
  | .cont => .active
  | .park => .parked
  | .finalize => .completed

def CanonicalTurnResult.Valid (c : CanonicalTurnResult) : Prop :=
  2 ≤ c.turnNumber ∧ c.issues.length ≤ 100 ∧ c.state = c.outcome.expectedState ∧
    (c.outcome = .finalize ↔ c.reportReferences ≠ []) ∧ ReportReferences c.reportReferences

instance : DecidablePred CanonicalTurnResult.Valid := fun _ =>
  inferInstanceAs (Decidable (_ ∧ _))

structure CanonicalReportResult where
  sessionId : SessionId
  reportReferences : List ArtifactReference
deriving DecidableEq, Repr

def CanonicalReportResult.Valid (c : CanonicalReportResult) : Prop :=
  c.reportReferences ≠ [] ∧ ReportReferences c.reportReferences

instance : DecidablePred CanonicalReportResult.Valid := fun _ =>
  inferInstanceAs (Decidable (_ ∧ _))

/-- Signed URLs are regenerated for every response; the references they are
generated from stand for the downloads. -/
structure TurnResponse where
  sessionId : SessionId
  turnNumber : ℕ
  outcome : TurnOutcome
  state : SessionState
  facilitatorReply : Option Text
  delegationRationaleReply : Option Text
  issues : List IssueId
  delegation : Option DelegationDecision
  resolutions : List ResolutionItem
  synthesis : Option ArtifactReference
  report : List ArtifactReference
deriving DecidableEq, Repr

def TurnResponse.Valid (r : TurnResponse) : Prop :=
  2 ≤ r.turnNumber ∧ r.issues.length ≤ 100 ∧ r.resolutions.length ≤ 100 ∧
    r.state = r.outcome.expectedState ∧ (r.outcome = .finalize ↔ r.report ≠ []) ∧
    ReportReferences r.report ∧ (∀ d ∈ r.delegation, r.issues = d.openIssues) ∧
    (r.outcome ≠ .finalize → r.delegation.isSome ∧ r.facilitatorReply.isSome) ∧
    ∀ s ∈ r.synthesis, s.type = .synthesis

instance : DecidablePred TurnResponse.Valid := fun _ => inferInstanceAs (Decidable (_ ∧ _))

structure CreateSessionResponse where
  sessionId : SessionId
  storyRunId : RunId
  openingTurnNumber : ℕ
  facilitatorReply : Text
  issues : List IssueId
  delegation : Option DelegationDecision
  synthesis : ArtifactReference
  artifactReferences : List ArtifactReference
deriving DecidableEq, Repr

def CreateSessionResponse.Valid (r : CreateSessionResponse) : Prop :=
  r.issues.length ≤ 100 ∧ r.artifactReferences.length ≤ 20 ∧
    (∃ d ∈ r.delegation, d.invoke = .none ∧ r.issues = d.openIssues) ∧
    r.synthesis.type = .synthesis

instance : DecidablePred CreateSessionResponse.Valid := fun _ =>
  inferInstanceAs (Decidable (_ ∧ _))

inductive CanonicalResponse where
  | created (r : CreateSessionResponse)
  | turn (r : CanonicalTurnResult)
  | report (r : CanonicalReportResult)
  | abandoned (sessionId : SessionId)
deriving DecidableEq, Repr

/-! ## Tables -/

/-- The primary key of `idempotency_claims`; no session marks the session-less
routes. -/
structure ClaimSlot where
  route : Route
  sessionId : Option SessionId
  key : IdempotencyKey
deriving DecidableEq, Repr

inductive ClaimState where
  | inProgress | completed
deriving DecidableEq, Repr

structure ClaimRow where
  requestFingerprint : Fingerprint
  state : ClaimState
  canonicalResponse : Option CanonicalResponse
deriving DecidableEq, Repr

structure SessionRow where
  record : SessionRecord
  processingStage : Option ProcessingStage
deriving DecidableEq, Repr

/-- The request whose processing inserted a turn. -/
inductive Producer where
  | createSession (key : IdempotencyKey)
  | turn (key : IdempotencyKey)
deriving DecidableEq, Repr

structure TurnRow where
  record : TurnRecord
  producer : Producer
deriving DecidableEq, Repr

structure Lease where
  token : Uuid
  acquiredAt : Time
  expiresAt : Time
deriving DecidableEq, Repr

structure World where
  clock : Time := 0
  fresh : Uuid := 0
  storyRuns : List StoryRunRecord := []
  sessions : List SessionRow := []
  turns : SessionId → List TurnRow := fun _ => []
  claims : ClaimSlot → Option ClaimRow := fun _ => none
  leases : SessionId → Option Lease := fun _ => none
  objects : RunId → RunObjects := fun _ => {}

/-! ## The environment -/

structure ReviewerInvocation where
  story : StoryDetail
  previousReview : Option ReviewReport := none
  extraContext : Option Text := none
deriving DecidableEq, Repr

structure PerspectivePair where
  report : ReviewReport
  reference : ArtifactReference
deriving DecidableEq, Repr

structure SynthesisInvocation where
  pairs : Perspective → PerspectivePair

/-- How a downstream call fails once its attempts are spent. -/
inductive CallFailure where
  | error (e : ErrorBody)
  | transport
  | deadline
  | malformed
deriving DecidableEq, Repr

def CallFailure.mcpException : CallFailure → PyException
  | .error e => .mcpCallFailure e
  | .transport => .mcpTransportError
  | .deadline => .deadlineExceededError
  | .malformed => .validationError

def CallFailure.agentException : CallFailure → PyException
  | .error e => .agentCallFailure e
  | .transport => .agentTransportError
  | .deadline => .agentDeadlineExceeded
  | .malformed => .validationError

/-- One answer of the environment. `lost` are the attempts of a call whose answer
never arrived, each with the number of object-store calls it got to make;
`failure` is how the call fails in the end, if it does. -/
structure Choice where
  elapsed : Time := 0
  lost : List ℕ := []
  failure : Option CallFailure := none
  story : StoryId → StoryDetail
  reviewer : Perspective → ReviewerInvocation → ReviewReport
  synthesis : SynthesisInvocation → SynthesisReport
  facilitator : FacilitatorInvocation → FacilitatorTurnOutput

/-- No call is lost and none fails. -/
def Choice.FaultFree (c : Choice) : Prop := c.lost = [] ∧ c.failure = none

abbrev Orchestration := Program World Choice PyException

namespace World

def tick (w : World) (c : Choice) : World := { w with clock := w.clock + c.elapsed + 1 }

def session (w : World) (sessionId : SessionId) : Option SessionRow :=
  w.sessions.find? fun row => decide (row.record.sessionId = sessionId)

def storyRun (w : World) (storyRunId : RunId) : Option StoryRunRecord :=
  w.storyRuns.find? fun record => decide (record.storyRunId = storyRunId)

def modifySession (w : World) (sessionId : SessionId) (f : SessionRow → SessionRow) : World :=
  { w with sessions := w.sessions.map fun row =>
      if row.record.sessionId = sessionId then f row else row }

def setClaim (w : World) (slot : ClaimSlot) (row : Option ClaimRow) : World :=
  { w with claims := Function.update w.claims slot row }

def setLease (w : World) (sessionId : SessionId) (lease : Option Lease) : World :=
  { w with leases := Function.update w.leases sessionId lease }

def setTurns (w : World) (sessionId : SessionId) (rows : List TurnRow) : World :=
  { w with turns := Function.update w.turns sessionId rows }

def setObjects (w : World) (run : RunId) (o : RunObjects) : World :=
  { w with objects := Function.update w.objects run o }

/-- One attempt of a store call that gets `n` object-store calls far. -/
def attempt {α : Type} (w : World) (run : RunId)
    (tool : ArtifactId → Time → StoreProgram α) (n : ℕ) : World :=
  { w.setObjects run
      ((tool ⟨w.fresh⟩ w.clock).crash (fun _ => ()) n (w.objects run)) with
    fresh := w.fresh + 1 }

end World

/-- One SQL statement, or one transaction. -/
def statement {α : Type} (f : World → α × World) : Orchestration α :=
  .atomic fun c w => f (w.tick c)

def query {α : Type} (f : World → α) : Orchestration α := statement fun w => (f w, w)

def execute (f : World → World) : Orchestration Unit := statement fun w => ((), f w)

/-- `_now()`. -/
def now : Orchestration Time := query World.clock

/-- `await client.call(tool, …)` on a store of the run. The attempts that were
lost have had their effect; the last one is answered, unless the call fails. -/
def storeCall {α : Type} (run : RunId) (tool : ArtifactId → Time → StoreProgram α)
    (errorFor : StoreException → ErrorBody) : Orchestration α :=
  .atomicExcept fun c w =>
    let w := c.lost.foldl (fun w n => w.attempt run tool n) (w.tick c)
    match c.failure with
    | some failure => (.error failure.mcpException, w)
    | none =>
        let (answer, o) := (tool ⟨w.fresh⟩ w.clock).run (fun _ => ()) (w.objects run)
        (answer.mapError fun e => .mcpCallFailure (errorFor e),
          { w.setObjects run o with fresh := w.fresh + 1 })

/-- A call that leaves no durable trace: the story service and the agents. -/
def pureCall {α : Type} (answer : Choice → α) (exception : CallFailure → PyException) :
    Orchestration α :=
  .atomicExcept fun c w =>
    match c.failure with
    | some failure => (.error (exception failure), w.tick c)
    | none => (.ok (answer c), w.tick c)

end StoryReview
