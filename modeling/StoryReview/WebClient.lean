import StoryReview.Evolution

/-!
# The browser client

One browser: what `localStorage` keeps, and the page of the moment with the calls it
awaits. A mutating request takes the key stored under its scope, or a fresh one, and
stores it before it is sent; its outcome decides whether the key stays. The server and
the network answer as they like, and a reload forgets everything but the storage.

A view's buttons may be pressed whenever the view is shown and the handler's own guards
let the press through.
-/
namespace StoryReview.WebClient

/-! ## What is stored and what is sent -/

/-- `pending:create-session`, `pending:turn:{id}`, `pending:finalize:{id}` and
`pending:abandon:{id}`: each belongs to one URL. -/
inductive Scope where
  | createSession
  | turn (sessionId : SessionId)
  | finalize (sessionId : SessionId)
  | abandon (sessionId : SessionId)
deriving DecidableEq, Repr

/-- A request body. -/
inductive Body where
  | createSession (storyId : StoryId) (requestedFormats : List Format)
  | message (message : Option Text)
  | poAccepted
  | empty
deriving DecidableEq, Repr

/-- What is stored under `{scope}:body`. -/
structure PendingTurn where
  message : Option Text := none
  poAccepted : Bool := false
deriving DecidableEq, Repr

/-- A message of `undefined` is left out of the body's text. -/
def PendingTurn.body (turn : PendingTurn) : Body :=
  if turn.poAccepted then .poAccepted else .message turn.message

structure Storage where
  key : Scope → Option IdempotencyKey := fun _ => none
  body : Scope → Option PendingTurn := fun _ => none
  /-- `session:id`. -/
  sessionId : Option SessionId := none

structure Sent where
  scope : Scope
  key : IdempotencyKey
  body : Body
deriving DecidableEq, Repr

/-- The request that the server reads, when the body is one its route accepts. -/
def Sent.request (r : Sent) : Option Request :=
  match r.scope, r.body with
  | .createSession, .createSession storyId requestedFormats =>
      if h : requestedFormats ≠ [] ∧ requestedFormats.Nodup then
        some (.createSession ⟨storyId, requestedFormats, h.1, h.2⟩)
      else none
  | .turn sessionId, .message (some message) =>
      some (.turn sessionId ⟨some message, false, rfl⟩)
  | .turn sessionId, .poAccepted => some (.turn sessionId ⟨none, true, rfl⟩)
  | .finalize sessionId, .empty => some (.finalize sessionId)
  | .abandon sessionId, .empty => some (.abandon sessionId)
  | _, _ => none

/-- A running `postWithIdempotentKey`: it awaits a response, or sleeps before the next
attempt. -/
structure Post extends Sent where
  pendingBody : Option PendingTurn
  attempt : ℕ := 1
  sleeping : Bool := false
deriving DecidableEq, Repr

/-- The fields of a 2xx body that the page acts on. -/
structure ResponseBody where
  sessionId : SessionId
  state : SessionState
deriving DecidableEq, Repr

/-- `toResult` of a response, or the result of a `fetch` that failed. -/
inductive Result where
  | ok (body : ResponseBody)
  | error (status : ℕ) (code : Option ErrorCode)
  | transport
deriving DecidableEq, Repr

/-- 409 `SESSION_LOCKED`. -/
def Result.Locked (result : Result) : Prop := result = .error 409 (some .sessionLocked)

instance : DecidablePred Result.Locked := fun _ => inferInstanceAs (Decidable (_ = _))

/-! ## The page -/

/-- An `openSession` that awaits its session. Only the one of `boot` drops an unknown
session id. -/
structure Opening where
  sessionId : SessionId
  boot : Bool := false
deriving DecidableEq, Repr

structure SessionDetail where
  state : SessionState
  processing : Bool
deriving DecidableEq, Repr

structure Page where
  /-- The session view is shown, not the picker. -/
  inSession : Bool := false
  /-- The picker's confirm button is wired and enabled. -/
  confirmable : Bool := true
  sessionId : Option SessionId := none
  sessionState : SessionState := .active
  inFlight : Bool := false
  /-- The session that the passive view polls. -/
  stagePoll : Option SessionId := none
  /-- Creations whose poll has found no session. A poll's last read may be answered
  after the creation. -/
  creationPolls : ℕ := 0
  opening : List Opening := []
  calls : List Post := []
deriving Repr

structure Browser where
  storage : Storage := {}
  page : Page := {}
  /-- The next UUID. -/
  fresh : Uuid := 1
  sent : List Sent := []

/-! ## The API client -/

def DEFAULT_ATTEMPTS : ℕ := 5

/-- The loop goes on after a 503 or a locked session, while attempts are left. -/
def Result.Retries (attempt : ℕ) (result : Result) : Prop :=
  attempt < DEFAULT_ATTEMPTS ∧ (result.Locked ∨ ∃ code, result = .error 503 code)

instance (attempt : ℕ) : DecidablePred (Result.Retries attempt)
  | .ok _ | .transport => isFalse (by simp [Result.Retries, Result.Locked])
  | .error status code => decidable_of_iff
      (attempt < DEFAULT_ATTEMPTS ∧ ((Result.error status code).Locked ∨ status = 503))
      (by simp [Result.Retries])

namespace Storage

/-- `storage.setItem(scope, key)` with the entry for the body. -/
def persist (storage : Storage) (scope : Scope) (key : IdempotencyKey)
    (pendingBody : Option PendingTurn) : Storage :=
  { storage with
    key := Function.update storage.key scope (some key)
    body := Function.update storage.body scope pendingBody }

/-- The removal after an outcome that is definitive. -/
def release (storage : Storage) (scope : Scope) (pendingBody : Option PendingTurn) : Storage :=
  { storage with
    key := Function.update storage.key scope none
    body := if pendingBody.isSome then Function.update storage.body scope none
      else storage.body }

def getPendingTurn (storage : Storage) (sessionId : SessionId) : Option PendingTurn :=
  if storage.key (.turn sessionId) = none then none else storage.body (.turn sessionId)

def clearPendingTurn (storage : Storage) (sessionId : SessionId) : Storage :=
  { storage with
    key := Function.update storage.key (.turn sessionId) none
    body := Function.update storage.body (.turn sessionId) none }

end Storage

namespace Browser
variable (b : Browser)

/-- Everything up to the first response. -/
def postWithIdempotentKey (scope : Scope) (body : Body) (pendingBody : Option PendingTurn) :
    Browser :=
  let key := (b.storage.key scope).getD b.fresh
  { b with
    storage := b.storage.persist scope key pendingBody
    fresh := b.fresh + 1
    sent := b.sent ++ [⟨scope, key, body⟩]
    page.calls := b.page.calls ++
      [{ scope := scope, key := key, body := body, pendingBody := pendingBody }] }

def postTurn (sessionId : SessionId) (turn : PendingTurn) : Browser :=
  b.postWithIdempotentKey (.turn sessionId) turn.body (some turn)

def finalizeRetry (sessionId : SessionId) : Browser :=
  b.postWithIdempotentKey (.finalize sessionId) .empty none

def abandonSession (sessionId : SessionId) : Browser :=
  b.postWithIdempotentKey (.abandon sessionId) .empty none

/-- No caller passes other formats. -/
def createSession (storyId : StoryId) : Browser :=
  b.postWithIdempotentKey .createSession (.createSession storyId [.md, .pdf]) none

/-! ## The handlers -/

def startSession (storyId : StoryId) : Browser :=
  { b with
    page.confirmable := false
    page.creationPolls := b.page.creationPolls + 1 }.createSession storyId

def openSession (opening : Opening) : Browser :=
  { b with page.opening := b.page.opening ++ [opening] }

def resumeSession (sessionId : SessionId) : Browser :=
  { b with storage.sessionId := some sessionId }.openSession ⟨sessionId, false⟩

def runTurn (sessionId : SessionId) (turn : PendingTurn) : Browser :=
  { b with page.inFlight := true }.postTurn sessionId turn

/-- The passive view of a session that the server is processing. -/
def watch (sessionId : SessionId) : Browser :=
  { b with page.inFlight := true, page.stagePoll := some sessionId }

/-- `openSession` from the answer of its `fetchSession` on. -/
def showSession (sessionId : SessionId) (detail : SessionDetail) : Browser :=
  let shown : Browser := { b with
    page.inSession := true
    page.sessionId := some sessionId
    page.sessionState := detail.state
    page.inFlight := false
    page.stagePoll := none }
  let pending := if detail.state = .active then b.storage.getPendingTurn sessionId else none
  match pending, detail.processing with
  | some _, true => shown.watch sessionId
  | some turn, false => shown.runTurn sessionId turn
  | none, true =>
      if detail.state = .completed then
        { shown with storage := b.storage.clearPendingTurn sessionId }
      else shown.watch sessionId
  | none, false => { shown with storage := b.storage.clearPendingTurn sessionId }

/-- `showPicker`, with the session id dropped and the session view hidden. -/
def toPicker : Browser :=
  { b with storage.sessionId := none, page.inSession := false, page.confirmable := true }

/-- A new page, with `boot` up to its first response. -/
def reload : Browser :=
  match b.storage.sessionId with
  | some sessionId =>
      { b with page := { confirmable := false, opening := [⟨sessionId, true⟩] } }
  | none => { b with page := {} }

/-- What the caller of a post does with its result. -/
def resolve (scope : Scope) (result : Result) : Browser :=
  match scope, result with
  | .createSession, .ok body => b.resumeSession body.sessionId
  | .createSession, _ => { b with page.confirmable := true }
  | .turn _, .ok body => { b with page.inFlight := false, page.sessionState := body.state }
  | .turn _, _ => { b with page.inFlight := false }
  | .finalize _, .ok _ => { b with page.sessionState := .completed }
  | .abandon _, .ok _ => { b with page.sessionState := .parked }
  | _, _ => b

/-- The `i`-th call ends. A session still locked when the attempts are spent keeps its
key and body: the request may still be executing. -/
def finish (i : ℕ) (post : Post) (result : Result) : Browser :=
  { b with
    storage := if result.Locked then b.storage
      else b.storage.release post.scope post.pendingBody
    page.calls := b.page.calls.eraseIdx i }.resolve post.scope result

end Browser

/-! ## Steps -/

inductive Action where
  | confirmStory (storyId : StoryId)
  | resume (sessionId : SessionId)
  | sendTurn (message : Text)
  | acceptReport
  | runAbandon
  | runFinalizeRetry
  | leaveSession
  | restartStory
  | reload
  /-- The `i`-th call gets its response, or its `fetch` fails. -/
  | responded (i : ℕ) (result : Result)
  /-- The `i`-th call's sleep is over. -/
  | slept (i : ℕ)
  /-- The `i`-th `fetchSession` of an opening is answered. -/
  | opened (i : ℕ) (detail : SessionDetail)
  | notOpened (i : ℕ) (status : ℕ)
  /-- A creation poll finds the session in the list. -/
  | discovered (sessionId : SessionId)
  /-- The passive view's poll reads a cleared stage. -/
  | stageDone
deriving DecidableEq, Repr

namespace Browser
variable (b : Browser)

/-- The session on whose view a handler of the idle page acts. -/
def idleSession : Option SessionId :=
  if b.page.inSession ∧ ¬ b.page.inFlight then b.page.sessionId else none

def act : Action → Option Browser
  | .confirmStory storyId =>
      if ¬ b.page.inSession ∧ b.page.confirmable then some (b.startSession storyId) else none
  | .resume sessionId =>
      if ¬ b.page.inSession then some (b.resumeSession sessionId) else none
  | .sendTurn message =>
      if message = "" then none
      else b.idleSession.map fun sessionId => b.runTurn sessionId { message := some message }
  | .acceptReport =>
      b.idleSession.map fun sessionId => b.runTurn sessionId { poAccepted := true }
  | .runAbandon => b.idleSession.map b.abandonSession
  | .runFinalizeRetry =>
      if b.page.inSession then b.page.sessionId.map b.finalizeRetry else none
  | .leaveSession =>
      if b.page.inSession then some { b.toPicker with page.stagePoll := none } else none
  | .restartStory =>
      if b.page.inSession then some b.toPicker else none
  | .reload => some b.reload
  | .responded i result =>
      b.page.calls[i]?.bind fun post =>
        if post.sleeping then none
        else if result.Retries post.attempt then
          some { b with page.calls := b.page.calls.set i { post with sleeping := true } }
        else some (b.finish i post result)
  | .slept i =>
      b.page.calls[i]?.bind fun post =>
        if post.sleeping then
          some { b with
            sent := b.sent ++ [post.toSent]
            page.calls := b.page.calls.set i
              { post with attempt := post.attempt + 1, sleeping := false } }
        else none
  | .opened i detail =>
      b.page.opening[i]?.map fun opening =>
        { b with page.opening := b.page.opening.eraseIdx i }.showSession opening.sessionId detail
  | .notOpened i status =>
      b.page.opening[i]?.map fun opening =>
        let closed : Browser := { b with page.opening := b.page.opening.eraseIdx i }
        if opening.boot then
          { closed with
            storage.sessionId := if status = 404 then none else b.storage.sessionId
            page.confirmable := true }
        else closed
  | .discovered sessionId =>
      if 0 < b.page.creationPolls then
        some ({ b with page.creationPolls := b.page.creationPolls - 1 }.openSession
          ⟨sessionId, false⟩)
      else none
  | .stageDone =>
      b.page.stagePoll.map fun sessionId =>
        let rested : Browser := { b with page.stagePoll := none, page.inFlight := false }
        if b.page.sessionId = some sessionId then rested.openSession ⟨sessionId, false⟩
        else rested

end Browser

/-- The browsers that a run reaches from a fresh one, its steps all satisfying `P` in the
browser they are taken in. -/
inductive ReachableIf (P : Browser → Action → Prop) : Browser → Prop
  | start : ReachableIf P {}
  | act {b b' : Browser} (action : Action) (h : ReachableIf P b) (hP : P b action)
      (hact : b.act action = some b') : ReachableIf P b'

abbrev Reachable : Browser → Prop := ReachableIf fun _ _ => True

end StoryReview.WebClient
