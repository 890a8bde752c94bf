import StoryReview.AgentMessages
import StoryReview.CrashProgram

/-!
# The Agent Engine facilitator client

One Agent Engine session keeps the event history of one review session. A
message that a client sends is pending until the engine has dealt with it: the
engine may record the message and its replies while the client waits, after the
client has given up, or never. The client reads the history back when an attempt
ends without a reply, and re-prompts an output that breaks a turn rule.
-/
namespace StoryReview

/-! ## Parsing replies -/

/-- What `json.loads` makes of a text; `fails` is any exception that is no
`JSONDecodeError`. -/
inductive Loaded (J : Type) where
  | value (v : J)
  | notJson (message : Text)
  | fails

def Loaded.isFailure {J : Type} : Loaded J → Bool
  | .fails => true
  | _ => false

/-- A schema violation: the location and message of each error, and its own text. -/
structure ValidationError where
  errors : List (Text × Text)
  text : Text
deriving DecidableEq, Repr

/-- The JSON and schema libraries, at one reply model. -/
structure ReplyParser (α : Type) where
  Json : Type
  loads : Text → Loaded Json
  dumps : Json → Text
  modelValidate : Json → Except ValidationError α
  modelValidateJson : Text → Except ValidationError α
  /-- `json.loads(value.model_dump_json())`. -/
  modelDump : α → Json

namespace ReplyParser
open AgentEngine
variable {α : Type}

/-- The value a text stands for, when it is JSON of the schema. -/
def parse (P : ReplyParser α) (text : Text) : Option α :=
  match P.loads text with
  | .value v => (P.modelValidate v).toOption
  | .notJson _ => none
  | .fails => none

/-- What the two libraries promise each other. -/
structure Lawful (P : ReplyParser α) : Prop where
  /-- A blank text is no JSON document. -/
  blank : ∀ text, isBlank text → ∃ message, P.loads text = .notJson message
  /-- Validating a text is validating the document it holds. -/
  json_mode : ∀ text, (P.modelValidateJson text).toOption = P.parse text
  dumps : ∀ text v, P.loads text = .value v → P.loads (P.dumps v) = .value v

end ReplyParser

namespace AgentEngine

/-! ## Event histories -/

inductive Author where
  | user | model
deriving DecidableEq, Repr

structure Event where
  author : Author
  parts : List Text
deriving DecidableEq, Repr

/-- Text parts of one event, in order. -/
def Event.texts (event : Event) : List Text := event.parts.filter fun text => decide (text ≠ "")

/-- The last model-authored text. -/
def finalModelReply (events : List Event) : Text :=
  events.foldl (fun reply event =>
    if event.author = .user then reply
    else event.texts.foldl (fun _ text => text) reply) ""

/-- A message of the user with the marker of the turn. -/
def isOwn (turnNumber : ℕ) (event : Event) : Bool :=
  event.texts.any (carriesMarker turnNumber)

/-- Where the loop of `recovered_turn_reply` stands. -/
structure Scan where
  lastOwnIndex : Option ℕ := none
  laterUser : Bool := false

def Scan.next (turnNumber : ℕ) (scan : Scan) (entry : Event × ℕ) : Scan :=
  if entry.1.author ≠ .user then scan
  else if isOwn turnNumber entry.1 then ⟨some entry.2, false⟩
  else if scan.lastOwnIndex.isSome then { scan with laterUser := true }
  else scan

/-- The recorded reply to the last message that carries the turn's marker, unless
another message came after it. -/
def recoveredTurnReply (events : List Event) (turnNumber : ℕ) : Option Text :=
  let scan := events.zipIdx.foldl (Scan.next turnNumber) {}
  match scan.lastOwnIndex with
  | none => none
  | some lastOwnIndex =>
      if scan.laterUser then none
      else
        let reply := finalModelReply (events.drop (lastOwnIndex + 1))
        if reply = "" then none else some reply

/-! ## The engine's session -/

/-- An event of the history, the invocation whose message it is or answers, and the
invocations whose messages were being answered when it was recorded. -/
structure Recorded where
  event : Event
  invocation : InvocationId
  exchange : ℕ
  answering : List InvocationId
deriving DecidableEq, Repr

/-- A message the engine has not finished with. -/
structure Exchange where
  id : ℕ
  invocation : InvocationId
  text : Text
  delivered : Bool := false
deriving DecidableEq, Repr

/-- A session, with a log of the messages sent and of what each read of the history
returned. Exchanges are numbered by the posts. -/
structure Session where
  events : List Recorded := []
  pending : List Exchange := []
  posts : List InvocationId := []
  reads : List (FacilitatorInvocation × List Recorded) := []
  events_lt : ∀ r ∈ events, r.exchange < posts.length := by exact List.forall_mem_nil _
  pending_lt : ∀ e ∈ pending, e.id < posts.length := by exact List.forall_mem_nil _

/-- What the engine does on its own. -/
inductive Progress where
  | deliver (id : ℕ)
  | reply (id : ℕ) (parts : List Text)
  | close (id : ℕ)

namespace Session

def find (s : Session) (id : ℕ) : Option Exchange :=
  s.pending.find? fun exchange => decide (exchange.id = id)

theorem lt_of_find {s : Session} {id : ℕ} {exchange : Exchange} (h : s.find id = some exchange) :
    id < s.posts.length := by
  have hid := List.find?_some h
  rw [decide_eq_true_eq] at hid
  exact hid ▸ s.pending_lt exchange (List.mem_of_find?_eq_some h)

/-- The invocations whose messages are recorded and not finished with. -/
def answering (s : Session) : List InvocationId :=
  (s.pending.filter Exchange.delivered).map Exchange.invocation

/-- The history grows by an event of one exchange. -/
def record (s : Session) (r : Recorded) (h : r.exchange < s.posts.length) : Session :=
  { s with
    events := s.events ++ [r]
    events_lt := by
      intro r' hr'
      rcases List.mem_append.mp hr' with hr' | hr'
      · exact s.events_lt r' hr'
      · rw [List.mem_singleton.mp hr']
        exact h }

/-- The engine has recorded the message of an exchange. -/
def markDelivered (s : Session) (id : ℕ) : Session :=
  { s with
    pending := s.pending.map fun e => if e.id = id then { e with delivered := true } else e
    pending_lt := by
      intro e he
      obtain ⟨e', he', rfl⟩ := List.mem_map.mp he
      have hlt := s.pending_lt e' he'
      split_ifs <;> exact hlt }

def close (s : Session) (id : ℕ) : Session :=
  { s with
    pending := s.pending.filter fun exchange => decide (exchange.id ≠ id)
    pending_lt := fun e he => s.pending_lt e (List.mem_of_mem_filter he) }

def deliver (s : Session) (id : ℕ) : Session :=
  match h : s.find id with
  | none => s
  | some exchange =>
      if exchange.delivered then s
      else (s.record ⟨⟨.user, [exchange.text]⟩, exchange.invocation, id, s.answering⟩
        (lt_of_find h)).markDelivered id

def reply (s : Session) (id : ℕ) (parts : List Text) : Session :=
  match h : s.find id with
  | none => s
  | some exchange =>
      if exchange.delivered then
        s.record ⟨⟨.model, parts⟩, exchange.invocation, id, s.answering⟩ (lt_of_find h)
      else s

def advance (s : Session) : Progress → Session
  | .deliver id => s.deliver id
  | .reply id parts => s.reply id parts
  | .close id => s.close id

/-- A message is sent. -/
def post (s : Session) (invocation : InvocationId) (text : Text) : Session :=
  { s with
    pending := s.pending ++ [⟨s.posts.length, invocation, text, false⟩]
    posts := s.posts ++ [invocation]
    events_lt := by
      intro r hr
      have hlt := s.events_lt r hr
      rw [List.length_append, List.length_singleton]
      omega
    pending_lt := by
      intro e he
      rw [List.length_append, List.length_singleton]
      rcases List.mem_append.mp he with he | he
      · have hlt := s.pending_lt e he
        omega
      · rw [List.mem_singleton.mp he]
        exact Nat.lt_succ_self _ }

/-- The model's events in answer to one message. -/
def replies (s : Session) (id : ℕ) : List Event :=
  (s.events.filter fun r => decide (r.exchange = id ∧ r.event.author = .model)).map
    Recorded.event

def read (s : Session) (request : FacilitatorInvocation) : Session :=
  { s with reads := s.reads ++ [(request, s.events)] }

end Session

/-! ## Calls of the client -/

inductive AeException where
  | callFailure (error : ErrorBody)
  | transportError (message : Text)
  | deadlineExceeded
  | httpError (message : Text)
  | validationError
  | jsonDecodeError (message : Text)
  | loadsError
deriving DecidableEq, Repr

/-- `str(exc)`. -/
def AeException.text : AeException → Text
  | .callFailure _ => "agent call failure"
  | .transportError message => message
  | .deadlineExceeded => "request deadline budget exhausted"
  | .httpError message => message
  | .validationError => "validation error"
  | .jsonDecodeError message => message
  | .loadsError => "value error"

/-- How one call to the engine ends for the client. -/
inductive Outcome where
  | answered
  | failed (message : Text)
  | refused (error : ErrorBody)
  | deadline

structure Reaction where
  progress : List Progress := []
  outcome : Outcome := .answered

/-- The environment's answer to a step, from the session as it finds it. -/
abbrev Environment := Session → Reaction

abbrev Client := Program Session Environment AeException

/-- One step of a client: the engine has moved on, then the call has its effect. -/
def call {α : Type} (f : Outcome → Session → Except AeException α × Session) : Client α :=
  Program.atomicExcept fun env s => f (env s).outcome ((env s).progress.foldl Session.advance s)

/-- A request goes out, if the deadline leaves time for it. -/
def send (invocation : InvocationId) (text : Text) : Client ℕ :=
  call fun outcome s =>
    match outcome with
    | .deadline => (.error .deadlineExceeded, s)
    | _ => (.ok s.posts.length, s.post invocation text)

/-- Its response: the events of the stream, or an error envelope. -/
def await (id : ℕ) : Client (Except ErrorBody (List Event)) :=
  call fun outcome s =>
    match outcome with
    | .answered => (.ok (.ok (s.replies id)), s.close id)
    | .refused error => (.ok (.error error), s)
    | .failed message => (.error (.httpError message), s)
    | .deadline => (.error (.httpError "timeout"), s)

/-- `self._post(…)`. -/
def post (invocation : InvocationId) (text : Text) : Client (Except ErrorBody (List Event)) := do
  let id ← send invocation text
  await id

/-- List-or-create of the session that belongs to the review session. -/
def resolveSession : Client Unit :=
  call fun outcome s =>
    match outcome with
    | .answered => (.ok (), s)
    | .refused error => (.error (.transportError error.message), s)
    | .failed message => (.error (.httpError message), s)
    | .deadline => (.error (.httpError "timeout"), s)

def listEvents (request : FacilitatorInvocation) : Client (List Event) :=
  call fun outcome s =>
    match outcome with
    | .answered => (.ok (s.events.map Recorded.event), s.read request)
    | .refused error => (.error (.transportError error.message), s)
    | .failed message => (.error (.httpError message), s)
    | .deadline => (.error (.httpError "timeout"), s)

/-! ## The facilitator client -/

def correctiveMax : ℕ := 2

def facilitatorAttempts : ℕ := 2

structure FacilitatorClient where
  wire : Wire
  parser : ReplyParser FacilitatorTurnOutput
  version : Text

/-- The fields of a reply body; the fingerprint of a message is represented by the
message. -/
structure Body (client : FacilitatorClient) where
  output : client.parser.Json
  agentVersion : Text
  promptSha256 : Text
  correctiveReprompts : ℕ

structure FacilitatorResult where
  output : FacilitatorTurnOutput
  agentVersion : Text
  promptSha256 : Text
  correctiveReprompts : ℕ := 0
  transportAttempts : ℕ := 1
deriving DecidableEq, Repr

/-- A reply that fails its schema is terminal. -/
def validatedReply {α : Type} (parser : ReplyParser α) (text : Text) (correlationId : Uuid) :
    Except AeException α :=
  match parser.modelValidateJson text with
  | .ok value => .ok value
  | .error e => .error (.callFailure (makeError .validationError
      s!"AE reply failed schema validation: {e.errors.length} error(s)" correlationId false))

namespace FacilitatorClient
variable (client : FacilitatorClient) (request : FacilitatorInvocation)

def body (output : client.parser.Json) : Body client :=
  ⟨output, client.version, renderFacilitatorMessage client.wire request, 0⟩

/-- The reply recorded for the invocation's turn, if the history has one that parses. -/
def readRecorded : Client (Option (Body client)) := do
  resolveSession
  let events ← listEvents request
  match recoveredTurnReply events request.turnNumber with
  | none => pure none
  | some reply =>
      match client.parser.modelValidateJson reply with
      | .ok output => pure (some (client.body request (client.parser.modelDump output)))
      | .error _ => .raise .validationError

/-- Any failure to read means that there is nothing to recover. -/
def recover : Client (Option (Body client)) :=
  Program.tryCatch (client.readRecorded request) fun _ => .ret none

/-- The turn message is sent; what the attempt loop catches is kept as an error. -/
def sendTurn : Client (Except AeException (Except ErrorBody (List Event))) :=
  Program.tryCatch
    ((post request.invocationId (renderFacilitatorMessage client.wire request)).bind
      fun answer => .ret (.ok answer))
    fun
      | .deadlineExceeded => .raise .deadlineExceeded
      | exc => .ret (.error exc)

/-- What one attempt makes of a reply: a body, or the error to remember. -/
def answerOf (reply : Text) : Except AeException (Except AeException (Body client)) :=
  if isBlank reply then .ok (.error (.transportError "AE stream ended without a reply"))
  else
    match client.parser.loads reply with
    | .value v => .ok (.ok (client.body request v))
    | .notJson message => .error (.jsonDecodeError message)
    | .fails => .error .loadsError

def attempt : Client (Except AeException (Body client)) := do
  match ← client.sendTurn request with
  | .error exc => pure (.error exc)
  | .ok (.error error) =>
      if error.retryable then pure (.error (.callFailure error))
      else .raise (.callFailure error)
  | .ok (.ok events) => .ofExcept (client.answerOf request (finalModelReply events))

/-- The attempts that remain: after each that gave no body, the history is consulted. -/
def attemptsFrom : ℕ → ℕ → Option AeException →
    Client (Option (Body client) × ℕ × Option AeException)
  | 0, attempts, lastError => pure (none, attempts, lastError)
  | remaining + 1, attempts, lastError => do
      match ← client.attempt request with
      | .ok body => pure (some body, attempts + 1, lastError)
      | .error exc =>
          match ← client.recover request with
          | some body => pure (some body, attempts + 1, some exc)
          | none => attemptsFrom remaining (attempts + 1) (some exc)

/-- One corrective round trip. -/
def correctiveTurn (reasons : Text) : Client Text := do
  match ← post request.invocationId (correctiveMessage reasons request.turnNumber) with
  | .error error => .raise (.callFailure error)
  | .ok events =>
      let reply := finalModelReply events
      if isBlank reply then
        .raise (.transportError "AE corrective stream ended without a reply")
      else pure reply

/-- The recovered reply as an output. -/
def recoveredOutput : Client (Option FacilitatorTurnOutput) := do
  match ← client.recover request with
  | none => pure none
  | some body =>
      match client.parser.modelValidateJson (client.parser.dumps body.output) with
      | .ok output => pure (some output)
      | .error _ => .raise .validationError

/-- The next output to judge and the reason kept, from a corrective reply. -/
def corrected (reason : Option Text) : Client (Option FacilitatorTurnOutput × Option Text) := do
  let reply ← correctiveTurn request (reason.getD "")
  match client.parser.modelValidateJson reply with
  | .ok output => pure (some output, reason)
  | .error e => pure (none,
      some ("reply is not valid FacilitatorTurnOutput JSON: " ++ e.text))

/-- A corrective exchange, reconciled with the history when it ends without a reply. -/
def correction (reason : Option Text) : Client (Option FacilitatorTurnOutput × Option Text) :=
  let reconcile (exc : AeException) := do
    match ← client.recoveredOutput request with
    | none => Program.raise exc
    | some output => pure (some output, reason)
  Program.tryCatch (client.corrected request reason) fun
    | .transportError message => reconcile (.transportError message)
    | .callFailure error => reconcile (.callFailure error)
    | exc => .raise exc

/-- The output when it is accepted, otherwise the reason to re-prompt with. -/
def judge (output : Option FacilitatorTurnOutput) (reason : Option Text) :
    Except (Option Text) FacilitatorTurnOutput :=
  match output with
  | none => .error reason
  | some output =>
      match validateFacilitatorTurn output request with
      | .ok _ => .ok output
      | .error (.turnInvalid reason) => .error (some reason)
      | .error _ => .error reason

/-- The re-prompt loop, with `remaining` corrections left. -/
def turnWithCorrections (correlationId : Uuid) : ℕ → Option FacilitatorTurnOutput →
    Option Text → Client (FacilitatorTurnOutput × ℕ)
  | 0, output, reason =>
      match judge request output reason with
      | .ok output => pure (output, correctiveMax)
      | .error reason => .raise (.callFailure (makeError .delegationValidation
          (s!"no valid turn output after {correctiveMax} " ++
            "corrective re-prompts: " ++ reason.getD "None") correlationId false))
  | remaining + 1, output, reason =>
      match judge request output reason with
      | .ok output => pure (output, correctiveMax - (remaining + 1))
      | .error reason => do
          let next ← client.correction request reason
          turnWithCorrections correlationId remaining next.1 next.2

/-- A body is validated and its output corrected. -/
def conclude (correlationId : Uuid) (body : Body client) (attempts : ℕ) :
    Client FacilitatorResult := do
  let output ← Program.ofExcept
    (validatedReply client.parser (client.parser.dumps body.output) correlationId)
  let (output, corrections) ← client.turnWithCorrections request correlationId
    correctiveMax (some output) none
  pure ⟨output, body.agentVersion, body.promptSha256, corrections, attempts⟩

/-- What follows the attempt loop. -/
def settle (correlationId : Uuid) :
    Option (Body client) × ℕ × Option AeException → Client FacilitatorResult
  | (some body, attempts, _) => client.conclude request correlationId body attempts
  | (none, _, some (.callFailure error)) => .raise (.callFailure error)
  | (none, _, some exc) => .raise (.transportError exc.text)
  | (none, _, none) => .raise (.transportError "None")

def invoke (correlationId : Uuid) : Client FacilitatorResult := do
  resolveSession
  let answer ← client.attemptsFrom request facilitatorAttempts 0 none
  client.settle request correlationId answer

end FacilitatorClient
end AgentEngine
end StoryReview
