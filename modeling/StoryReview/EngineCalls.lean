import StoryReview.AgentEngine
import StoryReview.HttpAgents
import StoryReview.OutputFenceLaws

/-!
# The Agent Engine clients on the wire

Every call of the clients may be answered by an exception of the transport or by any
status and text. The texts are read as Python reads them: a document of another shape than
the code expects raises where the code touches it.
-/
namespace StoryReview

/-- What `json.loads` gives; a float may be infinite or no number. -/
inductive Json where
  | null
  | bool (b : Bool)
  | number (q : ℚ)
  | nonFinite
  | string (s : Text)
  | array (items : List Json)
  | object (fields : List (Text × Json))

namespace EngineCalls
open Waits AgentClients AgentEngine OutputFence

/-! ## Documents -/

def attributeError : AgentError := .other "AttributeError"
def typeError : AgentError := .other "TypeError"

/-- `bool(value)`. -/
def truthy : Json → Bool
  | .null => false
  | .bool b => b
  | .number q => decide (q ≠ 0)
  | .nonFinite => true
  | .string s => decide (s ≠ "")
  | .array items => !items.isEmpty
  | .object fields => !fields.isEmpty

/-- `value.get(key)`. -/
def get (value : Json) (key : Text) : Except AgentError (Option Json) :=
  match value with
  | .object fields => .ok (fields.lookup key)
  | _ => .error attributeError

/-- `value or default`. -/
def orElse (value : Option Json) (default : Json) : Json :=
  (value.filter truthy).getD default

/-- What a `for` loop goes through. -/
def elements : Json → Except AgentError (List Json)
  | .array items => .ok items
  | .object fields => .ok (fields.map fun field => .string field.1)
  | .string s => .ok (s.toList.map fun c => .string (String.ofList [c]))
  | _ => .error typeError

def isObject : Json → Bool
  | .object _ => true
  | _ => false

def isText (value : Json) (text : Text) : Bool :=
  match value with
  | .string s => decide (s = text)
  | _ => false

/-- Text parts of one event's content, in order. -/
def eventTexts (event : Json) : Except AgentError (List Json) := do
  let content ← get event "content"
  let parts ← get (orElse content (.object [])) "parts"
  let parts ← elements (orElse parts (.array []))
  .ok (parts.filterMap fun part =>
    match part with
    | .object fields => (fields.lookup "text").filter truthy
    | _ => none)

/-- The last model-authored text, if it is one. -/
def finalModelReply (events : List Json) : Except AgentError Json :=
  events.foldlM (fun reply event => do
    let author ← get event "author"
    if author.any fun author => isText author "user" then .ok reply
    else do
      let texts ← eventTexts event
      .ok (texts.getLast?.getD reply)) (.string "")

/-- `reply.strip()`. -/
def replyText : Json → Except AgentError Text
  | .string s => .ok s
  | _ => .error attributeError

/-- Whether one of the texts carries the turn's marker, up to the first that does. -/
def carriesMarkerIn (turnNumber : ℕ) : List Json → Except AgentError Bool
  | [] => .ok false
  | .string s :: texts => if carriesMarker turnNumber s then .ok true
      else carriesMarkerIn turnNumber texts
  | _ :: _ => .error typeError

def nextScan (turnNumber : ℕ) (scan : Scan) (entry : Json × ℕ) : Except AgentError Scan := do
  let author ← get entry.1 "author"
  if author.any fun author => isText author "user" then do
    let texts ← eventTexts entry.1
    let own ← carriesMarkerIn turnNumber texts
    .ok (if own then ⟨some entry.2, false⟩
      else if scan.lastOwnIndex.isSome then { scan with laterUser := true } else scan)
  else .ok scan

/-- The recorded reply of the turn. -/
def recoveredTurnReply (events : List Json) (turnNumber : ℕ) :
    Except AgentError (Option Json) := do
  let scan ← events.zipIdx.foldlM (nextScan turnNumber) {}
  match scan.lastOwnIndex with
  | none => .ok none
  | some lastOwnIndex =>
      if scan.laterUser then .ok none
      else do
        let reply ← finalModelReply (events.drop (lastOwnIndex + 1))
        .ok (if truthy reply then some reply else none)

/-! ## Answers -/

/-- How the transport ends one request. -/
inductive WireAnswer where
  | raised (text : Text)
  | response (status : ℕ) (text : Text)

/-- What `json.loads` raises; only the last is no `ValueError`. -/
inductive LoadError where
  | jsonDecodeError (text : Text)
  | valueError (text : Text)
  | recursionError (text : Text)

def LoadError.text : LoadError → Text
  | .jsonDecodeError text => text
  | .valueError text => text
  | .recursionError text => text

/-- The JSON and schema libraries at the facilitator's output, `str` on documents that are
no strings, and the user id of a session. -/
structure Library where
  loads : Text → Except LoadError Json
  dumps : Json → Text
  modelValidateJson : Text → Except ValidationError FacilitatorTurnOutput
  modelDump : FacilitatorTurnOutput → Json
  str : Json → Text
  userId : SessionId → Text

variable (lib : Library)

/-- `response.json()`. -/
def load (text : Text) : Except AgentError Json :=
  (lib.loads text).mapError fun e => .other e.text

/-- `text.strip()`. -/
def strip (s : List Char) : List Char :=
  ((s.dropWhile AgentEngine.isSpace).reverse.dropWhile AgentEngine.isSpace).reverse

def dataPrefix : List Char := ['d', 'a', 't', 'a', ':']

/-- The event documents of a stream; what is not JSON is skipped. -/
def parseStreamDocuments (text : Text) : Except AgentError (List Json) :=
  (text.toList.splitOn '\n').foldlM (fun events line =>
    let chunk := strip line
    let chunk := if dataPrefix.isPrefixOf chunk then strip (chunk.drop 5) else chunk
    if chunk = [] then .ok events
    else match lib.loads (String.ofList chunk) with
      | .ok document => .ok (if isObject document then events ++ [document] else events)
      | .error (.jsonDecodeError _) => .ok events
      | .error e => .error (.other e.text)) []

/-- The `error` of a Google API error body; what is not JSON has none. -/
def googleError (text : Text) : Except AgentError Json :=
  match lib.loads text with
  | .ok document => (get document "error").map fun error => error.getD (.object [])
  | .error (.recursionError text) => .error (.other text)
  | .error _ => .ok (.object [])

/-- The message that a Google API error is reported with. -/
def errorFromGoogle (status : ℕ) (text : Text) : Except AgentError Json := do
  let error ← googleError lib text
  let message ← get error "message"
  .ok (orElse message (.string s!"AE returned HTTP {status}"))

def isRetryableStatus (status : ℕ) : Bool := decide (500 ≤ status ∨ status = 429)

/-- `_error_body` of that report: it is well formed when its hint goes with a retryable
status and its message is a text. -/
def errorBody (correlationId : Uuid) (status : ℕ) (message : Json) : ErrorBody :=
  let malformed := makeError .upstreamUnavailable
    s!"adapter returned malformed error body (HTTP {status})" correlationId (decide (500 ≤ status))
  match message with
  | .string s =>
      let stripped := stripWhitespace s.toList
      if isRetryableStatus status ∧ stripped ≠ [] ∧ stripped.length ≤ 20000 then
        makeError .upstreamUnavailable (String.ofList stripped) correlationId true
          (some "agent-engine")
      else malformed
  | _ => malformed

/-- One stream: an error of the engine or the events. -/
def streamed (correlationId : Uuid) : WireAnswer → Except AgentError (ErrorBody ⊕ List Json)
  | .raised text => .error (.other text)
  | .response status text =>
      if status = 200 then (parseStreamDocuments lib text).map .inr
      else (errorFromGoogle lib status text).map fun message =>
        .inl (errorBody correlationId status message)

/-- What the clients make of one stream: an exception of the transport, an error of the
engine, events without a text for a reply, or the reply, which is empty if there is none. -/
inductive Posted where
  | failed (exc : AgentError)
  | refused (error : ErrorBody)
  | unreadable (exc : AgentError)
  | replied (reply : Text)

/-- The reply that is looked for in the events. -/
def replyIn (events : List Json) : Except AgentError Text :=
  (finalModelReply events).bind replyText

def posted (correlationId : Uuid) (answer : WireAnswer) : Posted :=
  match streamed lib correlationId answer with
  | .error exc => .failed exc
  | .ok (.inl error) => .refused error
  | .ok (.inr events) =>
      match replyIn events with
      | .error exc => .unreadable exc
      | .ok reply => .replied reply

inductive QueryMethod where
  | listSessions | createSession | getSession
deriving DecidableEq, Repr

def QueryMethod.name : QueryMethod → Text
  | .listSessions => "list_sessions"
  | .createSession => "create_session"
  | .getSession => "get_session"

/-- The value of one `:query`, which wraps it under `output`. -/
def queried (method : QueryMethod) : WireAnswer → Except AgentError Json
  | .raised text => .error (.other text)
  | .response status text =>
      if status = 200 then do
        let body ← load lib text
        let output ← get body "output"
        match output with
        | some (.object fields) => .ok (.object fields)
        | some (.array items) => .ok (.array items)
        | _ => .ok body
      else .error (.transportError
        s!"AE {method.name} HTTP {status}: {String.ofList (text.toList.take 200)}")

/-- `str(value.get("id") or value.get("name", "").rsplit("/", 1)[-1])`. -/
def sessionIdOf (value : Json) : Except AgentError Text := do
  let id ← get value "id"
  match id.filter truthy with
  | some (.string s) => .ok s
  | some id => .ok (lib.str id)
  | none => do
      let name ← get value "name"
      match name.getD (.string "") with
      | .string s => .ok (String.ofList ((s.toList.splitOn '/').getLast?.getD []))
      | _ => .error attributeError

/-- The first of the user's sessions. -/
def listed (userId : Text) (answer : WireAnswer) : Except AgentError (Option Text) := do
  let body ← queried lib .listSessions answer
  let sessions ← get body "sessions"
  let sessions ← elements (orElse sessions (.array []))
  let own ← sessions.filterM fun session => do
    let owner ← get session "userId"
    .ok (owner.all fun owner => isText owner userId)
  match own.head? with
  | none => .ok none
  | some session => (sessionIdOf lib session).map some

/-- The id of a new session; its name is read in any case. -/
def created (answer : WireAnswer) : Except AgentError Text := do
  let body ← queried lib .createSession answer
  let name ← get body "name"
  match name.getD (.string ""), body with
  | .string s, .object fields =>
      let last := String.ofList ((s.toList.splitOn '/').getLast?.getD [])
      if (fields.lookup "id").isSome then sessionIdOf lib body
      else sessionIdOf lib (.object (("id", .string last) :: fields))
  | _, _ => .error attributeError

/-- The event history of a session. -/
def history (answer : WireAnswer) : Except AgentError (List Json) := do
  let body ← queried lib .getSession answer
  let events ← get body "events"
  let events ← elements (orElse events (.array []))
  .ok (events.filter isObject)

/-! ## Calls -/

/-- A query, of the opening of an invocation or of a reconciliation, or a post of the turn's
message or of a re-prompt. -/
inductive EngineCall where
  | query (reconciling : Bool) (method : QueryMethod) (session : Option Text)
  | post (corrective : Bool) (session message : Text)
deriving DecidableEq, Repr

abbrev Call := Waits EngineCall WireAnswer AgentError

def queryTimeoutSeconds : ℚ := 10

def query {α : Type} (reconciling : Bool) (method : QueryMethod) (session : Option Text)
    (read : WireAnswer → Except AgentError α) : Call α :=
  .call (.query reconciling method session) queryTimeoutSeconds fun answer =>
    ofExcept (read answer)

/-- List-or-create. -/
def resolveSession (reconciling : Bool) (sessionId : SessionId) : Call Text :=
  (query reconciling .listSessions none (listed lib (lib.userId sessionId))).bind fun
    | some session => .ret session
    | none => query reconciling .createSession none (created lib)

/-! ## Reviewers and synthesis -/

namespace AeReviewerClient

/-- The attempts from number `attempt` on. -/
def streamFrom (settings : Settings) (message : Text) (correlationId : Uuid) (deadlineAt : ℚ) :
    (remaining attempt : ℕ) → Option AgentError → Call (Text × ℕ)
  | 0, _, some (.callFailure error) => .raise (.callFailure error)
  | 0, _, some (.other text) => .raise (.transportError text)
  | 0, _, some (.transportError message) => .raise (.transportError message)
  | 0, _, some (.deadlineExceeded message) => .raise (.transportError message)
  | 0, _, none => .raise (.transportError "None")
  | remaining + 1, attempt, _ =>
      let retry (error : AgentError) :=
        (if remaining ≠ 0 then backoff .short attempt deadlineAt else .ret ()).bind fun _ =>
          streamFrom settings message correlationId deadlineAt remaining (attempt + 1) (some error)
      (clampedCall (.post false "" message) settings.shortCallTimeoutSeconds
        (.deadlineExceeded "request deadline budget exhausted") deadlineAt).bind fun answer =>
          match posted lib correlationId answer with
          | .failed exc => retry exc
          | .refused error =>
              if error.retryable then retry (.callFailure error) else .raise (.callFailure error)
          | .unreadable exc => .raise exc
          | .replied reply =>
              if isBlank reply then retry (.transportError "AE stream ended without a reply")
              else .ret (reply, attempt)

def invoke {ρ : Type} (settings : Settings) (message : Text)
    (parse : Text × ℕ → Except AgentError ρ) (correlationId : Uuid) (deadline : Option ℚ) :
    Call ρ :=
  (deadlineAt settings deadline).bind fun deadlineAt =>
    (streamFrom lib settings message correlationId deadlineAt settings.shortCallAttempts 1
      none).bind fun answer => ofExcept (parse answer)

end AeReviewerClient

/-! ## The facilitator -/

/-- The fields of a reply body. -/
structure Body where
  output : Json
  agentVersion : Text
  promptSha256 : Text
  correctiveReprompts : ℕ

structure AeFacilitatorClient where
  lib : Library
  wire : Wire
  settings : Settings
  version : Text

namespace AeFacilitatorClient
variable (client : AeFacilitatorClient) (request : FacilitatorInvocation)
  (correlationId : Uuid) (deadlineAt : ℚ)

def body (output : Json) : Body :=
  ⟨output, client.version, renderFacilitatorMessage client.wire request, 0⟩

/-- The recorded reply of the turn as an output, whatever is raised on the way. -/
def readRecorded (events : List Json) : Except AgentError (Option Body) := do
  match ← recoveredTurnReply events request.turnNumber with
  | none => .ok none
  | some reply => do
      let text ← replyText reply
      match client.lib.modelValidateJson text with
      | .ok output => .ok (some (client.body request (client.lib.modelDump output)))
      | .error e => .error (.other e.text)

def recover : Call (Option Body) :=
  Waits.tryCatch
    ((resolveSession client.lib true request.sessionId).bind fun session =>
      query true .getSession (some session) fun answer =>
        (history client.lib answer).bind (client.readRecorded request))
    fun _ => .ret none

/-- The attempts from number `attempt` on: the body, if there is one. -/
def attemptsFrom (session : Text) :
    (remaining attempt : ℕ) → Option AgentError → Call (Option Body × ℕ × Option AgentError)
  | 0, attempt, lastError => .ret (none, attempt - 1, lastError)
  | remaining + 1, attempt, lastError =>
      let reconcile (exc : AgentError) := (client.recover request).bind fun
        | some body => .ret (some body, attempt, some exc)
        | none =>
            (if remaining ≠ 0 then backoff .facilitator attempt deadlineAt else .ret ()).bind
              fun _ => attemptsFrom session remaining (attempt + 1) (some exc)
      (clampedCall (.post false session (renderFacilitatorMessage client.wire request))
        client.settings.facilitatorTimeoutSeconds
        (.deadlineExceeded "request deadline budget exhausted") deadlineAt).bind fun answer =>
          match posted client.lib correlationId answer with
          | .failed exc => reconcile exc
          | .refused error =>
              if error.retryable then reconcile (.callFailure error)
              else .raise (.callFailure error)
          | .unreadable exc => .raise exc
          | .replied reply =>
              if isBlank reply then
                reconcile (.transportError "AE stream ended without a reply")
              else (ofExcept (load client.lib reply)).bind fun output =>
                .ret (some (client.body request output), attempt, lastError)

/-- A reply that fails its schema is terminal. -/
def validatedReply (text : Text) : Except AgentError FacilitatorTurnOutput :=
  match client.lib.modelValidateJson text with
  | .ok output => .ok output
  | .error e => .error (.callFailure (makeError .validationError
      s!"AE reply failed schema validation: {e.errors.length} error(s)" correlationId false))

/-- One corrective round trip. -/
def correctiveTurn (session reasons : Text) : Call Text :=
  (clampedCall (.post true session (correctiveMessage reasons request.turnNumber))
    client.settings.facilitatorTimeoutSeconds
    (.deadlineExceeded "request deadline budget exhausted") deadlineAt).bind fun answer =>
      match posted client.lib correlationId answer with
      | .failed exc => .raise exc
      | .refused error => .raise (.callFailure error)
      | .unreadable exc => .raise exc
      | .replied reply =>
          if isBlank reply then
            .raise (.transportError "AE corrective stream ended without a reply")
          else .ret reply

/-- The recovered reply as an output. -/
def recoveredOutput : Call (Option FacilitatorTurnOutput) :=
  (client.recover request).bind fun
    | none => .ret none
    | some body =>
        match client.lib.modelValidateJson (client.lib.dumps body.output) with
        | .ok output => .ret (some output)
        | .error e => .raise (.other e.text)

/-- A corrective exchange: the next output to judge and the reason kept. -/
def correction (session : Text) (reason : Option Text) :
    Call (Option FacilitatorTurnOutput × Option Text) :=
  let reconcile (exc : AgentError) : Call (Option FacilitatorTurnOutput × Option Text) :=
    (client.recoveredOutput request).bind fun
      | none => .raise exc
      | some output => .ret (some output, reason)
  let corrected : Call (Option FacilitatorTurnOutput × Option Text) :=
    (client.correctiveTurn request correlationId deadlineAt session (reason.getD "")).bind
      fun reply =>
        match client.lib.modelValidateJson reply with
        | .ok output => .ret (some output, reason)
        | .error e =>
            .ret (none, some ("reply is not valid FacilitatorTurnOutput JSON: " ++ e.text))
  corrected.tryCatch fun
    | .transportError message => reconcile (.transportError message)
    | .callFailure error => reconcile (.callFailure error)
    | exc => .raise exc

/-- The re-prompt loop, with `remaining` corrections left. -/
def turnWithCorrections (session : Text) :
    ℕ → Option FacilitatorTurnOutput → Option Text → Call (FacilitatorTurnOutput × ℕ)
  | remaining, output, reason =>
      match FacilitatorClient.judge request output reason with
      | .ok output => .ret (output, correctiveMax - remaining)
      | .error reason =>
          match remaining with
          | 0 => .raise (.callFailure (makeError .delegationValidation
              (s!"no valid turn output after {correctiveMax} " ++
                "corrective re-prompts: " ++ reason.getD "None") correlationId false))
          | remaining + 1 =>
              (client.correction request correlationId deadlineAt session reason).bind fun next =>
                turnWithCorrections session remaining next.1 next.2

/-- A body is validated and its output corrected. -/
def conclude (session : Text) (body : Body) (attempts : ℕ) : Call FacilitatorResult :=
  (ofExcept (client.validatedReply correlationId (client.lib.dumps body.output))).bind
    fun output =>
      (client.turnWithCorrections request correlationId deadlineAt session correctiveMax
        (some output) none).bind fun (output, corrections) =>
          .ret ⟨output, body.agentVersion, body.promptSha256, corrections, attempts⟩

/-- What follows the attempt loop. -/
def settle (session : Text) : Option Body × ℕ × Option AgentError → Call FacilitatorResult
  | (some body, attempts, _) =>
      client.conclude request correlationId deadlineAt session body attempts
  | (none, _, some (.callFailure error)) => .raise (.callFailure error)
  | (none, _, some (.other text)) => .raise (.transportError text)
  | (none, _, some (.transportError message)) => .raise (.transportError message)
  | (none, _, some (.deadlineExceeded message)) => .raise (.transportError message)
  | (none, _, none) => .raise (.transportError "None")

def invoke (deadline : Option ℚ) : Call FacilitatorResult :=
  (AgentClients.deadlineAt client.settings deadline).bind fun deadlineAt =>
    (resolveSession client.lib false request.sessionId).bind fun session =>
      (client.attemptsFrom request correlationId deadlineAt session
        client.settings.facilitatorAttempts 1 none).bind
          (client.settle request correlationId deadlineAt session)

end AeFacilitatorClient
end EngineCalls
end StoryReview
