import StoryReview.EngineHistories
import StoryReview.FacilitatorAdapter
import StoryReview.Interleaving

/-!
# Stored turn results

The facilitator adapter looks an invocation up, runs the model if nothing is stored,
and saves what came out. The lookup, every model call and the save are steps of their
own, and any number of requests overlap; the save is first-wins. The in-memory store
and the table of the Postgres one behave alike, and a call to either may fail before or
after it took effect.
-/
namespace StoryReview.AgentKit
open Program

/-- Exactly the responses the model accepts. -/
structure FacilitatorResponse where
  output : FacilitatorTurnOutput
  agentVersion : Text
  promptSha256 : Text
  correctiveReprompts : ℕ := 0
  correctiveReprompts_le : correctiveReprompts ≤ 2 := by decide
deriving DecidableEq, Repr

abbrev ResultKey := SessionId × InvocationId

/-- The conversation of each session, and the turn-result store. -/
structure Adapter where
  conversations : SessionId → List Text := fun _ => []
  results : ResultKey → Option FacilitatorResponse := fun _ => none

/-- How a call to the store goes: it may fail, or take effect and be cut off. -/
inductive StoreReply where
  | done | failed | lost
deriving DecidableEq, Repr

structure AdapterChoice where
  model : Model
  store : StoreReply := .done

inductive AppException where
  | turn (e : AdapterException)
  | store
  | response
deriving DecidableEq, Repr

abbrev Endpoint := Program Adapter AdapterChoice AppException

def Adapter.setConversation (session : SessionId) (s : Adapter) (sent : List Text) : Adapter :=
  { s with conversations := Function.update s.conversations session sent }

/-- The first response under a key stays. -/
def Adapter.setDefault (s : Adapter) (key : ResultKey) (response : FacilitatorResponse) :
    Adapter :=
  { s with
    results := Function.update s.results key (some ((s.results key).getD response)) }

def lookup (key : ResultKey) : Endpoint (Option FacilitatorResponse) :=
  .atomicExcept fun c s =>
    match c.store with
    | .done => (.ok (s.results key), s)
    | _ => (.error .store, s)

def save (key : ResultKey) (response : FacilitatorResponse) : Endpoint Unit :=
  .atomicExcept fun c s =>
    match c.store with
    | .done => (.ok (), s.setDefault key response)
    | .failed => (.error .store, s)
    | .lost => (.error .store, s.setDefault key response)

/-! ## The endpoints -/

structure FacilitatorApp where
  slug : Text
  parser : ReplyParser FacilitatorTurnOutput
  wire : Wire
  agentVersion : Text
  promptSha256 : Text

inductive JsonResponse where
  | content (response : FacilitatorResponse)
  | error (status : ℕ) (body : ErrorBody)
deriving DecidableEq, Repr

def errorResponse (app : FacilitatorApp) (status : ℕ) (code : ErrorCode) (message : Text)
    (correlationId : Uuid) (retryable : Bool) : JsonResponse :=
  .error status (makeError code (String.ofList (message.toList.take 2000)) correlationId
    retryable (some app.slug))

/-- `str(exc)`; of an exception of a library, what it is. -/
def AppException.text : AppException → Text
  | .turn (.validationError e) => e.text
  | .turn (.turnInvalid e) => e.reason
  | .turn (.delegationValidation message) => message
  | .turn .loadsError => "value error"
  | .turn .modelFailed => "model error"
  | .store => "database error"
  | .response => "validation error"

/-- The identifiers as the path spells them. -/
structure ResultPath where
  sessionId : Text
  invocationId : Text
deriving DecidableEq, Repr

/-- The reconciliation lookup. -/
def turnResult (app : FacilitatorApp) (key : ResultKey) (path : ResultPath)
    (correlationId : Uuid) : Endpoint JsonResponse := do
  match ← lookup key with
  | some stored => pure (.content stored)
  | none => pure (errorResponse app 404 .sessionNotFound
      (s!"no completed turn for invocation {path.invocationId} " ++
        s!"in session {path.sessionId}") correlationId false)

/-- The loop over the model, in the session's conversation. -/
def runTurn (app : FacilitatorApp) (parsed : FacilitatorRequest) :
    Endpoint (FacilitatorTurnOutput × ℕ) :=
  Program.tryCatch
    ((turnWithCorrections app.parser parsed.toFacilitatorInvocation app.wire).zoom
      (fun s : Adapter => s.conversations parsed.sessionId)
      (Adapter.setConversation parsed.sessionId) AdapterChoice.model)
    fun exc => .raise (.turn exc)

def FacilitatorRequest.key (parsed : FacilitatorRequest) : ResultKey :=
  (parsed.sessionId, parsed.invocationId)

/-- The body of `POST /turn`, before errors are mapped. -/
def answerTurn (app : FacilitatorApp) (parsed : FacilitatorRequest) :
    Endpoint FacilitatorResponse := do
  match ← lookup (FacilitatorRequest.key parsed) with
  | some stored => pure stored
  | none => do
      let (output, corrections) ← runTurn app parsed
      if h : corrections ≤ 2 then do
        let response : FacilitatorResponse :=
          ⟨output, app.agentVersion, app.promptSha256, corrections, h⟩
        save (FacilitatorRequest.key parsed) response
        pure response
      else .raise .response

def turn (app : FacilitatorApp) (parsed : FacilitatorRequest) (correlationId : Uuid) :
    Endpoint JsonResponse :=
  Program.tryCatch (do
    let response ← answerTurn app parsed
    pure (.content response)) fun
    | .turn (.delegationValidation message) =>
        .ret (errorResponse app 422 .delegationValidation message correlationId false)
    | exc => .ret (errorResponse app 503 .upstreamUnavailable
        ("model call failed: " ++ exc.text) correlationId true)

/-! ## Overlapping requests -/

inductive AdapterCall where
  | post (parsed : FacilitatorRequest) (correlationId : Uuid)
  | get (key : ResultKey) (path : ResultPath) (correlationId : Uuid)

def AdapterCall.key : AdapterCall → ResultKey
  | .post parsed _ => FacilitatorRequest.key parsed
  | .get key _ _ => key

def AdapterCall.program (app : FacilitatorApp) : AdapterCall → Endpoint JsonResponse
  | .post parsed correlationId => turn app parsed correlationId
  | .get key path correlationId => turnResult app key path correlationId

abbrev Trace := List (Adapter × Adapter)

def system (app : FacilitatorApp) :
    System AdapterCall Trace Adapter AdapterChoice AppException JsonResponse :=
  .tracing (AdapterCall.program app)

/-- Nothing stored is lost or changed. -/
def Keeps (s t : Adapter) : Prop :=
  ∀ key stored, s.results key = some stored → t.results key = some stored

theorem keeps_setDefault (s : Adapter) (key : ResultKey) (response : FacilitatorResponse) :
    Keeps s (s.setDefault key response) := by
  intro key' stored hstored
  simp only [Adapter.setDefault, Function.update_apply]
  split_ifs with hkey
  · rw [← hkey, hstored, Option.getD_some]
  · exact hstored

/-- The request found nothing stored when it looked, and something when it saved. -/
def Overtaken (key : ResultKey) (g : Trace) : Prop :=
  ∃ last rest first, g = last :: rest ∧ (last.1.results key).isSome ∧
    rest.getLast? = some first ∧ first.1.results key = none

/-- The request's lookup came when nothing was stored. -/
def FoundNone (key : ResultKey) (g : Trace) : Prop :=
  ∃ first, g.getLast? = some first ∧ first.1.results key = none

/-- The response is the stored one, or that of a request that was overtaken. -/
def Carries (request : AdapterCall) (g : Trace) (s : Adapter) (response : FacilitatorResponse) :
    Prop :=
  s.results request.key = some response ∨
    (∃ parsed correlationId, request = .post parsed correlationId) ∧ Overtaken request.key g

/-- A request relies on the store to keep what it has, and keeps it. -/
def contract : Contract AdapterCall Trace Adapter AppException JsonResponse where
  inv := fun _ => True
  rely := fun _ _ => Keeps
  guar := fun _ _ => Keeps
  post := fun request g r s => ∀ response, r = .ok (.content response) →
    Carries request g s response

abbrev Meets {α : Type} (p : Endpoint α) (Q : α → Trace → Adapter → Prop) (g : Trace)
    (s : Adapter) : Prop :=
  p.rg (fun _ => True) (fun g s t => (s, t) :: g) (fun _ => Keeps) (fun _ => Keeps) Q
    (fun _ _ _ => True) g s

section Meets
variable {Q : Option FacilitatorResponse → Trace → Adapter → Prop} {g : Trace} {s : Adapter}

theorem meets_lookup {key : ResultKey}
    (h : ∀ t, Keeps s t → Q (t.results key) ((t, t) :: g) t) : Meets (lookup key) Q g s := by
  unfold lookup
  refine (rg_atomicExcept _).mpr fun c t hc ht => ?_
  cases c.store with
  | done =>
      refine ⟨fun _ _ h => h, fun found hfound => ?_, fun _ _ => trivial⟩
      cases hfound
      exact h t ht
  | failed => exact ⟨fun _ _ h => h, nofun, fun _ _ => trivial⟩
  | lost => exact ⟨fun _ _ h => h, nofun, fun _ _ => trivial⟩

theorem meets_save {key : ResultKey} {response : FacilitatorResponse}
    {Q : Unit → Trace → Adapter → Prop}
    (h : ∀ t, Q () ((t, t.setDefault key response) :: g) (t.setDefault key response)) :
    Meets (save key response) Q g s := by
  unfold save
  refine (rg_atomicExcept _).mpr fun c t hc ht => ?_
  cases c.store with
  | done => exact ⟨keeps_setDefault t key response, fun _ _ => h t, fun _ _ => trivial⟩
  | failed => exact ⟨fun _ _ h => h, nofun, fun _ _ => trivial⟩
  | lost => exact ⟨keeps_setDefault t key response, nofun, fun _ _ => trivial⟩

/-- The model runs without touching the store. -/
theorem moves_runTurn {A : AdapterChoice → Prop} (app : FacilitatorApp)
    (parsed : FacilitatorRequest) :
    (runTurn app parsed).Moves A fun s t => t.results = s.results := by
  refine moves_tryCatch ?_ fun _ => moves_raise _
  have hkeep : ∀ s sent, (Adapter.setConversation parsed.sessionId s sent).results =
      s.results := fun _ _ => rfl
  exact moves_zoom hkeep _

end Meets

theorem meets_answerTurn (app : FacilitatorApp) (parsed : FacilitatorRequest)
    (correlationId : Uuid) (s : Adapter) :
    Meets (answerTurn app parsed)
      (fun response g s => Carries (.post parsed correlationId) g s response) [] s := by
  unfold answerTurn
  simp only [Meets, Program.bind_eq, Program.pure_eq, rg_bind]
  refine meets_lookup fun t ht => ?_
  cases hfound : t.results (FacilitatorRequest.key parsed) with
  | some stored => exact .inl hfound
  | none =>
      simp only [rg_bind]
      -- what the lookup found is kept in mind through the model's run
      have hrun : Meets (runTurn app parsed)
          (fun _ g _ => FoundNone (FacilitatorRequest.key parsed) g) [(t, t)] t := by
        refine rg_mono (Moves.rg (J := fun g _ => FoundNone (FacilitatorRequest.key parsed) g)
          (moves_runTurn app parsed) (fun _ _ _ h _ => h) ?_ ⟨(t, t), rfl, hfound⟩)
          (fun _ _ _ h => h) fun _ _ _ _ => trivial
        rintro g u v ⟨first, hfirst, hnone⟩ hsame
        refine ⟨fun _ _ h => hsame ▸ h, first, ?_, hnone⟩
        rw [List.getLast?_cons, hfirst, Option.getD_some]
      refine rg_mono hrun (fun result g u hmissed => ?_) fun _ _ _ _ => trivial
      split_ifs with hle
      · simp only [rg_bind]
        refine meets_save fun v => ?_
        obtain ⟨first, hfirst, hnone⟩ := hmissed
        cases hstored : v.results (FacilitatorRequest.key parsed) with
        | none => exact .inl (by simp [Adapter.setDefault, AdapterCall.key, hstored])
        | some stored =>
            exact .inr ⟨⟨parsed, correlationId, rfl⟩, _, g, first, rfl, by
              simp [AdapterCall.key, hstored], hfirst, hnone⟩
      · trivial

theorem contract_sound (app : FacilitatorApp) : contract.Sound (system app) .free where
  rely_refl := fun _ _ _ _ _ _ h => h
  rely_trans := fun _ _ _ _ _ h h' key stored hstored => h' key stored (h key stored hstored)
  starts := by
    intro s running request _ _
    cases request with
    | post parsed correlationId =>
        refine (rg_tryCatch _ _).mpr ((rg_bind _ _).mpr (rg_mono
          (meets_answerTurn app parsed correlationId s) (fun response g t h => ?_)
          fun exc g t _ => ?_))
        · intro response' heq
          cases heq
          exact h
        · split
          · exact nofun
          · exact nofun
    | get key path correlationId =>
        refine (rg_bind _ _).mpr (rg_mono (meets_lookup (Q := fun found g t =>
          found = t.results key) fun t _ => rfl) (fun found g t hfound => ?_)
          fun _ _ _ _ => nofun)
        cases found with
        | none => exact nofun
        | some stored =>
            intro response heq
            cases heq
            exact .inl hfound.symm
  inv := fun _ _ _ _ _ _ _ => trivial
  compatible := fun _ _ _ _ _ _ h _ _ => h
  post := fun _ _ _ _ _ _ h _ _ _ hpost response heq =>
    (hpost response heq).imp_left (h _ _)

theorem outcome_program (app : FacilitatorApp) (request : AdapterCall) :
    ((system app).program request).outcome = none := by
  cases request <;> rfl

end StoryReview.AgentKit

namespace StoryReview.Scenario
open AgentKit

/-- Two texts are JSON documents of the schema. -/
def twoParser (text text' : Text) (output output' : FacilitatorTurnOutput) :
    ReplyParser FacilitatorTurnOutput where
  Json := Bool
  loads t := if t = text then .value true
    else if t = text' then .value false
    else .notJson "Expecting value: line 1 column 1 (char 0)"
  dumps v := if v then text else text'
  modelValidate v := .ok (if v then output else output')
  modelValidateJson t := if t = text then .ok output
    else if t = text' then .ok output'
    else .error ⟨[("", "Invalid JSON: expected value at line 1 column 1")], "1 validation error"⟩
  modelDump v := decide (v = output)

def helloText : Text := "\x7b\"reply\": \"Hello\", \"delegation\": \x7b\x7d\x7d"

def welcomeText : Text := "\x7b\"reply\": \"Welcome\", \"delegation\": \x7b\x7d\x7d"

def hello : FacilitatorTurnOutput := replies "Hello"

def welcome : FacilitatorTurnOutput := replies "Welcome"

def app : FacilitatorApp where
  slug := "facilitator"
  parser := twoParser helloText welcomeText hello welcome
  wire := wire
  agentVersion := "facilitator-7d1b9bd"
  promptSha256 := "5feceb66ffc86f38d952786c6d696c79c2dbc239dd4e91b46729d73a27fb57e9"

/-- The model answers with the text. -/
def answering (text : Text) : AdapterChoice := ⟨fun _ => some text, .done⟩

def respond (output : FacilitatorTurnOutput) : FacilitatorResponse :=
  ⟨output, app.agentVersion, app.promptSha256, 0, by decide⟩

end StoryReview.Scenario
