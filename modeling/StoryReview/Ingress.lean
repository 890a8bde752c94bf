import Mathlib.Tactic.ByContra
import Mathlib.Tactic.SplitIfs
import StoryReview.Errors

/-!
# The ingress of the tool servers

The story, artifact and report servers check a caller alike. A middleware verifies the
bearer token before a request reaches the app, each tool has its list of callers, and a
call with a field that the tool does not know is turned down before its arguments are
validated. What Google makes of a token is a parameter, and so is Python's `repr`.
-/
namespace StoryReview.Ingress

/-! ## The middleware -/

/-- Header names and values are read as Latin-1. -/
structure HttpScope where
  http : Bool := true
  path : Text
  headers : List (Text × Text)
deriving DecidableEq, Repr

def publicPaths : List Text := ["/health"]

/-- `value.split(" ", 1)`, when that has two parts. -/
def splitOnce (value : Text) : Option (Text × Text) :=
  match value.toList.dropWhile (· ≠ ' ') with
  | [] => none
  | _ :: rest => some (String.ofList (value.toList.takeWhile (· ≠ ' ')), String.ofList rest)

/-- The token of the first `authorization` header that carries one. -/
def bearerToken : List (Text × Text) → Option Text
  | [] => none
  | (name, value) :: headers =>
      if name = "authorization" then
        match splitOnce value with
        | some (scheme, token) =>
            if scheme.toLower = "bearer" then some token else bearerToken headers
        | none => bearerToken headers
      else bearerToken headers

/-- The middleware answers by itself, or hands the request on with its principal. -/
inductive Entry where
  | respond (status : ℕ) (error : Text)
  | app (principal : Option Text)
deriving DecidableEq, Repr

/-- `verifier token audience` is the email of a token that verifies. -/
def idTokenAuthMiddleware (verifier : Text → Text → Option Text) (audience : Text)
    (scope : HttpScope) : Entry :=
  if scope.http = false then .app none
  else if scope.path ∈ publicPaths then .app none
  else if audience = "" then .respond 503 "auth audience is not configured"
  else
    match bearerToken scope.headers with
    | none => .respond 401 "missing bearer token"
    | some token =>
        match verifier token audience with
        | none => .respond 401 "invalid token"
        | some email => .app (some email)

/-- How a server is deployed; auth is disabled in the local profile only. -/
structure AuthSettings where
  authDisabled : Bool
  audience : Text
  verifier : Text → Text → Option Text

/-- `build_app` leaves the middleware out where auth is disabled. -/
def AuthSettings.enter (settings : AuthSettings) (scope : HttpScope) : Entry :=
  if settings.authDisabled then .app none
  else idTokenAuthMiddleware settings.verifier settings.audience scope

/-! ## Errors and allowlists -/

/-- `_error` without a retry hint. -/
def toolError (code : ErrorCode) (message : Text) (correlationId : Uuid) : ErrorBody :=
  ⟨code, message, none, correlationId, false, none, rfl⟩

def validationError (message : Text) (correlationId : Uuid) : ErrorBody :=
  toolError .validationError message correlationId

def unauthenticated (correlationId : Uuid) : ErrorBody :=
  toolError .unauthenticated "no verified caller principal" correlationId

def forbidden (repr : Text → Text) (caller : Text) (correlationId : Uuid) : ErrorBody :=
  toolError .forbidden s!"caller {repr caller} is not authorized for this tool" correlationId

/-- No allowlist where auth is disabled; with one, an absent principal fails. -/
def authorize (repr : Text → Text) (allowed : Option (Text → Bool)) (principal : Option Text)
    (correlationId : Uuid) : Except ErrorBody Unit :=
  match allowed, principal with
  | none, _ => .ok ()
  | some _, none => .error (unauthenticated correlationId)
  | some allowed, some principal =>
      if allowed principal then .ok () else .error (forbidden repr principal correlationId)

theorem authorize_error {repr : Text → Text} {allowed : Option (Text → Bool)}
    {principal : Option Text} {correlationId : Uuid} {e : ErrorBody}
    (h : authorize repr allowed principal correlationId = .error e) :
    e.code = .unauthenticated ∨ e.code = .forbidden := by
  unfold authorize at h
  split at h
  · cases h
  · cases h
    exact .inl rfl
  · split_ifs at h
    cases h
    exact .inr rfl

/-- With an allowlist only a verified caller on it gets through. -/
theorem authorize_ok {repr : Text → Text} {allowed : Text → Bool} {principal : Option Text}
    {correlationId : Uuid} (h : authorize repr (some allowed) principal correlationId = .ok ()) :
    ∃ caller ∈ principal, allowed caller = true := by
  cases principal with
  | none => cases h
  | some caller =>
      refine ⟨caller, rfl, ?_⟩
      by_contra hnot
      rw [authorize, if_neg hnot] at h
      cases h

/-! ## Arguments -/

/-- What a call gives for a field: nothing, null, a value of the field's type, or another
one. -/
inductive Argument (α : Type) where
  | absent
  | null
  | value (a : α)
  | other
deriving DecidableEq

namespace Argument
variable {α : Type}

/-- The call names the field. -/
def isGiven : Argument α → Bool
  | .absent => false
  | _ => true

/-- `args.get(name) is not None`. -/
def isSet : Argument α → Bool
  | .value _ | .other => true
  | _ => false

def required : Argument α → Option α
  | .value a => some a
  | _ => none

theorem required_eq_some {argument : Argument α} {a : α} :
    argument.required = some a ↔ argument = .value a := by
  cases argument <;> simp [required]

/-- A field that may be `None`, which is its default. -/
def optional : Argument α → Option (Option α)
  | .value a => some (some a)
  | .absent | .null => some none
  | .other => none

def getD (default : α) : Argument α → Option α
  | .value a => some a
  | .absent => some default
  | _ => none

end Argument

/-- The given names of `raw` that the tool does not accept, sorted. -/
def unknownFields (raw fields : List Text) : List Text :=
  (raw.filter fun name => decide (name ∉ fields)).mergeSort fun a b => decide (a ≤ b)

def rejectUnknownFields (raw fields : List Text) (correlationId : Uuid) :
    Except ErrorBody Unit :=
  let unknown := unknownFields raw fields
  let accepted := fields.mergeSort fun a b => decide (a ≤ b)
  if unknown = [] then .ok ()
  else .error (validationError ("unknown field(s) " ++ ", ".intercalate unknown ++
    "; accepted: " ++ ", ".intercalate accepted) correlationId)

/-- `_dispatch` up to its handler: the caller, the fields, the input model. `invalid` is
what the model says of arguments it does not accept. -/
def vet {ρ : Type} (authorized : Except ErrorBody Unit) (raw fields : List Text)
    (validated : Option ρ) (invalid : Text) (correlationId : Uuid) : Except ErrorBody ρ := do
  authorized
  rejectUnknownFields raw fields correlationId
  match validated with
  | some request => .ok request
  | none => .error (validationError invalid correlationId)

theorem vet_ok {ρ : Type} {authorized : Except ErrorBody Unit} {raw fields : List Text}
    {validated : Option ρ} {invalid : Text} {correlationId : Uuid} {request : ρ}
    (h : vet authorized raw fields validated invalid correlationId = .ok request) :
    authorized = .ok () ∧ validated = some request := by
  unfold vet at h
  cases authorized with
  | error e => cases h
  | ok _ =>
      cases hfields : rejectUnknownFields raw fields correlationId with
      | error e =>
          rw [hfields] at h
          cases h
      | ok _ =>
          rw [hfields] at h
          cases validated with
          | none => cases h
          | some r =>
              cases h
              exact ⟨rfl, rfl⟩

end StoryReview.Ingress
