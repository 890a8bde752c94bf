import StoryReview.PairedRuns
import StoryReview.SessionPaging

/-!
# Runs without their correlation ids

A correlation id is stored in turn records and echoed in error bodies, and nothing reads it
back. With the ids erased, from its world and from what it raises, a request runs as the one
whose id is zero, statement by statement.
-/
namespace StoryReview
open Program Flows RecordsStore

/-! ## Erasure -/

def ErrorBody.erase (e : ErrorBody) : ErrorBody := { e with correlationId := 0 }

def TurnRecord.erase (t : TurnRecord) : TurnRecord := { t with correlationId := 0 }

def TurnRow.erase (row : TurnRow) : TurnRow := { row with record := row.record.erase }

def World.erase (w : World) : World :=
  { w with turns := fun sessionId => (w.turns sessionId).map TurnRow.erase }

/-- The error body that an exception carries. -/
def PyException.body : PyException → Option ErrorBody
  | .apiError e => some e.error
  | .finalizationFailed e _ => some e.error
  | .mcpCallFailure e => some e
  | .agentCallFailure e => some e
  | _ => none

/-- The exceptions differ at most in the id of their error body. -/
inductive PyException.Alike : PyException → PyException → Prop
  | apiError (statusCode : ℕ) {b b' : ErrorBody} (h : b.erase = b'.erase) :
      Alike (.apiError ⟨statusCode, b⟩) (.apiError ⟨statusCode, b'⟩)
  | finalizationFailed (statusCode : ℕ) (retryable : Bool) {b b' : ErrorBody}
      (h : b.erase = b'.erase) : Alike (.finalizationFailed ⟨statusCode, b⟩ retryable)
        (.finalizationFailed ⟨statusCode, b'⟩ retryable)
  | mcpCallFailure {b b' : ErrorBody} (h : b.erase = b'.erase) :
      Alike (.mcpCallFailure b) (.mcpCallFailure b')
  | agentCallFailure {b b' : ErrorBody} (h : b.erase = b'.erase) :
      Alike (.agentCallFailure b) (.agentCallFailure b')
  | bare {e : PyException} (h : e.body = none) : Alike e e

theorem PyException.Alike.refl (e : PyException) : e.Alike e := by
  cases e with
  | apiError error => exact .apiError _ rfl
  | finalizationFailed error retryable => exact .finalizationFailed _ _ rfl
  | mcpCallFailure error => exact .mcpCallFailure rfl
  | agentCallFailure error => exact .agentCallFailure rfl
  | _ => exact .bare rfl

/-- `q` does in the erased world what `p` does, and returns what `k` makes of its result. -/
def Erases {α β : Type} (k : α → β) (p : Orchestration α) (q : Orchestration β) : Prop :=
  ∀ w, p.Both (fun _ => True) (fun s t => t = World.erase s)
    (fun a b s t => b = k a ∧ t = s.erase) (fun e e' s t => e.Alike e' ∧ t = s.erase) q w w.erase

namespace Erases
variable {α β γ δ : Type} {k : α → β} {k' : γ → δ}

theorem ret {a : α} {b : β} (h : b = k a) : Erases k (.ret a) (.ret b) :=
  fun _ => ⟨h, rfl⟩

theorem raise {e e' : PyException} (h : e.Alike e') : Erases k (.raise e) (.raise e') :=
  fun _ => ⟨h, rfl⟩

theorem bind {p : Orchestration α} {q : Orchestration β} {f : α → Orchestration γ}
    {g : β → Orchestration δ} (h : Erases k p q) (hfg : ∀ a, Erases k' (f a) (g (k a))) :
    Erases k' (p.bind f) (q.bind g) := by
  refine fun w => Both.bind (h w) fun a b s t hab => ?_
  obtain ⟨rfl, rfl⟩ := hab
  exact hfg a s

theorem tryCatch {p : Orchestration α} {q : Orchestration β} {f : PyException → Orchestration α}
    {g : PyException → Orchestration β} (h : Erases k p q)
    (hfg : ∀ e e', e.Alike e' → Erases k (f e) (g e')) :
    Erases k (Program.tryCatch p f) (Program.tryCatch q g) := by
  refine fun w => Both.tryCatch (h w) fun e e' s t hee => ?_
  obtain ⟨he, rfl⟩ := hee
  exact hfg e e' he s

theorem ensure {p : Orchestration α} {q : Orchestration β} {r r' : Orchestration Unit}
    (h : Erases k p q) (hr : Erases id r r') :
    Erases k (Program.ensure p r) (Program.ensure q r') :=
  .bind (.tryCatch h fun _ _ he => .bind hr fun _ => .raise he) fun _ =>
    .bind hr fun _ => .ret rfl

theorem traverse {f : γ → Orchestration α} {g : γ → Orchestration α}
    (hfg : ∀ x, Erases id (f x) (g x)) (xs : List γ) :
    Erases id (Program.traverse f xs) (Program.traverse g xs) := by
  induction xs with
  | nil => exact .ret rfl
  | cons x xs ih => exact .bind (hfg x) fun _ => .bind ih fun _ => .ret rfl

theorem statement {f : World → α × World} {g : World → β × World}
    (h : ∀ w, g w.erase = (k (f w).1, (f w).2.erase)) :
    Erases k (StoryReview.statement f) (StoryReview.statement g) := by
  refine fun w => both_atomic fun c _ _ => ?_
  have hstep := h (w.tick c)
  exact ⟨congrArg Prod.snd hstep, congrArg Prod.fst hstep, congrArg Prod.snd hstep⟩

theorem execute {f g : World → World} (h : ∀ w, g w.erase = (f w).erase) :
    Erases id (StoryReview.execute f) (StoryReview.execute g) :=
  .statement fun w => congrArg (Prod.mk ()) (h w)

theorem query {f : World → α} {g : World → β} (h : ∀ w, g w.erase = k (f w)) :
    Erases k (StoryReview.query f) (StoryReview.query g) :=
  .statement fun w => congrArg (Prod.mk · w.erase) (h w)

theorem now : Erases id StoryReview.now StoryReview.now := .query fun _ => rfl

theorem ofExcept {r : Except PyException α} {r' : Except PyException β}
    (hok : ∀ a, r = .ok a → r' = .ok (k a))
    (herror : ∀ e, r = .error e → ∃ e', r' = .error e' ∧ e.Alike e') :
    Erases k (Program.ofExcept r) (Program.ofExcept r') := by
  cases r with
  | ok a =>
      rw [hok a rfl]
      exact .ret rfl
  | error e =>
      obtain ⟨e', he', hee⟩ := herror e rfl
      rw [he']
      exact .raise hee

theorem atomicExcept {f g : Choice → World → Except PyException α × World}
    (h : ∀ c w, (g c w.erase).2 = (f c w).2.erase ∧
      Erases id (Program.ofExcept (f c w).1) (Program.ofExcept (g c w.erase).1)) :
    Erases id (.atomicExcept f) (.atomicExcept g) := by
  intro w c _ _
  obtain ⟨hworld, hanswer⟩ := h c w
  refine ⟨hworld, ?_⟩
  have hboth := hanswer (f c w).2
  rw [← hworld] at hboth
  revert hboth
  cases (f c w).1 <;> cases (g c w.erase).1 <;> exact id

theorem pureCall (answer : Choice → α) (exception : CallFailure → PyException) :
    Erases id (StoryReview.pureCall answer exception)
      (StoryReview.pureCall answer exception) := by
  refine .atomicExcept fun c w => ?_
  cases c.failure with
  | none => exact ⟨rfl, .ret rfl⟩
  | some failure => exact ⟨rfl, .raise (.refl _)⟩

theorem storeCall {run : RunId} {tool : ArtifactId → Time → StoreProgram α}
    {errorFor errorFor' : StoreException → ErrorBody}
    (h : ∀ e, (errorFor e).erase = (errorFor' e).erase) :
    Erases id (StoryReview.storeCall run tool errorFor)
      (StoryReview.storeCall run tool errorFor') := by
  refine .atomicExcept fun c w => ?_
  have hlost : ∀ (lost : List ℕ) (v : World),
      lost.foldl (fun w n => w.attempt run tool n) v.erase =
        (lost.foldl (fun w n => w.attempt run tool n) v).erase := by
    intro lost
    induction lost with
    | nil => exact fun _ => rfl
    | cons n lost ih => exact fun v => ih (v.attempt run tool n)
  have hticked := hlost c.lost (w.tick c)
  cases c.failure with
  | some failure => exact ⟨hticked, .raise (.refl _)⟩
  | none =>
      dsimp only
      rw [show w.erase.tick c = (w.tick c).erase from rfl, hticked]
      generalize c.lost.foldl _ _ = v
      refine ⟨rfl, ?_⟩
      show Erases id (Program.ofExcept (((tool ⟨v.fresh⟩ v.clock).run _ (v.objects run)).1.mapError _))
        (Program.ofExcept (((tool ⟨v.fresh⟩ v.clock).run _ (v.objects run)).1.mapError _))
      cases ((tool ⟨v.fresh⟩ v.clock).run (fun _ => ()) (v.objects run)).1 with
      | ok answer => exact .ret rfl
      | error e => exact .raise (.mcpCallFailure (h e))

end Erases

/-! ## Tables -/

section Tables
variable {sessionId : SessionId} {w : World}

end Tables

section Statements
variable (sessionId : SessionId)

end Statements
end StoryReview
