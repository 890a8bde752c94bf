import StoryReview.OneReview
import StoryReview.TurnKeys
import StoryReview.Lifecycle
import StoryReview.LeaseRaces
import StoryReview.ClaimRaces
import StoryReview.Absorbing
import StoryReview.Recreations
import StoryReview.OpeningTurn
import StoryReview.RunCoherence
import StoryReview.Completion
import StoryReview.Replays
import StoryReview.Recordings
import StoryReview.Descriptors
import StoryReview.Catalog
import StoryReview.TurnBackEnds
import StoryReview.ReportBackEnds
import StoryReview.Reconciliation
import StoryReview.TurnResults
import StoryReview.SaveRaces
import StoryReview.RenderRaces
import StoryReview.Readability
import StoryReview.Isolation
import StoryReview.OutputFenceLaws
import StoryReview.IssueCatalogs
import StoryReview.OpeningSettlements
import StoryReview.LineageReads
import StoryReview.WebKeys
import StoryReview.Serving
import StoryReview.Resumption
import StoryReview.SessionPaging
import StoryReview.Deadlines
import StoryReview.EngineFailures
import StoryReview.LockHints
import StoryReview.ContextLevels
import StoryReview.ContextStories
import StoryReview.ReportMarkdown
import StoryReview.CorrelationHeaders
import StoryReview.AdapterMessages
import StoryReview.LaterFinalizations
import StoryReview.Reinvocations
import StoryReview.AuditErasure
import StoryReview.AuditRequests
import StoryReview.LeastPrivilege
import StoryReview.Debts
import StoryReview.SessionTable
import StoryReview.ProcessingStages
import StoryReview.ChangingPages
