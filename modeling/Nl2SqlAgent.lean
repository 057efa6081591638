import Nl2SqlAgent.Lib.Machine
import Nl2SqlAgent.Lib.Interleave
import Nl2SqlAgent.Lib.PyText
import Nl2SqlAgent.Lib.Json
import Nl2SqlAgent.SafetyRules
import Nl2SqlAgent.AgentState
import Nl2SqlAgent.SqlExecutor
import Nl2SqlAgent.Checks
import Nl2SqlAgent.Generator
import Nl2SqlAgent.Voter
import Nl2SqlAgent.Refiner
import Nl2SqlAgent.AgentGraph
import Nl2SqlAgent.Reporting
import Nl2SqlAgent.Correction
import Nl2SqlAgent.WorkerConsumer
import Nl2SqlAgent.TaskStore
import Nl2SqlAgent.JavaTaskState
import Nl2SqlAgent.JavaWriteBack
import Nl2SqlAgent.TaskThreads
import Nl2SqlAgent.TaskEffects
import Nl2SqlAgent.StatusLegality
import Nl2SqlAgent.FeedbackDelivery
import Nl2SqlAgent.TokenStream
import Nl2SqlAgent.GatewaySubmit
import Nl2SqlAgent.SubmitBacked
import Nl2SqlAgent.TaskLifecycle
import Nl2SqlAgent.TaskSuccess
import Nl2SqlAgent.IdempotentReplay
import Nl2SqlAgent.CacheProvenance
import Nl2SqlAgent.CacheFreshness
import Nl2SqlAgent.DatabaseWhitelist
import Nl2SqlAgent.PolicyInterceptor
import Nl2SqlAgent.TaskStream
import Nl2SqlAgent.StreamIsolation
import Nl2SqlAgent.OwnerLifetime
import Nl2SqlAgent.TaskEvents
import Nl2SqlAgent.TaskPhases
import Nl2SqlAgent.TaskProgress
import Nl2SqlAgent.NoOrphans
import Nl2SqlAgent.Redelivery
import Nl2SqlAgent.WriteBehind
import Nl2SqlAgent.StringParity
import Nl2SqlAgent.Lib.Watch
import Nl2SqlAgent.PolicyCache
import Nl2SqlAgent.RateLimiter
import Nl2SqlAgent.RecorderFlush
import Nl2SqlAgent.StreamParity
import Nl2SqlAgent.RequestParity
import Nl2SqlAgent.Lib.Purge
import Nl2SqlAgent.LimiterIsolation
import Nl2SqlAgent.CancelScope
import Nl2SqlAgent.StaleScan
import Nl2SqlAgent.RetryLoop
import Nl2SqlAgent.AttemptHeader
import Nl2SqlAgent.RefinerSource
import Nl2SqlAgent.SchemaExpansion
import Nl2SqlAgent.TokenAccounting
import Nl2SqlAgent.SemanticCache
import Nl2SqlAgent.StaleFallback
import Nl2SqlAgent.SampleConservation
import Nl2SqlAgent.FeedbackRounds
import Nl2SqlAgent.StoredHistory
import Nl2SqlAgent.ConversationTurns
import Nl2SqlAgent.FeedbackStart
import Nl2SqlAgent.ResultReports
import Nl2SqlAgent.Metrics
import Nl2SqlAgent.GoldCache
import Nl2SqlAgent.EvidenceFeedback
import Nl2SqlAgent.HardTimeouts
import Nl2SqlAgent.Lib.PyDict
import Nl2SqlAgent.ConfigResults
import Nl2SqlAgent.Checkpoint
import Nl2SqlAgent.ResumedReport
import Nl2SqlAgent.EvalThread
import Nl2SqlAgent.EvalTasks
import Nl2SqlAgent.ConcurrentSubmit
import Nl2SqlAgent.ApiRateLimit
import Nl2SqlAgent.FkGraph
import Nl2SqlAgent.SchemaContext
import Nl2SqlAgent.GraphCache
import Nl2SqlAgent.Lib.Sorting
import Nl2SqlAgent.RowMultisets
import Nl2SqlAgent.Lib.PyRepr
import Nl2SqlAgent.RowHash
import Nl2SqlAgent.MajorityVote
import Nl2SqlAgent.CandidateDraw
import Nl2SqlAgent.EscapeHatch
import Nl2SqlAgent.GuardVerdicts
import Nl2SqlAgent.AstValidator
import Nl2SqlAgent.Lib.PyWords
import Nl2SqlAgent.Lib.SqlLexer
import Nl2SqlAgent.Lib.SqlFolding
import Nl2SqlAgent.Deduplication
import Nl2SqlAgent.HybridSearch
import Nl2SqlAgent.ColumnPruning
import Nl2SqlAgent.ErrorClassifier
import Nl2SqlAgent.SchemaReferences
import Nl2SqlAgent.ExtractSql
import Nl2SqlAgent.CappedExecution
import Nl2SqlAgent.LegacyPipeline
import Nl2SqlAgent.AfterLoop
import Nl2SqlAgent.ReviewMerge
import Nl2SqlAgent.ReviewedSchema
import Nl2SqlAgent.FullStream
import Nl2SqlAgent.SharedCache
import Nl2SqlAgent.StoredTexts
import Nl2SqlAgent.Lib.Simulation
