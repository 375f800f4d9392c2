import RhinoQ.Soundness.Cancellation
import RhinoQ.Soundness.EffectFinal
import RhinoQ.Soundness.Orphans
import RhinoQ.Soundness.EffectOnce
import RhinoQ.Soundness.ProviderOnce
import RhinoQ.Soundness.TaskAggregate
import RhinoQ.Soundness.SnapshotVersion
import RhinoQ.Soundness.EnqueueReplay
import RhinoQ.Soundness.ExternalReference
import RhinoQ.Soundness.FindingIdentity
import RhinoQ.Soundness.FindingProjection
import RhinoQ.Soundness.RuleWalk
import RhinoQ.Soundness.DurableStep
import RhinoQ.Soundness.SupersededAttempt
import RhinoQ.Soundness.ChangeToken
import RhinoQ.Soundness.ItemCount
import RhinoQ.Soundness.TaskListWalk
import RhinoQ.Soundness.ItemEffect
import RhinoQ.Soundness.Settlement
import RhinoQ.Soundness.ResourcePool
import RhinoQ.Soundness.Migration
import RhinoQ.Soundness.ExecutionCounters
import RhinoQ.Soundness.RetryBudget
import RhinoQ.Soundness.CancelledBatch
import RhinoQ.Soundness.AggregateVerdict
import RhinoQ.Soundness.Authorization
import RhinoQ.Soundness.PendingRetry
import RhinoQ.Soundness.ActiveAttempt
import RhinoQ.Soundness.CompletedJob
import RhinoQ.Soundness.RepeatedDispatch
import RhinoQ.Soundness.ReplayAudit
import RhinoQ.Soundness.LaterAttempt
import RhinoQ.Soundness.Occurrences
import RhinoQ.Soundness.WaitpointOnce
import RhinoQ.Soundness.EventChain
import RhinoQ.Soundness.NodeWorker
import RhinoQ.Soundness.BrowserStore
import RhinoQ.Soundness.TaskStream
import RhinoQ.Soundness.NotificationOutbox
import RhinoQ.Soundness.CancellationOutcome
import RhinoQ.Soundness.EnqueueBatch
import RhinoQ.Soundness.FailureReport
import RhinoQ.Soundness.ClaimOrder
import RhinoQ.Soundness.RetryDelay
import RhinoQ.Soundness.AttemptHistory
import RhinoQ.Soundness.PastLease
import RhinoQ.Soundness.CronField
import RhinoQ.Soundness.TraceContext
