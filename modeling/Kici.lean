import Kici.AccessLog.Paging
import Kici.Agent.Capacity
import Kici.Agent.Connections
import Kici.Agent.FailedForGood
import Kici.Agent.GoingAway
import Kici.Agent.Mirrored
import Kici.Agent.Pins
import Kici.Agent.Reclaims
import Kici.Agent.Slots
import Kici.Agent.TriageScope
import Kici.Cluster.ElectionSafety
import Kici.Cluster.JoinClaims
import Kici.Cluster.OrphanLaw
import Kici.Cluster.PeerJoins
import Kici.Cluster.PeerRouting
import Kici.Cluster.Reroute
import Kici.Cluster.VoteUniqueness
import Kici.ColdStore.Retention
import Kici.ColdStore.Rollup
import Kici.Concurrency.Cap
import Kici.Contexts.GateLaw
import Kici.Contexts.Precedence
import Kici.Cron.FiresOnce
import Kici.Dispatch.Registered
import Kici.Dispatch.StaticNeeds
import Kici.Dispatch.Stranded
import Kici.Dispatch.Wave
import Kici.Events.BatchWindows
import Kici.Events.Delivery
import Kici.Events.EveryEventEnds
import Kici.Events.Lease
import Kici.Execution.BoundedText
import Kici.Lock.Carried
import Kici.Lock.Dag
import Kici.Lock.JobNames
import Kici.Needs.DynamicMatrix
import Kici.Needs.Propagation
import Kici.Provenance.Dsse
import Kici.Queue.Ownership
import Kici.Queue.OwnershipSql
import Kici.Queue.Sweep
import Kici.Runs.FinalizedOnce
import Kici.Runs.Replay
import Kici.Runs.Verdict
import Kici.Runs.Window
import Kici.Sandbox.EnvFiles
import Kici.Sandbox.GreenJob
import Kici.Sandbox.Handles
import Kici.Sandbox.HandshakeAcks
import Kici.Sandbox.Leaks
import Kici.Sandbox.LogDelivery
import Kici.Sandbox.Masking
import Kici.Sandbox.OutputCapture
import Kici.Sandbox.RetryAbort
import Kici.Sandbox.SingleChild
import Kici.Sandbox.StepIndices
import Kici.Scaler.AgentView
import Kici.Scaler.IpAllocator
import Kici.Scaler.LedgerSafety
import Kici.Trigger.EventBuckets
import Kici.Worker.QueueTwinsRun
import Kici.Worker.SpawnRetryLaw
