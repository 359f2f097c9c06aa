import EventRecorder.Permissions.OptOut
import EventRecorder.CircularFile.Reinitialize
import EventRecorder.CircularFile.Crash
import EventRecorder.CircularFile.FailedMetadata
import EventRecorder.PersistentCache.ExactlyOnce
import EventRecorder.Aggregate.MonthlyDaily
import EventRecorder.Aggregate.TallySums
import EventRecorder.Daemon.SendingPermitted
import EventRecorder.Daemon.ReachabilityChecks
import EventRecorder.Daemon.OptOut
import EventRecorder.Daemon.ExactRemoval
import EventRecorder.Daemon.HoldsNothing
import EventRecorder.Daemon.Scheduling
import EventRecorder.PersistentCache.Lawful
import EventRecorder.PersistentCache.Recovery
import EventRecorder.PersistentCache.BootOffset
import EventRecorder.PersistentCache.StaleData
import EventRecorder.Aggregate.TimerCalls
import EventRecorder.PersistentCache.Restart
import EventRecorder.CircularFile.Retry
import EventRecorder.CircularFile.ZeroedTail
import EventRecorder.Daemon.CorruptCache
import EventRecorder.PersistentCache.RoundTrip
import EventRecorder.Aggregate.TallyIteration
import EventRecorder.Aggregate.PayloadOrder
import EventRecorder.Daemon.AggregateQueue
import EventRecorder.Aggregate.Periods
import EventRecorder.Daemon.MidnightSweep
import EventRecorder.Aggregate.DailySegments
import EventRecorder.Aggregate.CounterLedger
import EventRecorder.PersistentCache.BootIdProvider
import EventRecorder.CircularFile.Trimming
import EventRecorder.Daemon.Gzip
import EventRecorder.Daemon.RetryBody
import EventRecorder.Daemon.QueueRefinement
import EventRecorder.Daemon.Delivery
import EventRecorder.Daemon.Draining
import EventRecorder.Daemon.Server
import EventRecorder.Aggregate.TallyOpening
import EventRecorder.Daemon.FullUpload
import EventRecorder.Daemon.MidnightTick
import EventRecorder.Daemon.Service
import EventRecorder.Daemon.ClientTime
