import TemporalSdk.Lib.Parking
import TemporalSdk.Agreement
import TemporalSdk.Paging
import TemporalSdk.LruCache
import TemporalSdk.TaskHandler
import TemporalSdk.Frame
import TemporalSdk.RunInvariant
import TemporalSdk.Reporting
import TemporalSdk.StickyCache
import TemporalSdk.FailedResponse
import TemporalSdk.Calls
import TemporalSdk.Pollers
import TemporalSdk.Identity
import TemporalSdk.Replayer
import TemporalSdk.Sequence
import TemporalSdk.Gate
import TemporalSdk.Scaler
import TemporalSdk.Metrics
import TemporalSdk.Coroutine
import TemporalSdk.Teardown
import TemporalSdk.Signals
import TemporalSdk.QueryRebuild
import TemporalSdk.Answers
import TemporalSdk.Eviction
import TemporalSdk.ReplayStability
import TemporalSdk.Versions
import TemporalSdk.LocalRetry
import TemporalSdk.Replayed
import TemporalSdk.MutableReplay
import TemporalSdk.VersionEviction
import TemporalSdk.Children
import TemporalSdk.CancelRequests
import TemporalSdk.RequestReplay
import TemporalSdk.PayloadCodec
import TemporalSdk.ActivityHandler
import TemporalSdk.FinishedCallbacks
import TemporalSdk.Durations
import TemporalSdk.Headers
import TemporalSdk.FailureConverter
import TemporalSdk.ClientResult
import TemporalSdk.PayloadStorage
import TemporalSdk.ConverterStack
import TemporalSdk.Lib.Spacing
import TemporalSdk.Lib.CasLoop
import TemporalSdk.RateLimiter
import TemporalSdk.Sessions
import TemporalSdk.NexusRegistry
import TemporalSdk.ClosedReplay
import TemporalSdk.RunServer
import TemporalSdk.Failover
import TemporalSdk.Queries
import TemporalSdk.PollLoops
import TemporalSdk.Shutdown
import TemporalSdk.RemoteCalls
import TemporalSdk.CallAnswers
import TemporalSdk.TypedCalls
import TemporalSdk.ClientCalls
import TemporalSdk.SignalCalls
import TemporalSdk.NexusCalls
import TemporalSdk.Tracing
import TemporalSdk.Transparency
import TemporalSdk.SpanForest
