import RealtimeNotify.Runs.Ownership
import RealtimeNotify.Runs.Acknowledgement
import RealtimeNotify.Runs.Delivery
import RealtimeNotify.Runs.Reachability
import RealtimeNotify.Lib.Paging
import RealtimeNotify.App.History
import RealtimeNotify.Runs.Identity
import RealtimeNotify.Python.Codecs
import RealtimeNotify.Python.JsonDecoder
import RealtimeNotify.App.Subscriber
import RealtimeNotify.Runs.Uptime
import RealtimeNotify.App.Transactions
import RealtimeNotify.Runs.ReadState
import RealtimeNotify.Runs.Expiry
import RealtimeNotify.Runs.PresenceRouting
import RealtimeNotify.Runs.DegradedWindow
import RealtimeNotify.App.Reconciliation
import RealtimeNotify.Runs.SelfHealing
import RealtimeNotify.Runs.Duplicates
import RealtimeNotify.Runs.SingleSession
import RealtimeNotify.Runs.Handover
import RealtimeNotify.Runs.Completeness
import RealtimeNotify.Runs.Retries
import RealtimeNotify.Lib.Unwinding
import RealtimeNotify.Runs.UserPart
import RealtimeNotify.Runs.UserTasks
import RealtimeNotify.Runs.Isolation
import RealtimeNotify.Runs.RoutedSocket
import RealtimeNotify.Runs.Cleanup
import RealtimeNotify.App.Shutdown
import RealtimeNotify.Runs.ConnectionMaps
import RealtimeNotify.Lib.Lease
import RealtimeNotify.App.PresenceManager
import RealtimeNotify.Runs.Presence
import RealtimeNotify.App.RateLimiter
import RealtimeNotify.Runs.RateLimits
import RealtimeNotify.App.Routing
import RealtimeNotify.Lib.Gate
import RealtimeNotify.Runs.Rejections
import RealtimeNotify.App.Backlog
import RealtimeNotify.App.HistoryWalk
import RealtimeNotify.Runs.Liveness
import RealtimeNotify.App.Schemas
import RealtimeNotify.App.WsMessages
import RealtimeNotify.App.LivePath
import RealtimeNotify.Runs.Completion
import RealtimeNotify.Runs.GuardPath
import RealtimeNotify.Runs.Refinement
import RealtimeNotify.Runs.SocketProtocol
import RealtimeNotify.Runs.Counters
import RealtimeNotify.Runs.LastSeen
import RealtimeNotify.App.Middleware
