import Steward.AgentCommands
import Steward.AgentOverflow
import Steward.AgentTracks
import Steward.AlertEnvelope
import Steward.AliasFlap
import Steward.ArchiveCycle
import Steward.ArchiveHistory
import Steward.BackupCodes
import Steward.Cleanup
import Steward.Delivery
import Steward.DnsNames
import Steward.Flapping
import Steward.GateSoundness
import Steward.Heartbeat
import Steward.HeartbeatStore
import Steward.KnownHost
import Steward.Lockout
import Steward.MacUnique
import Steward.NetworkBoundary
import Steward.NotificationDispatch
import Steward.Orchestrator
import Steward.PassiveSightings
import Steward.ProbeReconciliation
import Steward.ProberLoop
import Steward.ProfileEdits
import Steward.RateLimitKey
import Steward.RegexCache
import Steward.ScanLimiter
import Steward.ScanTasks
import Steward.ScopeResolver
import Steward.SnmpRoundTrip
import Steward.TypeAgreement
import Steward.UsmRequests
import Steward.UuidCache
import Steward.Writers
