import ZagrosNode.Lib.Machine
import ZagrosNode.Lib.Dict
import ZagrosNode.Lib.Py
import ZagrosNode.Lib.Outcome
import ZagrosNode.Lib.Object
import ZagrosNode.Lib.Once
import ZagrosNode.Lib.Arrival
import ZagrosNode.Lib.Text
import ZagrosNode.Security.Identity
import ZagrosNode.Security.OneTimeToken
import ZagrosNode.Security.Pairing
import ZagrosNode.Security.Rearming
import ZagrosNode.Security.Replay
import ZagrosNode.Security.SignedRequest
import ZagrosNode.Security.ReplayProtection
import ZagrosNode.Security.Canonical
import ZagrosNode.Security.Tls
import ZagrosNode.Security.Registering
import ZagrosNode.Lib.Decimal
import ZagrosNode.Lib.JsonText
import ZagrosNode.Lib.JsonRead
import ZagrosNode.Lib.Op
import ZagrosNode.Lib.Volume
import ZagrosNode.Lib.Coroutine
import ZagrosNode.Lib.Cancel
import ZagrosNode.Cores.Manager
import ZagrosNode.Cores.Memory
import ZagrosNode.Cores.Jobs
import ZagrosNode.Cores.Boot
import ZagrosNode.Cores.Intent
import ZagrosNode.Accounts.UserAccount
import ZagrosNode.Accounts.Holdings
import ZagrosNode.Accounts.Drivers
import ZagrosNode.Accounts.Sync
import ZagrosNode.Accounts.Convergence
import ZagrosNode.Accounts.Validated
import ZagrosNode.Accounts.Merged
import ZagrosNode.Accounts.Awaits
import ZagrosNode.Accounts.Interleaved
import ZagrosNode.Accounts.Concurrent
import ZagrosNode.Usage.Trackers
import ZagrosNode.Usage.Baselines
import ZagrosNode.Usage.Polling
import ZagrosNode.Usage.Metering
import ZagrosNode.Usage.SoftEther
import ZagrosNode.Usage.Cursors
import ZagrosNode.Usage.Saving
import ZagrosNode.Bandwidth.Limiter
import ZagrosNode.Startup.Node
import ZagrosNode.Startup.Restart
import ZagrosNode.Startup.Completes
import ZagrosNode.Startup.Survival
import ZagrosNode.Jobs.JobManager
import ZagrosNode.Jobs.Exclusive
import ZagrosNode.Jobs.History
import ZagrosNode.Jobs.Joined
import ZagrosNode.Jobs.Workers
import ZagrosNode.Lib.Base64
import ZagrosNode.State.Cipher
import ZagrosNode.State.Store
import ZagrosNode.State.Writers
import ZagrosNode.State.Migration
import ZagrosNode.Lib.Ini
import ZagrosNode.Lib.Path
import ZagrosNode.Requests.Authorize
import ZagrosNode.WireGuard.Peers
import ZagrosNode.WireGuard.Provisioned
import ZagrosNode.WireGuard.Render
import ZagrosNode.Accounts.Filed
import ZagrosNode.Accounts.Pools
import ZagrosNode.Accounts.Willing
import ZagrosNode.Accounts.Minted
import ZagrosNode.WireGuard.Replayed
import ZagrosNode.WireGuard.Reprovision
import ZagrosNode.WireGuard.Studio
import ZagrosNode.WireGuard.Apply
import ZagrosNode.WireGuard.Steps
import ZagrosNode.WireGuard.TimedOut
import ZagrosNode.Startup.Lasting
import ZagrosNode.Startup.Fidelity
import ZagrosNode.Cores.FailedInstall
import ZagrosNode.Bans.Projection
import ZagrosNode.Bans.Races
import ZagrosNode.Requests.Material
import ZagrosNode.Requests.Rejected
import ZagrosNode.Requests.Materialized
import ZagrosNode.Requests.Inbounds
import ZagrosNode.Bandwidth.Identities
import ZagrosNode.Bandwidth.PushOrder
import ZagrosNode.Bandwidth.Sharing
import ZagrosNode.Bandwidth.Malformed
import ZagrosNode.Bandwidth.Slots
import ZagrosNode.Bandwidth.Script
import ZagrosNode.Bandwidth.Reconcile
import ZagrosNode.Bandwidth.Passes
import ZagrosNode.Bandwidth.Converged
import ZagrosNode.Bandwidth.Returning
import ZagrosNode.Bandwidth.Moments
import ZagrosNode.Bandwidth.Panel
import ZagrosNode.Usage.Ledger
import ZagrosNode.Usage.Sessions
import ZagrosNode.Usage.Orderly
import ZagrosNode.Drivers.Construct
import ZagrosNode.Drivers.Reboot
import ZagrosNode.Drivers.Claims
import ZagrosNode.Drivers.Documents
import ZagrosNode.Drivers.Rows
import ZagrosNode.Drivers.Surviving
import ZagrosNode.Bans.Coverage
import ZagrosNode.Lib.Double
import ZagrosNode.Bans.Semantics
import ZagrosNode.Bans.Disconnect
import ZagrosNode.Accounts.Passwords
import ZagrosNode.Lib.Replace
import ZagrosNode.Security.Processes
import ZagrosNode.Lib.Frames
import ZagrosNode.OpenVpn.Answers
