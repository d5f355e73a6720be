import VmDashboard.Machine.System
import VmDashboard.Machine.Simulation
import VmDashboard.Machine.Lease
import VmDashboard.Machine.Table
import VmDashboard.Python.Case
import VmDashboard.Python.Clock
import VmDashboard.Python.Json
import VmDashboard.Jobs.RetryPolicy
import VmDashboard.Jobs.Row
import VmDashboard.Jobs.Claim
import VmDashboard.Jobs.Queue
import VmDashboard.Jobs.Executors
import VmDashboard.Jobs.RowLaws
import VmDashboard.Audit.Chain
import VmDashboard.Machine.HashChain
import VmDashboard.Audit.Tamper
import VmDashboard.Python.Regex
import VmDashboard.Updater.Handle
import VmDashboard.Updater.Survival
import VmDashboard.Updater.Handoff
import VmDashboard.Python.IpAddress
import VmDashboard.Agent.Policy
import VmDashboard.Agent.Reach
import VmDashboard.Rollouts.Fleet
import VmDashboard.Rollouts.Machine
import VmDashboard.Rollouts.Moves
import VmDashboard.Rollouts.Effect
import VmDashboard.Rollouts.CanaryFirst
import VmDashboard.Rollouts.OneImage
import VmDashboard.Python.Base64
import VmDashboard.Spiffe.Assertion
import VmDashboard.Spiffe.SingleUse
import VmDashboard.Identity.Login
import VmDashboard.Identity.Binding
import VmDashboard.Windows.Inside
import VmDashboard.Hypervisor.Passes
import VmDashboard.Terraform.StateLock
import VmDashboard.Hypervisor.TagEdits
import VmDashboard.AgentHosts.OneVm
import VmDashboard.AgentHosts.FollowWindow
import VmDashboard.Desktops.NoLeak
import VmDashboard.Desktops.Scaling
import VmDashboard.Storage.StateSwap
import VmDashboard.Gateways.SharedHost
import VmDashboard.Gateways.Registry
import VmDashboard.Gateways.Reconcile
import VmDashboard.Gateways.Mirror
import VmDashboard.Notify.Webhook
import VmDashboard.Jobs.RetryBound
import VmDashboard.Jobs.Singletons
import VmDashboard.Windows.Punctual
import VmDashboard.Expiry.Arming
import VmDashboard.Expiry.OneDestroy
import VmDashboard.Notify.Outbox
import VmDashboard.Workload.Lease
import VmDashboard.Schedules.EachOnce
import VmDashboard.Schedules.Failures
import VmDashboard.Expiry.Ceiling
import VmDashboard.Expiry.Ladder
import VmDashboard.ConfigMgmt.Choice
import VmDashboard.Costs.LeftAlone
import VmDashboard.Costs.Months
import VmDashboard.Tiles.OneCollection
import VmDashboard.Settings.Scopes
import VmDashboard.Settings.Races
import VmDashboard.ServiceAccounts.Tokens
import VmDashboard.Sealing.Delivery
import VmDashboard.Runners.Credential
import VmDashboard.Elevation.Backed
import VmDashboard.Agent.Redaction
import VmDashboard.Databases.Access
import VmDashboard.Databases.Accounts
import VmDashboard.DbOps.Destination
import VmDashboard.Agent.Quiesce
import VmDashboard.AgentAuth.Replay
import VmDashboard.Login.Throttle
import VmDashboard.Notify.Reoffer
import VmDashboard.Audit.Rechain
import VmDashboard.Suspend.Honoured
import VmDashboard.Workload.Undamaged
import VmDashboard.VmNames.Unique
import VmDashboard.ConfigMgmt.Upgrade
import VmDashboard.Roles.Copies
import VmDashboard.Workgroups.Deletion
import VmDashboard.LiveOutput.Reporter
import VmDashboard.Windows.Search
import VmDashboard.Databases.Names
import VmDashboard.Databases.CommandLines
import VmDashboard.DbOps.Injection
import VmDashboard.DbOps.Envelope
import VmDashboard.Roles.Preserved
import VmDashboard.Updater.Verified
import VmDashboard.Tunnels.Parsed
import VmDashboard.Login.RetryAfter
import VmDashboard.Suspend.Composed
import VmDashboard.Expiry.Starvation
import VmDashboard.Costs.Accrual
import VmDashboard.Agent.RootDse
import VmDashboard.Gateways.Egress
import VmDashboard.Storage.Assembled
import VmDashboard.Agent.K8sSteps
import VmDashboard.Agent.StreamLogs
import VmDashboard.Login.SetupToken
import VmDashboard.Caching.Answers
import VmDashboard.Pov.Zones
