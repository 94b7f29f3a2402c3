import RobotMoney.Lib.Run
import RobotMoney.Portfolio.Conservation
import RobotMoney.Governance.Lifecycle
import RobotMoney.Gateway.Basic
import RobotMoney.Gateway.Effect
import RobotMoney.Gateway.Authority
import RobotMoney.Gateway.Commit
import RobotMoney.Gateway.Window
import RobotMoney.Vault.Admin
import RobotMoney.Lib.Positions
import RobotMoney.Lib.SharePrice
import RobotMoney.Vault.SharePrice
import RobotMoney.Vault.Pull
import RobotMoney.Indexer.Chain
import RobotMoney.Indexer.Db
import RobotMoney.Lib.Fallible
import RobotMoney.Indexer.Tick
import RobotMoney.Indexer.Records
import RobotMoney.Indexer.Ingest
import RobotMoney.Indexer.Rollback
import RobotMoney.Indexer.Completeness
import RobotMoney.Governance.Audit
import RobotMoney.Governance.Power
import RobotMoney.Gateway.Policies
import RobotMoney.Gateway.Roles
import RobotMoney.Gateway.Surroundings
import RobotMoney.Gateway.Funds
import RobotMoney.Gateway.Custody
import RobotMoney.Lib.Collect
import RobotMoney.Gateway.Gifts
import RobotMoney.Portfolio.Listing
import RobotMoney.Portfolio.Link
import RobotMoney.Vault.Pause
import RobotMoney.Vault.Entries
import RobotMoney.Indexer.Provenance
import RobotMoney.Indexer.Freshness
import RobotMoney.Indexer.Fold
import RobotMoney.Indexer.Tallies
import RobotMoney.Indexer.Reindex
import RobotMoney.Indexer.Ingested
import RobotMoney.Indexer.Replay
import RobotMoney.Indexer.Order
import RobotMoney.Indexer.Legs
import RobotMoney.Client.Config
import RobotMoney.Client.Preflight
import RobotMoney.Client.Mirror
import RobotMoney.Client.ReplayCache
import RobotMoney.Dapp.Format
import RobotMoney.Lib.Hex
import RobotMoney.Dapp.Abi
import RobotMoney.Dapp.Faithful
import RobotMoney.Lib.Toml
import RobotMoney.Lib.Utf16
import RobotMoney.Client.ConfigFile
import RobotMoney.Dapp.ConfigExport
import RobotMoney.Api.Database
import RobotMoney.Api.Routes
import RobotMoney.Api.Isolation
import RobotMoney.Governance.Settings
import RobotMoney.Basket.Basic
import RobotMoney.Basket.Admin
import RobotMoney.Basket.Entries
import RobotMoney.Basket.Router
import RobotMoney.Basket.Redeem
import RobotMoney.Basket.Slippage
import RobotMoney.Client.ReadOutput
import RobotMoney.Client.GetAgent
import RobotMoney.Gateway.Storage
import RobotMoney.Gateway.Logs
import RobotMoney.Client.Status
import RobotMoney.Lib.Abi
import RobotMoney.Client.GetVaults
import RobotMoney.Client.GetGovernance
import RobotMoney.Indexer.Numbered
import RobotMoney.Lib.Sorted
import RobotMoney.Governance.InForce
import RobotMoney.Api.Shown
import RobotMoney.Api.RouterState
import RobotMoney.Lib.Latest
import RobotMoney.Gateway.Standing
import RobotMoney.Api.AgentPolicies
import RobotMoney.Lib.RoleEvents
import RobotMoney.Client.GetTimelock
import RobotMoney.Client.Commands
import RobotMoney.Client.Nonce
import RobotMoney.Basket.Quotes
import RobotMoney.Basket.RoundTrip
import RobotMoney.Basket.Routing
import RobotMoney.Vault.Routing
import RobotMoney.Vault.ExitFee
import RobotMoney.Vault.Limits
import RobotMoney.Vault.Rebalance
import RobotMoney.Vault.Internal
import RobotMoney.Vault.AdminRebalance
import RobotMoney.Portfolio.Preview
import RobotMoney.Indexer.Range
import RobotMoney.Client.AuditLog
import RobotMoney.Governance.Executable
import RobotMoney.Portfolio.Availability
import RobotMoney.Client.AuditTrail
import RobotMoney.Client.ReplayFile
import RobotMoney.Client.ReplayLock
import RobotMoney.Client.ReplayRuns
import RobotMoney.Client.ReplayJson
import RobotMoney.Client.ReplayFailure
import RobotMoney.Api.LatestRows
import RobotMoney.Indexer.Reached
import RobotMoney.Indexer.Wedge
import RobotMoney.Indexer.SnapshotReads
import RobotMoney.Governance.RmToken
import RobotMoney.Dapp.Amounts
import RobotMoney.Api.Cursor
import RobotMoney.Gateway.Deposits
import RobotMoney.Api.Deposits
import RobotMoney.Client.SelfCheck
import RobotMoney.Client.Honest
import RobotMoney.Client.GetVault
import RobotMoney.Client.GetRoles
import RobotMoney.Client.PendingOps
import RobotMoney.Client.Envelopes
import RobotMoney.Lib.Bytecode
import RobotMoney.Vault.BytecodeGuard
import RobotMoney.Deploy.System
import RobotMoney.Deploy.AdminHandover
import RobotMoney.Lib.Passive
import RobotMoney.Vault.Lending
import RobotMoney.Dapp.Verifier
import RobotMoney.Indexer.EventCodec
import RobotMoney.Indexer.JsonRpc
import RobotMoney.Indexer.Daemon
import RobotMoney.Indexer.Attempted
import RobotMoney.Indexer.Idempotency
import RobotMoney.Indexer.Arrival
