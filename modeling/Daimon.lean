import Daimon.Proof.Broker.KillSwitch
import Daimon.Proof.Broker.ApprovedView
import Daimon.Proof.Orchestrator.Resolution
import Daimon.Proof.Orchestrator.HalfExecuted
import Daimon.Proof.Orchestrator.Barriers
import Daimon.Proof.Driver.Rollback
import Daimon.Proof.Deployment
import Daimon.Proof.Guard.Decision
import Daimon.Proof.Guard.Resume
import Daimon.Proof.Driver.Confinement
import Daimon.Proof.Driver.Reply
import Daimon.Proof.Runtime.Correlation
import Daimon.Proof.Runtime.Handling
import Daimon.Proof.Runtime.Lifecycle
import Daimon.Proof.Audit.Concurrency
import Daimon.Proof.Audit.Migration
import Daimon.Proof.Audit.Tamper
import Daimon.Proof.Vault.Coherence
import Daimon.Proof.Vault.References
import Daimon.Proof.App.LastAdmin
import Daimon.Proof.App.Revocation
import Daimon.Proof.Redis.Substitution
import Daimon.Proof.Runtime.Nats
import Daimon.Proof.Gateway.Transactions
import Daimon.Proof.Gateway.Matrix
import Daimon.Proof.Gateway.Telegram
import Daimon.Gateway.ReplySink
import Daimon.App.Chat
import Daimon.App.Inbound
import Daimon.Proof.App.LiveSettings
import Daimon.Proof.App.Reply
import Daimon.App.Conversation
import Daimon.Proof.App.DeletedSession
import Daimon.Proof.App.DurableHistory
import Daimon.Proof.App.Conversation
import Daimon.Proof.App.History
import Daimon.Proof.App.Sessions
import Daimon.Proof.App.ChatApproval
import Daimon.Observer.Ingest
import Daimon.App.AlertRouter
import Daimon.Proof.App.AlertRouter
import Daimon.Proof.Driver.Projection
import Daimon.Llm.Anthropic
import Daimon.Llm.OpenAi
import Daimon.Proof.Llm.Anthropic
import Daimon.Proof.Llm.OpenAi
import Daimon.Lib.JsonSchema
import Daimon.Proof.App.Catalog
import Daimon.Proof.Broker.Audit
import Daimon.Proof.Guard.Policy
import Daimon.Proof.Guard.Timeout
import Daimon.Proof.Observer.Thresholds
import Daimon.Proof.Observer.TargetRef
import Daimon.Proof.Observer.VmSink
import Daimon.Proof.Driver.Words
import Daimon.Proof.Transport.Ssh
import Daimon.Proof.Driver.Routing
import Daimon.Proof.Orchestrator.GraphMirror
import Daimon.Proof.Runtime.RestartBudget
import Daimon.Proof.Memory.Recall
import Daimon.Proof.Observer.Series
import Daimon.Proof.Llm.Folds
import Daimon.Proof.Llm.Local
import Daimon.Proof.Llm.TokenRefresh
import Daimon.Proof.Audit.Paging
import Daimon.Proof.Vault.Sealed
import Daimon.Proof.App.CreateUser
import Daimon.Proof.Triage.Admission
import Daimon.Proof.App.SortableTable
import Daimon.Proof.Vault.RefSyntax
import Daimon.Proof.Gateway.RoomUrl
import Daimon.Proof.Driver.Cidr
import Daimon.Proof.Broker.SpentApprovals
import Daimon.Proof.Orchestrator.BlastRadius
import Daimon.Proof.App.Gateways
import Daimon.Proof.App.AlertRouting
import Daimon.Proof.Broker.Resolving
import Daimon.Proof.App.ChatBubble
import Daimon.Proof.App.AdminPages
import Daimon.Proof.Llm.Turns
