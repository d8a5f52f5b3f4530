import CryptoAlert.Lib.Text
import CryptoAlert.Lib.Regex
import CryptoAlert.Lib.Url
import CryptoAlert.Lib.Codec
import CryptoAlert.Lib.Decimal
import CryptoAlert.Lib.Transition
import CryptoAlert.Lib.Table
import CryptoAlert.Observability.Redaction
import CryptoAlert.Domain.Models
import CryptoAlert.Domain.DecisionRequest
import CryptoAlert.Graph.Request
import CryptoAlert.Api.Submissions
import CryptoAlert.Commands.Submission
import CryptoAlert.Api.Admission
import CryptoAlert.Api.AdmissionInvariant
import CryptoAlert.Api.AdmissionIdempotent
import CryptoAlert.Domain.Analysis
import CryptoAlert.Domain.Policies
import CryptoAlert.Domain.DeepResearch
import CryptoAlert.Domain.ArtifactCodec
import CryptoAlert.Graph.Review
import CryptoAlert.Graph.Events
import CryptoAlert.Graph.State
import CryptoAlert.Graph.Nodes
import CryptoAlert.Graph.Machine
import CryptoAlert.Graph.Execution
import CryptoAlert.Graph.Gate
import CryptoAlert.Graph.Residual
import CryptoAlert.Api.TerminalOutput
import CryptoAlert.Graph.Contract
import CryptoAlert.Commands.ReviewProjection
import CryptoAlert.Api.OutputDump
import CryptoAlert.Projections.EventSpecs
import CryptoAlert.Projections.EventLog
import CryptoAlert.Projections.EventSequence
import CryptoAlert.Projections.EventReplay
import CryptoAlert.Persistence.Statuses
import CryptoAlert.Projections.EventWorker
import CryptoAlert.Commands.Payloads
import CryptoAlert.Persistence.Rows
import CryptoAlert.Persistence.UsageReceipts
import CryptoAlert.Persistence.TerminalRun
import CryptoAlert.Persistence.Artifacts
import CryptoAlert.Api.TaskOperations
import CryptoAlert.Api.RespondInterrupts
import CryptoAlert.Commands.Lease
import CryptoAlert.Commands.Claim
import CryptoAlert.Commands.Progress
import CryptoAlert.Commands.Terminal
import CryptoAlert.Projections.Reconciliation
import CryptoAlert.Commands.Effects
import CryptoAlert.Commands.Changes
import CryptoAlert.Commands.Soundness
import CryptoAlert.Commands.Execution
import CryptoAlert.Commands.Digests
import CryptoAlert.Commands.Integrity
import CryptoAlert.Commands.Fencing
import CryptoAlert.Commands.Lineage
import CryptoAlert.Commands.Activity
import CryptoAlert.Lib.Patch
import CryptoAlert.Commands.ResponseDumps
import CryptoAlert.Commands.ReviewRoundTrip
import CryptoAlert.Lib.Calendar
import CryptoAlert.Persistence.UsageLedger
import CryptoAlert.Monitors.Triggers
import CryptoAlert.Workspace.System
import CryptoAlert.Workspace.Reconcile
import CryptoAlert.Workspace.Locks
import CryptoAlert.Workspace.Deliveries
import CryptoAlert.Workspace.Invariants
import CryptoAlert.Workspace.Keys
import CryptoAlert.Workspace.Concurrency
import CryptoAlert.Workspace.Quotas
import CryptoAlert.Workspace.TriggerCharges
import CryptoAlert.Workspace.TriggerIdentity
import CryptoAlert.Commands.Billing
import CryptoAlert.Workspace.Repairs
import CryptoAlert.Workspace.Intervals
import CryptoAlert.Notifications.Outbox
import CryptoAlert.Notifications.Worker
import CryptoAlert.Notifications.Moves
import CryptoAlert.Notifications.Attempts
import CryptoAlert.Notifications.Adapters
import CryptoAlert.Notifications.Acceptance
import CryptoAlert.Observability.Deliveries
import CryptoAlert.Observability.Verification
import CryptoAlert.Observability.DeliveryWrites
import CryptoAlert.Observability.VerificationSafety
import CryptoAlert.Improvement.Governance
import CryptoAlert.Improvement.CandidateSafety
import CryptoAlert.Improvement.ReleaseSafety
import CryptoAlert.Lib.Keyset
import CryptoAlert.Lib.Base64
import CryptoAlert.Lib.Numerals
import CryptoAlert.Lib.Instants
import CryptoAlert.Lib.JsonText
import CryptoAlert.Api.InboxCursor
import CryptoAlert.Api.InboxPages
import CryptoAlert.Lib.Streams
import CryptoAlert.Graph.EventOrder
import CryptoAlert.Lib.CodePoints
import CryptoAlert.Integrations.WebhookSigning
import CryptoAlert.Integrations.WebhookDeliveries
import CryptoAlert.Lib.Uuids
import CryptoAlert.Auth.AgentPermissions
import CryptoAlert.Auth.ThreadIsolation
import CryptoAlert.Lib.Sessions
import CryptoAlert.Lifecycle.Jobs
import CryptoAlert.Lifecycle.Worker
import CryptoAlert.Lifecycle.System
import CryptoAlert.Domain.Evidence
import CryptoAlert.Lib.Integers
import CryptoAlert.Lib.Extremes
import CryptoAlert.Domain.Outcome
import CryptoAlert.Workers.OutcomeMaturation
import CryptoAlert.Lib.Dicts
import CryptoAlert.Api.RemoteInterrupts
import CryptoAlert.Api.InterruptCollection
import CryptoAlert.Lib.Clashes
import CryptoAlert.Api.InterruptOrder
import CryptoAlert.Graph.Edits
import CryptoAlert.Lib.Rounding
import CryptoAlert.Lib.Scanning
import CryptoAlert.Providers.CitedNumbers
import CryptoAlert.Providers.StatedNumbers
import CryptoAlert.Providers.Spacing
import CryptoAlert.Providers.WebMarket
import CryptoAlert.Commands.OutcomeSchedule
import CryptoAlert.Lib.Passes
import CryptoAlert.Observability.Credentials
import CryptoAlert.Improvement.FrozenGate
import CryptoAlert.Providers.RetryBudget
import CryptoAlert.Agents.SourceCatalog
import CryptoAlert.Notifications.RotationSafety
import CryptoAlert.Observability.QueryCounts
import CryptoAlert.Commands.FailureBudget
import CryptoAlert.Commands.EarlyCancel
import CryptoAlert.Observability.Identifiers
import CryptoAlert.Providers.FailClosed
import CryptoAlert.Providers.EvidenceLaw
import CryptoAlert.Lifecycle.Exports
import CryptoAlert.Lifecycle.DeletionStatus
import CryptoAlert.Lifecycle.Receipts
import CryptoAlert.Lifecycle.Erasure
import CryptoAlert.Graph.ReviewRuns
import CryptoAlert.Integrations.WebhookRoundTrip
import CryptoAlert.Auth.StoreIsolation
import CryptoAlert.Auth.CronIsolation
import CryptoAlert.Auth.InternalTokens
