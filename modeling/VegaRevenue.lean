import VegaRevenue.Domain.Campaign
import VegaRevenue.Domain.Conversation
import VegaRevenue.Domain.MessageExecution
import VegaRevenue.Domain.NoLostUpdate
import VegaRevenue.Domain.OutreachValues
import VegaRevenue.Domain.Sequence
import VegaRevenue.Idempotency.Agreement
import VegaRevenue.Idempotency.Exclusive
import VegaRevenue.Idempotency.InMemory
import VegaRevenue.Idempotency.Postgres
import VegaRevenue.Idempotency.Store
import VegaRevenue.Lib.ClaimRegister
import VegaRevenue.Lib.Copies
import VegaRevenue.Lib.Interleave
import VegaRevenue.Lib.LostUpdate
import VegaRevenue.Lib.Machine
import VegaRevenue.Lib.Versioned
import VegaRevenue.Outreach.ClaimOwnership
import VegaRevenue.Outreach.Rows
import VegaRevenue.Outreach.SafetyGate
import VegaRevenue.Outreach.Send
import VegaRevenue.Outreach.World
import VegaRevenue.Shared.Json
import VegaRevenue.Shared.Result
import VegaRevenue.Outreach.AtMostOnce
import VegaRevenue.Outreach.Budget
import VegaRevenue.Outreach.PrepareDraft
import VegaRevenue.Outreach.System
import VegaRevenue.Outreach.Reports
import VegaRevenue.Outreach.SequenceRows
import VegaRevenue.Outreach.Progress
import VegaRevenue.Domain.Mission
import VegaRevenue.Domain.TaskGraph
import VegaRevenue.Domain.Approval
import VegaRevenue.Domain.TaskDependencies
import VegaRevenue.MissionExecution.Engine
import VegaRevenue.MissionExecution.Jobs
import VegaRevenue.MissionExecution.Copies
import VegaRevenue.MissionExecution.RunOnce
import VegaRevenue.MissionExecution.Completion
import VegaRevenue.Lib.KeyedRows
import VegaRevenue.MissionRepository.Postgres
import VegaRevenue.MissionRepository.RoundTrip
import VegaRevenue.Lib.Lease
import VegaRevenue.ToolGateway.Contract
import VegaRevenue.ToolGateway.Gateway
import VegaRevenue.ToolGateway.AtMostOnce
import VegaRevenue.ControlPlane.Policy
import VegaRevenue.ControlPlane.UpperBound
import VegaRevenue.ControlPlane.AgentVersions
import VegaRevenue.ControlPlane.Lifecycle
import VegaRevenue.ConversationHandling.Stores
import VegaRevenue.ConversationHandling.OptOut
import VegaRevenue.GraphInbound.Message
import VegaRevenue.Lib.Holdings
import VegaRevenue.GraphInbound.Calls
import VegaRevenue.GraphInbound.AtMostOnce
import VegaRevenue.GraphInbound.Recovery
import VegaRevenue.Lib.Base64
import VegaRevenue.Shared.Casing
import VegaRevenue.Shared.JsText
import VegaRevenue.RecipientProtection.Keyring
import VegaRevenue.RecipientProtection.Envelope
import VegaRevenue.RecipientProtection.Recovery
import VegaRevenue.Lib.Tally
import VegaRevenue.LlmGateway.Ledger
import VegaRevenue.LlmGateway.Router
import VegaRevenue.LlmGateway.Accounting
import VegaRevenue.Lib.Slot
import VegaRevenue.OutreachWorkflow.Workflow
import VegaRevenue.OutreachWorkflow.Exact
import VegaRevenue.Domain.OptOutState
import VegaRevenue.ConversationHandling.Replies
import VegaRevenue.Lib.Programs
import VegaRevenue.AiRuntime.ExecutionState
import VegaRevenue.AiRuntime.AgentExecutor
import VegaRevenue.AiRuntime.Endings
import VegaRevenue.AiRuntime.Governance
import VegaRevenue.AiRuntime.Decision
import VegaRevenue.AiRuntime.BoundApproval
import VegaRevenue.AiRuntime.Reasoning
import VegaRevenue.SpecialistAgents.BaseSpecialist
import VegaRevenue.AiRuntime.ModelUsage
import VegaRevenue.MissionExecution.ApprovalBinding
import VegaRevenue.ToolGateway.Authorization
import VegaRevenue.MissionOrchestrator.ApprovalService
import VegaRevenue.MissionOrchestrator.ApprovalVerification
import VegaRevenue.Commands.CommandExecutor
import VegaRevenue.MissionOrchestrator.StartMission
import VegaRevenue.Domain.LeadQualification
import VegaRevenue.Domain.Account
import VegaRevenue.Intelligence.Stores
import VegaRevenue.Intelligence.ResearchEngine
import VegaRevenue.Intelligence.Repeat
import VegaRevenue.Knowledge.Ingestion
import VegaRevenue.Knowledge.Completeness
import VegaRevenue.MissionWorkflow.Workflow
import VegaRevenue.MissionWorkflow.Signals
import VegaRevenue.Domain.MessageHistory
import VegaRevenue.Outreach.Writers
import VegaRevenue.Outreach.StatusHistory
import VegaRevenue.Outreach.AttemptCounts
import VegaRevenue.MissionExecution.ResultHandling
import VegaRevenue.MissionExecution.AllOrNothing
import VegaRevenue.Memory.WritePolicy
import VegaRevenue.Memory.CurrentVersion
import VegaRevenue.Identity.TokenIssuer
import VegaRevenue.Identity.TokenValidity
import VegaRevenue.Identity.Repository
import VegaRevenue.Identity.SignIn
import VegaRevenue.Identity.Memberships
import VegaRevenue.Identity.Invitations
import VegaRevenue.Lib.Sessions
import VegaRevenue.Identity.TenantContext
import VegaRevenue.EventBus.Raised
import VegaRevenue.Lib.Outbox
import VegaRevenue.EventBus.Publishing
import VegaRevenue.Outreach.GateEffects
import VegaRevenue.Lib.ExpiringCounter
import VegaRevenue.Outreach.RateLimits
import VegaRevenue.Outreach.ComposedLimits
import VegaRevenue.Lib.IsoDate
import VegaRevenue.Shared.JsonRecord
import VegaRevenue.AggregateRepository.Postgres
import VegaRevenue.AggregateRepository.Snapshots
import VegaRevenue.AggregateRepository.RoundTrip
import VegaRevenue.Domain.FailedOperations
import VegaRevenue.Outreach.Responses
import VegaRevenue.GraphInbound.Correlator
import VegaRevenue.MissionExecution.Replanning
import VegaRevenue.AiRuntime.MissionPlanner
import VegaRevenue.MissionOrchestrator.OutreachMissionPlanner
import VegaRevenue.MissionExecution.Planning
import VegaRevenue.ToolGateway.HttpToolProvider
import VegaRevenue.ToolGateway.RetryLoop
import VegaRevenue.ToolGateway.Reclaim
import VegaRevenue.Lib.Grouping
import VegaRevenue.ToolGateway.ToolResolution
import VegaRevenue.ToolGateway.PostgresToolRegistry
import VegaRevenue.ToolGateway.Replay
import VegaRevenue.Lib.WebHost
import VegaRevenue.ToolGateway.Egress
import VegaRevenue.Shared.DeepEqual
import VegaRevenue.Shared.StrictToolSchemaValidator
import VegaRevenue.Lib.StableSort
import VegaRevenue.LlmGateway.Ranking
import VegaRevenue.LlmGateway.Fallback
import VegaRevenue.AiRuntime.AutonomyRules
import VegaRevenue.AiRuntime.ContextAssembler
import VegaRevenue.AiRuntime.EmbeddingRouter
import VegaRevenue.AiRuntime.StructuredOutputValidator
import VegaRevenue.Outreach.Personalization
import VegaRevenue.Outreach.SchedulePolicy
import VegaRevenue.Lib.TextCuts
import VegaRevenue.Domain.NormalizedDomain
import VegaRevenue.Domain.DomainSpelling
import VegaRevenue.Domain.AccountRuns
import VegaRevenue.Domain.SequenceSteps
import VegaRevenue.Intelligence.AccountCache
import VegaRevenue.MissionOrchestrator.Identifiers
import VegaRevenue.Lib.JoinedText
import VegaRevenue.AiRuntime.RankedRetrieval
import VegaRevenue.Lib.RankFusion
import VegaRevenue.Lib.RollingHash
import VegaRevenue.Intelligence.SignalIdentity
import VegaRevenue.RecipientProtection.CanonicalEnvelope
import VegaRevenue.Lib.Backtracking
import VegaRevenue.ConversationHandling.PiiScrubber
import VegaRevenue.Shared.Rounding
import VegaRevenue.Domain.IcpProfile
import VegaRevenue.Intelligence.Scoring
import VegaRevenue.Intelligence.ProfileEnforcement
import VegaRevenue.Outreach.GraphEmail
import VegaRevenue.Intelligence.EvidenceOwnership
import VegaRevenue.Knowledge.ChunkSecrets
import VegaRevenue.ToolGateway.RegistryHistory
import VegaRevenue.Domain.LastingStates
import VegaRevenue.Outreach.SequenceLifecycle
import VegaRevenue.Bootstrap.Migrations
