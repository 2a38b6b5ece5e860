import Synthia.Proofs.Delivery
import Synthia.Proofs.Consent
import Synthia.Proofs.Grounding
import Synthia.Graph.Run
import Synthia.Proofs.Binding
import Synthia.Persistence.Decisions
import Synthia.Proofs.Authority
import Synthia.Proofs.Claiming
import Synthia.Proofs.Gate
import Synthia.Proofs.Redelivery
import Synthia.Lib.Text
import Synthia.Lib.Json
import Synthia.Api.Streaming
import Synthia.Web.MessageStream
import Synthia.Proofs.Stream
import Synthia.Proofs.Effects
import Synthia.Domain.SessionState
import Synthia.Proofs.Session
import Synthia.Workers.IntegrationResult
import Synthia.Execution.Idempotency
import Synthia.Integrations.Execution
import Synthia.Proofs.Conclusion
import Synthia.Proofs.Keys
import Synthia.Proofs.Attempts
import Synthia.Integrations.Catalogue
import Synthia.Integrations.Executor
import Synthia.Integrations.Deliveries
import Synthia.Proofs.Deliveries
import Synthia.Proofs.Recording
import Synthia.Proofs.Invocations
import Synthia.Proofs.Answers
import Synthia.Lib.RowLock
import Synthia.Proofs.Knowledge
import Synthia.Proofs.Scope
import Synthia.Persistence.Audit
import Synthia.Persistence.Sessions
import Synthia.Proofs.FirstVerdict
import Synthia.Workers.RetentionSweep
import Synthia.Proofs.Versions
import Synthia.Lib.ForeignKeys
import Synthia.Persistence.Erasure
import Synthia.Proofs.ContentRetention
import Synthia.Proofs.Erasure
import Synthia.Messaging.SampleFlow
import Synthia.Proofs.SampleFlow
import Synthia.Integrations.Envelopes
import Synthia.Workers.ResumeWorker
import Synthia.Proofs.Pipeline
import Synthia.Lib.Restriction
import Synthia.Persistence.Feedback
import Synthia.Persistence.Governance
import Synthia.Persistence.Store
import Synthia.Proofs.Isolation
import Synthia.Graph.Deciding
import Synthia.Proofs.FirstDecision
import Synthia.Graph.Turns
import Synthia.Application.Cases
import Synthia.Proofs.CheckpointSweep
import Synthia.Proofs.Escalation
import Synthia.Infrastructure.Cache
import Synthia.Proofs.Cache
import Synthia.Persistence.IntegrationJobs
import Synthia.Proofs.Instruction
import Synthia.Lib.Keyset
import Synthia.ReadModels.Keyset
import Synthia.Proofs.Paging
import Synthia.Api.Deps
import Synthia.ReadModels.Identity
import Synthia.Proofs.Admission
import Synthia.ReadModels.Querying
import Synthia.ReadModels.CustomerViews
import Synthia.Proofs.ReadIsolation
import Synthia.Persistence.Views
import Synthia.Proofs.LiveSessions
import Synthia.Lib.Aggregates
import Synthia.Proofs.Rollup
import Synthia.Proofs.UnexecutedApprovals
import Synthia.Proofs.Turns
import Synthia.Lib.Exceptions
import Synthia.Proofs.MissingFact
import Synthia.Proofs.OutcomeFinality
import Synthia.Proofs.Shadowing
import Synthia.Proofs.Rejection
import Synthia.Proofs.Acceptance
import Synthia.Persistence.UnitOfWork
import Synthia.Proofs.UnitOfWork
import Synthia.Lib.Regex
import Synthia.Observability.Logging
import Synthia.Proofs.Redaction
import Synthia.Lib.Reducing
import Synthia.Proofs.SealedChannels
import Synthia.Proofs.Confidence
import Synthia.Proofs.RepeatedEvidence
import Synthia.Lib.FirstWrite
import Synthia.Retrieval.Hybrid
import Synthia.Proofs.Fusion
import Synthia.Proofs.WeakEvidence
import Synthia.Proofs.Rerank
import Synthia.Application.Sessions
import Synthia.Proofs.SessionLifecycle
import Synthia.Egress.Http
import Synthia.PlatformClients.Integrations
import Synthia.Proofs.OnePost
import Synthia.Integrations.Normalization
import Synthia.Proofs.Normalization
import Synthia.Integrations.Credentials
import Synthia.Proofs.MissingCredential
import Synthia.Proofs.RetentionTotality
import Synthia.Proofs.ClosedRuns
import Synthia.Proofs.TurnEnd
import Synthia.Governance.Catalogue
import Synthia.Proofs.RedactedTwice
import Synthia.Lib.Base64Url
import Synthia.Api.OpaqueCursor
import Synthia.Proofs.Cursors
import Synthia.Proofs.PagedAnswers
import Synthia.ReadModels.Filters
import Synthia.Proofs.PublishedFilters
import Synthia.Proofs.BoundQueries
import Synthia.Lib.Framing
import Synthia.Web.Realtime
import Synthia.Web.ChatShell
import Synthia.Build.OpenapiDiff
import Synthia.Proofs.ContractVerdict
import Synthia.Egress.ModelGateway
import Synthia.Proofs.ModelRefusals
import Synthia.Api.IdentityScreens
import Synthia.Proofs.SelfAssertion
import Synthia.Proofs.CurrentSignal
import Synthia.Lib.Paths
import Synthia.Lib.JavaScript
import Synthia.Desktop.RendererProtocol
import Synthia.Proofs.BundleContainment
import Synthia.Lib.Origins
import Synthia.Web.PlatformApi
import Synthia.Lib.Schemas
import Synthia.Proofs.ContractCompatibility
import Synthia.Observability.Sampling
import Synthia.Messaging.Retry
import Synthia.Proofs.OfferedCapabilities
import Synthia.Integrations.CaseOperations
import Synthia.Proofs.CaseOperations
import Synthia.Build.OpenapiValidate
import Synthia.Lib.Worklist
import Synthia.Proofs.PublishedAuthority
import Synthia.Api.Openapi
import Synthia.Proofs.DisclosureGates
import Synthia.Proofs.AudienceDocuments
import Synthia.Api.Problems
import Synthia.Proofs.Refusals
import Synthia.Api.Correlation
import Synthia.Proofs.OneIdentifier
import Synthia.Lib.RawJson
import Synthia.Proofs.LogRecords
import Synthia.Retrieval.Search
import Synthia.Proofs.Provenance
import Synthia.Proofs.TurnTermination
import Synthia.Proofs.SweepOrder
import Synthia.Persistence.WorkItemGuard
import Synthia.ReadModels.EnumStorage
import Synthia.Lib.Traces
import Synthia.Egress.SafeModel
import Synthia.Desktop.Host
import Synthia.Web.LiveAnnouncer
