import ContentOrchestrator.Properties.AttemptBound
import ContentOrchestrator.Properties.Backpressure
import ContentOrchestrator.Properties.EscalatedReviews
import ContentOrchestrator.Properties.FailedDelivery
import ContentOrchestrator.Properties.NoStuckRun
import ContentOrchestrator.Properties.OperatorRetry
import ContentOrchestrator.Properties.RecoveryOnce
import ContentOrchestrator.Properties.PublicationSafety
import ContentOrchestrator.Properties.RejectionFinal
import ContentOrchestrator.Properties.ReservationFlight
import ContentOrchestrator.Properties.ReviewGates
import ContentOrchestrator.Properties.SingleExecution
import ContentOrchestrator.Properties.SpendHold
import ContentOrchestrator.Properties.StageReentry
import ContentOrchestrator.Properties.TerminalStates
import ContentOrchestrator.Properties.WithdrawnApproval
import ContentOrchestrator.Properties.WithdrawnContent
import ContentOrchestrator.Properties.OutboxDelivery
import ContentOrchestrator.Properties.ConsumerIsolation
import ContentOrchestrator.Properties.WorkerIsolation
import ContentOrchestrator.Properties.SubmitOwnership
import ContentOrchestrator.Properties.SubmitFencing
import ContentOrchestrator.Properties.KillSwitch
import ContentOrchestrator.Properties.OutboxNumbering
import ContentOrchestrator.Properties.ConcurrencyLimit
import ContentOrchestrator.Properties.ProviderBudgets
import ContentOrchestrator.Properties.ClaimExclusion
import ContentOrchestrator.Properties.DeadlockFreedom
import ContentOrchestrator.Properties.BillingConvergence
import ContentOrchestrator.Properties.SupersededSubscription
import ContentOrchestrator.Properties.AcknowledgedEvents
import ContentOrchestrator.Properties.WorkspaceAdmins
import ContentOrchestrator.Properties.RevokedCredentials
import ContentOrchestrator.Properties.WorkerLoad
import ContentOrchestrator.Properties.WorkerCapacity
import ContentOrchestrator.Properties.EffectsOnce
import ContentOrchestrator.Properties.TickIsolation
import ContentOrchestrator.Properties.GateVerdicts
import ContentOrchestrator.Properties.IdempotentJobs
import ContentOrchestrator.Properties.WorkspaceCaps
import ContentOrchestrator.Properties.RoundRobin
import ContentOrchestrator.Properties.TenantFairness
import ContentOrchestrator.Properties.PriorityAgeing
import ContentOrchestrator.Properties.StableRouting
import ContentOrchestrator.Properties.PayloadSafety
import ContentOrchestrator.Properties.StaleResults
import ContentOrchestrator.Properties.WorkConserving
import ContentOrchestrator.Properties.LinearEdits
import ContentOrchestrator.Properties.RequestLimits
import ContentOrchestrator.Properties.LoginLockout
import ContentOrchestrator.Properties.AntiRepetition
import ContentOrchestrator.Properties.LeaseBound
import ContentOrchestrator.Properties.QueueTracking
import ContentOrchestrator.Properties.SettledOnce
import ContentOrchestrator.Properties.SpendCapBound
import ContentOrchestrator.Properties.ReviewLineage
import ContentOrchestrator.Properties.ResearchVerdicts
import ContentOrchestrator.Properties.ContentGates
import ContentOrchestrator.Properties.DepartmentRecords
import ContentOrchestrator.Properties.TestOnly
import ContentOrchestrator.Properties.ScriptNumbers
import ContentOrchestrator.Properties.WorkerExecution
import ContentOrchestrator.Properties.HeardLoad
import ContentOrchestrator.Properties.PausedWorkers
import ContentOrchestrator.Properties.TenantRows
import ContentOrchestrator.Properties.AccountLogins
