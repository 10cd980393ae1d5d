import RemindiCore.Lib.Digits
import RemindiCore.Lib.JsonText
import RemindiCore.Lib.CivilTime
import RemindiCore.Lib.Rfc3339
import RemindiCore.Lib.Transaction
import RemindiCore.Lib.Table
import RemindiCore.Lib.Machine
import RemindiCore.Lib.Fallible
import RemindiCore.Lib.PageLog
import RemindiCore.Lib.TextOrder
import RemindiCore.Lib.Paging
import RemindiCore.Domain.Model
import RemindiCore.Domain.Recurrence
import RemindiCore.Domain.Evidence
import RemindiCore.Domain.StateMachine
import RemindiCore.Domain.Evaluator
import RemindiCore.Service.Requests
import RemindiCore.Service.RequestHash
import RemindiCore.Service.Database
import RemindiCore.Service.Service
import RemindiCore.Service.Operations
import RemindiCore.Service.Check
import RemindiCore.Service.System
import RemindiCore.Scheduler.Lease
import RemindiCore.Admin.Machine
import RemindiCore.Admin.Backup
import RemindiCore.Admin.Restore
import RemindiCore.Proof.Statements
import RemindiCore.Proof.Closures
import RemindiCore.Proof.Effects
import RemindiCore.Proof.Evaluations
import RemindiCore.Proof.Steps
import RemindiCore.Proof.VersionChain
import RemindiCore.Proof.Coherence
import RemindiCore.Proof.CheckOrder
import RemindiCore.Proof.Readiness
import RemindiCore.Proof.CheckRun
import RemindiCore.Proof.CheckVisit
import RemindiCore.Proof.CheckWalk
import RemindiCore.Proof.CheckMissed
import RemindiCore.Proof.Narrowed
import RemindiCore.Proof.CheckReport
import RemindiCore.Proof.Grid
import RemindiCore.Proof.EvaluationStep
import RemindiCore.Proof.Firing
import RemindiCore.Proof.ManualVerification
import RemindiCore.Proof.ConditionPair
import RemindiCore.Proof.Disposition
import RemindiCore.Proof.Limits
import RemindiCore.Proof.Idempotency
import RemindiCore.Proof.KeyReuse
import RemindiCore.Proof.Evolution
import RemindiCore.Proof.Restoring
import RemindiCore.Proof.Preparing
import RemindiCore.Proof.Rollback
import RemindiCore.Proof.RestoreRun
import RemindiCore.Proof.Recovering
import RemindiCore.Proof.RestoreSafety
import RemindiCore.Proof.LeaseCalls
import RemindiCore.Proof.LeaseExclusion
import RemindiCore.Proof.LeaseFencing
import RemindiCore.Scheduler.Runner
import RemindiCore.Proof.PollLease
import RemindiCore.Admin.Verify
import RemindiCore.Lib.BoundedMap
import RemindiCore.Lib.SlidingWindow
import RemindiCore.Proof.CanonicalHash
import RemindiCore.Proof.Columns
import RemindiCore.Proof.CrossTable
import RemindiCore.Proof.HistoryWalk
import RemindiCore.Proof.WebSessions
import RemindiCore.Admin.AdapterConfigs
import RemindiCore.Admin.Catalog
import RemindiCore.Admin.Directory
import RemindiCore.Admin.Manifests
import RemindiCore.Admin.Startup
import RemindiCore.Admin.Bootstrap
import RemindiCore.Admin.Workloads
import RemindiCore.Lib.FractionOrder
import RemindiCore.Lib.InstantParts
import RemindiCore.Lib.JsonPath
import RemindiCore.Lib.Ranking
import RemindiCore.Mcp.Views
import RemindiCore.Proof.AdminAudit
import RemindiCore.Proof.ClosedForm
import RemindiCore.Proof.Convergence
import RemindiCore.Proof.DirectoryCalls
import RemindiCore.Proof.DirectoryPrograms
import RemindiCore.Proof.EventDetails
import RemindiCore.Proof.HttpContainment
import RemindiCore.Proof.InventoryRebuild
import RemindiCore.Proof.Leftovers
import RemindiCore.Proof.LongestWaiting
import RemindiCore.Proof.Owners
import RemindiCore.Proof.PollReport
import RemindiCore.Proof.ReadyChain
import RemindiCore.Proof.RecoveryRestarts
import RemindiCore.Proof.SchedulerLoop
import RemindiCore.Proof.SchemaChecks
import RemindiCore.Proof.SettingsAgreement
import RemindiCore.Proof.SettingsRange
import RemindiCore.Proof.SnoozeExpiry
import RemindiCore.Proof.UpdateAudit
import RemindiCore.Proof.WorkloadIntent
import RemindiCore.Lib.Twins
import RemindiCore.Proof.CandidateKept
import RemindiCore.Proof.TemporaryFiles
import RemindiCore.Proof.RestartAfterRestore
import RemindiCore.Proof.PublishedAdapters
import RemindiCore.Proof.ConditionContainment
import RemindiCore.Proof.CursorIntegrity
import RemindiCore.Proof.FrontEnds
import RemindiCore.Proof.Admission
