import TxnEngine.KeepAlive.Renewal
import TxnEngine.Storage.FileTree
import TxnEngine.Engine
import TxnEngine.Workload.Scenario
import TxnEngine.Workload.Load
import TxnEngine.Workload.Stress
import TxnEngine.Workload.Effort
import TxnEngine.Workload.Settlers
import TxnEngine.Json.Printer
import TxnEngine.Json.Reader
import TxnEngine.Json.Forms
import TxnEngine.Json.Answer
import TxnEngine.History.Values
import TxnEngine.History.Recorders
import TxnEngine.History.Logs
import TxnEngine.History.Resolving
import TxnEngine.History.Renewals
import TxnEngine.History.Whole
import TxnEngine.Proofs.Storage.FaultyCalls
import TxnEngine.Proofs.Storage.ManyHandles
import TxnEngine.Proofs.Log.Codec
import TxnEngine.Proofs.Log.Scan
import TxnEngine.Proofs.Log.Calls
import TxnEngine.Proofs.Log.CrashPrefix
import TxnEngine.Proofs.Log.SingleWinner
import TxnEngine.Proofs.Log.TornAppends
import TxnEngine.Proofs.Log.FailedCalls
import TxnEngine.Proofs.Log.ReadFaults
import TxnEngine.Proofs.Log.Checksum
import TxnEngine.Proofs.Log.AlteredBytes
import TxnEngine.Proofs.Concurrency.Ensures
import TxnEngine.Proofs.Concurrency.Interleaving
import TxnEngine.Proofs.Manager.Discipline
import TxnEngine.Proofs.Manager.Operations
import TxnEngine.Proofs.Manager.Snapshots
import TxnEngine.Proofs.Manager.Alone
import TxnEngine.Proofs.Manager.Sessions
import TxnEngine.Proofs.Manager.SnapshotIsolation
import TxnEngine.Proofs.Concurrency.Drift
import TxnEngine.Proofs.Concurrency.Ledger
import TxnEngine.Proofs.Manager.Lookup
import TxnEngine.Proofs.Manager.TwoRuns
import TxnEngine.Proofs.Manager.PresentCalls
import TxnEngine.Proofs.Manager.Abandonment
import TxnEngine.Proofs.Manager.CacheTransparency
import TxnEngine.Proofs.Engine.Truthfulness
import TxnEngine.Proofs.Engine.Submissions
import TxnEngine.Proofs.Engine.Draining
import TxnEngine.Proofs.Engine.StampTruth
import TxnEngine.Proofs.Engine.Sessions
import TxnEngine.Proofs.Engine.ReadPaths
import TxnEngine.Proofs.BadRecords.Sink
import TxnEngine.Proofs.Pipeline.Accounting
import TxnEngine.Proofs.Pipeline.Fates
import TxnEngine.Proofs.Pipeline.Independence
import TxnEngine.Proofs.BadRecords.Reports
import TxnEngine.Proofs.Pipeline.Reporting
import TxnEngine.Proofs.Manager.Ownership
import TxnEngine.Proofs.Engine.Aborts
import TxnEngine.Proofs.Manager.Effects
import TxnEngine.Proofs.Manager.Correspondence
import TxnEngine.Proofs.Manager.ActiveSet
import TxnEngine.Proofs.Manager.LowWatermark
import TxnEngine.Proofs.BadRecords.Names
import TxnEngine.Proofs.BadRecords.OtherFiles
import TxnEngine.Proofs.Pipeline.Upkeep
import TxnEngine.Proofs.Engine.BatchPipelines
import TxnEngine.Proofs.Engine.Tolerance
import TxnEngine.Proofs.Pipeline.Resubmission
import TxnEngine.Proofs.Manager.Composition
import TxnEngine.Proofs.KeepAlive.Dispatching
import TxnEngine.Proofs.KeepAlive.Registrations
import TxnEngine.Proofs.KeepAlive.Timeliness
import TxnEngine.Proofs.KeepAlive.DueOrder
import TxnEngine.Proofs.Manager.LettingGo
import TxnEngine.Proofs.Engine.Composition
import TxnEngine.Proofs.Engine.Conclusions
import TxnEngine.Proofs.Concurrency.Weaving
import TxnEngine.Proofs.Manager.StatusReports
import TxnEngine.Proofs.Manager.FailedOperations
import TxnEngine.Proofs.Manager.Rollbacks
import TxnEngine.Proofs.Pipeline.Endings
import TxnEngine.Proofs.Pipeline.PartialCounts
import TxnEngine.Proofs.Log.Decoding
import TxnEngine.Proofs.BadRecords.FirstFree
import TxnEngine.Proofs.BadRecords.Continuing
import TxnEngine.Proofs.BadRecords.Roster
import TxnEngine.Proofs.BadRecords.ExclusiveNames
import TxnEngine.Proofs.BadRecords.SharedNames
import TxnEngine.Proofs.BadRecords.FaultySinks
import TxnEngine.Proofs.Concurrency.Teams
import TxnEngine.Proofs.BadRecords.DividedFiles
import TxnEngine.Proofs.Pipeline.Portions
import TxnEngine.Proofs.Manager.Custody
import TxnEngine.Proofs.Manager.FirstInFirstOut
import TxnEngine.Proofs.Stats.Rollups
import TxnEngine.Proofs.Workload.LoadPreparation
import TxnEngine.Proofs.Workload.LoadReports
import TxnEngine.Proofs.Workload.LoadWorkers
import TxnEngine.Proofs.Workload.ParallelLoads
