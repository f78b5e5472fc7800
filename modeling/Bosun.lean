import Bosun.Library.Kahn
import Bosun.Library.Board
import Bosun.Resource
import Bosun.Registry
import Bosun.TopologicalOrder
import Bosun.Platform
import Bosun.Orchestrator
import Bosun.ApplyStep
import Bosun.ApplyRun
import Bosun.RunAccounting
import Bosun.DeferFormat
import Bosun.Journal
import Bosun.JournalSpec
import Bosun.JournalFamily
import Bosun.Replay
import Bosun.ReplaySpec
import Bosun.InitSystem
import Bosun.Process
import Bosun.Dispatch
import Bosun.Library.Hoare
import Bosun.JournalFaults
import Bosun.Services
import Bosun.ProcessSignal
import Bosun.ReplayFaults
import Bosun.ReplayCycles
import Bosun.TransientFaults
import Bosun.ReplayValidation
import Bosun.ServiceRuns
import Bosun.Run
import Bosun.RunStops
import Bosun.RestartFile
import Bosun.RunNotifications
import Bosun.FactCache
import Bosun.ApplyCalls
import Bosun.DaemonReloads
import Bosun.UnitFiles
import Bosun.EnqueueFaults
import Bosun.FaultyEntries
import Bosun.ForeignFiles
import Bosun.SignalRunner
import Bosun.UnitName
import Bosun.EntryNames
import Bosun.HealthCheck
import Bosun.StopRequests
import Bosun.DryRun
import Bosun.JobCompletion
import Bosun.Library.Trace
import Bosun.Library.FileTree
import Bosun.Bundle
import Bosun.ModuleLoading
import Bosun.ModuleGraph
import Bosun.LoadCycles
import Bosun.PathConfinement
import Bosun.Inventory
import Bosun.InventoryNulls
import Bosun.InventoryMarks
import Bosun.NullDeletion
import Bosun.MergeLaws
import Bosun.KeyedLists
import Bosun.Library.Sequences
import Bosun.SystemdTimer
import Bosun.FileSystem
import Bosun.CertTls
import Bosun.CertPairs
import Bosun.AptKey
import Bosun.KeyringGate
import Bosun.Library.Retention
import Bosun.Library.FixedWidth
import Bosun.Backup
import Bosun.BackupRotation
import Bosun.FileContent
import Bosun.FileWrites
import Bosun.FileConvergence
import Bosun.FileGate
import Bosun.CallArgs
import Bosun.AptPackage
import Bosun.AptInstall
import Bosun.AptRemove
import Bosun.StatusClear
import Bosun.Redact
import Bosun.ControlFile
import Bosun.Library.RunningBest
import Bosun.DpkgStatus
import Bosun.AptCandidates
import Bosun.ChildPipes
import Bosun.ProcessRunners
import Bosun.Library.PercentCoding
import Bosun.Library.UrlPath
import Bosun.RunrRequests
import Bosun.Library.Utf8
import Bosun.ErrorExcerpts
import Bosun.Library.Polling
import Bosun.RunrVerify
import Bosun.Library.TreeEdits
import Bosun.FileSymlink
import Bosun.HealthCheckRetries
import Bosun.AptUpdate
import Bosun.InventoryYaml
import Bosun.Library.SortedMap
import Bosun.PgSqlFacts
import Bosun.PgSqlTimeout
import Bosun.RunMetric
import Bosun.AptDeadlines
import Bosun.AptUpdateCache
import Bosun.CancelledAnswers
import Bosun.RunInterruptions
import Bosun.Registration
import Bosun.Evaluation
import Bosun.FileDelete
import Bosun.Library.GetOpt
import Bosun.Users
import Bosun.RunConvergence
import Bosun.AccountTools
import Bosun.AccountRuns
import Bosun.Library.Sessions
import Bosun.PgSqlExec
import Bosun.Library.Exposition
import Bosun.MetricFile
