import SignalkDoctor.JsonText
import SignalkDoctor.Mutex
import SignalkDoctor.LockFile
import SignalkDoctor.Auth
import SignalkDoctor.Scanner
import SignalkDoctor.PackageLookups
import SignalkDoctor.DriftMigration
import SignalkDoctor.DependencyDrift
import SignalkDoctor.HealthProbes
import SignalkDoctor.HostBoots
import SignalkDoctor.HostPath
import SignalkDoctor.Restore
import SignalkDoctor.LogBroker
import SignalkDoctor.HealLock
import SignalkDoctor.HealRescan
import SignalkDoctor.JobRuns
import SignalkDoctor.ImageRetention
import SignalkDoctor.TagOrder
import SignalkDoctor.InstallerRefresh
import SignalkDoctor.InstallerRun
import SignalkDoctor.RestoreOrder
import SignalkDoctor.RestoreDisk
import SignalkDoctor.LogLines
import SignalkDoctor.Explain
import SignalkDoctor.PackageIndependence
import SignalkDoctor.DriftKnowledge
import SignalkDoctor.HealEvidence
import SignalkDoctor.LogReplay
import SignalkDoctor.TarEntry
import SignalkDoctor.ShellQuote
import SignalkDoctor.ExplainRoute
import SignalkDoctor.ExplainOutput
import SignalkDoctor.DriftScheduler
import SignalkDoctor.Ghcr
import SignalkDoctor.PowerCuts
import SignalkDoctor.PodmanClient
import SignalkDoctor.PiPower
import SignalkDoctor.HostCommands
import SignalkDoctor.TimezoneDrift
import SignalkDoctor.VersionDrift
import SignalkDoctor.BugReport
import SignalkDoctor.QuadletSnapshots
import SignalkDoctor.JobClients
import SignalkDoctor.ReportClients
import SignalkDoctor.HostRestarts
import SignalkDoctor.ProbeRunner
import SignalkDoctor.StorageType
import SignalkDoctor.CgroupDelegation
import SignalkDoctor.HealthVerdicts
import SignalkDoctor.ExecTiming
import SignalkDoctor.LogView
