import LearnApue.Gateway.StopRequest
import LearnApue.Gateway.ExpandDiagnostics
import LearnApue.Gateway.ExpandOnePass
import LearnApue.Gateway.ConfigSections
import LearnApue.Gateway.SupervisedOnce
import LearnApue.Gateway.ReloadRepair
import LearnApue.Gateway.RestartCounts
import LearnApue.Gateway.MediamtxConfig
import LearnApue.Gateway.ProgressLines
import LearnApue.Gateway.ChannelsBody
import LearnApue.Gateway.RequestLine
import LearnApue.Gateway.IdleStart
import LearnApue.Gateway.PublishedPid
import LearnApue.Para.Mytbf
import LearnApue.Para.AnytimerScans
import LearnApue.Para.PrimerPool
import LearnApue.Stdio.EpollRelay
import LearnApue.Gateway.Watchdog
import LearnApue.Gateway.FailedStart
import LearnApue.Gateway.FileActions
import LearnApue.Gateway.ProgressCounters
import LearnApue.Gateway.MetricsSampler
import LearnApue.Gateway.IdleExit
import LearnApue.Gateway.ProcStat
import LearnApue.Gateway.CpuTracker
import LearnApue.Gateway.RedactTwice
import LearnApue.Gateway.MetricsTool
import LearnApue.Gateway.MetricsOptions
import LearnApue.Gateway.MetricsCollect
import LearnApue.Gateway.MetricsTables
import LearnApue.Foundation.Table
import LearnApue.Gateway.DiagnosticPage
import LearnApue.Stdio.NonblockRelay
import LearnApue.Stdio.PollRelay
import LearnApue.Para.Mysem
import LearnApue.Para.MytbfOverflow
import LearnApue.Gateway.MediaHost
import LearnApue.Para.TrialDivision
import LearnApue.Para.MytbfCopy
import LearnApue.Para.Slowcat
import LearnApue.Sys.Mycpy
import LearnApue.Sys.Share
import LearnApue.Gateway.DeadlineArithmetic
import LearnApue.Para.SignalMytbf
import LearnApue.Para.SignalAnytimer
import LearnApue.Para.AbcdChain
import LearnApue.Para.AbcdTurns
import LearnApue.Para.AddFile
import LearnApue.Para.BusyPool
import LearnApue.Stdio.SelectRelay
import LearnApue.Foundation.HttpMessage
import LearnApue.Gateway.HttpWire
import LearnApue.Gateway.ResponseJson
import LearnApue.Gateway.MainLoop
