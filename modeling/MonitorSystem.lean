import MonitorSystem.Library.Calendar
import MonitorSystem.Library.Delimited
import MonitorSystem.Library.Fifo
import MonitorSystem.Library.Framing
import MonitorSystem.Library.Handles
import MonitorSystem.Library.Keyed
import MonitorSystem.Library.Layout
import MonitorSystem.Library.Lists
import MonitorSystem.Library.Oracle
import MonitorSystem.Library.Overrides
import MonitorSystem.Library.Paging
import MonitorSystem.Library.Runs
import MonitorSystem.Library.Segments
import MonitorSystem.Library.SharedWords
import MonitorSystem.Library.Shortlist
import MonitorSystem.Library.SignificantDigits
import MonitorSystem.Library.Sql
import MonitorSystem.Library.SqlExact
import MonitorSystem.Library.SqlText
import MonitorSystem.Library.Successive
import MonitorSystem.Library.Sweeping
import MonitorSystem.Library.Percent
import MonitorSystem.Library.Unwinding
import MonitorSystem.Library.Windows
import MonitorSystem.Text
import MonitorSystem.Manager.Basic
import MonitorSystem.Manager.ConnectionPool
import MonitorSystem.Manager.PoolGuards
import MonitorSystem.Manager.PoolLeaks
import MonitorSystem.Manager.PoolReaping
import MonitorSystem.Manager.MonitorInfo
import MonitorSystem.Worker.NetStats
import MonitorSystem.Worker.NetCollectors
import MonitorSystem.Worker.CpuStatMonitor
import MonitorSystem.Worker.CpuStatCollector
import MonitorSystem.Worker.CpuStatMemory
import MonitorSystem.Worker.CpuSoftirqMonitor
import MonitorSystem.Worker.CpuLoadMonitor
import MonitorSystem.Worker.DiskMonitor
import MonitorSystem.Worker.KernelModule
import MonitorSystem.Manager.Ingest
import MonitorSystem.Manager.IngestShutdown
import MonitorSystem.Manager.QueryDispatch
import MonitorSystem.Manager.QueryWorkers
import MonitorSystem.Manager.QueryScaling
import MonitorSystem.Manager.QueryContract
import MonitorSystem.Manager.HostManager
import MonitorSystem.Manager.HealthScore
import MonitorSystem.Manager.ConfigLoading
import MonitorSystem.Manager.PushHistory
import MonitorSystem.Manager.MysqlWriter
import MonitorSystem.Manager.ScopeIsolation
import MonitorSystem.Manager.WriteQueue
import MonitorSystem.Manager.WriteOrder
import MonitorSystem.Manager.GrpcServer
import MonitorSystem.Manager.HostSnapshots
import MonitorSystem.Manager.IngestOrder
import MonitorSystem.Manager.SampleFlow
import MonitorSystem.Manager.SampleAccounting
import MonitorSystem.Manager.QueryScope
import MonitorSystem.Manager.LatestScoreCache
import MonitorSystem.Manager.QueryStatements
import MonitorSystem.Manager.QueryManager
import MonitorSystem.Manager.QueryExecution
import MonitorSystem.Manager.QueryPages
import MonitorSystem.Manager.QueryRecords
import MonitorSystem.Manager.AnomalyRecords
import MonitorSystem.Manager.AnomalyPrefilter
import MonitorSystem.Manager.PageSlices
import MonitorSystem.Manager.ScoreRank
import MonitorSystem.Manager.ClusterStatistics
import MonitorSystem.Manager.StoredRows
import MonitorSystem.Manager.PerformanceRoundTrip
import MonitorSystem.Manager.DetailTables
import MonitorSystem.Manager.InstanceRoundTrip
import MonitorSystem.Manager.SoftIrqRoundTrip
import MonitorSystem.Manager.DetailSeries
import MonitorSystem.Manager.CounterRates
import MonitorSystem.Manager.NetErrorRates
import MonitorSystem.Manager.LocalTime
import MonitorSystem.Gateway.QueryHandler
import MonitorSystem.Gateway.QueryIsolation
import MonitorSystem.Gateway.Tokens
import MonitorSystem.Gateway.AuthService
import MonitorSystem.Gateway.Access
import MonitorSystem.Gateway.AdminBootstrap
import MonitorSystem.Agent.MemoryScope
import MonitorSystem.Agent.MemoryStore
import MonitorSystem.Agent.MemoryManager
import MonitorSystem.Agent.Sessions
import MonitorSystem.Agent.ScopeKeys
import MonitorSystem.Agent.Turns
import MonitorSystem.Agent.Deletion
import MonitorSystem.Agent.Recall
import MonitorSystem.Agent.MemoryGovernance
import MonitorSystem.Agent.MySqlStore
import MonitorSystem.Agent.Clearing
import MonitorSystem.Agent.PolicyStores
import MonitorSystem.Agent.ChatHandler
import MonitorSystem.Agent.MessageWindows
import MonitorSystem.Agent.Patterns
import MonitorSystem.Agent.Extraction
import MonitorSystem.Agent.AnomalyFanOut
import MonitorSystem.UrlText
import MonitorSystem.Agent.GatewayTools
import MonitorSystem.Gateway.QueryParams
import MonitorSystem.Gateway.RequestTargets
import MonitorSystem.Gateway.ToolQueries
import MonitorSystem.Agent.ChatIsolation
import MonitorSystem.Agent.Sse
import MonitorSystem.Web.ChatStream
import MonitorSystem.Web.ChatPage
import MonitorSystem.Worker.SharedCounters
import MonitorSystem.Manager.InsertText
import MonitorSystem.Manager.HostScores
import MonitorSystem.Library.Words
import MonitorSystem.Worker.MemMonitor
import MonitorSystem.Worker.MonitorTargets
import MonitorSystem.Worker.RedisMonitor
import MonitorSystem.Worker.MysqlMonitor
