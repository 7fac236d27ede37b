import CartoLive.Lib.TSys
import CartoLive.Lib.Journaled
import CartoLive.Lib.Statements
import CartoLive.App.WriteCoordinator
import CartoLive.Go.Text
import CartoLive.Live.Events
import CartoLive.Live.Display
import CartoLive.Live.Filter
import CartoLive.Store.PublicEvents
import CartoLive.Api.PublicEvents
import CartoLive.Web.EventRecovery
import CartoLive.Web.PublicSocket
import CartoLive.Theorems.Reconcile
import CartoLive.Theorems.Recovery
import CartoLive.Theorems.RegionNoninterference
import CartoLive.Theorems.ExactlyOnce
import CartoLive.Theorems.WriteScheduling
import CartoLive.Theorems.WriteOutcome
import CartoLive.Theorems.OneSocket
import CartoLive.Theorems.IngestOnce
import CartoLive.Theorems.LiveBroadcast
import CartoLive.Theorems.Retention
import CartoLive.Live.Hub
import CartoLive.Theorems.HubDelivery
import CartoLive.Lib.Versions
import CartoLive.Lib.Windows
import CartoLive.Lib.Ascending
import CartoLive.Lib.Tally
import CartoLive.Live.Public
import CartoLive.Live.PublicCache
import CartoLive.Store.LiveState
import CartoLive.Store.Ingest
import CartoLive.Live.CacheVersions
import CartoLive.Live.CacheRuns
import CartoLive.App.Backend
import CartoLive.App.DerivedIngest
import CartoLive.App.WorkerInvariant
import CartoLive.Theorems.CursorMonotone
import CartoLive.Theorems.NodeAgreement
import CartoLive.Theorems.BootstrapCursor
import CartoLive.Theorems.SnapshotCoherence
import CartoLive.Store.RouteCounts
import CartoLive.Store.RouteReads
import CartoLive.Theorems.RouteCursor
import CartoLive.Web.LiveCursor
import CartoLive.Web.LiveClient
import CartoLive.Api.PageScan
import CartoLive.Api.PublicHistory
import CartoLive.Theorems.HistoryPages
import CartoLive.Theorems.PacketPages
import CartoLive.Theorems.PropagationPages
import CartoLive.Theorems.ChatPages
import CartoLive.Theorems.ConnectDelivery
import CartoLive.Theorems.ConnectionLimits
import CartoLive.Theorems.RetentionProgress
import CartoLive.Theorems.RouteSummaries
import CartoLive.Theorems.Upgrade
import CartoLive.Theorems.PacketIdentity
import CartoLive.Theorems.ResolverCache
import CartoLive.Theorems.IntakeAccounting
import CartoLive.Theorems.QueueAges
import CartoLive.Theorems.BackfillGate
import CartoLive.Theorems.CachedOnce
import CartoLive.Theorems.RouteEndpoints
import CartoLive.Theorems.ResolverSoundness
import CartoLive.Theorems.EdgeReadBack
import CartoLive.Theorems.AdvertUpserts
import CartoLive.Theorems.RedactedMessages
import CartoLive.Theorems.DisplayProjection
import CartoLive.Theorems.AdvertPayloads
import CartoLive.Theorems.HistoryBuckets
import CartoLive.Theorems.ScopeMatching
import CartoLive.Theorems.RateLimit
import CartoLive.Theorems.CacheStatistics
import CartoLive.Theorems.SeenTimes
import CartoLive.Theorems.BackfillDrains
import CartoLive.Lib.Keyed
import CartoLive.Web.AppState
import CartoLive.Web.Reducer
import CartoLive.Theorems.LateHydration
import CartoLive.Web.Sanitize
import CartoLive.Web.RouteState
import CartoLive.Web.RouteCredits
import CartoLive.Theorems.BucketDrift
import CartoLive.Web.Recovered
import CartoLive.Theorems.RecoveredEffect
import CartoLive.Web.VisualScheduler
import CartoLive.Theorems.VisualFifo
import CartoLive.Lib.Recall
import CartoLive.Theorems.Batching
import CartoLive.Lib.RunSort
import CartoLive.Theorems.FrameOrder
import CartoLive.Theorems.StateETag
import CartoLive.Theorems.ViewportBox
import CartoLive.Theorems.PropagationProgress
import CartoLive.Theorems.RecentIdentity
import CartoLive.Theorems.SourceConvergence
import CartoLive.Theorems.TransformSettlement
import CartoLive.Theorems.PathOptimality
import CartoLive.Theorems.SharedViews
import CartoLive.Theorems.ResumeRecovery
import CartoLive.Lib.Segments
import CartoLive.Web.RouteTools
import CartoLive.Theorems.AreaSelection
import CartoLive.Lib.CellIndex
import CartoLive.Web.NetGraph
import CartoLive.Web.NetGraphDraft
import CartoLive.Web.NetGraphLayout
import CartoLive.Web.NetGraphPrepared
import CartoLive.Theorems.HitTesting
import CartoLive.Theorems.NetGraphForm
import CartoLive.Theorems.NetGraphTraffic
import CartoLive.Lib.CopyFilter
import CartoLive.Web.Chat
import CartoLive.Theorems.ChatCopies
import CartoLive.Meshcore.GroupText
import CartoLive.Theorems.GroupText
import CartoLive.Web.MapRendering
import CartoLive.Web.MapSignatures
import CartoLive.Theorems.SignatureSkips
import CartoLive.Api.SummaryCache
import CartoLive.Theorems.SummaryCaching
import CartoLive.Lib.DeferredTrim
import CartoLive.Web.ServiceWorker
import CartoLive.Theorems.OfflineCaches
import CartoLive.Web.PacketsPanel
import CartoLive.Theorems.PanelPaging
