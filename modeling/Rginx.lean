import Rginx.TreeMaps
import Rginx.RustText
import Rginx.CacheState
import Rginx.CacheIndex
import Rginx.IndexInvariant
import Rginx.IndexMaintenance
import Rginx.IndexSteps
import Rginx.IndexCalls
import Rginx.SharedDocument
import Rginx.DocumentView
import Rginx.IndexRuns
import Rginx.DeltaReplay
import Rginx.SharedStore
import Rginx.SharedSync
import Rginx.SharedRebuild
import Rginx.FailedPublications
import Rginx.AdmissionCounts
import Rginx.CacheRequest
import Rginx.SharedFills
import Rginx.Leases
import Rginx.StoreCalls
import Rginx.FillLeases
import Rginx.LockRecords
import Rginx.FillLocks
import Rginx.CacheLookup
import Rginx.StaleServing
import Rginx.Invalidation
import Rginx.FillInvariant
import Rginx.FillSharing
import Rginx.RangeRequests
import Rginx.RangeTrim
import Rginx.CacheKeys
import Rginx.KeySeparation
import Rginx.AtomicSections
import Rginx.CacheFiles
import Rginx.CommittedFiles
import Rginx.VariantKeys
import Rginx.NetAddress
import Rginx.ClientAddress
import Rginx.TokenBuckets
import Rginx.RateLimits
import Rginx.RateSegments
import Rginx.RateIsolation
import Rginx.Revalidation
import Rginx.WeightedSlots
import Rginx.PeerSelection
import Rginx.RoundRobin
import Rginx.PeerHealth
import Rginx.PeerConnections
import Rginx.StepRuns
import Rginx.HostResolver
import Rginx.VersionFeeds
import Rginx.ListenerConfigs
import Rginx.TlsAcceptors
import Rginx.Base64
import Rginx.GrpcWebCodec
import Rginx.PolledBodies
import Rginx.VirtualHosts
import Rginx.ListenDispatch
import Rginx.ServerNameMatches
import Rginx.SniCertificates
import Rginx.CertificatePairs
import Rginx.ManagedCertificates
import Rginx.GrpcWebRequests
import Rginx.GrpcWebTexts
import Rginx.GrpcWebTrailers
import Rginx.GrpcWebResponses
import Rginx.MappedAddresses
import Rginx.ResultChains
import Rginx.OcspResponses
import Rginx.OcspAuthorization
import Rginx.OcspRefreshers
import Rginx.SeparatedFields
import Rginx.PolledRangeTrim
import Rginx.EvictionOrder
import Rginx.InactiveCleanup
import Rginx.StoreEvictions
import Rginx.VariantSignatures
import Rginx.ShareFingerprints
import Rginx.HitForPass
import Rginx.RouteSelection
import Rginx.RoutedKeys
import Rginx.CommittedMetadata
import Rginx.RequestBodies
import Rginx.ForwardAttempts
import Rginx.ListenerBindings
import Rginx.HostBlocks
import Rginx.RoutePriority
import Rginx.PeerRecovery
import Rginx.PeerAddresses
import Rginx.ActiveRequests
import Rginx.PollTurns
import Rginx.BodyLimits
import Rginx.SelectedPeers
import Rginx.UpstreamNames
import Rginx.RonText
import Rginx.EnvExpand
import Rginx.EnvPlaceholders
import Rginx.WeightedOrder
import Rginx.RollingCounters
import Rginx.SnapshotVersions
import Rginx.SnapshotCounters
import Rginx.SnapshotData
import Rginx.RecordingOperations
import Rginx.SnapshotDeltas
import Rginx.ProtobufWire
import Rginx.GrpcHealthCodec
import Rginx.RequestTargets
import Rginx.PrefixStripping
import Rginx.HopByHop
import Rginx.ProxyProtocol
import Rginx.ResponderFallback
import Rginx.BraceTemplates
import Rginx.TemplateParsers
import Rginx.RustTime
import Rginx.NumericPolicies
import Rginx.LockTimes
import Rginx.NestedTexts
import Rginx.UnixPaths
import Rginx.IncludeExpansion
import Rginx.IncludeCycles
import Rginx.ListenerGroups
import Rginx.ListenerLifecycle
import Rginx.ListenerReloads
import Rginx.FillEndings
import Rginx.FillReaders
import Rginx.ConnectionSlots
import Rginx.AccessLogFormats
import Rginx.ResponseLifetimes
import Rginx.AcceptorMaps
import Rginx.SegmentCrashes
