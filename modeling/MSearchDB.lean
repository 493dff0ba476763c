import MSearchDB.Lib.Loop
import MSearchDB.Lib.Bytes
import MSearchDB.Lib.Blocks
import MSearchDB.Lib.WriteLog
import MSearchDB.Lib.Msgpack
import MSearchDB.Lib.Sha256
import MSearchDB.Lib.Distinct
import MSearchDB.Lib.Mirror
import MSearchDB.Lib.RemoteCall
import MSearchDB.Lib.Replace
import MSearchDB.Lib.Run
import MSearchDB.Lib.Metered
import MSearchDB.Lib.Trailing
import MSearchDB.Lib.Latest
import MSearchDB.Lib.Decimal
import MSearchDB.Lib.OrderedMap
import MSearchDB.Lib.OrderCode
import MSearchDB.Lib.Sorting
import MSearchDB.Lib.Counting
import MSearchDB.Lib.MergedPages
import MSearchDB.Lib.TopK
import MSearchDB.Lib.Text
import MSearchDB.Lib.Grouping
import MSearchDB.Lib.Json
import MSearchDB.Lib.JsonText
import MSearchDB.Core.Error
import MSearchDB.Core.Document
import MSearchDB.Core.Serde
import MSearchDB.Core.DocumentPayload
import MSearchDB.Core.Traits
import MSearchDB.Core.MappingMerge
import MSearchDB.Core.ConsistentHash
import MSearchDB.Core.RingDisruption
import MSearchDB.Core.ClusterRouter
import MSearchDB.Core.ReplicaWalk
import MSearchDB.Core.RebalancePlan
import MSearchDB.Core.Float
import MSearchDB.Core.FloatArith
import MSearchDB.Core.Query
import MSearchDB.Core.Aggregation
import MSearchDB.Core.Collapse
import MSearchDB.Core.SortOrder
import MSearchDB.Core.CollapseKeys
import MSearchDB.Core.Buckets
import MSearchDB.Core.VectorClock
import MSearchDB.Lib.Extremum
import MSearchDB.Core.ClockLattice
import MSearchDB.Core.ReadCoordinator
import MSearchDB.Core.ReadResolution
import MSearchDB.Core.TokenBucket
import MSearchDB.Storage.Wal
import MSearchDB.Storage.WalPayload
import MSearchDB.Storage.WalLog
import MSearchDB.Storage.WalRecovery
import MSearchDB.Storage.WalReplay
import MSearchDB.Storage.RocksDb
import MSearchDB.Storage.RocksDbBackend
import MSearchDB.Storage.RocksDbSlots
import MSearchDB.Storage.RocksDbReopen
import MSearchDB.Storage.RocksDbScan
import MSearchDB.Storage.Collections
import MSearchDB.Storage.DocumentMaps
import MSearchDB.Storage.RangeScans
import MSearchDB.Storage.MemTable
import MSearchDB.Storage.SequenceNumbers
import MSearchDB.Storage.MemTableSize
import MSearchDB.Consensus.Types
import MSearchDB.Consensus.StateMachine
import MSearchDB.Consensus.BatchInsert
import MSearchDB.Consensus.LogReplay
import MSearchDB.Consensus.CrashReplay
import MSearchDB.Consensus.InMemoryStorage
import MSearchDB.Consensus.SnapshotService
import MSearchDB.Consensus.SnapshotContents
import MSearchDB.Consensus.IndexMirror
import MSearchDB.Consensus.ApplyBatches
import MSearchDB.Consensus.RaftNode
import MSearchDB.Consensus.LogStore
import MSearchDB.Consensus.RocksDbLogStore
import MSearchDB.Consensus.LogStoreSimulation
import MSearchDB.Consensus.LogContiguity
import MSearchDB.Consensus.LogKeys
import MSearchDB.Consensus.Quorum
import MSearchDB.Index.Tantivy
import MSearchDB.Index.CollectionIndex
import MSearchDB.Index.FieldHandles
import MSearchDB.Index.SchemaEvolution
import MSearchDB.Index.Search
import MSearchDB.Index.TantivyIndex
import MSearchDB.Index.QueryMeaning
import MSearchDB.Index.BuilderCalls
import MSearchDB.Index.StoredFields
import MSearchDB.Index.BareDocuments
import MSearchDB.Index.TwoEngines
import MSearchDB.Index.Highlighting
import MSearchDB.Index.JiebaTokens
import MSearchDB.Index.FuzzyWords
import MSearchDB.Index.Recreation
import MSearchDB.Network.ForwardWrite
import MSearchDB.Network.ScatterGather
import MSearchDB.Network.MergedHits
import MSearchDB.Network.SnapshotStream
import MSearchDB.Network.RaftTransport
import MSearchDB.Network.RemoteGet
import MSearchDB.Network.RemoteSearch
import MSearchDB.Node.State
import MSearchDB.Node.ConnectionSlots
import MSearchDB.Node.SnapshotRotation
import MSearchDB.Node.Backup
import MSearchDB.Node.SnapshotRestore
import MSearchDB.Node.Propose
import MSearchDB.Network.CircuitBreaker
import MSearchDB.Network.ConnectionPool
import MSearchDB.Network.PoolRuns
import MSearchDB.Node.MemberAddresses
import MSearchDB.Node.AddressParsers
import MSearchDB.Node.Bulk
import MSearchDB.Node.Session
import MSearchDB.Core.DateHistogram
import MSearchDB.Node.Registries
import MSearchDB.Node.DocumentCache
import MSearchDB.Node.MappingOrder
import MSearchDB.Node.CacheCoherence
import MSearchDB.Node.CacheKeys
import MSearchDB.Node.DocumentVersions
import MSearchDB.Node.ClusterHealth
import MSearchDB.Node.Gossip
import MSearchDB.Node.GossipNetwork
import MSearchDB.Node.ReadRepair
import MSearchDB.Node.SearchRequest
import MSearchDB.Node.FieldValueJson
import MSearchDB.Node.QueryDecode
import MSearchDB.Node.QueryClauses
import MSearchDB.Node.BulkParse
import MSearchDB.Node.BulkItems
import MSearchDB.Node.CursorPages
import MSearchDB.Node.FailureDetector
import MSearchDB.Node.ClusterReports
import MSearchDB.Node.FanOutSearch
import MSearchDB.Node.SimpleSearch
import MSearchDB.Node.DiskSearch
import MSearchDB.Node.HandlerRuns
import MSearchDB.Node.FieldTypes
import MSearchDB.Node.CreateRaces
import MSearchDB.Node.InputLimits
import MSearchDB.Node.Router
import MSearchDB.Node.MetricPaths
import MSearchDB.Node.Roles
import MSearchDB.Node.RateLimiter
import MSearchDB.Node.AliasTargets
import MSearchDB.Node.WriteBatcher
import MSearchDB.Node.BatchReplies
import MSearchDB.Client.Request
import MSearchDB.Client.Sniff
import MSearchDB.Node.WriteResponses
import MSearchDB.Client.QueryBuilder
import MSearchDB.Client.BulkPayload
