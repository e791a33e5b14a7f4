import OneOS.Audit.BlockchainAudit
import OneOS.Audit.ChainIntegrity
import OneOS.Audit.EventLog
import OneOS.Audit.TamperEvidence
import OneOS.Auth.AuthManager
import OneOS.Auth.Authentication
import OneOS.Auth.Revocation
import OneOS.Broker.DeliveryOrder
import OneOS.Broker.MessageBroker
import OneOS.Broker.RingQueues
import OneOS.Caching.CacheEntries
import OneOS.Caching.DistributedCache
import OneOS.Caching.Expiry
import OneOS.Cli.CommandDispatch
import OneOS.Cli.CommandLine
import OneOS.Cli.ShellSession
import OneOS.Clustering.Consensus
import OneOS.Clustering.ConsensusLog
import OneOS.Clustering.ElectionSafety
import OneOS.Clustering.LogShape
import OneOS.Clustering.QuorumOperations
import OneOS.Clustering.ReplicaConsistency
import OneOS.Clustering.ReplicationManager
import OneOS.Clustering.SingleVote
import OneOS.Cryptography.CertificateManager
import OneOS.Cryptography.CertificateRevocation
import OneOS.Cryptography.EncryptionEngine
import OneOS.Cryptography.KeyBinding
import OneOS.Cryptography.SessionRoundTrip
import OneOS.DiskCache.BlockAccounts
import OneOS.DiskCache.Blocks
import OneOS.DiskCache.Coherence
import OneOS.DiskCache.DirtyBlocks
import OneOS.DiskCache.DiskCacheBuffer
import OneOS.Distributed.ConsensusNode
import OneOS.Distributed.DistributedStorage
import OneOS.Distributed.NodeVotes
import OneOS.Distributed.TombstoneCleanup
import OneOS.FaultTolerance.CheckpointRecovery
import OneOS.FaultTolerance.Crc32
import OneOS.FaultTolerance.DeadlockDetector
import OneOS.FaultTolerance.ForgedChecksums
import OneOS.FaultTolerance.RecoveryPoints
import OneOS.Filesystem.FileTable
import OneOS.Filesystem.Journal
import OneOS.Filesystem.JournalChecksum
import OneOS.Filesystem.JournalContents
import OneOS.Filesystem.JournalDurability
import OneOS.Filesystem.JournalFinality
import OneOS.Filesystem.JournalNumbering
import OneOS.Filesystem.JournalOwnership
import OneOS.Filesystem.JournalPending
import OneOS.Filesystem.JournalRecovery
import OneOS.Filesystem.JournalRestart
import OneOS.Filesystem.JournalSpace
import OneOS.Filesystem.StoredJournal
import OneOS.Foundation.AffineFolds
import OneOS.Foundation.ArraySlots
import OneOS.Foundation.Arrays
import OneOS.Foundation.BufferedLines
import OneOS.Foundation.CStrings
import OneOS.Foundation.Compaction
import OneOS.Foundation.Counters
import OneOS.Foundation.ExchangeSort
import OneOS.Foundation.Grid
import OneOS.Foundation.InjectiveFolds
import OneOS.Foundation.KeyedPlaces
import OneOS.Foundation.LeastRows
import OneOS.Foundation.LinkedBlocks
import OneOS.Foundation.Logs
import OneOS.Foundation.NestedTables
import OneOS.Foundation.NumberedTable
import OneOS.Foundation.PartialRuns
import OneOS.Foundation.Pictures
import OneOS.Foundation.Quorum
import OneOS.Foundation.RepeatableSteps
import OneOS.Foundation.Ring
import OneOS.Foundation.Rotation
import OneOS.Foundation.RowRecords
import OneOS.Foundation.Runs
import OneOS.Foundation.Severed
import OneOS.Foundation.ShiftRegisters
import OneOS.Foundation.Slots
import OneOS.Foundation.StoredTables
import OneOS.Foundation.StringSearch
import OneOS.Foundation.Table
import OneOS.Foundation.Tokens
import OneOS.Graphics.GraphicsCore
import OneOS.Graphics.PaintedPictures
import OneOS.Graphics.PictureBounds
import OneOS.Graphics.PixelMemory
import OneOS.Graphics.ScrolledPictures
import OneOS.IoScheduling.ArrayBounds
import OneOS.IoScheduling.Dispatch
import OneOS.IoScheduling.IoScheduler
import OneOS.IoScheduling.QueueArrays
import OneOS.IoScheduling.QueueView
import OneOS.IoScheduling.SortedQueues
import OneOS.Ipc.BufferBounds
import OneOS.Ipc.IpcManager
import OneOS.Ipc.MessageQueues
import OneOS.Ipc.Pipes
import OneOS.KvStore.AcknowledgedWrites
import OneOS.KvStore.Compaction
import OneOS.KvStore.Handles
import OneOS.KvStore.KvStores
import OneOS.KvStore.TransactionalWrites
import OneOS.KvStore.Transactions
import OneOS.KvStore.VersionHistory
import OneOS.LoadBalancing.HealthAccounting
import OneOS.LoadBalancing.LoadBalancer
import OneOS.LoadBalancing.RequestSpread
import OneOS.LoadBalancing.Selection
import OneOS.Logging.NewestEntries
import OneOS.Logging.SystemLogger
import OneOS.Memory.BlockManager
import OneOS.Memory.CollectedMemory
import OneOS.Memory.Deduplication
import OneOS.Memory.MarkSweepCollector
import OneOS.Memory.MemoryOptimizer
import OneOS.Memory.OptimizerAccounts
import OneOS.Memory.PagedMemory
import OneOS.Memory.PagedMemoryAccounting
import OneOS.Memory.PagedMemoryIsolation
import OneOS.Memory.PoolAccounting
import OneOS.Memory.PoolAllocator
import OneOS.Memory.References
import OneOS.Multiplexing.AsyncCompletions
import OneOS.Multiplexing.AsyncIoManager
import OneOS.Multiplexing.EpollEquivalent
import OneOS.Multiplexing.EventDelivery
import OneOS.Multiplexing.EventReactor
import OneOS.Multiplexing.OneShot
import OneOS.Networking.ArpTable
import OneOS.Networking.Firewall
import OneOS.Networking.RouteSelection
import OneOS.Networking.TcpStreams
import OneOS.PageCache.Accounting
import OneOS.PageCache.DirtyCounts
import OneOS.PageCache.DirtyPages
import OneOS.PageCache.LfuEviction
import OneOS.PageCache.PageCacheManager
import OneOS.PageCache.PinnedPages
import OneOS.PageCache.ReadYourWrites
import OneOS.PageCache.SlotCases
import OneOS.PageCache.Slots
import OneOS.Realtime.AdmissionControl
import OneOS.Realtime.RealtimeManager
import OneOS.Resources.PoolConservation
import OneOS.Resources.PoolExtents
import OneOS.Resources.ResourceAllocator
import OneOS.Scheduling.Affinity
import OneOS.Scheduling.CpuRunQueues
import OneOS.Scheduling.CpuScheduler
import OneOS.Scheduling.FairSelection
import OneOS.Scheduling.ProcessScheduler
import OneOS.Scheduling.RunQueues
import OneOS.Scheduling.TaskScheduler
import OneOS.Scheduling.TaskStates
import OneOS.SecureCommunication.CipherNegotiation
import OneOS.Security.Accounts
import OneOS.Security.Identities
import OneOS.Security.SecurityCore
import OneOS.SecurityCrypto.CryptoCore
import OneOS.SecurityCrypto.PkiManagement
import OneOS.Streams.Delivery
import OneOS.Streams.Offsets
import OneOS.Streams.StreamProcessor
import OneOS.Threads.MutexExclusion
import OneOS.Threads.SemaphoreCounting
import OneOS.Threads.ThreadManager
import OneOS.Threads.WaitLists
import OneOS.Virtualization.AtomicAllocation
import OneOS.Virtualization.LiveMigration
import OneOS.Virtualization.MemoryAccounting
import OneOS.Virtualization.MigrationEndings
import OneOS.Virtualization.VmResourceManager
