import PolyBook.Types
import PolyBook.FixedPoint
import PolyBook.Book
import PolyBook.Capacity
import PolyBook.BookTotals
import PolyBook.SnapshotFold
import PolyBook.LiveState
import PolyBook.Library.TreeMap
import PolyBook.Library.Sorting
import PolyBook.Library.Overwrite
import PolyBook.Library.Interleaving
import PolyBook.LiveAsset
import PolyBook.SnapshotGroups
import PolyBook.Agreement
import PolyBook.Producers
import PolyBook.PrunedHistory
import PolyBook.Replay
import PolyBook.ReplayLoop
import PolyBook.LiveReplay
import PolyBook.Dispatcher
import PolyBook.ShadowLog
import PolyBook.FeedReset
import PolyBook.ResetDedupe
import PolyBook.BookRepair
import PolyBook.SnapshotAge
import PolyBook.CrossCheck
import PolyBook.ReplayEngine
import PolyBook.ReplayReset
import PolyBook.GapCheck
import PolyBook.StorageOrder
import PolyBook.Integrity
import PolyBook.CheckpointGaps
import PolyBook.MergedGroups
import PolyBook.ArrivalOrder
import PolyBook.ExchangeWindow
import PolyBook.Library.Loop
import PolyBook.Library.Runs
import PolyBook.Library.Framing
import PolyBook.Library.Folds
import PolyBook.Library.Batches
import PolyBook.Wal.Frame
import PolyBook.Wal.Writer
import PolyBook.Wal.Reader
import PolyBook.Wal.Layout
import PolyBook.Wal.Scan
import PolyBook.Wal.StrictScan
import PolyBook.Wal.ReaderSafety
import PolyBook.Wal.AppendAtomic
import PolyBook.Wal.DamagedFrame
import PolyBook.Wal.Tail
import PolyBook.Wal.TailDelivery
import PolyBook.Wal.PowerLoss
import PolyBook.Wal.CommittedPosition
import PolyBook.Wal.TornTail
import PolyBook.Wal.TornWrite
import PolyBook.Wal.PrunedGap
import PolyBook.Wal.Codec
import PolyBook.Hydration
import PolyBook.Recovery
import PolyBook.OffsetOrder
import PolyBook.Ingest
import PolyBook.CheckpointReplay
import PolyBook.HydrationTransparency
import PolyBook.CheckpointAcceleration
import PolyBook.CheckpointCuts
import PolyBook.ReplayValidation
import PolyBook.FalseAlarms
import PolyBook.LateChanges
import PolyBook.ParquetSink
import PolyBook.Library.PrefixCode
import PolyBook.Library.Separated
import PolyBook.StorageKey
import PolyBook.RecoveryWriter
import PolyBook.Reconcile
import PolyBook.Reconnection
import PolyBook.Resnapshot
import PolyBook.RecoveryManifest
import PolyBook.RecoveryPublication
import PolyBook.RecoveryReaders
import PolyBook.Projector
import PolyBook.ResetMarks
import PolyBook.ProjectorViews
import PolyBook.ActiveSet
import PolyBook.ServedLevels
import PolyBook.AlikeAssets
import PolyBook.Rehydration
import PolyBook.TailSession
import PolyBook.HydratedLog
import PolyBook.LogEntries
import PolyBook.ServeRuntime
import PolyBook.Library.ByteCodec
import PolyBook.Wal.RecordCodec
import PolyBook.Wal.LittleEndian
import PolyBook.Library.RecordBatch
import PolyBook.Library.FlatJson
import PolyBook.Schema
import PolyBook.StoredRows
import PolyBook.Wal.Retained
import PolyBook.Wal.Retention
import PolyBook.Library.InTransit
import PolyBook.Library.Broadcast
import PolyBook.BookUpdates
import PolyBook.Streaming
import PolyBook.StreamOrder
import PolyBook.FeedPipeline
import PolyBook.Numbering
import PolyBook.LossExposure
import PolyBook.ReceiveOrder
import PolyBook.Library.Calendar
import PolyBook.PartitionHours
import PolyBook.Library.Recency
import PolyBook.FollowTracker
import PolyBook.Library.PlaceValue
import PolyBook.DecimalText
import PolyBook.Library.FixedWidth
import PolyBook.HourText
import PolyBook.Library.Grouping
import PolyBook.ObjectPaths
import PolyBook.WriteBatch
import PolyBook.CheckpointLookup
import PolyBook.Library.Hoare
import PolyBook.RecoveryMetadata
import PolyBook.ReplaceGroup
import PolyBook.AssetObjects
import PolyBook.Library.Selection
import PolyBook.SinkRun
import PolyBook.Archive
import PolyBook.Failover
import PolyBook.FeedDelivery
import PolyBook.MarketDiscovery
import PolyBook.Rotation
import PolyBook.IngestProcess
