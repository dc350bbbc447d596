import DecentDb.Db.SnapshotImmutability
import DecentDb.Exec.DecimalArithmetic
import DecentDb.Exec.TrackingSoundness
import DecentDb.Query.ColumnMasks
import DecentDb.Query.OrderedPages
import DecentDb.Query.PlanCache
import DecentDb.Query.SetOperations
import DecentDb.Query.ValueOrder
import DecentDb.Query.WindowFrames
import DecentDb.Reactive.RangeWatches
import DecentDb.Reactive.WatchDelivery
import DecentDb.Record.KeyOrder
import DecentDb.Spatial.Index
import DecentDb.Sync.ImportOnce
import DecentDb.Sync.Retention
import DecentDb.Sync.ShapeConvergence
import DecentDb.Wal.CommitAtomicity
import DecentDb.Wal.DurabilityBarrier
import DecentDb.Wal.ReaderRetention
import DecentDb.Wal.RecoveryClosure
import DecentDb.Wal.SharedRegistry
import DecentDb.Wal.TornCopyback
