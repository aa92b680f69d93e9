import Ssdfs.MaptblCache.Run
import Ssdfs.Maptbl.Unallocated
import Ssdfs.Lib.Shares
import Ssdfs.Write.Check
import Ssdfs.Write.Placed
import Ssdfs.Write.Peb
import Ssdfs.Write.Stream
import Ssdfs.Write.PebRun
import Ssdfs.Lib.Align
import Ssdfs.Log.Define
import Ssdfs.Log.Place
import Ssdfs.Log.Fits
import Ssdfs.Log.Layouts
import Ssdfs.Lib.Exact
import Ssdfs.Lib.Wire
import Ssdfs.BlkDesc.Decode
import Ssdfs.OffTable.Encode
import Ssdfs.OffTable.Run
import Ssdfs.OffTable.Decode
import Ssdfs.Segbmap.Coverage
import Ssdfs.Segbmap.Sound
import Ssdfs.LogTables.Define
import Ssdfs.LogTables.Run
import Ssdfs.LogTables.Payload
import Ssdfs.LogTables.Agree
import Ssdfs.Segbmap.Bitmap
import Ssdfs.Segbmap.SegIds
import Ssdfs.Mkfs.Create
import Ssdfs.Mkfs.LebIds
import Ssdfs.Lib.Runs
import Ssdfs.MaptblSb.Header
import Ssdfs.MaptblSb.Extents
import Ssdfs.MaptblSb.Segs
import Ssdfs.Fsck.Maptbl
import Ssdfs.Fsck.MaptblRun
import Ssdfs.Lib.Cursor
import Ssdfs.Recover.BlkDesc
import Ssdfs.Recover.BlkDescRun
import Ssdfs.Recover.BlkDescDrain
import Ssdfs.Recover.BlkDescLog
import Ssdfs.Dump.BlkDesc
import Ssdfs.Dump.OffTable
import Ssdfs.OffTable.Account
import Ssdfs.OffTable.Single
import Ssdfs.Dump.OffTableShown
import Ssdfs.Lib.FirstSet
import Ssdfs.Recover.PebRange
import Ssdfs.Volume.Header
import Ssdfs.Fsck.CreationPoint
import Ssdfs.Lib.Insertion
import Ssdfs.Fsck.CreationMerge
import Ssdfs.Maptbl.MapOrder
import Ssdfs.Dump.Maptbl
import Ssdfs.Write.Segments
import Ssdfs.Mkfs.Erased
import Ssdfs.MaptblCache.Log
import Ssdfs.Mkfs.CacheCommit
import Ssdfs.MaptblCache.Committed
import Ssdfs.Blkbmap.Areas
import Ssdfs.Blkbmap.Decode
import Ssdfs.Blkbmap.Run
import Ssdfs.HandOut.SbHeader
import Ssdfs.Segbmap.Place
import Ssdfs.Log.Pages
import Ssdfs.Maptbl.Stripes
import Ssdfs.MaptblSb.Chains
import Ssdfs.MaptblSb.Geometry
import Ssdfs.Mkfs.Cleanup
import Ssdfs.Mkfs.EraseRange
import Ssdfs.Write.Zones
import Ssdfs.Commit.Check
import Ssdfs.Commit.Footer
import Ssdfs.Commit.Meta
import Ssdfs.Commit.Tables
import Ssdfs.Commit.Thresholds
import Ssdfs.Lib.Blocks
import Ssdfs.Maptbl.PebCheck
import Ssdfs.Maptbl.PebCheckRun
import Ssdfs.MaptblCache.Complete
import Ssdfs.Device.Transfer
import Ssdfs.Lib.Decimal
import Ssdfs.Lib.Fieldwise
import Ssdfs.Recover.BlockName
import Ssdfs.Recover.InlineFiles
import Ssdfs.Recover.Snapshot
import Ssdfs.Fsck.FoundLog
import Ssdfs.Fsck.LastLog
import Ssdfs.Fsck.LastLogRun
import Ssdfs.Fsck.SbChain
import Ssdfs.Lib.Report
import Ssdfs.Recover.BlockState
import Ssdfs.Recover.BlockStateRun
import Ssdfs.Recover.AreaAccess
import Ssdfs.Recover.BlkDescWalk
import Ssdfs.Recover.PebWalk
import Ssdfs.Recover.PebWalkRun
import Ssdfs.Commit.MetadataBlks
import Ssdfs.Dump.Blkbmap
import Ssdfs.Dump.LogWalk
import Ssdfs.Dump.LogsShown
import Ssdfs.Fsck.Detection
import Ssdfs.Mkfs.EraseDevice
import Ssdfs.Volume.KeyOptions
import Ssdfs.Dump.Segbmap
import Ssdfs.Dump.SegbmapShown
import Ssdfs.Dump.AreaParsers
import Ssdfs.BlkDesc.Place
import Ssdfs.Log.UserData
import Ssdfs.Commit.HeaderLogs
import Ssdfs.Fsck.CacheReadBack
import Ssdfs.Fsck.OwnSlots
import Ssdfs.Lib.Threads
import Ssdfs.Mkfs.ReadBack
import Ssdfs.Mkfs.MarkedBlks
import Ssdfs.Recover.NewestBlock
