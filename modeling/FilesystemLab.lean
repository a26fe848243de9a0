import FilesystemLab.Recovery
import FilesystemLab.AllocationDisk
import FilesystemLab.SymlinkPayload
import FilesystemLab.CheckedRecovery
import FilesystemLab.Tables
import FilesystemLab.JournalRun
import FilesystemLab.CreateTransaction
import FilesystemLab.NamespaceRepair
import FilesystemLab.RecursiveRemove
import FilesystemLab.RenamePosix
import FilesystemLab.NamespaceRun
import FilesystemLab.CloneReplace
import FilesystemLab.Geometry
import FilesystemLab.StoredTables
import FilesystemLab.BufferCache
import FilesystemLab.CacheBounds
import FilesystemLab.FormatDevice
import FilesystemLab.FileResize
import FilesystemLab.BlockResize
import FilesystemLab.ExtendingWrite
import FilesystemLab.RangeCopy
import FilesystemLab.BlockSplice
import FilesystemLab.BlockConservation
import FilesystemLab.FileClone
import FilesystemLab.PathReference
import FilesystemLab.Defragment
import FilesystemLab.FileExtents
import FilesystemLab.FreeSpace
import FilesystemLab.DirectoryPaging
import FilesystemLab.FormatCapacity
import FilesystemLab.AllocatorRun
import FilesystemLab.InodeOwnership
import FilesystemLab.MemoryDirectory
import FilesystemLab.BlockRange
import FilesystemLab.JournalReplay
import FilesystemLab.JournalLogRun
import FilesystemLab.OneTransaction
import FilesystemLab.Lib.CallRun
import FilesystemLab.DiskVolume
import FilesystemLab.FileCalls
import FilesystemLab.ContiguousClone
import FilesystemLab.DirectoryListing
import FilesystemLab.FilePairCalls
import FilesystemLab.VolumeRun
import FilesystemLab.PathExtents
