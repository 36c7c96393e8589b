import Fsapfs.Deflate.Truncation
import Fsapfs.FileData.SealedContents
import Fsapfs.Btree.ObjectMapLookup
import Fsapfs.Btree.FileExtentListing
import Fsapfs.Btree.DirectorySearch
import Fsapfs.Btree.Descents
import Fsapfs.Btree.SubNodeResolution
import Fsapfs.CacheRoom
import Fsapfs.Snapshots.TreeWalks
import Fsapfs.Snapshots.Lookup
import Fsapfs.Snapshots.Completeness
import Fsapfs.Btree.NameComparison
import Fsapfs.Container
import Fsapfs.Checkpoints
import Fsapfs.Zbitmap
import Fsapfs.Unlocking
import Fsapfs.FileData.EntryRecovery
import Fsapfs.CompressedData.BlockOffsets
import Fsapfs.CompressedData.StoredBlocks
import Fsapfs.Deflate.Adler32Loops
import Fsapfs.HuffmanCodes
import Fsapfs.KeyWrap
import Fsapfs.PasswordKey
import Fsapfs.Passwords
import Fsapfs.Btree.NameEncodings
import Fsapfs.Btree.NodeData
import Fsapfs.FileData.AttributeStreams
import Fsapfs.FileData.SectorTweaks
import Fsapfs.Btree.CachedListing
import Fsapfs.Checksum
import Fsapfs.ExtendedFields
import Fsapfs.SnapshotName
import Fsapfs.PathEscapes
import Fsapfs.StoredKeyBags
import Fsapfs.StoredKeys
import Fsapfs.FileEntries.Navigation
import Fsapfs.Btree.StoredNodes
import Fsapfs.ContainerObjects
import Fsapfs.VolumeLock
import Fsapfs.Opening
