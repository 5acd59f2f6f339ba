import IcsOs.Lib.WriteBack
import IcsOs.Lib.Runs
import IcsOs.Lib.Intrusive
import IcsOs.Lib.Ledger
import IcsOs.Lib.Overlay
import IcsOs.Lib.LinkMap
import IcsOs.Lib.Checked
import IcsOs.BlkCache.PageCache
import IcsOs.BlkCache.Requests
import IcsOs.BlkCache.ReadPath
import IcsOs.BlkCache.WritePath
import IcsOs.BlkCache.Coherence
import IcsOs.BlkCache.Occupancy
import IcsOs.BlkCache.Contract
import IcsOs.BlkCache.FlushRace
import IcsOs.BlkCache.FlushSound
import IcsOs.BlkCache.Bookkeeping
import IcsOs.BlkCache.Custody
import IcsOs.Memory.FramePool
import IcsOs.Memory.FrameInit
import IcsOs.Vfs.OpenFiles
import IcsOs.Vfs.Namespace
import IcsOs.Vfs.Buffering
import IcsOs.Posix.Descriptors
import IcsOs.Memory.Vma
import IcsOs.Memory.FileMaps
import IcsOs.Process.WaitQueue
import IcsOs.Fat.Table
import IcsOs.Fat.Files
import IcsOs.Fat.RoundTrip
import IcsOs.Fat.Chains
import IcsOs.Net.Input
import IcsOs.Net.Safety
import IcsOs.Devmgr.Lifecycle
import IcsOs.Devmgr.References
import IcsOs.Process.CritSections
import IcsOs.Memory.Layout
import IcsOs.Process.Completions
import IcsOs.Ext4.Files
import IcsOs.Ext4.Bounds
import IcsOs.Ext4.Blocks
import IcsOs.Process.Scheduler
import IcsOs.Net.UdpSockets
import IcsOs.Fat.DeviceCaches
import IcsOs.Net.Progress
import IcsOs.Posix.Uring
import IcsOs.Virtio.Requests
import IcsOs.Net.Buffers
import IcsOs.Lib.Claims
import IcsOs.Net.SockLifetimes
import IcsOs.Lib.Tokens
import IcsOs.Vfs.Paths
import IcsOs.Hardware.Iommu
import IcsOs.Hardware.IrqVectors
import IcsOs.Partition.Windows
import IcsOs.Console.CanonTty
import IcsOs.Lib.Updates
import IcsOs.Lib.Words
import IcsOs.Partition.Gpt
import IcsOs.Console.VtScreen
import IcsOs.Vfs.OpenModes
import IcsOs.Sdk.Heap
import IcsOs.Lib.Forests
import IcsOs.Vfs.Mounts
import IcsOs.Vfs.MountBalance
import IcsOs.Lib.SlotTable
import IcsOs.Sdk.Stdio
import IcsOs.Vfs.DirectIo
import IcsOs.Memory.MapCalls
import IcsOs.Process.KillTree
import IcsOs.Ext4.Inodes
import IcsOs.Sdk.Calendar
import IcsOs.Console.Klog
import IcsOs.Process.Zombies
import IcsOs.Process.Messages
