import KaushOS.Library.CircularList
import KaushOS.Library.HandOff
import KaushOS.Library.Occurrences
import KaushOS.Library.Paths
import KaushOS.Library.Transition
import KaushOS.Inc.Assert
import KaushOS.Inc.List
import KaushOS.Ke.Dispatcher
import KaushOS.Ke.Dpc
import KaushOS.Ke.SchedulerRuns
import KaushOS.Ke.Scheduler
import KaushOS.Ke.SchedulerOrder
import KaushOS.Ke.WaitLists
import KaushOS.Ke.WaitRuns
import KaushOS.Ke.Semaphore
import KaushOS.Ke.Mutant
import KaushOS.Ob.Object
import KaushOS.Ob.Name
import KaushOS.Ob.Resolution
import KaushOS.Ob.Accounting
import KaushOS.Ob.AccountingRuns
import KaushOS.Library.Tiling
import KaushOS.Mm.Pool
import KaushOS.Mm.PoolInvariant
import KaushOS.Mm.PoolRuns
import KaushOS.Hal.Irql
import KaushOS.Ke.InterruptRuns
import KaushOS.Ke.InterruptLevels
import KaushOS.Ke.InterruptMask
import KaushOS.Ke.InterruptNesting
import KaushOS.Ke.DpcDrain
import KaushOS.Ob.Dereference
import KaushOS.Ob.CreateInvariant
import KaushOS.Ob.Visible
import KaushOS.Ob.UniqueNames
import KaushOS.Ke.LockHandOff
import KaushOS.Inc.Bitmap
import KaushOS.Mm.Ptes
import KaushOS.Ps.Process
import KaushOS.Ps.ProcessRuns
import KaushOS.Ps.ProcessInvariant
import KaushOS.Ps.Destruction
import KaushOS.Ke.SemaphoreLimit
import KaushOS.Ke.SpinLocks
import KaushOS.Ob.HandleRuns
import KaushOS.Ke.Events
import KaushOS.Ke.Notification
import KaushOS.Drivers.Ide
import KaushOS.Drivers.IdeRuns
import KaushOS.Mm.PoolThreads
import KaushOS.Ob.StaleEntries
import KaushOS.Inc.BitmapWords
import KaushOS.Mm.Frames
import KaushOS.Mm.SystemPteRuns
import KaushOS.Ps.Creation
import KaushOS.Ps.Leaks
import KaushOS.Ps.Reaping
import KaushOS.Inc.BitmapAccess
import KaushOS.Inc.ListRuns
import KaushOS.Library.PhysicalMemory
import KaushOS.Mm.AddressSpaces
import KaushOS.Mm.Fork
import KaushOS.Mm.PoolCoalescing
import KaushOS.Mm.PoolRequests
import KaushOS.Mm.PoolVerification
import KaushOS.Mm.UserPtePools
import KaushOS.Ps.StackLeak
import KaushOS.Ke.DpcArguments
import KaushOS.Ke.Quantum
import KaushOS.Ke.RoundRobin
import KaushOS.Ke.Timer
import KaushOS.Ps.ExitProcess
import KaushOS.Ps.ProcessIds
import KaushOS.Ke.ThreadTermination
import KaushOS.Ps.CreationFailure
import KaushOS.Ke.TrapFrame
import KaushOS.Ke.TrapFrameRuns
import KaushOS.Library.PagedImage
import KaushOS.Library.Traced
import KaushOS.Mm.PrivatePages
import KaushOS.Ps.Loader
import KaushOS.Ps.LoaderImage
import KaushOS.Ob.CreateFailure
import KaushOS.Ob.Inheritance
import KaushOS.Ob.OpenIf
import KaushOS.Lib.Stdio
import KaushOS.Ob.DeviceResolution
import KaushOS.Ob.DeviceSpace
import KaushOS.Io.DeviceNames
import KaushOS.Io.FileCreation
import KaushOS.Io.FileErrors
import KaushOS.Ke.ForkRegisters
import KaushOS.Library.Grouping
import KaushOS.Lib.BoundedOutput
import KaushOS.Lib.DigitBuffer
import KaushOS.Lib.FormatScan
import KaushOS.Lib.Strtol
import KaushOS.Lib.NumberRoundTrip
import KaushOS.Io.FileTransfer
import KaushOS.Mm.Boot
import KaushOS.Mm.FrameCounts
import KaushOS.Mm.CopyOnWrite
import KaushOS.Drivers.DiskIo
import KaushOS.Fs.Allocation
import KaushOS.Fs.ChainRuns
import KaushOS.Fs.File
import KaushOS.Fs.FileData
import KaushOS.Fs.FileRead
import KaushOS.Fs.Driver
import KaushOS.Fs.FileRuns
import KaushOS.Fs.FreeClusters
import KaushOS.Fs.Mount
