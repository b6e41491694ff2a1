import HAL9000.CommonLib.Ordered
import HAL9000.CommonLib.Compare
import HAL9000.CommonLib.Spinlock
import HAL9000.HashTable.Iterate
import HAL9000.HashTable.Hash
import HAL9000.ClHeap.Room
import HAL9000.Vm.Decommit
import HAL9000.Vm.PageFault
import HAL9000.Pe.Bounds
import HAL9000.Pe.Rights
import HAL9000.Storage.Isolation
import HAL9000.Fat32.Path
import HAL9000.Fat32.Visit
import HAL9000.Fat32.LongName
import HAL9000.Fat32.Loops
import HAL9000.Fat32.Count
import HAL9000.Fat32.Size
import HAL9000.Pci.Find
import HAL9000.Iomu.Vectors
import HAL9000.Iomu.Uptime
import HAL9000.Keyboard.Recall
import HAL9000.NetworkPort.Orderly
import HAL9000.NetworkPort.Register
import HAL9000.NetworkPort.DeviceStatus
import HAL9000.Ipc.Delivery
import HAL9000.RwSpin.Recursive
import HAL9000.Event.Wakeup
import HAL9000.Sched.References
import HAL9000.Sched.Priority
import HAL9000.Thread.Priority
import HAL9000.Thread.Handover
import HAL9000.Thread.Donation
import HAL9000.Process.CommandLine
import HAL9000.Process.Lifetime
import HAL9000.ZeroWorker.Progress
