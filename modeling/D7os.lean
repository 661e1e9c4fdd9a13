import D7os.Lib.AList
import D7os.Lib.Except
import D7os.Lib.List
import D7os.Lib.Bits
import D7os.Ipc.Topic
import D7os.Ipc.List
import D7os.Multitasking.WaitFor
import D7os.Multitasking.Queues
import D7os.Ipc.Mailbox
import D7os.Ipc.Manager
import D7os.Ipc.Services
import D7os.Ipc.Bookkeeping
import D7os.Ipc.Operations
import D7os.Ipc.Reachable
import D7os.Ipc.Faults
import D7os.Ipc.Request
import D7os.Ipc.RequestReply
import D7os.Multitasking.Scheduler
import D7os.Multitasking.Termination
import D7os.Memory.Dma
import D7os.Memory.Paging
import D7os.Memory.PageWalk
import D7os.Memory.Phys
import D7os.Memory.Virt
import D7os.Util.ElfParser
import D7os.Multitasking.ElfLoader
import D7os.Multitasking.Process
import D7os.Syscall.Dispatch
import D7os.Boot.InitrdAddress
import D7os.Initrd.Image
import D7os.Net.Bytes
import D7os.Net.Dns
import D7os.Net.Dhcp
import D7os.Net.DhcpClient
import D7os.Net.Checksum
import D7os.Net.Ethernet
import D7os.Smp.Sleep
import D7os.Driver.Rtl8139
import D7os.Driver.Rsdp
import D7os.Driver.Ps2
import D7os.Driver.Rtc
import D7os.Libd7.Allocator
import D7os.Libd7.Select
import D7os.Memory.Map
import D7os.Multitasking.Wakeup
import D7os.Serviced.Services
import D7os.Net.TcpHandler
import D7os.Net.IpAddr
import D7os.Multitasking.MemorySlice
import D7os.Multitasking.Args
import D7os.Multitasking.Occupancy
import D7os.Lib.Rows
import D7os.Console.Output
import D7os.Lib.Utf8
import D7os.Syslog.KernelLog
import D7os.Lib.Fuel
import D7os.Console.Keyboard
import D7os.Console.Daemon
import D7os.Driver.Madt
import D7os.Driver.IoApic
