import Libogc.Lib.Numerals
import Libogc.Lib.Links
import Libogc.Lib.Runs
import Libogc.Lib.Deque
import Libogc.Lwp.Priority
import Libogc.Lwp.Queue
import Libogc.Lwp.Kernel
import Libogc.Lwp.Threads
import Libogc.Lwp.Sched
import Libogc.Lwp.ThreadQ
import Libogc.Lwp.WaitLists
import Libogc.Lwp.Blocking
import Libogc.Lwp.Enqueue
import Libogc.Lwp.PrioQueue
import Libogc.Lwp.Boot
import Libogc.Lwp.PrioRuns
import Libogc.Lwp.Wakeups
import Libogc.Lwp.Sema
import Libogc.Lwp.SemaRuns
import Libogc.Lwp.Mutex
import Libogc.Lwp.MutexRuns
import Libogc.Lwp.Messages
import Libogc.Lwp.MessageLists
import Libogc.Lwp.MessageRuns
import Libogc.Lib.Chains
import Libogc.Lwp.Heap
import Libogc.Lwp.HeapRuns
import Libogc.Lwp.Watchdog
import Libogc.Lwp.WatchdogRuns
import Libogc.Sys.Alarm
import Libogc.Aram.Arqueue
import Libogc.Aram.ArqueueRuns
import Libogc.Aram.ArqueueLaw
import Libogc.Ios.Ipc
import Libogc.Ios.IpcRuns
import Libogc.Dsp.Dsp
import Libogc.Dsp.DspRuns
import Libogc.Exi.Exi
import Libogc.Exi.ExiRuns
import Libogc.Sys.Sram
import Libogc.Sys.SramRuns
import Libogc.Lwp.Objmgr
import Libogc.Lwp.ObjmgrRuns
import Libogc.Lwp.Objects
import Libogc.Lwp.ObjectRuns
import Libogc.Lwp.MutexPrio
import Libogc.Lwp.WaitOrder
import Libogc.Lwp.MutexOrder
import Libogc.Lwp.MutexInherit
import Libogc.Sys.Arena
import Libogc.Console.Console
import Libogc.Console.ConsoleRuns
import Libogc.Lib.Bytes
import Libogc.Sys.Conf
import Libogc.Si.Si
import Libogc.Si.SiRuns
import Libogc.Iso9660.Cached
import Libogc.Iso9660.Directory
import Libogc.Iso9660.Decode
import Libogc.Iso9660.Robust
import Libogc.Iso9660.PathTable
import Libogc.Sys.SramRetry
import Libogc.Dvd.Dvd
import Libogc.Dvd.DvdSteps
import Libogc.Dvd.DvdRuns
import Libogc.Dvd.DvdOnce
import Libogc.Dvd.DvdRead
import Libogc.Dvd.DvdPause
import Libogc.Dvd.DvdCancel
import Libogc.Si.N64
import Libogc.Si.N64Runs
import Libogc.Card.Card
import Libogc.Card.Icons
import Libogc.Lwp.Tickle
import Libogc.Card.Alloc
import Libogc.Card.Find
import Libogc.Card.Seek
import Libogc.Card.Commands
import Libogc.Card.Verify
import Libogc.Db.Breakpoints
import Libogc.Card.ReadWrite
import Libogc.Card.Cursor
import Libogc.Card.Written
import Libogc.Card.Content
import Libogc.Card.Directory
import Libogc.Card.Keys
import Libogc.Aram.ArqueueOwner
import Libogc.Ios.CreateHeap
import Libogc.Lib.Ledger
import Libogc.Sys.Timespec
import Libogc.Ios.Ioctlv
import Libogc.Ios.Format
import Libogc.Ios.FormatRuns
import Libogc.Ios.FormatParsed
import Libogc.Lwp.Cond
import Libogc.Lwp.CondRuns
import Libogc.Lwp.HeapSizes
import Libogc.Lwp.HeapTwice
import Libogc.Lwp.Mqbox
import Libogc.Aram.ArqueueChunks
import Libogc.Iso9660.Path
import Libogc.Iso9660.PathSplit
import Libogc.Lib.BackRefs
import Libogc.Sys.Yay0
import Libogc.Console.ConsoleClear
import Libogc.Console.ConsoleReads
import Libogc.Sys.ConfBounds
import Libogc.Sys.ConfText
import Libogc.Sys.Irq
import Libogc.Usb.UsbStorage
import Libogc.Lib.Pool
import Libogc.Smb.SmbFiles
import Libogc.Usb.UsbMessages
import Libogc.Lwp.Join
import Libogc.Lwp.JoinRuns
import Libogc.Smb.SmbReads
import Libogc.Smb.SmbReadFile
import Libogc.Smb.SmbPath
import Libogc.Smb.SmbStat
import Libogc.Usb.UsbTransfer
import Libogc.Ios.EsFile
import Libogc.Usb.UsbIoctlv
import Libogc.Sys.Tpl
import Libogc.Smb.SmbSetUp
import Libogc.Smb.SmbReadWrite
import Libogc.Smb.SmbWriteBack
import Libogc.Lib.Locking
import Libogc.Smb.SmbLock
import Libogc.Card.Files
import Libogc.Card.Durable
import Libogc.Card.Power
import Libogc.Card.Cipher
import Libogc.Lib.Crc
import Libogc.Lib.CrcPoly
import Libogc.Exi.Sdgecko
import Libogc.Exi.ExiTransfer
import Libogc.Db.Numbers
import Libogc.Db.Packets
import Libogc.Card.Steps
import Libogc.Lib.OnesSum
import Libogc.Lwip.Chksum
import Libogc.Lwip.IpFrag
