import EvtDrivenOs.Basic
import EvtDrivenOs.Lib.Run
import EvtDrivenOs.Lib.Ring
import EvtDrivenOs.Lib.Ledger
import EvtDrivenOs.Lib.Cells
import EvtDrivenOs.Lib.SlotTable
import EvtDrivenOs.Xdma.Basic
import EvtDrivenOs.Xdma.Receive
import EvtDrivenOs.Xdma.ReceiveQueue
import EvtDrivenOs.Xdma.ReceiveRun
import EvtDrivenOs.Xdma.ReceivePreempt
import EvtDrivenOs.Xdma.ReceiveLatch
import EvtDrivenOs.Xdma.Transmit
import EvtDrivenOs.Xdma.TransmitQueue
import EvtDrivenOs.Xdma.TransmitRun
import EvtDrivenOs.Xdma.TransmitUnlock
import EvtDrivenOs.Xdma.TransmitAdmit
import EvtDrivenOs.Fat.Table
import EvtDrivenOs.Fat.Run
import EvtDrivenOs.Fat.Mount
import EvtDrivenOs.Netdev
import EvtDrivenOs.Xdma.Sound
import EvtDrivenOs.Sound.Service
import EvtDrivenOs.Sound.Refill
import EvtDrivenOs.Lib.Chunks
import EvtDrivenOs.Sound.Playback
import EvtDrivenOs.Sound.Descriptors
import EvtDrivenOs.Lib.RingBuffer
import EvtDrivenOs.Uart.Receive
import EvtDrivenOs.Uart.Preempt
import EvtDrivenOs.Lib.Terminal
import EvtDrivenOs.Console.Print
import EvtDrivenOs.Console.Window
import EvtDrivenOs.Lib.X64
import EvtDrivenOs.Console.Cursor
import EvtDrivenOs.Ide.Pata
import EvtDrivenOs.Ide.Wait
import EvtDrivenOs.Ide.Return
import EvtDrivenOs.Ide.Ready
import EvtDrivenOs.Ide.Disk
import EvtDrivenOs.Ide.Volumes
import EvtDrivenOs.Diskio
import EvtDrivenOs.Lib.Cache
import EvtDrivenOs.Xcache
import EvtDrivenOs.Sdcard.Card
import EvtDrivenOs.Sdcard.Coherence
import EvtDrivenOs.Sdcard.Request
import EvtDrivenOs.Ethernet.Phy
import EvtDrivenOs.Ethernet.Link
import EvtDrivenOs.Ethernet.Mdio
import EvtDrivenOs.Xdma.Signals
import EvtDrivenOs.Xtimer
import EvtDrivenOs.Keyb
import EvtDrivenOs.Disks
import EvtDrivenOs.Lib.X64Bytes
import EvtDrivenOs.Memory
import EvtDrivenOs.Lib.X64Strings
import EvtDrivenOs.Strings
import EvtDrivenOs.Strcmp
import EvtDrivenOs.Lib.Lanes
import EvtDrivenOs.SecService
import EvtDrivenOs.Lib.Paging
import EvtDrivenOs.Boot
import EvtDrivenOs.Boot.Start
import EvtDrivenOs.Xdma.Geometry
import EvtDrivenOs.Fat.Time
import EvtDrivenOs.Fat.Closed
import EvtDrivenOs.Sound.Header
import EvtDrivenOs.Ethernet.Phylink
import EvtDrivenOs.Lib.Custody
import EvtDrivenOs.Ethernet.Input
import EvtDrivenOs.Ps2
import EvtDrivenOs.Ps2.Setup
import EvtDrivenOs.Console.Delete
import EvtDrivenOs.Strtoul
import EvtDrivenOs.Lib.Text
import EvtDrivenOs.Wheels
import EvtDrivenOs.Prompt
import EvtDrivenOs.Uart.Service
import EvtDrivenOs.Rtmsure
import EvtDrivenOs.Systime
import EvtDrivenOs.Lib.MicroBlaze
import EvtDrivenOs.Exceptions
import EvtDrivenOs.CacheRange
import EvtDrivenOs.Xcache.Words
import EvtDrivenOs.Xdma.RingMemory
import EvtDrivenOs.Lib.History
import EvtDrivenOs.Sdcard.Store
import EvtDrivenOs.Lib.X64Words
import EvtDrivenOs.Ide.Content
import EvtDrivenOs.Ide.Store
import EvtDrivenOs.Irq.Devices
import EvtDrivenOs.Irq.Keyboard
import EvtDrivenOs.Irq.Routing
