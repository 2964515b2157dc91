import HpLib.Common.ByteQueue
import HpLib.Common.Chunking
import HpLib.Common.MessageQueue
import HpLib.Common.Resize
import HpLib.Common.Wakeup
import HpLib.Common.Threads
import HpLib.Communication.ModulesCommunicationManager
import HpLib.DataAccess.DataAccessModule
import HpLib.Peripheral.Accepting
import HpLib.Peripheral.ClientIds
import HpLib.Peripheral.ClientStream
import HpLib.Peripheral.ClientTable
import HpLib.Peripheral.Commands
import HpLib.Peripheral.Decode
import HpLib.Peripheral.FindMessages
import HpLib.Peripheral.Independence
import HpLib.Peripheral.LengthMask
import HpLib.Peripheral.LifeCycle
import HpLib.Peripheral.OldCompletions
import HpLib.Peripheral.Partition
import HpLib.Peripheral.Pings
import HpLib.Peripheral.Pointers
import HpLib.Peripheral.SerialReads
import HpLib.Peripheral.SetBuffer
import HpLib.Peripheral.Validation
import HpLib.Peripheral.Wedge
import HpLib.Common.Draining
import HpLib.Peripheral.Accessors
import HpLib.Peripheral.BufferSize
import HpLib.Peripheral.Broadcast
import HpLib.Peripheral.Checksum
import HpLib.Peripheral.Scheduling
import HpLib.Peripheral.Framing
import HpLib.Peripheral.PingDelay
import HpLib.Peripheral.Connected
import HpLib.Communication.MessageThreads
import HpLib.DataAccess.FileThreads
import HpLib.Peripheral.Lifetime
import HpLib.Peripheral.SerialBytes
import HpLib.Peripheral.Shared
import HpLib.Peripheral.RoundTrip
import HpLib.Peripheral.SerialThreads
