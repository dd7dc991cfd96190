import Kvnet.Execution
import Kvnet.ListSegment
import Kvnet.Pool
import Kvnet.QueueRefinement
import Kvnet.IoRead
import Kvnet.IoWrite
import Kvnet.NetDev
import Kvnet.IoDev
import Kvnet.Lifecycle
import Kvnet.Uninterrupted
import Kvnet.Polling
import Kvnet.Cancellation
import Kvnet.WriteBatch
import Kvnet.Backends
import Kvnet.ClosedHandle
import Kvnet.ModuleLoad
import Kvnet.OpenRace
import Kvnet.Readiness
import Kvnet.AdjustChecksum
import Kvnet.Dump
import Kvnet.QueueSections
import Kvnet.Delivery
import Kvnet.DriverLife
import Kvnet.Loopback
import Kvnet.Client
import Kvnet.ClientStop
import Kvnet.ClientJoin
import Kvnet.ClientMemory
import Kvnet.Statistics
import Kvnet.RequestMemory
import Kvnet.Descriptors
import Kvnet.Reception
