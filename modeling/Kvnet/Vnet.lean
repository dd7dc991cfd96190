import Kvnet.Platform
import Kvnet.Queue

/-!
# The main vnet object and the world around it

`Vnet` is what gs_vnet points to. `Kernel` is what the driver leaves with the
kernel: the frames handed to netif_rx_ni, and the life of the net devices it
allocated.
-/

namespace Kvnet

structure IoDev where
  added : Int32
  opened : Int32
  canceled : Int32
  deriving DecidableEq

structure NetStats where
  rxPackets : UInt32
  txPackets : UInt32
  rxErrors : UInt32
  txErrors : UInt32
  rxDropped : UInt32
  txDropped : UInt32
  rxBytes : UInt32
  txBytes : UInt32
  rxFifoErrors : UInt32
  txFifoErrors : UInt32
  deriving DecidableEq

structure NetDev where
  added : Int32
  connected : Int32
  stats : NetStats
  queue : Queue
  device : Addr
  deriving DecidableEq

structure Cfg where
  mac : List UInt8
  maxQueueLen : Int32
  deriving DecidableEq

structure Vnet where
  ioDev : IoDev
  netDev : NetDev
  cfg : Cfg
  deriving DecidableEq

/-- A buffer of the receive path, from dev_alloc_skb to netif_rx_ni: the room
asked for, the bytes reserved in front of the data, the data, and the bytes
eth_type_trans took for the Ethernet header. -/
structure RxSkb where
  room : UInt32
  headroom : Nat
  data : List UInt8
  macHeader : List UInt8
  deriving DecidableEq

inductive NetdevEvent where
  | alloc (dev : Addr)
  | register (dev : Addr)
  | unregister (dev : Addr)
  | free (dev : Addr)
  deriving DecidableEq

def NetdevEvent.dev : NetdevEvent → Addr
  | .alloc dev | .register dev | .unregister dev | .free dev => dev

/-- `fresh` is the address the next alloc_netdev returns; `registered` is the
net device registered now, or NULL, and `up` its IFF_UP. -/
structure Kernel where
  rx : List RxSkb
  netdevs : List NetdevEvent
  fresh : Addr
  registered : Addr
  up : Bool

structure World where
  mem : SkbMem
  user : UserMem
  vnet : Vnet
  kernel : Kernel

namespace World

def queue (w : World) : Queue := w.vnet.netDev.queue

def stats (w : World) : NetStats := w.vnet.netDev.stats

def withMem (w : World) (mem : SkbMem) : World := { w with mem := mem }

def withUser (w : World) (user : UserMem) : World := { w with user := user }

def withQueue (w : World) (mem : SkbMem) (queue : Queue) : World :=
  { w with mem := mem, vnet := { w.vnet with netDev := { w.vnet.netDev with queue := queue } } }

def withStats (w : World) (stats : NetStats) : World :=
  { w with vnet := { w.vnet with netDev := { w.vnet.netDev with stats := stats } } }

/-- queue_remove(&vnet->net_dev.queue) -/
def queueRemove (w : World) : Addr × World :=
  let (skb, mem, q) := Kvnet.queueRemove w.mem w.queue
  (skb, w.withQueue mem q)

variable (w : World) (mem : SkbMem) (user : UserMem) (q : Queue) (st : NetStats)

@[simp] theorem withMem_mem : (w.withMem mem).mem = mem := rfl
@[simp] theorem withMem_queue : (w.withMem mem).queue = w.queue := rfl
@[simp] theorem withMem_stats : (w.withMem mem).stats = w.stats := rfl
@[simp] theorem withMem_user : (w.withMem mem).user = w.user := rfl
@[simp] theorem withUser_mem : (w.withUser user).mem = w.mem := rfl
@[simp] theorem withUser_queue : (w.withUser user).queue = w.queue := rfl
@[simp] theorem withUser_stats : (w.withUser user).stats = w.stats := rfl
@[simp] theorem withQueue_mem : (w.withQueue mem q).mem = mem := rfl
@[simp] theorem withQueue_queue : (w.withQueue mem q).queue = q := rfl
@[simp] theorem withQueue_stats : (w.withQueue mem q).stats = w.stats := rfl
@[simp] theorem withStats_mem : (w.withStats st).mem = w.mem := rfl
@[simp] theorem withStats_queue : (w.withStats st).queue = w.queue := rfl
@[simp] theorem withStats_stats : (w.withStats st).stats = st := rfl

/-- What a packet on the transmit path can change: buffers, user memory, the
queue and two counters. All flags, the device and the receive path are kept. -/
structure TxFrame (w w' : World) : Prop where
  ioDev : w'.vnet.ioDev = w.vnet.ioDev
  added : w'.vnet.netDev.added = w.vnet.netDev.added
  connected : w'.vnet.netDev.connected = w.vnet.netDev.connected
  device : w'.vnet.netDev.device = w.vnet.netDev.device
  cfg : w'.vnet.cfg = w.vnet.cfg
  enabled : w'.queue.enabled = w.queue.enabled
  rx : w'.kernel = w.kernel

theorem TxFrame.refl : TxFrame w w := ⟨rfl, rfl, rfl, rfl, rfl, rfl, rfl⟩

theorem TxFrame.withMem : TxFrame w (w.withMem mem) := ⟨rfl, rfl, rfl, rfl, rfl, rfl, rfl⟩

theorem TxFrame.withUser : TxFrame w (w.withUser user) := ⟨rfl, rfl, rfl, rfl, rfl, rfl, rfl⟩

theorem TxFrame.withStats : TxFrame w (w.withStats st) := ⟨rfl, rfl, rfl, rfl, rfl, rfl, rfl⟩

theorem TxFrame.trans {w w' w'' : World} (h : TxFrame w w') (h' : TxFrame w' w'') :
    TxFrame w w'' :=
  ⟨h'.ioDev.trans h.ioDev, h'.added.trans h.added, h'.connected.trans h.connected,
    h'.device.trans h.device, h'.cfg.trans h.cfg, h'.enabled.trans h.enabled, h'.rx.trans h.rx⟩

end World

end Kvnet
