import Kvnet.Vnet
import Kvnet.QueueRefinement

/-!
# The network interface

net_dev_send is called by the network stack, net_dev_open and net_dev_close
when the interface goes up and down, net_dev_add and net_dev_remove when the
character device is opened and closed. A function that drains the queue takes
fuel and returns none when it runs out.
-/

namespace Kvnet

/-- The lock section of net_dev_send, and whether it inserted the buffer. The
length of the queue is an int, tx_queue_len an unsigned long. -/
def netDevSendSection (w : World) (skb : Addr) (txQueueLen : UInt64) : World × Bool :=
  if __isQueueEnabled w.queue = 0 ∨ txQueueLen ≤ (__queueLen w.queue).toInt64.toUInt64 then
    let w := w.withStats { w.stats with txDropped := w.stats.txDropped + 1 }
    (w.withMem (w.mem.kfreeSkb skb), false)
  else
    let (m, q) := __queueInsert w.mem w.queue skb
    (w.withQueue m q, true)

/-- net_dev_send. The io_dev_wakeup that follows an insertion acts on waiting
readers, of which a sequential world has none. -/
def netDevSend (w : World) (skb : Addr) (txQueueLen : UInt64) : World :=
  (netDevSendSection w skb txQueueLen).1

/-- net_dev_flush_tx_queue -/
def netDevFlushTxQueue (fuel : Nat) (w : World) : Option World :=
  (flushLoop fuel w.mem w.queue 0).map fun (m, q, flushed) =>
    let w := w.withQueue m q
    w.withStats { w.stats with txDropped := w.stats.txDropped + flushed.toUInt32 }

def World.enableQueue (w : World) (enable : Int32) : World :=
  w.withQueue w.mem (queueEnable w.queue enable)

def World.withConnected (w : World) (connected : Int32) : World :=
  { w with vnet := { w.vnet with netDev := { w.vnet.netDev with connected := connected } } }

/-- net_dev_open -/
def netDevOpen (w : World) : World := (w.enableQueue 1).withConnected 1

/-- net_dev_close -/
def netDevClose (fuel : Nat) (w : World) : Option World :=
  (netDevFlushTxQueue fuel (w.enableQueue 0)).map fun w => w.withConnected 0

def World.withDevice (w : World) (device : Addr) : World :=
  { w with vnet := { w.vnet with netDev := { w.vnet.netDev with device := device } } }

def World.withAdded (w : World) (added : Int32) : World :=
  { w with vnet := { w.vnet with netDev := { w.vnet.netDev with added := added } } }

/-- alloc_netdev: a device at a fresh address, or NULL. -/
def allocNetdev (w : World) (succeeds : Bool) : Addr × World :=
  if succeeds then
    (w.kernel.fresh, { w with kernel := { w.kernel with
      netdevs := w.kernel.netdevs ++ [.alloc w.kernel.fresh], fresh := w.kernel.fresh + 1 } })
  else (NULL, w)

/-- register_netdev with the error code it returns, zero for success. -/
def registerNetdev (w : World) (dev : Addr) (error : Int) : Int × World :=
  if error = 0 then
    (0, { w with kernel := { w.kernel with
      netdevs := w.kernel.netdevs ++ [.register dev], registered := dev, up := false } })
  else (error, w)

/-- unregister_netdev takes the interface down first. -/
def unregisterNetdev (fuel : Nat) (w : World) (dev : Addr) : Option World :=
  (if w.kernel.up then netDevClose fuel w else some w).map fun w =>
    { w with kernel := { w.kernel with
      netdevs := w.kernel.netdevs ++ [.unregister dev], registered := NULL, up := false } }

def freeNetdev (w : World) (dev : Addr) : World :=
  { w with kernel := { w.kernel with netdevs := w.kernel.netdevs ++ [.free dev] } }

/-- net_dev_remove -/
def netDevRemove (fuel : Nat) (w : World) : Option World :=
  if w.vnet.netDev.device ≠ NULL then
    (if w.vnet.netDev.added ≠ 0 then unregisterNetdev fuel w w.vnet.netDev.device
      else some w).map fun w =>
        ((freeNetdev w w.vnet.netDev.device).withDevice NULL).withAdded 0
  else some w

/-- net_dev_add: the error code and the world after it. -/
def netDevAdd (fuel : Nat) (alloc : Bool) (register : Int) (w : World) : Option (Int × World) :=
  let (device, w) := allocNetdev w alloc
  let w := w.withDevice device
  let (ret, w) :=
    if device = NULL then (-ENOMEM, w)
    else
      let (ret, w) := registerNetdev w device register
      if ret ≠ 0 then (ret, w) else (ret, w.withAdded 1)
  if ret ≠ 0 then (netDevRemove fuel w).map fun w => (ret, w) else some (ret, w)

/-- The test by which net_dev_send drops a packet. -/
def SendDrops (q : Queue) (txQueueLen : UInt64) : Prop :=
  __isQueueEnabled q = 0 ∨ txQueueLen ≤ (__queueLen q).toInt64.toUInt64

theorem netDevSendSection_drops {w : World} {skb : Addr} {txQueueLen : UInt64}
    (h : SendDrops w.queue txQueueLen) : netDevSendSection w skb txQueueLen =
      ((w.withStats { w.stats with txDropped := w.stats.txDropped + 1 }).withMem
        (w.mem.kfreeSkb skb), false) :=
  if_pos h

theorem netDevSendSection_inserts {w : World} {skb : Addr} {txQueueLen : UInt64}
    (h : ¬ SendDrops w.queue txQueueLen) : netDevSendSection w skb txQueueLen =
      (w.withQueue (__queueInsert w.mem w.queue skb).1 (__queueInsert w.mem w.queue skb).2, true) :=
  if_neg h

theorem insert_frame (w : World) (skb : Addr) : World.TxFrame w
    (w.withQueue (__queueInsert w.mem w.queue skb).1 (__queueInsert w.mem w.queue skb).2) :=
  ⟨rfl, rfl, rfl, rfl, rfl, queueInsert_enabled w.mem w.queue skb, rfl⟩

theorem send_frame (w : World) (skb : Addr) (txQueueLen : UInt64) :
    World.TxFrame w (netDevSendSection w skb txQueueLen).1 := by
  by_cases h : SendDrops w.queue txQueueLen
  · rw [netDevSendSection_drops h]
    exact (World.TxFrame.withStats w _).trans (World.TxFrame.withMem _ _)
  · rw [netDevSendSection_inserts h]
    exact insert_frame w skb

/-- An insertion frees nothing. -/
theorem queueInsert_freed {m : SkbMem} {q : Queue} {xs : List Addr} (h : Represents m q xs)
    (buf : Addr) : (__queueInsert m q buf).1.freed = m.freed := by
  rw [SkbMem.freed, queueInsert_log h, List.filterMap_append]
  by_cases hne : xs = []
  · rw [dif_pos hne]
    exact List.append_nil _
  · rw [dif_neg hne]
    exact List.append_nil _

structure Flushed (w w' : World) (xs : List Addr) : Prop where
  represents : Represents w'.mem w'.queue []
  frame : World.TxFrame w w'
  log : w'.mem.log = w.mem.log ++ drainLog xs
  stats : w'.stats = { w.stats with
    txDropped := w.stats.txDropped + UInt32.ofNat xs.length }

theorem Flushed.freed {w w' : World} {xs : List Addr} (h : Flushed w w' xs) :
    w'.mem.freed = w.mem.freed ++ xs := by
  rw [SkbMem.freed, h.log, List.filterMap_append, drainLog_freed]
  rfl

theorem flush_drains {fuel : Nat} {w w' : World} {xs : List Addr}
    (h : Represents w.mem w.queue xs) (ends : netDevFlushTxQueue fuel w = some w') :
    Flushed w w' xs := by
  obtain ⟨⟨m, q, flushed⟩, hloop, rfl⟩ := Option.map_eq_some_iff.mp ends
  obtain ⟨count, drained⟩ := flushLoop_drained h hloop
  refine ⟨drained.empty, ⟨rfl, rfl, rfl, rfl, rfl, drained.enabled, rfl⟩, drained.log, ?_⟩
  rw [count]
  simp

theorem flush_returns {fuel : Nat} {w : World} {xs : List Addr}
    (h : Represents w.mem w.queue xs) (enough : xs.length < fuel) :
    ∃ w', netDevFlushTxQueue fuel w = some w' := by
  obtain ⟨m, q, hloop, _⟩ := flushLoop_terminates h enough 0
  exact ⟨_, Option.map_eq_some_iff.mpr ⟨_, hloop, rfl⟩⟩

theorem enableQueue_represents {w : World} {xs : List Addr} (h : Represents w.mem w.queue xs)
    (enable : Int32) : Represents (w.enableQueue enable).mem (w.enableQueue enable).queue xs :=
  h.enable enable

/-- What taking the interface down leaves. -/
structure Closed (w w' : World) (xs : List Addr) : Prop where
  represents : Represents w'.mem w'.queue []
  enabled : w'.queue.enabled = 0
  freed : w'.mem.freed = w.mem.freed ++ xs
  stats : w'.stats = { w.stats with
    txDropped := w.stats.txDropped + UInt32.ofNat xs.length }
  ioDev : w'.vnet.ioDev = w.vnet.ioDev
  added : w'.vnet.netDev.added = w.vnet.netDev.added
  device : w'.vnet.netDev.device = w.vnet.netDev.device
  cfg : w'.vnet.cfg = w.vnet.cfg
  kernel : w'.kernel = w.kernel

theorem netDevClose_closes {fuel : Nat} {w w' : World} {xs : List Addr}
    (h : Represents w.mem w.queue xs) (ends : netDevClose fuel w = some w') : Closed w w' xs := by
  obtain ⟨v, hflush, rfl⟩ := Option.map_eq_some_iff.mp ends
  have flushed := flush_drains (enableQueue_represents h 0) hflush
  exact ⟨flushed.represents, flushed.frame.enabled, flushed.freed, flushed.stats,
    flushed.frame.ioDev, flushed.frame.added, flushed.frame.device, flushed.frame.cfg,
    flushed.frame.rx⟩

theorem netDevClose_returns {fuel : Nat} {w : World} {xs : List Addr}
    (h : Represents w.mem w.queue xs) (enough : xs.length < fuel) :
    ∃ w', netDevClose fuel w = some w' := by
  obtain ⟨v, hflush⟩ := flush_returns (enableQueue_represents h 0) enough
  exact ⟨_, Option.map_eq_some_iff.mpr ⟨v, hflush, rfl⟩⟩

end Kvnet
