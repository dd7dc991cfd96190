import Kvnet.SkBuff

/-!
# The packet queue

`struct queue` and its operations. The lock of the queue is not a field: each
operation below is the body of one lock section, and which sections exist and
how they interleave is the business of the modules that run them. The source
writes each operation twice, `__queue_f` for callers that hold the lock and
`queue_f` with the same body between acquire_lock and release_lock.
-/

set_option linter.style.nameCheck false

namespace Kvnet

structure Queue where
  head : Addr
  tail : Addr
  size : Int32
  enabled : Int32
  deriving DecidableEq

/-- queue_init. What the memory held before is overwritten field by field. -/
def queueInit (_q : Queue) : Queue where
  head := NULL
  tail := NULL
  size := 0
  enabled := 0

/-- queue_close: whether the warning about packets still left is traced. -/
def queueClose (q : Queue) : Bool := decide (q.head ≠ NULL)

def __isQueueEnabled (q : Queue) : Int32 := q.enabled

def isQueueEnabled (q : Queue) : Int32 := __isQueueEnabled q

def __queueEnable (q : Queue) (enable : Int32) : Queue := { q with enabled := enable }

def queueEnable (q : Queue) (enable : Int32) : Queue := __queueEnable q enable

def __queueIsEmpty (q : Queue) : Int32 := if q.size = 0 then 1 else 0

def queueIsEmpty (q : Queue) : Int32 := __queueIsEmpty q

def __queueLen (q : Queue) : Int32 := q.size

def queueLen (q : Queue) : Int32 := __queueLen q

def __queueInsert (m : SkbMem) (q : Queue) (buf : Addr) : SkbMem × Queue :=
  let m := m.setNextPkt .buf buf NULL
  if q.head = NULL then
    (m, { q with head := buf, tail := buf, size := q.size + 1 })
  else
    (m.setNextPkt .tail q.tail buf, { q with tail := buf, size := q.size + 1 })

def queueInsert (m : SkbMem) (q : Queue) (buf : Addr) : SkbMem × Queue := __queueInsert m q buf

def __queueRemove (m : SkbMem) (q : Queue) : Addr × SkbMem × Queue :=
  if q.head ≠ NULL then
    let buf := q.head
    let (head, m) := m.getNextPkt .head q.head
    (buf, m.setNextPkt .buf buf NULL, { q with head := head, size := q.size - 1 })
  else
    (NULL, m, q)

def queueRemove (m : SkbMem) (q : Queue) : Addr × SkbMem × Queue := __queueRemove m q

/-- The loop `while ((skb = __queue_remove(q))) kfree_skb(skb)` of
net_dev_flush_tx_queue with its counter; none when the fuel runs out first. -/
def flushLoop : Nat → SkbMem → Queue → Int32 → Option (SkbMem × Queue × Int32)
  | 0, _, _, _ => none
  | fuel + 1, m, q, flushed =>
    let (skb, m, q) := __queueRemove m q
    if skb = NULL then
      some (m, q, flushed)
    else
      flushLoop fuel (m.kfreeSkb skb) q (flushed + 1)

end Kvnet
