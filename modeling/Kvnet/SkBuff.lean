import Mathlib.Logic.Function.Basic
import Mathlib.Data.List.Basic
import Mathlib.Data.Int.ModEq

/-!
# Socket buffers and the accesses made to them

An skb is an address; what the driver uses of it is its next pointer and its
linear data. The memory keeps, beside the cells, the log of every access in
program order. The log is not read by the code: it is what the claims about
stale pointers, double frees and uses after a free are about.
-/

namespace Kvnet

abbrev Addr := Nat

abbrev NULL : Addr := 0

structure SkBuff where
  next : Addr
  data : List UInt8

/-- skb->len of a linear buffer. -/
def SkBuff.len (skb : SkBuff) : UInt32 := UInt32.ofNat skb.data.length

/-- The expression a pointer to an skb was taken from: the argument or local
`buf`, the field `q->head`, the field `q->tail`, or a reader's local `skb`. -/
inductive Via where
  | buf
  | head
  | tail
  | skb
  deriving DecidableEq, Repr

/-- An access of the driver, or `pass`: the network stack hands the buffer over. -/
inductive SkbEvent where
  | pass (skb : Addr)
  | load (via : Via) (skb : Addr)
  | store (via : Via) (skb : Addr)
  | free (skb : Addr)
  deriving DecidableEq, Repr

/-- The buffer an event hands to the driver. -/
def SkbEvent.passed : SkbEvent → Option Addr
  | .pass skb => some skb
  | _ => none

/-- The buffer an event frees. -/
def SkbEvent.freed : SkbEvent → Option Addr
  | .free skb => some skb
  | _ => none

/-- The buffer an event reaches through `q->tail`. -/
def SkbEvent.viaTail : SkbEvent → Option Addr
  | .load .tail skb | .store .tail skb => some skb
  | _ => none

structure SkbMem where
  cell : Addr → SkBuff
  log : List SkbEvent

namespace SkbMem

def next (m : SkbMem) (skb : Addr) : Addr := (m.cell skb).next

/-- The buffers freed so far, in order. -/
def freed (m : SkbMem) : List Addr := m.log.filterMap SkbEvent.freed

/-- The buffers handed to the driver so far, in order. -/
def passed (m : SkbMem) : List Addr := m.log.filterMap SkbEvent.passed

def pass (m : SkbMem) (skb : Addr) : SkbMem := { m with log := m.log ++ [.pass skb] }

/-- SET_NEXT_PKT -/
def setNextPkt (m : SkbMem) (via : Via) (pkt nextpkt : Addr) : SkbMem where
  cell := Function.update m.cell pkt { m.cell pkt with next := nextpkt }
  log := m.log ++ [.store via pkt]

/-- GET_NEXT_PKT -/
def getNextPkt (m : SkbMem) (via : Via) (pkt : Addr) : Addr × SkbMem :=
  (m.next pkt, { m with log := m.log ++ [.load via pkt] })

def kfreeSkb (m : SkbMem) (skb : Addr) : SkbMem := { m with log := m.log ++ [.free skb] }

/-- Reading skb->len and skb->data. -/
def loadSkb (m : SkbMem) (via : Via) (skb : Addr) : SkBuff × SkbMem :=
  (m.cell skb, { m with log := m.log ++ [.load via skb] })

@[simp] theorem setNextPkt_next (m : SkbMem) (via : Via) (pkt nextpkt : Addr) :
    (m.setNextPkt via pkt nextpkt).next = Function.update m.next pkt nextpkt := by
  funext skb
  by_cases h : skb = pkt
  · subst h
    simp [setNextPkt, next]
  · simp [setNextPkt, next, h]

@[simp] theorem setNextPkt_log (m : SkbMem) (via : Via) (pkt nextpkt : Addr) :
    (m.setNextPkt via pkt nextpkt).log = m.log ++ [.store via pkt] := rfl

@[simp] theorem setNextPkt_data (m : SkbMem) (via : Via) (pkt nextpkt skb : Addr) :
    ((m.setNextPkt via pkt nextpkt).cell skb).data = (m.cell skb).data := by
  by_cases h : skb = pkt
  · subst h
    simp [setNextPkt]
  · simp [setNextPkt, h]

@[simp] theorem kfreeSkb_next (m : SkbMem) (skb : Addr) : (m.kfreeSkb skb).next = m.next := rfl

@[simp] theorem kfreeSkb_log (m : SkbMem) (skb : Addr) :
    (m.kfreeSkb skb).log = m.log ++ [.free skb] := rfl

@[simp] theorem loadSkb_next (m : SkbMem) (via : Via) (skb : Addr) :
    (m.loadSkb via skb).2.next = m.next := rfl

@[simp] theorem loadSkb_log (m : SkbMem) (via : Via) (skb : Addr) :
    (m.loadSkb via skb).2.log = m.log ++ [.load via skb] := rfl

end SkbMem

end Kvnet
