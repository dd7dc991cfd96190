import Kvnet.IoDev
import Kvnet.Execution
import Kvnet.Pool

/-!
# Interleavings of the driver's threads

Any number of senders, readers, pollers and cancellers, and one thread that
takes the interface up and down. A step is a lock section, an access to a buffer
its thread owns, or one step of io_dev_poll or of a wake-up. An action names the
thread that moves and what the environment answers it.
-/

namespace Kvnet

/-- A thread in net_dev_send: before its lock section, or between its insertion
and its io_dev_wakeup. -/
inductive Sender where
  | entered (skb : Addr)
  | inserted

/-- Where a reader is in the loop of io_read_to_iovec: before queue_remove,
filling a packet, before kfree_skb, or after the loop. -/
inductive ReadPc where
  | remove
  | fill (skb : Addr)
  | free (skb : Addr) (failed : Int)
  | report

/-- A thread in io_read_to_iovec after the header checks, with `todo` indices to
go from i on. -/
structure Reader where
  iv : List Iovec
  hdr : KvnetHeader
  todo : Nat
  i : Nat
  ret : Int
  pc : ReadPc

/-- Where a poller is in io_dev_poll: before it reads the cancel flag, before
poll_wait, before it reads the queue size, back in the poll system call with a
mask, or asleep. -/
inductive PollPc where
  | testCanceled
  | pollWait
  | testQueue
  | tested (mask : Nat)
  | asleep
  deriving DecidableEq

/-- A thread in the poll system call of kvnet_read. `registered` says whether it
is on the wait queue, `triggered` whether a wake-up reached it since. -/
structure Poller where
  pc : PollPc
  registered : Bool
  triggered : Bool
  deriving DecidableEq

/-- The thread serialising net_dev_open and net_dev_close: the interface is
down, up, or net_dev_close is between queue_enable and the flush. -/
inductive Ctl where
  | down
  | up
  | closing
  deriving DecidableEq

/-- `cancelling` counts the cancel ioctls between their store and their wake-up;
`accepted` and `removed` are the buffers put on and taken off the queue so far. -/
structure Sys where
  world : World
  senders : List Sender
  readers : List Reader
  pollers : List Poller
  ctl : Ctl
  cancelling : Nat
  accepted : List Addr
  removed : List Addr

inductive Action where
  | sendEnter (skb : Addr)
  | sendSection (k : Nat) (txQueueLen : UInt64)
  | sendWakeup (k : Nat)
  | readEnter (iv : List Iovec) (len : Int) (env : HeaderEnv)
  | readRemove (k : Nat)
  | readFill (k : Nat) (fault : Option FillFault)
  | readFree (k : Nat)
  | readReport (k : Nat) (toIovec : Option Nat)
  | netDevOpen
  | closeDisable
  | closeFlush
  | pollEnter
  | poll (k : Nat)
  | pollSignal (k : Nat)
  | cancelSet
  | cancelWakeup
  | userStore (user : UserMem)

/-- What kvnet_read asks poll for; POLLERR and POLLHUP are always reported. -/
def requestedMask : Nat := POLLIN ||| POLLERR ||| POLLHUP

namespace Poller

/-- The wake-up function poll_wait puts on the wait queue. -/
def wake (p : Poller) : Poller := if p.registered then { p with triggered := true } else p

/-- The end of one round that found nothing: sleep, or poll again when a wake-up
has arrived meanwhile. -/
def again (p : Poller) : Poller :=
  if p.triggered then { p with pc := .testCanceled, triggered := false }
  else { p with pc := .asleep }

/-- The next step of a poller that does not return. -/
def next (w : World) (p : Poller) : Poller :=
  match p.pc with
  | .testCanceled =>
    if w.vnet.ioDev.canceled ≠ 0 then { p with pc := .tested canceledMask }
    else { p with pc := .pollWait }
  | .pollWait => { p with pc := .testQueue, registered := true }
  | .testQueue => { p with pc := .tested (queueMask w.queue) }
  | .tested _ | .asleep => p.again

/-- The system call returns with this mask. -/
def returns (p : Poller) : Bool :=
  match p.pc with
  | .tested mask => mask &&& requestedMask ≠ 0
  | _ => false

/-- Asleep with no wake-up pending. -/
def sleeps (p : Poller) : Bool := p.pc = .asleep && !p.triggered

end Poller

namespace Reader

/-- After one packet: the loop goes on while indices are left. -/
def advance (arch : Arch) (r : Reader) : Reader :=
  { r with
    todo := r.todo - 1
    i := r.i + 1
    ret := arch.toSsizeT (r.ret + 1)
    pc := if r.todo - 1 = 0 then .report else .remove }

/-- The buffer a reader holds. -/
def held (r : Reader) : Option Addr :=
  match r.pc with
  | .fill skb | .free skb _ => some skb
  | _ => none

end Reader

/-- A reader that goes on holds no buffer. -/
theorem Reader.advance_held (arch : Arch) (r : Reader) : (r.advance arch).held = none := by
  simp only [Reader.advance, Reader.held]
  by_cases last : r.todo - 1 = 0
  · rw [if_pos last]
  · rw [if_neg last]

/-- The buffer a sender is still handing over. -/
def Sender.handing : Sender → Option Addr
  | .entered skb => some skb
  | .inserted => none

namespace Sys

/-- io_dev_wakeup -/
def ioDevWakeup (s : Sys) : Sys := { s with pollers := s.pollers.map Poller.wake }

/-- Buffers still being handed to net_dev_send. -/
def handing (s : Sys) : List Addr := s.senders.filterMap Sender.handing

/-- Buffers held by readers. -/
def held (s : Sys) : List Addr := s.readers.filterMap Reader.held

/-- The fuel of the flush loop. -/
def fuel (s : Sys) : Nat := s.world.mem.passed.length + 1

def sendEnter (s : Sys) (skb : Addr) : Option Sys :=
  if skb ≠ NULL ∧ s.world.mem.passed.count skb = s.world.mem.freed.count skb then
    some { s with
      world := s.world.withMem (s.world.mem.pass skb)
      senders := s.senders ++ [.entered skb] }
  else none

def sendSection (s : Sys) (k : Nat) (txQueueLen : UInt64) : Option Sys :=
  match s.senders[k]? with
  | some (.entered skb) =>
    let (w, inserted) := netDevSendSection s.world skb txQueueLen
    if inserted then
      some { s with
        world := w, senders := s.senders.set k .inserted, accepted := s.accepted ++ [skb] }
    else some { s with world := w, senders := s.senders.eraseIdx k }
  | _ => none

def sendWakeup (s : Sys) (k : Nat) : Option Sys :=
  match s.senders[k]? with
  | some .inserted => some { s.ioDevWakeup with senders := s.senders.eraseIdx k }
  | _ => none

/-- A read that fails a header check is over at once. -/
def readEnter (arch : Arch) (s : Sys) (iv : List Iovec) (len : Int) (env : HeaderEnv) : Sys :=
  match fetchHeader arch s.world.user iv len env with
  | .error _ => s
  | .ok hdr => { s with readers := s.readers ++ [⟨iv, hdr, hdr.count.toNat, 0, 0, .remove⟩] }

def readRemove (s : Sys) (k : Nat) : Option Sys :=
  match s.readers[k]? with
  | some r =>
    match r.pc with
    | .remove =>
      let (skb, w) := s.world.queueRemove
      if skb = NULL then
        some { s with
          world := w, readers := s.readers.set k { r with ret := readEmpty r.ret, pc := .report } }
      else
        some { s with
          world := w, readers := s.readers.set k { r with pc := .fill skb }
          removed := s.removed ++ [skb] }
    | _ => none
  | none => none

def readFill (s : Sys) (k : Nat) (fault : Option FillFault) : Option Sys :=
  match s.readers[k]? with
  | some r =>
    match r.pc with
    | .fill skb =>
      let (w, failed) := ioReadFillNetworkPacket s.world (r.hdr.pkt r.i) skb fault
      some { s with world := w, readers := s.readers.set k { r with pc := .free skb failed } }
    | _ => none
  | none => none

def readFree (arch : Arch) (s : Sys) (k : Nat) : Option Sys :=
  match s.readers[k]? with
  | some r =>
    match r.pc with
    | .free skb failed =>
      some { s with
        world := s.world.withMem (s.world.mem.kfreeSkb skb)
        readers := s.readers.set k
          (if failed ≠ 0 then { r with ret := -EFAULT, pc := .report } else r.advance arch) }
    | _ => none
  | none => none

def readReport (arch : Arch) (s : Sys) (k : Nat) (toIovec : Option Nat) : Option Sys :=
  match s.readers[k]? with
  | some r =>
    match r.pc with
    | .report =>
      some { s with
        world := (reportCount arch s.world r.iv r.ret toIovec).world
        readers := s.readers.eraseIdx k }
    | _ => none
  | none => none

def netDevOpen (s : Sys) : Option Sys :=
  if s.ctl = .closing then none
  else some { s with world := Kvnet.netDevOpen s.world, ctl := .up }

def closeDisable (s : Sys) : Option Sys :=
  if s.ctl = .closing then none
  else some { s with world := s.world.enableQueue 0, ctl := .closing }

def closeFlush (s : Sys) : Option Sys :=
  if s.ctl = .closing then
    (netDevFlushTxQueue s.fuel s.world).map fun w =>
      { s with
        world := w.withConnected 0
        ctl := .down
        removed := s.removed ++ w.mem.freed.drop s.world.mem.freed.length }
  else none

def pollStep (s : Sys) (k : Nat) : Option Sys :=
  match s.pollers[k]? with
  | some p =>
    if p.sleeps then none
    else if p.returns then some { s with pollers := s.pollers.eraseIdx k }
    else some { s with pollers := s.pollers.set k (p.next s.world) }
  | none => none

/-- A signal ends the system call at the end of a round or during the sleep. -/
def pollSignal (s : Sys) (k : Nat) : Option Sys :=
  match s.pollers[k]? with
  | some p =>
    match p.pc with
    | .tested _ | .asleep => some { s with pollers := s.pollers.eraseIdx k }
    | _ => none
  | none => none

def cancelSet (s : Sys) : Sys :=
  { s with world := cancelPendingRead s.world, cancelling := s.cancelling + 1 }

def cancelWakeup (s : Sys) : Option Sys :=
  if s.cancelling = 0 then none
  else some { s.ioDevWakeup with cancelling := s.cancelling - 1 }

def step (arch : Arch) (s : Sys) : Action → Option Sys
  | .sendEnter skb => s.sendEnter skb
  | .sendSection k txQueueLen => s.sendSection k txQueueLen
  | .sendWakeup k => s.sendWakeup k
  | .readEnter iv len env => some (s.readEnter arch iv len env)
  | .readRemove k => s.readRemove k
  | .readFill k fault => s.readFill k fault
  | .readFree k => s.readFree arch k
  | .readReport k toIovec => s.readReport arch k toIovec
  | .netDevOpen => s.netDevOpen
  | .closeDisable => s.closeDisable
  | .closeFlush => s.closeFlush
  | .pollEnter => some { s with pollers := s.pollers ++ [⟨.testCanceled, false, false⟩] }
  | .poll k => s.pollStep k
  | .pollSignal k => s.pollSignal k
  | .cancelSet => some s.cancelSet
  | .cancelWakeup => s.cancelWakeup
  | .userStore user => some { s with world := s.world.withUser user }

/-- The driver after vnet_init, with nobody in it. -/
structure Fresh (s : Sys) : Prop where
  queue : s.world.queue = queueInit s.world.queue
  log : s.world.mem.log = []
  senders : s.senders = []
  readers : s.readers = []
  pollers : s.pollers = []
  ctl : s.ctl = .down
  cancelling : s.cancelling = 0
  accepted : s.accepted = []
  removed : s.removed = []

section Inversion

variable {s t : Sys} {k : Nat}

theorem sendEnter_inv {skb : Addr} (h : s.sendEnter skb = some t) :
    (skb ≠ NULL ∧ s.world.mem.passed.count skb = s.world.mem.freed.count skb) ∧
      t = { s with
        world := s.world.withMem (s.world.mem.pass skb)
        senders := s.senders ++ [.entered skb] } := by
  simp only [sendEnter, Option.ite_none_right_eq_some, Option.some.injEq] at h
  exact ⟨h.1, h.2.symm⟩

theorem sendSection_inv {txQueueLen : UInt64} (h : s.sendSection k txQueueLen = some t) :
    ∃ skb, s.senders[k]? = some (.entered skb) ∧
      (SendDrops s.world.queue txQueueLen ∧
        t = { s with
          world := (netDevSendSection s.world skb txQueueLen).1
          senders := s.senders.eraseIdx k } ∨
      ¬ SendDrops s.world.queue txQueueLen ∧
        t = { s with
          world := (netDevSendSection s.world skb txQueueLen).1
          senders := s.senders.set k .inserted
          accepted := s.accepted ++ [skb] }) := by
  rcases found : s.senders[k]? with _ | ⟨skb | _⟩
  · simp only [sendSection, found, reduceCtorEq] at h
  · refine ⟨skb, rfl, ?_⟩
    by_cases drops : SendDrops s.world.queue txQueueLen
    · have kept : (netDevSendSection s.world skb txQueueLen).2 = false := by
        rw [netDevSendSection_drops drops]
      simp only [sendSection, found, kept, Bool.false_eq_true, if_false, Option.some.injEq] at h
      exact Or.inl ⟨drops, h.symm⟩
    · have added : (netDevSendSection s.world skb txQueueLen).2 = true := by
        rw [netDevSendSection_inserts drops]
      simp only [sendSection, found, added, if_true, Option.some.injEq] at h
      exact Or.inr ⟨drops, h.symm⟩
  · simp only [sendSection, found, reduceCtorEq] at h

theorem sendWakeup_inv (h : s.sendWakeup k = some t) :
    s.senders[k]? = some .inserted ∧
      t = { s.ioDevWakeup with senders := s.senders.eraseIdx k } := by
  rcases found : s.senders[k]? with _ | ⟨skb | _⟩
  · simp only [sendWakeup, found, reduceCtorEq] at h
  · simp only [sendWakeup, found, reduceCtorEq] at h
  · simp only [sendWakeup, found, Option.some.injEq] at h
    exact ⟨rfl, h.symm⟩

theorem readEnter_inv (arch : Arch) (s : Sys) (iv : List Iovec) (len : Int) (env : HeaderEnv) :
    s.readEnter arch iv len env = s ∨
      ∃ hdr, hdr.count ≠ 0 ∧ s.readEnter arch iv len env =
        { s with readers := s.readers ++ [⟨iv, hdr, hdr.count.toNat, 0, 0, .remove⟩] } := by
  cases accepted : fetchHeader arch s.world.user iv len env with
  | error e => exact Or.inl (by simp only [readEnter, accepted])
  | ok hdr =>
    exact Or.inr ⟨hdr, (fetchHeader_ok accepted).1, by simp only [readEnter, accepted]⟩

theorem readRemove_inv (h : s.readRemove k = some t) :
    ∃ r, s.readers[k]? = some r ∧ r.pc = .remove ∧
      (s.world.queueRemove.1 = NULL ∧
        t = { s with
          world := s.world.queueRemove.2
          readers := s.readers.set k { r with ret := readEmpty r.ret, pc := .report } } ∨
      s.world.queueRemove.1 ≠ NULL ∧
        t = { s with
          world := s.world.queueRemove.2
          readers := s.readers.set k { r with pc := .fill s.world.queueRemove.1 }
          removed := s.removed ++ [s.world.queueRemove.1] }) := by
  cases found : s.readers[k]? with
  | none => simp only [readRemove, found, reduceCtorEq] at h
  | some r =>
    cases pc : r.pc with
    | remove =>
      refine ⟨r, rfl, pc, ?_⟩
      by_cases empty : s.world.queueRemove.1 = NULL
      · simp only [readRemove, found, pc, if_pos empty, Option.some.injEq] at h
        exact Or.inl ⟨empty, h.symm⟩
      · simp only [readRemove, found, pc, if_neg empty, Option.some.injEq] at h
        exact Or.inr ⟨empty, h.symm⟩
    | fill skb | free skb failed | report => simp only [readRemove, found, pc, reduceCtorEq] at h

theorem readFill_inv {fault : Option FillFault} (h : s.readFill k fault = some t) :
    ∃ r skb, s.readers[k]? = some r ∧ r.pc = .fill skb ∧
      t = { s with
        world := (ioReadFillNetworkPacket s.world (r.hdr.pkt r.i) skb fault).1
        readers := s.readers.set k { r with
          pc := .free skb (ioReadFillNetworkPacket s.world (r.hdr.pkt r.i) skb fault).2 } } := by
  cases found : s.readers[k]? with
  | none => simp only [readFill, found, reduceCtorEq] at h
  | some r =>
    cases pc : r.pc with
    | fill skb =>
      simp only [readFill, found, pc, Option.some.injEq] at h
      exact ⟨r, skb, rfl, pc, h.symm⟩
    | remove | free skb failed | report => simp only [readFill, found, pc, reduceCtorEq] at h

theorem readFree_inv {arch : Arch} (h : s.readFree arch k = some t) :
    ∃ r r' skb failed, s.readers[k]? = some r ∧ r.pc = .free skb failed ∧ r'.held = none ∧
      t = { s with
        world := s.world.withMem (s.world.mem.kfreeSkb skb)
        readers := s.readers.set k r' } := by
  cases found : s.readers[k]? with
  | none => simp only [readFree, found, reduceCtorEq] at h
  | some r =>
    cases pc : r.pc with
    | free skb failed =>
      simp only [readFree, found, pc, Option.some.injEq] at h
      refine ⟨r, _, skb, failed, rfl, pc, ?_, h.symm⟩
      by_cases failure : failed ≠ 0
      · rw [if_pos failure]
        rfl
      · rw [if_neg failure]
        exact r.advance_held arch
    | remove | fill skb | report => simp only [readFree, found, pc, reduceCtorEq] at h

theorem readReport_inv {arch : Arch} {toIovec : Option Nat}
    (h : s.readReport arch k toIovec = some t) :
    ∃ r, s.readers[k]? = some r ∧ r.pc = .report ∧
      t = { s with
        world := (reportCount arch s.world r.iv r.ret toIovec).world
        readers := s.readers.eraseIdx k } := by
  cases found : s.readers[k]? with
  | none => simp only [readReport, found, reduceCtorEq] at h
  | some r =>
    cases pc : r.pc with
    | report =>
      simp only [readReport, found, pc, Option.some.injEq] at h
      exact ⟨r, rfl, pc, h.symm⟩
    | remove | fill skb | free skb failed => simp only [readReport, found, pc, reduceCtorEq] at h

theorem netDevOpen_inv (h : s.netDevOpen = some t) :
    s.ctl ≠ .closing ∧ t = { s with world := Kvnet.netDevOpen s.world, ctl := .up } := by
  simp only [netDevOpen, Option.ite_none_left_eq_some, Option.some.injEq] at h
  exact ⟨h.1, h.2.symm⟩

theorem closeDisable_inv (h : s.closeDisable = some t) :
    s.ctl ≠ .closing ∧ t = { s with world := s.world.enableQueue 0, ctl := .closing } := by
  simp only [closeDisable, Option.ite_none_left_eq_some, Option.some.injEq] at h
  exact ⟨h.1, h.2.symm⟩

theorem closeFlush_inv (h : s.closeFlush = some t) :
    s.ctl = .closing ∧ ∃ w, netDevFlushTxQueue s.fuel s.world = some w ∧
      t = { s with
        world := w.withConnected 0
        ctl := .down
        removed := s.removed ++ w.mem.freed.drop s.world.mem.freed.length } := by
  simp only [closeFlush, Option.ite_none_right_eq_some] at h
  obtain ⟨w, flushed, rfl⟩ := Option.map_eq_some_iff.mp h.2
  exact ⟨h.1, w, flushed, rfl⟩

theorem pollStep_inv (h : s.pollStep k = some t) :
    ∃ p, s.pollers[k]? = some p ∧ p.sleeps = false ∧
      (p.returns = true ∧ t = { s with pollers := s.pollers.eraseIdx k } ∨
        p.returns = false ∧ t = { s with pollers := s.pollers.set k (p.next s.world) }) := by
  cases found : s.pollers[k]? with
  | none => simp only [pollStep, found, reduceCtorEq] at h
  | some p =>
    refine ⟨p, rfl, ?_⟩
    cases sleeps : p.sleeps with
    | true => simp [pollStep, found, sleeps] at h
    | false =>
      refine ⟨rfl, ?_⟩
      cases returns : p.returns with
      | true => exact Or.inl ⟨rfl, by simpa [pollStep, found, sleeps, returns] using h.symm⟩
      | false => exact Or.inr ⟨rfl, by simpa [pollStep, found, sleeps, returns] using h.symm⟩

/-- A poller that neither sleeps nor returns takes its next step. -/
theorem pollStep_next {p q : Poller} (found : s.pollers[k]? = some p) (awake : p.sleeps = false)
    (stays : p.returns = false) (next : p.next s.world = q) :
    s.pollStep k = some { s with pollers := s.pollers.set k q } := by
  simp [pollStep, found, awake, stays, next]

theorem pollSignal_inv (h : s.pollSignal k = some t) :
    t = { s with pollers := s.pollers.eraseIdx k } := by
  cases found : s.pollers[k]? with
  | none => simp only [pollSignal, found, reduceCtorEq] at h
  | some p =>
    cases pc : p.pc with
    | tested mask | asleep =>
      simp only [pollSignal, found, pc, Option.some.injEq] at h
      exact h.symm
    | testCanceled | pollWait | testQueue => simp only [pollSignal, found, pc, reduceCtorEq] at h

theorem cancelWakeup_inv (h : s.cancelWakeup = some t) :
    s.cancelling ≠ 0 ∧ t = { s.ioDevWakeup with cancelling := s.cancelling - 1 } := by
  simp only [cancelWakeup, Option.ite_none_left_eq_some, Option.some.injEq] at h
  exact ⟨h.1, h.2.symm⟩

end Inversion

/-- Nothing happens but that buffers may leave the queue: flags, pollers and the
wake-ups still owed are kept. -/
structure Quiet (s t : Sys) : Prop where
  accepted : t.accepted = s.accepted
  removed : ∃ gone, t.removed = s.removed ++ gone
  enabled : t.world.queue.enabled = s.world.queue.enabled
  canceled : t.world.vnet.ioDev.canceled = s.world.vnet.ioDev.canceled
  ctl : t.ctl = s.ctl
  cancelling : t.cancelling = s.cancelling
  pollers : t.pollers = s.pollers
  inserted : .inserted ∈ s.senders → .inserted ∈ t.senders

/-- A buffer enters the queue, and its sender owes a wake-up. -/
structure Inserts (s t : Sys) (skb : Addr) : Prop where
  accepted : t.accepted = s.accepted ++ [skb]
  removed : t.removed = s.removed
  enabled : t.world.queue.enabled = s.world.queue.enabled
  canceled : t.world.vnet.ioDev.canceled = s.world.vnet.ioDev.canceled
  ctl : t.ctl = s.ctl
  cancelling : t.cancelling = s.cancelling
  pollers : t.pollers = s.pollers
  inserted : .inserted ∈ t.senders

theorem quiet_of_frame {s t : Sys} (frame : World.TxFrame s.world t.world)
    (accepted : t.accepted = s.accepted) (removed : ∃ gone, t.removed = s.removed ++ gone)
    (ctl : t.ctl = s.ctl) (cancelling : t.cancelling = s.cancelling)
    (pollers : t.pollers = s.pollers) (inserted : .inserted ∈ s.senders → .inserted ∈ t.senders) :
    Quiet s t :=
  ⟨accepted, removed, frame.enabled, by rw [frame.ioDev], ctl, cancelling, pollers, inserted⟩

/-- What an action does to the queue's contents, its gate, and the pollers. -/
inductive Effect (s t : Sys) (a : Action) : Prop where
  | quiet (h : Quiet s t)
  | insert (k : Nat) (txQueueLen : UInt64) (skb : Addr) (ha : a = .sendSection k txQueueLen)
      (accepts : ¬ SendDrops s.world.queue txQueueLen) (h : Inserts s t skb)
  | wakeup (k : Nat) (ht : t = { s.ioDevWakeup with senders := s.senders.eraseIdx k })
  | up (h : s.ctl ≠ .closing)
      (ht : t = { s with world := Kvnet.netDevOpen s.world, ctl := .up })
  | disable (h : s.ctl ≠ .closing)
      (ht : t = { s with world := s.world.enableQueue 0, ctl := .closing })
  | flush (w : World) (h : s.ctl = .closing) (flushes : netDevFlushTxQueue s.fuel s.world = some w)
      (ht : t = { s with
        world := w.withConnected 0
        ctl := .down
        removed := s.removed ++ w.mem.freed.drop s.world.mem.freed.length })
  | pollEnter (ht : t = { s with pollers := s.pollers ++ [⟨.testCanceled, false, false⟩] })
  | pollNext (k : Nat) (p : Poller) (found : s.pollers[k]? = some p) (awake : p.sleeps = false)
      (stays : p.returns = false)
      (ht : t = { s with pollers := s.pollers.set k (p.next s.world) })
  | pollEnd (k : Nat) (ht : t = { s with pollers := s.pollers.eraseIdx k })
  | cancelSet (ha : a = .cancelSet) (ht : t = s.cancelSet)
  | cancelWakeup (ha : a = .cancelWakeup) (h : s.cancelling ≠ 0)
      (ht : t = { s.ioDevWakeup with cancelling := s.cancelling - 1 })

theorem inserted_of_eraseIdx {senders : List Sender} {k : Nat} {skb : Addr}
    (found : senders[k]? = some (.entered skb)) (h : .inserted ∈ senders) :
    .inserted ∈ senders.eraseIdx k := by
  obtain ⟨before, after, hpool, _, herase⟩ := Pool.split_at found
  rw [hpool] at h
  rw [herase]
  rcases List.mem_append.mp h with left | right
  · exact List.mem_append_left after left
  · rcases List.mem_cons.mp right with first | rest
    · cases first
    · exact List.mem_append_right before rest

theorem step_effect {arch : Arch} {s t : Sys} {a : Action} (h : s.step arch a = some t) :
    Effect s t a := by
  cases a with
  | sendEnter skb =>
    obtain ⟨_, rfl⟩ := sendEnter_inv h
    exact .quiet (quiet_of_frame (World.TxFrame.withMem _ _) rfl
      ⟨[], (List.append_nil _).symm⟩ rfl rfl rfl (List.mem_append_left _))
  | sendSection k txQueueLen =>
    obtain ⟨skb, found, outcome⟩ := sendSection_inv h
    have frame := send_frame s.world skb txQueueLen
    rcases outcome with ⟨_, rfl⟩ | ⟨accepts, rfl⟩
    · exact .quiet (quiet_of_frame frame rfl ⟨[], (List.append_nil _).symm⟩ rfl rfl rfl
        (inserted_of_eraseIdx found))
    · refine .insert k txQueueLen skb rfl accepts ⟨rfl, rfl, frame.enabled, ?_, rfl, rfl, rfl, ?_⟩
      · exact congrArg IoDev.canceled frame.ioDev
      · exact List.mem_set (List.getElem?_eq_some_iff.mp found).1 _
  | sendWakeup k =>
    obtain ⟨_, rfl⟩ := sendWakeup_inv h
    exact .wakeup k rfl
  | readEnter iv len env =>
    obtain rfl := Option.some.inj h
    refine .quiet ?_
    rcases readEnter_inv arch s iv len env with same | ⟨hdr, _, entered⟩
    · rw [same]
      exact quiet_of_frame (World.TxFrame.refl _) rfl ⟨[], (List.append_nil _).symm⟩ rfl rfl rfl id
    · rw [entered]
      exact quiet_of_frame (World.TxFrame.refl _) rfl ⟨[], (List.append_nil _).symm⟩ rfl rfl rfl id
  | readRemove k =>
    obtain ⟨r, _, _, outcome⟩ := readRemove_inv h
    have frame := remove_frame s.world
    rcases outcome with ⟨_, rfl⟩ | ⟨_, rfl⟩
    · exact .quiet (quiet_of_frame frame rfl ⟨[], (List.append_nil _).symm⟩ rfl rfl rfl id)
    · exact .quiet (quiet_of_frame frame rfl ⟨_, rfl⟩ rfl rfl rfl id)
  | readFill k fault =>
    obtain ⟨r, skb, _, _, rfl⟩ := readFill_inv h
    obtain ⟨_, fill⟩ := fill_step s.world (r.hdr.pkt r.i) skb fault
    exact .quiet (quiet_of_frame fill.frame rfl ⟨[], (List.append_nil _).symm⟩ rfl rfl rfl id)
  | readFree k =>
    obtain ⟨_, _, _, _, _, _, _, rfl⟩ := readFree_inv h
    exact .quiet (quiet_of_frame (World.TxFrame.withMem _ _) rfl
      ⟨[], (List.append_nil _).symm⟩ rfl rfl rfl id)
  | readReport k toIovec =>
    obtain ⟨r, _, _, rfl⟩ := readReport_inv h
    have vnet := reportCount_vnet arch s.world r.iv r.ret toIovec
    refine .quiet ⟨rfl, ⟨[], (List.append_nil _).symm⟩, ?_, ?_, rfl, rfl, rfl, id⟩
    · exact congrArg (fun v => v.netDev.queue.enabled) vnet
    · exact congrArg (fun v => v.ioDev.canceled) vnet
  | netDevOpen =>
    obtain ⟨open_, rfl⟩ := netDevOpen_inv h
    exact .up open_ rfl
  | closeDisable =>
    obtain ⟨open_, rfl⟩ := closeDisable_inv h
    exact .disable open_ rfl
  | closeFlush =>
    obtain ⟨closing, w, flushes, rfl⟩ := closeFlush_inv h
    exact .flush w closing flushes rfl
  | pollEnter => exact .pollEnter (Option.some.inj h).symm
  | poll k =>
    obtain ⟨p, found, awake, ⟨_, rfl⟩ | ⟨stays, rfl⟩⟩ := pollStep_inv h
    · exact .pollEnd k rfl
    · exact .pollNext k p found awake stays rfl
  | pollSignal k => exact .pollEnd k (pollSignal_inv h)
  | cancelSet => exact .cancelSet rfl (Option.some.inj h).symm
  | cancelWakeup =>
    obtain ⟨pending, rfl⟩ := cancelWakeup_inv h
    exact .cancelWakeup rfl pending rfl
  | userStore user =>
    obtain rfl := Option.some.inj h
    exact .quiet (quiet_of_frame (World.TxFrame.withUser _ _) rfl
      ⟨[], (List.append_nil _).symm⟩ rfl rfl rfl id)

end Sys

end Kvnet
