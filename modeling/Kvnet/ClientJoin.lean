import Kvnet.ClientStop
import Kvnet.Polling

/-!
# Joining the packet loop

Main waits in pthread_join for the packet loop, whose read on the driver polls
without a timeout. That poll is taken step by step here, with the sleep in it,
and the cancel ioctl with its store and its wake-up apart. Main does not wait in
vain unless a cancel is missed: its wake-up comes when the poll has tested the
cancel flag and is not on the wait queue yet.
-/

namespace Kvnet

/-- The poll can end for a signal: its round has found nothing, or it is asleep. -/
def Poller.interruptible (q : Poller) : Bool :=
  match q.pc with
  | .tested _ => !q.returns
  | .asleep => true
  | _ => false

/-- What poll returns to kvnet_read. -/
def Poller.revents (q : Poller) : Nat :=
  match q.pc with
  | .tested mask => mask &&& requestedMask
  | _ => 0

/-- The first read's poll returns these events, and the round goes on from there. -/
def LibSys.polled (arch : Arch) (s : LibSys) (revents : Nat) (data : DataEnv) (errno : UInt32) :
    Option LibSys :=
  match s.reads[0]? with
  | some r =>
    let result := kvnetReadRound arch s.lib s.world r.hdr r.len errno (.ready revents) data
    match result.status with
    | none => some { s with world := result.world }
    | some status =>
      some { s with
        world := result.world
        reads := s.reads.eraseIdx 0
        returned := s.returned ++ [⟨r.afterCancel, status, result.taken⟩] }
  | none => none

def Thread.other : Thread → Thread
  | .main => .pktLoop
  | .pktLoop => .main

namespace ClientAction

/-- The thread that makes the step; traffic is not one of theirs. -/
def thread : ClientAction → Thread
  | .signal t | .cancelLoop t _ _ => t
  | a => if Client.ofMain a then .main else .pktLoop

/-- No ioctl of kvnet_cancel_read fails. -/
def ioctlOk : ClientAction → Bool
  | .cancelLoop _ _ ok => ok
  | _ => true

end ClientAction

/-- `poller` is the poll system call that pktLoop is in, and `waking` are the threads
whose cancel ioctl has stored the flag and not woken the poll yet. -/
structure PolledClient where
  client : Client
  poller : Option Poller
  waking : Thread → Bool

inductive PolledAction where
  | client (a : ClientAction)
  | pollEnter
  | poll (data : DataEnv) (errno : UInt32)
  | cancelWakeup (t : Thread)
  | sendWakeup

namespace PolledClient

/-- The step is a cancel ioctl that gets through to the driver. -/
def setsFlag (p : PolledClient) : ClientAction → Bool
  | .cancelLoop t _ ok =>
    ok && p.client.cancelPc t = some .kvnetCancelRead && p.client.lib.lib.useTapDev = 0 &&
      p.client.lib.lib.fdesc ≠ -1
  | _ => false

/-- The thread is inside poll or the cancel ioctl. -/
def inCall (p : PolledClient) (t : Thread) : Bool :=
  p.waking t || t = .pktLoop && p.poller.isSome

/-- A thread inside one of these calls makes no other step, but a signal can end
its poll. On the driver kvnet_read goes on with what that poll returns. -/
def mayStep (p : PolledClient) : ClientAction → Bool
  | .traffic _ => true
  | .signal .pktLoop => !p.waking .pktLoop && p.poller.all Poller.interruptible
  | .readRound (.ready _) _ _ => !p.inCall .pktLoop && p.client.lib.lib.useTapDev ≠ 0
  | a => !p.inCall a.thread

/-- A signal ends the poll with EINTR, after which kvnet_read polls again. -/
def clientStep (arch : Arch) (p : PolledClient) (a : ClientAction) : Option PolledClient :=
  if p.mayStep a then
    (p.client.step arch a).map fun c =>
      { client := c
        poller := if let .signal .pktLoop := a then none else p.poller
        waking := if p.setsFlag a then Function.update p.waking a.thread true else p.waking }
  else none

def pollEnter (p : PolledClient) : Option PolledClient :=
  if p.client.pktLoop = .reading ∧ p.client.handlers .pktLoop = [] ∧ p.inCall .pktLoop = false ∧
      p.client.lib.lib.useTapDev = 0 then
    some { p with poller := some ⟨.testCanceled, false, false⟩ }
  else none

/-- The next step of the poll, or its return. -/
def poll (arch : Arch) (p : PolledClient) (data : DataEnv) (errno : UInt32) :
    Option PolledClient :=
  match p.poller with
  | some q =>
    if q.sleeps then none
    else if q.returns then
      (p.client.lib.polled arch q.revents data errno).map fun lib =>
        { p with
          client := { p.client with lib := lib, pktLoop := Client.afterRound lib }, poller := none }
    else some { p with poller := some (q.next p.client.lib.world) }
  | none => none

/-- io_dev_wakeup in the cancel ioctl, and its end. -/
def cancelWakeup (p : PolledClient) (t : Thread) : Option PolledClient :=
  if p.waking t then
    some { p with
      poller := p.poller.map Poller.wake, waking := Function.update p.waking t false }
  else none

def step (arch : Arch) (p : PolledClient) : PolledAction → Option PolledClient
  | .client a => p.clientStep arch a
  | .pollEnter => p.pollEnter
  | .poll data errno => p.poll arch data errno
  | .cancelWakeup t => p.cancelWakeup t
  | .sendWakeup => some { p with poller := p.poller.map Poller.wake }

structure Fresh (p : PolledClient) : Prop where
  client : p.client.Fresh
  poller : p.poller = none
  waking : ∀ t, p.waking t = false

/-- The last cancel owing its wake-up does not wake while the poll is between its
test of the cancel flag and its registration. -/
def WakesRegistered (p : PolledClient) : PolledAction → Prop
  | .cancelWakeup t =>
    p.waking t.other = false → ∀ q ∈ p.poller, q.pc = .pollWait → q.registered = true
  | _ => True

instance (p : PolledClient) : (a : PolledAction) → Decidable (p.WakesRegistered a)
  | .cancelWakeup t => inferInstanceAs (Decidable
      (p.waking t.other = false → ∀ q ∈ p.poller, q.pc = .pollWait → q.registered = true))
  | .client _ | .pollEnter | .poll _ _ | .sendWakeup => isTrue trivial

/-- No ioctl of kvnet_cancel_read fails. -/
def ioctlOk : PolledAction → Bool
  | .client a => a.ioctlOk
  | _ => true

/-- A step of the second thread, in pktLoop, in a handler or inside the kernel. -/
def byPktLoop : PolledAction → Bool
  | .client (.traffic _) | .sendWakeup => false
  | .client (.signal _) => false
  | .client a => a.thread = .pktLoop
  | .pollEnter | .poll _ _ => true
  | .cancelWakeup t => t = .pktLoop

end PolledClient

namespace Client

/-- A call of cancel_loop is about to cancel. -/
def Pending (c : Client) : Prop :=
  (∃ t, .kvnetCancelRead ∈ c.handlers t) ∨ c.main = .cancelLoop .kvnetCancelRead

/-- A flag that was cleared has been followed by a cancel, or is about to be. -/
structure Stopping (c : Client) : Prop where
  order : c.Orderly
  flags : c.lib.Armed
  cancelled : c.canRunLoop = false → c.main.looping = true ∨ c.main = .pthreadJoin →
    c.lib.armed = true ∨ c.Pending

theorem fresh_stopping {c : Client} (fresh : c.Fresh) : c.Stopping := by
  refine ⟨fresh_orderly fresh, ⟨fun armed => ?_, fun r among => ?_⟩, fun _ started => ?_⟩
  · rw [fresh.lib.armed] at armed
    cases armed
  · rw [fresh.lib.reads] at among
    cases among
  · simp [fresh.main, MainPc.looping] at started

section Step

variable {arch : Arch} {c d : Client} {a : ClientAction}

/-- The library is reached through its calls only. -/
theorem step_lib (step : c.step arch a = some d) :
    d.lib = c.lib ∨ ∃ call, c.lib.step arch call = some d.lib := by
  cases a with
  | kvnetOpen useTap env =>
    obtain ⟨_, moved⟩ := mainStep_of rfl step
    obtain ⟨_, moved⟩ := Option.ite_none_right_eq_some.mp moved
    obtain ⟨_, _, moved⟩ := Option.bind_eq_some_iff.mp moved
    obtain ⟨lib, opened, rfl⟩ := Option.map_eq_some_iff.mp moved
    exact Or.inr ⟨.kvnetOpen (if useTap then 1 else 0) env, opened⟩
  | kvnetClose errno fuel =>
    obtain ⟨_, moved⟩ := mainStep_of rfl step
    obtain ⟨_, moved⟩ := Option.ite_none_right_eq_some.mp moved
    obtain ⟨⟨status, l, w⟩, closed, rfl⟩ := Option.map_eq_some_iff.mp moved
    exact Or.inr ⟨.kvnetClose errno fuel, by rw [LibSys.step, closed]; rfl⟩
  | canRunLoop | pthreadCreate ok | getc quit | pthreadJoin =>
    obtain ⟨_, moved⟩ := mainStep_of rfl step
    obtain ⟨_, moved⟩ := Option.ite_none_right_eq_some.mp moved
    obtain rfl := Option.some.inj moved
    first | exact Or.inl rfl | exact Or.inl (by split <;> rfl)
  | getDriverInfo info errno mac fault =>
    obtain ⟨_, moved⟩ := loopStep_of rfl step
    simp only [loopStep, Option.ite_none_right_eq_some, Option.some.injEq] at moved
    obtain ⟨_, rfl⟩ := moved
    exact Or.inr ⟨.kvnetGetDriverInfo info errno mac fault, rfl⟩
  | kvnetRead =>
    obtain ⟨_, moved⟩ := loopStep_of rfl step
    obtain ⟨_, moved⟩ := Option.ite_none_right_eq_some.mp moved
    obtain rfl := Option.some.inj moved
    exact Or.inr ⟨.readEnter c.hdr (pktLoopLen arch), rfl⟩
  | readRound outcome data errno =>
    obtain ⟨_, moved⟩ := loopStep_of rfl step
    obtain ⟨_, moved⟩ := Option.ite_none_right_eq_some.mp moved
    obtain ⟨lib, round, rfl⟩ := Option.map_eq_some_iff.mp moved
    exact Or.inr ⟨.readRound 0 outcome data errno, round⟩
  | malloc hdr packets | test | free =>
    obtain ⟨_, moved⟩ := loopStep_of rfl step
    obtain ⟨_, moved⟩ := Option.ite_none_right_eq_some.mp moved
    obtain rfl := Option.some.inj moved
    exact Or.inl rfl
  | signal t =>
    obtain ⟨_, moved⟩ := Option.ite_none_right_eq_some.mp step
    obtain rfl := Option.some.inj moved
    exact Or.inl rfl
  | cancelLoop t errno ok =>
    rcases cancelLoop_inv step with ⟨_, rfl⟩ | ⟨_, rfl⟩ | ⟨_, rfl⟩
    · exact Or.inl (setCancelPc_lib c t _)
    · exact Or.inl (setCancelPc_lib _ t _)
    · exact Or.inr ⟨.kvnetCancelRead errno ok, by rw [setCancelPc_lib]; rfl⟩
  | traffic world =>
    obtain ⟨lib, moved, rfl⟩ := Option.map_eq_some_iff.mp step
    exact Or.inr ⟨_, moved⟩

/-- A call that does not end in a cancel leaves those that are pending. -/
theorem setCancelPc_pending {t : Thread} {pc : CancelPc} (found : c.cancelPc t = some pc)
    (other : pc ≠ .kvnetCancelRead) (h : c.Pending) (next : Option CancelPc) :
    (c.setCancelPc t next).Pending := by
  rcases setCancelPc_inv found next with ⟨outer, stack, moved⟩ | ⟨silent, rfl, here, moved⟩
  · rw [moved]
    rcases h with ⟨t', among⟩ | own
    · refine Or.inl ⟨t', ?_⟩
      simp only [Function.update_apply]
      by_cases same : t' = t
      · rw [if_pos same]
        rw [same, stack, List.mem_cons] at among
        rcases among with top | below
        · exact absurd top.symm other
        · exact List.mem_append_right _ below
      · rwa [if_neg same]
    · exact Or.inr own
  · rw [moved]
    rcases h with ⟨t', among⟩ | own
    · exact Or.inl ⟨t', among⟩
    · rw [here] at own
      exact absurd (MainPc.cancelLoop.inj own) other

theorem setCancelPc_pends {t : Thread} {pc : CancelPc} (found : c.cancelPc t = some pc) :
    (c.setCancelPc t (some .kvnetCancelRead)).Pending := by
  rcases setCancelPc_inv found (some .kvnetCancelRead) with ⟨outer, _, moved⟩ | ⟨_, _, _, moved⟩
  · rw [moved]
    exact Or.inl ⟨t, by simp⟩
  · rw [moved]
    exact Or.inr rfl

/-- While main is on the way to the end of its waiting the handle is open. -/
theorem Orderly.handle_of_waiting (h : c.Orderly)
    (waiting : c.main.looping = true ∨ c.main = .pthreadJoin) : c.lib.lib.fdesc ≠ -1 := by
  intro closed
  rcases waiting with looping | joining
  · rcases h.handle.mp closed with at_ | at_ <;> rw [at_] at looping <;> cases looping
  · simpa [joining] using h.handle.mp closed

theorem cancelLoop_cancelled (h : c.Stopping) {t : Thread} {errno : UInt32}
    (step : c.cancelLoop t errno true = some d) (cleared : d.canRunLoop = false)
    (waiting : d.main.looping = true ∨ d.main = .pthreadJoin) :
    d.lib.armed = true ∨ d.Pending := by
  -- main was waiting before the step too
  have before {s : Client} {pc : CancelPc} {next : Option CancelPc}
      (found : s.cancelPc t = some pc) (moved : d = s.setCancelPc t next) :
      s.main.looping = true ∨ s.main = .pthreadJoin := by
    rw [moved] at waiting
    rcases setCancelPc_inv found next with ⟨_, _, same⟩ | ⟨_, _, here, _⟩
    · rw [same] at waiting
      exact waiting
    · exact Or.inl (by rw [here]; rfl)
  rcases cancelLoop_inv step with ⟨found, rfl⟩ | ⟨found, rfl⟩ | ⟨found, rfl⟩
  · rw [setCancelPc_canRunLoop] at cleared
    rcases h.cancelled cleared (before found rfl) with armed | pending
    · exact Or.inl (by rw [setCancelPc_lib]; exact armed)
    · exact Or.inr (setCancelPc_pending found (by decide) pending _)
  · have found' : Client.cancelPc { c with canRunLoop := false } t = some .clear := found
    exact Or.inr (setCancelPc_pends found')
  · have opened := h.order.handle_of_waiting
      (before (s := { c with lib := c.lib.cancelStep errno true }) found rfl)
    rw [setCancelPc_lib]
    exact Or.inl ((LibSys.cancelStep_keeps c.lib errno true).2.2 rfl opened)

/-- Where main is not about to cancel itself, a handler is. -/
theorem Stopping.cancelled_elsewhere (h : c.Stopping) (cleared : c.canRunLoop = false)
    (waiting : c.main.looping = true ∨ c.main = .pthreadJoin)
    (elsewhere : c.main ≠ .cancelLoop .kvnetCancelRead) :
    c.lib.armed = true ∨ ∃ t, .kvnetCancelRead ∈ c.handlers t := by
  rcases h.cancelled cleared waiting with armed | among | own
  · exact Or.inl armed
  · exact Or.inr among
  · exact absurd own elsewhere

theorem loop_stopping (h : c.Stopping) (moves : LoopMoves c d) (flags : d.lib.Armed) :
    d.Stopping := by
  refine ⟨loop_orderly h.order moves, flags, fun cleared waiting => ?_⟩
  rw [moves.same] at cleared waiting
  rcases h.cancelled cleared waiting with armed | pending
  · exact Or.inl (moves.armed.trans armed)
  · rw [moves.same]
    exact Or.inr pending

theorem step_stopping (h : c.Stopping) (ok : a.ioctlOk = true) (step : c.step arch a = some d) :
    d.Stopping := by
  have flags : d.lib.Armed := by
    rcases step_lib step with same | ⟨call, moved⟩
    · rw [same]
      exact h.flags
    · exact LibSys.step_armed h.flags moved
  refine ⟨step_orderly h.order step, flags, fun cleared waiting => ?_⟩
  cases a with
  | cancelLoop t errno called =>
    obtain rfl : called = true := ok
    exact cancelLoop_cancelled h step cleared waiting
  | signal t =>
    obtain ⟨_, moved⟩ := Option.ite_none_right_eq_some.mp step
    obtain rfl := Option.some.inj moved
    rcases h.cancelled cleared waiting with armed | ⟨t', among⟩ | own
    · exact Or.inl armed
    · refine Or.inr (Or.inl ⟨t', ?_⟩)
      simp only [Function.update_apply]
      by_cases same : t' = t
      · rw [if_pos same, ← same]
        exact List.mem_cons_of_mem _ among
      · rwa [if_neg same]
    · exact Or.inr (Or.inr own)
  | traffic world =>
    obtain ⟨lib, moved, rfl⟩ := Option.map_eq_some_iff.mp step
    simp only [LibSys.step, Option.ite_none_right_eq_some, Option.some.injEq] at moved
    obtain ⟨_, rfl⟩ := moved
    exact h.cancelled cleared waiting
  | kvnetOpen useTap env =>
    obtain ⟨_, moved⟩ := mainStep_of rfl step
    obtain ⟨_, moved⟩ := Option.ite_none_right_eq_some.mp moved
    obtain ⟨⟨status, _⟩, _, moved⟩ := Option.bind_eq_some_iff.mp moved
    obtain ⟨lib, _, rfl⟩ := Option.map_eq_some_iff.mp moved
    cases ok : kvnetSucceeded status <;> simp [ok, MainPc.looping] at waiting
  | canRunLoop =>
    obtain ⟨_, moved⟩ := mainStep_of rfl step
    obtain ⟨_, moved⟩ := Option.ite_none_right_eq_some.mp moved
    obtain rfl := Option.some.inj moved
    cases cleared
  | pthreadCreate created =>
    obtain ⟨_, moved⟩ := mainStep_of rfl step
    obtain ⟨here, moved⟩ := Option.ite_none_right_eq_some.mp moved
    obtain rfl := Option.some.inj moved
    cases created with
    | false => simp [MainPc.looping] at waiting
    | true =>
      have looping : c.main.looping = true := by rw [here]; rfl
      exact (h.cancelled_elsewhere cleared (Or.inl looping) (by simp [here])).imp_right Or.inl
  | getc quit =>
    obtain ⟨_, moved⟩ := mainStep_of rfl step
    obtain ⟨here, moved⟩ := Option.ite_none_right_eq_some.mp moved
    obtain rfl := Option.some.inj moved
    cases quit with
    | false => exact h.cancelled cleared waiting
    | true =>
      have looping : c.main.looping = true := by rw [here]; rfl
      exact (h.cancelled_elsewhere cleared (Or.inl looping) (by simp [here])).imp_right Or.inl
  | pthreadJoin =>
    obtain ⟨_, moved⟩ := mainStep_of rfl step
    obtain ⟨_, moved⟩ := Option.ite_none_right_eq_some.mp moved
    obtain rfl := Option.some.inj moved
    simp [MainPc.looping] at waiting
  | kvnetClose errno fuel =>
    obtain ⟨_, moved⟩ := mainStep_of rfl step
    obtain ⟨_, moved⟩ := Option.ite_none_right_eq_some.mp moved
    obtain ⟨_, _, rfl⟩ := Option.map_eq_some_iff.mp moved
    simp [MainPc.looping] at waiting
  | getDriverInfo info errno mac fault | malloc hdr packets | test | kvnetRead
  | readRound outcome data errno | free =>
    obtain ⟨silent, moved⟩ := loopStep_of rfl step
    exact (loop_stopping h (loopStep_moves silent moved) flags).cancelled cleared waiting

end Step

section Beside

variable {arch : Arch} {c d : Client} {a : ClientAction}

/-- Only a cancel that gets through to the driver changes what the driver has. -/
theorem cancelStep_driver (s : LibSys) (errno : UInt32) (ok : Bool) :
    (s.cancelStep errno ok).lib.useTapDev = s.lib.useTapDev ∧
      ((s.cancelStep errno ok).world.vnet.ioDev.canceled = s.world.vnet.ioDev.canceled ∨
        ok = true ∧ s.lib.useTapDev = 0 ∧ s.lib.fdesc ≠ -1) := by
  unfold LibSys.cancelStep kvnetCancelRead
  by_cases tap : s.lib.useTapDev ≠ 0
  · simp only [if_pos tap]
    exact ⟨trivial, Or.inl trivial⟩
  · simp only [if_neg tap]
    by_cases closed : s.lib.fdesc = -1
    · simp only [if_pos closed]
      exact ⟨trivial, Or.inl trivial⟩
    · simp only [if_neg closed]
      cases ok with
      | false => exact ⟨rfl, Or.inl rfl⟩
      | true => exact ⟨rfl, Or.inr ⟨rfl, not_not.mp tap, closed⟩⟩

/-- main's calls of cancel_loop leave the other thread alone. -/
theorem setCancelPc_beside (c : Client) (next : Option CancelPc) :
    (c.setCancelPc .main next).pktLoop = c.pktLoop ∧
      (c.setCancelPc .main next).handlers .pktLoop = c.handlers .pktLoop ∧
      (c.setCancelPc .main next).lib = c.lib := by
  refine ⟨setCancelPc_pktLoop c .main next, ?_, setCancelPc_lib c .main next⟩
  have other : Thread.pktLoop ≠ .main := by decide
  unfold setCancelPc
  split
  · simp only [Function.update_of_ne other]
  · rfl

/-- While pktLoop is in a poll on the driver, everybody else leaves it there, and the
flag is left alone but for the cancels that get through. -/
theorem step_beside (h : c.Orderly) (reading : c.pktLoop = .reading)
    (silent : c.handlers .pktLoop = []) (driver : c.lib.lib.useTapDev = 0)
    (other : ofLoop a = false) (unsignalled : a ≠ .signal .pktLoop)
    (step : c.step arch a = some d) :
    d.pktLoop = .reading ∧ d.handlers .pktLoop = [] ∧ d.lib.lib.useTapDev = 0 ∧
      (d.lib.world.vnet.ioDev.canceled = c.lib.world.vnet.ioDev.canceled ∨
        ∃ t errno, a = .cancelLoop t errno true ∧ c.cancelPc t = some .kvnetCancelRead ∧
          c.lib.lib.fdesc ≠ -1) := by
  have awaits : c.main.awaits = true := h.alive (by simp [Client.alive, reading])
  have opened : c.lib.lib.fdesc ≠ -1 := by
    intro closed
    rcases h.handle.mp closed with at_ | at_ <;> rw [at_] at awaits <;> cases awaits
  have late (at_ : c.main.awaits = false) : False := by
    rw [awaits] at at_
    cases at_
  cases a with
  | signal t =>
    obtain ⟨_, moved⟩ := Option.ite_none_right_eq_some.mp step
    obtain rfl := Option.some.inj moved
    cases t with
    | main => exact ⟨reading, silent, driver, Or.inl rfl⟩
    | pktLoop => exact absurd rfl unsignalled
  | cancelLoop t errno ok =>
    cases t with
    | pktLoop =>
      have nobody : c.cancelPc .pktLoop = none := by simp [cancelPc, silent]
      simp only [Client.step, cancelLoop, nobody, Option.map_none, reduceCtorEq] at step
    | main =>
      rcases cancelLoop_inv step with ⟨_, rfl⟩ | ⟨_, rfl⟩ | ⟨found, rfl⟩
      · obtain ⟨same, stack, lib⟩ := setCancelPc_beside c (if c.canRunLoop then some .clear else none)
        rw [same, stack, lib]
        exact ⟨reading, silent, driver, Or.inl rfl⟩
      · obtain ⟨same, stack, lib⟩ :=
          setCancelPc_beside { c with canRunLoop := false } (some .kvnetCancelRead)
        rw [same, stack, lib]
        exact ⟨reading, silent, driver, Or.inl rfl⟩
      · obtain ⟨tap, flag⟩ := cancelStep_driver c.lib errno ok
        obtain ⟨same, stack, lib⟩ :=
          setCancelPc_beside { c with lib := c.lib.cancelStep errno ok } none
        rw [same, stack, lib]
        refine ⟨reading, silent, tap.trans driver, ?_⟩
        rcases flag with kept | ⟨rfl, _⟩
        · exact Or.inl kept
        · exact Or.inr ⟨.main, errno, rfl, found, opened⟩
  | traffic world =>
    obtain ⟨lib, moved, rfl⟩ := Option.map_eq_some_iff.mp step
    simp only [LibSys.step, Option.ite_none_right_eq_some, Option.some.injEq] at moved
    obtain ⟨kept, rfl⟩ := moved
    exact ⟨reading, silent, driver, Or.inl (congrArg IoDev.canceled (kept ⟨driver, opened⟩))⟩
  | kvnetOpen useTap env | canRunLoop | pthreadCreate ok =>
    obtain ⟨_, moved⟩ := mainStep_of rfl step
    obtain ⟨here, _⟩ := Option.ite_none_right_eq_some.mp moved
    exact (late (by rw [here]; rfl)).elim
  | getc quit =>
    obtain ⟨_, moved⟩ := mainStep_of rfl step
    obtain ⟨_, moved⟩ := Option.ite_none_right_eq_some.mp moved
    obtain rfl := Option.some.inj moved
    cases quit <;> exact ⟨reading, silent, driver, Or.inl rfl⟩
  | pthreadJoin =>
    obtain ⟨_, moved⟩ := mainStep_of rfl step
    obtain ⟨⟨_, finished⟩, _⟩ := Option.ite_none_right_eq_some.mp moved
    rw [reading] at finished
    cases finished
  | kvnetClose errno fuel =>
    obtain ⟨_, moved⟩ := mainStep_of rfl step
    obtain ⟨here, _⟩ := Option.ite_none_right_eq_some.mp moved
    rcases here with at_ | at_ <;> exact (late (by rw [at_]; rfl)).elim
  | getDriverInfo info errno mac fault | malloc hdr packets | test | kvnetRead
  | readRound outcome data errno | free => cases other

end Beside

section Polled

variable {arch : Arch} {c : Client} {lib : LibSys} {revents : Nat} {data : DataEnv} {errno : UInt32}

theorem polled_inv {s t : LibSys} (h : s.polled arch revents data errno = some t) :
    ∃ r, s.reads[0]? = some r ∧
      let result := kvnetReadRound arch s.lib s.world r.hdr r.len errno (.ready revents) data
      ∃ status, result.status = some status ∧ t = { s with
        world := result.world
        reads := s.reads.eraseIdx 0
        returned := s.returned ++ [⟨r.afterCancel, status, result.taken⟩] } := by
  unfold LibSys.polled at h
  split at h
  · rename_i r found
    have returns : ∃ status, (kvnetReadRound arch s.lib s.world r.hdr r.len errno (.ready revents)
        data).status = some status := by
      by_cases error : revents &&& errorEvents ≠ 0
      · exact ⟨_, by rw [round_error arch s.lib s.world r.hdr r.len errno data error]⟩
      · obtain ⟨_, _, _, result, _⟩ := round_ready arch s.lib s.world r.hdr r.len errno data error
        exact ⟨_, by rw [result]⟩
    obtain ⟨status, ends⟩ := returns
    refine ⟨r, found, status, ends, ?_⟩
    simp only [ends, Option.some.injEq] at h
    exact h.symm
  · cases h

/-- What a poll returns takes pktLoop out of its read. -/
theorem polled_moves (reading : c.pktLoop = .reading) (silent : c.handlers .pktLoop = [])
    (h : c.lib.polled arch revents data errno = some lib) :
    LoopMoves c { c with lib := lib, pktLoop := afterRound lib } := by
  obtain ⟨r, found, status, _, same⟩ := polled_inv h
  have next : afterRound lib ≠ .idle ∧ (afterRound lib = .reading ↔ lib.reads ≠ []) := by
    rcases afterRound_cases lib with ⟨finished, at_ | at_⟩ | ⟨inside, at_⟩
    · simp [finished, at_]
    · simp [finished, at_]
    · simp [inside, at_]
  refine ⟨by simp [alive, reading], silent, rfl, next.1, by rw [same], by rw [same],
    fun _ few => ⟨next.2, ?_⟩⟩
  rw [same]
  exact Nat.le_trans (List.length_eraseIdx_le _ _) few

/-- The read that has returned was the only one. -/
theorem afterRound_last {s t : LibSys} {r : ReadCall} (few : s.reads.length ≤ 1)
    (found : s.reads[0]? = some r) (reads : t.reads = s.reads.eraseIdx 0) :
    (afterRound t).rank ≤ 2 := by
  have inside := (List.getElem?_eq_some_iff.mp found).1
  have none_left : t.reads = [] := by
    rw [reads, ← List.length_eq_zero_iff, List.length_eraseIdx_of_lt inside]
    omega
  rcases afterRound_cases t with ⟨_, next | next⟩ | ⟨some_left, _⟩
  · rw [next]
    decide
  · rw [next]
    decide
  · exact absurd none_left some_left

theorem polled_armed {s t : LibSys} (h : s.Armed)
    (step : s.polled arch revents data errno = some t) : t.Armed := by
  obtain ⟨r, _, status, _, rfl⟩ := polled_inv step
  have ioDev := kvnetReadRound_ioDev arch s.lib s.world r.hdr r.len errno data (.ready revents)
  exact h.congr rfl (fun r hr => h.reads r (List.mem_of_mem_eraseIdx hr))
    (LibSys.flagSet_congr rfl fun _ => by rw [ioDev])

end Polled

end Client

namespace PolledClient

/-- The cancel flag of the driver. -/
def canceled (p : PolledClient) : Int32 := p.client.lib.world.vnet.ioDev.canceled

/-- No cancel is missed: a poll that has tested the flag before it was set hears of
it, unless the wake-up is still owed. -/
structure Hearing (p : PolledClient) : Prop where
  stopping : p.client.Stopping
  inPoll : p.poller ≠ none → p.client.pktLoop = .reading ∧ p.client.handlers .pktLoop = [] ∧
    p.waking .pktLoop = false ∧ p.client.lib.lib.useTapDev = 0
  onQueue : ∀ q ∈ p.poller, q.OnQueue
  heard : p.canceled ≠ 0 → (∀ t, p.waking t = false) → ∀ q ∈ p.poller, q.HeardCancel

theorem fresh_hearing {p : PolledClient} (fresh : p.Fresh) : p.Hearing := by
  refine ⟨Client.fresh_stopping fresh.client, fun polls => absurd fresh.poller polls,
    fun q inside => ?_, fun _ _ q inside => ?_⟩
  · rw [fresh.poller] at inside
    cases inside
  · rw [fresh.poller] at inside
    cases inside

section Step

variable {arch : Arch} {p p' : PolledClient}

/-- Outside of a poll there is nothing to hear. -/
theorem hearing_outside {c : Client} {waking : Thread → Bool} (stopping : c.Stopping) :
    Hearing ⟨c, none, waking⟩ := by
  refine ⟨stopping, fun polls => absurd rfl polls, fun q inside => ?_, fun _ _ q inside => ?_⟩
  · cases inside
  · cases inside

theorem clientStep_inv {a : ClientAction} (step : p.clientStep arch a = some p') :
    p.mayStep a = true ∧ ∃ c, p.client.step arch a = some c ∧
      (a = .signal .pktLoop ∧ p' = ⟨c, none, p.waking⟩ ∨
      a ≠ .signal .pktLoop ∧ p' = ⟨c, p.poller,
        if p.setsFlag a then Function.update p.waking a.thread true else p.waking⟩) := by
  obtain ⟨may, mapped⟩ := Option.ite_none_right_eq_some.mp step
  obtain ⟨c, moved, rfl⟩ := Option.map_eq_some_iff.mp mapped
  refine ⟨may, c, moved, ?_⟩
  cases a with
  | signal t =>
    cases t with
    | main => exact Or.inr ⟨by simp, rfl⟩
    | pktLoop => exact Or.inl ⟨rfl, rfl⟩
  | _ => exact Or.inr ⟨by simp, rfl⟩

/-- A thread that may step is outside of poll. -/
theorem mayStep_outside {a : ClientAction} (may : p.mayStep a = true) {q : Poller}
    (polls : p.poller = some q) (unsignalled : a ≠ .signal .pktLoop) :
    Client.ofLoop a = false := by
  have inside : p.inCall .pktLoop = true := by simp [inCall, polls]
  cases a with
  | getDriverInfo info errno mac fault | malloc hdr packets | test | kvnetRead | free =>
    simp [mayStep, ClientAction.thread, Client.ofMain, inside] at may
  | readRound outcome data errno =>
    cases outcome <;> simp [mayStep, ClientAction.thread, Client.ofMain, inside] at may
  | _ => rfl

theorem setsFlag_outside {a : ClientAction} (may : p.mayStep a = true) {q : Poller}
    (polls : p.poller = some q) (sets : p.setsFlag a = true) : Thread.pktLoop ≠ a.thread := by
  have inside : p.inCall .pktLoop = true := by simp [inCall, polls]
  cases a with
  | cancelLoop t errno ok =>
    rintro rfl
    simp [mayStep, ClientAction.thread, inside] at may
  | _ => cases sets

theorem client_hearing {a : ClientAction} (h : p.Hearing) (ok : a.ioctlOk = true)
    (step : p.clientStep arch a = some p') : p'.Hearing := by
  obtain ⟨may, c, moved, ⟨_, rfl⟩ | ⟨unsignalled, rfl⟩⟩ := clientStep_inv step
  · exact hearing_outside (Client.step_stopping h.stopping ok moved)
  · have stopping := Client.step_stopping h.stopping ok moved
    cases polls : p.poller with
    | none => exact hearing_outside stopping
    | some q =>
      obtain ⟨reading, silent, unwoken, driver⟩ := h.inPoll (by simp [polls])
      obtain ⟨reading', silent', driver', flag⟩ := Client.step_beside h.stopping.order reading
        silent driver (mayStep_outside may polls unsignalled) unsignalled moved
      refine ⟨stopping, fun _ => ⟨reading', silent', ?_, driver'⟩, polls ▸ h.onQueue,
        fun set none_owed => ?_⟩
      · by_cases sets : p.setsFlag a = true
        · simp only [if_pos sets, Function.update_of_ne (setsFlag_outside may polls sets), unwoken]
        · simp only [if_neg sets, unwoken]
      · rcases flag with same | ⟨t, errno, rfl, found, opened⟩
        · have before : p.canceled ≠ 0 := by
            rw [canceled, ← same]
            exact set
          rw [← polls]
          refine h.heard before fun t => ?_
          by_cases sets : p.setsFlag a = true
          · have owed := none_owed a.thread
            simp [if_pos sets] at owed
          · have unowed := none_owed t
            rwa [if_neg sets] at unowed
        · have sets : p.setsFlag (.cancelLoop t errno true) = true := by
            simp [setsFlag, found, driver, opened]
          have owed := none_owed t
          rw [if_pos sets] at owed
          simp [ClientAction.thread] at owed

theorem pollEnter_hearing (h : p.Hearing) (step : p.pollEnter = some p') : p'.Hearing := by
  obtain ⟨⟨reading, silent, outside, driver⟩, entered⟩ := Option.ite_none_right_eq_some.mp step
  obtain rfl := Option.some.inj entered
  have unwoken : p.waking .pktLoop = false := (Bool.or_eq_false_iff.mp outside).1
  refine ⟨h.stopping, fun _ => ⟨reading, silent, unwoken, driver⟩, fun q inside => ?_,
    fun _ _ q inside => ?_⟩
  · obtain rfl := Option.some.inj inside
    exact fun past => nomatch past
  · obtain rfl := Option.some.inj inside
    exact fun past => nomatch past

theorem poll_inv {data : DataEnv} {errno : UInt32} (step : p.poll arch data errno = some p') :
    ∃ q, p.poller = some q ∧ q.sleeps = false ∧
      (q.returns = true ∧ (∃ lib, p.client.lib.polled arch q.revents data errno = some lib ∧
        p' = { p with
          client := { p.client with lib := lib, pktLoop := Client.afterRound lib }
          poller := none }) ∨
      q.returns = false ∧ p' = { p with poller := some (q.next p.client.lib.world) }) := by
  cases polls : p.poller with
  | none => simp only [poll, polls, reduceCtorEq] at step
  | some q =>
    simp only [poll, polls, Option.ite_none_left_eq_some, Bool.not_eq_true] at step
    obtain ⟨awake, step⟩ := step
    refine ⟨q, rfl, awake, ?_⟩
    by_cases returns : q.returns = true
    · rw [if_pos returns] at step
      obtain ⟨lib, polled, rfl⟩ := Option.map_eq_some_iff.mp step
      exact Or.inl ⟨returns, lib, polled, rfl⟩
    · rw [if_neg returns] at step
      exact Or.inr ⟨Bool.eq_false_of_not_eq_true returns, (Option.some.inj step).symm⟩

theorem poll_hearing {data : DataEnv} {errno : UInt32} (h : p.Hearing)
    (step : p.poll arch data errno = some p') : p'.Hearing := by
  obtain ⟨q, polls, _, ⟨_, lib, polled, rfl⟩ | ⟨stays, rfl⟩⟩ := poll_inv step
  · obtain ⟨reading, silent, _, _⟩ := h.inPoll (by simp [polls])
    exact hearing_outside (Client.loop_stopping h.stopping
      (Client.polled_moves reading silent polled) (Client.polled_armed h.stopping.flags polled))
  · have next := q.next_step p.client.lib.world
    refine ⟨h.stopping, fun _ => h.inPoll (by simp [polls]), fun q' inside => ?_,
      fun set none_owed q' inside => ?_⟩
    · obtain rfl := Option.some.inj inside
      exact next_onQueue (h.onQueue q polls) stays next
    · obtain rfl := Option.some.inj inside
      exact next_heardCancel (h.heard set none_owed q polls) set stays next

theorem cancelWakeup_hearing {t : Thread} (h : p.Hearing)
    (registered : p.WakesRegistered (.cancelWakeup t)) (step : p.cancelWakeup t = some p') :
    p'.Hearing := by
  obtain ⟨owed, woken⟩ := Option.ite_none_right_eq_some.mp step
  obtain rfl := Option.some.inj woken
  refine ⟨h.stopping, fun polls => ?_, fun q' inside => ?_, fun set none_owed q' inside => ?_⟩
  · obtain ⟨reading, silent, unwoken, driver⟩ := h.inPoll (by simpa using polls)
    have other : Thread.pktLoop ≠ t := by
      rintro rfl
      rw [unwoken] at owed
      cases owed
    refine ⟨reading, silent, ?_, driver⟩
    simp only [Function.update_of_ne other, unwoken]
  · obtain ⟨q, polls, rfl⟩ := Option.map_eq_some_iff.mp inside
    exact Poller.wake_onQueue (h.onQueue q polls)
  · obtain ⟨q, polls, rfl⟩ := Option.map_eq_some_iff.mp inside
    have last : p.waking t.other = false := by
      have unowed := none_owed t.other
      have other : t.other ≠ t := by cases t <;> decide
      simpa only [Function.update_of_ne other] using unowed
    exact Poller.wake_heardCancel (h.onQueue q polls) (registered last q polls)

theorem sendWakeup_hearing (h : p.Hearing) :
    Hearing { p with poller := p.poller.map Poller.wake } := by
  refine ⟨h.stopping, fun polls => h.inPoll (by simpa using polls), fun q' inside => ?_,
    fun set none_owed q' inside => ?_⟩
  · obtain ⟨q, polls, rfl⟩ := Option.map_eq_some_iff.mp inside
    exact Poller.wake_onQueue (h.onQueue q polls)
  · obtain ⟨q, polls, rfl⟩ := Option.map_eq_some_iff.mp inside
    exact Poller.heardCancel_wake (h.heard set none_owed q polls)

theorem step_hearing {a : PolledAction} (h : p.Hearing) (ok : ioctlOk a = true)
    (registered : p.WakesRegistered a) (step : p.step arch a = some p') : p'.Hearing := by
  cases a with
  | client a => exact client_hearing h ok step
  | pollEnter => exact pollEnter_hearing h step
  | poll data errno => exact poll_hearing h step
  | cancelWakeup t => exact cancelWakeup_hearing h registered step
  | sendWakeup =>
    obtain rfl := Option.some.inj step
    exact sendWakeup_hearing h

end Step

end PolledClient

def CancelPc.rank : CancelPc → Nat
  | .test => 3
  | .clear => 2
  | .kvnetCancelRead => 1

/-- Once the flag is cleared, a step of a handler on the second thread brings the
thread closer to the end of its handlers. -/
theorem Client.handler_falls {c d : Client} {pc : CancelPc} {outer : List CancelPc}
    {errno : UInt32} {ok : Bool} (stack : c.handlers .pktLoop = pc :: outer)
    (cleared : c.canRunLoop = false) (moved : c.cancelLoop .pktLoop errno ok = some d) :
    d.main = c.main ∧ d.pktLoop = c.pktLoop ∧
      ((d.handlers .pktLoop).map CancelPc.rank).sum <
        ((c.handlers .pktLoop).map CancelPc.rank).sum := by
  have here : c.cancelPc .pktLoop = some pc := by simp [cancelPc, stack]
  have next {s : Client} (handlers : s.handlers = c.handlers) (after : Option CancelPc) :
      (s.setCancelPc .pktLoop after).main = s.main ∧
      (((s.setCancelPc .pktLoop after).handlers .pktLoop).map CancelPc.rank).sum =
        (after.map CancelPc.rank).getD 0 + (outer.map CancelPc.rank).sum := by
    cases after <;> simp [setCancelPc, handlers, stack]
  rw [stack, List.map_cons, List.sum_cons]
  rcases cancelLoop_inv moved with ⟨found, rfl⟩ | ⟨found, rfl⟩ | ⟨found, rfl⟩
  · obtain rfl := Option.some.inj (here.symm.trans found)
    rw [cleared, if_neg Bool.false_ne_true]
    obtain ⟨main, left⟩ := next (s := c) rfl none
    refine ⟨main, setCancelPc_pktLoop _ _ _, ?_⟩
    rw [left]
    exact Nat.add_lt_add_right (show 0 < 3 by decide) _
  · obtain rfl := Option.some.inj (here.symm.trans found)
    obtain ⟨main, left⟩ := next (s := { c with canRunLoop := false }) rfl (some .kvnetCancelRead)
    refine ⟨main, setCancelPc_pktLoop _ _ _, ?_⟩
    rw [left]
    exact Nat.add_lt_add_right (show 1 < 2 by decide) _
  · obtain rfl := Option.some.inj (here.symm.trans found)
    obtain ⟨main, left⟩ := next (s := { c with lib := c.lib.cancelStep errno ok }) rfl none
    refine ⟨main, setCancelPc_pktLoop _ _ _, ?_⟩
    rw [left]
    exact Nat.add_lt_add_right (show 0 < 1 by decide) _

/-- How many steps a poll that hears of a cancel is from its return. -/
def Poller.rank (q : Poller) : Nat :=
  match q.pc with
  | .testCanceled => 2
  | .pollWait => 5
  | .testQueue => 4
  | .tested _ => if q.returns then 1 else 3
  | .asleep => 3

/-- With the flag set, a poll that has heard of it is on its way to its return. -/
theorem Poller.next_falls {w : World} {q : Poller} (heard : q.HeardCancel)
    (set : w.vnet.ioDev.canceled ≠ 0) (stays : q.returns = false) : (q.next w).rank < q.rank := by
  have found_nothing (past : q.pc.pastQueue = true) : q.rank = 3 := by
    cases pc : q.pc with
    | testCanceled | pollWait | testQueue => rw [pc] at past; cases past
    | tested mask => simp [Poller.rank, pc, stays]
    | asleep => simp only [Poller.rank, pc]
  have next := q.next_step w
  revert next
  generalize q.next w = q'
  intro next
  cases next with
  | canceled pc _ =>
    have returns := canceledMask_returns q
    simp only [Poller.rank, pc, if_pos returns]
    decide
  | uncanceled pc unset => exact absurd unset set
  | waits pc =>
    simp only [Poller.rank, pc]
    decide
  | tests pc =>
    simp only [Poller.rank, pc]
    split
    · decide
    · decide
  | again past woken =>
    rw [found_nothing past]
    exact Nat.lt_succ_self 2
  | asleep past quiet =>
    have woken := Poller.stays_or stays (heard (PollPc.pastCancel_of_pastQueue past))
    rw [quiet] at woken
    cases woken

namespace PolledClient

/-- How many steps the second thread is from its end at most. -/
def weight (p : PolledClient) : Nat :=
  6 * p.client.pktLoop.rank + (p.poller.map Poller.rank).getD 3 +
    2 * ((p.client.handlers .pktLoop).map CancelPc.rank).sum + (p.waking .pktLoop).toNat

/-- Main waits, its own cancel has woken the poll, and none was missed. -/
structure Joining (p : PolledClient) : Prop where
  hearing : p.Hearing
  main : p.client.main = .pthreadJoin
  woken : p.waking .main = false

namespace Joining

variable {arch : Arch} {p p' : PolledClient}

theorem canRunLoop (h : p.Joining) : p.client.canRunLoop = false := by
  cases set : p.client.canRunLoop with
  | false => rfl
  | true => simpa [h.main, MainPc.looping, Client.Loopless] using h.hearing.stopping.order.flag set

theorem opened (h : p.Joining) : p.client.lib.lib.fdesc ≠ -1 :=
  h.hearing.stopping.order.handle_of_waiting (Or.inr h.main)

theorem read_in_progress (h : p.Joining) (reading : p.client.pktLoop = .reading) :
    ∃ r, p.client.lib.reads[0]? = some r := by
  obtain ⟨r, rest, reads⟩ :=
    List.exists_cons_of_ne_nil (h.hearing.stopping.order.reads.mp reading)
  exact ⟨r, by rw [reads]; rfl⟩

/-- The cancel that main waits for is made by a handler on the other thread, if
not made already. -/
theorem flagSet (h : p.Joining) (silent : p.client.handlers .pktLoop = []) :
    p.client.lib.FlagSet := by
  refine h.hearing.stopping.flags.armed ?_
  rcases h.hearing.stopping.cancelled_elsewhere h.canRunLoop (Or.inr h.main) (by simp [h.main])
    with armed | ⟨t, among⟩
  · exact armed
  · cases t with
    | main =>
      have late := h.hearing.stopping.order.handlers .main _ among
      simp [Client.MayCancel, h.main, MainPc.looping, Client.Loopless] at late
    | pktLoop =>
      rw [silent] at among
      cases among

/-- A thread that is in the kernel for its cancel leaves it. -/
theorem wakeup_progress (arch : Arch) (h : p.Joining) (owed : p.waking .pktLoop = true) :
    ∃ p', p.step arch (.cancelWakeup .pktLoop) = some p' ∧ p'.Joining ∧ p'.weight < p.weight := by
  have outside : p.poller = none := by
    by_contra polls
    rw [(h.hearing.inPoll polls).2.2.1] at owed
    cases owed
  have step : p.cancelWakeup .pktLoop = some { p with
      poller := p.poller.map Poller.wake, waking := Function.update p.waking .pktLoop false } :=
    if_pos owed
  have registered : p.WakesRegistered (.cancelWakeup .pktLoop) := by
    intro _ q inside
    rw [outside] at inside
    cases inside
  refine ⟨_, step, ⟨cancelWakeup_hearing h.hearing registered step, h.main, ?_⟩, ?_⟩
  · have other : Thread.main ≠ .pktLoop := by decide
    simp only [Function.update_of_ne other, h.woken]
  · simp [weight, outside, owed]

/-- A handler on the thread goes on. -/
theorem handler_progress (arch : Arch) (h : p.Joining) (unwoken : p.waking .pktLoop = false)
    {pc : CancelPc} {outer : List CancelPc} (stack : p.client.handlers .pktLoop = pc :: outer) :
    ∃ p', p.step arch (.client (.cancelLoop .pktLoop 0 true)) = some p' ∧ p'.Joining ∧
      p'.weight < p.weight := by
  have outside : p.poller = none := by
    by_contra polls
    rw [(h.hearing.inPoll polls).2.1] at stack
    cases stack
  have found : p.client.cancelPc .pktLoop = some pc := by simp [Client.cancelPc, stack]
  obtain ⟨c, moved⟩ : ∃ c, p.client.cancelLoop .pktLoop 0 true = some c :=
    ⟨_, by rw [Client.cancelLoop, found]; rfl⟩
  obtain ⟨main, pktLoop, lower⟩ := Client.handler_falls stack h.canRunLoop moved
  have may : p.mayStep (.cancelLoop .pktLoop 0 true) = true := by
    simp [mayStep, ClientAction.thread, inCall, unwoken, outside]
  obtain ⟨p', step, client, poller, waking⟩ : ∃ p',
      p.clientStep arch (.cancelLoop .pktLoop 0 true) = some p' ∧ p'.client = c ∧
        p'.poller = p.poller ∧ p'.waking .main = p.waking .main := by
    refine ⟨_, (if_pos may).trans (congrArg _ moved), rfl, rfl, ?_⟩
    dsimp only
    split
    · exact Function.update_of_ne (show Thread.main ≠ .pktLoop by decide) true p.waking
    · rfl
  refine ⟨p', step, ⟨client_hearing h.hearing rfl step, ?_, waking.trans h.woken⟩, ?_⟩
  · rw [client, main]
    exact h.main
  · have bit : (p'.waking .pktLoop).toNat ≤ 1 := Bool.toNat_le _
    rw [weight, weight, client, poller, outside, pktLoop, unwoken]
    omega

/-- The poll goes on: it is not asleep for good. -/
theorem poll_progress (arch : Arch) (h : p.Joining) (unwoken : p.waking .pktLoop = false)
    {q : Poller} (polls : p.poller = some q) :
    ∃ p', p.step arch (.poll noFrame 0) = some p' ∧ p'.Joining ∧ p'.weight < p.weight := by
  obtain ⟨reading, silent, _, driver⟩ := h.hearing.inPoll (by simp [polls])
  have set : p.canceled ≠ 0 :=
    (LibSys.flagSet_driver (fun tap => tap driver)).mp (h.flagSet silent) h.opened
  have none_owed : ∀ t, p.waking t = false := by
    rintro (_ | _)
    · exact h.woken
    · exact unwoken
  have heard := h.hearing.heard set none_owed q polls
  have awake : q.sleeps = false := by
    cases sleeps : q.sleeps with
    | false => rfl
    | true =>
      obtain ⟨pc, unheard⟩ := Poller.sleeps_unheard sleeps
      exact absurd (heard (by rw [pc]; rfl)) unheard
  by_cases returns : q.returns = true
  · obtain ⟨r, found⟩ := h.read_in_progress reading
    obtain ⟨lib, polled⟩ : ∃ lib, p.client.lib.polled arch q.revents noFrame 0 = some lib := by
      unfold LibSys.polled
      rw [found]
      dsimp only
      split
      · exact ⟨_, rfl⟩
      · exact ⟨_, rfl⟩
    have step : p.poll arch noFrame 0 = some { p with
        client := { p.client with lib := lib, pktLoop := Client.afterRound lib }
        poller := none } := by
      simp only [poll, polls, awake, returns, Bool.false_eq_true, if_false, if_true, polled,
        Option.map_some]
    refine ⟨_, step, ⟨poll_hearing h.hearing step, h.main, h.woken⟩, ?_⟩
    have ends : (Client.afterRound lib).rank ≤ 2 := by
      obtain ⟨_, found', _, _, same⟩ := Client.polled_inv polled
      exact Client.afterRound_last h.hearing.stopping.order.few found' (by rw [same])
    have three : p.client.pktLoop.rank = 3 := by rw [reading]; rfl
    simp only [weight, polls, three, Option.map_none, Option.getD_none]
    omega
  · have stays := Bool.eq_false_of_not_eq_true returns
    have step : p.poll arch noFrame 0 = some { p with
        poller := some (q.next p.client.lib.world) } := by
      simp only [poll, polls, awake, stays, Bool.false_eq_true, if_false]
    have falls := Poller.next_falls heard set stays
    refine ⟨_, step, ⟨poll_hearing h.hearing step, h.main, h.woken⟩, ?_⟩
    simp only [weight, polls, Option.map_some, Option.getD_some]
    omega

/-- A step of pktLoop outside of poll. -/
theorem step_progress {a : ClientAction} {c : Client} (h : p.Joining)
    (silent : p.client.handlers .pktLoop = []) (loop : Client.ofLoop a = true)
    (may : p.mayStep a = true) (moved : p.client.loopStep arch a = some c)
    (lower : c.pktLoop.rank < p.client.pktLoop.rank) :
    ∃ p', p.step arch (.client a) = some p' ∧ p'.Joining ∧ p'.weight < p.weight := by
  have moves := Client.loopStep_moves silent moved
  have ok : a.ioctlOk = true := by cases a <;> first | rfl | cases loop
  have unset : p.setsFlag a = false := by cases a <;> first | rfl | cases loop
  have client : p.client.step arch a = some c := by
    cases a <;> simp only [Client.ofLoop, Bool.false_eq_true] at loop <;>
      simpa only [Client.step, Client.ofMain, Bool.false_eq_true, if_false, if_pos silent]
        using moved
  obtain ⟨p', step⟩ : ∃ p', p.clientStep arch a = some p' :=
    ⟨_, (if_pos may).trans (congrArg _ client)⟩
  obtain ⟨_, c', client', ⟨rfl, _⟩ | ⟨_, same⟩⟩ := clientStep_inv step
  · cases loop
  · obtain rfl := Option.some.inj (client.symm.trans client')
    rw [unset, if_neg Bool.false_ne_true] at same
    subst same
    have main : c.main = p.client.main := by rw [moves.same]
    have handlers : c.handlers = p.client.handlers := by rw [moves.same]
    refine ⟨_, step, ⟨client_hearing h.hearing ok step, main.trans h.main, h.woken⟩, ?_⟩
    simp only [weight, handlers]
    omega

/-- Outside of poll and of the handlers pktLoop itself goes on. -/
theorem loop_progress (arch : Arch) (h : p.Joining) (alive : p.client.alive .pktLoop = true)
    (unwoken : p.waking .pktLoop = false) (silent : p.client.handlers .pktLoop = [])
    (outside : p.poller = none) :
    ∃ a p', byPktLoop a = true ∧ p.step arch a = some p' ∧ p'.Joining ∧ p'.weight < p.weight := by
  have free : p.inCall .pktLoop = false := by simp [inCall, unwoken, outside]
  have by_action (a : ClientAction) (loop : Client.ofLoop a = true) (counted : a.advances = true)
      (own : byPktLoop (.client a) = true) (may : p.mayStep a = true)
      (enabled : (p.client.loopStep arch a).isSome) :
      ∃ a p', byPktLoop a = true ∧ p.step arch a = some p' ∧ p'.Joining ∧
        p'.weight < p.weight := by
    obtain ⟨c, moved⟩ := Option.isSome_iff_exists.mp enabled
    have low := (Client.loop_falls h.canRunLoop moved).1
    rw [counted, Bool.toNat_true] at low
    obtain ⟨p', step⟩ := h.step_progress silent loop may moved (by omega)
    exact ⟨.client a, p', own, step⟩
  have may (a : ClientAction) (own : a.thread = .pktLoop) : (!p.inCall a.thread) = true := by
    rw [own, free]
    rfl
  cases at_ : p.client.pktLoop with
  | idle | ended => simp [Client.alive, at_] at alive
  | getDriverInfo =>
    exact by_action (.getDriverInfo 0 0 none none) rfl rfl rfl (may _ rfl)
      (by simp [Client.loopStep, at_])
  | malloc =>
    exact by_action (.malloc 1 true) rfl rfl rfl (may _ rfl) (by simp [Client.loopStep, at_])
  | test => exact by_action .test rfl rfl rfl (may _ rfl) (by simp [Client.loopStep, at_])
  | kvnetRead =>
    exact by_action .kvnetRead rfl rfl rfl (may _ rfl) (by simp [Client.loopStep, at_])
  | free => exact by_action .free rfl rfl rfl (may _ rfl) (by simp [Client.loopStep, at_])
  | reading =>
    by_cases driver : p.client.lib.lib.useTapDev = 0
    · have step : p.pollEnter = some { p with poller := some ⟨.testCanceled, false, false⟩ } :=
        if_pos ⟨at_, silent, free, driver⟩
      refine ⟨.pollEnter, _, rfl, step, ⟨pollEnter_hearing h.hearing step, h.main, h.woken⟩, ?_⟩
      simp [weight, outside, Poller.rank]
    · -- on TAP the poll times out after a millisecond, and the library looks at its own flag
      obtain ⟨r, found⟩ := h.read_in_progress at_
      have ends := round_timeout arch p.client.lib.lib p.client.lib.world r.hdr r.len 0 noFrame
        driver ((LibSys.flagSet_tap driver).mp (h.flagSet silent))
      have possible : PollOutcome.timeout.Possible p.client.lib.lib p.client.lib.world := driver
      have moved : p.client.loopStep arch (.readRound .timeout noFrame 0) =
          some { p.client with
            lib := { p.client.lib with
              reads := p.client.lib.reads.eraseIdx 0
              returned := p.client.lib.returned ++
                [⟨r.afterCancel, kvnetMakeStatus 0 KVNET_READ_CANCELLED, 0⟩] }
            pktLoop := Client.afterRound { p.client.lib with
              reads := p.client.lib.reads.eraseIdx 0
              returned := p.client.lib.returned ++
                [⟨r.afterCancel, kvnetMakeStatus 0 KVNET_READ_CANCELLED, 0⟩] } } := by
        simp only [Client.loopStep, if_pos at_, LibSys.readRound, found, if_pos possible, ends,
          Option.map_some]
      have last := Client.afterRound_last h.hearing.stopping.order.few found
        (show LibSys.reads { p.client.lib with
          reads := p.client.lib.reads.eraseIdx 0
          returned := p.client.lib.returned ++
            [⟨r.afterCancel, kvnetMakeStatus 0 KVNET_READ_CANCELLED, 0⟩] } = _ from rfl)
      have three : p.client.pktLoop.rank = 3 := by rw [at_]; rfl
      have timeout : ∃ p', p.step arch (.client (.readRound .timeout noFrame 0)) = some p' ∧
          p'.Joining ∧ p'.weight < p.weight :=
        h.step_progress silent rfl (may (.readRound .timeout noFrame 0) rfl) moved
          (three ▸ Nat.lt_succ_of_le last)
      obtain ⟨p', step⟩ := timeout
      exact ⟨_, p', rfl, step⟩

end Joining

section Join

variable {arch : Arch} {p : PolledClient}

/-- As long as it is there, the second thread has a step that brings it closer to
its end, and main goes on waiting. -/
theorem join_progress (arch : Arch) (h : p.Joining) (alive : p.client.alive .pktLoop = true) :
    ∃ a p', byPktLoop a = true ∧ p.step arch a = some p' ∧ p'.Joining ∧ p'.weight < p.weight := by
  cases owed : p.waking .pktLoop with
  | true =>
    obtain ⟨p', step⟩ := h.wakeup_progress arch owed
    exact ⟨_, p', rfl, step⟩
  | false =>
    cases stack : p.client.handlers .pktLoop with
    | cons pc outer =>
      obtain ⟨p', step⟩ := h.handler_progress arch owed stack
      exact ⟨_, p', rfl, step⟩
    | nil =>
      cases polls : p.poller with
      | some q =>
        obtain ⟨p', step⟩ := h.poll_progress arch owed polls
        exact ⟨_, p', rfl, step⟩
      | none => exact h.loop_progress arch alive owed stack polls

theorem join_ends (h : p.Joining) : ∃ rest p', rest.length ≤ p.weight ∧
    (∀ a ∈ rest, byPktLoop a = true) ∧ Execution.run (step arch) p rest = some p' ∧
      p'.client.main = .pthreadJoin ∧ p'.client.pktLoop = .ended := by
  induction hn : p.weight using Nat.strong_induction_on generalizing p with
  | _ n ih =>
    subst hn
    cases alive : p.client.alive .pktLoop with
    | true =>
      obtain ⟨a, p', own, step, joining, lower⟩ := join_progress arch h alive
      obtain ⟨rest, e, short, all, ran, ended⟩ := ih p'.weight lower joining rfl
      refine ⟨a :: rest, e, by rw [List.length_cons]; omega, ?_, ?_, ended⟩
      · exact List.forall_mem_cons.mpr ⟨own, all⟩
      · rw [Execution.run_cons step, ran]
    | false =>
      have created := h.hearing.stopping.order.created (by rw [h.main]; rfl)
      refine ⟨[], p, Nat.zero_le _, by simp, rfl, h.main, ?_⟩
      simpa [Client.alive, created] using alive

end Join

end PolledClient

def idlePolled : PolledClient := ⟨idleClient, none, fun _ => false⟩

theorem idlePolled_fresh : idlePolled.Fresh := ⟨idleClient_fresh, rfl, fun _ => rfl⟩

/-- pktLoop has entered a read on the driver. -/
def entersRead : List PolledAction :=
  [.client (.kvnetOpen false ⟨0, 3, true, true, true, 0, 1⟩), .client .canRunLoop,
    .client (.pthreadCreate true), .client (.getDriverInfo 512 0 none none),
    .client (.malloc 4096 true), .client .test, .client .kvnetRead, .pollEnter]

/-- The key is pressed. -/
def pressesKey : List PolledAction :=
  [.client (.getc true), .client (.cancelLoop .main 0 true), .client (.cancelLoop .main 0 true),
    .client (.cancelLoop .main 0 true), .cancelWakeup .main]

def pollSteps (n : Nat) : List PolledAction := List.replicate n (.poll noFrame 0)

/-- With the wake-up in that place, the poll goes to sleep and main waits for it. -/
example : (Execution.run (PolledClient.step lp64) idlePolled
    (entersRead ++ pollSteps 1 ++ pressesKey ++ pollSteps 3)).map
      (fun p => (p.client.main, p.poller)) =
        some (.pthreadJoin, some ⟨.asleep, true, false⟩) := by
  decide +kernel

end Kvnet
