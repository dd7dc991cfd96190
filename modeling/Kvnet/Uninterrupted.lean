import Kvnet.Interleaving

/-!
# Calls that run without interruption

A thread of the interleaved driver that is never interrupted does what the
function of the sequential model does. So the two descriptions of net_dev_send,
net_dev_close, io_read_to_iovec and io_dev_poll are of the same code.
-/

namespace Kvnet

namespace Sys

variable (arch : Arch) {s : Sys}

/-- The world after the buffer was handed to net_dev_send and the call returned. -/
def sent (s : Sys) (skb : Addr) (txQueueLen : UInt64) : World :=
  netDevSend (s.world.withMem (s.world.mem.pass skb)) skb txQueueLen

/-- A send that drops its buffer is over after the lock section. -/
theorem send_alone_drops {skb : Addr} {txQueueLen : UInt64} (nonnull : skb ≠ NULL)
    (owned : s.world.mem.passed.count skb = s.world.mem.freed.count skb)
    (drops : SendDrops s.world.queue txQueueLen) :
    Execution.run (step arch) s [.sendEnter skb, .sendSection s.senders.length txQueueLen] =
      some { s with world := s.sent skb txQueueLen } := by
  have drops' : SendDrops (s.world.withMem (s.world.mem.pass skb)).queue txQueueLen := drops
  have kept : (netDevSendSection (s.world.withMem (s.world.mem.pass skb)) skb txQueueLen).2 =
      false := congrArg Prod.snd (netDevSendSection_drops drops')
  simp [Execution.run, step, sendEnter, nonnull, owned, sendSection, kept, sent, netDevSend,
    Pool.last_eraseIdx]

/-- A send that inserts its buffer then wakes the pollers. -/
theorem send_alone_inserts {skb : Addr} {txQueueLen : UInt64} (nonnull : skb ≠ NULL)
    (owned : s.world.mem.passed.count skb = s.world.mem.freed.count skb)
    (accepts : ¬ SendDrops s.world.queue txQueueLen) :
    Execution.run (step arch) s [.sendEnter skb, .sendSection s.senders.length txQueueLen,
        .sendWakeup s.senders.length] =
      some { s.ioDevWakeup with
        world := s.sent skb txQueueLen, accepted := s.accepted ++ [skb] } := by
  have accepts' : ¬ SendDrops (s.world.withMem (s.world.mem.pass skb)).queue txQueueLen := accepts
  have added : (netDevSendSection (s.world.withMem (s.world.mem.pass skb)) skb txQueueLen).2 =
      true := congrArg Prod.snd (netDevSendSection_inserts accepts')
  simp [Execution.run, step, sendEnter, nonnull, owned, sendSection, added, sendWakeup, ioDevWakeup,
    sent, netDevSend, Pool.last_eraseIdx]

theorem close_alone (open_ : s.ctl ≠ .closing) :
    (Execution.run (step arch) s [.closeDisable, .closeFlush]).map Sys.world =
      Kvnet.netDevClose s.fuel s.world := by
  have fuel : { s with world := s.world.enableQueue 0, ctl := .closing }.fuel = s.fuel := rfl
  simp only [Execution.run, step, closeDisable, if_neg open_, Option.bind_some, closeFlush, if_true,
    fuel, Kvnet.netDevClose, Option.bind_fun_some, Option.map_map]
  rfl

/-- An action of the reader at position k. -/
def ofReader (k : Nat) : Action → Prop
  | .readRemove j | .readFill j _ | .readFree j | .readReport j _ => j = k
  | _ => False

section Reading

variable {iv : List Iovec} {hdr : KvnetHeader} {readers : List Reader}

/-- One round of the loop of io_read_to_iovec, from queue_remove to kfree_skb. -/
theorem packet_alone {todo i : Nat} {ret : Int}
    (last : s.readers = readers ++ [⟨iv, hdr, todo, i, ret, .remove⟩]) (fault : Option FillFault)
    (nonempty : s.world.queueRemove.1 ≠ NULL) :
    Execution.run (step arch) s
        [.readRemove readers.length, .readFill readers.length fault, .readFree readers.length] =
      some { s with
        world := (readPacket s.world.queueRemove.2 (hdr.pkt i) s.world.queueRemove.1 fault).1
        readers := readers ++
          [if (readPacket s.world.queueRemove.2 (hdr.pkt i) s.world.queueRemove.1 fault).2 ≠ 0
            then ⟨iv, hdr, todo, i, -EFAULT, .report⟩
            else Reader.advance arch ⟨iv, hdr, todo, i, ret, .remove⟩]
        removed := s.removed ++ [s.world.queueRemove.1] } := by
  by_cases failed :
      (ioReadFillNetworkPacket s.world.queueRemove.2 (hdr.pkt i) s.world.queueRemove.1 fault).2 = 0
  · simp [Execution.run, step, readRemove, last, nonempty, readFill, readFree, readPacket, failed,
      Reader.advance]
  · simp [Execution.run, step, readRemove, last, nonempty, readFill, readFree, readPacket, failed]

/-- Where a reader is with n indices to go. -/
def loopPc (n : Nat) : ReadPc := if n = 0 then .report else .remove

/-- By its own actions the last reader leaves the loop with what the loop does
to the world and with the loop's `ret`. -/
theorem loop_alone (fault : Nat → Option FillFault) (n i : Nat) (ret : Int)
    (last : s.readers = readers ++ [⟨iv, hdr, n, i, ret, loopPc n⟩]) :
    ∃ actions todo j removed, (∀ a ∈ actions, ofReader readers.length a) ∧
      Execution.run (step arch) s actions = some { s with
        world := (ioReadLoop arch hdr fault n i s.world ret).1
        readers := readers ++
          [⟨iv, hdr, todo, j, (ioReadLoop arch hdr fault n i s.world ret).2, .report⟩]
        removed := removed } := by
  induction n generalizing i ret s with
  | zero =>
    refine ⟨[], 0, i, s.removed, fun a ha => ?_, ?_⟩
    · cases ha
    · rw [Execution.run_nil, ioReadLoop]
      rw [loopPc, if_pos rfl] at last
      rw [← last]
  | succ n ih =>
    have last' : s.readers = readers ++ [⟨iv, hdr, n + 1, i, ret, .remove⟩] := last
    by_cases empty : s.world.queueRemove.1 = NULL
    · refine ⟨[.readRemove readers.length], n + 1, i, s.removed, fun a ha => ?_, ?_⟩
      · obtain rfl := List.mem_singleton.mp ha
        rfl
      · simp [Execution.run, step, readRemove, last', empty, ioReadLoop]
    have round := packet_alone arch last' (fault i) empty
    have own : ∀ a ∈ [Action.readRemove readers.length, .readFill readers.length (fault i),
        .readFree readers.length], ofReader readers.length a := by
      simp [ofReader]
    by_cases failed :
        (readPacket s.world.queueRemove.2 (hdr.pkt i) s.world.queueRemove.1 (fault i)).2 ≠ 0
    · refine ⟨_, n + 1, i, s.removed ++ [s.world.queueRemove.1], own, ?_⟩
      rw [round, if_pos failed]
      simp only [ioReadLoop, if_neg empty, if_pos failed]
    · rw [if_neg failed] at round
      obtain ⟨actions, todo, j, removed, later, hrun⟩ :=
        ih (s := { s with
          world := (readPacket s.world.queueRemove.2 (hdr.pkt i) s.world.queueRemove.1 (fault i)).1
          readers := readers ++ [Reader.advance arch ⟨iv, hdr, n + 1, i, ret, .remove⟩]
          removed := s.removed ++ [s.world.queueRemove.1] }) (i + 1) (arch.toSsizeT (ret + 1)) rfl
      refine ⟨_, todo, j, removed, fun a ha => (List.mem_append.mp ha).elim (own a) (later a), ?_⟩
      rw [Execution.run_append, round, Option.bind_some, hrun]
      simp only [ioReadLoop, if_neg empty, if_neg failed]

/-- A read from its call to its return. -/
theorem read_alone (s : Sys) (iv : List Iovec) (len : Int) (env : ReadEnv) :
    ∃ actions removed, (∀ a ∈ actions, ofReader s.readers.length a) ∧
      Execution.run (step arch) s (.readEnter iv len env.header :: actions) = some { s with
        world := (ioReadToIovec arch s.world iv len env).world
        removed := removed } := by
  cases accepted : fetchHeader arch s.world.user iv len env.header with
  | error e =>
    refine ⟨[], s.removed, fun a ha => ?_, ?_⟩
    · cases ha
    · simp [Execution.run, step, readEnter, accepted, ioReadToIovec]
  | ok hdr =>
    have positive := count_pos (fetchHeader_ok accepted).1
    have start : loopPc hdr.count.toNat = .remove := if_neg (Nat.ne_of_gt positive)
    obtain ⟨actions, todo, j, removed, own, hrun⟩ :=
      loop_alone arch (s := { s with
        readers := s.readers ++ [⟨iv, hdr, hdr.count.toNat, 0, 0, .remove⟩] })
        env.fault hdr.count.toNat 0 0 (by rw [start])
    refine ⟨actions ++ [.readReport s.readers.length env.toIovec], removed, fun a ha => ?_, ?_⟩
    · rcases List.mem_append.mp ha with looping | last
      · exact own a looping
      · obtain rfl := List.mem_singleton.mp last
        rfl
    · have enter : step arch s (.readEnter iv len env.header) = some { s with
          readers := s.readers ++ [⟨iv, hdr, hdr.count.toNat, 0, 0, .remove⟩] } := by
        simp only [step, readEnter, accepted]
      rw [Execution.run_cons enter, Execution.run_append, hrun, ioReadToIovec_accepted accepted]
      simp [Execution.run, step, readReport, Pool.last_eraseIdx]

end Reading

/-- One step of the last poller. -/
theorem poll_last {pollers : List Poller} {p q : Poller} (last : s.pollers = pollers ++ [p])
    (awake : p.sleeps = false) (stays : p.returns = false) (next : p.next s.world = q) :
    s.step arch (.poll pollers.length) = some { s with pollers := pollers ++ [q] } := by
  have found : s.pollers[pollers.length]? = some p := by rw [last, Pool.last_found]
  rw [step, pollStep_next found awake stays next, last, Pool.last_set]

/-- A poll call that nothing interrupts ends its first round with the mask of
io_dev_poll. -/
theorem poll_alone (s : Sys) :
    ∃ actions registered, (∀ a ∈ actions, a = .poll s.pollers.length) ∧
      Execution.run (step arch) s (.pollEnter :: actions) = some { s with
        pollers := s.pollers ++ [⟨.tested (ioDevPoll s.world), registered, false⟩] } := by
  by_cases canceled : s.world.vnet.ioDev.canceled ≠ 0
  · refine ⟨[.poll s.pollers.length], false, fun a ha => List.mem_singleton.mp ha, ?_⟩
    have enter : s.step arch .pollEnter = some { s with
      pollers := s.pollers ++ [⟨.testCanceled, false, false⟩] } := rfl
    rw [Execution.run_cons enter, Execution.run_cons
      (poll_last arch rfl rfl rfl (by simp only [Poller.next, if_pos canceled]; rfl))]
    simp only [Execution.run_nil, ioDevPoll, if_pos canceled]
  · refine ⟨[.poll s.pollers.length, .poll s.pollers.length, .poll s.pollers.length], true,
      fun a ha => by simpa using ha, ?_⟩
    have enter : s.step arch .pollEnter = some { s with
      pollers := s.pollers ++ [⟨.testCanceled, false, false⟩] } := rfl
    rw [Execution.run_cons enter, Execution.run_cons
      (poll_last arch rfl rfl rfl (by simp only [Poller.next, if_neg canceled]; rfl)),
      Execution.run_cons (poll_last arch rfl rfl rfl rfl),
      Execution.run_cons (poll_last arch rfl rfl rfl rfl)]
    simp only [Execution.run_nil, ioDevPoll, if_neg canceled]
    rfl

end Sys

end Kvnet
