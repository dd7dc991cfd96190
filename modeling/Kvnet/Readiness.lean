import Kvnet.Polling
import Kvnet.Lengths
import Kvnet.Library

/-!
# From POLLIN to the first packet

One thread calls kvnet_read on the driver: it polls, and after POLLIN it reads.
io_dev_poll tests the queue in one lock section, io_read_to_iovec takes the first
packet in a later one, and senders and the interface's open and close run in
between. User memory does not fault and no allocation fails.
-/

namespace Kvnet

/-- The slots of an accepted header lie inside the caller's buffer. -/
def ValidBuffers (arch : Arch) (iv : List Iovec) (hdr : KvnetHeader) : Prop :=
  0 ≤ ioDevIovTotal arch iv ∧
    ∀ i, i < hdr.count.toNat → SlotInside arch (ioDevIovTotal arch iv) i

instance (arch : Arch) (iv : List Iovec) (hdr : KvnetHeader) :
    Decidable (ValidBuffers arch iv hdr) :=
  inferInstanceAs (Decidable (_ ∧ _))

/-- Where the thread is: outside kvnet_read, in its poll, between the return of
poll with POLLIN and the read, or in io_read_to_iovec. -/
inductive Caller where
  | outside
  | polling (hdr : Addr) (len : UInt32)
  | ready (hdr : Addr) (len : UInt32)
  | reading
  deriving DecidableEq

/-- The driver with its one caller. `reads` holds, for each io_read_to_iovec so
far, the packets it delivered and what it returned, `statuses` what kvnet_read
returned. `flushed` says that since the last test of the queue by io_dev_poll a
flush ran and no packet was accepted after it. -/
structure ReadySys where
  sys : Sys
  caller : Caller
  flushed : Bool
  reads : List (Nat × Int)
  statuses : List UInt32

inductive ReadyAction where
  | driver (a : Action)
  | kvnetRead (hdr : Addr) (len errno : UInt32)
  | poll (errno : UInt32)
  | signal
  | readEnter (env : HeaderEnv)
  | readRemove
  | readFill
  | readFree
  | readReport (errno : UInt32)

/-- What other threads do: they send, take the interface up and down, cancel, and
write to user memory. -/
def Action.ofOthers : Action → Bool
  | .readEnter _ _ _ | .readRemove _ | .readFill _ _ | .readFree _ | .readReport _ _ => false
  | .pollEnter | .poll _ | .pollSignal _ => false
  | _ => true

namespace ReadySys

def returns (s : ReadySys) (errno status : UInt32) : ReadySys :=
  { s with caller := .outside, statuses := s.statuses ++ [kvnetMakeStatus errno status] }

/-- What becomes of `flushed` in a step of another thread. -/
def flushedAfter (s : ReadySys) (t : Sys) : Action → Bool
  | .closeFlush => true
  | _ => s.flushed && t.accepted = s.sys.accepted

/-- kvnet_read after its poll has returned with this mask. -/
def polled (s : ReadySys) (errno : UInt32) (hdr : Addr) (len : UInt32) (mask : Nat) : ReadySys :=
  if mask &&& requestedMask &&& errorEvents ≠ 0 then s.returns errno KVNET_READ_CANCELLED
  else if mask &&& requestedMask &&& POLLIN ≠ 0 then { s with caller := .ready hdr len }
  else s.returns errno KVNET_SELECT_ERROR

/-- One step of the poll system call. The test of the queue starts anew what
`flushed` records. -/
def pollStep (arch : Arch) (s : ReadySys) (errno : UInt32) : Option ReadySys :=
  match s.caller, s.sys.pollers with
  | .polling hdr len, p :: _ =>
    (s.sys.step arch (.poll 0)).map fun t =>
      match p.pc with
      | .testQueue => { s with sys := t, flushed := false }
      | .tested mask =>
        if p.returns then { s with sys := t }.polled errno hdr len mask else { s with sys := t }
      | _ => { s with sys := t }
  | _, _ => none

/-- A signal ends poll with EINTR, and kvnet_read polls again. -/
def signal (arch : Arch) (s : ReadySys) : Option ReadySys :=
  match s.caller with
  | .polling _ _ =>
    (Execution.run (Sys.step arch) s.sys [.pollSignal 0, .pollEnter]).map fun t =>
      { s with sys := t }
  | _ => none

def kvnetRead (arch : Arch) (s : ReadySys) (hdr : Addr) (len errno : UInt32) : Option ReadySys :=
  if s.caller ≠ .outside then none
  else if hdr = NULL ∨ len.toNat < arch.sizeofHeader then
    some (s.returns errno KVNET_INVALID_PARAMETER)
  else (s.sys.step arch .pollEnter).map fun t => { s with sys := t, caller := .polling hdr len }

/-- The read system call, up to the loop of io_read_to_iovec. -/
def readEnter (arch : Arch) (s : ReadySys) (env : HeaderEnv) : Option ReadySys :=
  match s.caller with
  | .ready hdr len =>
    let iv : List Iovec := [⟨hdr, len.toNat⟩]
    match fetchHeader arch s.sys.world.user iv (ioDevIovTotal arch iv) env with
    | .error _ => none
    | .ok kept =>
      if ValidBuffers arch iv kept then
        (s.sys.step arch (.readEnter iv (ioDevIovTotal arch iv) env)).map fun t =>
          { s with sys := t, caller := .reading }
      else none
  | _ => none

/-- A step of the caller inside io_read_to_iovec. -/
def readStep (arch : Arch) (s : ReadySys) (a : Action) : Option ReadySys :=
  if s.caller = .reading then (s.sys.step arch a).map fun t => { s with sys := t } else none

/-- The end of the read system call and of kvnet_read. -/
def readReport (arch : Arch) (s : ReadySys) (errno : UInt32) : Option ReadySys :=
  match s.caller, s.sys.readers with
  | .reading, r :: _ =>
    (s.sys.step arch (.readReport 0 none)).map fun t =>
      let ret := (reportCount arch s.sys.world r.iv r.ret none).ret
      { s with sys := t, reads := s.reads ++ [(r.i, ret)] }.returns errno
        (if ret < 0 then KVNET_READ_ERROR else KVNET_NO_ERROR)
  | _, _ => none

def step (arch : Arch) (s : ReadySys) : ReadyAction → Option ReadySys
  | .driver a =>
    if a.ofOthers then
      (s.sys.step arch a).map fun t => { s with sys := t, flushed := s.flushedAfter t a }
    else none
  | .kvnetRead hdr len errno => s.kvnetRead arch hdr len errno
  | .poll errno => s.pollStep arch errno
  | .signal => s.signal arch
  | .readEnter env => s.readEnter arch env
  | .readRemove => s.readStep arch (.readRemove 0)
  | .readFill => s.readStep arch (.readFill 0 none)
  | .readFree => s.readStep arch (.readFree 0)
  | .readReport errno => s.readReport arch errno

/-- The driver after vnet_init, before the first call of kvnet_read. -/
structure Fresh (s : ReadySys) : Prop where
  sys : s.sys.Fresh
  caller : s.caller = .outside
  reads : s.reads = []
  statuses : s.statuses = []

/-- Every io_read_to_iovec that has left its loop has delivered a packet and does
not return -EAGAIN, and no kvnet_read has returned KVNET_READ_ERROR. -/
structure Truthful (s : ReadySys) : Prop where
  leaving : ∀ r ∈ s.sys.readers, r.pc = .report → 1 ≤ r.i ∧ r.ret ≠ -EAGAIN
  reads : ∀ x ∈ s.reads, 1 ≤ x.1 ∧ x.2 ≠ -EAGAIN
  statuses : ∀ status ∈ s.statuses, kvnetStatus status ≠ KVNET_READ_ERROR

/-- The first queue_remove of a read does not find that the queue was flushed
since its test by io_dev_poll. -/
def Unflushed (s : ReadySys) : ReadyAction → Prop
  | .readRemove => ∀ r ∈ s.sys.readers, r.i = 0 → s.flushed = false
  | _ => True

instance (s : ReadySys) (a : ReadyAction) : Decidable (s.Unflushed a) :=
  match a with
  | .readRemove => inferInstanceAs (Decidable (∀ r ∈ s.sys.readers, r.i = 0 → s.flushed = false))
  | .driver _ | .kvnetRead _ _ _ | .poll _ | .signal | .readEnter _ | .readFill | .readFree
  | .readReport _ => isTrue trivial

/-- `flushed` tells whether the queue is empty. -/
def Window (s : ReadySys) (xs : List Addr) : Prop := s.flushed = true ↔ xs = []

end ReadySys

/-- What the caller's loop has counted. -/
structure Reader.Counts (arch : Arch) (r : Reader) : Prop where
  ret : r.ret = r.i ∨ r.pc = .report ∧ r.i = 0
  upTo : r.i ≤ r.hdr.count.toNat
  left : r.pc ≠ .report → r.i + r.todo = r.hdr.count.toNat ∧ 0 < r.todo
  filled : ∀ skb failed, r.pc = .free skb failed → failed = 0
  fits : exactHeaderLen arch r.hdr.count.toNat < 2 ^ 31

/-- What the driver holds of the caller, and where the window is open: from a
test of the queue that reports POLLIN to the first queue_remove. -/
def Caller.Place (arch : Arch) (sys : Sys) (window : Prop) : Caller → Prop
  | .outside => sys.pollers = [] ∧ sys.readers = []
  | .polling _ _ => sys.readers = [] ∧ ∃ p, sys.pollers = [p] ∧
      ∀ mask, p.pc = .tested mask → mask &&& POLLIN ≠ 0 → window
  | .ready _ _ => sys.pollers = [] ∧ sys.readers = [] ∧ window
  | .reading => sys.pollers = [] ∧ ∃ r, sys.readers = [r] ∧ r.Counts arch ∧
      (r.pc = .remove → r.i = 0 → window)

theorem Caller.Place.others {arch : Arch} {sys sys' : Sys} {window window' : Prop} {c : Caller}
    (h : c.Place arch sys window) (readers : sys'.readers = sys.readers)
    (pollers : sys'.pollers = sys.pollers ∨ sys'.pollers = sys.pollers.map Poller.wake)
    (kept : window → window') : c.Place arch sys' window' := by
  have none_polls (none_before : sys.pollers = []) : sys'.pollers = [] := by
    rcases pollers with same | woken
    · rw [same, none_before]
    · rw [woken, none_before]
      rfl
  cases c with
  | outside => exact ⟨none_polls h.1, readers.trans h.2⟩
  | polling hdr len =>
    obtain ⟨none_reads, p, one, open_⟩ := h
    refine ⟨readers.trans none_reads, ?_⟩
    rcases pollers with same | woken
    · exact ⟨p, same.trans one, fun mask pc readable => kept (open_ mask pc readable)⟩
    · refine ⟨p.wake, by rw [woken, one]; rfl, fun mask pc readable => ?_⟩
      rw [Poller.wake_pc] at pc
      exact kept (open_ mask pc readable)
  | ready hdr len => exact ⟨none_polls h.1, readers.trans h.2.1, kept h.2.2⟩
  | reading =>
    obtain ⟨none_poll, r, one, counts, open_⟩ := h
    exact ⟨none_polls none_poll, r, readers.trans one, counts,
      fun pc first => kept (open_ pc first)⟩

namespace ReadySys

/-- What a step of another thread does to the queue: nothing, add a buffer to it,
or flush it. -/
inductive Traffic (s t : Sys) (a : Action) : Prop where
  | keeps (other : a ≠ .closeFlush) (accepted : t.accepted = s.accepted)
      (removed : t.removed = s.removed)
  | accepts (other : a ≠ .closeFlush) (skb : Addr) (accepted : t.accepted = s.accepted ++ [skb])
      (removed : t.removed = s.removed)
  | flushes (w : World) (ha : a = .closeFlush)
      (flushed : netDevFlushTxQueue s.fuel s.world = some w) (mem : t.world.mem = w.mem)
      (queue : t.world.queue = w.queue)

/-- The caller's reader is left alone, and its poller but for a wake-up. -/
theorem others_step {arch : Arch} {s t : Sys} {a : Action} (others : a.ofOthers = true)
    (step : s.step arch a = some t) : t.readers = s.readers ∧
      (t.pollers = s.pollers ∨ t.pollers = s.pollers.map Poller.wake) ∧ Traffic s t a := by
  cases a with
  | readEnter | readRemove | readFill | readFree | readReport | pollEnter | poll | pollSignal =>
    cases others
  | sendEnter skb =>
    obtain ⟨_, rfl⟩ := Sys.sendEnter_inv step
    exact ⟨rfl, Or.inl rfl, .keeps nofun rfl rfl⟩
  | sendSection k txQueueLen =>
    obtain ⟨skb, _, ⟨_, rfl⟩ | ⟨_, rfl⟩⟩ := Sys.sendSection_inv step
    · exact ⟨rfl, Or.inl rfl, .keeps nofun rfl rfl⟩
    · exact ⟨rfl, Or.inl rfl, .accepts nofun skb rfl rfl⟩
  | sendWakeup k =>
    obtain ⟨_, rfl⟩ := Sys.sendWakeup_inv step
    exact ⟨rfl, Or.inr rfl, .keeps nofun rfl rfl⟩
  | netDevOpen =>
    obtain ⟨_, rfl⟩ := Sys.netDevOpen_inv step
    exact ⟨rfl, Or.inl rfl, .keeps nofun rfl rfl⟩
  | closeDisable =>
    obtain ⟨_, rfl⟩ := Sys.closeDisable_inv step
    exact ⟨rfl, Or.inl rfl, .keeps nofun rfl rfl⟩
  | closeFlush =>
    obtain ⟨_, w, flushed, rfl⟩ := Sys.closeFlush_inv step
    exact ⟨rfl, Or.inl rfl, .flushes w rfl flushed rfl rfl⟩
  | cancelSet =>
    obtain rfl := Option.some.inj step
    exact ⟨rfl, Or.inl rfl, .keeps nofun rfl rfl⟩
  | cancelWakeup =>
    obtain ⟨_, rfl⟩ := Sys.cancelWakeup_inv step
    exact ⟨rfl, Or.inr rfl, .keeps nofun rfl rfl⟩
  | userStore user =>
    obtain rfl := Option.some.inj step
    exact ⟨rfl, Or.inl rfl, .keeps nofun rfl rfl⟩

section Steps

variable {arch : Arch} {s t : ReadySys} {xs ys : List Addr} {live live' : Addr → Bool}

/-- Other threads keep the window. -/
theorem others_window {a : Action} {u : Sys} (owned : Owned s.sys xs live)
    (owned' : Owned u ys live') (traffic : Traffic s.sys u a) (window : s.Window xs) :
    Window { s with sys := u, flushed := s.flushedAfter u a } ys := by
  cases traffic with
  | keeps other accepted removed =>
    have after : s.flushedAfter u a = s.flushed := by
      cases a <;> first | exact absurd rfl other | simp [flushedAfter, accepted]
    rw [Window, after, owned.keeps owned' accepted removed]
    exact window
  | accepts other skb accepted removed =>
    have after : s.flushedAfter u a = false := by
      cases a <;> first | exact absurd rfl other | simp [flushedAfter, accepted]
    have order : s.sys.removed ++ (xs ++ [skb]) = s.sys.removed ++ ys := by
      rw [← List.append_assoc, ← owned.order, ← accepted, owned'.order, removed]
    rw [Window, after, ← List.append_cancel_left order]
    simp
  | flushes w ha flushed mem queue =>
    subst ha
    rw [Window, owned.flushes owned' flushed mem queue]
    exact iff_of_true rfl rfl

theorem others_place {a : Action} (owned : Owned s.sys xs live) (owned' : Owned t.sys ys live')
    (place : s.caller.Place arch s.sys (s.Window xs))
    (step : s.step arch (.driver a) = some t) : t.caller.Place arch t.sys (t.Window ys) := by
  simp only [ReadySys.step, Option.ite_none_right_eq_some] at step
  obtain ⟨u, moved, rfl⟩ := Option.map_eq_some_iff.mp step.2
  obtain ⟨readers, pollers, traffic⟩ := others_step step.1 moved
  exact place.others readers pollers (others_window owned owned' traffic)

/-- A step of the caller's poll, by where its poller is. -/
theorem pollStep_inv {errno : UInt32} (h : s.pollStep arch errno = some t) :
    ∃ hdr len p pollers u, s.caller = .polling hdr len ∧ s.sys.pollers = p :: pollers ∧
      s.sys.step arch (.poll 0) = some u ∧
      (p.pc = .testQueue ∧ t = { s with sys := u, flushed := false } ∨
        (∃ mask, p.pc = .tested mask ∧ p.returns = true ∧
          t = { s with sys := u }.polled errno hdr len mask) ∨
        p.pc ≠ .testQueue ∧ p.returns = false ∧ t = { s with sys := u }) := by
  cases caller : s.caller with
  | outside | ready hdr len | reading => simp only [pollStep, caller, reduceCtorEq] at h
  | polling hdr len =>
    cases pollers : s.sys.pollers with
    | nil => simp only [pollStep, caller, pollers, reduceCtorEq] at h
    | cons p rest =>
      simp only [pollStep, caller, pollers] at h
      obtain ⟨u, moved, ht⟩ := Option.map_eq_some_iff.mp h
      refine ⟨hdr, len, p, rest, u, rfl, rfl, moved, ?_⟩
      cases pc : p.pc with
      | testQueue =>
        simp only [pc] at ht
        exact Or.inl ⟨rfl, ht.symm⟩
      | tested mask =>
        simp only [pc] at ht
        by_cases done : p.returns = true
        · rw [if_pos done] at ht
          exact Or.inr (Or.inl ⟨mask, rfl, done, ht.symm⟩)
        · rw [if_neg done] at ht
          refine Or.inr (Or.inr ⟨?_, Bool.eq_false_of_not_eq_true done, ht.symm⟩)
          intro same
          cases same
      | testCanceled | pollWait | asleep =>
        simp only [pc] at ht
        have stays : p.returns = false := by rw [Poller.returns, pc]
        refine Or.inr (Or.inr ⟨?_, stays, ht.symm⟩)
        intro same
        cases same

/-- The mask of a test reports POLLIN exactly when the queue is not empty. -/
theorem queueMask_readable {m : SkbMem} {q : Queue} (rep : Represents m q xs)
    (fits : xs.length < 2 ^ 32) : queueMask q &&& POLLIN ≠ 0 ↔ xs ≠ [] := by
  have size := rep.size_eq_zero_iff fits
  by_cases empty : xs = []
  · have nothing : queueMask q = POLLOUT ||| POLLWRNORM := by
      simp [queueMask, queueIsEmpty, __queueIsEmpty, size.mpr empty]
    rw [nothing]
    exact iff_of_false (by decide) (not_not.mpr empty)
  · have something : queueMask q = POLLOUT ||| POLLWRNORM ||| (POLLIN ||| POLLRDNORM) := by
      simp [queueMask, queueIsEmpty, __queueIsEmpty, mt size.mp empty]
    rw [something]
    exact iff_of_true (by decide) empty

/-- Where kvnet_read is once its poll has returned. -/
theorem polled_place {errno : UInt32} {hdr : Addr} {len : UInt32} {mask : Nat}
    (pollers : s.sys.pollers = []) (readers : s.sys.readers = [])
    (window : mask &&& POLLIN ≠ 0 → s.Window xs) :
    (s.polled errno hdr len mask).caller.Place arch (s.polled errno hdr len mask).sys
      ((s.polled errno hdr len mask).Window xs) := by
  unfold polled
  split
  · exact ⟨pollers, readers⟩
  split
  · rename_i readable
    have asked : mask &&& requestedMask &&& POLLIN = mask &&& POLLIN := by
      rw [Nat.and_assoc]
      rfl
    rw [asked] at readable
    exact ⟨pollers, readers, window readable⟩
  · exact ⟨pollers, readers⟩

theorem polled_sys (errno : UInt32) (hdr : Addr) (len : UInt32) (mask : Nat) :
    (s.polled errno hdr len mask).sys = s.sys := by
  unfold polled
  split
  · rfl
  split
  · rfl
  · rfl

/-- Only its test of the queue puts a readable mask into a poller. -/
theorem next_unreadable {w : World} {p : Poller} (pc : p.pc ≠ .testQueue) {mask : Nat}
    (tested : (p.next w).pc = .tested mask) : mask &&& POLLIN = 0 := by
  generalize hq : p.next w = q at tested
  cases hq ▸ p.next_step w with
  | canceled _ _ =>
    obtain rfl := PollPc.tested.inj tested
    rfl
  | uncanceled _ _ | waits _ | again _ _ | asleep _ _ => cases tested
  | tests here => exact absurd here pc

theorem poll_place {errno : UInt32} (owned : Owned s.sys xs live) (fits : xs.length < 2 ^ 32)
    (owned' : Owned t.sys ys live') (place : s.caller.Place arch s.sys (s.Window xs))
    (step : s.pollStep arch errno = some t) : t.caller.Place arch t.sys (t.Window ys) := by
  obtain ⟨hdr, len, p, rest, u, caller, pollers, moved, outcome⟩ := pollStep_inv step
  rw [caller] at place
  obtain ⟨readers, q, one, open_⟩ := place
  obtain ⟨rfl, rfl⟩ : p = q ∧ rest = [] := by
    rw [pollers] at one
    exact List.cons.inj one
  obtain ⟨q, found, awake, moves⟩ := Sys.pollStep_inv moved
  obtain rfl := Pool.only_found pollers found
  rcases outcome with ⟨pc, rfl⟩ | ⟨mask, pc, done, rfl⟩ | ⟨pc, stays, rfl⟩
  · rcases moves with ⟨done, _⟩ | ⟨_, rfl⟩
    · rw [Poller.returns, pc] at done
      cases done
    obtain rfl : ys = xs := owned.keeps owned' rfl rfl
    have next : p.next s.sys.world = { p with pc := .tested (queueMask s.sys.world.queue) } := by
      rw [Poller.next, pc]
    rw [caller]
    refine ⟨readers, p.next s.sys.world, by rw [pollers]; rfl, fun mask tested readable => ?_⟩
    rw [next] at tested
    obtain rfl := PollPc.tested.inj tested
    have nonempty := (queueMask_readable owned.represents fits).mp readable
    exact iff_of_false Bool.false_ne_true nonempty
  · rcases moves with ⟨_, rfl⟩ | ⟨stays, _⟩
    · rw [polled_sys] at owned'
      obtain rfl : ys = xs := owned.keeps owned' rfl rfl
      exact polled_place (by rw [pollers]; rfl) readers (open_ mask pc)
    · rw [done] at stays
      cases stays
  · rcases moves with ⟨done, _⟩ | ⟨_, rfl⟩
    · rw [stays] at done
      cases done
    rw [caller]
    refine ⟨readers, p.next s.sys.world, by rw [pollers]; rfl, fun mask tested readable => ?_⟩
    exact absurd (next_unreadable pc tested) readable

end Steps

end ReadySys

/-- A header is fetched only for a length that is not negative as an int. -/
theorem fetchHeader_served {arch : Arch} {user : UserMem} {iv : List Iovec} {len : Int}
    {env : HeaderEnv} {hdr : KvnetHeader} (h : fetchHeader arch user iv len env = .ok hdr) :
    0 ≤ toCInt len := by
  by_contra negative
  have refused : allocPagedMem (toCInt len) env.memory = false := by
    simp [allocPagedMem, negative]
  simp only [fetchHeader, if_pos refused] at h
  split at h
  · cases h
  · cases h

/-- Valid buffers are shorter than 2^31 bytes. -/
theorem ValidBuffers.fits {arch : Arch} {user : UserMem} {hdr : Addr} {len : UInt32}
    {env : HeaderEnv} {kept : KvnetHeader} (valid : ValidBuffers arch [⟨hdr, len.toNat⟩] kept)
    (accepted : fetchHeader arch user [⟨hdr, len.toNat⟩]
      (ioDevIovTotal arch [⟨hdr, len.toNat⟩]) env = .ok kept) :
    exactHeaderLen arch kept.count.toNat < 2 ^ 31 := by
  obtain ⟨nonneg, slots⟩ := valid
  have served := fetchHeader_served accepted
  have positive := count_pos (fetchHeader_ok accepted).1
  have last := slots (kept.count.toNat - 1) (by omega)
  rw [SlotInside, Nat.sub_add_cancel positive] at last
  have word : len.toNat < 2 ^ 32 := len.toNat_lt
  rw [ioDevIovTotal_single] at nonneg served last
  rcases arch.toSsizeT_count word with kept_len | negative
  · rw [kept_len] at served last
    simp only [toCInt] at served
    rw [exactHeaderLen]
    omega
  · omega

/-- A reader that has just passed the header checks. -/
theorem entered_counts {arch : Arch} {hdr : KvnetHeader} (iv : List Iovec)
    (nonzero : hdr.count ≠ 0) (fits : exactHeaderLen arch hdr.count.toNat < 2 ^ 31) :
    Reader.Counts arch ⟨iv, hdr, hdr.count.toNat, 0, 0, .remove⟩ where
  ret := Or.inl rfl
  upTo := Nat.zero_le _
  left := fun _ => ⟨Nat.zero_add _, count_pos nonzero⟩
  filled := nofun
  fits := fits

namespace Reader.Counts

variable {arch : Arch} {r : Reader}

/-- The packets of one read can be counted in an int. -/
theorem small (h : r.Counts arch) (pointers : 0 < arch.ptrSize) :
    r.hdr.count.toNat < 2 ^ 31 - 1 := by
  have fits := h.fits
  have scaled : r.hdr.count.toNat * 1 ≤ r.hdr.count.toNat * arch.ptrSize :=
    Nat.mul_le_mul_left _ pointers
  rw [exactHeaderLen] at fits
  omega

theorem counted (h : r.Counts arch) (inside : r.pc ≠ .report) : r.ret = r.i := by
  rcases h.ret with same | ⟨done, _⟩
  · exact same
  · exact absurd done inside

/-- The loop ends on an empty queue. -/
theorem ended (h : r.Counts arch) (ret : Int) (kept : r.i ≠ 0 → ret = r.i) :
    ({ r with ret := ret, pc := .report } : Reader).Counts arch where
  ret := by
    by_cases first : r.i = 0
    · exact Or.inr ⟨rfl, first⟩
    · exact Or.inl (kept first)
  upTo := h.upTo
  left := nofun
  filled := nofun
  fits := h.fits

theorem filling (h : r.Counts arch) (pc : r.pc = .remove) (skb : Addr) :
    ({ r with pc := .fill skb } : Reader).Counts arch where
  ret := Or.inl (h.counted (by rw [pc]; nofun))
  upTo := h.upTo
  left := fun _ => h.left (by rw [pc]; nofun)
  filled := nofun
  fits := h.fits

theorem freeing (h : r.Counts arch) {skb : Addr} (pc : r.pc = .fill skb) :
    ({ r with pc := .free skb 0 } : Reader).Counts arch where
  ret := Or.inl (h.counted (by rw [pc]; nofun))
  upTo := h.upTo
  left := fun _ => h.left (by rw [pc]; nofun)
  filled := by
    intro _ failed same
    exact (ReadPc.free.inj same).2.symm
  fits := h.fits

/-- One more packet is delivered. -/
theorem advanced (h : r.Counts arch) (pointers : 0 < arch.ptrSize) {skb : Addr}
    (pc : r.pc = .free skb 0) : (r.advance arch).Counts arch ∧ (r.advance arch).ret = r.i + 1 := by
  have inside : r.pc ≠ .report := by
    rw [pc]
    nofun
  obtain ⟨left, more⟩ := h.left inside
  have small := h.small pointers
  have half := arch.two_pow_wordBits.2
  have ret : (r.advance arch).ret = r.i + 1 := by
    rw [Reader.advance, h.counted inside]
    exact arch.toSsizeT_of_lt (by omega) (by omega)
  refine ⟨⟨Or.inl ?_, ?_, fun going => ?_, ?_, h.fits⟩, ret⟩
  · rw [ret]
    rfl
  · simp only [Reader.advance]
    omega
  · simp only [Reader.advance] at going ⊢
    by_cases last : r.todo - 1 = 0
    · rw [if_pos last] at going
      exact absurd rfl going
    · omega
  · intro _ failed same
    simp only [Reader.advance] at same
    split at same
    · cases same
    · cases same

end Reader.Counts

namespace ReadySys

section Truth

variable {arch : Arch} {s t : ReadySys} {xs ys : List Addr} {live live' : Addr → Bool}

/-- Only a read that leaves its loop, and a return of kvnet_read, count. -/
theorem Truthful.still (h : s.Truthful)
    (leaving : ∀ r ∈ t.sys.readers, r.pc = .report → 1 ≤ r.i ∧ r.ret ≠ -EAGAIN)
    (reads : t.reads = s.reads) (statuses : t.statuses = s.statuses) : t.Truthful :=
  ⟨leaving, by rw [reads]; exact h.reads, by rw [statuses]; exact h.statuses⟩

theorem Truthful.returns (h : s.Truthful) (errno : UInt32) {status : UInt32}
    (other : status &&& lowHalf ≠ KVNET_READ_ERROR) : (s.returns errno status).Truthful := by
  refine ⟨h.leaving, h.reads, fun known hknown => ?_⟩
  rcases List.mem_append.mp hknown with before | last
  · exact h.statuses known before
  · obtain rfl := List.mem_singleton.mp last
    rwa [kvnetStatus_make]

theorem Truthful.polled (h : s.Truthful) (errno : UInt32) (hdr : Addr) (len : UInt32)
    (mask : Nat) : (s.polled errno hdr len mask).Truthful := by
  unfold ReadySys.polled
  split
  · exact h.returns errno (by decide)
  split
  · exact h.still h.leaving rfl rfl
  · exact h.returns errno (by decide)

theorem others_truthful {a : Action} (h : s.Truthful) (step : s.step arch (.driver a) = some t) :
    t.Truthful := by
  simp only [ReadySys.step, Option.ite_none_right_eq_some] at step
  obtain ⟨u, moved, rfl⟩ := Option.map_eq_some_iff.mp step.2
  refine h.still ?_ rfl rfl
  rw [(others_step step.1 moved).1]
  exact h.leaving

theorem poll_truthful {errno : UInt32} (h : s.Truthful) (step : s.pollStep arch errno = some t) :
    t.Truthful := by
  obtain ⟨hdr, len, p, rest, u, _, _, moved, outcome⟩ := pollStep_inv step
  have readers : u.readers = s.sys.readers := by
    obtain ⟨_, _, _, ⟨_, rfl⟩ | ⟨_, rfl⟩⟩ := Sys.pollStep_inv moved
    · rfl
    · rfl
  have moved' : ({ s with sys := u } : ReadySys).Truthful := by
    refine h.still ?_ rfl rfl
    rw [readers]
    exact h.leaving
  rcases outcome with ⟨_, rfl⟩ | ⟨mask, _, _, rfl⟩ | ⟨_, _, rfl⟩
  · exact moved'.still moved'.leaving rfl rfl
  · exact moved'.polled errno hdr len mask
  · exact moved'

/-- After EINTR the caller's poll starts over. -/
theorem signal_step (place : s.caller.Place arch s.sys (s.Window xs))
    (step : s.signal arch = some t) :
    t.caller.Place arch t.sys (t.Window ys) ∧ (s.Truthful → t.Truthful) := by
  cases caller : s.caller with
  | outside | ready hdr len | reading => simp only [signal, caller, reduceCtorEq] at step
  | polling hdr len =>
    simp only [signal, caller] at step
    obtain ⟨u, moved, rfl⟩ := Option.map_eq_some_iff.mp step
    obtain ⟨v, left, entered⟩ := Execution.run_cons_some moved
    obtain rfl := Sys.pollSignal_inv left
    obtain rfl := Option.some.inj entered
    rw [caller] at place
    obtain ⟨readers, p, one, _⟩ := place
    refine ⟨⟨readers, ⟨.testCanceled, false, false⟩, ?_, nofun⟩, fun h => h.still h.leaving rfl rfl⟩
    simp only [one, List.eraseIdx_zero, List.tail_cons, List.nil_append]

theorem kvnetRead_step {hdr : Addr} {len errno : UInt32}
    (place : s.caller.Place arch s.sys (s.Window xs))
    (step : s.kvnetRead arch hdr len errno = some t) :
    t.caller.Place arch t.sys (t.Window ys) ∧ (s.Truthful → t.Truthful) := by
  simp only [kvnetRead, Option.ite_none_left_eq_some, not_not] at step
  obtain ⟨caller, step⟩ := step
  rw [caller] at place
  obtain ⟨pollers, readers⟩ := place
  split at step
  · obtain rfl := Option.some.inj step
    exact ⟨⟨pollers, readers⟩, fun h => h.returns errno (by decide)⟩
  · obtain ⟨u, entered, rfl⟩ := Option.map_eq_some_iff.mp step
    obtain rfl := Option.some.inj entered
    refine ⟨⟨readers, ⟨.testCanceled, false, false⟩, ?_, nofun⟩, fun h => h.still h.leaving rfl rfl⟩
    simp only [pollers, List.nil_append]

theorem readEnter_step {env : HeaderEnv} (owned : Owned s.sys xs live)
    (owned' : Owned t.sys ys live') (place : s.caller.Place arch s.sys (s.Window xs))
    (step : s.readEnter arch env = some t) :
    t.caller.Place arch t.sys (t.Window ys) ∧ (s.Truthful → t.Truthful) := by
  cases caller : s.caller with
  | outside | polling hdr len | reading => simp only [readEnter, caller, reduceCtorEq] at step
  | ready hdr len =>
    rw [caller] at place
    obtain ⟨pollers, readers, window⟩ := place
    simp only [readEnter, caller] at step
    split at step
    · cases step
    rename_i kept accepted
    simp only [Option.ite_none_right_eq_some] at step
    obtain ⟨valid, step⟩ := step
    obtain ⟨u, entered, rfl⟩ := Option.map_eq_some_iff.mp step
    obtain rfl := Option.some.inj entered
    have fits := valid.fits accepted
    have nonzero := (fetchHeader_ok accepted).1
    have one : s.sys.readEnter arch [⟨hdr, len.toNat⟩] (ioDevIovTotal arch [⟨hdr, len.toNat⟩]) env =
        { s.sys with
          readers := [⟨[⟨hdr, len.toNat⟩], kept, kept.count.toNat, 0, 0, .remove⟩] } := by
      simp only [Sys.readEnter, accepted, readers, List.nil_append]
    simp only [one] at owned' ⊢
    obtain rfl : ys = xs := owned.keeps owned' rfl rfl
    refine ⟨⟨pollers, _, rfl, entered_counts _ nonzero fits, fun _ _ => window⟩, fun h => ?_⟩
    refine h.still (fun r hr pc => ?_) rfl rfl
    obtain rfl := List.mem_singleton.mp hr
    cases pc

/-- A step inside io_read_to_iovec finds the caller's reader. -/
theorem reading_inv {a : Action} (place : s.caller.Place arch s.sys (s.Window xs))
    (step : s.readStep arch a = some t) : ∃ r u, s.caller = .reading ∧ s.sys.pollers = [] ∧
      s.sys.readers = [r] ∧ r.Counts arch ∧ (r.pc = .remove → r.i = 0 → s.Window xs) ∧
      s.sys.step arch a = some u ∧ t = { s with sys := u } := by
  simp only [readStep, Option.ite_none_right_eq_some] at step
  obtain ⟨caller, step⟩ := step
  obtain ⟨u, moved, rfl⟩ := Option.map_eq_some_iff.mp step
  rw [caller] at place
  obtain ⟨pollers, r, one, counts, window⟩ := place
  exact ⟨r, u, caller, pollers, one, counts, window, moved, rfl⟩

/-- The first queue_remove finds a packet exactly when the queue was not flushed. -/
theorem readRemove_step (owned : Owned s.sys xs live)
    (place : s.caller.Place arch s.sys (s.Window xs))
    (step : s.readStep arch (.readRemove 0) = some t) :
    t.caller.Place arch t.sys (t.Window ys) ∧
      (s.Truthful → (t.Truthful ↔ s.Unflushed .readRemove)) := by
  obtain ⟨r, u, caller, pollers, one, counts, window, moved, rfl⟩ := reading_inv place step
  obtain ⟨r', found, pc, outcome⟩ := Sys.readRemove_inv moved
  obtain rfl := Pool.only_found one found
  have guard : s.Unflushed .readRemove ↔ (r.i = 0 → s.flushed = false) := by
    rw [Unflushed, one]
    simp only [List.mem_singleton, forall_eq]
  have inside : r.pc ≠ .report := by
    rw [pc]
    intro same
    cases same
  have ret := counts.counted inside
  rcases outcome with ⟨empty, rfl⟩ | ⟨nonempty, rfl⟩
  · have drained : xs = [] := (queueRemove_null_iff owned.represents).mp empty
    have counted : r.i ≠ 0 → readEmpty r.ret = r.i := by
      intro later
      have nonzero : r.ret ≠ 0 := by
        rw [ret]
        omega
      rw [readEmpty, if_neg nonzero, ret]
    have ended : ({ r with ret := readEmpty r.ret, pc := .report } : Reader).Counts arch :=
      counts.ended _ counted
    constructor
    · rw [caller]
      exact ⟨pollers, _, by rw [one]; rfl, ended, fun same => by cases same⟩
    · intro h
      rw [guard]
      constructor
      · intro truthful first
        have leaving := truthful.leaving { r with ret := readEmpty r.ret, pc := .report }
          (by simp [one]) rfl
        have delivered : 1 ≤ r.i := leaving.1
        omega
      · intro unflushed
        refine h.still (fun q hq _ => ?_) rfl rfl
        obtain rfl : q = { r with ret := readEmpty r.ret, pc := .report } := by
          simpa [one] using hq
        have later : r.i ≠ 0 := by
          intro first
          have flushed := (window pc first).mpr drained
          rw [unflushed first] at flushed
          cases flushed
        refine ⟨Nat.pos_of_ne_zero later, ?_⟩
        change readEmpty r.ret ≠ -EAGAIN
        rw [counted later, EAGAIN]
        omega
  · have some_queued : xs ≠ [] := mt (queueRemove_null_iff owned.represents).mpr nonempty
    refine ⟨?_, fun h => iff_of_true ?_ ?_⟩
    · rw [caller]
      exact ⟨pollers, _, by rw [one]; rfl, counts.filling pc _, fun same => by cases same⟩
    · refine h.still (fun q hq done => ?_) rfl rfl
      obtain rfl : q = { r with pc := .fill s.sys.world.queueRemove.1 } := by
        simpa [one] using hq
      cases done
    · rw [guard]
      intro first
      by_contra flushed
      exact some_queued ((window pc first).mp (Bool.eq_true_of_not_eq_false flushed))

theorem readFill_step (place : s.caller.Place arch s.sys (s.Window xs))
    (step : s.readStep arch (.readFill 0 none) = some t) :
    t.caller.Place arch t.sys (t.Window ys) ∧ (s.Truthful → t.Truthful) := by
  obtain ⟨r, u, caller, pollers, one, counts, _, moved, rfl⟩ := reading_inv place step
  have moved' : s.sys.readFill 0 none = some u := moved
  obtain ⟨r', skb, found, pc, rfl⟩ := Sys.readFill_inv moved'
  obtain rfl := Pool.only_found one found
  have filled := (fill_ok s.sys.world (r.hdr.pkt r.i) skb).1
  constructor
  · rw [caller]
    refine ⟨pollers, { r with pc := .free skb 0 }, ?_, counts.freeing pc, nofun⟩
    rw [one, filled]
    rfl
  · intro h
    refine h.still (fun q hq done => ?_) rfl rfl
    obtain rfl : q = { r with pc := .free skb 0 } := by
      simpa [one, filled] using hq
    cases done

/-- The packet is delivered, whether or not it was the last. -/
theorem readFree_step (pointers : 0 < arch.ptrSize)
    (place : s.caller.Place arch s.sys (s.Window xs))
    (step : s.readStep arch (.readFree 0) = some t) :
    t.caller.Place arch t.sys (t.Window ys) ∧ (s.Truthful → t.Truthful) := by
  obtain ⟨r, u, caller, pollers, one, counts, _, moved, rfl⟩ := reading_inv place step
  obtain ⟨r', _, skb, failed, found, pc, _, _⟩ := Sys.readFree_inv moved
  obtain rfl := Pool.only_found one found
  obtain rfl := counts.filled skb failed pc
  have freed : s.sys.readFree arch 0 = some { s.sys with
      world := s.sys.world.withMem (s.sys.world.mem.kfreeSkb skb)
      readers := [r.advance arch] } := by
    simp [Sys.readFree, one, pc]
  obtain rfl := Option.some.inj (freed.symm.trans moved)
  obtain ⟨counts', ret⟩ := counts.advanced pointers pc
  constructor
  · rw [caller]
    exact ⟨pollers, _, rfl, counts', fun _ first => absurd first (Nat.succ_ne_zero r.i)⟩
  · intro h
    refine h.still (fun q hq _ => ?_) rfl rfl
    obtain rfl := List.mem_singleton.mp hq
    refine ⟨Nat.succ_pos r.i, ?_⟩
    rw [ret, EAGAIN]
    omega

/-- A read that has delivered a packet returns a positive length. -/
theorem report_positive (pointers : 0 < arch.ptrSize) {r : Reader} (counts : r.Counts arch)
    (delivered : 1 ≤ r.i) (w : World) : 0 < (reportCount arch w r.iv r.ret none).ret := by
  have small := counts.small pointers
  have upTo := counts.upTo
  have half := arch.two_pow_wordBits.2
  have kept : arch.toSsizeT r.i = r.i := arch.toSsizeT_of_lt (by omega) (by omega)
  have ret : r.ret = arch.toSsizeT r.i := by
    rcases counts.ret with same | ⟨_, first⟩
    · rw [kept, same]
    · omega
  have smaller : exactHeaderLen arch r.i ≤ exactHeaderLen arch r.hdr.count.toNat :=
    Nat.add_le_add_left (Nat.mul_le_mul_right _ upTo) 4
  have fits := counts.fits
  rw [ret, reportCount_length delivered (by omega) kept (by omega), exactHeaderLen]
  omega

theorem readReport_step (pointers : 0 < arch.ptrSize) {errno : UInt32}
    (place : s.caller.Place arch s.sys (s.Window xs))
    (step : s.readReport arch errno = some t) :
    t.caller.Place arch t.sys (t.Window ys) ∧ (s.Truthful → t.Truthful) := by
  cases caller : s.caller with
  | outside | polling hdr len | ready hdr len =>
    simp only [readReport, caller, reduceCtorEq] at step
  | reading =>
    rw [caller] at place
    obtain ⟨pollers, r, one, counts, _⟩ := place
    simp only [readReport, caller, one] at step
    obtain ⟨u, moved, rfl⟩ := Option.map_eq_some_iff.mp step
    obtain ⟨r', found, pc, rfl⟩ := Sys.readReport_inv moved
    obtain rfl := Pool.only_found one found
    have none_left : s.sys.readers.eraseIdx 0 = [] := by
      rw [one]
      rfl
    refine ⟨⟨pollers, none_left⟩, fun h => ?_⟩
    obtain ⟨delivered, _⟩ := h.leaving r (by rw [one]; exact List.mem_singleton.mpr rfl) pc
    have positive := report_positive pointers counts delivered s.sys.world
    have ok : ¬ (reportCount arch s.sys.world r.iv r.ret none).ret < 0 := by omega
    have other : KVNET_NO_ERROR &&& lowHalf ≠ KVNET_READ_ERROR := by decide
    rw [if_neg ok]
    refine Truthful.returns ?_ errno other
    refine ⟨fun q hq => ?_, fun x hx => ?_, h.statuses⟩
    · rw [none_left] at hq
      cases hq
    · rcases List.mem_append.mp hx with before | last
      · exact h.reads x before
      · obtain rfl := List.mem_singleton.mp last
        refine ⟨delivered, ?_⟩
        rw [EAGAIN]
        omega

/-- What the caller does are steps of the driver's threads. -/
theorem step_runs {a : ReadyAction} (step : s.step arch a = some t) :
    ∃ actions, Execution.run (Sys.step arch) s.sys actions = some t.sys := by
  have once {b : Action} {u : Sys} (moved : s.sys.step arch b = some u) :
      ∃ actions, Execution.run (Sys.step arch) s.sys actions = some u :=
    ⟨[b], Execution.run_cons moved []⟩
  have inside {b : Action} (step : s.readStep arch b = some t) :
      ∃ actions, Execution.run (Sys.step arch) s.sys actions = some t.sys := by
    simp only [readStep, Option.ite_none_right_eq_some] at step
    obtain ⟨u, moved, rfl⟩ := Option.map_eq_some_iff.mp step.2
    exact once moved
  cases a with
  | driver a =>
    simp only [ReadySys.step, Option.ite_none_right_eq_some] at step
    obtain ⟨u, moved, rfl⟩ := Option.map_eq_some_iff.mp step.2
    exact once moved
  | kvnetRead hdr len errno =>
    simp only [ReadySys.step, kvnetRead, Option.ite_none_left_eq_some] at step
    obtain ⟨_, step⟩ := step
    split at step
    · obtain rfl := Option.some.inj step
      exact ⟨[], rfl⟩
    · obtain ⟨u, moved, rfl⟩ := Option.map_eq_some_iff.mp step
      exact once moved
  | poll errno =>
    obtain ⟨hdr, len, p, rest, u, _, _, moved, ⟨_, rfl⟩ | ⟨mask, _, _, rfl⟩ | ⟨_, _, rfl⟩⟩ :=
      pollStep_inv step
    · exact once moved
    · rw [polled_sys]
      exact once moved
    · exact once moved
  | signal =>
    simp only [ReadySys.step, signal] at step
    split at step
    · obtain ⟨u, moved, rfl⟩ := Option.map_eq_some_iff.mp step
      exact ⟨_, moved⟩
    · cases step
  | readEnter env =>
    simp only [ReadySys.step, readEnter] at step
    split at step
    · split at step
      · cases step
      · simp only [Option.ite_none_right_eq_some] at step
        obtain ⟨u, moved, rfl⟩ := Option.map_eq_some_iff.mp step.2
        exact once moved
    · cases step
  | readRemove => exact inside step
  | readFill => exact inside step
  | readFree => exact inside step
  | readReport errno =>
    simp only [ReadySys.step, readReport] at step
    split at step
    · obtain ⟨u, moved, rfl⟩ := Option.map_eq_some_iff.mp step
      exact once moved
    · cases step

/-- The caller's place, with the contents of the queue. -/
def Placed (arch : Arch) (s : ReadySys) : Prop :=
  ∃ xs live, Owned s.sys xs live ∧ xs.length < 2 ^ 32 ∧ s.caller.Place arch s.sys (s.Window xs)

theorem placed_step (pointers : 0 < arch.ptrSize) {a : ReadyAction} (h : s.Placed arch)
    (step : s.step arch a = some t) :
    t.Placed arch ∧ (s.Truthful → (t.Truthful ↔ s.Unflushed a)) := by
  obtain ⟨xs, live, owned, fits, place⟩ := h
  obtain ⟨actions, moved⟩ := step_runs step
  obtain ⟨ys, live', owned', fits'⟩ := Execution.run_invariant
    (fun s => ∃ xs live, Owned s xs live ∧ xs.length < 2 ^ 32)
    (fun s b t here next => by
      obtain ⟨xs, live, owned, fits⟩ := here
      exact fits_step owned fits next)
    ⟨xs, live, owned, fits⟩ moved
  have freely (result : t.caller.Place arch t.sys (t.Window ys) ∧ (s.Truthful → t.Truthful))
      (guard : s.Unflushed a) : t.Placed arch ∧ (s.Truthful → (t.Truthful ↔ s.Unflushed a)) :=
    ⟨⟨ys, live', owned', fits', result.1⟩, fun h => iff_of_true (result.2 h) guard⟩
  cases a with
  | driver a =>
    exact freely ⟨others_place owned owned' place step, fun h => others_truthful h step⟩ trivial
  | kvnetRead hdr len errno => exact freely (kvnetRead_step place step) trivial
  | poll errno =>
    exact freely ⟨poll_place owned fits owned' place step, fun h => poll_truthful h step⟩ trivial
  | signal => exact freely (signal_step place step) trivial
  | readEnter env => exact freely (readEnter_step owned owned' place step) trivial
  | readRemove =>
    obtain ⟨place', decides⟩ := readRemove_step owned place step
    exact ⟨⟨ys, live', owned', fits', place'⟩, decides⟩
  | readFill => exact freely (readFill_step place step) trivial
  | readFree => exact freely (readFree_step pointers place step) trivial
  | readReport errno => exact freely (readReport_step pointers place step) trivial

end Truth

/-- In a run from the loaded driver POLLIN is always kept, and KVNET_READ_ERROR
never returned, exactly when no read makes its first queue_remove on a queue
that was flushed since POLLIN was tested and accepted nothing after that. -/
theorem readiness_truthful_iff (arch : Arch) (pointers : 0 < arch.ptrSize) (s₀ s : ReadySys)
    (actions : List ReadyAction) (fresh : s₀.Fresh)
    (h : Execution.run (ReadySys.step arch) s₀ actions = some s) :
    Execution.Always (ReadySys.step arch) Truthful s₀ actions ↔
      Execution.Meets (ReadySys.step arch) Unflushed s₀ actions := by
  obtain ⟨sys, caller, reads, statuses⟩ := fresh
  have start : s₀.Placed arch := by
    refine ⟨[], _, fresh_owned sys, by decide, ?_⟩
    rw [caller]
    exact ⟨sys.pollers, sys.readers⟩
  have truthful : s₀.Truthful := by
    constructor
    · intro r hr
      rw [sys.readers] at hr
      cases hr
    · intro x hx
      rw [reads] at hx
      cases hx
    · intro status hstatus
      rw [statuses] at hstatus
      cases hstatus
  exact Execution.always_iff_meets (Placed arch)
    (fun s a t placed step => (placed_step pointers placed step).1)
    (fun s a t placed truthful step => (placed_step pointers placed step).2 truthful)
    start truthful h

/-- The loaded driver and a thread that is about to call kvnet_read. -/
def freshCaller : ReadySys := ⟨freshSys, .outside, false, [], []⟩

theorem freshCaller_fresh : freshCaller.Fresh := ⟨freshSys_fresh, rfl, rfl, rfl⟩

/-- A packet arrives and kvnet_read's poll reports POLLIN. -/
def readable : List ReadyAction :=
  [.driver .netDevOpen, .driver (.sendEnter 1), .driver (.sendSection 0 256),
    .kvnetRead 4096 12 0, .poll 0, .poll 0, .poll 0, .poll 0]

/-- The interface goes down. -/
def goesDown : List ReadyAction := [.driver .closeDisable, .driver .closeFlush]

/-- And up again, and another packet arrives before the read. -/
def refilled : List ReadyAction :=
  readable ++ goesDown ++ [.driver .netDevOpen, .driver (.sendEnter 2),
    .driver (.sendSection 1 256), .readEnter ⟨true, false, fun _ => 0⟩, .readRemove, .readFill,
    .readFree, .readReport 0]

theorem readiness_truthful_refilled :
    Execution.Always (ReadySys.step lp64) Truthful freshCaller refilled := by
  have outcome : (Execution.run (ReadySys.step lp64) freshCaller refilled).map ReadySys.reads =
      some [(1, 12)] := by decide +kernel
  obtain ⟨s, hrun, _⟩ := Option.map_eq_some_iff.mp outcome
  exact (readiness_truthful_iff lp64 (by decide) freshCaller s refilled freshCaller_fresh
    hrun).mpr (by decide +kernel)

/-- The interface goes down after POLLIN, and the read comes too late. -/
def flushedWindow : List ReadyAction :=
  readable ++ goesDown ++ [.readEnter ⟨true, false, fun _ => 0⟩, .readRemove, .readReport 11]

theorem flushed_window_fails : freshCaller.Fresh ∧
    ∃ s, Execution.run (ReadySys.step lp64) freshCaller flushedWindow = some s ∧
      s.reads = [(0, -EAGAIN)] ∧ s.statuses.map kvnetStatus = [KVNET_READ_ERROR] ∧
      ¬ s.Truthful := by
  have outcome : (Execution.run (ReadySys.step lp64) freshCaller flushedWindow).map
      (fun s => (s.reads, s.statuses.map kvnetStatus)) =
        some ([(0, -EAGAIN)], [KVNET_READ_ERROR]) := by decide +kernel
  obtain ⟨s, hrun, ended⟩ := Option.map_eq_some_iff.mp outcome
  obtain ⟨reads, statuses⟩ := Prod.mk.inj ended
  refine ⟨freshCaller_fresh, s, hrun, reads, statuses, fun truthful => ?_⟩
  have spurious : (0, -EAGAIN) ∈ s.reads := by
    rw [reads]
    exact List.mem_singleton.mpr rfl
  exact (truthful.reads _ spurious).2 rfl

end ReadySys

end Kvnet
