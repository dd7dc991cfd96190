import Kvnet.Filling
import Kvnet.QueueBound

/-!
# Packets on their way through the driver

Each buffer that net_dev_send puts on the queue carries a packet; the packets are
numbered in the order of their insertion. The network stack writes a buffer
while it owns it. A reader fills a user packet access by access, and any other
thread can move between two accesses. A packet is delivered with the last of
them, and what is delivered is what user memory holds then.
-/

namespace Kvnet

/-- The buffer a reader is copying. -/
def Reader.filling (r : Reader) : Option Addr :=
  match r.pc with
  | .fill skb => some skb
  | _ => none

def Sys.filling (s : Sys) : List Addr := s.readers.filterMap Reader.filling

/-- The user packet a reader is at. -/
def Reader.pkt (r : Reader) : Addr := r.hdr.pkt r.i

def Sys.payload (s : Sys) (skb : Addr) : List UInt8 := (s.world.mem.cell skb).data

/-- A packet in user memory, and the room that the caller said there was. -/
structure Delivery where
  number : Nat
  room : UInt32
  bytes : List UInt8
  deriving DecidableEq

/-- The driver with how far each buffer has been copied, and records that no step
reads: the contents of all packets inserted so far, the number of the packet in
each buffer, and what was delivered. -/
structure Flow where
  sys : Sys
  progress : Addr → FillPc
  sent : List (List UInt8)
  number : Addr → Nat
  delivered : List Delivery

/-- `fill k` is the next access of the reader at k to the packet it fills, and
`fillFault k` is that access when it faults. -/
inductive FlowAction where
  | stackWrite (skb : Addr) (cell : SkBuff)
  | driver (a : Action)
  | fill (k : Nat)
  | fillFault (k : Nat)

namespace Flow

/-- The network stack writes a buffer that the driver has not been passed, or
has freed each time. -/
def stackWrite (f : Flow) (skb : Addr) (cell : SkBuff) : Option Flow :=
  let mem := f.sys.world.mem
  if mem.passed.count skb = mem.freed.count skb then
    let mem := { mem with cell := Function.update mem.cell skb cell }
    some { f with sys := { f.sys with world := f.sys.world.withMem mem } }
  else none

/-- What user memory holds of the packet at pkt once it is filled from skb. -/
def delivery (f : Flow) (w : World) (pkt skb : Addr) : Delivery where
  number := f.number skb
  room := (f.progress skb).room
  bytes := loadBytes w.user (pkt + 4) (loadU32 w.user pkt).toNat

def fill (f : Flow) (k : Nat) : Option Flow :=
  match f.sys.readers[k]? with
  | some r =>
    match r.pc with
    | .fill skb =>
      match fillNext f.sys.world r.pkt skb (f.progress skb) with
      | (w, some next) =>
        some { f with
          sys := { f.sys with world := w }, progress := Function.update f.progress skb next }
      | (w, none) =>
        some { f with
          sys := { f.sys with
            world := w, readers := f.sys.readers.set k { r with pc := .free skb 0 } }
          delivered := f.delivered ++ [f.delivery w r.pkt skb] }
    | _ => none
  | none => none

def fillFault (f : Flow) (k : Nat) : Option Flow :=
  match f.sys.readers[k]? with
  | some r =>
    match r.pc with
    | .fill skb =>
      match (f.progress skb).fault with
      | some _ =>
        some { f with
          sys := { f.sys with
            readers := f.sys.readers.set k { r with pc := .free skb (-EFAULT) } } }
      | none => none
    | _ => none
  | none => none

/-- The driver has gone on to t: a packet inserted gets its number, and the copy
of a buffer taken off the queue starts at get_user. -/
def record (f : Flow) (t : Sys) : Action → Flow
  | .sendSection _ _ =>
    match (t.accepted.drop f.sys.accepted.length).head? with
    | some skb =>
      { f with
        sys := t
        sent := f.sent ++ [f.sys.payload skb]
        number := Function.update f.number skb f.sent.length }
    | none => { f with sys := t }
  | .readRemove _ =>
    match (t.removed.drop f.sys.removed.length).head? with
    | some skb => { f with sys := t, progress := Function.update f.progress skb .getUser }
    | none => { f with sys := t }
  | _ => { f with sys := t }

/-- The accesses of a fill take the place of the driver's step that makes them all. -/
def step (arch : Arch) (f : Flow) : FlowAction → Option Flow
  | .stackWrite skb cell => f.stackWrite skb cell
  | .driver (.readFill _ _) => none
  | .driver a => (f.sys.step arch a).map fun t => f.record t a
  | .fill k => f.fill k
  | .fillFault k => f.fillFault k

structure Fresh (f : Flow) : Prop where
  sys : f.sys.Fresh
  sent : f.sent = []
  delivered : f.delivered = []

/-- A read is entered only when no other is in progress. -/
def oneReader (f : Flow) : FlowAction → Bool
  | .driver (.readEnter _ _ _) => f.sys.readers.isEmpty
  | _ => true

/-- No user access faults, and net_dev_close finds nothing to flush. -/
def lossless (f : Flow) : FlowAction → Bool
  | .fillFault _ => false
  | .driver .closeFlush => f.sys.world.queue.head = NULL
  | _ => true

/-- The readers that an action does not copy for. -/
def others (f : Flow) : FlowAction → List Reader
  | .fill k => f.sys.readers.eraseIdx k
  | _ => f.sys.readers

/-- Where the bytes go that a reader is copying. -/
def target (f : Flow) (r : Reader) : List Addr :=
  match r.filling with
  | some skb => (List.range (f.progress skb).len).map fun j => r.pkt + 4 + j
  | none => []

/-- The action leaves alone what other readers are copying to user memory. -/
def Spares (arch : Arch) (f : Flow) (a : FlowAction) : Prop :=
  ∀ g ∈ f.step arch a, ∀ r ∈ f.others a, ∀ x ∈ f.target r,
    g.sys.world.user x = f.sys.world.user x

instance (arch : Arch) (f : Flow) (a : FlowAction) : Decidable (f.Spares arch a) :=
  inferInstanceAs (Decidable (∀ g ∈ f.step arch a, ∀ r ∈ f.others a, ∀ x ∈ f.target r,
    g.sys.world.user x = f.sys.world.user x))

section Inversion

variable {f g : Flow} {k : Nat}

theorem fill_inv (h : f.fill k = some g) : ∃ r skb, f.sys.readers[k]? = some r ∧
    r.pc = .fill skb ∧
      ((∃ w next, fillNext f.sys.world r.pkt skb (f.progress skb) = (w, some next) ∧
        g = { f with
          sys := { f.sys with world := w }, progress := Function.update f.progress skb next }) ∨
      ∃ w, fillNext f.sys.world r.pkt skb (f.progress skb) = (w, none) ∧
        g = { f with
          sys := { f.sys with
            world := w, readers := f.sys.readers.set k { r with pc := .free skb 0 } }
          delivered := f.delivered ++ [f.delivery w r.pkt skb] }) := by
  cases found : f.sys.readers[k]? with
  | none => simp only [fill, found, reduceCtorEq] at h
  | some r =>
    cases pc : r.pc with
    | fill skb =>
      refine ⟨r, skb, rfl, pc, ?_⟩
      rcases access : fillNext f.sys.world r.pkt skb (f.progress skb) with ⟨w, _ | next⟩
      · simp only [fill, found, pc, access, Option.some.injEq] at h
        exact Or.inr ⟨w, rfl, h.symm⟩
      · simp only [fill, found, pc, access, Option.some.injEq] at h
        exact Or.inl ⟨w, next, rfl, h.symm⟩
    | remove | free skb failed | report => simp only [fill, found, pc, reduceCtorEq] at h

theorem fillFault_inv (h : f.fillFault k = some g) : ∃ r skb, f.sys.readers[k]? = some r ∧
    r.pc = .fill skb ∧
      g = { f with
        sys := { f.sys with
          readers := f.sys.readers.set k { r with pc := .free skb (-EFAULT) } } } := by
  cases found : f.sys.readers[k]? with
  | none => simp only [fillFault, found, reduceCtorEq] at h
  | some r =>
    cases pc : r.pc with
    | fill skb =>
      cases faults : (f.progress skb).fault with
      | none => simp only [fillFault, found, pc, faults, reduceCtorEq] at h
      | some fault =>
        simp only [fillFault, found, pc, faults, Option.some.injEq] at h
        exact ⟨r, skb, rfl, pc, h.symm⟩
    | remove | free skb failed | report => simp only [fillFault, found, pc, reduceCtorEq] at h

/-- A step of the driver that is not a fill. -/
theorem driver_inv {arch : Arch} {a : Action} (h : f.step arch (.driver a) = some g) :
    ∃ t, f.sys.step arch a = some t ∧ g = f.record t a := by
  have moved : (f.sys.step arch a).map (fun t => f.record t a) = some g := by
    cases a with
    | readFill k fault => cases h
    | _ => exact h
  obtain ⟨t, stepped, same⟩ := Option.map_eq_some_iff.mp moved
  exact ⟨t, stepped, same.symm⟩

end Inversion

end Flow

/-- No step of the driver changes what a buffer carries. -/
theorem step_payload {arch : Arch} {s t : Sys} {xs : List Addr} {live : Addr → Bool} {a : Action}
    (owned : Owned s xs live) (h : s.step arch a = some t) (x : Addr) :
    t.payload x = s.payload x := by
  cases a with
  | sendEnter skb =>
    obtain ⟨_, rfl⟩ := Sys.sendEnter_inv h
    rfl
  | sendSection k txQueueLen =>
    obtain ⟨skb, _, ⟨drops, rfl⟩ | ⟨accepts, rfl⟩⟩ := Sys.sendSection_inv h
    · simp only [Sys.payload, netDevSendSection_drops drops]
      rfl
    · simp only [Sys.payload, netDevSendSection_inserts accepts]
      exact queueInsert_data s.world.mem s.world.queue skb x
  | sendWakeup k =>
    obtain ⟨_, rfl⟩ := Sys.sendWakeup_inv h
    rfl
  | readEnter iv len env =>
    obtain rfl := Option.some.inj h
    rcases Sys.readEnter_inv arch s iv len env with same | ⟨hdr, _, entered⟩
    · rw [same]
    · rw [entered]
      rfl
  | readRemove k =>
    have kept := queueRemove_data s.world.mem s.world.queue x
    obtain ⟨r, _, _, ⟨_, rfl⟩ | ⟨_, rfl⟩⟩ := Sys.readRemove_inv h
    · exact kept
    · exact kept
  | readFill k fault =>
    obtain ⟨r, skb, _, _, rfl⟩ := Sys.readFill_inv h
    obtain ⟨_, fill⟩ := fill_step s.world (r.hdr.pkt r.i) skb fault
    exact fill.data x
  | readFree k =>
    obtain ⟨_, _, _, _, _, _, _, rfl⟩ := Sys.readFree_inv h
    rfl
  | readReport k toIovec =>
    obtain ⟨r, _, _, rfl⟩ := Sys.readReport_inv h
    simp only [Sys.payload, reportCount_mem]
  | closeFlush =>
    obtain ⟨_, w, flushed, rfl⟩ := Sys.closeFlush_inv h
    obtain ⟨⟨m, q, n⟩, hloop, rfl⟩ := Option.map_eq_some_iff.mp flushed
    exact (flushLoop_drained owned.represents hloop).2.data x
  | netDevOpen =>
    obtain ⟨_, rfl⟩ := Sys.netDevOpen_inv h
    rfl
  | closeDisable =>
    obtain ⟨_, rfl⟩ := Sys.closeDisable_inv h
    rfl
  | poll k =>
    obtain ⟨p, _, _, ⟨_, rfl⟩ | ⟨_, rfl⟩⟩ := Sys.pollStep_inv h
    · rfl
    · rfl
  | pollSignal k =>
    obtain rfl := Sys.pollSignal_inv h
    rfl
  | cancelWakeup =>
    obtain ⟨_, rfl⟩ := Sys.cancelWakeup_inv h
    rfl
  | pollEnter | cancelSet | userStore user =>
    obtain rfl := Option.some.inj h
    rfl

/-- What an action does to the queue, the readers and the records. -/
inductive Flow.Effect (f g : Flow) (xs ys : List Addr) (a : FlowAction) : Prop where
  | still (gone : List Addr) (split : xs = gone ++ ys)
      (removed : g.sys.removed.length = f.sys.removed.length + gone.length)
      (records : g = { f with sys := g.sys })
      (payload : ∀ x, x ∈ ys ∨ x ∈ g.sys.held → g.sys.payload x = f.sys.payload x)
      (held : g.sys.held ⊆ f.sys.held) (others : f.others a = f.sys.readers)
      (filling : ∀ r ∈ g.sys.readers, r.filling = none ∨ r ∈ f.sys.readers)
      (kept : f.lossless a = true → gone = [] ∧ g.sys.filling = f.sys.filling)
      (one : f.oneReader a = true → f.sys.readers.length ≤ 1 → g.sys.readers.length ≤ 1)
  | accept (skb : Addr) (handed : skb ∈ f.sys.handing) (grown : ys = xs ++ [skb])
      (removed : g.sys.removed = f.sys.removed)
      (records : g = { f with
        sys := g.sys
        sent := f.sent ++ [f.sys.payload skb]
        number := Function.update f.number skb f.sent.length })
      (payload : ∀ x, g.sys.payload x = f.sys.payload x)
      (others : f.others a = f.sys.readers) (readers : g.sys.readers = f.sys.readers)
  | remove (k : Nat) (r : Reader) (skb : Addr) (found : f.sys.readers[k]? = some r)
      (pc : r.pc = .remove) (taken : xs = skb :: ys)
      (removed : g.sys.removed = f.sys.removed ++ [skb])
      (records : g = { f with
        sys := g.sys, progress := Function.update f.progress skb .getUser })
      (payload : ∀ x, g.sys.payload x = f.sys.payload x)
      (others : f.others a = f.sys.readers)
      (readers : g.sys.readers = f.sys.readers.set k { r with pc := .fill skb })
  | access (k : Nat) (r : Reader) (skb : Addr) (next : FillPc)
      (found : f.sys.readers[k]? = some r) (pc : r.pc = .fill skb) (same : ys = xs)
      (removed : g.sys.removed = f.sys.removed)
      (moved : fillNext f.sys.world r.pkt skb (f.progress skb) = (g.sys.world, some next))
      (records : g = { f with
        sys := g.sys, progress := Function.update f.progress skb next })
      (payload : ∀ x, g.sys.payload x = f.sys.payload x)
      (others : f.others a = f.sys.readers.eraseIdx k) (readers : g.sys.readers = f.sys.readers)
  | fill (k : Nat) (r : Reader) (skb : Addr) (found : f.sys.readers[k]? = some r)
      (pc : r.pc = .fill skb) (same : ys = xs) (removed : g.sys.removed = f.sys.removed)
      (moved : fillNext f.sys.world r.pkt skb (f.progress skb) = (g.sys.world, none))
      (records : g = { f with
        sys := g.sys, delivered := f.delivered ++ [f.delivery g.sys.world r.pkt skb] })
      (payload : ∀ x, g.sys.payload x = f.sys.payload x)
      (others : f.others a = f.sys.readers.eraseIdx k)
      (readers : g.sys.readers = f.sys.readers.set k { r with pc := .free skb 0 })

section Effect

variable {arch : Arch} {f g : Flow} {t : Sys} {xs ys : List Addr} {live live' : Addr → Bool}
  {k : Nat}

/-- A step that takes nothing off the queue and delivers nothing. -/
theorem still_effect {a : FlowAction} (h : Owned f.sys xs live) (h' : Owned t ys live')
    (accepted : t.accepted = f.sys.accepted) (removed : t.removed = f.sys.removed)
    (payload : ∀ x, x ∈ ys ∨ x ∈ t.held → t.payload x = f.sys.payload x)
    (held : t.held ⊆ f.sys.held) (others : f.others a = f.sys.readers)
    (filling : ∀ r ∈ t.readers, r.filling = none ∨ r ∈ f.sys.readers)
    (kept : f.lossless a = true → t.filling = f.sys.filling)
    (one : f.oneReader a = true → f.sys.readers.length ≤ 1 → t.readers.length ≤ 1) :
    Flow.Effect f { f with sys := t } xs ys a := by
  have same := h.keeps h' accepted removed
  refine .still [] same.symm ?_ rfl payload held others filling (fun all => ⟨rfl, kept all⟩) one
  exact congrArg List.length removed

/-- A step of the driver that leaves the readers alone. -/
theorem unread_effect {a : FlowAction} (h : Owned f.sys xs live) (h' : Owned t ys live')
    (payload : ∀ x, t.payload x = f.sys.payload x) (accepted : t.accepted = f.sys.accepted)
    (removed : t.removed = f.sys.removed) (others : f.others a = f.sys.readers)
    (readers : t.readers = f.sys.readers) : Flow.Effect f { f with sys := t } xs ys a := by
  have held : t.held = f.sys.held := congrArg (List.filterMap Reader.held) readers
  have filling : t.filling = f.sys.filling := congrArg (List.filterMap Reader.filling) readers
  refine still_effect h h' accepted removed (fun x _ => payload x) ?_ others (fun r hr => ?_)
    (fun _ => filling) ?_
  · rw [held]
    exact List.Subset.refl _
  · rw [readers] at hr
    exact Or.inr hr
  · rw [readers]
    exact fun _ => id

/-- A buffer that the network stack owns is nowhere in the driver. -/
theorem stackWrite_effect (h : Owned f.sys xs live) {skb : Addr} {cell : SkBuff}
    (written : f.stackWrite skb cell = some g) :
    Owned g.sys xs live ∧ Flow.Effect f g xs xs (.stackWrite skb cell) := by
  obtain ⟨unowned, same⟩ := Option.ite_none_right_eq_some.mp written
  obtain rfl := Option.some.inj same
  have dead : live skb = false := by
    have balance := replay_count h.replays skb
    change 0 + f.sys.world.mem.passed.count skb = _ + f.sys.world.mem.freed.count skb at balance
    cases alive : live skb with
    | false => rfl
    | true =>
      rw [alive, Bool.toNat_true] at balance
      omega
  have apart {x : Addr} (alive : live x = true) : x ≠ skb := by
    rintro rfl
    rw [dead] at alive
    cases alive
  have owned : Owned { f.sys with world := f.sys.world.withMem { f.sys.world.mem with
      cell := Function.update f.sys.world.mem.cell skb cell } } xs live := by
    refine h.still (h.represents.congr fun x hx => ?_) rfl (fun _ => rfl) (fun _ => rfl) rfl rfl
    have other := apart (h.live_queued hx)
    simp [SkbMem.next, other]
  refine ⟨owned, still_effect h owned rfl rfl (fun x place => ?_) (List.Subset.refl _) rfl
    (fun _ => Or.inr) (fun _ => rfl) fun _ => id⟩
  have other : x ≠ skb := by
    refine apart (h.live_of_place ?_)
    rcases place with queued | held
    · have := List.count_pos_iff.mpr queued
      omega
    · have : 0 < f.sys.held.count x := List.count_pos_iff.mpr held
      omega
  simp [Sys.payload, other]

theorem Reader.filling_held {r : Reader} (nothing : r.held = none) : r.filling = none := by
  cases pc : r.pc with
  | fill skb => simp [Reader.held, pc] at nothing
  | remove | free skb failed | report => simp only [Reader.filling, pc]

theorem sendSection_effect {txQueueLen : UInt64} (h : Owned f.sys xs live)
    (h' : Owned t ys live') (payload : ∀ x, t.payload x = f.sys.payload x)
    (moved : f.sys.sendSection k txQueueLen = some t) : Flow.Effect f
      (f.record t (.sendSection k txQueueLen)) xs ys (.driver (.sendSection k txQueueLen)) := by
  obtain ⟨skb, found, ⟨_, rfl⟩ | ⟨_, rfl⟩⟩ := Sys.sendSection_inv moved
  · have plain := unread_effect (a := .driver (.sendSection k txQueueLen)) h h' payload rfl rfl
      rfl rfl
    simpa [Flow.record] using plain
  · have order := h'.order
    simp only [h.order, List.append_assoc] at order
    have handed : skb ∈ f.sys.handing :=
      List.mem_filterMap.mpr ⟨.entered skb, List.mem_of_getElem? found, rfl⟩
    have recorded (t : Sys) (accepted : t.accepted = f.sys.accepted ++ [skb]) :
        f.record t (.sendSection k txQueueLen) = { f with
          sys := t
          sent := f.sent ++ [f.sys.payload skb]
          number := Function.update f.number skb f.sent.length } := by
      simp [Flow.record, accepted]
    rw [recorded _ rfl]
    exact .accept skb handed (List.append_cancel_left order).symm rfl rfl payload rfl rfl

/-- A reader goes on holding no more than before, and is not filling a packet. -/
theorem reader_effect {a : FlowAction} {r r' : Reader} (h : Owned f.sys xs live)
    (h' : Owned t ys live') (payload : ∀ x, t.payload x = f.sys.payload x)
    (accepted : t.accepted = f.sys.accepted) (removed : t.removed = f.sys.removed)
    (others : f.others a = f.sys.readers)
    (found : f.sys.readers[k]? = some r) (readers : t.readers = f.sys.readers.set k r')
    (held : r'.held = none ∨ r'.held = r.held) (filling : r'.filling = none)
    (kept : f.lossless a = true → r.filling = none) :
    Flow.Effect f { f with sys := t } xs ys a := by
  refine still_effect h h' accepted removed (fun x _ => payload x) ?_ others (fun p hp => ?_)
    (fun all => ?_) ?_
  · rw [Sys.held, readers]
    refine Pool.filterMap_set_subset (fun x holds => ?_) (List.Subset.refl _)
    rcases held with nothing | same
    · rw [nothing] at holds
      cases holds
    · exact List.mem_filterMap.mpr ⟨r, List.mem_of_getElem? found, same ▸ holds⟩
  · rw [readers] at hp
    rcases List.mem_or_eq_of_mem_set hp with old | rfl
    · exact Or.inr old
    · exact Or.inl filling
  · rw [Sys.filling, readers]
    exact Pool.filterMap_set found (filling.trans (kept all).symm)
  · rw [readers, List.length_set]
    exact fun _ => id

theorem readRemove_effect (h : Owned f.sys xs live) (h' : Owned t ys live')
    (payload : ∀ x, t.payload x = f.sys.payload x) (moved : f.sys.readRemove k = some t) :
    Flow.Effect f (f.record t (.readRemove k)) xs ys (.driver (.readRemove k)) := by
  obtain ⟨r, found, pc, ⟨_, rfl⟩ | ⟨nonempty, rfl⟩⟩ := Sys.readRemove_inv moved
  · have before : r.filling = none := by simp only [Reader.filling, pc]
    have plain := reader_effect (a := .driver (.readRemove k)) h h' payload rfl rfl rfl found rfl
      (Or.inl rfl) rfl fun _ => before
    simpa [Flow.record] using plain
  · have order := h'.order
    simp only [h.order, List.append_assoc] at order
    have recorded (t : Sys) (removed : t.removed = f.sys.removed ++ [f.sys.world.queueRemove.1]) :
        f.record t (.readRemove k) = { f with
          sys := t
          progress := Function.update f.progress f.sys.world.queueRemove.1 .getUser } := by
      simp [Flow.record, removed]
    rw [recorded _ rfl]
    exact .remove k r _ found pc (List.append_cancel_left order) rfl rfl payload rfl rfl

/-- One access of a fill, the last one or another. -/
theorem fill_effect (h : Owned f.sys xs live) (moved : f.fill k = some g) :
    Owned g.sys xs live ∧ Flow.Effect f g xs xs (.fill k) := by
  obtain ⟨r, skb, found, pc, access⟩ := Flow.fill_inv moved
  have holds : r.held = some skb := by rw [Reader.held, pc]
  have alive := h.live_held found holds
  obtain ⟨_, part⟩ := fillNext_step f.sys.world r.pkt skb (f.progress skb)
  rcases access with ⟨w, next, accessed, rfl⟩ | ⟨w, accessed, rfl⟩
  · rw [accessed] at part
    exact ⟨h.fills alive part rfl (fun _ => rfl) rfl rfl,
      .access k r skb next found pc rfl rfl accessed rfl part.data rfl rfl⟩
  · rw [accessed] at part
    refine ⟨h.fills alive part rfl (fun x => ?_) rfl rfl,
      .fill k r skb found pc rfl rfl accessed rfl part.data rfl rfl⟩
    have kept := Pool.count_set (f := Reader.held) found { r with pc := .free skb 0 } x
    rw [holds] at kept
    exact Nat.add_right_cancel kept

theorem fillFault_effect (h : Owned f.sys xs live) (moved : f.fillFault k = some g) :
    Owned g.sys xs live ∧ Flow.Effect f g xs xs (.fillFault k) := by
  obtain ⟨r, skb, found, pc, rfl⟩ := Flow.fillFault_inv moved
  have holds : r.held = some skb := by rw [Reader.held, pc]
  have owned : Owned { f.sys with
      readers := f.sys.readers.set k { r with pc := .free skb (-EFAULT) } } xs live := by
    refine h.still h.represents rfl (fun _ => rfl) (fun x => ?_) rfl rfl
    have kept := Pool.count_set (f := Reader.held) found { r with pc := .free skb (-EFAULT) } x
    rw [holds] at kept
    exact Nat.add_right_cancel kept
  refine ⟨owned, reader_effect h owned (fun _ => rfl) rfl rfl rfl found rfl (Or.inr holds.symm)
    rfl fun all => ?_⟩
  cases all

theorem closeFlush_effect (h : Owned f.sys xs live) (h' : Owned t ys live')
    (payload : ∀ x, t.payload x = f.sys.payload x) (moved : f.sys.closeFlush = some t) :
    Flow.Effect f (f.record t .closeFlush) xs ys (.driver .closeFlush) := by
  obtain ⟨_, w, flushed, rfl⟩ := Sys.closeFlush_inv moved
  have drained := flush_drains h.represents flushed
  obtain rfl : ys = [] := h.flushes h' flushed rfl rfl
  refine .still xs (List.append_nil xs).symm ?_ rfl (fun x _ => payload x) (List.Subset.refl _)
    rfl (fun _ => Or.inr) (fun empty => ⟨?_, rfl⟩) fun _ => id
  · simp only [Flow.record, drained.freed, List.drop_left, List.length_append]
  · exact h.represents.head_eq_null_iff.mp (of_decide_eq_true empty)

theorem readEnter_effect {iv : List Iovec} {len : Int} {env : HeaderEnv}
    (h : Owned f.sys xs live) (h' : Owned (f.sys.readEnter arch iv len env) ys live') :
    Flow.Effect f { f with sys := f.sys.readEnter arch iv len env } xs ys
      (.driver (.readEnter iv len env)) := by
  rcases Sys.readEnter_inv arch f.sys iv len env with same | ⟨hdr, _, entered⟩
  · rw [same] at h' ⊢
    exact unread_effect h h' (fun _ => rfl) rfl rfl rfl rfl
  · rw [entered] at h' ⊢
    have idle (g : Reader → Option Addr) (r : Reader) (nothing : g r = none) :
        (f.sys.readers ++ [r]).filterMap g = f.sys.readers.filterMap g := by
      rw [List.filterMap_append, List.filterMap_cons_none nothing]
      exact List.append_nil _
    refine still_effect h h' rfl rfl (fun _ _ => rfl) ?_ rfl (fun r hr => ?_) (fun _ => ?_)
      fun alone _ => ?_
    · rw [Sys.held, idle Reader.held _ rfl]
      exact List.Subset.refl _
    · rcases List.mem_append.mp hr with old | new
      · exact Or.inr old
      · rw [List.mem_singleton.mp new]
        exact Or.inl rfl
    · exact idle Reader.filling _ rfl
    · rw [List.isEmpty_iff.mp alone]
      exact Nat.le_refl 1

theorem readReport_effect {toIovec : Option Nat} (h : Owned f.sys xs live)
    (h' : Owned t ys live') (payload : ∀ x, t.payload x = f.sys.payload x)
    (moved : f.sys.readReport arch k toIovec = some t) :
    Flow.Effect f { f with sys := t } xs ys (.driver (.readReport k toIovec)) := by
  obtain ⟨r, found, pc, rfl⟩ := Sys.readReport_inv moved
  have held := Pool.filterMap_eraseIdx (f := Reader.held) found (by simp only [Reader.held, pc])
  have filling := Pool.filterMap_eraseIdx (f := Reader.filling) found
    (by simp only [Reader.filling, pc])
  refine still_effect h h' rfl rfl (fun x _ => payload x) ?_ rfl
    (fun p hp => Or.inr (List.mem_of_mem_eraseIdx hp)) (fun _ => filling) fun _ few => ?_
  · rw [Sys.held, held]
    exact List.Subset.refl _
  · exact Nat.le_trans (List.length_eraseIdx_le _ _) few

/-- Every step of the driver and of the network stack. -/
theorem flow_effect {a : FlowAction} (h : Owned f.sys xs live) (moved : f.step arch a = some g) :
    ∃ ys live', Owned g.sys ys live' ∧ Flow.Effect f g xs ys a := by
  cases a with
  | stackWrite skb cell =>
    obtain ⟨owned, effect⟩ := stackWrite_effect h moved
    exact ⟨xs, live, owned, effect⟩
  | fill k =>
    obtain ⟨owned, effect⟩ := fill_effect h moved
    exact ⟨xs, live, owned, effect⟩
  | fillFault k =>
    obtain ⟨owned, effect⟩ := fillFault_effect h moved
    exact ⟨xs, live, owned, effect⟩
  | driver a =>
    have other : ∀ k fault, a ≠ .readFill k fault := by
      rintro k fault rfl
      cases moved
    obtain ⟨t, stepped, rfl⟩ := Flow.driver_inv moved
    obtain ⟨ys, live', h'⟩ := step_owned ⟨xs, live, h⟩ stepped
    have payload := step_payload h stepped
    have recorded : (f.record t a).sys = t := by
      cases a with
      | sendSection k txQueueLen | readRemove k =>
        simp only [Flow.record]
        split
        · rfl
        · rfl
      | _ => rfl
    refine ⟨ys, live', by rwa [recorded], ?_⟩
    cases a with
    | sendSection k txQueueLen => exact sendSection_effect h h' payload stepped
    | readRemove k => exact readRemove_effect h h' payload stepped
    | readFill k fault => exact absurd rfl (other k fault)
    | closeFlush => exact closeFlush_effect h h' payload stepped
    | readEnter iv len env =>
      obtain rfl := Option.some.inj stepped
      exact readEnter_effect h h'
    | readReport k toIovec => exact readReport_effect h h' payload stepped
    | readFree k =>
      obtain ⟨r, r', skb, failed, found, pc, nothing, rfl⟩ := Sys.readFree_inv stepped
      have before : r.filling = none := by simp only [Reader.filling, pc]
      exact reader_effect h h' payload rfl rfl rfl found rfl (Or.inl nothing)
        (Reader.filling_held nothing) fun _ => before
    | sendEnter skb =>
      obtain ⟨_, rfl⟩ := Sys.sendEnter_inv stepped
      exact unread_effect h h' payload rfl rfl rfl rfl
    | sendWakeup k =>
      obtain ⟨_, rfl⟩ := Sys.sendWakeup_inv stepped
      exact unread_effect h h' payload rfl rfl rfl rfl
    | netDevOpen =>
      obtain ⟨_, rfl⟩ := Sys.netDevOpen_inv stepped
      exact unread_effect h h' payload rfl rfl rfl rfl
    | closeDisable =>
      obtain ⟨_, rfl⟩ := Sys.closeDisable_inv stepped
      exact unread_effect h h' payload rfl rfl rfl rfl
    | poll k =>
      obtain ⟨_, _, _, ⟨_, rfl⟩ | ⟨_, rfl⟩⟩ := Sys.pollStep_inv stepped
      · exact unread_effect h h' payload rfl rfl rfl rfl
      · exact unread_effect h h' payload rfl rfl rfl rfl
    | pollSignal k =>
      obtain rfl := Sys.pollSignal_inv stepped
      exact unread_effect h h' payload rfl rfl rfl rfl
    | cancelWakeup =>
      obtain ⟨_, rfl⟩ := Sys.cancelWakeup_inv stepped
      exact unread_effect h h' payload rfl rfl rfl rfl
    | pollEnter | cancelSet | userStore user =>
      obtain rfl := Option.some.inj stepped
      exact unread_effect h h' payload rfl rfl rfl rfl

end Effect

end Kvnet
