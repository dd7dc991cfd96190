import Kvnet.LockSections
import Kvnet.QueueBound

/-!
# The queue under its spin lock, access by access

Each function of the queue that takes the lock, and the two lock sections of the
network interface, as the loads and stores they make on the queue and on the
buffers. Threads make them in any order that the lock allows, while the network
stack fills other buffers with data. The counter tx_dropped is not part of the
state: the flush adds to it after the lock is released.
-/

namespace Kvnet

open LockSection Prog

section Accesses

def loadHead : Prog QueueState Addr := load fun s => s.queue.head

def loadTail : Prog QueueState Addr := load fun s => s.queue.tail

def loadSize : Prog QueueState Int32 := load fun s => s.queue.size

def loadEnabled : Prog QueueState Int32 := load fun s => s.queue.enabled

def storeHead (buf : Addr) : Prog QueueState Unit :=
  store fun s => { s with queue := { s.queue with head := buf } }

def storeTail (buf : Addr) : Prog QueueState Unit :=
  store fun s => { s with queue := { s.queue with tail := buf } }

def storeSize (size : Int32) : Prog QueueState Unit :=
  store fun s => { s with queue := { s.queue with size := size } }

def storeEnabled (enable : Int32) : Prog QueueState Unit :=
  store fun s => { s with queue := { s.queue with enabled := enable } }

/-- SET_NEXT_PKT -/
def storeNext (via : Via) (pkt nextpkt : Addr) : Prog QueueState Unit :=
  store fun s => { s with mem := s.mem.setNextPkt via pkt nextpkt }

/-- GET_NEXT_PKT -/
def loadNext (via : Via) (pkt : Addr) : Prog QueueState Addr :=
  .access (fun s => { s with mem := (s.mem.getNextPkt via pkt).2 })
    fun s => .ret (s.mem.getNextPkt via pkt).1

def freeSkb (skb : Addr) : Prog QueueState Unit :=
  store fun s => { s with mem := s.mem.kfreeSkb skb }

end Accesses

/-- The two branches of queue_insert on q->head. -/
def linkSection (buf : Addr) : Prog QueueState Unit := do
  let head ← loadHead
  if head = NULL then do
    storeTail buf
    storeHead buf
  else do
    let tail ← loadTail
    storeNext .tail tail buf
    storeTail buf

/-- queue_insert -/
def insertSection (buf : Addr) : Prog QueueState Unit := do
  storeNext .buf buf NULL
  linkSection buf
  let size ← loadSize
  storeSize (size + 1)

/-- queue_remove -/
def removeSection : Prog QueueState Addr := do
  let head ← loadHead
  if head ≠ NULL then do
    let buf ← loadHead
    let first ← loadHead
    let next ← loadNext .head first
    storeHead next
    storeNext .buf buf NULL
    let size ← loadSize
    storeSize (size - 1)
    pure buf
  else
    pure NULL

/-- The section of net_dev_flush_tx_queue; none when the fuel runs out first. -/
def flushSection : Nat → Int32 → Prog QueueState (Option Int32)
  | 0, _ => pure none
  | fuel + 1, flushed => do
    let skb ← removeSection
    if skb = NULL then
      pure (some flushed)
    else do
      freeSkb skb
      flushSection fuel (flushed + 1)

/-- The branch of net_dev_send that drops the packet. -/
def dropSection (skb : Addr) : Prog QueueState Bool := do
  freeSkb skb
  pure false

/-- The section of net_dev_send. The length is not read of a disabled queue. -/
def sendSection (skb : Addr) (txQueueLen : UInt64) : Prog QueueState Bool := do
  let enabled ← loadEnabled
  if enabled = 0 then
    dropSection skb
  else do
    let size ← loadSize
    if txQueueLen ≤ size.toInt64.toUInt64 then
      dropSection skb
    else do
      insertSection skb
      pure true

inductive SectionCall where
  | queueInsert (buf : Addr)
  | queueRemove
  | queueEnable (enable : Int32)
  | isQueueEnabled
  | queueIsEmpty
  | queueLen
  | netDevFlushTxQueue (fuel : Nat)
  | netDevSend (skb : Addr) (txQueueLen : UInt64)

inductive Answer where
  | done
  | buf (skb : Addr)
  | int (n : Int32)
  | flushed (n : Option Int32)
  | inserted (b : Bool)
  deriving DecidableEq

def SectionCall.body : SectionCall → Prog QueueState Answer
  | .queueInsert buf => do
    insertSection buf
    pure .done
  | .queueRemove => do
    let buf ← removeSection
    pure (.buf buf)
  | .queueEnable enable => do
    storeEnabled enable
    pure .done
  | .isQueueEnabled => do
    let enabled ← loadEnabled
    pure (.int enabled)
  | .queueIsEmpty => do
    let size ← loadSize
    pure (.int (if size = 0 then 1 else 0))
  | .queueLen => do
    let size ← loadSize
    pure (.int size)
  | .netDevFlushTxQueue fuel => do
    let flushed ← flushSection fuel 0
    pure (.flushed flushed)
  | .netDevSend skb txQueueLen => do
    let inserted ← sendSection skb txQueueLen
    pure (.inserted inserted)

/-- The network stack writes the data of a buffer; its next field is the driver's. -/
structure Fill where
  skb : Addr
  data : List UInt8

def Fill.apply (fill : Fill) (s : QueueState) : QueueState :=
  let cell := { s.mem.cell fill.skb with data := fill.data }
  { s with mem := { s.mem with cell := Function.update s.mem.cell fill.skb cell } }

section Exec

variable (s : QueueState)

@[simp] theorem exec_loadHead : loadHead.exec s = (s.queue.head, s) := rfl

@[simp] theorem exec_loadTail : loadTail.exec s = (s.queue.tail, s) := rfl

@[simp] theorem exec_loadSize : loadSize.exec s = (s.queue.size, s) := rfl

@[simp] theorem exec_loadEnabled : loadEnabled.exec s = (s.queue.enabled, s) := rfl

@[simp] theorem exec_storeHead (buf : Addr) :
    (storeHead buf).exec s = ((), { s with queue := { s.queue with head := buf } }) := rfl

@[simp] theorem exec_storeTail (buf : Addr) :
    (storeTail buf).exec s = ((), { s with queue := { s.queue with tail := buf } }) := rfl

@[simp] theorem exec_storeSize (size : Int32) :
    (storeSize size).exec s = ((), { s with queue := { s.queue with size := size } }) := rfl

@[simp] theorem exec_storeEnabled (enable : Int32) : (storeEnabled enable).exec s =
    ((), { s with queue := { s.queue with enabled := enable } }) := rfl

@[simp] theorem exec_storeNext (via : Via) (pkt nextpkt : Addr) :
    (storeNext via pkt nextpkt).exec s = ((), { s with mem := s.mem.setNextPkt via pkt nextpkt }) :=
  rfl

@[simp] theorem exec_loadNext (via : Via) (pkt : Addr) : (loadNext via pkt).exec s =
    ((s.mem.getNextPkt via pkt).1, { s with mem := (s.mem.getNextPkt via pkt).2 }) := rfl

@[simp] theorem exec_freeSkb (skb : Addr) :
    (freeSkb skb).exec s = ((), { s with mem := s.mem.kfreeSkb skb }) := rfl

theorem insertSection_exec (buf : Addr) :
    (insertSection buf).exec s = ((), s.insert false buf) := by
  by_cases empty : s.queue.head = NULL
  · simp [insertSection, linkSection, apply_insert, __queueInsert, empty]
  · simp [insertSection, linkSection, apply_insert, __queueInsert, empty]

theorem removeSection_exec : removeSection.exec s = s.remove false := by
  by_cases empty : s.queue.head = NULL
  · simp [removeSection, apply_remove, __queueRemove, empty]
  · simp [removeSection, apply_remove, __queueRemove, empty]

theorem flushSection_exec (fuel : Nat) (flushed flushed' : Int32) (m : SkbMem) (q : Queue)
    (ends : flushLoop fuel s.mem s.queue flushed = some (m, q, flushed')) :
    (flushSection fuel flushed).exec s = (some flushed', ⟨m, q⟩) := by
  induction fuel generalizing s flushed with
  | zero => cases ends
  | succ fuel ih =>
    rw [flushLoop] at ends
    by_cases last : (__queueRemove s.mem s.queue).1 = NULL
    · simp only [last, if_pos, Option.some.injEq, Prod.mk.injEq] at ends
      obtain ⟨rfl, rfl, rfl⟩ := ends
      simp [flushSection, removeSection_exec, apply_remove, last]
    · simp only [last, if_neg, not_false_eq_true] at ends
      simp only [flushSection, exec_bind, removeSection_exec, apply_remove, last, if_false,
        exec_freeSkb]
      exact ih _ _ ends

variable {s} in
theorem sendSection_drops {skb : Addr} {txQueueLen : UInt64}
    (drops : SendDrops s.queue txQueueLen) : (sendSection skb txQueueLen).exec s =
      (false, { s with mem := s.mem.kfreeSkb skb }) := by
  by_cases disabled : s.queue.enabled = 0
  · simp [sendSection, dropSection, disabled]
  · have full : txQueueLen ≤ s.queue.size.toInt64.toUInt64 := drops.resolve_left disabled
    simp [sendSection, dropSection, disabled, full]

variable {s} in
theorem sendSection_inserts {skb : Addr} {txQueueLen : UInt64}
    (inserts : ¬ SendDrops s.queue txQueueLen) :
    (sendSection skb txQueueLen).exec s = (true, s.insert false skb) := by
  have disabled : ¬ s.queue.enabled = 0 := fun h => inserts (Or.inl h)
  have full : ¬ txQueueLen ≤ s.queue.size.toInt64.toUInt64 := fun h => inserts (Or.inr h)
  simp [sendSection, disabled, full, insertSection_exec]

/-- The lock section of net_dev_send, which also counts a dropped packet. -/
theorem sendSection_exec (w : World) (skb : Addr) (txQueueLen : UInt64) :
    (sendSection skb txQueueLen).exec ⟨w.mem, w.queue⟩ =
      ((netDevSendSection w skb txQueueLen).2, ⟨(netDevSendSection w skb txQueueLen).1.mem,
        (netDevSendSection w skb txQueueLen).1.queue⟩) := by
  by_cases drops : SendDrops w.queue txQueueLen
  · rw [netDevSendSection_drops drops, sendSection_drops drops]
    rfl
  · rw [netDevSendSection_inserts drops, sendSection_inserts drops, apply_insert]
    rfl

end Exec

section Unaffected

variable (fill : Fill)

theorem fill_next (s : QueueState) (x : Addr) : (fill.apply s).mem.next x = s.mem.next x := by
  by_cases same : x = fill.skb
  · subst same
    simp [Fill.apply, SkbMem.next]
  · simp [Fill.apply, SkbMem.next, same]

theorem fill_setNextPkt (s : QueueState) (via : Via) (pkt nextpkt : Addr) :
    (fill.apply s).mem.setNextPkt via pkt nextpkt =
      (fill.apply { s with mem := s.mem.setNextPkt via pkt nextpkt }).mem := by
  simp only [Fill.apply, SkbMem.setNextPkt, SkbMem.mk.injEq, and_true]
  by_cases same : pkt = fill.skb
  · subst same
    simp
  · rw [Function.update_comm same]
    simp [same, Ne.symm same]

theorem storeNext_unaffected (via : Via) (pkt nextpkt : Addr) :
    (storeNext via pkt nextpkt).Unaffected fill.apply :=
  unaffected_store fun s =>
    congrArg (QueueState.mk · s.queue) (fill_setNextPkt fill s via pkt nextpkt)

theorem loadNext_unaffected (via : Via) (pkt : Addr) :
    (loadNext via pkt).Unaffected fill.apply :=
  ⟨fun _ => rfl, fun s => congrArg Prog.ret (fill_next fill s pkt), fun _ => trivial⟩

theorem insertSection_unaffected (buf : Addr) : (insertSection buf).Unaffected fill.apply := by
  have linked : (linkSection buf).Unaffected fill.apply := by
    refine unaffected_bind (unaffected_load fun _ => rfl) fun head => unaffected_ite ?_ ?_
    · exact unaffected_bind (unaffected_store fun _ => rfl) fun _ => unaffected_store fun _ => rfl
    · refine unaffected_bind (unaffected_load fun _ => rfl) fun tail => unaffected_bind ?_ ?_
      · exact storeNext_unaffected fill .tail tail buf
      · exact fun _ => unaffected_store fun _ => rfl
  refine unaffected_bind (storeNext_unaffected fill .buf buf NULL) fun _ => ?_
  refine unaffected_bind linked fun _ => ?_
  exact unaffected_bind (unaffected_load fun _ => rfl) fun _ => unaffected_store fun _ => rfl

theorem removeSection_unaffected : removeSection.Unaffected fill.apply := by
  refine unaffected_bind (unaffected_load fun _ => rfl) fun head => unaffected_ite ?_ ?_
  · refine unaffected_bind (unaffected_load fun _ => rfl) fun buf => ?_
    refine unaffected_bind (unaffected_load fun _ => rfl) fun first => ?_
    refine unaffected_bind (loadNext_unaffected fill .head first) fun next => ?_
    refine unaffected_bind (unaffected_store fun _ => rfl) fun _ => ?_
    refine unaffected_bind (storeNext_unaffected fill .buf buf NULL) fun _ => ?_
    refine unaffected_bind (unaffected_load fun _ => rfl) fun size => ?_
    exact unaffected_bind (unaffected_store fun _ => rfl) fun _ => unaffected_pure _ buf
  · exact unaffected_pure _ NULL

theorem flushSection_unaffected (fuel : Nat) (flushed : Int32) :
    (flushSection fuel flushed).Unaffected fill.apply := by
  induction fuel generalizing flushed with
  | zero => exact unaffected_pure _ none
  | succ fuel ih =>
    refine unaffected_bind (removeSection_unaffected fill) fun skb => unaffected_ite ?_ ?_
    · exact unaffected_pure _ (some flushed)
    · exact unaffected_bind (unaffected_store fun _ => rfl) fun _ => ih (flushed + 1)

theorem sendSection_unaffected (skb : Addr) (txQueueLen : UInt64) :
    (sendSection skb txQueueLen).Unaffected fill.apply := by
  have drops : (dropSection skb).Unaffected fill.apply :=
    unaffected_bind (unaffected_store fun _ => rfl) fun _ => unaffected_pure _ false
  refine unaffected_bind (unaffected_load fun _ => rfl) fun enabled => unaffected_ite drops ?_
  refine unaffected_bind (unaffected_load fun _ => rfl) fun size => unaffected_ite drops ?_
  exact unaffected_bind (insertSection_unaffected fill skb) fun _ => unaffected_pure _ true

/-- A buffer may be filled at any moment of any section. -/
theorem body_unaffected (call : SectionCall) : call.body.Unaffected fill.apply := by
  cases call with
  | queueInsert buf =>
    exact unaffected_bind (insertSection_unaffected fill buf) fun _ => unaffected_pure _ _
  | queueRemove =>
    exact unaffected_bind (removeSection_unaffected fill) fun buf => unaffected_pure _ _
  | queueEnable enable =>
    exact unaffected_bind (unaffected_store fun _ => rfl) fun _ => unaffected_pure _ _
  | netDevFlushTxQueue fuel =>
    exact unaffected_bind (flushSection_unaffected fill fuel 0) fun _ => unaffected_pure _ _
  | netDevSend skb txQueueLen =>
    exact unaffected_bind (sendSection_unaffected fill skb txQueueLen) fun _ => unaffected_pure _ _
  | isQueueEnabled | queueIsEmpty | queueLen =>
    exact unaffected_bind (unaffected_load fun _ => rfl) fun _ => unaffected_pure _ _

end Unaffected

/-- A switch and a list, oldest first. -/
structure Fifo where
  enabled : Int32
  queued : List Addr
  deriving DecidableEq

namespace Fifo

def empty : Fifo := ⟨0, []⟩

/-- A buffer that the caller may insert. -/
def Accepts (f : Fifo) (buf : Addr) : Prop :=
  buf ≠ NULL ∧ buf ∉ f.queued ∧ f.queued.length < 2 ^ 31 - 1

instance (f : Fifo) (buf : Addr) : Decidable (f.Accepts buf) :=
  inferInstanceAs (Decidable (_ ∧ _))

def push (f : Fifo) (buf : Addr) : Fifo := { f with queued := f.queued ++ [buf] }

/-- A call with its answer; none when the caller breaks the contract. -/
def call (f : Fifo) : SectionCall → Option (Answer × Fifo)
  | .queueInsert buf => if f.Accepts buf then some (.done, f.push buf) else none
  | .queueRemove => some (.buf (f.queued.headD NULL), { f with queued := f.queued.tail })
  | .queueEnable enable => some (.done, { f with enabled := enable })
  | .isQueueEnabled => some (.int f.enabled, f)
  | .queueIsEmpty => some (.int (if f.queued = [] then 1 else 0), f)
  | .queueLen => some (.int (Int32.ofNat f.queued.length), f)
  | .netDevFlushTxQueue fuel =>
    if f.queued.length < fuel then
      some (.flushed (some (Int32.ofNat f.queued.length)), { f with queued := [] })
    else none
  | .netDevSend skb txQueueLen =>
    if f.enabled = 0 ∨ txQueueLen.toNat ≤ f.queued.length then some (.inserted false, f)
    else if f.Accepts skb then some (.inserted true, f.push skb)
    else none

/-- Calls one after another, with their answers. -/
def play : Fifo → List SectionCall → Option (List Answer × Fifo)
  | f, [] => some ([], f)
  | f, c :: rest =>
    (f.call c).bind fun (r, g) => (g.play rest).map fun (answers, h) => (r :: answers, h)

theorem play_cons {f h : Fifo} {c : SectionCall} {rest : List SectionCall} {answers : List Answer}
    (legal : f.play (c :: rest) = some (answers, h)) :
    ∃ r g later, f.call c = some (r, g) ∧ g.play rest = some (later, h) ∧ answers = r :: later := by
  obtain ⟨⟨r, g⟩, first, others⟩ := Option.bind_eq_some_iff.mp legal
  obtain ⟨⟨later, h'⟩, second, same⟩ := Option.map_eq_some_iff.mp others
  obtain ⟨rfl, rfl⟩ := Prod.mk.inj same
  exact ⟨r, g, later, first, second, rfl⟩

end Fifo

structure Follows (s : QueueState) (f : Fifo) : Prop where
  represents : Represents s.mem s.queue f.queued
  enabled : s.queue.enabled = f.enabled
  fits : f.queued.length < 2 ^ 31

theorem init_follows (m : SkbMem) (q : Queue) : Follows ⟨m, queueInit q⟩ Fifo.empty :=
  ⟨Represents.init m q, rfl, by decide⟩

section Follows

variable {s : QueueState} {f g : Fifo}

theorem fill_follows (h : Follows s f) (fill : Fill) : Follows (fill.apply s) f :=
  ⟨h.represents.congr fun x _ => (fill_next fill s x).symm, h.enabled, h.fits⟩

theorem insert_follows (h : Follows s f) {buf : Addr} (accepts : f.Accepts buf) :
    Follows (s.insert false buf) (f.push buf) := by
  obtain ⟨valid, fresh, room⟩ := accepts
  rw [apply_insert]
  refine ⟨queueInsert_represents h.represents valid fresh, ?_, ?_⟩
  · exact (queueInsert_enabled s.mem s.queue buf).trans h.enabled
  · simp only [Fifo.push, List.length_append, List.length_singleton]
    omega

theorem remove_follows (h : Follows s f) : (s.remove false).1 = f.queued.headD NULL ∧
    Follows (s.remove false).2 { f with queued := f.queued.tail } := by
  have returned := remove_returns h.represents false
  have kept : Represents (s.apply (.remove false)).mem (s.apply (.remove false)).queue
      f.queued.tail := apply_represents h.represents rfl
  refine ⟨returned.oldest, kept, ?_, ?_⟩
  · rw [apply_remove]
    exact (queueRemove_enabled s.mem s.queue).trans h.enabled
  · have fits := h.fits
    simp only [List.length_tail]
    omega

theorem drops_iff (h : Follows s f) (txQueueLen : UInt64) :
    SendDrops s.queue txQueueLen ↔ f.enabled = 0 ∨ txQueueLen.toNat ≤ f.queued.length := by
  rw [SendDrops, __isQueueEnabled, h.enabled, UInt64.le_iff_toNat_le, __queueLen,
    h.represents.size, queueLen_compared h.fits]

theorem flush_follows (h : Follows s f) {fuel : Nat} (enough : f.queued.length < fuel) :
    ((flushSection fuel 0).exec s).1 = some (Int32.ofNat f.queued.length) ∧
      Follows ((flushSection fuel 0).exec s).2 { f with queued := [] } := by
  obtain ⟨m, q, hloop, drained⟩ := flushLoop_terminates h.represents enough 0
  rw [flushSection_exec s fuel 0 _ m q hloop, Int32.zero_add]
  exact ⟨rfl, drained.empty, drained.enabled.trans h.enabled, by simp⟩

theorem send_follows (h : Follows s f) {skb : Addr} {txQueueLen : UInt64} {r : Answer}
    (legal : f.call (.netDevSend skb txQueueLen) = some (r, g)) :
    .inserted ((sendSection skb txQueueLen).exec s).1 = r ∧
      Follows ((sendSection skb txQueueLen).exec s).2 g := by
  simp only [Fifo.call] at legal
  by_cases drops : SendDrops s.queue txQueueLen
  · rw [if_pos ((drops_iff h txQueueLen).mp drops)] at legal
    obtain ⟨rfl, rfl⟩ := Prod.mk.inj (Option.some.inj legal)
    rw [sendSection_drops drops]
    exact ⟨rfl, h.represents.kfree skb, h.enabled, h.fits⟩
  · rw [if_neg fun full => drops ((drops_iff h txQueueLen).mpr full)] at legal
    obtain ⟨accepts, same⟩ := Option.ite_none_right_eq_some.mp legal
    obtain ⟨rfl, rfl⟩ := Prod.mk.inj (Option.some.inj same)
    rw [sendSection_inserts drops]
    exact ⟨rfl, insert_follows h accepts⟩

/-- A section run at once answers as the abstract queue does. -/
theorem call_follows (h : Follows s f) {call : SectionCall} {r : Answer}
    (legal : f.call call = some (r, g)) :
    (call.body.exec s).1 = r ∧ Follows (call.body.exec s).2 g := by
  cases call with
  | queueInsert buf =>
    obtain ⟨accepts, same⟩ := Option.ite_none_right_eq_some.mp legal
    obtain ⟨rfl, rfl⟩ := Prod.mk.inj (Option.some.inj same)
    simp only [SectionCall.body, exec_bind, insertSection_exec, exec_pure]
    exact ⟨trivial, insert_follows h accepts⟩
  | queueRemove =>
    obtain ⟨rfl, rfl⟩ := Prod.mk.inj (Option.some.inj legal)
    obtain ⟨oldest, rest⟩ := remove_follows h
    simp only [SectionCall.body, exec_bind, removeSection_exec, exec_pure]
    exact ⟨congrArg Answer.buf oldest, rest⟩
  | queueEnable enable =>
    obtain ⟨rfl, rfl⟩ := Prod.mk.inj (Option.some.inj legal)
    exact ⟨rfl, h.represents.enable enable, rfl, h.fits⟩
  | isQueueEnabled =>
    obtain ⟨rfl, rfl⟩ := Prod.mk.inj (Option.some.inj legal)
    exact ⟨congrArg Answer.int h.enabled, h⟩
  | queueIsEmpty =>
    obtain ⟨rfl, rfl⟩ := Prod.mk.inj (Option.some.inj legal)
    have fits := h.fits
    have drained := h.represents.size_eq_zero_iff (by omega)
    refine ⟨?_, h⟩
    simp only [SectionCall.body, exec_bind, exec_loadSize, exec_pure, drained]
  | queueLen =>
    obtain ⟨rfl, rfl⟩ := Prod.mk.inj (Option.some.inj legal)
    exact ⟨congrArg Answer.int h.represents.size, h⟩
  | netDevFlushTxQueue fuel =>
    obtain ⟨enough, same⟩ := Option.ite_none_right_eq_some.mp legal
    obtain ⟨rfl, rfl⟩ := Prod.mk.inj (Option.some.inj same)
    obtain ⟨count, drained⟩ := flush_follows h enough
    simp only [SectionCall.body, exec_bind, exec_pure]
    exact ⟨congrArg Answer.flushed count, drained⟩
  | netDevSend skb txQueueLen =>
    simp only [SectionCall.body, exec_bind, exec_pure]
    exact send_follows h legal

end Follows

/-- Sections one after another, with buffers filled in between. -/
theorem history_follows {s t : QueueState} {f g : Fifo}
    {history : List (Entry SectionCall Fill Answer)} {answers : List Answer} (h : Follows s f)
    (replays : Execution.run (serialStep (fun c => (SectionCall.body c).exec) Fill.apply) s
      history = some t)
    (legal : f.play ((history.filterMap Entry.completed).map Prod.fst) = some (answers, g)) :
    (history.filterMap Entry.completed).map Prod.snd = answers ∧ Follows t g := by
  induction history generalizing s f answers with
  | nil =>
    obtain rfl := Option.some.inj replays
    obtain ⟨rfl, rfl⟩ := Prod.mk.inj (Option.some.inj legal)
    exact ⟨rfl, h⟩
  | cons entry history ih =>
    obtain ⟨u, first, rest⟩ := Execution.run_cons_some replays
    cases entry with
    | done c r =>
      obtain ⟨returns, same⟩ := Option.ite_none_right_eq_some.mp first
      obtain rfl := Option.some.inj same
      obtain ⟨r', f', later, called, played, rfl⟩ := Fifo.play_cons legal
      obtain ⟨answer, after⟩ := call_follows h called
      obtain ⟨others, final⟩ := ih after rest played
      refine ⟨?_, final⟩
      rw [← answer, ← others, returns]
      rfl
    | outside fill =>
      obtain rfl := Option.some.inj first
      exact ih (fill_follows h fill) rest legal

/-- Whatever the threads in the queue's functions and in the two sections of the
interface do between their accesses, at most one of them is inside, they answer
in the order of their releases what the abstract queue answers, the queue is the
abstract one whenever the lock is free and will be once the thread inside is
through, and some thread can go on. -/
theorem sections_refine_fifo (m₀ : SkbMem) (q₀ : Queue)
    (actions : List (LockSection.Action SectionCall Fill))
    (s : Shared SectionCall Fill QueueState Answer) (answers : List Answer) (f : Fifo)
    (h : Execution.run (step SectionCall.body Fill.apply) (Shared.fresh ⟨m₀, queueInit q₀⟩)
      actions = some s)
    (legal : Fifo.empty.play (s.completed.map Prod.fst) = some (answers, f)) :
    s.completed.map Prod.snd = answers ∧
    s.inside.length = (if s.locked then 1 else 0) ∧
    (s.locked = false → Follows s.state f) ∧
    (∀ c rest, (c, rest) ∈ s.inside → ∀ r g, f.call c = some (r, g) →
      (rest.exec s.state).1 = r ∧ Follows (rest.exec s.state).2 g) ∧
    (s.threads ≠ [] → ∃ k a, (a = .acquire k ∨ a = .access k ∨ a = .release k) ∧
      (step SectionCall.body Fill.apply s a).isSome = true) := by
  obtain ⟨before, serial⟩ := run_serial (fun fill c => body_unaffected fill c) h
  obtain ⟨answered, follows⟩ := history_follows (init_follows m₀ q₀) serial.replays legal
  refine ⟨answered, ?_, fun unlocked => ?_, fun c rest running r g called => ?_,
    serial_progress serial⟩
  · cases locked : s.locked with
    | false => rw [(serial.free locked).1]; rfl
    | true =>
      obtain ⟨c, rest, one, _⟩ := serial.held locked
      rw [one]
      rfl
  · rw [(serial.free unlocked).2]
    exact follows
  · cases locked : s.locked with
    | false =>
      rw [(serial.free locked).1] at running
      cases running
    | true =>
      obtain ⟨c', rest', one, ends, _⟩ := serial.held locked
      rw [one] at running
      obtain ⟨rfl, rfl⟩ := Prod.mk.inj (List.mem_singleton.mp running)
      rw [ends]
      exact call_follows follows called

/-- A sender and a reader reach the lock together; while the sender is linking
its buffer, the network stack fills another. -/
def sendAgainstRead : Option (Shared SectionCall Fill QueueState Answer) :=
  Execution.run (step SectionCall.body Fill.apply)
    (Shared.fresh ⟨⟨fun _ => ⟨9, []⟩, []⟩, queueInit ⟨7, 7, 7, 7⟩⟩)
    [.call (.queueEnable 1), .acquire 0, .access 0, .release 0, .call (.netDevSend 1 256),
      .call .queueRemove, .acquire 0, .access 0, .access 0, .access 0, .access 0,
      .outside ⟨2, [0xbb]⟩, .access 0, .access 0, .access 0, .access 0, .release 0, .acquire 0]

theorem sendAgainstRead_plays :
    (sendAgainstRead.bind fun s => Fifo.empty.play (s.completed.map Prod.fst)) =
      some ([.done, .inserted true], ⟨1, [1]⟩) := by
  decide +kernel

theorem sections_refine_fifo_sendAgainstRead : ∃ s, sendAgainstRead = some s ∧
    s.completed.map Prod.snd = [.done, .inserted true] ∧
    s.inside.length = (if s.locked then 1 else 0) := by
  obtain ⟨s, runs, plays⟩ := Option.bind_eq_some_iff.mp sendAgainstRead_plays
  obtain ⟨answered, one, _⟩ := sections_refine_fifo _ _ _ s _ _ runs plays
  exact ⟨s, runs, answered, one⟩

end Kvnet
