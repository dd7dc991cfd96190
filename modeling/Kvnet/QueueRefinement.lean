import Kvnet.Execution
import Kvnet.ListSegment
import Kvnet.Queue

/-!
# The queue is a FIFO list

`Represents m q xs` is the shape of the queue: the chain from q->head visits
exactly xs and ends in NULL, a nonempty chain ends in q->tail, and q->size
counts xs in 32 bits. A drained queue keeps its last tail; nothing is said
about it, because nothing reads it before the next insertion sets it again.
-/

namespace Kvnet

open ListSegment

structure Represents (m : SkbMem) (q : Queue) (xs : List Addr) : Prop where
  chain : Seg m.next q.head xs NULL
  nodup : xs.Nodup
  valid : NULL ∉ xs
  tail : ∀ h : xs ≠ [], q.tail = xs.getLast h
  size : q.size = Int32.ofNat xs.length

namespace Represents

variable {m : SkbMem} {q : Queue} {xs : List Addr}

theorem head_eq_null_iff (h : Represents m q xs) : q.head = NULL ↔ xs = [] :=
  seg_nil_iff h.valid h.chain

theorem first_valid {x : Addr} (h : Represents m q (x :: xs)) : x ≠ NULL :=
  fun same => h.valid (same ▸ List.mem_cons_self)

theorem unique {ys : List Addr} (h : Represents m q xs) (h' : Represents m q ys) : xs = ys :=
  seg_unique h.valid h'.valid h.chain h'.chain

/-- Only the next fields of the queued buffers matter. -/
theorem congr {m' : SkbMem} (agree : ∀ x ∈ xs, m.next x = m'.next x)
    (h : Represents m q xs) : Represents m' q xs :=
  ⟨seg_congr agree h.chain, h.nodup, h.valid, h.tail, h.size⟩

theorem size_toInt (h : Represents m q xs) (fits : xs.length < 2 ^ 31) :
    q.size.toInt = xs.length := by
  rw [h.size, Int32.toInt_ofNat_of_lt fits]

/-- The 32-bit counter is zero only for an empty chain, short of 2^32 buffers. -/
theorem size_eq_zero_iff (h : Represents m q xs) (fits : xs.length < 2 ^ 32) :
    q.size = 0 ↔ xs = [] := by
  rw [h.size]
  constructor
  · intro zero
    have bits : (Int32.ofNat xs.length).toBitVec = (0 : Int32).toBitVec := by rw [zero]
    have count : xs.length % 2 ^ 32 = 0 := by
      have := congrArg BitVec.toNat bits
      simpa using this
    have empty : xs.length = 0 := by omega
    exact List.length_eq_zero_iff.mp empty
  · rintro rfl
    rfl

theorem init (m : SkbMem) (q : Queue) : Represents m (queueInit q) [] where
  chain := rfl
  nodup := List.nodup_nil
  valid := List.not_mem_nil
  tail := fun h => False.elim (h rfl)
  size := rfl

theorem enable (h : Represents m q xs) (enable : Int32) :
    Represents m (queueEnable q enable) xs :=
  ⟨h.chain, h.nodup, h.valid, h.tail, h.size⟩

theorem kfree (h : Represents m q xs) (skb : Addr) : Represents (m.kfreeSkb skb) q xs :=
  congr (m := m) (fun _ _ => rfl) h

theorem pass (h : Represents m q xs) (skb : Addr) : Represents (m.pass skb) q xs :=
  congr (m := m) (fun _ _ => rfl) h

theorem load (h : Represents m q xs) (via : Via) (skb : Addr) :
    Represents (m.loadSkb via skb).2 q xs :=
  congr (m := m) (fun _ _ => rfl) h

end Represents

section Insert

variable {m : SkbMem} {q : Queue} {xs : List Addr} {buf : Addr}

theorem queueInsert_empty (h : Represents m q []) :
    __queueInsert m q buf = (m.setNextPkt .buf buf NULL,
      { q with head := buf, tail := buf, size := q.size + 1 }) := by
  have empty : q.head = NULL := h.head_eq_null_iff.mpr rfl
  simp only [__queueInsert, if_pos empty]

theorem queueInsert_nonempty (h : Represents m q xs) (hne : xs ≠ []) :
    __queueInsert m q buf = ((m.setNextPkt .buf buf NULL).setNextPkt .tail q.tail buf,
      { q with tail := buf, size := q.size + 1 }) := by
  have nonempty : q.head ≠ NULL := fun empty => hne (h.head_eq_null_iff.mp empty)
  simp only [__queueInsert, if_neg nonempty]

/-- Insertion appends to the list it represents. -/
theorem queueInsert_represents (h : Represents m q xs) (valid : buf ≠ NULL) (fresh : buf ∉ xs) :
    Represents (__queueInsert m q buf).1 (__queueInsert m q buf).2 (xs ++ [buf]) := by
  have distinct : (xs ++ [buf]).Nodup := by
    refine List.nodup_append.mpr ⟨h.nodup, List.nodup_singleton buf, ?_⟩
    intro x hx y hy same
    exact fresh (List.mem_singleton.mp hy ▸ same ▸ hx)
  have nonnull : NULL ∉ xs ++ [buf] := by
    intro hmem
    rcases List.mem_append.mp hmem with old | new
    · exact h.valid old
    · exact valid (List.mem_singleton.mp new).symm
  have count : q.size + 1 = Int32.ofNat (xs ++ [buf]).length := by
    rw [List.length_append, List.length_singleton, Int32.ofNat_add, h.size]
    rfl
  by_cases hne : xs = []
  · subst hne
    rw [queueInsert_empty h]
    refine ⟨⟨rfl, ?_⟩, distinct, nonnull, fun _ => rfl, count⟩
    simp [Seg]
  · rw [queueInsert_nonempty h hne]
    refine ⟨?_, distinct, nonnull, fun _ => List.getLast_append_singleton xs |>.symm, count⟩
    -- split off the old last cell: it is the one redirected to buf
    have parts : xs.dropLast ++ [xs.getLast hne] = xs := List.dropLast_append_getLast hne
    have lastMem : xs.getLast hne ∈ xs := List.getLast_mem hne
    have lastFresh : xs.getLast hne ∉ xs.dropLast := by
      have hn := h.nodup
      rw [← parts] at hn
      intro hmem
      exact (List.nodup_append.mp hn).2.2 _ hmem _ (List.mem_singleton.mpr rfl) rfl
    have terminated : Seg (Function.update m.next buf NULL) q.head
        (xs.dropLast ++ [xs.getLast hne]) NULL := by
      rw [parts]
      exact seg_frame fresh h.chain
    have linked := seg_redirect (c := buf) lastFresh terminated
    rw [parts] at linked
    simp only [SkbMem.setNextPkt_next, h.tail hne]
    refine seg_append_iff.mpr ⟨buf, linked, rfl, ?_⟩
    have apart : buf ≠ xs.getLast hne := by intro same; exact fresh (same ▸ lastMem)
    rw [Function.update_of_ne apart, Function.update_self]
    rfl

theorem queueInsert_log (h : Represents m q xs) :
    (__queueInsert m q buf).1.log = m.log ++ .store .buf buf ::
      (if hne : xs = [] then [] else [.store .tail (xs.getLast hne)]) := by
  by_cases hne : xs = []
  · subst hne
    rw [queueInsert_empty h]
    simp
  · rw [queueInsert_nonempty h hne, h.tail hne]
    simp [hne]

/-- Only the inserted buffer and the old last one are written. -/
theorem queueInsert_frame (h : Represents m q xs) {x : Addr} (other : x ≠ buf) (outside : x ∉ xs) :
    (__queueInsert m q buf).1.next x = m.next x := by
  by_cases hne : xs = []
  · subst hne
    rw [queueInsert_empty h, SkbMem.setNextPkt_next, Function.update_of_ne other]
  · have hlast : x ≠ q.tail := by
      intro same
      rw [h.tail hne] at same
      exact outside (same ▸ List.getLast_mem hne)
    rw [queueInsert_nonempty h hne, SkbMem.setNextPkt_next, Function.update_of_ne hlast,
      SkbMem.setNextPkt_next, Function.update_of_ne other]

@[simp] theorem queueInsert_enabled (m : SkbMem) (q : Queue) (buf : Addr) :
    (__queueInsert m q buf).2.enabled = q.enabled := by
  unfold __queueInsert
  split <;> rfl

@[simp] theorem queueInsert_data (m : SkbMem) (q : Queue) (buf x : Addr) :
    ((__queueInsert m q buf).1.cell x).data = (m.cell x).data := by
  unfold __queueInsert
  split <;> simp

end Insert

section Remove

variable {m : SkbMem} {q : Queue} {x : Addr} {xs : List Addr}

theorem queueRemove_empty (h : Represents m q []) : __queueRemove m q = (NULL, m, q) := by
  have empty : q.head = NULL := h.head_eq_null_iff.mpr rfl
  simp [__queueRemove, empty]

theorem queueRemove_cons (h : Represents m q (x :: xs)) :
    __queueRemove m q = (x, (m.getNextPkt .head x).2.setNextPkt .buf x NULL,
      { q with head := m.next x, size := q.size - 1 }) := by
  have first : q.head = x := h.chain.1
  have nonempty := h.first_valid
  simp [__queueRemove, first, nonempty, SkbMem.getNextPkt]

/-- Removal takes the first element of the list. -/
theorem queueRemove_represents (h : Represents m q (x :: xs)) :
    Represents (__queueRemove m q).2.1 (__queueRemove m q).2.2 xs := by
  have fresh : x ∉ xs := (List.nodup_cons.mp h.nodup).1
  rw [queueRemove_cons h]
  refine ⟨?_, (List.nodup_cons.mp h.nodup).2, fun hx => h.valid (List.mem_cons_of_mem x hx), ?_, ?_⟩
  · simp only [SkbMem.setNextPkt_next]
    exact seg_frame fresh h.chain.2
  · intro hne
    exact (h.tail (List.cons_ne_nil x xs)).trans (List.getLast_cons hne)
  · have count := h.size
    rw [List.length_cons, Int32.ofNat_add] at count
    change q.size - 1 = _
    rw [count]
    exact Int32.add_sub_cancel _ _

theorem queueRemove_log (h : Represents m q (x :: xs)) :
    (__queueRemove m q).2.1.log = m.log ++ [.load .head x, .store .buf x] := by
  rw [queueRemove_cons h]
  simp [SkbMem.getNextPkt]

theorem queueRemove_frame (h : Represents m q (x :: xs)) {y : Addr} (other : y ≠ x) :
    (__queueRemove m q).2.1.next y = m.next y := by
  rw [queueRemove_cons h]
  simp only [SkbMem.setNextPkt_next, Function.update_of_ne other]
  rfl

/-- The buffer handed out is unlinked. -/
theorem queueRemove_next (h : Represents m q (x :: xs)) :
    (__queueRemove m q).2.1.next x = NULL := by
  rw [queueRemove_cons h]
  simp

@[simp] theorem queueRemove_enabled (m : SkbMem) (q : Queue) :
    (__queueRemove m q).2.2.enabled = q.enabled := by
  unfold __queueRemove
  split <;> rfl

@[simp] theorem queueRemove_data (m : SkbMem) (q : Queue) (x : Addr) :
    ((__queueRemove m q).2.1.cell x).data = (m.cell x).data := by
  unfold __queueRemove
  split
  · simp [SkbMem.getNextPkt]
  · rfl

end Remove

section Flush

/-- What draining logs for each buffer: unlinked at the head, then freed. -/
def drainLog (xs : List Addr) : List SkbEvent :=
  xs.flatMap fun x => [.load .head x, .store .buf x, .free x]

theorem drainLog_cons (x : Addr) (xs : List Addr) :
    drainLog (x :: xs) = .load .head x :: .store .buf x :: .free x :: drainLog xs := rfl

theorem drainLog_freed (xs : List Addr) : (drainLog xs).filterMap SkbEvent.freed = xs := by
  induction xs with
  | nil => rfl
  | cons x xs ih =>
    rw [drainLog_cons]
    exact congrArg (List.cons x) ih

/-- The state a drained queue is left in. -/
structure Drained (m : SkbMem) (q : Queue) (xs : List Addr) (m' : SkbMem) (q' : Queue) :
    Prop where
  empty : Represents m' q' []
  log : m'.log = m.log ++ drainLog xs
  frame : ∀ y, y ∉ xs → m'.next y = m.next y
  data : ∀ y, (m'.cell y).data = (m.cell y).data
  enabled : q'.enabled = q.enabled

theorem Drained.freed {m m' : SkbMem} {q q' : Queue} {xs : List Addr}
    (h : Drained m q xs m' q') : m'.freed = m.freed ++ xs := by
  rw [SkbMem.freed, h.log, List.filterMap_append, drainLog_freed]
  rfl

theorem drained_nil {m : SkbMem} {q : Queue} (h : Represents m q []) : Drained m q [] m q :=
  ⟨h, by simp [drainLog], fun _ _ => rfl, fun _ => rfl, rfl⟩

theorem drained_cons {m m' : SkbMem} {q q' : Queue} {x : Addr} {xs : List Addr}
    (h : Represents m q (x :: xs))
    (rest : Drained ((__queueRemove m q).2.1.kfreeSkb x) (__queueRemove m q).2.2 xs m' q') :
    Drained m q (x :: xs) m' q' where
  empty := rest.empty
  log := by
    rw [rest.log, SkbMem.kfreeSkb_log, queueRemove_log h, drainLog_cons]
    simp
  frame := by
    intro y hy
    have other : y ≠ x := fun same => hy (same ▸ List.mem_cons_self)
    rw [rest.frame y (fun hmem => hy (List.mem_cons_of_mem x hmem)), SkbMem.kfreeSkb_next,
      queueRemove_frame h other]
  data := fun y => (rest.data y).trans (queueRemove_data m q y)
  enabled := rest.enabled.trans (queueRemove_enabled m q)

theorem flushLoop_nil {m : SkbMem} {q : Queue} (h : Represents m q []) (fuel : Nat)
    (flushed : Int32) : flushLoop (fuel + 1) m q flushed = some (m, q, flushed) := by
  simp only [flushLoop, queueRemove_empty h, if_pos]

theorem flushLoop_cons {m : SkbMem} {q : Queue} {x : Addr} {xs : List Addr}
    (h : Represents m q (x :: xs)) (fuel : Nat) (flushed : Int32) :
    flushLoop (fuel + 1) m q flushed =
      flushLoop fuel ((__queueRemove m q).2.1.kfreeSkb x) (__queueRemove m q).2.2
        (flushed + 1) := by
  have nonempty := h.first_valid
  have first : (__queueRemove m q).1 = x := by rw [queueRemove_cons h]
  simp only [flushLoop, first, if_neg nonempty]

/-- The flush loop ends as soon as it has more rounds than buffers. -/
theorem flushLoop_terminates {m : SkbMem} {q : Queue} {xs : List Addr} {fuel : Nat}
    (h : Represents m q xs) (enough : xs.length < fuel) (flushed : Int32) :
    ∃ m' q', flushLoop fuel m q flushed = some (m', q', flushed + Int32.ofNat xs.length) ∧
      Drained m q xs m' q' := by
  induction xs generalizing m q fuel flushed with
  | nil =>
    obtain ⟨fuel, rfl⟩ : ∃ n, fuel = n + 1 := ⟨fuel - 1, by simp at enough; omega⟩
    exact ⟨m, q, by rw [flushLoop_nil h]; simp, drained_nil h⟩
  | cons x xs ih =>
    obtain ⟨fuel, rfl⟩ : ∃ n, fuel = n + 1 := ⟨fuel - 1, by simp at enough; omega⟩
    obtain ⟨m', q', hloop, hrest⟩ := ih ((queueRemove_represents h).kfree x)
      (by simpa using enough) (flushed + 1)
    refine ⟨m', q', ?_, drained_cons h hrest⟩
    have count : flushed + 1 + Int32.ofNat xs.length =
        flushed + Int32.ofNat (x :: xs).length := by
      rw [List.length_cons, Int32.ofNat_add, Int32.add_assoc,
        Int32.add_comm 1 (Int32.ofNat xs.length)]
      rfl
    rw [flushLoop_cons h, hloop, count]

/-- Whenever the flush loop ends, it has drained the queue. -/
theorem flushLoop_drained {m m' : SkbMem} {q q' : Queue} {xs : List Addr} {fuel : Nat}
    {flushed flushed' : Int32} (h : Represents m q xs)
    (ends : flushLoop fuel m q flushed = some (m', q', flushed')) :
    flushed' = flushed + Int32.ofNat xs.length ∧ Drained m q xs m' q' := by
  induction fuel generalizing m q xs flushed with
  | zero => simp [flushLoop] at ends
  | succ fuel ih =>
    cases xs with
    | nil =>
      rw [flushLoop_nil h] at ends
      simp only [Option.some.injEq, Prod.mk.injEq] at ends
      obtain ⟨rfl, rfl, rfl⟩ := ends
      exact ⟨by simp, drained_nil h⟩
    | cons x xs =>
      rw [flushLoop_cons h] at ends
      obtain ⟨count, rest⟩ := ih ((queueRemove_represents h).kfree x) ends
      refine ⟨?_, drained_cons h rest⟩
      rw [count, List.length_cons, Int32.ofNat_add, Int32.add_assoc,
        Int32.add_comm 1 (Int32.ofNat xs.length)]
      rfl

end Flush

/-- A call on the queue; `held` says that the caller already holds the lock and
uses the `__` form. Memory outside the queue may be reused for anything. -/
inductive QueueOp where
  | insert (held : Bool) (buf : Addr)
  | remove (held : Bool)
  | outside (skb : Addr) (cell : SkBuff)

structure QueueState where
  mem : SkbMem
  queue : Queue

def QueueState.insert (s : QueueState) (held : Bool) (buf : Addr) : QueueState :=
  let (m, q) := if held then __queueInsert s.mem s.queue buf else queueInsert s.mem s.queue buf
  ⟨m, q⟩

def QueueState.remove (s : QueueState) (held : Bool) : Addr × QueueState :=
  let (buf, m, q) := if held then __queueRemove s.mem s.queue else queueRemove s.mem s.queue
  (buf, ⟨m, q⟩)

def QueueState.apply (s : QueueState) : QueueOp → QueueState
  | .insert held buf => s.insert held buf
  | .remove held => (s.remove held).2
  | .outside skb cell =>
    { s with mem := { s.mem with cell := Function.update s.mem.cell skb cell } }

/-- The specification: a list, oldest first. A step is refused when the caller
breaks the contract of the queue. -/
def fifoStep (xs : List Addr) : QueueOp → Option (List Addr)
  | .insert _ buf =>
    if buf ≠ NULL ∧ buf ∉ xs ∧ xs.length < 2 ^ 31 - 1 then some (xs ++ [buf]) else none
  | .remove _ => some xs.tail
  | .outside skb _ => if skb ∉ xs then some xs else none

theorem apply_insert (s : QueueState) (held : Bool) (buf : Addr) :
    s.insert held buf =
      ⟨(__queueInsert s.mem s.queue buf).1, (__queueInsert s.mem s.queue buf).2⟩ := by
  cases held <;> rfl

theorem apply_remove (s : QueueState) (held : Bool) :
    s.remove held = ((__queueRemove s.mem s.queue).1,
      ⟨(__queueRemove s.mem s.queue).2.1, (__queueRemove s.mem s.queue).2.2⟩) := by
  cases held <;> rfl

/-- One step of the code follows one step of the specification. -/
theorem apply_represents {s : QueueState} {xs ys : List Addr} {op : QueueOp}
    (h : Represents s.mem s.queue xs) (legal : fifoStep xs op = some ys) :
    Represents (s.apply op).mem (s.apply op).queue ys := by
  cases op with
  | insert held buf =>
    simp only [fifoStep, Option.ite_none_right_eq_some, Option.some.injEq] at legal
    obtain ⟨⟨valid, fresh, _⟩, rfl⟩ := legal
    simp only [QueueState.apply, apply_insert]
    exact queueInsert_represents h valid fresh
  | remove held =>
    obtain rfl : xs.tail = ys := Option.some.inj legal
    simp only [QueueState.apply, apply_remove]
    cases xs with
    | nil => rw [queueRemove_empty h]; exact h
    | cons x xs => exact queueRemove_represents h
  | outside skb cell =>
    simp only [fifoStep, Option.ite_none_right_eq_some, Option.some.injEq] at legal
    obtain ⟨outside, rfl⟩ := legal
    refine h.congr fun x hx => ?_
    have other : x ≠ skb := fun same => outside (same ▸ hx)
    simp [SkbMem.next, QueueState.apply, other]

theorem run_represents {s : QueueState} {xs ys : List Addr} {ops : List QueueOp}
    (h : Represents s.mem s.queue xs) (legal : Execution.run fifoStep xs ops = some ys) :
    Represents (ops.foldl QueueState.apply s).mem (ops.foldl QueueState.apply s).queue ys := by
  induction ops generalizing s xs with
  | nil =>
    obtain rfl : xs = ys := Option.some.inj legal
    exact h
  | cons op ops ih =>
    obtain ⟨zs, hstep, hrest⟩ := Execution.run_cons_some legal
    exact ih (apply_represents h hstep) hrest

/-- The counter never leaves the range the specification allows. -/
theorem run_length {xs ys : List Addr} {ops : List QueueOp} (start : xs.length ≤ 2 ^ 31 - 1)
    (legal : Execution.run fifoStep xs ops = some ys) : ys.length ≤ 2 ^ 31 - 1 := by
  refine Execution.run_invariant (fun zs => zs.length ≤ 2 ^ 31 - 1) ?_ start legal
  intro zs op ws bound hstep
  cases op with
  | insert held buf =>
    simp only [fifoStep, Option.ite_none_right_eq_some, Option.some.injEq] at hstep
    obtain ⟨⟨_, _, room⟩, rfl⟩ := hstep
    simp only [List.length_append, List.length_singleton]
    omega
  | remove held =>
    obtain rfl : zs.tail = ws := Option.some.inj hstep
    simp only [List.length_tail]
    omega
  | outside skb cell =>
    simp only [fifoStep, Option.ite_none_right_eq_some, Option.some.injEq] at hstep
    exact hstep.2 ▸ bound

/-- The events an operation appends to the log. -/
def newEvents (before after : SkbMem) : List SkbEvent := after.log.drop before.log.length

theorem newEvents_append {before after : SkbMem} {events : List SkbEvent}
    (h : after.log = before.log ++ events) : newEvents before after = events := by
  simp [newEvents, h]

/-- Insertion touches no next field but the new buffer's and, through q->tail,
that of the last queued buffer; an empty queue's stale tail is left alone. -/
structure InsertTouches (s t : QueueState) (xs : List Addr) (buf : Addr) : Prop where
  frame : ∀ y, y ∉ xs → y ≠ buf → t.mem.next y = s.mem.next y
  viaTail : (newEvents s.mem t.mem).filterMap SkbEvent.viaTail = xs.getLast?.toList

theorem insert_touches {s : QueueState} {xs : List Addr} (h : Represents s.mem s.queue xs)
    (held : Bool) (buf : Addr) : InsertTouches s (s.insert held buf) xs buf := by
  rw [apply_insert]
  refine ⟨fun y outside other => queueInsert_frame h other outside, ?_⟩
  rw [newEvents_append (queueInsert_log h)]
  by_cases hne : xs = []
  · subst hne
    rfl
  · rw [dif_neg hne, List.getLast?_eq_some_getLast hne]
    rfl

/-- Removal returns the oldest buffer with its next reset, or NULL with the
queue unchanged, writes no other next field and never uses q->tail. -/
structure RemoveReturns (s t : QueueState) (xs : List Addr) (buf : Addr) : Prop where
  oldest : buf = xs.headD NULL
  unlinked : xs ≠ [] → t.mem.next buf = NULL
  unchanged : xs = [] → t = s
  frame : ∀ y, y ∉ xs → t.mem.next y = s.mem.next y
  viaTail : (newEvents s.mem t.mem).filterMap SkbEvent.viaTail = []

theorem remove_returns {s : QueueState} {xs : List Addr} (h : Represents s.mem s.queue xs)
    (held : Bool) : RemoveReturns s (s.remove held).2 xs (s.remove held).1 := by
  rw [apply_remove]
  cases xs with
  | nil =>
    rw [queueRemove_empty h]
    refine ⟨rfl, fun hne => False.elim (hne rfl), fun _ => rfl, fun _ _ => rfl, ?_⟩
    simp [newEvents]
  | cons x xs =>
    have first : (__queueRemove s.mem s.queue).1 = x := by rw [queueRemove_cons h]
    refine ⟨first, fun _ => ?_, fun empty => False.elim (List.cons_ne_nil x xs empty),
      fun y hy => ?_, ?_⟩
    · rw [first]
      exact queueRemove_next h
    · exact queueRemove_frame h fun same => hy (same ▸ List.mem_cons_self)
    · rw [newEvents_append (queueRemove_log h)]
      rfl

/-- Every run of queue_init and legal calls keeps the code in step with the
FIFO list, in every state reached and for every call and flush made there. -/
theorem queue_refines_fifo (m₀ : SkbMem) (q₀ : Queue) (ops : List QueueOp) (xs : List Addr)
    (legal : Execution.run fifoStep [] ops = some xs) :
    let s := ops.foldl QueueState.apply ⟨m₀, queueInit q₀⟩
    Seg s.mem.next s.queue.head xs NULL ∧ xs.Nodup ∧ NULL ∉ xs ∧
    s.queue.size.toInt = xs.length ∧ (s.queue.size = 0 ↔ s.queue.head = NULL) ∧
    (∀ h : xs ≠ [], s.queue.tail = xs.getLast h) ∧
    (∀ held buf, InsertTouches s (s.insert held buf) xs buf) ∧
    (∀ held, RemoveReturns s (s.remove held).2 xs (s.remove held).1) ∧
    (∀ fuel, xs.length < fuel → ∃ m q, flushLoop fuel s.mem s.queue 0 =
      some (m, q, Int32.ofNat xs.length) ∧ Drained s.mem s.queue xs m q) := by
  intro s
  have h : Represents s.mem s.queue xs := run_represents (Represents.init m₀ q₀) legal
  have bound : xs.length ≤ 2 ^ 31 - 1 := run_length (Nat.zero_le _) legal
  refine ⟨h.chain, h.nodup, h.valid, h.size_toInt (by omega), ?_, h.tail,
    insert_touches h, remove_returns h, fun fuel enough => ?_⟩
  · exact (h.size_eq_zero_iff (by omega)).trans h.head_eq_null_iff.symm
  · obtain ⟨m, q, hloop, drained⟩ := flushLoop_terminates h enough 0
    exact ⟨m, q, by rw [hloop]; simp, drained⟩

/-- Fill, drain to a stale tail, and refill with the address just released. -/
def refill : List QueueOp := [.insert false 1, .remove true, .insert true 1, .insert false 2]

theorem queue_refines_fifo_refill :
    let s := refill.foldl QueueState.apply ⟨⟨fun _ => ⟨9, []⟩, []⟩, queueInit ⟨7, 7, 7, 7⟩⟩
    Seg s.mem.next s.queue.head [1, 2] NULL ∧ s.queue.size.toInt = 2 ∧ s.queue.tail = 2 := by
  obtain ⟨chain, _, _, size, _, tail, _⟩ := queue_refines_fifo ⟨fun _ => ⟨9, []⟩, []⟩
    ⟨7, 7, 7, 7⟩ refill [1, 2] (by decide)
  exact ⟨chain, size, tail (by decide)⟩

end Kvnet
