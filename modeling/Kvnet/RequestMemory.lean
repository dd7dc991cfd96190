import Kvnet.Holding
import Kvnet.IoRead
import Kvnet.IoWrite

/-!
# The memory of requests

io_read_to_iovec and io_write_from_iovec copy the caller's header to a buffer of
their own; the former takes the skbs it delivers off the queue, and the latter
allocates one for each packet. Each allocation can fail and the queue can be empty,
and each way out of the two functions has to free what they have got until then,
except for the skbs that went to the network stack.
-/

namespace Kvnet

/-- alloc_paged_mem, the checks of the header, and free_paged_mem on each way
out; `body` is what lies between. -/
def withHeader (arch : Arch) (user : UserMem) (iv : List Iovec) (len : Int) (env : HeaderEnv)
    (body : KvnetHeader → Holding.Prog Addr Int) : Holding.Prog Addr Int :=
  if arch.toSizeT len < arch.sizeofHeader then .ret (-EINVAL)
  else .acquire fun
    | none => .ret (-ENOMEM)
    | some buf =>
      if env.fault then .release buf (.ret (-EFAULT))
      else
        let hdr := headerAt arch (gather user iv (toCInt len).toNat) env.around
        if hdr.count = 0 then .release buf (.ret (-EINVAL))
        else if arch.toSizeT len < headerLen arch hdr.count then .release buf (.ret (-EINVAL))
        else (body hdr).bind fun ret => .release buf (.ret ret)

/-- The loop of io_read_to_iovec, from index i on with n indices to go. An skb is
acquired from the queue, which has none when it is empty. -/
def ioReadLoopMemory (arch : Arch) (fault : Nat → Option FillFault) :
    Nat → Nat → Int → Holding.Prog Addr Int
  | 0, _, ret => .ret ret
  | n + 1, i, ret => .acquire fun
    | none => .ret (readEmpty ret)
    | some skb =>
      if fault i ≠ none then .release skb (.ret (-EFAULT))
      else .release skb (ioReadLoopMemory arch fault n (i + 1) (arch.toSsizeT (ret + 1)))

/-- What io_read_to_iovec gets and frees. -/
def ioReadMemory (arch : Arch) (w : World) (iv : List Iovec) (len : Int) (env : ReadEnv) :
    Holding.Prog Addr Int :=
  withHeader arch w.user iv len env.header fun hdr =>
    (ioReadLoopMemory arch env.fault hdr.count.toNat 0 0).bind fun ret =>
      .ret (reportCount arch w iv ret env.toIovec).ret

/-- The loop of io_write_from_iovec, from index i on with n indices to go. -/
def ioWriteLoopMemory (arch : Arch) (fault : Nat → Option WriteFault) :
    Nat → Nat → Int → Holding.Prog Addr Int
  | 0, _, ret => .ret ret
  | n + 1, i, ret =>
    if fault i = some .getUser then .ret (-EFAULT)
    else .acquire fun
      | none => .ret (-ENOMEM)
      | some skb =>
        if fault i = some .copyFromUser then .release skb (.ret (-EFAULT))
        -- netif_rx_ni
        else .give skb (ioWriteLoopMemory arch fault n (i + 1) (arch.toSsizeT (ret + 1)))

/-- What io_write_from_iovec allocates and frees. -/
def ioWriteMemory (arch : Arch) (w : World) (iv : List Iovec) (len : Int) (env : WriteEnv) :
    Holding.Prog Addr Int :=
  withHeader arch w.user iv len env.header fun hdr =>
    (ioWriteLoopMemory arch env.fault hdr.count.toNat 0 0).bind fun ret =>
      .ret (reportCount arch w iv ret env.toIovec).ret

/-- An allocator that fails where the call finds no memory, and nowhere else. -/
structure Answers (len : Int) (header : HeaderEnv) (fault : Nat → Option WriteFault)
    (answers : Nat → Option Addr) : Prop where
  header : answers 0 = none ↔ allocPagedMem (toCInt len) header.memory = false
  packets : ∀ i, fault i ≠ some .getUser →
    (answers (i + 1) = none ↔ fault i = some .devAllocSkb)

theorem withHeader_exec {arch : Arch} {user : UserMem} {iv : List Iovec} {len : Int}
    {env : HeaderEnv} {answers : Nat → Option Addr}
    (first : answers 0 = none ↔ allocPagedMem (toCInt len) env.memory = false)
    (body : KvnetHeader → Holding.Prog Addr Int) :
    (withHeader arch user iv len env body).exec answers 0 =
      match fetchHeader arch user iv len env with
      | .error e => e
      | .ok hdr => (body hdr).exec answers 1 := by
  unfold withHeader fetchHeader
  by_cases short : arch.toSizeT len < arch.sizeofHeader
  · rw [if_pos short, if_pos short]
    rfl
  rw [if_neg short, if_neg short, Holding.Prog.exec]
  cases answered : answers 0 with
  | none =>
    rw [if_pos (first.mp answered)]
    rfl
  | some buf =>
    have served : ¬ allocPagedMem (toCInt len) env.memory = false := by
      intro failed
      rw [first.mpr failed] at answered
      cases answered
    rw [if_neg served]
    dsimp only
    split
    · rfl
    split
    · rfl
    split
    · rfl
    · exact Holding.Prog.exec_bind_ret answers 1 _ _ id fun _ _ => rfl

/-- The loop alone, with a queue of the buffers xs: it returns what the source's
loop returns, and releases the buffers that one frees. -/
theorem ioReadLoopMemory_exec (arch : Arch) (fault : Nat → Option FillFault)
    {answers : Nat → Option Addr} {w : World} {xs : List Addr} (hdr : KvnetHeader) (n i : Nat)
    (ret : Int) (rep : Represents w.mem w.queue xs) (queue : ∀ j, answers (i + 1 + j) = xs[j]?) :
    (ioReadLoopMemory arch fault n i ret).exec answers (i + 1) =
        (ioReadLoop arch hdr fault n i w ret).2 ∧
      (ioReadLoop arch hdr fault n i w ret).1.mem.freed =
        w.mem.freed ++ (ioReadLoopMemory arch fault n i ret).released answers (i + 1) := by
  induction n generalizing i w ret xs with
  | zero => exact ⟨rfl, (List.append_nil _).symm⟩
  | succ n ih =>
    have first := queue 0
    rw [Nat.add_zero] at first
    rw [ioReadLoopMemory, Holding.Prog.exec, Holding.Prog.released, first]
    cases xs with
    | nil =>
      rw [ioReadLoop_empty arch hdr fault rep]
      exact ⟨rfl, (List.append_nil _).symm⟩
    | cons x xs =>
      rw [List.getElem?_cons_zero]
      dsimp only
      cases struck : fault i with
      | some f =>
        have taken := packet_taken rep (readPacket_fault w.queueRemove.2 (hdr.pkt i) x f).2
        rw [ioReadLoop_fails arch hdr fault rep n ret struck, if_pos (Option.some_ne_none f)]
        exact ⟨rfl, taken.freed⟩
      | none =>
        have taken := packet_taken rep (readPacket_ok w.queueRemove.2 (hdr.pkt i) x).2
        have later : ∀ j, answers (i + 1 + 1 + j) = xs[j]? := by
          intro j
          rw [show i + 1 + 1 + j = i + 1 + (j + 1) by omega, queue (j + 1), List.getElem?_cons_succ]
        obtain ⟨same, freed⟩ := ih (i + 1) (arch.toSsizeT (ret + 1)) taken.represents later
        rw [ioReadLoop_next arch hdr fault rep n ret struck, if_neg (by simp)]
        refine ⟨same, ?_⟩
        rw [freed, taken.freed, List.append_assoc]
        rfl

/-- An allocator that fails where the read finds no memory, followed by the queue. -/
structure ReadAnswers (len : Int) (header : HeaderEnv) (xs : List Addr)
    (answers : Nat → Option Addr) : Prop where
  header : answers 0 = none ↔ allocPagedMem (toCInt len) header.memory = false
  queue : ∀ j, answers (j + 1) = xs[j]?

theorem reportCount_ret (arch : Arch) (w w' : World) (iv : List Iovec) (ret : Int)
    (fault : Option Nat) :
    (reportCount arch w iv ret fault).ret = (reportCount arch w' iv ret fault).ret := by
  unfold reportCount
  split
  · cases fault
    · rfl
    · rfl
  · rfl

theorem ioReadMemory_exec {arch : Arch} {w : World} {iv : List Iovec} {len : Int} {env : ReadEnv}
    {xs : List Addr} {answers : Nat → Option Addr} (rep : Represents w.mem w.queue xs)
    (h : ReadAnswers len env.header xs answers) :
    (ioReadMemory arch w iv len env).exec answers 0 = (ioReadToIovec arch w iv len env).ret := by
  rw [ioReadMemory, withHeader_exec h.header, ioReadToIovec]
  cases fetchHeader arch w.user iv len env.header with
  | error e => rfl
  | ok hdr =>
    have queue : ∀ j, answers (0 + 1 + j) = xs[j]? := by
      intro j
      rw [Nat.zero_add, Nat.add_comm]
      exact h.queue j
    have looped := (ioReadLoopMemory_exec arch env.fault hdr hdr.count.toNat 0 0 rep queue).1
    rw [Nat.zero_add] at looped
    dsimp only
    rw [Holding.Prog.exec_bind_ret answers 1 _ _
      (fun ret => (reportCount arch w iv ret env.toIovec).ret) (fun _ _ => rfl), looped]
    exact reportCount_ret arch _ _ iv _ _

theorem ioWriteLoopMemory_exec {arch : Arch} {env : WriteEnv} {answers : Nat → Option Addr}
    (packets : ∀ i, env.fault i ≠ some .getUser →
      (answers (i + 1) = none ↔ env.fault i = some .devAllocSkb))
    (hdr : KvnetHeader) (n i : Nat) (w : World) (ret : Int) :
    (ioWriteLoopMemory arch env.fault n i ret).exec answers (i + 1) =
      (ioWriteLoop arch hdr env n i w ret).2 := by
  induction n generalizing i w ret with
  | zero => rfl
  | succ n ih =>
    rw [ioWriteLoopMemory, ioWriteLoop]
    have agree := packets i
    cases fault : env.fault i with
    | none =>
      rw [fault] at agree
      obtain ⟨skb, answered⟩ := Option.ne_none_iff_exists'.mp
        (mt (agree (by simp)).mp (by simp))
      rw [if_neg (by simp), Holding.Prog.exec, answered]
      dsimp only
      rw [if_neg (by simp)]
      exact ih (i + 1) _ _
    | some f =>
      rw [fault] at agree
      cases f with
      | getUser => rfl
      | devAllocSkb =>
        rw [if_neg (by simp), Holding.Prog.exec, (agree (by simp)).mpr rfl]
        rfl
      | copyFromUser =>
        obtain ⟨skb, answered⟩ := Option.ne_none_iff_exists'.mp
          (mt (agree (by simp)).mp (by simp))
        rw [if_neg (by simp), Holding.Prog.exec, answered]
        rfl

theorem ioWriteMemory_exec {arch : Arch} {w : World} {iv : List Iovec} {len : Int}
    {env : WriteEnv} {answers : Nat → Option Addr} (h : Answers len env.header env.fault answers) :
    (ioWriteMemory arch w iv len env).exec answers 0 =
      (ioWriteFromIovec arch w iv len env).ret := by
  rw [ioWriteMemory, withHeader_exec h.header, ioWriteFromIovec]
  cases fetchHeader arch w.user iv len env.header with
  | error e => rfl
  | ok hdr =>
    have looped : (ioWriteLoopMemory arch env.fault hdr.count.toNat 0 0).exec answers 1 = _ :=
      ioWriteLoopMemory_exec h.packets hdr hdr.count.toNat 0 w 0
    dsimp only
    rw [Holding.Prog.exec_bind_ret answers 1 _ _
      (fun ret => (reportCount arch w iv ret env.toIovec).ret) (fun _ _ => rfl), looped]
    exact reportCount_ret arch _ _ iv _ _

/-- The call ends with nothing of its own. -/
def Emptied (_ : Int) (held : List Addr) : Prop := held = []

theorem withHeader_owns {arch : Arch} {user : UserMem} {iv : List Iovec} {len : Int}
    {env : HeaderEnv} {body : KvnetHeader → Holding.Prog Addr Int}
    (owns : ∀ hdr, (body hdr).Owns Emptied []) :
    (withHeader arch user iv len env body).Owns Emptied [] := by
  have freed (buf : Addr) (ret : Int) : (Holding.Prog.release buf (.ret ret)).Owns Emptied [buf] :=
    ⟨List.mem_singleton_self buf, List.erase_cons_head buf []⟩
  unfold withHeader
  split
  · exact rfl
  refine ⟨rfl, fun buf _ => ?_⟩
  dsimp only
  split
  · exact freed buf _
  split
  · exact freed buf _
  split
  · exact freed buf _
  · refine Holding.Prog.owns_bind (Holding.Prog.owns_frame buf (owns _) List.not_mem_nil) ?_
    rintro ret _ ⟨rest, rfl, rfl⟩
    exact freed buf ret

theorem ioReadLoopMemory_owns (arch : Arch) (fault : Nat → Option FillFault) (n i : Nat)
    (ret : Int) : (ioReadLoopMemory arch fault n i ret).Owns Emptied [] := by
  induction n generalizing i ret with
  | zero => exact rfl
  | succ n ih =>
    refine ⟨rfl, fun skb _ => ?_⟩
    dsimp only
    split
    · exact ⟨List.mem_singleton_self skb, List.erase_cons_head skb []⟩
    · refine ⟨List.mem_singleton_self skb, ?_⟩
      rw [List.erase_cons_head skb []]
      exact ih (i + 1) _

theorem ioReadMemory_owns (arch : Arch) (w : World) (iv : List Iovec) (len : Int)
    (env : ReadEnv) : (ioReadMemory arch w iv len env).Owns Emptied [] := by
  refine withHeader_owns fun hdr => ?_
  have looped := ioReadLoopMemory_owns arch env.fault hdr.count.toNat 0 0
  exact Holding.Prog.owns_bind looped fun _ _ emptied => emptied

theorem ioWriteLoopMemory_owns (arch : Arch) (fault : Nat → Option WriteFault) (n i : Nat)
    (ret : Int) : (ioWriteLoopMemory arch fault n i ret).Owns Emptied [] := by
  induction n generalizing i ret with
  | zero => exact rfl
  | succ n ih =>
    rw [ioWriteLoopMemory]
    split
    · exact rfl
    refine ⟨rfl, fun skb _ => ?_⟩
    dsimp only
    split
    · exact ⟨List.mem_singleton_self skb, List.erase_cons_head skb []⟩
    · refine ⟨List.mem_singleton_self skb, ?_⟩
      rw [List.erase_cons_head skb []]
      exact ih (i + 1) _

theorem ioWriteMemory_owns (arch : Arch) (w : World) (iv : List Iovec) (len : Int)
    (env : WriteEnv) : (ioWriteMemory arch w iv len env).Owns Emptied [] := by
  refine withHeader_owns fun hdr => ?_
  have looped := ioWriteLoopMemory_owns arch env.fault hdr.count.toNat 0 0
  exact Holding.Prog.owns_bind looped fun _ _ emptied => emptied

/-- A read or a write with any arguments, whatever faults in it. -/
def IsRequest (arch : Arch) (p : Holding.Prog Addr Int) : Prop :=
  (∃ w iv len env, p = ioReadMemory arch w iv len env) ∨
    ∃ w iv len env, p = ioWriteMemory arch w iv len env

/-- Any number of reads and writes at once, with an allocator that can fail and
that reuses addresses and a queue whose buffers nobody else has: each call frees or
hands on only what it has itself and nobody else has, and when all are through, what
is left of all they got is what the network stack has been given and has not yet
disposed of. -/
theorem requests_balanced (arch : Arch) (s : Holding.Sys Addr Int)
    (actions : List (Holding.Action Addr Int))
    (requests : ∀ p, .enter p ∈ actions → IsRequest arch p)
    (h : Execution.run Holding.Sys.step Holding.Sys.empty actions = some s) :
    Execution.Meets Holding.Sys.step Holding.Sys.Legal Holding.Sys.empty actions ∧ s.live.Nodup ∧
      ((∀ th ∈ s.threads, th.prog.result ≠ none) → s.live.Perm s.given) := by
  have admits : ∀ a ∈ actions, Holding.Sys.Admits Emptied a := by
    intro a among
    cases a with
    | enter p =>
      rcases requests p among with ⟨w, iv, len, env, rfl⟩ | ⟨w, iv, len, env, rfl⟩
      · exact ioReadMemory_owns arch w iv len env
      · exact ioWriteMemory_owns arch w iv len env
    | next k answer => exact trivial
    | dispose x => exact trivial
  obtain ⟨legal, balanced⟩ := Holding.Sys.run_balanced Emptied admits h
  exact ⟨legal, balanced.live, balanced.through⟩

/-- A write whose second packet faults, and a read whose first does: the write is
handed the block that the read has just freed. -/
def faultingRequests : List (Holding.Action Addr Int) :=
  [.enter (ioWriteMemory lp64 pairWorld [⟨4096, 20⟩] 20 ⟨⟨true, false, fun _ => 0⟩,
      fun i => if i = 1 then some .copyFromUser else none, fun _ _ => 0, none⟩),
    .enter (ioReadMemory lp64 pairWorld [⟨4096, 20⟩] 20
      ⟨⟨true, false, fun _ => 0⟩, fun _ => some .getUser, none⟩),
    .next 0 (some 100), .next 1 (some 200), .next 0 (some 101), .next 1 (some 1), .next 0 none,
    .next 1 none, .next 1 none, .next 0 (some 200), .next 0 none, .next 0 none]

theorem requests_balanced_faulting : ∃ s : Holding.Sys Addr Int,
    Execution.run Holding.Sys.step Holding.Sys.empty faultingRequests = some s ∧
      s.given = [101] ∧ s.live.Perm s.given ∧
      Execution.Meets Holding.Sys.step Holding.Sys.Legal Holding.Sys.empty faultingRequests := by
  have ran : (Execution.run Holding.Sys.step Holding.Sys.empty faultingRequests).map (fun s =>
      (s.given, s.threads.map fun th => th.prog.result)) =
        some ([101], [some (-EFAULT), some (-EFAULT)]) := by decide +kernel
  obtain ⟨s, run, at_⟩ := Option.map_eq_some_iff.mp ran
  obtain ⟨given, results⟩ := Prod.mk.inj at_
  obtain ⟨legal, _, left⟩ := requests_balanced lp64 s faultingRequests
    (fun p among => by
      simp only [faultingRequests, List.mem_cons, reduceCtorEq, List.not_mem_nil, or_false,
        Holding.Action.enter.injEq] at among
      rcases among with rfl | rfl
      · exact Or.inr ⟨_, _, _, _, rfl⟩
      · exact Or.inl ⟨_, _, _, _, rfl⟩) run
  refine ⟨s, run, given, left fun th among through => ?_, legal⟩
  have result : th.prog.result ∈ s.threads.map fun th => th.prog.result :=
    List.mem_map_of_mem among
  rw [results, through] at result
  simp at result

end Kvnet
