import Kvnet.Ownership

/-!
# Length of the queue and the interface's state

The length test of net_dev_send compares a signed int with an unsigned long. It
is made in the same lock section as the insertion, and net_dev_close disables
the queue in one lock section and drains it in a later one.
-/

namespace Kvnet

/-- A length that fits an int is compared as it is. -/
theorem queueLen_compared {n : Nat} (fits : n < 2 ^ 31) :
    (Int32.ofNat n).toInt64.toUInt64.toNat = n := by
  have signed : (Int32.ofNat n).toInt64.toInt = n := by
    rw [Int32.toInt_toInt64, Int32.toInt_ofNat_of_lt fits]
  have wide : (Int32.ofNat n).toInt64 = Int64.ofNat n := by
    refine Int64.toInt_inj.mp ?_
    rw [signed, Int64.toInt_ofNat_of_lt (by omega)]
  rw [wide]
  simp
  omega

/-- With 2^32 - 1 buffers queued the length reads -1, which no limit exceeds. -/
theorem full_drops {q : Queue} (size : q.size = Int32.ofNat (2 ^ 32 - 1)) (txQueueLen : UInt64) :
    SendDrops q txQueueLen := by
  have wide : (__queueLen q).toInt64.toUInt64.toNat = 2 ^ 64 - 1 := by
    rw [__queueLen, size]
    decide
  refine Or.inr (UInt64.le_iff_toNat_le.mpr ?_)
  rw [wide]
  have := txQueueLen.toNat_lt
  omega

theorem Represents.below_limit {m : SkbMem} {q : Queue} {xs : List Addr} (h : Represents m q xs)
    {txQueueLen : UInt64} (fits : xs.length < 2 ^ 31) (accepts : ¬ SendDrops q txQueueLen) :
    q.enabled ≠ 0 ∧ xs.length < txQueueLen.toNat := by
  have less : ¬ txQueueLen ≤ (__queueLen q).toInt64.toUInt64 := fun le => accepts (Or.inr le)
  rw [UInt64.le_iff_toNat_le, __queueLen, h.size, queueLen_compared fits] at less
  exact ⟨fun disabled => accepts (Or.inl disabled), by omega⟩

namespace Owned

variable {arch : Arch} {s t : Sys} {xs ys : List Addr} {live live' : Addr → Bool} {a : Action}

/-- Unless a buffer is accepted, what stays in the queue is a final part of it. -/
theorem removes (h : Owned s xs live) (h' : Owned t ys live') (accepted : t.accepted = s.accepted)
    (removed : ∃ gone, t.removed = s.removed ++ gone) : ys <:+ xs := by
  obtain ⟨gone, hgone⟩ := removed
  have same := h'.order
  rw [accepted, h.order, hgone, List.append_assoc] at same
  exact ⟨gone, (List.append_cancel_left same).symm⟩

theorem keeps (h : Owned s xs live) (h' : Owned t ys live') (accepted : t.accepted = s.accepted)
    (removed : t.removed = s.removed) : ys = xs := by
  have same := h'.order
  rw [accepted, h.order, removed] at same
  exact (List.append_cancel_left same).symm

theorem inserts (h : Owned s xs live) (h' : Owned t ys live') {skb : Addr}
    (effect : Sys.Inserts s t skb) : ys = xs ++ [skb] := by
  have same := h'.order
  rw [effect.accepted, h.order, effect.removed, List.append_assoc] at same
  exact (List.append_cancel_left same).symm

theorem flushes (h : Owned s xs live) (h' : Owned t ys live') {w : World}
    (flushed : netDevFlushTxQueue s.fuel s.world = some w)
    (mem : t.world.mem = w.mem) (queue : t.world.queue = w.queue) : ys = [] := by
  have drained := (flush_drains h.represents flushed).represents
  rw [← mem, ← queue] at drained
  exact h'.represents.unique drained

/-- The queue gains a buffer in a send's lock section only. -/
theorem contents (h : Owned s xs live) (h' : Owned t ys live') (step : s.step arch a = some t) :
    t.accepted = s.accepted ∧ ys <:+ xs ∨ ∃ k txQueueLen skb, a = .sendSection k txQueueLen ∧
      ¬ SendDrops s.world.queue txQueueLen ∧ Sys.Inserts s t skb ∧ ys = xs ++ [skb] := by
  cases Sys.step_effect step with
  | quiet effect =>
    exact Or.inl ⟨effect.accepted, h.removes h' effect.accepted effect.removed⟩
  | insert k txQueueLen skb ha accepts effect =>
    exact Or.inr ⟨k, txQueueLen, skb, ha, accepts, effect, h.inserts h' effect⟩
  | flush w closing flushed ht =>
    subst ht
    exact Or.inl ⟨rfl, h.flushes h' flushed rfl rfl ▸ List.nil_suffix⟩
  | wakeup k ht | up closed ht | disable closed ht | pollEnter ht
  | pollNext k p found awake stays ht | pollEnd k ht | cancelSet ha ht
  | cancelWakeup ha pending ht =>
    subst ht
    exact Or.inl ⟨rfl, h.keeps h' rfl rfl ▸ List.suffix_rfl⟩

end Owned

/-- The counter never wraps round to zero: the chain stays below 2^32 buffers. -/
theorem fits_step {arch : Arch} {s t : Sys} {xs : List Addr} {live : Addr → Bool} {a : Action}
    (owned : Owned s xs live) (fits : xs.length < 2 ^ 32) (step : s.step arch a = some t) :
    ∃ ys live', Owned t ys live' ∧ ys.length < 2 ^ 32 := by
  obtain ⟨ys, live', owned'⟩ := step_owned ⟨xs, live, owned⟩ step
  refine ⟨ys, live', owned', ?_⟩
  rcases owned.contents owned' step with ⟨_, shorter⟩ | ⟨k, txQueueLen, skb, _, accepts, _, rfl⟩
  · exact Nat.lt_of_le_of_lt shorter.length_le fits
  · have room : xs.length ≠ 2 ^ 32 - 1 := by
      intro full
      have size := owned.represents.size
      rw [full] at size
      exact accepts (full_drops size txQueueLen)
    rw [List.length_append, List.length_singleton]
    omega

/-- The bound, by where net_dev_close is: the queue is enabled only while the
interface is up, and empty once it is down. -/
structure Bounded (limit : UInt64) (s : Sys) (xs : List Addr) : Prop where
  length : xs.length ≤ limit.toNat
  gate : s.ctl ≠ .up → s.world.queue.enabled = 0
  drained : s.ctl = .down → xs = []

/-- dev->tx_queue_len has this value when a send reads it. -/
def Action.Limited (limit : UInt64) : Action → Prop
  | .sendSection _ txQueueLen => txQueueLen = limit
  | _ => True

theorem bounded_step {arch : Arch} {limit : UInt64} {s t : Sys} {xs ys : List Addr}
    {live live' : Addr → Bool} {a : Action} (small : limit.toNat ≤ 2 ^ 31 - 1)
    (owned : Owned s xs live) (owned' : Owned t ys live') (b : Bounded limit s xs)
    (limited : a.Limited limit) (step : s.step arch a = some t) : Bounded limit t ys := by
  have fits : xs.length < 2 ^ 31 := by
    have := b.length
    omega
  have length : ys.length ≤ limit.toNat := by
    rcases owned.contents owned' step with ⟨_, shorter⟩ | ⟨k, txQueueLen, skb, rfl, accepts, _, rfl⟩
    · exact Nat.le_trans shorter.length_le b.length
    · obtain rfl : txQueueLen = limit := limited
      have room := (owned.represents.below_limit fits accepts).2
      rw [List.length_append, List.length_singleton]
      exact room
  cases Sys.step_effect step with
  | quiet effect =>
    refine ⟨length, fun down => ?_, fun down => ?_⟩
    · rw [effect.enabled]
      exact b.gate (effect.ctl ▸ down)
    · have empty := b.drained (effect.ctl ▸ down)
      rw [empty] at owned
      exact List.suffix_nil.mp (owned.removes owned' effect.accepted effect.removed)
  | insert k txQueueLen skb ha accepts effect =>
    obtain ⟨enabled, _⟩ := owned.represents.below_limit fits accepts
    have up : s.ctl = .up := Decidable.not_not.mp fun down => enabled (b.gate down)
    refine ⟨length, fun down => ?_, fun down => ?_⟩
    · exact False.elim (down (effect.ctl.trans up))
    · rw [effect.ctl, up] at down
      cases down
  | up closed ht =>
    subst ht
    exact ⟨length, fun down => False.elim (down rfl), fun down => nomatch down⟩
  | disable closed ht =>
    subst ht
    exact ⟨length, fun _ => rfl, fun down => nomatch down⟩
  | flush w closing flushed ht =>
    subst ht
    refine ⟨length, fun _ => ?_, fun _ => owned.flushes owned' flushed rfl rfl⟩
    have still := b.gate (by rw [closing]; decide)
    exact (flush_drains owned.represents flushed).frame.enabled.trans still
  | wakeup k ht | pollEnter ht | pollNext k p found awake stays ht | pollEnd k ht
  | cancelSet ha ht | cancelWakeup ha pending ht =>
    subst ht
    exact ⟨length, b.gate, fun down => owned.keeps owned' rfl rfl ▸ b.drained down⟩

/-- The flush loop of net_dev_close always ends. -/
theorem closeFlush_returns {s : Sys} {xs : List Addr} {live : Addr → Bool} (owned : Owned s xs live)
    (closing : s.ctl = .closing) : ∃ t, s.closeFlush = some t := by
  have enough : xs.length < s.fuel := by
    have perm : (s.handing ++ xs ++ s.held ++ s.world.mem.freed).Perm s.world.mem.passed := by
      refine List.perm_iff_count.mpr fun x => ?_
      have balance := replay_count owned.replays x
      change 0 + s.world.mem.passed.count x = _ + s.world.mem.freed.count x at balance
      have places := owned.places x
      simp only [List.count_append]
      omega
    have length := perm.length_eq
    simp only [List.length_append] at length
    rw [Sys.fuel]
    omega
  obtain ⟨w, flushed⟩ := flush_returns owned.represents enough
  exact ⟨_, by simp only [Sys.closeFlush, if_pos closing, flushed, Option.map_some]; rfl⟩

theorem run_bounded {arch : Arch} {limit : UInt64} {s₀ s : Sys} {actions : List Action}
    (fresh : s₀.Fresh) (small : limit.toNat ≤ 2 ^ 31 - 1)
    (limited : ∀ a ∈ actions, a.Limited limit)
    (h : Execution.run (Sys.step arch) s₀ actions = some s) :
    ∃ xs live, Owned s xs live ∧ Bounded limit s xs := by
  have start : Bounded limit s₀ [] := by
    refine ⟨Nat.zero_le _, fun _ => ?_, fun _ => rfl⟩
    rw [fresh.queue]
    rfl
  refine Execution.run_guarded_invariant (fun s => ∃ xs live, Owned s xs live ∧ Bounded limit s xs)
    ?_ ⟨[], _, fresh_owned fresh, start⟩ (Execution.meets_of_forall limited s₀) h
  rintro s a t ⟨xs, live, owned, bounded⟩ here step
  obtain ⟨ys, live', owned'⟩ := step_owned ⟨xs, live, owned⟩ step
  exact ⟨ys, live', owned', bounded_step small owned owned' bounded here step⟩

/-- With a fixed tx_queue_len of at most INT_MAX the length stays between zero
and that limit; while the queue is disabled no step puts a buffer on it; the
flush ends, and from then to the next net_dev_open the queue is empty. -/
theorem queue_bounded (arch : Arch) (limit : UInt64) (s₀ s : Sys) (actions : List Action)
    (fresh : s₀.Fresh) (small : limit.toNat ≤ 2 ^ 31 - 1)
    (limited : ∀ a ∈ actions, a.Limited limit)
    (h : Execution.run (Sys.step arch) s₀ actions = some s) :
    0 ≤ s.world.queue.size.toInt ∧ s.world.queue.size.toInt ≤ limit.toNat ∧
    (s.world.queue.enabled = 0 → ∀ a t, s.step arch a = some t → t.accepted = s.accepted ∧
      ∀ xs ys, Represents s.world.mem s.world.queue xs →
        Represents t.world.mem t.world.queue ys → ys <:+ xs) ∧
    (s.ctl = .closing → ∃ t, s.closeFlush = some t) ∧
    (s.ctl = .down → Represents s.world.mem s.world.queue []) := by
  obtain ⟨xs, live, owned, bounded⟩ := run_bounded fresh small limited h
  have length := bounded.length
  have size := owned.represents.size_toInt (by omega)
  refine ⟨by omega, by omega, fun disabled a t step => ?_, closeFlush_returns owned, fun down => ?_⟩
  · obtain ⟨ys, live', owned'⟩ := step_owned ⟨xs, live, owned⟩ step
    rcases owned.contents owned' step with ⟨same, shorter⟩ | ⟨k, txQueueLen, skb, _, accepts, _, _⟩
    · refine ⟨same, fun xs' ys' rep rep' => ?_⟩
      rw [rep.unique owned.represents, rep'.unique owned'.represents]
      exact shorter
    · exact False.elim (accepts (Or.inl disabled))
  · rw [← bounded.drained down]
    exact owned.represents

/-- A limit of one: the second packet is dropped, a third arrives between the
disabling and the flush, and a fourth after the flush. -/
def closeWindow : List Action :=
  [.netDevOpen, .sendEnter 1, .sendSection 0 1, .sendEnter 2, .sendSection 1 1, .closeDisable,
    .sendEnter 3, .sendSection 1 1, .closeFlush, .sendEnter 4, .sendSection 1 1]

theorem queue_bounded_closeWindow :
    ∃ s, Execution.run (Sys.step lp64) freshSys closeWindow = some s ∧
      s.world.mem.freed = [2, 3, 1, 4] ∧ Represents s.world.mem s.world.queue [] := by
  have outcome : (Execution.run (Sys.step lp64) freshSys closeWindow).map
      (fun s => (s.ctl, s.world.mem.freed)) = some (.down, [2, 3, 1, 4]) := by decide +kernel
  obtain ⟨s, hrun, ended⟩ := Option.map_eq_some_iff.mp outcome
  obtain ⟨_, _, _, _, drained⟩ := queue_bounded lp64 1 freshSys s closeWindow freshSys_fresh
    (by decide) (by simp [closeWindow, Action.Limited]) hrun
  exact ⟨s, hrun, congrArg Prod.snd ended, drained (congrArg Prod.fst ended)⟩

end Kvnet
