import Kvnet.QueueBound

/-!
# Pollers and wake-ups

io_dev_poll registers on the wait queue before it reads the queue length, but
after it reads the cancel flag. The first order is what keeps a packet from
being missed by a sleeping poller; the second leaves a window in which a cancel
is missed.
-/

namespace Kvnet

namespace PollPc

/-- The poller has read the cancel flag in this round. -/
def pastCancel : PollPc → Bool
  | .testCanceled => false
  | _ => true

/-- The poller has been through poll_wait in this round. -/
def pastWait : PollPc → Bool
  | .testCanceled | .pollWait => false
  | _ => true

/-- The poller has read the queue size in this round. -/
def pastQueue : PollPc → Bool
  | .testCanceled | .pollWait | .testQueue => false
  | _ => true

theorem pastWait_of_pastQueue {pc : PollPc} (h : pc.pastQueue = true) : pc.pastWait = true := by
  cases pc <;> first | rfl | cases h

theorem pastCancel_of_pastQueue {pc : PollPc} (h : pc.pastQueue = true) :
    pc.pastCancel = true := by
  cases pc <;> first | rfl | cases h

theorem pastWait_of_pastCancel {pc : PollPc} (h : pc.pastCancel = true) :
    pc = .pollWait ∨ pc.pastWait = true := by
  cases pc with
  | testCanceled => cases h
  | pollWait => exact Or.inl rfl
  | testQueue | tested mask | asleep => exact Or.inr rfl

end PollPc

namespace Poller

/-- Past poll_wait, a poller that may still sleep is on the wait queue. -/
def OnQueue (p : Poller) : Prop :=
  p.pc.pastWait = true → p.returns = true ∨ p.registered = true

/-- Past its queue test, a poller will not sleep. -/
def HeardArrival (p : Poller) : Prop :=
  p.pc.pastQueue = true → p.returns = true ∨ p.triggered = true

/-- Past its test of the cancel flag, a poller will not sleep. -/
def HeardCancel (p : Poller) : Prop :=
  p.pc.pastCancel = true → p.returns = true ∨ p.triggered = true

@[simp] theorem wake_pc (p : Poller) : p.wake.pc = p.pc := by
  unfold wake
  split <;> rfl

@[simp] theorem wake_registered (p : Poller) : p.wake.registered = p.registered := by
  unfold wake
  split <;> rfl

@[simp] theorem wake_returns (p : Poller) : p.wake.returns = p.returns := by
  simp only [returns, wake_pc]

theorem wake_triggers {p : Poller} (h : p.registered = true) : p.wake.triggered = true := by
  simp [wake, h]

theorem wake_keeps {p : Poller} (h : p.triggered = true) : p.wake.triggered = true := by
  unfold wake
  split
  · rfl
  · exact h

theorem wake_onQueue {p : Poller} (h : p.OnQueue) : p.wake.OnQueue := by
  simpa only [OnQueue, wake_pc, wake_registered, wake_returns] using h

/-- A wake-up reaches every poller past its queue test. -/
theorem wake_heardArrival {p : Poller} (h : p.OnQueue) : p.wake.HeardArrival := by
  intro past
  rw [wake_pc] at past
  rw [wake_returns]
  exact (h (PollPc.pastWait_of_pastQueue past)).imp id wake_triggers

/-- A wake-up reaches every poller past its test of the cancel flag, but one that
has not registered yet. -/
theorem wake_heardCancel {p : Poller} (h : p.OnQueue)
    (registered : p.pc = .pollWait → p.registered = true) : p.wake.HeardCancel := by
  intro past
  rw [wake_pc] at past
  rw [wake_returns]
  rcases PollPc.pastWait_of_pastCancel past with waiting | past
  · exact Or.inr (wake_triggers (registered waiting))
  · exact (h past).imp id wake_triggers

theorem heardCancel_wake {p : Poller} (h : p.HeardCancel) : p.wake.HeardCancel := by
  intro past
  rw [wake_pc] at past
  rw [wake_returns]
  exact (h past).imp id wake_keeps

/-- A poller that sleeps has heard nothing. -/
theorem sleeps_unheard {p : Poller} (sleeps : p.sleeps = true) :
    p.pc = .asleep ∧ ¬ (p.returns = true ∨ p.triggered = true) := by
  obtain ⟨pc, quiet⟩ : p.pc = .asleep ∧ p.triggered = false := by simpa [Poller.sleeps] using sleeps
  refine ⟨pc, ?_⟩
  rintro (done | woken)
  · rw [returns, pc] at done
    cases done
  · rw [quiet] at woken
    cases woken

theorem stays_or {p : Poller} {P : Prop} (stays : p.returns = false)
    (h : p.returns = true ∨ P) : P := by
  rcases h with done | h
  · rw [stays] at done
    cases done
  · exact h

/-- What the next step of a poller can be. -/
inductive NextStep (w : World) (p : Poller) : Poller → Prop where
  | canceled (pc : p.pc = .testCanceled) (set : w.vnet.ioDev.canceled ≠ 0) :
      NextStep w p { p with pc := .tested canceledMask }
  | uncanceled (pc : p.pc = .testCanceled) (unset : w.vnet.ioDev.canceled = 0) :
      NextStep w p { p with pc := .pollWait }
  | waits (pc : p.pc = .pollWait) : NextStep w p { p with pc := .testQueue, registered := true }
  | tests (pc : p.pc = .testQueue) : NextStep w p { p with pc := .tested (queueMask w.queue) }
  | again (past : p.pc.pastQueue = true) (woken : p.triggered = true) :
      NextStep w p { p with pc := .testCanceled, triggered := false }
  | asleep (past : p.pc.pastQueue = true) (quiet : p.triggered = false) :
      NextStep w p { p with pc := .asleep }

theorem next_step (w : World) (p : Poller) : NextStep w p (p.next w) := by
  unfold next
  cases pc : p.pc with
  | testCanceled =>
    by_cases canceled : w.vnet.ioDev.canceled ≠ 0
    · simp only [if_pos canceled]
      exact .canceled pc canceled
    · simp only [if_neg canceled]
      exact .uncanceled pc (Decidable.not_not.mp canceled)
  | pollWait => exact .waits pc
  | testQueue => exact .tests pc
  | tested mask | asleep =>
    have past : p.pc.pastQueue = true := by rw [pc]; rfl
    by_cases woken : p.triggered = true
    · simp only [again, if_pos woken]
      exact .again past woken
    · simp only [again, if_neg woken]
      exact .asleep past (Bool.eq_false_of_not_eq_true woken)

end Poller

theorem canceledMask_returns (p : Poller) :
    ({ p with pc := .tested canceledMask } : Poller).returns = true := by
  simp only [Poller.returns]
  decide

/-- A nonempty queue is reported to whoever asks for POLLIN. -/
theorem queueMask_returns {q : Queue} (nonempty : q.size ≠ 0) (p : Poller) :
    ({ p with pc := .tested (queueMask q) } : Poller).returns = true := by
  have found : queueIsEmpty q = 0 := by simp [queueIsEmpty, __queueIsEmpty, nonempty]
  simp only [Poller.returns, queueMask, if_pos found]
  decide

section Next

variable {w : World} {p q : Poller}

theorem next_onQueue (h : p.OnQueue) (stays : p.returns = false) (step : p.NextStep w q) :
    q.OnQueue := by
  intro past
  cases step with
  | canceled pc set => exact Or.inl (canceledMask_returns p)
  | uncanceled pc unset => cases past
  | waits pc => exact Or.inr rfl
  | tests pc => exact Or.inr (Poller.stays_or stays (h (by rw [pc]; rfl)))
  | again before woken => cases past
  | asleep before quiet =>
    exact Or.inr (Poller.stays_or stays (h (PollPc.pastWait_of_pastQueue before)))

theorem next_heardArrival (h : p.HeardArrival) (nonempty : w.queue.size ≠ 0)
    (stays : p.returns = false) (step : p.NextStep w q) : q.HeardArrival := by
  intro past
  cases step with
  | canceled pc set => exact Or.inl (canceledMask_returns p)
  | uncanceled pc unset => cases past
  | waits pc => cases past
  | tests pc => exact Or.inl (queueMask_returns nonempty p)
  | again before woken => cases past
  | asleep before quiet => exact Or.inr (Poller.stays_or stays (h before))

theorem next_heardCancel (h : p.HeardCancel) (canceled : w.vnet.ioDev.canceled ≠ 0)
    (stays : p.returns = false) (step : p.NextStep w q) : q.HeardCancel := by
  intro past
  cases step with
  | canceled pc set => exact Or.inl (canceledMask_returns p)
  | uncanceled pc unset => exact False.elim (canceled unset)
  | waits pc => exact Or.inr (Poller.stays_or stays (h (by rw [pc]; rfl)))
  | tests pc => exact Or.inr (Poller.stays_or stays (h (by rw [pc]; rfl)))
  | again before woken => cases past
  | asleep before quiet =>
    exact Or.inr (Poller.stays_or stays (h (PollPc.pastCancel_of_pastQueue before)))

end Next

section Arrival

variable {arch : Arch} {s t : Sys} {a : Action}

theorem onQueue_step (h : ∀ p ∈ s.pollers, p.OnQueue) (step : s.step arch a = some t) :
    ∀ p ∈ t.pollers, p.OnQueue := by
  cases Sys.step_effect step with
  | quiet effect =>
    rw [effect.pollers]
    exact h
  | insert k txQueueLen skb ha accepts effect =>
    rw [effect.pollers]
    exact h
  | wakeup k ht | cancelWakeup ha pending ht =>
    subst ht
    exact Pool.forall_map fun p hp => Poller.wake_onQueue (h p hp)
  | up closed ht | disable closed ht | flush w closing flushed ht | cancelSet ha ht =>
    subst ht
    exact h
  | pollEnter ht =>
    subst ht
    exact Pool.forall_snoc h fun past => nomatch past
  | pollNext k p found awake stays ht =>
    subst ht
    exact Pool.forall_set h
      (next_onQueue (h p (List.mem_of_getElem? found)) stays (p.next_step s.world))
  | pollEnd k ht =>
    subst ht
    exact Pool.forall_eraseIdx h

/-- While packets are queued and no wake-up is owed, no poller will sleep. -/
structure Waiting (s : Sys) (xs : List Addr) : Prop where
  onQueue : ∀ p ∈ s.pollers, p.OnQueue
  heard : xs ≠ [] → .inserted ∉ s.senders → ∀ p ∈ s.pollers, p.HeardArrival

theorem waiting_step {xs ys : List Addr} {live live' : Addr → Bool} (owned : Owned s xs live)
    (owned' : Owned t ys live') (fits : xs.length < 2 ^ 32) (h : Waiting s xs)
    (step : s.step arch a = some t) : Waiting t ys := by
  refine ⟨onQueue_step h.onQueue step, fun some_queued none_owed => ?_⟩
  have queued : t.accepted = s.accepted → xs ≠ [] := by
    rintro same rfl
    rcases owned.contents owned' step with ⟨_, shorter⟩ | ⟨_, _, skb, _, _, effect, _⟩
    · exact some_queued (List.suffix_nil.mp shorter)
    · exact none_owed effect.inserted
  cases Sys.step_effect step with
  | quiet effect =>
    rw [effect.pollers]
    exact h.heard (queued effect.accepted) fun owed => none_owed (effect.inserted owed)
  | insert k txQueueLen skb ha accepts effect => exact False.elim (none_owed effect.inserted)
  | wakeup k ht | cancelWakeup ha pending ht =>
    subst ht
    exact Pool.forall_map fun p hp => Poller.wake_heardArrival (h.onQueue p hp)
  | up closed ht | disable closed ht | flush w closing flushed ht | cancelSet ha ht =>
    subst ht
    exact h.heard (queued rfl) none_owed
  | pollEnter ht =>
    subst ht
    exact Pool.forall_snoc (h.heard (queued rfl) none_owed) fun past => nomatch past
  | pollNext k p found awake stays ht =>
    subst ht
    have heard := h.heard (queued rfl) none_owed
    have nonempty : s.world.queue.size ≠ 0 := fun zero =>
      queued rfl ((owned.represents.size_eq_zero_iff fits).mp zero)
    exact Pool.forall_set heard
      (next_heardArrival (heard p (List.mem_of_getElem? found)) nonempty stays
        (p.next_step s.world))
  | pollEnd k ht =>
    subst ht
    exact Pool.forall_eraseIdx (h.heard (queued rfl) none_owed)

end Arrival

theorem run_waiting {arch : Arch} {s₀ s : Sys} {actions : List Action} (fresh : s₀.Fresh)
    (h : Execution.run (Sys.step arch) s₀ actions = some s) :
    ∃ xs live, Owned s xs live ∧ xs.length < 2 ^ 32 ∧ Waiting s xs := by
  have start : Waiting s₀ [] := by
    refine ⟨fun p hp => ?_, fun none_queued => False.elim (none_queued rfl)⟩
    rw [fresh.pollers] at hp
    cases hp
  refine Execution.run_invariant
    (fun s => ∃ xs live, Owned s xs live ∧ xs.length < 2 ^ 32 ∧ Waiting s xs) ?_
    ⟨[], _, fresh_owned fresh, by decide, start⟩ h
  rintro s a t ⟨xs, live, owned, fits, waiting⟩ step
  obtain ⟨ys, live', owned', fits'⟩ := fits_step owned fits step
  exact ⟨ys, live', owned', fits', waiting_step owned owned' fits waiting step⟩

/-- In every state of every interleaving: where a poller sleeps with no wake-up
pending, the queue is empty or a send is between its insertion and its wake-up. -/
theorem arrival_not_missed (arch : Arch) (s₀ s : Sys) (actions : List Action) (fresh : s₀.Fresh)
    (h : Execution.run (Sys.step arch) s₀ actions = some s) (p : Poller) (hp : p ∈ s.pollers)
    (sleeps : p.sleeps = true) :
    Represents s.world.mem s.world.queue [] ∨ .inserted ∈ s.senders := by
  obtain ⟨xs, live, owned, _, waiting⟩ := run_waiting fresh h
  by_cases owed : .inserted ∈ s.senders
  · exact Or.inr owed
  · refine Or.inl ?_
    by_cases empty : xs = []
    · exact empty ▸ owned.represents
    · obtain ⟨pc, unheard⟩ := Poller.sleeps_unheard sleeps
      exact False.elim (unheard (waiting.heard empty owed p hp (by rw [pc]; rfl)))

/-- A poller finds the queue empty and sleeps; a packet is inserted and its
wake-up is still owed. -/
def arrivalWindow : List Action :=
  [.netDevOpen, .pollEnter, .poll 0, .poll 0, .poll 0, .poll 0, .sendEnter 1, .sendSection 0 256]

theorem arrival_not_missed_window :
    ∃ s, Execution.run (Sys.step lp64) freshSys arrivalWindow = some s ∧
      ⟨.asleep, true, false⟩ ∈ s.pollers ∧ s.world.queue.head = 1 ∧
      (Represents s.world.mem s.world.queue [] ∨ .inserted ∈ s.senders) := by
  have outcome : (Execution.run (Sys.step lp64) freshSys arrivalWindow).map
      (fun s => (s.pollers, s.world.queue.head)) = some ([⟨.asleep, true, false⟩], 1) := by
    decide +kernel
  obtain ⟨s, hrun, ended⟩ := Option.map_eq_some_iff.mp outcome
  simp only [Prod.mk.injEq] at ended
  obtain ⟨pollers, head⟩ := ended
  have asleep : ⟨.asleep, true, false⟩ ∈ s.pollers := by
    rw [pollers]
    exact List.mem_singleton.mpr rfl
  exact ⟨s, hrun, asleep, head,
    arrival_not_missed lp64 freshSys s arrivalWindow freshSys_fresh hrun _ asleep rfl⟩

/-- The last cancel owing a wake-up wakes while no poller is between its test of
the cancel flag and its registration. -/
def WakesRegistered (s : Sys) : Action → Prop
  | .cancelWakeup => s.cancelling = 1 → ∀ p ∈ s.pollers, p.pc = .pollWait → p.registered = true
  | _ => True

/-- While the device is canceled and no wake-up is owed, no poller will sleep. -/
structure Canceling (s : Sys) : Prop where
  onQueue : ∀ p ∈ s.pollers, p.OnQueue
  heard : s.world.vnet.ioDev.canceled ≠ 0 → s.cancelling = 0 → ∀ p ∈ s.pollers, p.HeardCancel

theorem canceling_step {arch : Arch} {s t : Sys} {a : Action} (h : Canceling s)
    (registered : WakesRegistered s a) (step : s.step arch a = some t) : Canceling t := by
  refine ⟨onQueue_step h.onQueue step, fun canceled none_owed => ?_⟩
  cases Sys.step_effect step with
  | quiet effect =>
    rw [effect.pollers]
    exact h.heard (effect.canceled ▸ canceled) (effect.cancelling ▸ none_owed)
  | insert k txQueueLen skb ha accepts effect =>
    rw [effect.pollers]
    exact h.heard (effect.canceled ▸ canceled) (effect.cancelling ▸ none_owed)
  | wakeup k ht =>
    subst ht
    exact Pool.forall_map fun p hp => Poller.heardCancel_wake (h.heard canceled none_owed p hp)
  | up closed ht | disable closed ht =>
    subst ht
    exact h.heard canceled none_owed
  | flush w closing flushed ht =>
    subst ht
    obtain ⟨⟨m, q, n⟩, _, rfl⟩ := Option.map_eq_some_iff.mp flushed
    exact h.heard canceled none_owed
  | pollEnter ht =>
    subst ht
    exact Pool.forall_snoc (h.heard canceled none_owed) fun past => nomatch past
  | pollNext k p found awake stays ht =>
    subst ht
    have heard := h.heard canceled none_owed
    exact Pool.forall_set heard
      (next_heardCancel (heard p (List.mem_of_getElem? found)) canceled stays
        (p.next_step s.world))
  | pollEnd k ht =>
    subst ht
    exact Pool.forall_eraseIdx (h.heard canceled none_owed)
  | cancelSet ha ht =>
    subst ht
    exact False.elim (Nat.succ_ne_zero _ none_owed)
  | cancelWakeup ha pending ht =>
    subst ht ha
    have last : s.cancelling = 1 := by
      change s.cancelling - 1 = 0 at none_owed
      omega
    exact Pool.forall_map fun p hp =>
      Poller.wake_heardCancel (h.onQueue p hp) (registered last p hp)

/-- In every run whose last wake-ups find no poller in that window, a poller that
sleeps with no wake-up pending has no cancel to hear of. -/
theorem cancel_not_missed (arch : Arch) (s₀ s : Sys) (actions : List Action) (fresh : s₀.Fresh)
    (registered : Execution.Meets (Sys.step arch) WakesRegistered s₀ actions)
    (h : Execution.run (Sys.step arch) s₀ actions = some s) (p : Poller) (hp : p ∈ s.pollers)
    (sleeps : p.sleeps = true) : s.world.vnet.ioDev.canceled = 0 ∨ s.cancelling ≠ 0 := by
  have none_polling : ∀ p, p ∉ s₀.pollers := by
    intro p hp
    rw [fresh.pollers] at hp
    cases hp
  have canceling : Canceling s := Execution.run_guarded_invariant Canceling
    (fun _ _ _ => canceling_step)
    ⟨fun p hp => False.elim (none_polling p hp), fun _ _ p hp => False.elim (none_polling p hp)⟩
    registered h
  by_cases canceled : s.world.vnet.ioDev.canceled = 0
  · exact Or.inl canceled
  · refine Or.inr fun none_owed => ?_
    obtain ⟨pc, unheard⟩ := Poller.sleeps_unheard sleeps
    exact unheard (canceling.heard canceled none_owed p hp (by rw [pc]; rfl))

/-- One step of the poller at position k leaves the world and the cancels alone. -/
theorem poll_moves (arch : Arch) {s : Sys} {k : Nat} {p q : Poller}
    (found : s.pollers[k]? = some p) (awake : p.sleeps = false) (stays : p.returns = false)
    (next : p.next s.world = q) :
    ∃ t, s.step arch (.poll k) = some t ∧ t.pollers[k]? = some q ∧ t.world = s.world ∧
      t.cancelling = s.cancelling :=
  ⟨_, Sys.pollStep_next found awake stays next,
    List.getElem?_set_self (List.getElem?_eq_some_iff.mp found).1, rfl, rfl⟩

/-- Less is not enough: a poller that the last wake-up finds between its test of
the cancel flag and its registration goes on to sleep on an empty queue, and
nothing is left to wake it. -/
theorem unregistered_sleeps (arch : Arch) {s : Sys} {k : Nat} (pending : s.cancelling = 1)
    (found : s.pollers[k]? = some ⟨.pollWait, false, false⟩) (empty : s.world.queue.size = 0) :
    ∃ t, Execution.run (Sys.step arch) s [.cancelWakeup, .poll k, .poll k, .poll k] = some t ∧
      t.pollers[k]? = some ⟨.asleep, true, false⟩ ∧ t.world = s.world ∧ t.cancelling = 0 := by
  have wakes : s.step arch .cancelWakeup = some { s.ioDevWakeup with cancelling := 0 } := by
    simp [Sys.step, Sys.cancelWakeup, pending]
  have unmoved : (s.pollers.map Poller.wake)[k]? = some ⟨.pollWait, false, false⟩ := by
    rw [List.getElem?_map, found]
    rfl
  have nothing : queueMask s.world.queue = POLLOUT ||| POLLWRNORM := by
    simp [queueMask, queueIsEmpty, __queueIsEmpty, empty]
  obtain ⟨t₁, waits, found₁, world₁, owed₁⟩ := poll_moves arch
    (s := { s.ioDevWakeup with cancelling := 0 }) (q := ⟨.testQueue, true, false⟩)
    unmoved rfl rfl rfl
  obtain ⟨t₂, tests, found₂, world₂, owed₂⟩ := poll_moves arch
    (q := ⟨.tested (POLLOUT ||| POLLWRNORM), true, false⟩) found₁ rfl rfl
    (by rw [Poller.next, world₁, ← nothing]; rfl)
  obtain ⟨t₃, sleeps, found₃, world₃, owed₃⟩ := poll_moves arch
    (q := ⟨.asleep, true, false⟩) found₂ rfl rfl rfl
  refine ⟨t₃, ?_, found₃, ?_, ?_⟩
  · rw [Execution.run_cons wakes, Execution.run_cons waits, Execution.run_cons tests,
      Execution.run_cons sleeps, Execution.run_nil]
  · rw [world₃, world₂, world₁]
    rfl
  · rw [owed₃, owed₂, owed₁]

/-- The poller sleeps first, then the cancel comes: it is still to be woken. -/
def cancelAsleep : List Action :=
  [.pollEnter, .poll 0, .poll 0, .poll 0, .poll 0, .cancelSet]

theorem cancel_not_missed_asleep :
    ∃ s, Execution.run (Sys.step lp64) freshSys cancelAsleep = some s ∧
      (s.world.vnet.ioDev.canceled = 0 ∨ s.cancelling ≠ 0) := by
  have outcome : (Execution.run (Sys.step lp64) freshSys cancelAsleep).map Sys.pollers =
      some [⟨.asleep, true, false⟩] := by decide +kernel
  obtain ⟨s, hrun, ended⟩ := Option.map_eq_some_iff.mp outcome
  have asleep : ⟨.asleep, true, false⟩ ∈ s.pollers := by
    rw [ended]
    exact List.mem_singleton.mpr rfl
  have registered : Execution.Meets (Sys.step lp64) WakesRegistered freshSys cancelAsleep := by
    simp [Execution.Meets, cancelAsleep, WakesRegistered]
  exact ⟨s, hrun, cancel_not_missed lp64 freshSys s cancelAsleep freshSys_fresh registered hrun _
    asleep rfl⟩

/-- The poller reads the flag, the cancel sets it and wakes nobody, and the
poller registers and sleeps. -/
def cancelWindow : List Action :=
  [.pollEnter, .poll 0, .cancelSet, .cancelWakeup, .poll 0, .poll 0, .poll 0]

theorem cancel_missed_window :
    freshSys.Fresh ∧ ∃ s, Execution.run (Sys.step lp64) freshSys cancelWindow = some s ∧
      ¬ ∀ p ∈ s.pollers, p.sleeps = true →
        s.world.vnet.ioDev.canceled = 0 ∨ s.cancelling ≠ 0 := by
  have outcome : (Execution.run (Sys.step lp64) freshSys cancelWindow).map
      (fun s => (s.pollers, s.world.vnet.ioDev.canceled, s.cancelling)) =
        some ([⟨.asleep, true, false⟩], 1, 0) := by decide +kernel
  obtain ⟨s, hrun, ended⟩ := Option.map_eq_some_iff.mp outcome
  simp only [Prod.mk.injEq] at ended
  obtain ⟨pollers, canceled, cancelling⟩ := ended
  refine ⟨freshSys_fresh, s, hrun, fun heard => ?_⟩
  have asleep : ⟨.asleep, true, false⟩ ∈ s.pollers := by
    rw [pollers]
    exact List.mem_singleton.mpr rfl
  rcases heard _ asleep rfl with unset | owed
  · rw [canceled] at unset
    exact absurd unset (by decide)
  · exact owed cancelling

end Kvnet
