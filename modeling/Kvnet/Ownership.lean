import Kvnet.Interleaving

/-!
# Who owns a buffer

The log of buffer accesses is replayed against the set of live buffers: a
buffer becomes live when the network stack passes it to net_dev_send, and a
replay is stuck at an access to, or a free of, a buffer that is not live. In
every interleaving the live buffers are exactly those being handed over, queued,
or held by a reader, each in one place.
-/

namespace Kvnet

/-- One event against the live buffers. -/
def liveStep (live : Addr → Bool) : SkbEvent → Option (Addr → Bool)
  | .pass skb => if live skb then none else some (Function.update live skb true)
  | .load _ skb | .store _ skb => if live skb then some live else none
  | .free skb => if live skb then some (Function.update live skb false) else none

/-- The event reads or writes a live buffer. -/
def Touches (live : Addr → Bool) : SkbEvent → Prop
  | .load _ skb | .store _ skb => live skb = true
  | _ => False

theorem replay_touches {live : Addr → Bool} {events : List SkbEvent}
    (touches : ∀ e ∈ events, Touches live e) : Execution.run liveStep live events = some live := by
  induction events with
  | nil => rfl
  | cons e events ih =>
    have first : liveStep live e = some live := by
      have touched := touches e List.mem_cons_self
      cases e with
      | load via skb => exact if_pos touched
      | store via skb => exact if_pos touched
      | pass skb => exact False.elim touched
      | free skb => exact False.elim touched
    rw [Execution.run, first]
    exact ih fun e he => touches e (List.mem_cons_of_mem _ he)

/-- Draining frees what is queued and nothing else. -/
theorem replay_drain {live : Addr → Bool} {xs : List Addr} (nodup : xs.Nodup)
    (queued : ∀ x ∈ xs, live x = true) :
    ∃ live', Execution.run liveStep live (drainLog xs) = some live' ∧
      ∀ x, (live' x).toNat + xs.count x = (live x).toNat := by
  induction xs generalizing live with
  | nil => exact ⟨live, rfl, fun x => by simp⟩
  | cons y xs ih =>
    obtain ⟨fresh, nodup⟩ := List.nodup_cons.mp nodup
    have first : live y = true := queued y List.mem_cons_self
    have later : ∀ x ∈ xs, Function.update live y false x = true := by
      intro x hx
      have other : x ≠ y := fun same => fresh (same ▸ hx)
      rw [Function.update_of_ne other]
      exact queued x (List.mem_cons_of_mem y hx)
    obtain ⟨live', replays, count⟩ := ih nodup later
    refine ⟨live', ?_, fun x => ?_⟩
    · simpa [drainLog_cons, Execution.run, liveStep, first] using replays
    · have below := count x
      by_cases same : x = y
      · subst same
        have none_left := List.count_eq_zero.mpr fresh
        simp only [Function.update_self, Bool.toNat_false] at below
        simp only [List.count_cons_self, first, Bool.toNat_true]
        omega
      · rw [Function.update_of_ne same] at below
        rw [List.count_cons_of_ne fun h => same h.symm]
        exact below

/-- A buffer has been passed as often as it has been freed, once more if it is live. -/
theorem replay_count {live live' : Addr → Bool} {events : List SkbEvent}
    (replays : Execution.run liveStep live events = some live') (x : Addr) :
    (live x).toNat + (events.filterMap SkbEvent.passed).count x =
      (live' x).toNat + (events.filterMap SkbEvent.freed).count x := by
  induction events generalizing live with
  | nil =>
    obtain rfl : live = live' := Option.some.inj replays
    rfl
  | cons e events ih =>
    obtain ⟨next, first, rest⟩ := Execution.run_cons_some replays
    have later := ih rest
    cases e with
    | load via skb =>
      obtain ⟨_, rfl⟩ : live skb = true ∧ live = next := by simpa [liveStep] using first
      exact later
    | store via skb =>
      obtain ⟨_, rfl⟩ : live skb = true ∧ live = next := by simpa [liveStep] using first
      exact later
    | pass skb =>
      obtain ⟨dead, rfl⟩ : live skb = false ∧ Function.update live skb true = next := by
        simpa [liveStep] using first
      change _ + (skb :: events.filterMap SkbEvent.passed).count x =
        _ + (events.filterMap SkbEvent.freed).count x
      by_cases same : x = skb
      · subst same
        rw [Function.update_self, Bool.toNat_true] at later
        rw [List.count_cons_self, dead, Bool.toNat_false]
        omega
      · rw [Function.update_of_ne same] at later
        rw [List.count_cons_of_ne fun h => same h.symm]
        exact later
    | free skb =>
      obtain ⟨alive, rfl⟩ : live skb = true ∧ Function.update live skb false = next := by
        simpa [liveStep] using first
      change _ + (events.filterMap SkbEvent.passed).count x =
        _ + (skb :: events.filterMap SkbEvent.freed).count x
      by_cases same : x = skb
      · subst same
        rw [Function.update_self, Bool.toNat_false] at later
        rw [List.count_cons_self, alive, Bool.toNat_true]
        omega
      · rw [Function.update_of_ne same] at later
        rw [List.count_cons_of_ne fun h => same h.symm]
        exact later

/-- The replay of the log ends in `live`; each live buffer is in one place, and
the queue is what was accepted less what was removed. -/
structure Owned (s : Sys) (xs : List Addr) (live : Addr → Bool) : Prop where
  represents : Represents s.world.mem s.world.queue xs
  replays : Execution.run liveStep (fun _ => false) s.world.mem.log = some live
  places : ∀ x, s.handing.count x + xs.count x + s.held.count x = (live x).toNat
  valid : live NULL = false
  order : s.accepted = s.removed ++ xs

theorem fresh_owned {s : Sys} (fresh : s.Fresh) : Owned s [] fun _ => false where
  represents := by
    rw [fresh.queue]
    exact Represents.init s.world.mem s.world.queue
  replays := by rw [fresh.log]; rfl
  places := by
    intro x
    simp [Sys.handing, Sys.held, fresh.senders, fresh.readers]
  valid := rfl
  order := by rw [fresh.accepted, fresh.removed]; rfl

namespace Owned

variable {s t : Sys} {xs ys : List Addr} {live live' : Addr → Bool}

/-- A step that logs `events` moves the ownership along with their replay. -/
theorem advance (h : Owned s xs live) (events : List SkbEvent)
    (represents : Represents t.world.mem t.world.queue ys)
    (log : t.world.mem.log = s.world.mem.log ++ events)
    (replays : Execution.run liveStep live events = some live')
    (places : ∀ x, t.handing.count x + ys.count x + t.held.count x = (live' x).toNat)
    (valid : live' NULL = false) (order : t.accepted = t.removed ++ ys) : Owned t ys live' where
  represents := represents
  replays := by rw [log, Execution.run_append, h.replays]; exact replays
  places := places
  valid := valid
  order := order

/-- A step that moves no buffer. -/
theorem still (h : Owned s xs live) (represents : Represents t.world.mem t.world.queue xs)
    (log : t.world.mem.log = s.world.mem.log)
    (handing : ∀ x, t.handing.count x = s.handing.count x)
    (held : ∀ x, t.held.count x = s.held.count x)
    (accepted : t.accepted = s.accepted) (removed : t.removed = s.removed) : Owned t xs live := by
  refine h.advance [] represents (by rw [log, List.append_nil]) rfl (fun x => ?_) h.valid ?_
  · rw [handing, held]
    exact h.places x
  · rw [accepted, removed]
    exact h.order

theorem live_of_place (h : Owned s xs live) {x : Addr}
    (place : 0 < s.handing.count x + xs.count x + s.held.count x) : live x = true := by
  rw [h.places x] at place
  cases alive : live x with
  | true => rfl
  | false => simp [alive] at place

theorem live_queued (h : Owned s xs live) {x : Addr} (hx : x ∈ xs) : live x = true := by
  have queued := List.count_pos_iff.mpr hx
  exact h.live_of_place (by omega)

theorem live_held (h : Owned s xs live) {k : Nat} {r : Reader} {x : Addr}
    (found : s.readers[k]? = some r) (holds : r.held = some x) : live x = true := by
  have held : 0 < s.held.count x :=
    List.count_pos_iff.mpr (List.mem_filterMap.mpr ⟨r, List.mem_of_getElem? found, holds⟩)
  exact h.live_of_place (by omega)

theorem one_place (h : Owned s xs live) (x : Addr) :
    s.handing.count x + xs.count x + s.held.count x ≤ 1 := by
  rw [h.places x]
  exact Bool.toNat_le (live x)

/-- A step that copies a live buffer's data. -/
theorem fills (h : Owned s xs live) {skb : Addr} {counted : Bool} (alive : live skb = true)
    (fill : FillStep s.world t.world skb counted) (handing : t.handing = s.handing)
    (held : ∀ x, t.held.count x = s.held.count x) (accepted : t.accepted = s.accepted)
    (removed : t.removed = s.removed) : Owned t xs live := by
  obtain ⟨loads, log, hloads⟩ := fill.log
  refine h.advance loads ?_ log (replay_touches fun e he => ?_) (fun x => ?_) h.valid ?_
  · rw [show t.world.queue = s.world.queue from fill.queue]
    exact h.represents.congr fun y _ => (congrFun fill.next y).symm
  · rw [hloads e he]
    exact alive
  · rw [handing, held]
    exact h.places x
  · rw [accepted, removed]
    exact h.order

end Owned

/-- Freeing a live buffer takes it out of the live ones. -/
theorem update_free {live : Addr → Bool} {skb : Addr} (alive : live skb = true) (x : Addr) :
    (Function.update live skb false x).toNat + [skb].count x = (live x).toNat := by
  by_cases same : x = skb
  · subst same
    simp [alive]
  · rw [Function.update_of_ne same, List.count_singleton, beq_false_of_ne fun h => same h.symm]
    rfl

theorem update_pass {live : Addr → Bool} {skb : Addr} (dead : live skb = false) (x : Addr) :
    (Function.update live skb true x).toNat = (live x).toNat + [skb].count x := by
  by_cases same : x = skb
  · subst same
    simp [dead]
  · rw [Function.update_of_ne same, List.count_singleton, beq_false_of_ne fun h => same h.symm]
    rfl

/-- Its thread frees a buffer it was handing over or holding. -/
theorem Owned.free {s t : Sys} {xs : List Addr} {live : Addr → Bool} (h : Owned s xs live)
    {skb : Addr} (alive : live skb = true) (mem : t.world.mem = s.world.mem.kfreeSkb skb)
    (queue : t.world.queue = s.world.queue)
    (places : ∀ x, t.handing.count x + t.held.count x + [skb].count x =
      s.handing.count x + s.held.count x)
    (accepted : t.accepted = s.accepted) (removed : t.removed = s.removed) :
    Owned t xs (Function.update live skb false) := by
  refine h.advance [.free skb] ?_ (by rw [mem]; rfl) ?_ (fun x => ?_) ?_ ?_
  · rw [mem, queue]
    exact h.represents.kfree skb
  · simp [Execution.run, liveStep, alive]
  · have before := h.places x
    have gone := places x
    have freed := update_free alive x
    omega
  · have nonnull : NULL ≠ skb := by
      rintro rfl
      rw [h.valid] at alive
      cases alive
    rw [Function.update_of_ne nonnull]
    exact h.valid
  · rw [accepted, removed]
    exact h.order

section Step

variable {s t : Sys} {xs : List Addr} {live : Addr → Bool} {k : Nat}

theorem sendEnter_owned (h : Owned s xs live) {skb : Addr} (step : s.sendEnter skb = some t) :
    ∃ live', Owned t xs live' := by
  obtain ⟨⟨nonnull, unowned⟩, rfl⟩ := Sys.sendEnter_inv step
  have dead : live skb = false := by
    have balance := replay_count h.replays skb
    change 0 + s.world.mem.passed.count skb = _ + s.world.mem.freed.count skb at balance
    cases alive : live skb with
    | false => rfl
    | true =>
      rw [alive, Bool.toNat_true] at balance
      omega
  refine ⟨Function.update live skb true, h.advance [.pass skb] ?_ rfl ?_ ?_ ?_ h.order⟩
  · exact h.represents.pass skb
  · simp [Execution.run, liveStep, dead]
  · intro x
    have before := h.places x
    rw [update_pass dead x]
    simp only [Sys.handing, Sys.held, List.filterMap_append, List.count_append] at before ⊢
    change _ + [skb].count x + _ + _ = _
    omega
  · rw [Function.update_of_ne fun same => nonnull same.symm]
    exact h.valid

theorem sendSection_owned (h : Owned s xs live) {txQueueLen : UInt64}
    (step : s.sendSection k txQueueLen = some t) : ∃ ys live', Owned t ys live' := by
  obtain ⟨skb, found, outcome⟩ := Sys.sendSection_inv step
  have handed : 0 < s.handing.count skb := by
    refine List.count_pos_iff.mpr (List.mem_filterMap.mpr ⟨.entered skb, ?_, rfl⟩)
    exact List.mem_of_getElem? found
  have alive : live skb = true := h.live_of_place (by omega)
  rcases outcome with ⟨drops, rfl⟩ | ⟨accepts, rfl⟩
  · refine ⟨xs, _, h.free alive ?_ ?_ (fun x => ?_) rfl rfl⟩
    · rw [netDevSendSection_drops drops]
      rfl
    · rw [netDevSendSection_drops drops]
      rfl
    · have left := Pool.count_eraseIdx (f := Sender.handing) found x
      change (s.senders.eraseIdx k |>.filterMap Sender.handing).count x + s.held.count x + _ = _
      change _ + [skb].count x = s.handing.count x at left
      omega
  · have nonnull : skb ≠ NULL := by
      rintro rfl
      rw [h.valid] at alive
      cases alive
    have fresh : skb ∉ xs := by
      have single := h.one_place skb
      exact List.count_eq_zero.mp (by omega)
    refine ⟨xs ++ [skb], live, h.advance (.store .buf skb ::
      (if hne : xs = [] then [] else [.store .tail (xs.getLast hne)])) ?_ ?_ ?_ ?_ h.valid ?_⟩
    · rw [netDevSendSection_inserts accepts]
      exact queueInsert_represents h.represents nonnull fresh
    · rw [netDevSendSection_inserts accepts]
      exact queueInsert_log h.represents
    · refine replay_touches fun e he => ?_
      rcases List.mem_cons.mp he with rfl | last
      · exact alive
      · by_cases hne : xs = []
        · rw [dif_pos hne] at last
          cases last
        · rw [dif_neg hne] at last
          obtain rfl := List.mem_singleton.mp last
          exact h.live_queued (List.getLast_mem hne)
    · intro x
      have before := h.places x
      have moved := Pool.count_set (f := Sender.handing) found .inserted x
      change (s.senders.set k .inserted |>.filterMap Sender.handing).count x +
        (xs ++ [skb]).count x + s.held.count x = _
      change _ + [skb].count x = s.handing.count x + 0 at moved
      rw [List.count_append]
      omega
    · change s.accepted ++ [skb] = s.removed ++ (xs ++ [skb])
      rw [h.order, List.append_assoc]

theorem sendWakeup_owned (h : Owned s xs live) (step : s.sendWakeup k = some t) :
    Owned t xs live := by
  obtain ⟨found, rfl⟩ := Sys.sendWakeup_inv step
  refine h.still h.represents rfl (fun x => ?_) (fun _ => rfl) rfl rfl
  exact Pool.count_eraseIdx (f := Sender.handing) found x

theorem readEnter_owned (h : Owned s xs live) (arch : Arch) (iv : List Iovec) (len : Int)
    (env : HeaderEnv) : Owned (s.readEnter arch iv len env) xs live := by
  rcases Sys.readEnter_inv arch s iv len env with same | ⟨hdr, _, entered⟩
  · rw [same]
    exact h
  · rw [entered]
    refine h.still h.represents rfl (fun _ => rfl) (fun x => ?_) rfl rfl
    rw [Sys.held, List.filterMap_append, List.count_append]
    rfl

theorem readRemove_owned (h : Owned s xs live) (step : s.readRemove k = some t) :
    ∃ ys, Owned t ys live := by
  obtain ⟨r, found, pc, outcome⟩ := Sys.readRemove_inv step
  have unheld : r.held = none := by rw [Reader.held, pc]
  cases xs with
  | nil =>
    have empty := queueRemove_nil h.represents
    rcases outcome with ⟨_, rfl⟩ | ⟨nonempty, _⟩
    · refine ⟨[], h.still ?_ ?_ (fun _ => rfl) (fun x => ?_) rfl rfl⟩
      · rw [empty]
        exact h.represents
      · rw [empty]
      · have moved := Pool.count_set (f := Reader.held) found
          { r with ret := readEmpty r.ret, pc := .report } x
        rw [unheld] at moved
        exact moved
    · rw [empty] at nonempty
      exact False.elim (nonempty rfl)
  | cons y ys =>
    have first := queueRemove_first h.represents
    have nonnull := h.represents.first_valid
    rcases outcome with ⟨empty, _⟩ | ⟨_, rfl⟩
    · exact False.elim (nonnull (first.symm.trans empty))
    · have queued := h.live_queued (List.mem_cons_self (a := y) (l := ys))
      refine ⟨ys, h.advance [.load .head y, .store .buf y] (queueRemove_rest h.represents)
        (queueRemove_log h.represents) ?_ (fun x => ?_) h.valid ?_⟩
      · refine replay_touches fun e he => ?_
        rcases List.mem_cons.mp he with rfl | he
        · exact queued
        · obtain rfl := List.mem_singleton.mp he
          exact queued
      · have before := h.places x
        have moved := Pool.count_set (f := Reader.held) found { r with pc := .fill y } x
        rw [unheld] at moved
        rw [first]
        change s.handing.count x + ys.count x +
          ((s.readers.set k { r with pc := .fill y }).filterMap Reader.held).count x = _
        change _ + 0 = s.held.count x + [y].count x at moved
        rw [← List.singleton_append, List.count_append] at before
        omega
      · rw [first]
        change s.accepted = s.removed ++ [y] ++ ys
        rw [h.order, List.append_assoc]
        rfl

theorem readFill_owned (h : Owned s xs live) {fault : Option FillFault}
    (step : s.readFill k fault = some t) : Owned t xs live := by
  obtain ⟨r, skb, found, pc, rfl⟩ := Sys.readFill_inv step
  have holds : r.held = some skb := by rw [Reader.held, pc]
  obtain ⟨_, fill⟩ := fill_step s.world (r.hdr.pkt r.i) skb fault
  refine h.fills (h.live_held found holds) fill rfl (fun x => ?_) rfl rfl
  have kept := Pool.count_set (f := Reader.held) found { r with
    pc := .free skb (ioReadFillNetworkPacket s.world (r.hdr.pkt r.i) skb fault).2 } x
  rw [holds] at kept
  exact Nat.add_right_cancel kept

theorem readFree_owned (h : Owned s xs live) {arch : Arch} (step : s.readFree arch k = some t) :
    ∃ live', Owned t xs live' := by
  obtain ⟨r, r', skb, failed, found, pc, unheld, rfl⟩ := Sys.readFree_inv step
  have holds : r.held = some skb := by rw [Reader.held, pc]
  refine ⟨_, h.free (h.live_held found holds) rfl rfl (fun x => ?_) rfl rfl⟩
  have left := Pool.count_set (f := Reader.held) found r' x
  rw [holds, unheld] at left
  change s.handing.count x + ((s.readers.set k r').filterMap Reader.held).count x + _ = _
  change _ + [skb].count x = s.held.count x + 0 at left
  omega

theorem readReport_owned (h : Owned s xs live) {arch : Arch} {toIovec : Option Nat}
    (step : s.readReport arch k toIovec = some t) : Owned t xs live := by
  obtain ⟨r, found, pc, rfl⟩ := Sys.readReport_inv step
  have unheld : r.held = none := by rw [Reader.held, pc]
  obtain ⟨user, world⟩ := reportCount_world arch s.world r.iv r.ret toIovec
  refine h.still ?_ ?_ (fun _ => rfl) (fun x => ?_) rfl rfl
  · rw [world]
    exact h.represents
  · rw [world, World.withUser_mem]
  · have left := Pool.count_eraseIdx (f := Reader.held) found x
    rw [unheld] at left
    exact left

theorem closeFlush_owned (h : Owned s xs live) (step : s.closeFlush = some t) :
    ∃ live', Owned t [] live' := by
  obtain ⟨_, w, flushes, rfl⟩ := Sys.closeFlush_inv step
  have flushed := flush_drains h.represents flushes
  obtain ⟨live', replays, count⟩ := replay_drain h.represents.nodup fun x => h.live_queued
  refine ⟨live', h.advance (drainLog xs) flushed.represents flushed.log replays (fun x => ?_) ?_ ?_⟩
  · have before := h.places x
    have drained := count x
    change s.handing.count x + 0 + s.held.count x = _
    omega
  · have drained := count NULL
    rw [h.valid, Bool.toNat_false] at drained
    cases alive : live' NULL with
    | false => rfl
    | true =>
      rw [alive, Bool.toNat_true] at drained
      omega
  · change s.accepted = s.removed ++ w.mem.freed.drop s.world.mem.freed.length ++ []
    rw [flushed.freed, List.drop_left, List.append_nil]
    exact h.order

end Step

/-- Every step keeps every buffer in one place. -/
theorem step_owned {arch : Arch} {s t : Sys} {a : Action} (h : ∃ xs live, Owned s xs live)
    (step : s.step arch a = some t) : ∃ xs live, Owned t xs live := by
  obtain ⟨xs, live, h⟩ := h
  cases a with
  | sendEnter skb => exact ⟨xs, sendEnter_owned h step⟩
  | sendSection k txQueueLen => exact sendSection_owned h step
  | sendWakeup k => exact ⟨xs, live, sendWakeup_owned h step⟩
  | readEnter iv len env =>
    obtain rfl := Option.some.inj step
    exact ⟨xs, live, readEnter_owned h arch iv len env⟩
  | readRemove k =>
    obtain ⟨ys, h'⟩ := readRemove_owned h step
    exact ⟨ys, live, h'⟩
  | readFill k fault => exact ⟨xs, live, readFill_owned h step⟩
  | readFree k => exact ⟨xs, readFree_owned h step⟩
  | readReport k toIovec => exact ⟨xs, live, readReport_owned h step⟩
  | netDevOpen =>
    obtain ⟨_, rfl⟩ := Sys.netDevOpen_inv step
    exact ⟨xs, live, h.still (enableQueue_represents h.represents 1) rfl (fun _ => rfl)
      (fun _ => rfl) rfl rfl⟩
  | closeDisable =>
    obtain ⟨_, rfl⟩ := Sys.closeDisable_inv step
    exact ⟨xs, live, h.still (enableQueue_represents h.represents 0) rfl (fun _ => rfl)
      (fun _ => rfl) rfl rfl⟩
  | closeFlush => exact ⟨[], closeFlush_owned h step⟩
  | pollEnter =>
    obtain rfl := Option.some.inj step
    exact ⟨xs, live, h.still h.represents rfl (fun _ => rfl) (fun _ => rfl) rfl rfl⟩
  | poll k =>
    obtain ⟨_, _, _, ⟨_, rfl⟩ | ⟨_, rfl⟩⟩ := Sys.pollStep_inv step
    all_goals exact ⟨xs, live, h.still h.represents rfl (fun _ => rfl) (fun _ => rfl) rfl rfl⟩
  | pollSignal k =>
    obtain rfl := Sys.pollSignal_inv step
    exact ⟨xs, live, h.still h.represents rfl (fun _ => rfl) (fun _ => rfl) rfl rfl⟩
  | cancelSet =>
    obtain rfl := Option.some.inj step
    exact ⟨xs, live, h.still h.represents rfl (fun _ => rfl) (fun _ => rfl) rfl rfl⟩
  | cancelWakeup =>
    obtain ⟨_, rfl⟩ := Sys.cancelWakeup_inv step
    exact ⟨xs, live, h.still h.represents rfl (fun _ => rfl) (fun _ => rfl) rfl rfl⟩
  | userStore user =>
    obtain rfl := Option.some.inj step
    exact ⟨xs, live, h.still h.represents rfl (fun _ => rfl) (fun _ => rfl) rfl rfl⟩

theorem run_owned {arch : Arch} {s₀ s : Sys} {actions : List Action} (fresh : s₀.Fresh)
    (h : Execution.run (Sys.step arch) s₀ actions = some s) : ∃ xs live, Owned s xs live :=
  Execution.run_invariant (fun s => ∃ xs live, Owned s xs live) (fun _ _ _ => step_owned)
    ⟨[], _, fresh_owned fresh⟩ h

/-- In every interleaving, a buffer that has been passed n times has been freed n
times, or n - 1 times and is in one place: being handed over, queued, or held by
one reader. No access and no free reaches a buffer outside these places. Buffers
leave the queue in the order in which they were accepted. -/
theorem one_owner (arch : Arch) (s₀ s : Sys) (actions : List Action) (fresh : s₀.Fresh)
    (h : Execution.run (Sys.step arch) s₀ actions = some s) :
    ∃ xs, Represents s.world.mem s.world.queue xs ∧
      (s.handing ++ xs ++ s.held).Nodup ∧
      (∀ x, s.world.mem.passed.count x =
        s.world.mem.freed.count x + (s.handing ++ xs ++ s.held).count x) ∧
      (∃ live, Execution.run liveStep (fun _ => false) s.world.mem.log = some live ∧
        ∀ x, live x = true ↔ x ∈ s.handing ++ xs ++ s.held) ∧
      s.accepted = s.removed ++ xs := by
  obtain ⟨xs, live, owned⟩ := run_owned fresh h
  have count : ∀ x, (s.handing ++ xs ++ s.held).count x = (live x).toNat := by
    intro x
    rw [List.count_append, List.count_append, owned.places x]
  refine ⟨xs, owned.represents, ?_, fun x => ?_, ⟨live, owned.replays, fun x => ?_⟩, owned.order⟩
  · exact List.nodup_iff_count_le_one.mpr fun x => by rw [count x]; exact Bool.toNat_le (live x)
  · have balance := replay_count owned.replays x
    change 0 + s.world.mem.passed.count x = _ + s.world.mem.freed.count x at balance
    rw [count x]
    omega
  · rw [← List.count_pos_iff, count x]
    cases live x <;> decide

def freshSys : Sys where
  world :=
    { mem := ⟨fun _ => ⟨NULL, [0xaa]⟩, []⟩
      user := storeBytes (fun _ => 0) 4096 (leBytes 4 1 ++ leBytes 8 8192)
      vnet := ⟨⟨1, 1, 0⟩, ⟨1, 0, ⟨0, 0, 0, 0, 0, 0, 0, 0, 0, 0⟩, ⟨0, 0, 0, 0⟩, 64⟩, ⟨[], 256⟩⟩
      kernel := ⟨[], [], 65, 64, false⟩ }
  senders := []
  readers := []
  pollers := []
  ctl := .down
  cancelling := 0
  accepted := []
  removed := []

theorem freshSys_fresh : freshSys.Fresh := ⟨rfl, rfl, rfl, rfl, rfl, rfl, rfl, rfl, rfl⟩

/-- One reader's copy faults while the interface goes down and a third send
finds the queue disabled. -/
def closeRace : List Action :=
  [.netDevOpen, .sendEnter 1, .sendEnter 2, .sendSection 1 256, .sendSection 0 256,
    .readEnter [⟨4096, 12⟩] 12 ⟨true, false, fun _ => 0⟩, .readRemove 0, .sendWakeup 1,
    .readFill 0 (some .getUser), .closeDisable, .sendEnter 3, .sendSection 1 256, .closeFlush,
    .sendEnter 4]

theorem one_owner_closeRace :
    ∃ s xs, Execution.run (Sys.step lp64) freshSys closeRace = some s ∧
      s.handing = [4] ∧ s.held = [2] ∧ s.world.mem.freed = [3, 1] ∧ [2, 1] = s.removed ++ xs := by
  have outcome : (Execution.run (Sys.step lp64) freshSys closeRace).map
      (fun s => (s.handing, s.held, s.world.mem.freed, s.accepted)) =
        some ([4], [2], [3, 1], [2, 1]) := by decide +kernel
  obtain ⟨s, hrun, ended⟩ := Option.map_eq_some_iff.mp outcome
  obtain ⟨xs, _, _, _, _, order⟩ := one_owner lp64 freshSys s closeRace freshSys_fresh hrun
  simp only [Prod.mk.injEq] at ended
  obtain ⟨handing, held, freed, accepted⟩ := ended
  exact ⟨s, xs, hrun, handing, held, freed, accepted ▸ order⟩

end Kvnet
