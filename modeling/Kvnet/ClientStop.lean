import Kvnet.Client

/-!
# Stopping the packet loop

Once can_run_loop is false it stays false. The packet loop then enters at most the
read it was about to enter, and makes only a few more steps besides its polls.
-/

namespace Kvnet

/-- How many steps pktLoop is from its end when the flag is false. -/
def LoopPc.rank : LoopPc → Nat
  | .idle => 7
  | .getDriverInfo => 6
  | .malloc => 5
  | .kvnetRead => 4
  | .reading => 3
  | .test => 2
  | .free => 1
  | .ended => 0

/-- The reads that pktLoop enters when the flag is false. -/
def LoopPc.readsAhead : LoopPc → Nat
  | .kvnetRead => 1
  | _ => 0

namespace ClientAction

def isRead : ClientAction → Bool
  | .kvnetRead => true
  | _ => false

/-- A step of pktLoop other than a poll of its read. -/
def advances : ClientAction → Bool
  | .getDriverInfo _ _ _ _ | .malloc _ _ | .test | .kvnetRead | .free => true
  | _ => false

end ClientAction

namespace Client

structure Stopped (c : Client) : Prop where
  order : c.Orderly
  canRunLoop : c.canRunLoop = false
  created : c.pktLoop ≠ .idle

section Step

variable {arch : Arch} {c d : Client} {a : ClientAction}

/-- While the flag is false pktLoop only moves towards its end. -/
theorem loop_falls (cleared : c.canRunLoop = false) (h : c.loopStep arch a = some d) :
    a.advances.toNat + d.pktLoop.rank ≤ c.pktLoop.rank ∧
      a.isRead.toNat + d.pktLoop.readsAhead ≤ c.pktLoop.readsAhead := by
  cases a with
  | getDriverInfo info errno mac fault =>
    have next : ∀ ok : Bool, 1 + (if ok then LoopPc.malloc else .ended).rank ≤ 6 ∧
        0 + (if ok then LoopPc.malloc else .ended).readsAhead ≤ 0 := by decide
    simp only [loopStep, Option.ite_none_right_eq_some, Option.some.injEq] at h
    obtain ⟨here, rfl⟩ := h
    rw [here]
    exact next _
  | malloc hdr packets =>
    have next : ∀ none_there ok : Bool,
        1 + (if none_there then LoopPc.ended else if ok then .test else .free).rank ≤ 5 ∧
        0 + (if none_there then LoopPc.ended else if ok then .test else .free).readsAhead ≤ 0 := by
      decide
    obtain ⟨here, moved⟩ := Option.ite_none_right_eq_some.mp h
    obtain rfl := Option.some.inj moved
    rw [here]
    by_cases none_there : hdr = NULL
    · simp only [if_pos none_there]
      exact next true packets
    · simp only [if_neg none_there]
      exact next false packets
  | test =>
    obtain ⟨here, moved⟩ := Option.ite_none_right_eq_some.mp h
    obtain rfl := Option.some.inj moved
    have low : 1 + LoopPc.free.rank ≤ 2 ∧ 0 + LoopPc.free.readsAhead ≤ 0 := by decide
    rw [here, cleared]
    exact low
  | kvnetRead =>
    have next : ∀ valid : Bool, 1 + (if valid then LoopPc.reading else .free).rank ≤ 4 ∧
        1 + (if valid then LoopPc.reading else .free).readsAhead ≤ 1 := by decide
    obtain ⟨here, moved⟩ := Option.ite_none_right_eq_some.mp h
    obtain rfl := Option.some.inj moved
    rw [here]
    exact next _
  | readRound outcome data errno =>
    obtain ⟨here, moved⟩ := Option.ite_none_right_eq_some.mp h
    obtain ⟨lib, _, rfl⟩ := Option.map_eq_some_iff.mp moved
    have low : 0 + (afterRound lib).rank ≤ 3 ∧ 0 + (afterRound lib).readsAhead ≤ 0 := by
      rcases afterRound_cases lib with ⟨_, at_ | at_⟩ | ⟨_, at_⟩ <;> rw [at_] <;> decide
    rw [here]
    exact low
  | free =>
    obtain ⟨here, moved⟩ := Option.ite_none_right_eq_some.mp h
    obtain rfl := Option.some.inj moved
    have low : 1 + LoopPc.ended.rank ≤ 1 ∧ 0 + LoopPc.ended.readsAhead ≤ 0 := by decide
    rw [here]
    exact low
  | _ => cases h

/-- Main, the handlers and the traffic leave pktLoop where it is. -/
theorem others_stopped (h : c.Stopped) (other : ofLoop a = false)
    (step : c.step arch a = some d) : d.canRunLoop = false ∧ d.pktLoop = c.pktLoop := by
  have late (unawaited : c.main.awaits = false) (early : c.main ≠ .kvnetClose ∧ c.main ≠ .ended) :
      False := by
    rcases h.order.early unawaited with idle | closing | finished
    · exact h.created idle
    · exact early.1 closing
    · exact early.2 finished
  cases a with
  | signal t =>
    obtain ⟨_, moved⟩ := Option.ite_none_right_eq_some.mp step
    obtain rfl := Option.some.inj moved
    exact ⟨h.canRunLoop, rfl⟩
  | cancelLoop t errno ok =>
    rcases cancelLoop_inv step with ⟨_, rfl⟩ | ⟨_, rfl⟩ | ⟨_, rfl⟩
    · simp [h.canRunLoop]
    · simp
    · simp [h.canRunLoop]
  | traffic world =>
    obtain ⟨lib, _, rfl⟩ := Option.map_eq_some_iff.mp step
    exact ⟨h.canRunLoop, rfl⟩
  | kvnetOpen useTap env =>
    obtain ⟨_, moved⟩ := mainStep_of rfl step
    obtain ⟨here, _⟩ := Option.ite_none_right_eq_some.mp moved
    exact (late (by rw [here]; rfl) (by rw [here]; decide)).elim
  | canRunLoop | pthreadCreate ok =>
    obtain ⟨_, moved⟩ := mainStep_of rfl step
    obtain ⟨here, _⟩ := Option.ite_none_right_eq_some.mp moved
    exact (late (by rw [here]; rfl) (by rw [here]; decide)).elim
  | getc quit =>
    obtain ⟨_, moved⟩ := mainStep_of rfl step
    obtain ⟨_, moved⟩ := Option.ite_none_right_eq_some.mp moved
    obtain rfl := Option.some.inj moved
    cases quit <;> exact ⟨h.canRunLoop, rfl⟩
  | pthreadJoin =>
    obtain ⟨_, moved⟩ := mainStep_of rfl step
    obtain ⟨_, moved⟩ := Option.ite_none_right_eq_some.mp moved
    obtain rfl := Option.some.inj moved
    exact ⟨h.canRunLoop, rfl⟩
  | kvnetClose errno fuel =>
    obtain ⟨_, moved⟩ := mainStep_of rfl step
    obtain ⟨_, moved⟩ := Option.ite_none_right_eq_some.mp moved
    obtain ⟨_, _, rfl⟩ := Option.map_eq_some_iff.mp moved
    exact ⟨h.canRunLoop, rfl⟩
  | getDriverInfo info errno mac fault | malloc hdr packets | test | kvnetRead
  | readRound outcome data errno | free => cases other

theorem step_stopped (h : c.Stopped) (step : c.step arch a = some d) :
    d.Stopped ∧ a.advances.toNat + d.pktLoop.rank ≤ c.pktLoop.rank ∧
      a.isRead.toNat + d.pktLoop.readsAhead ≤ c.pktLoop.readsAhead := by
  have order := step_orderly h.order step
  cases loop : ofLoop a with
  | true =>
    obtain ⟨silent, moved⟩ := loopStep_of loop step
    have moves := loopStep_moves silent moved
    have cleared : d.canRunLoop = false := by
      rw [moves.same]
      exact h.canRunLoop
    exact ⟨⟨order, cleared, moves.started⟩, loop_falls h.canRunLoop moved⟩
  | false =>
    obtain ⟨cleared, still⟩ := others_stopped h loop step
    have uncounted : a.advances = false ∧ a.isRead = false := by
      cases a <;> first | exact ⟨rfl, rfl⟩ | cases loop
    refine ⟨⟨order, cleared, still ▸ h.created⟩, ?_⟩
    rw [uncounted.1, uncounted.2, still]
    simp

end Step

/-- Once the flag is false after pktLoop was created, it enters at most one more
read, and makes at most six more steps besides polls, whatever else runs. -/
theorem stopped_reads_once (arch : Arch) (c₀ c d : Client) (before after : List ClientAction)
    (fresh : c₀.Fresh) (reached : Execution.run (Client.step arch) c₀ before = some c)
    (cleared : c.canRunLoop = false) (created : c.pktLoop ≠ .idle)
    (later : Execution.run (Client.step arch) c after = some d) :
    d.canRunLoop = false ∧ after.countP ClientAction.isRead ≤ 1 ∧
      after.countP ClientAction.advances + d.pktLoop.rank ≤ 6 := by
  have order := Execution.run_invariant Orderly (fun _ _ _ => step_orderly) (fresh_orderly fresh)
    reached
  have start : c.Stopped := ⟨order, cleared, created⟩
  have keeps : ∀ c a d, Stopped c → c.step arch a = some d → Stopped d :=
    fun _ _ _ h step => (step_stopped h step).1
  have reads := Execution.run_rank Stopped (fun c => c.pktLoop.readsAhead) keeps
    (fun _ _ _ h step => (step_stopped h step).2.2) start later
  have steps := Execution.run_rank Stopped (fun c => c.pktLoop.rank) keeps
    (fun _ _ _ h step => (step_stopped h step).2.1) start later
  have bounds : c.pktLoop.readsAhead ≤ 1 ∧ c.pktLoop.rank ≤ 6 := by
    revert created
    generalize c.pktLoop = pc
    cases pc <;> decide
  refine ⟨(Execution.run_invariant Stopped keeps start later).canRunLoop, ?_, ?_⟩
  · exact Nat.le_trans (Nat.le_of_add_right_le reads) bounds.1
  · exact Nat.le_trans steps bounds.2

end Client

/-- A signal clears the flag when pktLoop has just tested it. -/
def interrupted : List ClientAction :=
  [.kvnetOpen true ⟨0, 3, true, true, true, 0, 1⟩, .canRunLoop, .pthreadCreate true,
    .getDriverInfo 512 0 none none, .malloc 4096 true, .test, .signal .main,
    .cancelLoop .main 0 true, .cancelLoop .main 0 true]

theorem stopped_reads_once_interrupted :
    [ClientAction.kvnetRead, .cancelLoop .main 0 true, .readRound .timeout noFrame 0, .free].countP
      ClientAction.isRead ≤ 1 := by
  have reached : (Execution.run (Client.step lp64) idleClient interrupted).map
      (fun c => (c.canRunLoop, c.pktLoop)) = some (false, .kvnetRead) := by decide +kernel
  obtain ⟨c, ran, at_⟩ := Option.map_eq_some_iff.mp reached
  have goes_on : ((Execution.run (Client.step lp64) idleClient interrupted).bind fun c =>
      Execution.run (Client.step lp64) c [.kvnetRead, .cancelLoop .main 0 true,
        .readRound .timeout noFrame 0, .free]).isSome = true := by decide +kernel
  obtain ⟨d, later⟩ := Option.isSome_iff_exists.mp goes_on
  rw [ran, Option.bind_some] at later
  have cleared : c.canRunLoop = false := congrArg Prod.fst at_
  have created : c.pktLoop ≠ .idle := by
    rw [show c.pktLoop = .kvnetRead from congrArg Prod.snd at_]
    decide
  exact (Client.stopped_reads_once lp64 idleClient c d interrupted _ idleClient_fresh ran cleared
    created later).2.1

end Kvnet
