import Kvnet.Cancellation

/-!
# The packet loop client

The example client opens the library, starts a thread that reads packets until
can_run_loop is false, and waits for a key. cancel_loop is called for the key by
the main thread and for each signal by the thread the signal interrupts, which
goes on only when the handler is through. Main closes the library when the other
thread has ended, or when there is none because pthread_create failed.
-/

namespace Kvnet

/-- KVNET_SUCCEEDED -/
def kvnetSucceeded (status : UInt32) : Bool := kvnetStatus status = KVNET_NO_ERROR

def MAX_PACKETS : Nat := 64

/-- The length of the header pktLoop allocates. -/
def pktLoopLen (arch : Arch) : UInt32 :=
  UInt32.ofNat (arch.sizeofHeader + (MAX_PACKETS - 1) * arch.ptrSize)

/-- A cancel leaves the handle and the reads as they are, and counts on a handle
that is open if the ioctl gets through. -/
theorem LibSys.cancelStep_keeps (s : LibSys) (errno : UInt32) (ok : Bool) :
    (s.cancelStep errno ok).lib.fdesc = s.lib.fdesc ∧ (s.cancelStep errno ok).reads = s.reads ∧
      (ok = true → s.lib.fdesc ≠ -1 → (s.cancelStep errno ok).armed = true) := by
  unfold LibSys.cancelStep kvnetCancelRead
  by_cases tap : s.lib.useTapDev ≠ 0
  · simp only [if_pos tap]
    refine ⟨trivial, trivial, fun _ opened => ?_⟩
    simp [kvnetStatus_make, opened, show KVNET_NO_ERROR &&& lowHalf = KVNET_NO_ERROR by decide]
  · simp only [if_neg tap]
    by_cases closed : s.lib.fdesc = -1
    · simp only [if_pos closed]
      exact ⟨trivial, trivial, fun _ opened => absurd closed opened⟩
    · simp only [if_neg closed]
      cases ok with
      | false => exact ⟨rfl, trivial, fun refused => by cases refused⟩
      | true =>
        refine ⟨rfl, trivial, fun _ _ => ?_⟩
        simp [kvnetStatus_make, closed, show KVNET_NO_ERROR &&& lowHalf = KVNET_NO_ERROR by decide]

inductive Thread where
  | main
  | pktLoop
  deriving DecidableEq

/-- What is next in cancel_loop: its test, clearing the flag, or its call. -/
inductive CancelPc where
  | test
  | clear
  | kvnetCancelRead
  deriving DecidableEq

/-- What is next in main. -/
inductive MainPc where
  | kvnetOpen
  | canRunLoop
  | pthreadCreate
  | createFailed
  | getc
  | cancelLoop (pc : CancelPc)
  | pthreadJoin
  | kvnetClose
  | ended
  deriving DecidableEq

/-- What is next in pktLoop; `reading` is inside its kvnet_read. -/
inductive LoopPc where
  | idle
  | getDriverInfo
  | malloc
  | test
  | kvnetRead
  | reading
  | free
  | ended
  deriving DecidableEq

/-- The process: `handlers` are the calls of signal_handler on each thread, the
innermost first. -/
structure Client where
  lib : LibSys
  hdr : Addr
  canRunLoop : Bool
  main : MainPc
  pktLoop : LoopPc
  handlers : Thread → List CancelPc

inductive ClientAction where
  | kvnetOpen (useTap : Bool) (env : OpenEnv)
  | canRunLoop
  | pthreadCreate (ok : Bool)
  | getc (quit : Bool)
  | pthreadJoin
  | kvnetClose (errno : UInt32) (fuel : Nat)
  | getDriverInfo (info : Addr) (errno : UInt32) (mac : Option (List UInt8))
      (fault : Option GetInfoFault)
  | malloc (hdr : Addr) (packets : Bool)
  | test
  | kvnetRead
  | readRound (outcome : PollOutcome) (data : DataEnv) (errno : UInt32)
  | free
  | signal (t : Thread)
  | cancelLoop (t : Thread) (errno : UInt32) (ok : Bool)
  | traffic (world : World)

namespace Client

/-- The thread is alive. Main counts as such to the end of the process. -/
def alive (c : Client) : Thread → Bool
  | .main => true
  | .pktLoop => c.pktLoop ≠ .idle && c.pktLoop ≠ .ended

/-- The call of cancel_loop that the thread is executing. -/
def cancelPc (c : Client) (t : Thread) : Option CancelPc :=
  match c.handlers t, t, c.main with
  | pc :: _, _, _ => some pc
  | [], .main, .cancelLoop pc => some pc
  | [], _, _ => none

/-- That call goes on to `next`, or returns. -/
def setCancelPc (c : Client) (t : Thread) (next : Option CancelPc) : Client :=
  match c.handlers t with
  | _ :: outer => { c with handlers := Function.update c.handlers t (next.toList ++ outer) }
  | [] => { c with main := (next.map MainPc.cancelLoop).getD .pthreadJoin }

section SetCancelPc

variable (c : Client) (t : Thread) (next : Option CancelPc)

@[simp] theorem setCancelPc_lib : (c.setCancelPc t next).lib = c.lib := by
  unfold setCancelPc
  split <;> rfl

@[simp] theorem setCancelPc_canRunLoop :
    (c.setCancelPc t next).canRunLoop = c.canRunLoop := by
  unfold setCancelPc
  split <;> rfl

@[simp] theorem setCancelPc_pktLoop : (c.setCancelPc t next).pktLoop = c.pktLoop := by
  unfold setCancelPc
  split <;> rfl

end SetCancelPc

/-- cancel_loop -/
def cancelLoop (c : Client) (t : Thread) (errno : UInt32) (ok : Bool) : Option Client :=
  (c.cancelPc t).map fun
    | .test => c.setCancelPc t (if c.canRunLoop then some .clear else none)
    | .clear => { c with canRunLoop := false }.setCancelPc t (some .kvnetCancelRead)
    | .kvnetCancelRead => { c with lib := c.lib.cancelStep errno ok }.setCancelPc t none

def signal (c : Client) (t : Thread) : Option Client :=
  if c.alive t then
    some { c with handlers := Function.update c.handlers t (.test :: c.handlers t) }
  else none

/-- A step of main while no handler runs on its thread. -/
def mainStep (c : Client) : ClientAction → Option Client
  | .kvnetOpen useTap env =>
    if c.main = .kvnetOpen then
      let tap : Int32 := if useTap then 1 else 0
      (kvnetOpen c.lib.lib c.lib.world tap env).bind fun (status, _) =>
        (c.lib.openStep tap env).map fun lib =>
          { c with lib := lib, main := if kvnetSucceeded status then .canRunLoop else .ended }
    else none
  | .canRunLoop =>
    if c.main = .canRunLoop then some { c with canRunLoop := true, main := .pthreadCreate }
    else none
  | .pthreadCreate ok =>
    if c.main = .pthreadCreate then
      some (if ok then { c with main := .getc, pktLoop := .getDriverInfo }
        else { c with main := .createFailed })
    else none
  | .getc quit =>
    if c.main = .getc then some (if quit then { c with main := .cancelLoop .test } else c)
    else none
  | .pthreadJoin =>
    if c.main = .pthreadJoin ∧ c.pktLoop = .ended then some { c with main := .kvnetClose }
    else none
  | .kvnetClose errno fuel =>
    if c.main = .kvnetClose ∨ c.main = .createFailed then
      (kvnetClose c.lib.lib c.lib.world errno fuel).map fun (_, l, w) =>
        { c with lib := { c.lib with lib := l, world := w }, main := .ended }
    else none
  | _ => none

/-- Where pktLoop goes on when its kvnet_read has returned, if it has. -/
def afterRound (lib : LibSys) : LoopPc :=
  if lib.reads.isEmpty then
    if (lib.returned.getLast?.map fun r => kvnetSucceeded r.status) = some true then .test
    else .free
  else .reading

/-- A step of pktLoop while no handler runs on its thread. -/
def loopStep (arch : Arch) (c : Client) : ClientAction → Option Client
  | .getDriverInfo info errno mac fault =>
    if c.pktLoop = .getDriverInfo then
      let result := kvnetGetDriverInfo c.lib.lib c.lib.world info errno mac fault
      some { c with
        lib := { c.lib with world := result.2 }
        pktLoop := if kvnetSucceeded result.1 then .malloc else .ended }
    else none
  | .malloc hdr packets =>
    if c.pktLoop = .malloc then
      some { c with
        hdr := hdr, pktLoop := if hdr = NULL then .ended else if packets then .test else .free }
    else none
  | .test =>
    if c.pktLoop = .test then
      some { c with pktLoop := if c.canRunLoop then .kvnetRead else .free }
    else none
  | .kvnetRead =>
    if c.pktLoop = .kvnetRead then
      some { c with
        lib := c.lib.readEnter arch c.hdr (pktLoopLen arch)
        pktLoop := if validArguments arch c.lib.lib c.hdr (pktLoopLen arch) then .reading
          else .free }
    else none
  | .readRound outcome data errno =>
    if c.pktLoop = .reading then
      (c.lib.readRound arch 0 outcome data errno).map fun lib =>
        { c with lib := lib, pktLoop := afterRound lib }
    else none
  | .free => if c.pktLoop = .free then some { c with pktLoop := .ended } else none
  | _ => none

def ofMain : ClientAction → Bool
  | .kvnetOpen _ _ | .canRunLoop | .pthreadCreate _ | .getc _ | .pthreadJoin | .kvnetClose _ _ =>
    true
  | _ => false

def ofLoop : ClientAction → Bool
  | .getDriverInfo _ _ _ _ | .malloc _ _ | .test | .kvnetRead | .readRound _ _ _ | .free => true
  | _ => false

def step (arch : Arch) (c : Client) : ClientAction → Option Client
  | .signal t => c.signal t
  | .cancelLoop t errno ok => c.cancelLoop t errno ok
  | .traffic world =>
    (c.lib.step arch (.traffic world)).map fun lib => { c with lib := lib }
  | a =>
    if ofMain a then if c.handlers .main = [] then c.mainStep a else none
    else if c.handlers .pktLoop = [] then c.loopStep arch a
    else none

/-- Nothing has happened yet. -/
structure Fresh (c : Client) : Prop where
  lib : c.lib.Fresh
  canRunLoop : c.canRunLoop = false
  main : c.main = .kvnetOpen
  pktLoop : c.pktLoop = .idle
  handlers : ∀ t, c.handlers t = []

section Inversion

variable {c d : Client} {t : Thread} {pc : CancelPc}

theorem mainStep_of {arch : Arch} {a : ClientAction} (main : ofMain a = true)
    (h : c.step arch a = some d) : c.handlers .main = [] ∧ c.mainStep a = some d := by
  cases a <;> simp only [ofMain, Bool.false_eq_true] at main <;>
    simpa only [step, ofMain, if_true, Option.ite_none_right_eq_some] using h

theorem loopStep_of {arch : Arch} {a : ClientAction} (loop : ofLoop a = true)
    (h : c.step arch a = some d) : c.handlers .pktLoop = [] ∧ c.loopStep arch a = some d := by
  cases a <;> simp only [ofLoop, Bool.false_eq_true] at loop <;>
    simpa only [step, ofMain, Bool.false_eq_true, if_false, Option.ite_none_right_eq_some] using h

/-- What pktLoop leaves alone: main, the flag, the handlers, and the handle. -/
structure LoopMoves (c d : Client) : Prop where
  alive : c.alive .pktLoop = true
  silent : c.handlers .pktLoop = []
  same : d = { c with lib := d.lib, hdr := d.hdr, pktLoop := d.pktLoop }
  started : d.pktLoop ≠ .idle
  lib : d.lib.lib = c.lib.lib
  armed : d.lib.armed = c.lib.armed
  reads : (c.pktLoop = .reading ↔ c.lib.reads ≠ []) → c.lib.reads.length ≤ 1 →
    (d.pktLoop = .reading ↔ d.lib.reads ≠ []) ∧ d.lib.reads.length ≤ 1

/-- A step outside of the reads. -/
theorem quiet_moves {pc : LoopPc} (here : c.pktLoop = pc)
    (inside : pc ≠ .idle ∧ pc ≠ .ended ∧ pc ≠ .reading) (silent : c.handlers .pktLoop = [])
    (same : d = { c with lib := d.lib, hdr := d.hdr, pktLoop := d.pktLoop })
    (started : d.pktLoop ≠ .idle ∧ d.pktLoop ≠ .reading) (lib : d.lib.lib = c.lib.lib)
    (armed : d.lib.armed = c.lib.armed) (reads : d.lib.reads = c.lib.reads) : LoopMoves c d := by
  subst here
  refine ⟨by simp [alive, inside], silent, same, started.1, lib, armed, fun reading few => ?_⟩
  rw [reads]
  have outside := mt reading.mpr inside.2.2
  exact ⟨iff_of_false started.2 outside, few⟩

theorem afterRound_cases (lib : LibSys) :
    lib.reads = [] ∧ (afterRound lib = .test ∨ afterRound lib = .free) ∨
      lib.reads ≠ [] ∧ afterRound lib = .reading := by
  unfold afterRound
  cases finished : lib.reads with
  | nil =>
    simp only [List.isEmpty_nil, if_true]
    split
    · exact Or.inl ⟨trivial, Or.inl rfl⟩
    · exact Or.inl ⟨trivial, Or.inr rfl⟩
  | cons r reads => exact Or.inr ⟨List.cons_ne_nil r reads, rfl⟩

theorem loopStep_moves {arch : Arch} {a : ClientAction} (silent : c.handlers .pktLoop = [])
    (h : c.loopStep arch a = some d) : LoopMoves c d := by
  cases a with
  | getDriverInfo info errno mac fault =>
    have next : ∀ ok : Bool, (if ok then LoopPc.malloc else .ended) ≠ .idle ∧
        (if ok then LoopPc.malloc else .ended) ≠ .reading := by decide
    simp only [loopStep, Option.ite_none_right_eq_some, Option.some.injEq] at h
    obtain ⟨here, rfl⟩ := h
    exact quiet_moves here (by decide) silent rfl (next _) rfl rfl rfl
  | malloc hdr packets =>
    obtain ⟨here, moved⟩ := Option.ite_none_right_eq_some.mp h
    obtain rfl := Option.some.inj moved
    refine quiet_moves here (by decide) silent rfl ?_ rfl rfl rfl
    dsimp only
    split
    · decide
    · split <;> decide
  | test =>
    obtain ⟨here, moved⟩ := Option.ite_none_right_eq_some.mp h
    obtain rfl := Option.some.inj moved
    refine quiet_moves here (by decide) silent rfl ?_ rfl rfl rfl
    dsimp only
    split <;> decide
  | kvnetRead =>
    obtain ⟨here, moved⟩ := Option.ite_none_right_eq_some.mp h
    obtain rfl := Option.some.inj moved
    cases valid : validArguments arch c.lib.lib c.hdr (pktLoopLen arch) with
    | false =>
      have unread : c.lib.readEnter arch c.hdr (pktLoopLen arch) = c.lib := by
        simp [LibSys.readEnter, valid]
      rw [unread]
      exact quiet_moves here (by decide) silent rfl (by simp) rfl rfl rfl
    | true =>
      have entered : c.lib.readEnter arch c.hdr (pktLoopLen arch) = { c.lib with
          reads := c.lib.reads ++ [⟨c.hdr, pktLoopLen arch, c.lib.armed⟩] } := by
        simp [LibSys.readEnter, valid]
      rw [entered]
      refine ⟨by simp [alive, here], silent, rfl, by simp, rfl, rfl, fun reading _ => ?_⟩
      have none_read : c.lib.reads = [] := by simpa [here] using reading
      simp [none_read]
  | readRound outcome data errno =>
    obtain ⟨here, moved⟩ := Option.ite_none_right_eq_some.mp h
    obtain ⟨lib, round, rfl⟩ := Option.map_eq_some_iff.mp moved
    have alive : c.alive .pktLoop = true := by simp [alive, here]
    have next : afterRound lib ≠ .idle ∧ (afterRound lib = .reading ↔ lib.reads ≠ []) := by
      rcases afterRound_cases lib with ⟨finished, at_ | at_⟩ | ⟨inside, at_⟩
      · simp [finished, at_]
      · simp [finished, at_]
      · simp [inside, at_]
    obtain ⟨r, found, _, ⟨_, same⟩ | ⟨status, _, same⟩⟩ := LibSys.readRound_inv round
    · refine ⟨alive, silent, rfl, next.1, by rw [same], by rw [same], fun _ few => ⟨next.2, ?_⟩⟩
      rw [same]
      exact few
    · refine ⟨alive, silent, rfl, next.1, by rw [same], by rw [same], fun _ few => ⟨next.2, ?_⟩⟩
      rw [same]
      exact Nat.le_trans (List.length_eraseIdx_le _ _) few
  | free =>
    obtain ⟨here, moved⟩ := Option.ite_none_right_eq_some.mp h
    obtain rfl := Option.some.inj moved
    exact quiet_moves here (by decide) silent rfl (by simp) rfl rfl rfl
  | _ => cases h

/-- A call of cancel_loop is that of the innermost handler, or main's own. -/
theorem setCancelPc_inv (found : c.cancelPc t = some pc) (next : Option CancelPc) :
    (∃ outer, c.handlers t = pc :: outer ∧ c.setCancelPc t next =
      { c with handlers := Function.update c.handlers t (next.toList ++ outer) }) ∨
    c.handlers t = [] ∧ t = .main ∧ c.main = .cancelLoop pc ∧
      c.setCancelPc t next = { c with main := (next.map MainPc.cancelLoop).getD .pthreadJoin } := by
  unfold cancelPc at found
  unfold setCancelPc
  split at found
  · rename_i top outer stack
    obtain rfl := Option.some.inj found
    simp only [stack]
    exact Or.inl ⟨outer, rfl, rfl⟩
  · rename_i here stack
    obtain rfl := Option.some.inj found
    simp only [stack]
    exact Or.inr ⟨trivial, trivial, here, trivial⟩
  · cases found

theorem cancelLoop_inv {errno : UInt32} {ok : Bool} (h : c.cancelLoop t errno ok = some d) :
    c.cancelPc t = some .test ∧
      d = c.setCancelPc t (if c.canRunLoop then some .clear else none) ∨
    c.cancelPc t = some .clear ∧
      d = { c with canRunLoop := false }.setCancelPc t (some .kvnetCancelRead) ∨
    c.cancelPc t = some .kvnetCancelRead ∧
      d = { c with lib := c.lib.cancelStep errno ok }.setCancelPc t none := by
  obtain ⟨pc, found, rfl⟩ := Option.map_eq_some_iff.mp h
  cases pc with
  | test => exact Or.inl ⟨found, rfl⟩
  | clear => exact Or.inr (Or.inl ⟨found, rfl⟩)
  | kvnetCancelRead => exact Or.inr (Or.inr ⟨found, rfl⟩)

end Inversion

end Client

/-- Main is between setting the flag and the end of its own cancel_loop. -/
def MainPc.looping : MainPc → Bool
  | .pthreadCreate | .getc | .cancelLoop _ => true
  | _ => false

/-- Main has created pktLoop and not joined it. -/
def MainPc.awaits : MainPc → Bool
  | .getc | .cancelLoop _ | .pthreadJoin => true
  | _ => false

namespace Client

/-- Main is at its end, or on the way there, without having had a pktLoop. -/
def Loopless (c : Client) : Prop := c.pktLoop = .idle ∧ (c.main = .createFailed ∨ c.main = .ended)

/-- A handler on the thread may have got past its test. -/
def MayCancel (c : Client) (t : Thread) : Prop :=
  c.main.looping = true ∨ t = .pktLoop ∧ c.main = .pthreadJoin ∨ t = .main ∧ c.Loopless

structure Orderly (c : Client) : Prop where
  handle : c.lib.lib.fdesc = -1 ↔ c.main = .kvnetOpen ∨ c.main = .ended
  flag : c.canRunLoop = true → c.main.looping = true ∨ c.Loopless
  handlers : ∀ t, ∀ pc ∈ c.handlers t, pc = .test ∨ c.MayCancel t
  cleared : c.main = .cancelLoop .kvnetCancelRead → c.canRunLoop = false
  alive : c.alive .pktLoop = true → c.main.awaits = true
  created : c.main.awaits = true → c.pktLoop ≠ .idle
  early : c.main.awaits = false → c.pktLoop = .idle ∨ c.main = .kvnetClose ∨ c.main = .ended
  quiet : c.alive .pktLoop = false → c.handlers .pktLoop = []
  reads : c.pktLoop = .reading ↔ c.lib.reads ≠ []
  few : c.lib.reads.length ≤ 1
  joined : c.main = .kvnetClose → c.pktLoop = .ended

theorem fresh_orderly {c : Client} (fresh : c.Fresh) : c.Orderly := by
  obtain ⟨lib, flag, main, pktLoop, handlers⟩ := fresh
  constructor
  · simp [lib.lib, Lib.init, main]
  · simp [flag]
  · simp [handlers]
  · simp [main]
  · simp [alive, pktLoop]
  · simp [main, MainPc.awaits]
  · simp [pktLoop]
  · simp [handlers]
  · simp [lib.reads, pktLoop]
  · simp [lib.reads]
  · simp [main]

section Step

variable {c d : Client}

/-- While main awaits nothing, pktLoop is not there. -/
theorem Orderly.gone (h : c.Orderly) (unawaited : c.main.awaits = false) :
    c.alive .pktLoop = false ∧ c.handlers .pktLoop = [] ∧ c.lib.reads = [] ∧
      c.pktLoop ≠ .reading := by
  have dead : c.alive .pktLoop = false := by
    cases living : c.alive .pktLoop with
    | false => rfl
    | true => rw [h.alive living] at unawaited; cases unawaited
  have outside : c.pktLoop ≠ .reading := fun reading => by simp [Client.alive, reading] at dead
  exact ⟨dead, h.quiet dead, not_not.mp (mt h.reads.mpr outside), outside⟩

theorem loop_orderly (h : c.Orderly) (moves : LoopMoves c d) : d.Orderly := by
  have awaits := h.alive moves.alive
  have silent := moves.silent
  obtain ⟨reads, few⟩ := moves.reads h.reads h.few
  have lib := moves.lib
  have started := moves.started
  rw [moves.same]
  have loop_free : ¬ c.Loopless := fun none_there => by
    rcases none_there.2 with at_ | at_ <;> simp [at_, MainPc.awaits] at awaits
  refine ⟨lib ▸ h.handle, fun set => ?_, fun t pc among => ?_, h.cleared, fun _ => awaits,
    fun _ => started, ?_, ?_, reads, few, ?_⟩
  · rcases h.flag set with looping | none_there
    · exact Or.inl looping
    · exact absurd none_there loop_free
  · rcases h.handlers t pc among with test | looping | joining | ⟨_, none_there⟩
    · exact Or.inl test
    · exact Or.inr (Or.inl looping)
    · exact Or.inr (Or.inr (Or.inl joining))
    · exact absurd none_there loop_free
  · intro unawaited
    rw [awaits] at unawaited
    cases unawaited
  · exact fun _ => silent
  · intro closing
    rw [show c.main = .kvnetClose from closing] at awaits
    cases awaits

theorem open_orderly (h : c.Orderly) {useTap : Bool} {env : OpenEnv}
    (silent : c.handlers .main = []) (step : c.mainStep (.kvnetOpen useTap env) = some d) :
    d.Orderly := by
  obtain ⟨here, moved⟩ := Option.ite_none_right_eq_some.mp step
  obtain ⟨⟨status, l, w⟩, opened, moved⟩ := Option.bind_eq_some_iff.mp moved
  obtain ⟨lib, entered, rfl⟩ := Option.map_eq_some_iff.mp moved
  obtain ⟨dead, quiet, unread, outside⟩ := h.gone (by rw [here]; rfl)
  have cleared : c.canRunLoop = false := by
    cases set : c.canRunLoop with
    | false => rfl
    | true => simpa [here, MainPc.looping, Loopless] using h.flag set
  have idle : c.pktLoop = .idle := by
    simpa [here] using h.early (by rw [here]; rfl)
  simp only [LibSys.openStep, opened, Option.map_some, Option.some.injEq] at entered
  have unread' : lib.reads = [] := by
    subst entered
    split <;> simp [unread]
  have handlers : ∀ t, c.handlers t = [] := by
    intro t
    cases t with
    | main => exact silent
    | pktLoop => exact quiet
  have handle : lib.lib = l := by
    subst entered
    split <;> rfl
  cases ok : kvnetSucceeded status with
  | true =>
    have succeeded : kvnetStatus status = KVNET_NO_ERROR := by simpa [kvnetSucceeded] using ok
    have fd : l.fdesc ≠ -1 := by
      rw [kvnetOpen_opens opened succeeded]
      simp only
      omega
    constructor <;> simp_all [Client.alive, MainPc.awaits]
  | false =>
    have failed : kvnetStatus status ≠ KVNET_NO_ERROR := by simpa [kvnetSucceeded] using ok
    have closed : l = c.lib.lib := (kvnetOpen_fails opened failed).1
    have fd : c.lib.lib.fdesc = -1 := h.handle.mpr (Or.inl here)
    constructor <;> simp_all [Client.alive, MainPc.awaits]

theorem close_orderly (h : c.Orderly) {errno : UInt32} {fuel : Nat}
    (silent : c.handlers .main = []) (step : c.mainStep (.kvnetClose errno fuel) = some d) :
    d.Orderly := by
  obtain ⟨here, moved⟩ := Option.ite_none_right_eq_some.mp step
  obtain ⟨⟨status, l, w⟩, closed, rfl⟩ := Option.map_eq_some_iff.mp moved
  obtain rfl := kvnetClose_closes closed
  have unawaited : c.main.awaits = false := by
    rcases here with at_ | at_ <;> rw [at_] <;> rfl
  obtain ⟨dead, quiet, unread, outside⟩ := h.gone unawaited
  have handlers : ∀ t, c.handlers t = [] := by
    intro t
    cases t with
    | main => exact silent
    | pktLoop => exact quiet
  have flag : c.canRunLoop = true → c.pktLoop = .idle := by
    intro set
    rcases h.flag set with looping | none_there
    · rcases here with at_ | at_ <;> rw [at_] at looping <;> cases looping
    · exact none_there.1
  constructor <;> simp_all [Client.alive, MainPc.awaits, Loopless]

theorem main_orderly (h : c.Orderly) {a : ClientAction} (silent : c.handlers .main = [])
    (step : c.mainStep a = some d) : d.Orderly := by
  cases a with
  | kvnetOpen useTap env => exact open_orderly h silent step
  | kvnetClose errno fuel => exact close_orderly h silent step
  | canRunLoop =>
    obtain ⟨here, moved⟩ := Option.ite_none_right_eq_some.mp step
    obtain rfl := Option.some.inj moved
    obtain ⟨dead, quiet, unread, outside⟩ := h.gone (by rw [here]; rfl)
    have idle : c.pktLoop = .idle := by simpa [here] using h.early (by rw [here]; rfl)
    have fd : c.lib.lib.fdesc ≠ -1 := fun closed => by simpa [here] using h.handle.mp closed
    refine ⟨by simp [fd], by simp [MainPc.looping], by simp [MayCancel, MainPc.looping], ?_, ?_, ?_,
      ?_, fun _ => quiet, h.reads, h.few, ?_⟩
    · simp
    · simp [Client.alive, idle]
    · simp [MainPc.awaits]
    · simp [idle]
    · simp
  | pthreadCreate ok =>
    obtain ⟨here, moved⟩ := Option.ite_none_right_eq_some.mp step
    obtain rfl := Option.some.inj moved
    obtain ⟨dead, quiet, unread, outside⟩ := h.gone (by rw [here]; rfl)
    have idle : c.pktLoop = .idle := by simpa [here] using h.early (by rw [here]; rfl)
    have fd : c.lib.lib.fdesc ≠ -1 := fun closed => by simpa [here] using h.handle.mp closed
    have handlers : ∀ t, c.handlers t = [] := by
      intro t
      cases t with
      | main => exact silent
      | pktLoop => exact quiet
    cases ok with
    | true => constructor <;> simp [MainPc.looping, MainPc.awaits, handlers, unread, fd]
    | false =>
      constructor <;> simp [MainPc.looping, MainPc.awaits, handlers, unread, fd, idle, Loopless,
        Client.alive]
  | getc quit =>
    obtain ⟨here, moved⟩ := Option.ite_none_right_eq_some.mp step
    obtain rfl := Option.some.inj moved
    cases quit with
    | false => exact h
    | true =>
      have fd : c.lib.lib.fdesc ≠ -1 := fun closed => by simpa [here] using h.handle.mp closed
      refine ⟨by simp [fd], by simp [MainPc.looping], by simp [MayCancel, MainPc.looping], by simp,
        fun _ => rfl, fun _ => h.created (by rw [here]; rfl), fun unawaited => ?_, h.quiet, h.reads,
        h.few, by simp⟩
      cases unawaited
  | pthreadJoin =>
    obtain ⟨⟨here, finished⟩, moved⟩ := Option.ite_none_right_eq_some.mp step
    obtain rfl := Option.some.inj moved
    have quiet : c.handlers .pktLoop = [] := h.quiet (by simp [Client.alive, finished])
    have fd : c.lib.lib.fdesc ≠ -1 := fun closed => by simpa [here] using h.handle.mp closed
    have cleared : c.canRunLoop = false := by
      cases set : c.canRunLoop with
      | false => rfl
      | true => simpa [here, MainPc.looping, Loopless] using h.flag set
    have handlers : ∀ t, c.handlers t = [] := by
      intro t
      cases t with
      | main => exact silent
      | pktLoop => exact quiet
    have unread : c.lib.reads = [] := not_not.mp (mt h.reads.mpr (by rw [finished]; decide))
    constructor <;> simp [handlers, unread, fd, finished, cleared, Client.alive]
  | _ => cases step

/-- The handlers of one thread may change as long as the thread is there. -/
theorem handlers_orderly (h : c.Orderly) (t : Thread) {stack : List CancelPc}
    (allowed : ∀ pc ∈ stack, pc = .test ∨ c.MayCancel t)
    (living : t = .pktLoop → c.alive .pktLoop = false → stack = []) :
    Orderly { c with handlers := Function.update c.handlers t stack } := by
  refine ⟨h.handle, h.flag, fun t' pc among => ?_, h.cleared, h.alive, h.created, h.early,
    fun dead => ?_, h.reads, h.few, h.joined⟩
  · simp only [Function.update_apply] at among
    by_cases same : t' = t
    · rw [if_pos same] at among
      exact same ▸ allowed pc among
    · rw [if_neg same] at among
      exact h.handlers t' pc among
  · simp only [Function.update_apply]
    by_cases same : Thread.pktLoop = t
    · rw [if_pos same]
      exact living same.symm dead
    · rw [if_neg same]
      exact h.quiet dead

theorem signal_orderly (h : c.Orderly) {t : Thread} (step : c.signal t = some d) : d.Orderly := by
  obtain ⟨living, moved⟩ := Option.ite_none_right_eq_some.mp step
  obtain rfl := Option.some.inj moved
  refine handlers_orderly h t (fun pc among => ?_) fun there dead => ?_
  · rcases List.mem_cons.mp among with test | old
    · exact Or.inl test
    · exact h.handlers t pc old
  · rw [there, dead] at living
    cases living

/-- A call of cancel_loop goes on, and returns to main only when the flag is false. -/
theorem setCancelPc_orderly (h : c.Orderly) {t : Thread} {pc : CancelPc}
    (found : c.cancelPc t = some pc) {next : Option CancelPc}
    (allowed : ∀ pc ∈ next, c.MayCancel t)
    (cleared : c.handlers t = [] → next ≠ some .clear → c.canRunLoop = false) :
    (c.setCancelPc t next).Orderly := by
  rcases setCancelPc_inv found next with ⟨outer, stack, moved⟩ | ⟨silent, rfl, here, moved⟩
  · rw [moved]
    refine handlers_orderly h t (fun pc' among => ?_) fun there dead => ?_
    · rcases List.mem_append.mp among with new | old
      · exact Or.inr (allowed pc' (Option.mem_toList.mp new))
      · exact h.handlers t pc' (by rw [stack]; exact List.mem_cons_of_mem _ old)
    · subst there
      rw [h.quiet dead] at stack
      cases stack
  · rw [moved]
    have fd : c.lib.lib.fdesc ≠ -1 := fun closed => by simpa [here] using h.handle.mp closed
    have created : c.pktLoop ≠ .idle := h.created (by rw [here]; rfl)
    have others : ∀ t, ∀ pc ∈ c.handlers t, t = .pktLoop := by
      intro t pc among
      cases t with
      | main => rw [silent] at among; cases among
      | pktLoop => rfl
    cases next with
    | none =>
      have flag := cleared silent (by decide)
      refine ⟨by simp [fd], by simp [flag], fun t pc' among => ?_, by simp, fun _ => rfl,
        fun _ => created, fun unawaited => ?_, h.quiet, h.reads, h.few, by simp⟩
      · exact Or.inr (Or.inr (Or.inl ⟨others t pc' among, rfl⟩))
      · cases unawaited
    | some pc' =>
      refine ⟨by simp [fd], fun _ => Or.inl rfl, fun t pc' among => Or.inr (Or.inl rfl),
        fun calls => ?_, fun _ => rfl, fun _ => created, fun unawaited => ?_, h.quiet, h.reads,
        h.few, by simp⟩
      · obtain rfl : pc' = .kvnetCancelRead := MainPc.cancelLoop.inj calls
        exact cleared silent (by decide)
      · cases unawaited

theorem mayCancel_of_flag (h : c.Orderly) {t : Thread} {pc : CancelPc}
    (found : c.cancelPc t = some pc) (set : c.canRunLoop = true) : c.MayCancel t := by
  rcases h.flag set with looping | none_there
  · exact Or.inl looping
  · cases t with
    | main => exact Or.inr (Or.inr ⟨rfl, none_there⟩)
    | pktLoop =>
      have silent := h.quiet (by simp [Client.alive, none_there.1])
      simp [cancelPc, silent] at found

/-- Past its test a call of cancel_loop is one that may be. -/
theorem mayCancel_of_pc (h : c.Orderly) {t : Thread} {pc : CancelPc}
    (found : c.cancelPc t = some pc) (past : pc ≠ .test) : c.MayCancel t := by
  rcases setCancelPc_inv found none with ⟨outer, stack, _⟩ | ⟨_, _, here, _⟩
  · rcases h.handlers t pc (by rw [stack]; exact List.mem_cons_self) with test | may
    · exact absurd test past
    · exact may
  · exact Or.inl (by rw [here]; rfl)

theorem cancelLoop_orderly (h : c.Orderly) {t : Thread} {errno : UInt32} {ok : Bool}
    (step : c.cancelLoop t errno ok = some d) : d.Orderly := by
  rcases cancelLoop_inv step with ⟨found, rfl⟩ | ⟨found, rfl⟩ | ⟨found, rfl⟩
  · cases set : c.canRunLoop with
    | true =>
      refine setCancelPc_orderly h found (fun pc among => ?_) fun _ other => absurd rfl other
      exact mayCancel_of_flag h found set
    | false => exact setCancelPc_orderly h found (fun pc among => by cases among) fun _ _ => set
  · have lowered : Orderly { c with canRunLoop := false } :=
      ⟨h.handle, fun set => (by cases set), h.handlers, fun _ => rfl, h.alive, h.created,
        h.early, h.quiet, h.reads, h.few, h.joined⟩
    have may := mayCancel_of_pc h found (by decide)
    exact setCancelPc_orderly lowered found (fun _ _ => may) fun _ _ => rfl
  · have lib : (c.lib.cancelStep errno ok).lib.fdesc = c.lib.lib.fdesc :=
      (LibSys.cancelStep_keeps c.lib errno ok).1
    have called : Orderly { c with lib := c.lib.cancelStep errno ok } := by
      refine ⟨?_, h.flag, h.handlers, h.cleared, h.alive, h.created, h.early, h.quiet, h.reads,
        h.few, h.joined⟩
      rw [lib]
      exact h.handle
    refine setCancelPc_orderly called found (fun _ among => by cases among) fun silent _ => ?_
    rcases setCancelPc_inv found none with ⟨outer, stack, _⟩ | ⟨_, _, here, _⟩
    · rw [show c.handlers t = [] from silent] at stack
      cases stack
    · exact h.cleared here

theorem step_orderly {arch : Arch} {a : ClientAction} (h : c.Orderly)
    (step : c.step arch a = some d) : d.Orderly := by
  cases a with
  | signal t => exact signal_orderly h step
  | cancelLoop t errno ok => exact cancelLoop_orderly h step
  | traffic world =>
    obtain ⟨lib, moved, rfl⟩ := Option.map_eq_some_iff.mp step
    simp only [LibSys.step, Option.ite_none_right_eq_some, Option.some.injEq] at moved
    obtain ⟨_, rfl⟩ := moved
    exact ⟨h.handle, h.flag, h.handlers, h.cleared, h.alive, h.created, h.early, h.quiet, h.reads,
      h.few, h.joined⟩
  | kvnetOpen useTap env | canRunLoop | pthreadCreate ok | getc quit | pthreadJoin
  | kvnetClose errno fuel =>
    obtain ⟨silent, moved⟩ := mainStep_of rfl step
    exact main_orderly h silent moved
  | getDriverInfo info errno mac fault | malloc hdr packets | test | kvnetRead
  | readRound outcome data errno | free =>
    obtain ⟨silent, moved⟩ := loopStep_of rfl step
    exact loop_orderly h (loopStep_moves silent moved)

end Step

/-- What the calls of the library rely on. A signal handler of main may be late
only when there has been no pktLoop: the flag is still true then. -/
def Proper (c : Client) : ClientAction → Prop
  | .kvnetClose _ _ => c.lib.lib.fdesc ≠ -1 ∧ c.lib.reads = [] ∧ c.alive .pktLoop = false
  | .kvnetRead => c.lib.lib.fdesc ≠ -1 ∧ c.lib.reads = []
  | .getDriverInfo _ _ _ _ | .readRound _ _ _ => c.lib.lib.fdesc ≠ -1
  | .cancelLoop t _ _ => c.cancelPc t = some .kvnetCancelRead →
      c.lib.lib.fdesc ≠ -1 ∨ t = .main ∧ c.main = .ended ∧ c.pktLoop = .idle
  | _ => True

section Proper

variable {arch : Arch} {c d : Client} {a : ClientAction}

theorem Orderly.handle_of_alive (h : c.Orderly) (alive : c.alive .pktLoop = true) :
    c.lib.lib.fdesc ≠ -1 := by
  intro closed
  have awaits := h.alive alive
  rcases h.handle.mp closed with at_ | at_ <;> rw [at_] at awaits <;> cases awaits

theorem Orderly.handle_of_mayCancel (h : c.Orderly) {t : Thread} (may : c.MayCancel t) :
    c.lib.lib.fdesc ≠ -1 ∨ t = .main ∧ c.main = .ended ∧ c.pktLoop = .idle := by
  rcases may with looping | ⟨_, joining⟩ | ⟨there, idle, failed | finished⟩
  · refine Or.inl fun closed => ?_
    rcases h.handle.mp closed with at_ | at_ <;> rw [at_] at looping <;> cases looping
  · exact Or.inl fun closed => by simpa [joining] using h.handle.mp closed
  · exact Or.inl fun closed => by simpa [failed] using h.handle.mp closed
  · exact Or.inr ⟨there, finished, idle⟩

theorem step_proper (h : c.Orderly) (step : c.step arch a = some d) : c.Proper a := by
  cases a with
  | kvnetClose errno fuel =>
    obtain ⟨_, moved⟩ := mainStep_of rfl step
    obtain ⟨here, _⟩ := Option.ite_none_right_eq_some.mp moved
    have unawaited : c.main.awaits = false := by
      rcases here with at_ | at_ <;> rw [at_] <;> rfl
    obtain ⟨dead, _, unread, _⟩ := h.gone unawaited
    refine ⟨fun closed => ?_, unread, dead⟩
    rcases here with at_ | at_ <;> simpa [at_] using h.handle.mp closed
  | kvnetRead =>
    obtain ⟨silent, moved⟩ := loopStep_of rfl step
    obtain ⟨here, _⟩ := Option.ite_none_right_eq_some.mp moved
    have unread : c.lib.reads = [] := not_not.mp (mt h.reads.mpr (by rw [here]; decide))
    exact ⟨h.handle_of_alive (loopStep_moves silent moved).alive, unread⟩
  | getDriverInfo info errno mac fault | readRound outcome data errno =>
    obtain ⟨silent, moved⟩ := loopStep_of rfl step
    exact h.handle_of_alive (loopStep_moves silent moved).alive
  | cancelLoop t errno ok =>
    intro calls
    exact h.handle_of_mayCancel (mayCancel_of_pc h calls (by decide))
  | kvnetOpen useTap env | canRunLoop | pthreadCreate ok | getc quit | pthreadJoin
  | malloc hdr packets | test | free | signal t | traffic world => trivial

end Proper

/-- In every run of the client, whatever signals interrupt it: each call of the
library is made on an open handle, except that a signal handler may cancel late
when pktLoop was never created; there is one read at a time; the handle is closed
when the thread is over; and after that no other handler gets past its test. -/
theorem calls_in_order (arch : Arch) (c₀ c : Client) (actions : List ClientAction)
    (fresh : c₀.Fresh) (h : Execution.run (Client.step arch) c₀ actions = some c) :
    Execution.Meets (Client.step arch) Client.Proper c₀ actions ∧
    (c.main = .ended → c.lib.lib.fdesc = -1 ∧ c.lib.reads = [] ∧ c.alive .pktLoop = false ∧
      (c.pktLoop ≠ .idle → c.canRunLoop = false ∧ ∀ t, ∀ pc ∈ c.handlers t, pc = .test)) := by
  have keeps : ∀ c a d, Orderly c → c.step arch a = some d → Orderly d :=
    fun _ _ _ => step_orderly
  have start := fresh_orderly fresh
  refine ⟨Execution.meets_of_invariant Orderly keeps (fun _ _ _ => step_proper) start h, ?_⟩
  have order := Execution.run_invariant Orderly keeps start h
  intro finished
  obtain ⟨dead, quiet, unread, _⟩ := order.gone (by rw [finished]; rfl)
  refine ⟨order.handle.mpr (Or.inr finished), unread, dead, fun created =>
    ⟨?_, fun t pc among => ?_⟩⟩
  · cases set : c.canRunLoop with
    | false => rfl
    | true => simpa [finished, MainPc.looping, Loopless, created] using order.flag set
  · simpa [finished, MayCancel, MainPc.looping, Loopless, created] using order.handlers t pc among

end Client

def idleClient : Client := ⟨unopened, NULL, false, .kvnetOpen, .idle, fun _ => []⟩

theorem idleClient_fresh : idleClient.Fresh := ⟨unopened_fresh, rfl, rfl, rfl, fun _ => rfl⟩

def noFrame : DataEnv := ⟨none, ⟨⟨true, false, fun _ => 0⟩, fun _ => none, none⟩⟩

/-- On TAP a signal interrupts the first read, and then the key is pressed. -/
def signalled : List ClientAction :=
  [.kvnetOpen true ⟨0, 3, true, true, true, 0, 1⟩, .canRunLoop, .pthreadCreate true,
    .getDriverInfo 512 0 none none, .malloc 4096 true, .test, .kvnetRead, .signal .pktLoop,
    .cancelLoop .pktLoop 0 true, .cancelLoop .pktLoop 0 true, .getc true, .cancelLoop .main 0 true,
    .cancelLoop .pktLoop 0 true, .readRound .timeout noFrame 0, .free, .pthreadJoin,
    .kvnetClose 0 1]

theorem signalled_runs : ∃ c, Execution.run (Client.step lp64) idleClient signalled = some c ∧
    c.main = .ended := by
  have ends : (Execution.run (Client.step lp64) idleClient signalled).map Client.main =
      some .ended := by decide +kernel
  exact Option.map_eq_some_iff.mp ends

theorem calls_in_order_signalled :
    Execution.Meets (Client.step lp64) Client.Proper idleClient signalled ∧
    ∃ c, Execution.run (Client.step lp64) idleClient signalled = some c ∧ c.lib.lib.fdesc = -1 := by
  obtain ⟨c, ran, finished⟩ := signalled_runs
  obtain ⟨proper, closed⟩ := Client.calls_in_order lp64 idleClient c signalled idleClient_fresh ran
  exact ⟨proper, c, ran, (closed finished).1⟩

end Kvnet
