import Kvnet.Library
import Kvnet.Execution
import Kvnet.Pool

/-!
# Cancelled reads

Threads of one process call the library at the same time. A read is a sequence
of rounds, each one poll with what follows it; every other call is one step. The
driver keeps its cancel flag until the next open and tests it first; on TAP the
library's own flag is tested when a poll times out, and only then.
-/

namespace Kvnet

/-- A thread in kvnet_read; `afterCancel` says that a cancel preceded its call
and no open came since. -/
structure ReadCall where
  hdr : Addr
  len : UInt32
  afterCancel : Bool

structure ReadReturn where
  afterCancel : Bool
  status : UInt32
  taken : Nat
  deriving DecidableEq

/-- `armed` says that kvnet_cancel_read has succeeded on an open handle and no
kvnet_open since; `returned` are the reads with valid arguments that are over. -/
structure LibSys where
  lib : Lib
  world : World
  armed : Bool
  reads : List ReadCall
  returned : List ReadReturn

inductive LibAction where
  | kvnetOpen (useTap : Int32) (env : OpenEnv)
  | kvnetClose (errno : UInt32) (fuel : Nat)
  | kvnetCancelRead (errno : UInt32) (ok : Bool)
  | readEnter (hdr : Addr) (len : UInt32)
  | readRound (k : Nat) (outcome : PollOutcome) (data : DataEnv) (errno : UInt32)
  | kvnetWrite (hdr : Addr) (len errno : UInt32) (fails : Nat → Bool) (driver : WriteEnv)
  | kvnetGetDriverInfo (info : Addr) (errno : UInt32) (mac : Option (List UInt8))
      (fault : Option GetInfoFault)
  | traffic (world : World)

namespace LibSys

def openStep (s : LibSys) (useTap : Int32) (env : OpenEnv) : Option LibSys :=
  (kvnetOpen s.lib s.world useTap env).map fun (status, l, w) =>
    if kvnetStatus status = KVNET_NO_ERROR then
      { s with
        lib := l, world := w, armed := false
        reads := s.reads.map fun r => { r with afterCancel := false } }
    else { s with lib := l, world := w }

def cancelStep (s : LibSys) (errno : UInt32) (ok : Bool) : LibSys :=
  let (status, l, w) := kvnetCancelRead s.lib s.world errno ok
  { s with
    lib := l, world := w
    armed := s.armed || (kvnetStatus status = KVNET_NO_ERROR && s.lib.fdesc ≠ -1) }

/-- A call whose arguments fail the check is over at once. -/
def readEnter (arch : Arch) (s : LibSys) (hdr : Addr) (len : UInt32) : LibSys :=
  if validArguments arch s.lib hdr len then
    { s with reads := s.reads ++ [⟨hdr, len, s.armed⟩] }
  else s

def readRound (arch : Arch) (s : LibSys) (k : Nat) (outcome : PollOutcome) (data : DataEnv)
    (errno : UInt32) : Option LibSys :=
  match s.reads[k]? with
  | some r =>
    if outcome.Possible s.lib s.world then
      let result := kvnetReadRound arch s.lib s.world r.hdr r.len errno outcome data
      match result.status with
      | none => some { s with world := result.world }
      | some status =>
        some { s with
          world := result.world
          reads := s.reads.eraseIdx k
          returned := s.returned ++ [⟨r.afterCancel, status, result.taken⟩] }
    else none
  | none => none

/-- While the library holds the character device, nobody else opens it or
cancels on it; packets come and go all the time. -/
def step (arch : Arch) (s : LibSys) : LibAction → Option LibSys
  | .kvnetOpen useTap env => s.openStep useTap env
  | .kvnetClose errno fuel =>
    (kvnetClose s.lib s.world errno fuel).map fun (_, l, w) => { s with lib := l, world := w }
  | .kvnetCancelRead errno ok => some (s.cancelStep errno ok)
  | .readEnter hdr len => some (s.readEnter arch hdr len)
  | .readRound k outcome data errno => s.readRound arch k outcome data errno
  | .kvnetWrite hdr len errno fails driver =>
    some { s with world := (kvnetWrite arch s.lib s.world hdr len errno fails driver).2.1 }
  | .kvnetGetDriverInfo info errno mac fault =>
    some { s with world := (kvnetGetDriverInfo s.lib s.world info errno mac fault).2 }
  | .traffic world =>
    if s.lib.useTapDev = 0 ∧ s.lib.fdesc ≠ -1 → world.vnet.ioDev = s.world.vnet.ioDev then
      some { s with world := world }
    else none

end LibSys

theorem ioReadLoop_ioDev (arch : Arch) (hdr : KvnetHeader) (fault : Nat → Option FillFault)
    (n i : Nat) (w : World) (ret : Int) :
    (ioReadLoop arch hdr fault n i w ret).1.vnet.ioDev = w.vnet.ioDev := by
  induction n generalizing i w ret with
  | zero => rfl
  | succ n ih =>
    have removed : w.queueRemove.2.vnet.ioDev = w.vnet.ioDev := rfl
    have filled : (readPacket w.queueRemove.2 (hdr.pkt i) w.queueRemove.1 (fault i)).1.vnet.ioDev =
        w.vnet.ioDev := by
      obtain ⟨_, fill⟩ := fill_step w.queueRemove.2 (hdr.pkt i) w.queueRemove.1 (fault i)
      exact fill.frame.ioDev.trans removed
    simp only [ioReadLoop]
    by_cases empty : w.queueRemove.1 = NULL
    · rw [if_pos empty]
      exact removed
    · rw [if_neg empty]
      by_cases failed : (readPacket w.queueRemove.2 (hdr.pkt i) w.queueRemove.1 (fault i)).2 ≠ 0
      · rw [if_pos failed]
        exact filled
      · rw [if_neg failed, ih]
        exact filled

theorem ioReadToIovec_ioDev (arch : Arch) (w : World) (iv : List Iovec) (len : Int)
    (env : ReadEnv) : (ioReadToIovec arch w iv len env).world.vnet.ioDev = w.vnet.ioDev := by
  cases accepted : fetchHeader arch w.user iv len env.header with
  | error e => simp only [ioReadToIovec, accepted]
  | ok hdr => rw [ioReadToIovec_accepted accepted, reportCount_vnet, ioReadLoop_ioDev]

theorem ioDevAioRead_ioDev (arch : Arch) (w : World) (iv : List Iovec) (nonblock : Bool)
    (env : ReadEnv) : (ioDevAioRead arch w iv nonblock env).world.vnet.ioDev = w.vnet.ioDev := by
  unfold ioDevAioRead
  split
  · rfl
  split
  · rfl
  · exact ioReadToIovec_ioDev arch w iv _ env

theorem ioWriteLoop_ioDev (arch : Arch) (hdr : KvnetHeader) (env : WriteEnv) (n i : Nat)
    (w : World) (ret : Int) : (ioWriteLoop arch hdr env n i w ret).1.vnet.ioDev = w.vnet.ioDev := by
  induction n generalizing i w ret with
  | zero => rfl
  | succ n ih =>
    cases hf : env.fault i with
    | none =>
      rw [ioWriteLoop_next arch hdr env n ret hf, ih]
      rfl
    | some f => rw [ioWriteLoop_fails arch hdr env n ret hf]

theorem ioWriteFromIovec_ioDev (arch : Arch) (w : World) (iv : List Iovec) (len : Int)
    (env : WriteEnv) : (ioWriteFromIovec arch w iv len env).world.vnet.ioDev = w.vnet.ioDev := by
  cases accepted : fetchHeader arch w.user iv len env.header with
  | error e => simp only [ioWriteFromIovec, accepted]
  | ok hdr => rw [ioWriteFromIovec_accepted accepted, reportCount_vnet, ioWriteLoop_ioDev]

theorem ioDevAioWrite_ioDev (arch : Arch) (w : World) (iv : List Iovec) (nonblock : Bool)
    (env : WriteEnv) : (ioDevAioWrite arch w iv nonblock env).world.vnet.ioDev = w.vnet.ioDev := by
  unfold ioDevAioWrite
  split
  · rfl
  split
  · rfl
  · exact ioWriteFromIovec_ioDev arch w iv _ env

theorem kvnetWrite_ioDev (arch : Arch) (l : Lib) (w : World) (hdr : Addr) (len errno : UInt32)
    (fails : Nat → Bool) (driver : WriteEnv) :
    (kvnetWrite arch l w hdr len errno fails driver).2.1.vnet.ioDev = w.vnet.ioDev := by
  unfold kvnetWrite
  split
  · rfl
  · split
    · rfl
    · exact ioDevAioWrite_ioDev arch w _ true driver

theorem kvnetGetDriverInfo_ioDev (l : Lib) (w : World) (info : Addr) (errno : UInt32)
    (mac : Option (List UInt8)) (fault : Option GetInfoFault) :
    (kvnetGetDriverInfo l w info errno mac fault).2.vnet.ioDev = w.vnet.ioDev := by
  have ioctl : (getInfo w info fault).2.vnet.ioDev = w.vnet.ioDev := by
    unfold getInfo
    rcases fault with _ | ⟨_ | _ | copied⟩ <;> rfl
  unfold kvnetGetDriverInfo
  split
  · split <;> rfl
  · split
    · rfl
    · exact ioctl

section Round

variable (arch : Arch) (l : Lib) (w : World) (hdr : Addr) (len errno : UInt32) (data : DataEnv)

theorem round_error {revents : Nat} (error : revents &&& errorEvents ≠ 0) :
    kvnetReadRound arch l w hdr len errno (.ready revents) data =
      ⟨some (kvnetMakeStatus errno KVNET_READ_CANCELLED), w, 0⟩ :=
  if_pos error

/-- Readiness without an error event ends the call, and not as cancelled. -/
theorem round_ready {revents : Nat} (clean : ¬ revents &&& errorEvents ≠ 0) :
    ∃ status world taken, kvnetReadRound arch l w hdr len errno (.ready revents) data =
        ⟨some (kvnetMakeStatus errno status), world, taken⟩ ∧
      status &&& lowHalf ≠ KVNET_READ_CANCELLED ∧ world.vnet.ioDev = w.vnet.ioDev := by
  simp only [kvnetReadRound, if_neg clean]
  by_cases pollin : revents &&& POLLIN ≠ 0
  · simp only [if_pos pollin]
    by_cases tap : l.useTapDev ≠ 0
    · simp only [if_pos tap]
      cases data.frame with
      | none => exact ⟨_, _, _, rfl, by decide, rfl⟩
      | some frame => exact ⟨_, _, _, rfl, by decide, rfl⟩
    · simp only [if_neg tap]
      have ioDev := ioDevAioRead_ioDev arch w [⟨hdr, len.toNat⟩] true data.driver
      by_cases failed : (ioDevAioRead arch w [⟨hdr, len.toNat⟩] true data.driver).ret < 0
      · rw [if_pos failed]
        exact ⟨_, _, _, rfl, by decide, ioDev⟩
      · rw [if_neg failed]
        exact ⟨_, _, _, rfl, by decide, ioDev⟩
  · simp only [if_neg pollin]
    exact ⟨_, _, _, rfl, by decide, rfl⟩

theorem round_fail {e : UInt32} (other : e ≠ EINTR) :
    kvnetReadRound arch l w hdr len errno (.fail e) data =
      ⟨some (kvnetMakeStatus e KVNET_SELECT_ERROR), w, 0⟩ :=
  if_neg other

theorem round_interrupted :
    kvnetReadRound arch l w hdr len errno (.fail EINTR) data = ⟨none, w, 0⟩ := by
  simp only [kvnetReadRound, if_true]

theorem round_timeout (tap : l.useTapDev ≠ 0) (canceled : l.canceled ≠ 0) :
    kvnetReadRound arch l w hdr len errno .timeout data =
      ⟨some (kvnetMakeStatus errno KVNET_READ_CANCELLED), w, 0⟩ := by
  simp only [kvnetReadRound, if_pos tap, if_pos canceled]

theorem kvnetReadRound_ioDev (outcome : PollOutcome) :
    (kvnetReadRound arch l w hdr len errno outcome data).world.vnet.ioDev = w.vnet.ioDev := by
  cases outcome with
  | ready revents =>
    by_cases error : revents &&& errorEvents ≠ 0
    · rw [round_error arch l w hdr len errno data error]
    · obtain ⟨status, world, taken, result, _, ioDev⟩ :=
        round_ready arch l w hdr len errno data error
      rw [result]
      exact ioDev
  | timeout =>
    simp only [kvnetReadRound]
    split
    · split <;> rfl
    · rfl
  | fail e =>
    simp only [kvnetReadRound]
    split <;> rfl

end Round

namespace LibSys

/-- The cancel flag of the backend in use is set. -/
def FlagSet (s : LibSys) : Prop :=
  if s.lib.useTapDev ≠ 0 then s.lib.canceled ≠ 0
  else s.lib.fdesc ≠ -1 → s.world.vnet.ioDev.canceled ≠ 0

theorem flagSet_tap {s : LibSys} (tap : s.lib.useTapDev ≠ 0) :
    s.FlagSet ↔ s.lib.canceled ≠ 0 := by
  rw [FlagSet, if_pos tap]

theorem flagSet_driver {s : LibSys} (driver : ¬ s.lib.useTapDev ≠ 0) :
    s.FlagSet ↔ (s.lib.fdesc ≠ -1 → s.world.vnet.ioDev.canceled ≠ 0) := by
  rw [FlagSet, if_neg driver]

/-- A cancel that still counts has its flag set. -/
structure Armed (s : LibSys) : Prop where
  armed : s.armed = true → s.FlagSet
  reads : ∀ r ∈ s.reads, r.afterCancel = true → s.FlagSet

/-- A step that keeps the library's flags keeps the flag of the backend. -/
theorem flagSet_congr {s t : LibSys} (lib : t.lib = s.lib)
    (driver : s.lib.useTapDev = 0 ∧ s.lib.fdesc ≠ -1 →
      t.world.vnet.ioDev.canceled = s.world.vnet.ioDev.canceled) (h : s.FlagSet) : t.FlagSet := by
  by_cases tap : s.lib.useTapDev ≠ 0
  · rw [flagSet_tap tap] at h
    rw [flagSet_tap (lib ▸ tap), lib]
    exact h
  · rw [flagSet_driver tap] at h
    rw [flagSet_driver (lib ▸ tap), lib]
    intro opened
    rw [driver ⟨not_not.mp tap, opened⟩]
    exact h opened

theorem Armed.congr {s t : LibSys} (h : s.Armed) (armed : t.armed = s.armed)
    (reads : ∀ r ∈ t.reads, r.afterCancel = true → s.FlagSet) (flag : s.FlagSet → t.FlagSet) :
    t.Armed :=
  ⟨fun ht => flag (h.armed (armed ▸ ht)), fun r hr after => flag (reads r hr after)⟩

/-- A successful open forgets the cancel; any other leaves its flag alone. -/
theorem open_armed {s t : LibSys} {useTap : Int32} {env : OpenEnv} (h : s.Armed)
    (step : s.openStep useTap env = some t) : t.Armed := by
  obtain ⟨⟨status, l, w⟩, result, ht⟩ := Option.map_eq_some_iff.mp step
  by_cases ok : kvnetStatus status = KVNET_NO_ERROR
  · simp only [if_pos ok] at ht
    subst ht
    refine ⟨fun armed => (nomatch armed), fun r hr after => ?_⟩
    obtain ⟨r', _, rfl⟩ := List.mem_map.mp hr
    cases after
  · simp only [if_neg ok] at ht
    subst ht
    obtain ⟨rfl, kept⟩ := kvnetOpen_fails result ok
    refine h.congr rfl h.reads (flagSet_congr rfl fun holds => ?_)
    rw [show w = s.world from kept holds.2]

theorem close_armed {s t : LibSys} {errno : UInt32} {fuel : Nat} (h : s.Armed) {arch : Arch}
    (step : s.step arch (.kvnetClose errno fuel) = some t) : t.Armed := by
  obtain ⟨⟨status, l, w⟩, result, rfl⟩ := Option.map_eq_some_iff.mp step
  obtain rfl := kvnetClose_closes result
  have flag : s.FlagSet → FlagSet { s with lib := { s.lib with fdesc := -1 }, world := w } := by
    intro before
    by_cases tap : s.lib.useTapDev ≠ 0
    · rw [flagSet_tap tap] at before
      rw [flagSet_tap (s := { s with lib := { s.lib with fdesc := -1 }, world := w }) tap]
      exact before
    · rw [flagSet_driver (s := { s with lib := { s.lib with fdesc := -1 }, world := w }) tap]
      intro opened
      exact False.elim (opened rfl)
  exact h.congr rfl h.reads flag

/-- A cancel that succeeds on an open handle sets the flag; none clears it. -/
theorem cancel_armed {s : LibSys} (h : s.Armed) (errno : UInt32) (ok : Bool) :
    (s.cancelStep errno ok).Armed := by
  have set : (1 : Int32) ≠ 0 := by decide
  unfold cancelStep kvnetCancelRead
  by_cases tap : s.lib.useTapDev ≠ 0
  · simp only [if_pos tap]
    have flag : FlagSet { s with lib := { s.lib with canceled := 1 } } := by
      rw [flagSet_tap (s := { s with lib := { s.lib with canceled := 1 } }) tap]
      exact set
    exact ⟨fun _ => flag, fun _ _ _ => flag⟩
  · simp only [if_neg tap]
    by_cases closed : s.lib.fdesc = -1
    · simp only [if_pos closed]
      exact h.congr (by simp [closed]) h.reads id
    · simp only [if_neg closed]
      by_cases refused : ok = false
      · simp only [if_pos refused]
        refine h.congr ?_ h.reads id
        simp [kvnetStatus_make, show ¬ (KVNET_IOCTL_ERROR &&& lowHalf = KVNET_NO_ERROR) by decide]
      · simp only [if_neg refused]
        have flag : FlagSet { s with world := cancelPendingRead s.world } := by
          rw [flagSet_driver (s := { s with world := cancelPendingRead s.world }) tap]
          exact fun _ => set
        exact ⟨fun _ => flag, fun _ _ _ => flag⟩

theorem readEnter_armed {arch : Arch} {s : LibSys} (h : s.Armed) (hdr : Addr) (len : UInt32) :
    (s.readEnter arch hdr len).Armed := by
  unfold readEnter
  split
  · refine ⟨h.armed, fun r hr after => ?_⟩
    rcases List.mem_append.mp hr with old | new
    · exact h.reads r old after
    · obtain rfl := List.mem_singleton.mp new
      exact h.armed after
  · exact h

/-- One round of a read: it goes on, or the call returns. -/
theorem readRound_inv {arch : Arch} {s t : LibSys} {k : Nat} {outcome : PollOutcome}
    {data : DataEnv} {errno : UInt32} (step : s.readRound arch k outcome data errno = some t) :
    ∃ r, s.reads[k]? = some r ∧ outcome.Possible s.lib s.world ∧
      let result := kvnetReadRound arch s.lib s.world r.hdr r.len errno outcome data
      (result.status = none ∧ t = { s with world := result.world } ∨
        ∃ status, result.status = some status ∧ t = { s with
          world := result.world
          reads := s.reads.eraseIdx k
          returned := s.returned ++ [⟨r.afterCancel, status, result.taken⟩] }) := by
  unfold readRound at step
  split at step
  · rename_i r found
    by_cases possible : outcome.Possible s.lib s.world
    · simp only [if_pos possible] at step
      refine ⟨r, found, possible, ?_⟩
      split at step
      · rename_i again
        exact Or.inl ⟨again, (Option.some.inj step).symm⟩
      · rename_i status ends
        exact Or.inr ⟨status, ends, (Option.some.inj step).symm⟩
    · simp [possible] at step
  · cases step

theorem readRound_armed {arch : Arch} {s t : LibSys} {k : Nat} {outcome : PollOutcome}
    {data : DataEnv} {errno : UInt32} (h : s.Armed)
    (step : s.readRound arch k outcome data errno = some t) : t.Armed := by
  obtain ⟨r, _, _, outcome⟩ := readRound_inv step
  have ioDev := kvnetReadRound_ioDev arch s.lib s.world r.hdr r.len errno data
  rcases outcome with ⟨_, rfl⟩ | ⟨status, _, rfl⟩
  · exact h.congr rfl h.reads (flagSet_congr rfl fun _ => by rw [ioDev])
  · refine h.congr rfl (fun r hr => h.reads r (List.mem_of_mem_eraseIdx hr))
      (flagSet_congr rfl fun _ => by rw [ioDev])

theorem step_armed {arch : Arch} {s t : LibSys} {a : LibAction} (h : s.Armed)
    (step : s.step arch a = some t) : t.Armed := by
  cases a with
  | kvnetOpen useTap env => exact open_armed h step
  | kvnetClose errno fuel => exact close_armed h step
  | kvnetCancelRead errno ok =>
    obtain rfl := Option.some.inj step
    exact cancel_armed h errno ok
  | readEnter hdr len =>
    obtain rfl := Option.some.inj step
    exact readEnter_armed h hdr len
  | readRound k outcome data errno => exact readRound_armed h step
  | kvnetWrite hdr len errno fails driver =>
    obtain rfl := Option.some.inj step
    refine h.congr rfl h.reads (flagSet_congr rfl fun _ => ?_)
    exact congrArg IoDev.canceled
      (kvnetWrite_ioDev arch s.lib s.world hdr len errno fails driver)
  | kvnetGetDriverInfo info errno mac fault =>
    obtain rfl := Option.some.inj step
    refine h.congr rfl h.reads (flagSet_congr rfl fun _ => ?_)
    exact congrArg IoDev.canceled (kvnetGetDriverInfo_ioDev s.lib s.world info errno mac fault)
  | traffic world =>
    simp only [LibSys.step, Option.ite_none_right_eq_some, Option.some.injEq] at step
    obtain ⟨kept, rfl⟩ := step
    exact h.congr rfl h.reads (flagSet_congr rfl fun holds => by rw [kept holds])

/-- Every read that started after a cancel reports it and has taken nothing. -/
def AllCancelled (s : LibSys) : Prop :=
  ∀ r ∈ s.returned, r.afterCancel = true →
    kvnetStatus r.status = KVNET_READ_CANCELLED ∧ r.taken = 0

end LibSys

/-- The poll is interrupted or times out, or reports an error event; the driver
reports one whenever it reports anything. -/
def PollOutcome.Cancels (l : Lib) : PollOutcome → Prop
  | .fail e => e = EINTR
  | .timeout => True
  | .ready revents => l.useTapDev = 0 ∨ revents &&& errorEvents ≠ 0

/-- Each round of a read after a cancel ends in such an outcome. -/
def RoundCancels (s : LibSys) : LibAction → Prop
  | .readRound k outcome _ _ =>
    ∀ r, s.reads[k]? = some r → r.afterCancel = true → outcome.Cancels s.lib
  | _ => True

/-- With its flag set the driver reports an error event. -/
theorem canceled_poll {w : World} (canceled : w.vnet.ioDev.canceled ≠ 0) :
    ioDevPoll w &&& polledEvents &&& errorEvents ≠ 0 := by
  rw [ioDevPoll, if_pos canceled]
  decide

/-- With the flag of its backend set, a round that ends the call reports the
cancel and takes nothing exactly when its poll has such an outcome. -/
theorem round_cancels {s : LibSys} (flag : s.FlagSet) (arch : Arch) (hdr : Addr)
    (len errno : UInt32) {outcome : PollOutcome} (data : DataEnv)
    (possible : outcome.Possible s.lib s.world) :
    outcome.Cancels s.lib ↔
      ∀ status,
        (kvnetReadRound arch s.lib s.world hdr len errno outcome data).status = some status →
        kvnetStatus status = KVNET_READ_CANCELLED ∧
          (kvnetReadRound arch s.lib s.world hdr len errno outcome data).taken = 0 := by
  cases outcome with
  | fail e =>
    by_cases interrupted : e = EINTR
    · subst interrupted
      rw [round_interrupted]
      exact iff_of_true rfl fun _ impossible => nomatch impossible
    · rw [round_fail _ _ _ _ _ _ _ interrupted]
      refine iff_of_false interrupted fun all => ?_
      have cancelled := (all _ rfl).1
      rw [kvnetStatus_make] at cancelled
      exact absurd cancelled (by decide)
  | timeout =>
    have tap : s.lib.useTapDev ≠ 0 := possible
    rw [round_timeout _ _ _ _ _ _ _ tap ((LibSys.flagSet_tap tap).mp flag)]
    refine iff_of_true trivial fun status ends => ?_
    obtain rfl := Option.some.inj ends
    exact ⟨by rw [kvnetStatus_make]; decide, rfl⟩
  | ready revents =>
    by_cases error : revents &&& errorEvents ≠ 0
    · rw [round_error _ _ _ _ _ _ _ error]
      refine iff_of_true (Or.inr error) fun status ends => ?_
      obtain rfl := Option.some.inj ends
      exact ⟨by rw [kvnetStatus_make]; decide, rfl⟩
    · have tap : s.lib.useTapDev ≠ 0 := by
        intro driver
        have canceled := (LibSys.flagSet_driver (not_not.mpr driver)).mp flag possible.1
        rcases possible.2 with tap | ⟨rfl, _⟩
        · exact tap driver
        · exact error (canceled_poll canceled)
      obtain ⟨status, world, taken, result, other, _⟩ :=
        round_ready arch s.lib s.world hdr len errno data error
      rw [result]
      refine iff_of_false (fun cancels => ?_) fun all => ?_
      · exact cancels.elim tap error
      · have cancelled := (all _ rfl).1
        rw [kvnetStatus_make] at cancelled
        exact other cancelled

namespace LibSys

theorem returned_snoc {s t : LibSys} {r : ReadReturn} (returned : t.returned = s.returned ++ [r]) :
    t.AllCancelled ↔ s.AllCancelled ∧
      (r.afterCancel = true → kvnetStatus r.status = KVNET_READ_CANCELLED ∧ r.taken = 0) := by
  unfold AllCancelled
  rw [returned]
  constructor
  · intro all
    exact ⟨fun q hq => all q (List.mem_append_left _ hq),
      all r (List.mem_append_right _ (List.mem_singleton.mpr rfl))⟩
  · rintro ⟨old, new⟩
    exact Pool.forall_snoc old new

theorem readRound_decides {arch : Arch} {s t : LibSys} {k : Nat} {outcome : PollOutcome}
    {data : DataEnv} {errno : UInt32} (h : s.Armed)
    (step : s.readRound arch k outcome data errno = some t) :
    t.AllCancelled ↔ s.AllCancelled ∧ RoundCancels s (.readRound k outcome data errno) := by
  obtain ⟨r, found, possible, ended⟩ := readRound_inv step
  have only : RoundCancels s (.readRound k outcome data errno) ↔
      (r.afterCancel = true → outcome.Cancels s.lib) := by
    refine ⟨fun all => all r found, fun one q hq => ?_⟩
    obtain rfl : r = q := Option.some.inj (found.symm.trans hq)
    exact one
  have cancels : r.afterCancel = true → (outcome.Cancels s.lib ↔ _) := fun after =>
    round_cancels (h.reads r (List.mem_of_getElem? found) after) arch r.hdr r.len errno data
      possible
  rw [only]
  rcases ended with ⟨again, rfl⟩ | ⟨status, ends, rfl⟩
  · refine ⟨fun all => ⟨all, fun after => (cancels after).mpr fun status ends => ?_⟩,
      fun all => all.1⟩
    rw [again] at ends
    cases ends
  · rw [returned_snoc rfl]
    refine and_congr_right fun _ => forall_congr' fun after => ?_
    rw [cancels after]
    refine ⟨fun one other same => ?_, fun all => all status ends⟩
    obtain rfl : status = other := Option.some.inj (ends.symm.trans same)
    exact one

/-- Only a round of a read adds to the reads that are over. -/
theorem step_decides {arch : Arch} {s t : LibSys} {a : LibAction} (h : s.Armed)
    (step : s.step arch a = some t) :
    t.AllCancelled ↔ s.AllCancelled ∧ RoundCancels s a := by
  have unchanged : t.returned = s.returned → RoundCancels s a →
      (t.AllCancelled ↔ s.AllCancelled ∧ RoundCancels s a) := by
    intro same free
    unfold AllCancelled
    rw [same]
    exact ⟨fun all => ⟨all, free⟩, fun all => all.1⟩
  cases a with
  | readRound k outcome data errno => exact readRound_decides h step
  | kvnetOpen useTap env =>
    obtain ⟨⟨status, l, w⟩, _, rfl⟩ := Option.map_eq_some_iff.mp step
    refine unchanged ?_ trivial
    dsimp only
    split <;> rfl
  | kvnetClose errno fuel =>
    obtain ⟨_, _, rfl⟩ := Option.map_eq_some_iff.mp step
    exact unchanged rfl trivial
  | readEnter hdr len =>
    obtain rfl := Option.some.inj step
    refine unchanged ?_ trivial
    unfold readEnter
    split <;> rfl
  | traffic world =>
    simp only [LibSys.step, Option.ite_none_right_eq_some, Option.some.injEq] at step
    obtain ⟨_, rfl⟩ := step
    exact unchanged rfl trivial
  | kvnetCancelRead errno ok =>
    obtain rfl := Option.some.inj step
    exact unchanged rfl trivial
  | kvnetWrite hdr len errno fails driver =>
    obtain rfl := Option.some.inj step
    exact unchanged rfl trivial
  | kvnetGetDriverInfo info errno mac fault =>
    obtain rfl := Option.some.inj step
    exact unchanged rfl trivial

/-- The library before its first call. -/
structure Fresh (s : LibSys) : Prop where
  lib : s.lib = Lib.init
  armed : s.armed = false
  reads : s.reads = []
  returned : s.returned = []

/-- Over every run: all reads after a cancel report it and take nothing, exactly
when no poll of such a read fails but with EINTR or, on TAP, finds the descriptor
ready without an error event. -/
theorem all_cancelled_iff (arch : Arch) (s₀ s : LibSys) (actions : List LibAction)
    (fresh : s₀.Fresh) (h : Execution.run (LibSys.step arch) s₀ actions = some s) :
    s.AllCancelled ↔ Execution.Meets (LibSys.step arch) RoundCancels s₀ actions := by
  have start : s₀.Armed := by
    constructor
    · intro armed
      rw [fresh.armed] at armed
      cases armed
    · intro r hr
      rw [fresh.reads] at hr
      cases hr
  have none_over : s₀.AllCancelled := by
    intro r hr
    rw [fresh.returned] at hr
    cases hr
  rw [Execution.final_iff_meets Armed (fun _ _ _ => step_armed) (fun _ _ _ => step_decides) start h]
  exact and_iff_right none_over

end LibSys

/-- No call has been made; a header for one packet of 64 bytes is prepared. -/
def unopened : LibSys where
  lib := Lib.init
  world :=
    { mem := ⟨fun _ => ⟨NULL, []⟩, []⟩
      user := storeBytes (storeBytes (fun _ => 0) 4096 (leBytes 4 1 ++ leBytes 8 8192)) 8192
        (leBytes 4 64)
      vnet := ⟨⟨1, 0, 0⟩, ⟨0, 0, ⟨0, 0, 0, 0, 0, 0, 0, 0, 0, 0⟩, ⟨0, 0, 0, 0⟩, 0⟩, ⟨[], 256⟩⟩
      kernel := ⟨[], [], 64, 0, false⟩ }
  armed := false
  reads := []
  returned := []

theorem unopened_fresh : unopened.Fresh := ⟨rfl, rfl, rfl, rfl⟩

/-- TAP is opened and cancelled, then one read makes these polls while a frame
of two bytes is waiting. -/
def tapCancelled (outcomes : List PollOutcome) : List LibAction :=
  [.kvnetOpen 1 ⟨0, 3, true, true, true, 0, 1⟩, .kvnetCancelRead 0 true, .readEnter 4096 12] ++
    outcomes.map fun outcome =>
      .readRound 0 outcome ⟨some [0xaa, 0xbb], ⟨⟨true, false, fun _ => 0⟩, fun _ => none, none⟩⟩ 0

theorem all_cancelled_iff_timeout :
    ∃ s, Execution.run (LibSys.step lp64) unopened (tapCancelled [.fail EINTR, .timeout]) = some s ∧
      s.returned.length = 1 ∧ s.AllCancelled := by
  have outcome : (Execution.run (LibSys.step lp64) unopened
      (tapCancelled [.fail EINTR, .timeout])).map (fun s => s.returned.length) = some 1 := by
    decide +kernel
  obtain ⟨s, hrun, ended⟩ := Option.map_eq_some_iff.mp outcome
  refine ⟨s, hrun, ended, (LibSys.all_cancelled_iff lp64 unopened s _ unopened_fresh hrun).mpr ?_⟩
  refine ⟨trivial, fun _ _ => ⟨trivial, fun _ _ => ⟨trivial, fun _ _ => ⟨?_, fun _ _ => ⟨?_, ?_⟩⟩⟩⟩⟩
  · exact fun _ _ _ => rfl
  · exact fun _ _ _ => trivial
  · exact fun _ _ => trivial

/-- A frame is waiting: the read after the cancel takes it and reports no error. -/
theorem tap_read_uncancelled : unopened.Fresh ∧
    ∃ s, Execution.run (LibSys.step lp64) unopened (tapCancelled [.ready POLLIN]) = some s ∧
      ¬ s.AllCancelled := by
  have outcome : (Execution.run (LibSys.step lp64) unopened (tapCancelled [.ready POLLIN])).map
      LibSys.returned = some [⟨true, kvnetMakeStatus 0 KVNET_NO_ERROR, 1⟩] := by decide +kernel
  obtain ⟨s, hrun, ended⟩ := Option.map_eq_some_iff.mp outcome
  refine ⟨unopened_fresh, s, hrun, fun all => ?_⟩
  have taken := (all _ (by rw [ended]; exact List.mem_singleton.mpr rfl) rfl).2
  cases taken

end Kvnet
