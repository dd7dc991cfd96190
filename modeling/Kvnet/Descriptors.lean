import Kvnet.Holding
import Kvnet.Library

/-!
# The descriptors of the library

kvnet_open opens the device, and on TAP a socket for the MTU; kvnet_get_mac opens
a socket of its own. Numbers of closed descriptors are used again by other
threads of the process, whose descriptors the library must not close.
-/

namespace Kvnet

/-- The descriptor in fdesc. -/
def Lib.descriptors (l : Lib) : List Nat := if l.fdesc = -1 then [] else [l.fdesc.toNat]

/-- The descriptors of kvnet_open. The answer to SIOCSIFMTU is not looked at. -/
def kvnetOpenDescriptors (l : Lib) (useTap : Int32) (tunSetIff : Bool) (errno : UInt32) :
    Holding.Prog Nat (UInt32 × Lib) :=
  if l.fdesc ≠ -1 then .ret (kvnetMakeStatus errno KVNET_ERROR_ALREADY_OPENED, l)
  else .acquire fun
    | none => .ret (kvnetMakeStatus errno KVNET_OPEN_DEVICE_ERROR, { l with fdesc := -1 })
    | some fd =>
      let opened := (kvnetMakeStatus errno KVNET_NO_ERROR, ⟨fd, 0, useTap⟩)
      if useTap ≠ 0 then
        if tunSetIff = false then
          .release fd (.ret (kvnetMakeStatus errno KVNET_IOCTL_ERROR, { l with fdesc := -1 }))
        else .acquire fun
          | none => .ret opened
          | some skfd => .release skfd (.ret opened)
      else .ret opened

/-- The descriptors of kvnet_close. -/
def kvnetCloseDescriptors (l : Lib) (errno : UInt32) : Holding.Prog Nat (UInt32 × Lib) :=
  if l.fdesc = -1 then .ret (kvnetMakeStatus errno KVNET_NOT_OPENED, l)
  else .release l.fdesc.toNat (.ret (kvnetMakeStatus errno KVNET_NO_ERROR, { l with fdesc := -1 }))

/-- kvnet_get_mac. `hwAddr` is what SIOCGIFHWADDR answers. -/
def kvnetGetMac (hwAddr : Option (List UInt8)) : Holding.Prog Nat (Option (List UInt8)) :=
  .acquire fun
    | none => .ret none
    | some sock => .release sock (.ret hwAddr)

/-- The descriptors of kvnet_get_driver_info. -/
def kvnetGetDriverInfoDescriptors (l : Lib) (info : Addr) (hwAddr : Option (List UInt8)) :
    Holding.Prog Nat (Option (List UInt8)) :=
  if l.useTapDev ≠ 0 ∧ info ≠ NULL then kvnetGetMac hwAddr else .ret none

/-- A call of the library with what the kernel answers in it. kvnet_read and
kvnet_write change neither the globals nor the descriptors. -/
inductive LibCall where
  | kvnetOpen (useTap : Int32) (tunSetIff : Bool) (errno : UInt32)
  | kvnetClose (errno : UInt32)
  | kvnetCancelRead (errno : UInt32) (ok : Bool) (w : World)
  | kvnetGetDriverInfo (info : Addr) (hwAddr : Option (List UInt8))

/-- The globals after the call. -/
def LibCall.body (l : Lib) : LibCall → Holding.Prog Nat Lib
  | .kvnetOpen useTap tunSetIff errno =>
    (kvnetOpenDescriptors l useTap tunSetIff errno).bind fun r => .ret r.2
  | .kvnetClose errno => (kvnetCloseDescriptors l errno).bind fun r => .ret r.2
  | .kvnetCancelRead errno ok w => .ret (Kvnet.kvnetCancelRead l w errno ok).2.1
  | .kvnetGetDriverInfo info hwAddr =>
    (kvnetGetDriverInfoDescriptors l info hwAddr).bind fun _ => .ret l

/-- Calls one after another. -/
def callsFrom (l : Lib) : List LibCall → Holding.Prog Nat Lib
  | [] => .ret l
  | c :: calls => (c.body l).bind fun l => callsFrom l calls

/-- The device is opened where kvnet_open does not fail to open it. -/
structure Opens (env : OpenEnv) (status : UInt32) (answers : Nat → Option Nat) : Prop where
  failed : answers 0 = none ↔ kvnetStatus status = KVNET_OPEN_DEVICE_ERROR
  number : ∀ fd, answers 0 = some fd → fd = env.fd

theorem kvnetOpenDescriptors_exec {l l' : Lib} {w w' : World} {useTap : Int32} {env : OpenEnv}
    {status : UInt32} {answers : Nat → Option Nat}
    (result : kvnetOpen l w useTap env = some (status, l', w')) (opens : Opens env status answers) :
    (kvnetOpenDescriptors l useTap env.tunSetIff env.errno).exec answers 0 = (status, l') := by
  have answered {e : UInt32} (same : kvnetMakeStatus env.errno e = status)
      (other : e &&& lowHalf ≠ KVNET_OPEN_DEVICE_ERROR) : answers 0 = some env.fd := by
    obtain ⟨fd, is_fd⟩ := Option.ne_none_iff_exists'.mp fun none_there => by
      have failed := opens.failed.mp none_there
      rw [← same, kvnetStatus_make] at failed
      exact other failed
    rw [is_fd, opens.number fd is_fd]
  have unanswered (same : kvnetMakeStatus env.errno KVNET_OPEN_DEVICE_ERROR = status) :
      answers 0 = none := by
    refine opens.failed.mpr ?_
    rw [← same, kvnetStatus_make]
    rfl
  unfold kvnetOpen at result
  unfold kvnetOpenDescriptors
  by_cases already : l.fdesc ≠ -1
  · rw [if_pos already] at result ⊢
    simp only [Option.some.injEq, Prod.mk.injEq] at result
    exact Prod.ext result.1 result.2.1
  rw [if_neg already] at result ⊢
  rw [Holding.Prog.exec]
  by_cases tap : useTap ≠ 0
  · simp only [if_pos tap] at result ⊢
    by_cases unopened : env.opens = false
    · simp only [if_pos unopened, Option.some.injEq, Prod.mk.injEq] at result
      rw [unanswered result.1]
      exact Prod.ext result.1 result.2.1
    rw [if_neg unopened] at result
    by_cases refused : env.tunSetIff = false
    · simp only [if_pos refused, Option.some.injEq, Prod.mk.injEq] at result
      rw [answered result.1 (by decide), refused]
      exact Prod.ext result.1 result.2.1
    · simp only [if_neg refused, Option.some.injEq, Prod.mk.injEq] at result
      rw [answered result.1 (by decide)]
      dsimp only
      rw [if_neg refused, Holding.Prog.exec]
      -- with the socket or without
      cases answers 1 with
      | none => exact Prod.ext result.1 result.2.1
      | some skfd => exact Prod.ext result.1 result.2.1
  · simp only [if_neg tap] at result ⊢
    by_cases unopened : env.opens = false
    · simp only [if_pos unopened, Option.some.injEq, Prod.mk.injEq] at result
      rw [unanswered result.1]
      exact Prod.ext result.1 result.2.1
    rw [if_neg unopened] at result
    obtain ⟨⟨ret, v⟩, _, result⟩ := Option.map_eq_some_iff.mp result
    by_cases refused : ret ≠ 0
    · simp only [if_pos refused, Prod.mk.injEq] at result
      rw [unanswered result.1]
      exact Prod.ext result.1 result.2.1
    · simp only [if_neg refused, Prod.mk.injEq] at result
      rw [answered result.1 (by decide)]
      exact Prod.ext result.1 result.2.1

theorem kvnetCloseDescriptors_exec {l l' : Lib} {w w' : World} {errno : UInt32} {fuel : Nat}
    {status : UInt32} (result : kvnetClose l w errno fuel = some (status, l', w'))
    (answers : Nat → Option Nat) :
    (kvnetCloseDescriptors l errno).exec answers 0 = (status, l') := by
  unfold kvnetClose at result
  unfold kvnetCloseDescriptors
  by_cases closed : l.fdesc = -1
  · rw [if_pos closed] at result ⊢
    simp only [Option.some.injEq, Prod.mk.injEq] at result
    exact Prod.ext result.1 result.2.1
  · rw [if_neg closed] at result ⊢
    obtain ⟨v, _, result⟩ := Option.map_eq_some_iff.mp result
    simp only [Prod.mk.injEq] at result
    exact Prod.ext result.1 result.2.1

/-- A call ends holding what its globals name. -/
def Named (l : Lib) (held : List Nat) : Prop := held = l.descriptors

@[simp] theorem descriptors_closed {l : Lib} (closed : l.fdesc = -1) : l.descriptors = [] :=
  if_pos closed

@[simp] theorem descriptors_open (fd : Nat) (canceled useTap : Int32) :
    Lib.descriptors ⟨fd, canceled, useTap⟩ = [fd] := by
  rw [Lib.descriptors, if_neg (show (fd : Int) ≠ -1 by omega)]
  rfl

theorem kvnetOpenDescriptors_owns (l : Lib) (useTap : Int32) (tunSetIff : Bool) (errno : UInt32) :
    (kvnetOpenDescriptors l useTap tunSetIff errno).Owns (fun r => Named r.2) l.descriptors := by
  unfold kvnetOpenDescriptors
  split
  · exact rfl
  next closed =>
    rw [descriptors_closed (not_not.mp closed)]
    refine ⟨(descriptors_closed rfl).symm, fun fd _ => ?_⟩
    have named : Named ⟨fd, 0, useTap⟩ [fd] := (descriptors_open fd 0 useTap).symm
    dsimp only
    split
    · split
      · refine ⟨List.mem_singleton_self fd, ?_⟩
        rw [List.erase_cons_head]
        exact (descriptors_closed rfl).symm
      · refine ⟨named, fun skfd _ => ⟨List.mem_cons_self, ?_⟩⟩
        rw [List.erase_cons_head]
        exact named
    · exact named

theorem kvnetCloseDescriptors_owns (l : Lib) (errno : UInt32) :
    (kvnetCloseDescriptors l errno).Owns (fun r => Named r.2) l.descriptors := by
  unfold kvnetCloseDescriptors
  split
  · exact rfl
  next opened =>
    have held : l.descriptors = [l.fdesc.toNat] := if_neg opened
    rw [held]
    refine ⟨List.mem_singleton_self _, ?_⟩
    rw [List.erase_cons_head]
    exact (descriptors_closed rfl).symm

theorem kvnetGetDriverInfoDescriptors_owns (l : Lib) (info : Addr) (hwAddr : Option (List UInt8)) :
    (kvnetGetDriverInfoDescriptors l info hwAddr).Owns (fun _ => Named l) l.descriptors := by
  unfold kvnetGetDriverInfoDescriptors
  split
  · refine ⟨rfl, fun sock _ => ⟨List.mem_cons_self, ?_⟩⟩
    rw [List.erase_cons_head]
    exact rfl
  · exact rfl

theorem body_owns (l : Lib) (call : LibCall) : (call.body l).Owns Named l.descriptors := by
  cases call with
  | kvnetOpen useTap tunSetIff errno =>
    exact Holding.Prog.owns_bind (kvnetOpenDescriptors_owns l useTap tunSetIff errno)
      fun _ _ named => named
  | kvnetClose errno =>
    exact Holding.Prog.owns_bind (kvnetCloseDescriptors_owns l errno) fun _ _ named => named
  | kvnetCancelRead errno ok w =>
    have kept : (Kvnet.kvnetCancelRead l w errno ok).2.1.fdesc = l.fdesc := by
      unfold Kvnet.kvnetCancelRead
      split
      · rfl
      split
      · rfl
      split
      · rfl
      · rfl
    rw [LibCall.body, Holding.Prog.Owns, Named, Lib.descriptors, Lib.descriptors, kept]
  | kvnetGetDriverInfo info hwAddr =>
    exact Holding.Prog.owns_bind (kvnetGetDriverInfoDescriptors_owns l info hwAddr)
      fun _ _ named => named

theorem callsFrom_owns (l : Lib) (calls : List LibCall) :
    (callsFrom l calls).Owns Named l.descriptors := by
  induction calls generalizing l with
  | nil => exact rfl
  | cons call calls ih =>
    refine Holding.Prog.owns_bind (body_owns l call) fun l' held named => ?_
    rw [named]
    exact ih l'

/-- The thread that calls the library, from the loaded library on. -/
def libraryThread (calls : List LibCall) : Holding.Prog Nat (Option Lib) :=
  (callsFrom Lib.init calls).bind fun l => .ret (some l)

/-- A thread that calls the library, or one that closes only what it opened. -/
def IsThread (p : Holding.Prog Nat (Option Lib)) : Prop :=
  (∃ calls, p = libraryThread calls) ∨ p.Owns (fun r _ => r = none) []

/-- Whatever the library is called for and whatever fails, while other threads
of the process open and close descriptors of their own: only what a thread has
open itself does it close, no open descriptor is lost, and after its calls the
library has the descriptor in fdesc open and no other. -/
theorem descriptors_balanced (s : Holding.Sys Nat (Option Lib))
    (actions : List (Holding.Action Nat (Option Lib)))
    (threads : ∀ p, .enter p ∈ actions → IsThread p)
    (h : Execution.run Holding.Sys.step Holding.Sys.empty actions = some s) :
    Execution.Meets Holding.Sys.step Holding.Sys.Legal Holding.Sys.empty actions ∧
      (∀ fd ∈ s.live, fd ∈ s.given ∨ ∃ th ∈ s.threads, fd ∈ th.held) ∧
      ∀ th ∈ s.threads, ∀ l, th.prog.result = some (some l) → th.held = l.descriptors := by
  let ends (r : Option Lib) (held : List Nat) : Prop := ∀ l, r = some l → Named l held
  have admits : ∀ a ∈ actions, Holding.Sys.Admits ends a := by
    intro a among
    cases a with
    | enter p =>
      rcases threads p among with ⟨calls, rfl⟩ | owns
      · refine Holding.Prog.owns_bind (callsFrom_owns Lib.init calls) ?_
        rintro l held named l' same
        exact Option.some.inj same ▸ named
      · refine Holding.Prog.owns_mono owns ?_
        rintro r held rfl l' same
        cases same
    | next k answer => exact trivial
    | dispose fd => exact trivial
  obtain ⟨legal, balanced⟩ := Holding.Sys.run_balanced ends admits h
  refine ⟨legal, fun fd live => balanced.holder live, fun th among l result => ?_⟩
  have owns := balanced.owns th among
  cases now : th.prog with
  | ret r =>
    rw [now] at owns result
    exact owns l (Option.some.inj result)
  | acquire next =>
    rw [now] at result
    cases result
  | release fd next =>
    rw [now] at result
    cases result
  | give fd next =>
    rw [now] at result
    cases result

/-- A TAP session whose TUNSETIFF fails at first, while another thread is handed
the number of the device that was closed. -/
def tapRetried : List (Holding.Action Nat (Option Lib)) :=
  [.enter (libraryThread [.kvnetOpen 1 false 16, .kvnetOpen 1 true 0, .kvnetGetDriverInfo 4096
      (some [0, 1, 2, 3, 4, 5])]),
    .enter (.acquire fun
      | none => .ret none
      | some fd => .release fd (.ret none)),
    .next 0 (some 3), .next 0 none, .next 1 (some 3), .next 0 (some 4), .next 0 (some 5),
    .next 0 none, .next 1 none, .next 0 (some 3), .next 0 none]

theorem descriptors_balanced_tapRetried : ∃ s : Holding.Sys Nat (Option Lib),
    Execution.run Holding.Sys.step Holding.Sys.empty tapRetried = some s ∧ s.live = [4] ∧
      (∀ th ∈ s.threads, ∀ l, th.prog.result = some (some l) → th.held = l.descriptors) ∧
      Execution.Meets Holding.Sys.step Holding.Sys.Legal Holding.Sys.empty tapRetried := by
  have ran : (Execution.run Holding.Sys.step Holding.Sys.empty tapRetried).map (fun s =>
      (s.live, s.threads.map fun th => th.prog.result)) =
        some ([4], [some (some ⟨4, 0, 1⟩), some none]) := by decide +kernel
  obtain ⟨s, run, at_⟩ := Option.map_eq_some_iff.mp ran
  obtain ⟨live, _⟩ := Prod.mk.inj at_
  have other : (.acquire fun
      | none => .ret none
      | some fd => .release fd (.ret none) : Holding.Prog Nat (Option Lib)).Owns
        (fun r _ => r = none) [] :=
    ⟨rfl, fun fd _ => ⟨List.mem_singleton_self fd, rfl⟩⟩
  obtain ⟨legal, _, named⟩ := descriptors_balanced s tapRetried
    (fun p among => by
      simp only [tapRetried, List.mem_cons, reduceCtorEq, List.not_mem_nil, or_false,
        Holding.Action.enter.injEq] at among
      rcases among with rfl | rfl
      · exact Or.inl ⟨_, rfl⟩
      · exact Or.inr other) run
  exact ⟨s, run, live, named, legal⟩

end Kvnet
