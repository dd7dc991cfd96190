import Kvnet.Cancellation

/-!
# Closed handles

What the calls do while no descriptor is open. On the driver each of them tests
the descriptor; on TAP two of them test `use_tap_dev` alone, which a close leaves
as it was.
-/

namespace Kvnet

/-- The call has failed and left the globals alone. -/
def Refused (l : Lib) (status : UInt32) (l' : Lib) : Prop :=
  kvnetStatus status ≠ KVNET_NO_ERROR ∧ l' = l

/-- Each call on the handle is refused, whatever the environment answers. -/
structure Inert (arch : Arch) (l : Lib) (w : World) : Prop where
  close : ∀ errno fuel, ∃ status l' w',
    kvnetClose l w errno fuel = some (status, l', w') ∧ Refused l status l'
  cancelRead : ∀ errno ok,
    Refused l (kvnetCancelRead l w errno ok).1 (kvnetCancelRead l w errno ok).2.1
  read : ∀ hdr len errno rounds, ∃ status w',
    kvnetRead arch l w hdr len errno rounds = some (status, w') ∧
      kvnetStatus status ≠ KVNET_NO_ERROR
  write : ∀ hdr len errno fails driver,
    kvnetStatus (kvnetWrite arch l w hdr len errno fails driver).1 ≠ KVNET_NO_ERROR
  getDriverInfo : ∀ info errno mac fault,
    kvnetStatus (kvnetGetDriverInfo l w info errno mac fault).1 ≠ KVNET_NO_ERROR

theorem status_ne {errno status : UInt32} (other : status &&& lowHalf ≠ KVNET_NO_ERROR) :
    kvnetStatus (kvnetMakeStatus errno status) ≠ KVNET_NO_ERROR := by
  rwa [kvnetStatus_make]

theorem invalid_arguments {arch : Arch} {l : Lib} (closed : l.fdesc = -1) (hdr : Addr)
    (len : UInt32) : validArguments arch l hdr len = false := by
  simp [validArguments, closed]

/-- Without a descriptor the calls are refused exactly when the last handle that
was opened was one of the driver. -/
theorem inert_iff (arch : Arch) {l : Lib} (closed : l.fdesc = -1) (w : World) :
    Inert arch l w ↔ l.useTapDev = 0 := by
  constructor
  · intro inert
    by_contra tap
    have cancelled := (inert.cancelRead 0 true).1
    simp only [kvnetCancelRead, if_pos (show l.useTapDev ≠ 0 from tap)] at cancelled
    exact cancelled (kvnetStatus_make _ _)
  · intro driver
    have notTap : ¬ l.useTapDev ≠ 0 := not_not.mpr driver
    constructor
    · intro errno fuel
      exact ⟨_, l, w, by rw [kvnetClose, if_pos closed], status_ne (by decide), rfl⟩
    · intro errno ok
      simp only [kvnetCancelRead, if_neg notTap, if_pos closed]
      exact ⟨status_ne (by decide), rfl⟩
    · intro hdr len errno rounds
      refine ⟨kvnetMakeStatus errno KVNET_INVALID_PARAMETER, w, ?_, status_ne (by decide)⟩
      rw [kvnetRead, if_pos (invalid_arguments closed hdr len)]
    · intro hdr len errno fails write
      rw [kvnetWrite, if_pos (invalid_arguments closed hdr len)]
      exact status_ne (by decide)
    · intro info errno mac fault
      rw [kvnetGetDriverInfo, if_neg notTap, if_pos (Or.inl closed)]
      exact status_ne (by decide)

namespace LibSys

/-- While no descriptor is open the handle is inert. -/
def ClosedInert (arch : Arch) (s : LibSys) : Prop :=
  s.lib.fdesc = -1 → Inert arch s.lib s.world

/-- The step closes no handle of TAP. -/
def KeepsTap (s : LibSys) : LibAction → Prop
  | .kvnetClose _ _ => s.lib.fdesc ≠ -1 → s.lib.useTapDev = 0
  | _ => True

theorem closedInert_iff (arch : Arch) (s : LibSys) :
    s.ClosedInert arch ↔ (s.lib.fdesc = -1 → s.lib.useTapDev = 0) :=
  forall_congr' fun closed => inert_iff arch closed s.world

/-- The law depends on two of the globals only. -/
theorem closedInert_congr {arch : Arch} {s t : LibSys} (fdesc : t.lib.fdesc = s.lib.fdesc)
    (tap : t.lib.useTapDev = s.lib.useTapDev) (h : s.ClosedInert arch) : t.ClosedInert arch := by
  rw [closedInert_iff] at h ⊢
  rwa [fdesc, tap]

theorem open_closedInert {arch : Arch} {s t : LibSys} {useTap : Int32} {env : OpenEnv}
    (h : s.ClosedInert arch) (step : s.openStep useTap env = some t) : t.ClosedInert arch := by
  obtain ⟨⟨status, l, w⟩, result, ht⟩ := Option.map_eq_some_iff.mp step
  by_cases ok : kvnetStatus status = KVNET_NO_ERROR
  · simp only [if_pos ok] at ht
    subst ht
    intro closed
    have opened := congrArg Lib.fdesc (kvnetOpen_opens result ok)
    simp only at closed opened
    omega
  · simp only [if_neg ok] at ht
    subst ht
    have same := (kvnetOpen_fails result ok).1
    exact closedInert_congr (congrArg Lib.fdesc same) (congrArg Lib.useTapDev same) h

/-- A close keeps the law exactly when it does not close a handle of TAP. -/
theorem close_decides {arch : Arch} {s t : LibSys} {errno : UInt32} {fuel : Nat}
    (h : s.ClosedInert arch) (step : s.step arch (.kvnetClose errno fuel) = some t) :
    t.ClosedInert arch ↔ s.KeepsTap (.kvnetClose errno fuel) := by
  obtain ⟨⟨status, l, w⟩, result, rfl⟩ := Option.map_eq_some_iff.mp step
  obtain rfl := kvnetClose_closes result
  rw [closedInert_iff] at h ⊢
  constructor
  · intro inert _
    exact inert rfl
  · intro keeps _
    by_cases closed : s.lib.fdesc = -1
    · exact h closed
    · exact keeps closed

theorem cancel_closedInert {arch : Arch} {s : LibSys} (h : s.ClosedInert arch) (errno : UInt32)
    (ok : Bool) : (s.cancelStep errno ok).ClosedInert arch := by
  have lib : (s.cancelStep errno ok).lib = (kvnetCancelRead s.lib s.world errno ok).2.1 := rfl
  have kept : (kvnetCancelRead s.lib s.world errno ok).2.1.fdesc = s.lib.fdesc ∧
      (kvnetCancelRead s.lib s.world errno ok).2.1.useTapDev = s.lib.useTapDev := by
    unfold kvnetCancelRead
    split
    · exact ⟨rfl, rfl⟩
    split
    · exact ⟨rfl, rfl⟩
    split
    · exact ⟨rfl, rfl⟩
    · exact ⟨rfl, rfl⟩
  exact closedInert_congr (lib ▸ kept.1) (lib ▸ kept.2) h

theorem step_closedInert {arch : Arch} {s t : LibSys} {a : LibAction} (h : s.ClosedInert arch)
    (step : s.step arch a = some t) : t.ClosedInert arch ↔ s.KeepsTap a := by
  cases a with
  | kvnetOpen useTap env => exact iff_of_true (open_closedInert h step) trivial
  | kvnetClose errno fuel => exact close_decides h step
  | kvnetCancelRead errno ok =>
    obtain rfl := Option.some.inj step
    exact iff_of_true (cancel_closedInert h errno ok) trivial
  | readEnter hdr len =>
    obtain rfl := Option.some.inj step
    have lib : (s.readEnter arch hdr len).lib = s.lib := by
      unfold readEnter
      split
      · rfl
      · rfl
    exact iff_of_true (closedInert_congr (lib ▸ rfl) (lib ▸ rfl) h) trivial
  | readRound k outcome data errno =>
    obtain ⟨r, _, _, ends⟩ := readRound_inv step
    rcases ends with ⟨_, rfl⟩ | ⟨_, _, rfl⟩
    · exact iff_of_true (closedInert_congr (s := s) rfl rfl h) trivial
    · exact iff_of_true (closedInert_congr (s := s) rfl rfl h) trivial
  | kvnetWrite hdr len errno fails driver =>
    obtain rfl := Option.some.inj step
    exact iff_of_true (closedInert_congr (s := s) rfl rfl h) trivial
  | kvnetGetDriverInfo info errno mac fault =>
    obtain rfl := Option.some.inj step
    exact iff_of_true (closedInert_congr (s := s) rfl rfl h) trivial
  | traffic world =>
    simp only [LibSys.step, Option.ite_none_right_eq_some, Option.some.injEq] at step
    obtain ⟨_, rfl⟩ := step
    exact iff_of_true (closedInert_congr (s := s) rfl rfl h) trivial

/-- In a run from the loaded library a closed handle is inert in every state
exactly when no step closes a handle of TAP. -/
theorem closed_inert_iff (arch : Arch) (s₀ s : LibSys) (actions : List LibAction)
    (loaded : s₀.lib = Lib.init) (h : Execution.run (LibSys.step arch) s₀ actions = some s) :
    Execution.Always (LibSys.step arch) (ClosedInert arch) s₀ actions ↔
      Execution.Meets (LibSys.step arch) KeepsTap s₀ actions := by
  have start : s₀.ClosedInert arch := by
    rw [closedInert_iff, loaded]
    exact fun _ => rfl
  exact Execution.always_iff_meets (fun _ => True) (fun _ _ _ _ _ => trivial)
    (fun _ _ _ _ inert step => step_closedInert inert step) trivial start h

/-- A handle is opened and closed again. -/
def openClose (useTap : Int32) : List LibAction :=
  [.kvnetOpen useTap ⟨0, 3, true, true, true, 0, 1⟩, .kvnetClose 0 1]

theorem closed_inert_driver :
    Execution.Always (LibSys.step lp64) (ClosedInert lp64) unopened (openClose 0) := by
  have outcome : (Execution.run (LibSys.step lp64) unopened (openClose 0)).map LibSys.lib =
      some ⟨-1, 0, 0⟩ := by decide +kernel
  obtain ⟨s, hrun, _⟩ := Option.map_eq_some_iff.mp outcome
  refine (closed_inert_iff lp64 unopened s _ rfl hrun).mpr ⟨trivial, fun t ht => ⟨?_, ?_⟩⟩
  · intro _
    have opened : (unopened.step lp64 (.kvnetOpen 0 ⟨0, 3, true, true, true, 0, 1⟩)).map
        LibSys.lib = some ⟨3, 0, 0⟩ := by decide +kernel
    rw [ht, Option.map_some, Option.some.injEq] at opened
    rw [opened]
  · exact fun _ _ => trivial

/-- On TAP a cancel succeeds all the same. -/
theorem closed_tap_cancels : unopened.lib = Lib.init ∧
    ∃ s, Execution.run (LibSys.step lp64) unopened (openClose 1) = some s ∧
      ¬ s.ClosedInert lp64 := by
  have outcome : (Execution.run (LibSys.step lp64) unopened (openClose 1)).map LibSys.lib =
      some ⟨-1, 0, 1⟩ := by decide +kernel
  obtain ⟨s, hrun, lib⟩ := Option.map_eq_some_iff.mp outcome
  refine ⟨rfl, s, hrun, fun inert => ?_⟩
  rw [closedInert_iff, lib] at inert
  exact absurd (inert rfl) (by decide)

end LibSys

end Kvnet
