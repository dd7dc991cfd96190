import Kvnet.Execution
import Mathlib.Logic.Function.Basic

/-!
# Counters without a lock

Threads add to a counter by a load and a store that nothing keeps together. What
a thread stores is what it once loaded and its own amount, whatever was stored in
between. The counter never gets ahead of the amounts, and is level with them at
the end exactly when no load fell between another thread's load and its store.
-/

namespace RacyCounter

variable {ι : Type} [DecidableEq ι]

/-- `total` is the sum of all amounts stored, `loaded` what each thread is about
to add to. -/
structure Counter (ι : Type) where
  value : Nat
  total : Nat
  loaded : ι → Option Nat

inductive Access (ι : Type) where
  | load (i : ι)
  | store (i : ι) (amount : Nat)

def step (s : Counter ι) : Access ι → Option (Counter ι)
  | .load i =>
    if s.loaded i = none then
      some { s with loaded := Function.update s.loaded i (some s.value) }
    else none
  | .store i amount =>
    (s.loaded i).map fun v =>
      ⟨v + amount, s.total + amount, Function.update s.loaded i none⟩

def start : Counter ι := ⟨0, 0, fun _ => none⟩

/-- No thread is between its load and its store. -/
def Idle (s : Counter ι) : Prop := ∀ i, s.loaded i = none

/-- A load finds every other thread idle. -/
def Alone (s : Counter ι) : Access ι → Prop
  | .load _ => Idle s
  | .store _ _ => True

def Positive : Access ι → Prop
  | .load _ => True
  | .store _ amount => 0 < amount

/-- Nothing gets ahead of the amounts. -/
structure Bounded (s : Counter ι) : Prop where
  value : s.value ≤ s.total
  loaded : ∀ i v, s.loaded i = some v → v ≤ s.total

/-- The counter is level with the amounts and one thread at most is about to add. -/
structure Level (s : Counter ι) : Prop where
  value : s.value = s.total
  loaded : ∀ i v, s.loaded i = some v → v = s.total
  few : ∀ i j v w, s.loaded i = some v → s.loaded j = some w → i = j

/-- The counter is behind, or will be: a thread will store too little, or two
threads will of which one does not know of the other. -/
def Behind (s : Counter ι) : Prop :=
  (s.value < s.total ∧ ∀ i v, s.loaded i = some v → v < s.total) ∨
    (∃ i v, s.loaded i = some v ∧ v < s.total) ∨
    ∃ i j v w, i ≠ j ∧ s.loaded i = some v ∧ s.loaded j = some w

section Step

variable {s t : Counter ι} {a : Access ι}

theorem step_load {i : ι} (h : step s (.load i) = some t) :
    s.loaded i = none ∧ t = { s with loaded := Function.update s.loaded i (some s.value) } := by
  obtain ⟨idle, moved⟩ := Option.ite_none_right_eq_some.mp h
  exact ⟨idle, (Option.some.inj moved).symm⟩

theorem step_store {i : ι} {amount : Nat} (h : step s (.store i amount) = some t) :
    ∃ v, s.loaded i = some v ∧
      t = ⟨v + amount, s.total + amount, Function.update s.loaded i none⟩ := by
  obtain ⟨v, loaded, moved⟩ := Option.map_eq_some_iff.mp h
  exact ⟨v, loaded, moved.symm⟩

/-- Where a loaded value comes from after one thread has loaded or stored. -/
theorem loaded_update {i j : ι} {x : Option Nat} {v : Nat}
    (h : Function.update s.loaded i x j = some v) :
    j = i ∧ x = some v ∨ j ≠ i ∧ s.loaded j = some v := by
  rw [Function.update_apply] at h
  by_cases same : j = i
  · rw [if_pos same] at h
    exact Or.inl ⟨same, h⟩
  · rw [if_neg same] at h
    exact Or.inr ⟨same, h⟩

theorem update_other {i j : ι} (other : j ≠ i) (x : Option Nat) :
    Function.update s.loaded i x j = s.loaded j := by
  rw [Function.update_apply, if_neg other]

theorem step_bounded (h : Bounded s) (moved : step s a = some t) : Bounded t := by
  cases a with
  | load i =>
    obtain ⟨_, rfl⟩ := step_load moved
    refine ⟨h.value, fun j v at_ => ?_⟩
    rcases loaded_update at_ with ⟨_, new⟩ | ⟨_, old⟩
    · exact Option.some.inj new ▸ h.value
    · exact h.loaded j v old
  | store i amount =>
    obtain ⟨v, loaded, rfl⟩ := step_store moved
    refine ⟨Nat.add_le_add_right (h.loaded i v loaded) amount, fun j w at_ => ?_⟩
    rcases loaded_update at_ with ⟨_, new⟩ | ⟨_, old⟩
    · cases new
    · exact Nat.le_trans (h.loaded j w old) (Nat.le_add_right _ _)

theorem step_level (h : Level s) (alone : Alone s a) (moved : step s a = some t) : Level t := by
  cases a with
  | load i =>
    obtain ⟨_, rfl⟩ := step_load moved
    have only {j : ι} {v : Nat} (at_ : Function.update s.loaded i (some s.value) j = some v) :
        j = i ∧ v = s.value := by
      rcases loaded_update at_ with ⟨here, new⟩ | ⟨_, old⟩
      · exact ⟨here, (Option.some.inj new).symm⟩
      · rw [alone j] at old
        cases old
    refine ⟨h.value, fun j v at_ => (only at_).2.trans h.value, fun j k v w at_ at' => ?_⟩
    exact (only at_).1.trans (only at').1.symm
  | store i amount =>
    obtain ⟨v, loaded, rfl⟩ := step_store moved
    have none_left {j : ι} {w : Nat} (at_ : Function.update s.loaded i none j = some w) :
        False := by
      rcases loaded_update at_ with ⟨_, new⟩ | ⟨other, old⟩
      · cases new
      · exact other (h.few j i w v old loaded)
    refine ⟨congrArg (· + amount) (h.loaded i v loaded), ?_, ?_⟩
    · exact fun j w at_ => (none_left at_).elim
    · exact fun j k w x at_ _ => (none_left at_).elim

/-- A load among other threads about to store leaves two of them. -/
theorem load_behind {i : ι} (busy : ¬ Idle s) (moved : step s (.load i) = some t) :
    Behind t := by
  obtain ⟨idle, rfl⟩ := step_load moved
  obtain ⟨j, loads⟩ := not_forall.mp busy
  obtain ⟨v, loaded⟩ := Option.ne_none_iff_exists'.mp loads
  have other : j ≠ i := by
    rintro rfl
    exact loads idle
  exact Or.inr (Or.inr ⟨i, j, s.value, v, other.symm, Function.update_self i _ _,
    (update_other other _).trans loaded⟩)

theorem step_behind (bounded : Bounded s) (h : Behind s) (positive : Positive a)
    (moved : step s a = some t) : Behind t := by
  cases a with
  | load i =>
    obtain ⟨idle, rfl⟩ := step_load moved
    have keeps {j : ι} {v : Nat} (at_ : s.loaded j = some v) :
        Function.update s.loaded i (some s.value) j = some v := by
      rw [update_other fun here => by rw [here, idle] at at_; cases at_]
      exact at_
    rcases h with ⟨low, later⟩ | ⟨j, v, at_, low⟩ | ⟨j, k, v, w, apart, at_, at'⟩
    · refine Or.inl ⟨low, fun j v at_ => ?_⟩
      rcases loaded_update at_ with ⟨_, new⟩ | ⟨_, old⟩
      · exact Option.some.inj new ▸ low
      · exact later j v old
    · exact Or.inr (Or.inl ⟨j, v, keeps at_, low⟩)
    · exact Or.inr (Or.inr ⟨j, k, v, w, apart, keeps at_, keeps at'⟩)
  | store i amount =>
    obtain ⟨u, loaded, rfl⟩ := step_store moved
    have grows : s.total < s.total + amount := Nat.lt_add_of_pos_right positive
    -- a thread that is still about to store does not know of this store
    have stale {j : ι} {v : Nat} (other : j ≠ i) (at_ : s.loaded j = some v) :
        ∃ j v, Function.update s.loaded i none j = some v ∧ v < s.total + amount :=
      ⟨j, v, (update_other other none).trans at_,
        Nat.lt_of_le_of_lt (bounded.loaded j v at_) grows⟩
    have lost (low : u < s.total) :
        u + amount < s.total + amount ∧ ∀ j v, Function.update s.loaded i none j = some v →
          v < s.total + amount := by
      refine ⟨Nat.add_lt_add_right low amount, fun j v at_ => ?_⟩
      rcases loaded_update at_ with ⟨_, new⟩ | ⟨_, old⟩
      · cases new
      · exact Nat.lt_of_le_of_lt (bounded.loaded j v old) grows
    rcases h with ⟨_, later⟩ | ⟨j, v, at_, low⟩ | ⟨j, k, v, w, apart, at_, at'⟩
    · exact Or.inl (lost (later i u loaded))
    · by_cases here : j = i
      · subst here
        obtain rfl : u = v := Option.some.inj (loaded.symm.trans at_)
        exact Or.inl (lost low)
      · exact Or.inr (Or.inl (stale here at_))
    · by_cases here : j = i
      · exact Or.inr (Or.inl (stale (fun there => apart (here.trans there.symm)) at'))
      · exact Or.inr (Or.inl (stale here at_))

end Step

omit [DecidableEq ι] in
theorem start_level : Level (start : Counter ι) := by
  refine ⟨rfl, fun i v at_ => ?_, fun i j v w at_ _ => ?_⟩
  · cases at_
  · cases at_

omit [DecidableEq ι] in
theorem Level.bounded {s : Counter ι} (h : Level s) : Bounded s :=
  ⟨Nat.le_of_eq h.value, fun i v at_ => Nat.le_of_eq (h.loaded i v at_)⟩

theorem run_bounded {s t : Counter ι} {accesses : List (Access ι)} (h : Bounded s)
    (ran : Execution.run step s accesses = some t) : Bounded t :=
  Execution.run_invariant Bounded (fun _ _ _ => step_bounded) h ran

theorem run_level {s t : Counter ι} {accesses : List (Access ι)} (h : Level s)
    (alone : Execution.Meets step Alone s accesses)
    (ran : Execution.run step s accesses = some t) : Level t :=
  Execution.run_guarded_invariant Level (fun _ _ _ => step_level) h alone ran

theorem run_behind {s t : Counter ι} {accesses : List (Access ι)} (bounded : Bounded s)
    (h : Behind s) (positive : ∀ a ∈ accesses, Positive a)
    (ran : Execution.run step s accesses = some t) : Behind t := by
  refine (Execution.run_guarded_invariant (fun s => Bounded s ∧ Behind s) ?_ ⟨bounded, h⟩
    (Execution.meets_of_forall positive s) ran).2
  rintro s a t ⟨bounded, behind⟩ positive moved
  exact ⟨step_bounded bounded moved, step_behind bounded behind positive moved⟩

/-- With every amount positive, the counter ends level with them exactly when
each load was alone. -/
theorem level_iff_alone {s t : Counter ι} {accesses : List (Access ι)} (h : Level s)
    (positive : ∀ a ∈ accesses, Positive a) (ran : Execution.run step s accesses = some t)
    (idle : Idle t) : t.value = t.total ↔ Execution.Meets step Alone s accesses := by
  constructor
  · intro level
    induction accesses generalizing s with
    | nil => exact trivial
    | cons a rest ih =>
      obtain ⟨r, moved, later⟩ := Execution.run_cons_some ran
      have positive' : ∀ b ∈ rest, Positive b := fun b hb => positive b (List.mem_cons_of_mem a hb)
      have alone : Alone s a := by
        by_contra crowded
        cases a with
        | store i amount => exact crowded trivial
        | load i =>
          have behind := run_behind (step_bounded h.bounded moved) (load_behind crowded moved)
            positive' later
          rcases behind with ⟨low, _⟩ | ⟨j, v, at_, _⟩ | ⟨j, _, v, _, _, at_, _⟩
          · omega
          · rw [idle j] at at_
            cases at_
          · rw [idle j] at at_
            cases at_
      refine ⟨alone, fun r' moved' => ?_⟩
      obtain rfl : r = r' := Option.some.inj (moved.symm.trans moved')
      exact ih (step_level h alone moved) positive' later
  · exact fun alone => (run_level h alone ran).value

end RacyCounter
