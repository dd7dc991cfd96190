import Kvnet.Execution
import Kvnet.Pool

/-!
# Lock sections

Threads run programs on a shared state one access at a time, each between the
acquisition and the release of one lock; the state also changes in ways that the
programs do not notice. However the accesses interleave, the state is what the
programs make of it one after another in the order of their releases, and each
returns what it returns there.
-/

namespace LockSection

universe u

/-- A leaf holds the result; a node is one access, which changes the state and
goes on with what it found there. -/
inductive Prog (σ : Type) (ρ : Type u) : Type u where
  | ret (r : ρ)
  | access (change : σ → σ) (next : σ → Prog σ ρ)

namespace Prog

variable {σ : Type} {ρ ρ' : Type u}

def bind : Prog σ ρ → (ρ → Prog σ ρ') → Prog σ ρ'
  | ret r, f => f r
  | access change next, f => access change fun s => (next s).bind f

instance : Monad (Prog σ) where
  pure := ret
  bind := bind

def load (read : σ → ρ) : Prog σ ρ := access id fun s => ret (read s)

def store (change : σ → σ) : Prog σ PUnit := access change fun _ => ret ⟨⟩

/-- The program without interruption: its result and the state after it. -/
def exec : Prog σ ρ → σ → ρ × σ
  | ret r, s => (r, s)
  | access change next, s => (next s).exec (change s)

/-- The program does not notice the change, whenever it happens. -/
def Unaffected (change : σ → σ) : Prog σ ρ → Prop
  | ret _ => True
  | access own next =>
    (∀ s, own (change s) = change (own s)) ∧ (∀ s, next (change s) = next s) ∧
      ∀ s, (next s).Unaffected change

@[simp] theorem exec_pure (r : ρ) (s : σ) : (pure r : Prog σ ρ).exec s = (r, s) := rfl

@[simp] theorem exec_load (read : σ → ρ) (s : σ) : (load read).exec s = (read s, s) := rfl

@[simp] theorem exec_store (change : σ → σ) (s : σ) :
    (store change : Prog σ PUnit.{u + 1}).exec s = (⟨⟩, change s) := rfl

@[simp] theorem exec_bind (p : Prog σ ρ) (f : ρ → Prog σ ρ') (s : σ) :
    (p >>= f).exec s = (f (p.exec s).1).exec (p.exec s).2 := by
  induction p generalizing s with
  | ret r => rfl
  | access change next ih => exact ih s (change s)

@[simp] theorem exec_ite {c : Prop} [Decidable c] (p q : Prog σ ρ) (s : σ) :
    (if c then p else q).exec s = if c then p.exec s else q.exec s := by
  split
  · rfl
  · rfl

theorem unaffected_pure (change : σ → σ) (r : ρ) : (pure r : Prog σ ρ).Unaffected change :=
  trivial

theorem unaffected_load {change : σ → σ} {read : σ → ρ} (same : ∀ s, read (change s) = read s) :
    (load read).Unaffected change :=
  ⟨fun _ => rfl, fun s => congrArg ret (same s), fun _ => trivial⟩

theorem unaffected_store {change own : σ → σ} (commutes : ∀ s, own (change s) = change (own s)) :
    (store own : Prog σ PUnit.{u + 1}).Unaffected change :=
  ⟨commutes, fun _ => rfl, fun _ => trivial⟩

theorem unaffected_bind {change : σ → σ} {p : Prog σ ρ} {f : ρ → Prog σ ρ'}
    (first : p.Unaffected change) (rest : ∀ r, (f r).Unaffected change) :
    (p >>= f).Unaffected change := by
  induction p with
  | ret r => exact rest r
  | access own next ih =>
    obtain ⟨commutes, same, later⟩ := first
    exact ⟨commutes, fun s => congrArg (bind · f) (same s), fun s => ih s (later s)⟩

theorem unaffected_ite {change : σ → σ} {c : Prop} [Decidable c] {p q : Prog σ ρ}
    (yes : p.Unaffected change) (no : q.Unaffected change) :
    (if c then p else q).Unaffected change := by
  split
  · exact yes
  · exact no

theorem exec_unaffected {change : σ → σ} {p : Prog σ ρ} (h : p.Unaffected change) (s : σ) :
    p.exec (change s) = ((p.exec s).1, change (p.exec s).2) := by
  induction p generalizing s with
  | ret r => rfl
  | access own next ih =>
    obtain ⟨commutes, same, later⟩ := h
    rw [exec, exec, commutes, same]
    exact ih s (later s) (own s)

end Prog

inductive Thread (κ σ : Type) (ρ : Type u) : Type u where
  | waiting (call : κ)
  | inside (call : κ) (rest : Prog σ ρ)

/-- A section that was released with its result, or a change made elsewhere. -/
inductive Entry (κ ε : Type) (ρ : Type u) : Type u where
  | done (call : κ) (r : ρ)
  | outside (e : ε)
  deriving DecidableEq

/-- The section an entry completes, with its result. -/
def Entry.completed {κ ε : Type} {ρ : Type u} : Entry κ ε ρ → Option (κ × ρ)
  | .done c r => some (c, r)
  | .outside _ => none

structure Shared (κ ε σ : Type) (ρ : Type u) : Type u where
  state : σ
  locked : Bool
  threads : List (Thread κ σ ρ)
  history : List (Entry κ ε ρ)

inductive Action (κ ε : Type) where
  | call (c : κ)
  | acquire (k : Nat)
  | access (k : Nat)
  | release (k : Nat)
  | outside (e : ε)

variable {κ ε σ : Type} {ρ : Type u}

/-- Nobody has come yet. -/
def Shared.fresh (s : σ) : Shared κ ε σ ρ := ⟨s, false, [], []⟩

/-- What a thread in its section has still to do. -/
def Thread.running : Thread κ σ ρ → Option (κ × Prog σ ρ)
  | .waiting _ => none
  | .inside c rest => some (c, rest)

def Shared.inside (s : Shared κ ε σ ρ) : List (κ × Prog σ ρ) := s.threads.filterMap Thread.running

/-- The sections released so far, in order. -/
def Shared.completed (s : Shared κ ε σ ρ) : List (κ × ρ) := s.history.filterMap Entry.completed

/-- One access of one thread, or one move of the lock. -/
def step (body : κ → Prog σ ρ) (change : ε → σ → σ) (s : Shared κ ε σ ρ) :
    Action κ ε → Option (Shared κ ε σ ρ)
  | .call c => some { s with threads := s.threads ++ [.waiting c] }
  | .acquire k =>
    match s.threads[k]? with
    | some (.waiting c) =>
      if s.locked then none
      else some { s with locked := true, threads := s.threads.set k (.inside c (body c)) }
    | _ => none
  | .access k =>
    match s.threads[k]? with
    | some (.inside c (.access own next)) =>
      some { s with
        state := own s.state, threads := s.threads.set k (.inside c (next s.state)) }
    | _ => none
  | .release k =>
    match s.threads[k]? with
    | some (.inside c (.ret r)) =>
      some { s with
        locked := false, threads := s.threads.eraseIdx k, history := s.history ++ [.done c r] }
    | _ => none
  | .outside e =>
    some { s with state := change e s.state, history := s.history ++ [.outside e] }

/-- One entry of a history at once; none if the section returns something else. -/
def serialStep [DecidableEq ρ] (body : κ → σ → ρ × σ) (change : ε → σ → σ) (s : σ) :
    Entry κ ε ρ → Option σ
  | .done c r => if (body c s).1 = r then some (body c s).2 else none
  | .outside e => some (change e s)

/-- Replacing a thread, or taking it out, in terms of who is inside. -/
theorem running_split {threads : List (Thread κ σ ρ)} {k : Nat} {p : Thread κ σ ρ}
    (found : threads[k]? = some p) : ∃ before after : List (κ × Prog σ ρ),
      threads.filterMap Thread.running = before ++ p.running.toList ++ after ∧
      (∀ q, (threads.set k q).filterMap Thread.running = before ++ q.running.toList ++ after) ∧
      (threads.eraseIdx k).filterMap Thread.running = before ++ after := by
  have cell (q : Thread κ σ ρ) (rest : List (Thread κ σ ρ)) :
      (q :: rest).filterMap Thread.running =
        q.running.toList ++ rest.filterMap Thread.running := by
    cases h : q.running with
    | none => rw [List.filterMap_cons_none h]; rfl
    | some x => rw [List.filterMap_cons_some h]; rfl
  obtain ⟨before, after, hpool, hset, herase⟩ := Pool.split_at found
  refine ⟨before.filterMap Thread.running, after.filterMap Thread.running, ?_, fun q => ?_, ?_⟩
  · rw [hpool, List.filterMap_append, cell, List.append_assoc]
  · rw [hset q, List.filterMap_append, cell, List.append_assoc]
  · rw [herase, List.filterMap_append]

/-- The one thread inside is the only one. -/
theorem only_inside {before after : List (κ × Prog σ ρ)} {x y : κ × Prog σ ρ}
    (one : before ++ [x] ++ after = [y]) : before = [] ∧ after = [] ∧ x = y := by
  cases before with
  | nil =>
    obtain ⟨same, rest⟩ := List.cons.inj one
    exact ⟨rfl, rest, same⟩
  | cons z before =>
    have lengths := congrArg List.length one
    simp only [List.length_append, List.length_cons, List.length_nil] at lengths
    omega

section Serial

variable [DecidableEq ρ] {body : κ → Prog σ ρ} {change : ε → σ → σ}

/-- The history leads from the first state to `before`: the shared state, or what
the one thread inside found when it acquired the lock, as if the changes made
since had been made before. -/
structure Serial (body : κ → Prog σ ρ) (change : ε → σ → σ) (first : σ) (s : Shared κ ε σ ρ)
    (before : σ) : Prop where
  replays : Execution.run (serialStep (fun c => (body c).exec) change) first s.history = some before
  free : s.locked = false → s.inside = [] ∧ s.state = before
  held : s.locked = true → ∃ c rest, s.inside = [(c, rest)] ∧
    rest.exec s.state = (body c).exec before ∧ ∀ e, rest.Unaffected (change e)

theorem fresh_serial (first : σ) : Serial body change first (Shared.fresh first) first :=
  ⟨rfl, fun _ => ⟨rfl, rfl⟩, fun locked => by cases locked⟩

theorem replays_snoc {first before after : σ} {history : List (Entry κ ε ρ)} {entry : Entry κ ε ρ}
    {call : κ → σ → ρ × σ}
    (h : Execution.run (serialStep call change) first history = some before)
    (next : serialStep call change before entry = some after) :
    Execution.run (serialStep call change) first (history ++ [entry]) = some after := by
  rw [Execution.run_append, h, Option.bind_some, Execution.run_cons next, Execution.run_nil]

section Step

variable {first before : σ} {s t : Shared κ ε σ ρ} {k : Nat}

theorem call_serial (h : Serial body change first s before) (c : κ) :
    Serial body change first { s with threads := s.threads ++ [.waiting c] } before := by
  have same : ({ s with threads := s.threads ++ [.waiting c] } : Shared κ ε σ ρ).inside =
      s.inside := by
    rw [Shared.inside, List.filterMap_append]
    exact List.append_nil _
  refine ⟨h.replays, fun unlocked => ?_, fun locked => ?_⟩
  · rw [same]
    exact h.free unlocked
  · rw [same]
    exact h.held locked

theorem acquire_serial (untouched : ∀ e c, (body c).Unaffected (change e))
    (h : Serial body change first s before) (moved : step body change s (.acquire k) = some t) :
    Serial body change first t before := by
  rcases found : s.threads[k]? with _ | c | ⟨c, rest⟩
  · simp only [step, found, reduceCtorEq] at moved
  · cases locked : s.locked with
    | true => simp only [step, found, locked, if_true, reduceCtorEq] at moved
    | false =>
      simp only [step, found, locked, Bool.false_eq_true, if_false, Option.some.injEq] at moved
      obtain ⟨nobody, same⟩ := h.free locked
      obtain ⟨left, right, whole, replaced, _⟩ := running_split found
      have empty : left ++ right = [] := by
        rw [Shared.inside, whole] at nobody
        simpa [Thread.running] using nobody
      obtain ⟨rfl, rfl⟩ := List.append_eq_nil_iff.mp empty
      subst moved
      refine ⟨h.replays, fun unlocked => ?_, fun _ => ?_⟩
      · cases unlocked
      · refine ⟨c, body c, replaced _, ?_, fun e => untouched e c⟩
        rw [same]
  · simp only [step, found, reduceCtorEq] at moved

theorem access_serial (h : Serial body change first s before)
    (moved : step body change s (.access k) = some t) : Serial body change first t before := by
  rcases found : s.threads[k]? with _ | c | ⟨c, r | ⟨own, next⟩⟩
  · simp only [step, found, reduceCtorEq] at moved
  · simp only [step, found, reduceCtorEq] at moved
  · simp only [step, found, reduceCtorEq] at moved
  · simp only [step, found, Option.some.injEq] at moved
    obtain ⟨left, right, whole, replaced, _⟩ := running_split found
    subst moved
    refine ⟨h.replays, fun unlocked => ?_, fun locked => ?_⟩
    · obtain ⟨nobody, _⟩ := h.free unlocked
      rw [Shared.inside, whole] at nobody
      simp [Thread.running] at nobody
    · obtain ⟨c', rest, one, ends, apart⟩ := h.held locked
      rw [Shared.inside, whole] at one
      obtain ⟨rfl, rfl, same⟩ := only_inside one
      obtain ⟨rfl, rfl⟩ := Prod.mk.inj same
      refine ⟨c, next s.state, replaced _, ends, fun e => ?_⟩
      exact (apart e).2.2 s.state

theorem release_serial (h : Serial body change first s before)
    (moved : step body change s (.release k) = some t) :
    ∃ after, Serial body change first t after := by
  rcases found : s.threads[k]? with _ | c | ⟨c, r | ⟨own, next⟩⟩
  · simp only [step, found, reduceCtorEq] at moved
  · simp only [step, found, reduceCtorEq] at moved
  · simp only [step, found, Option.some.injEq] at moved
    obtain ⟨left, right, whole, _, erased⟩ := running_split found
    cases locked : s.locked with
    | false =>
      obtain ⟨nobody, _⟩ := h.free locked
      rw [Shared.inside, whole] at nobody
      simp [Thread.running] at nobody
    | true =>
      obtain ⟨c', rest, one, ends, _⟩ := h.held locked
      rw [Shared.inside, whole] at one
      obtain ⟨rfl, rfl, same⟩ := only_inside one
      obtain ⟨rfl, rfl⟩ := Prod.mk.inj same
      have last : serialStep (fun c => (body c).exec) change before (.done c r : Entry κ ε ρ) =
          some s.state := by
        simp only [serialStep, ← ends]
        exact if_pos rfl
      subst moved
      refine ⟨s.state, replays_snoc h.replays last, fun _ => ⟨erased, rfl⟩, fun locked => ?_⟩
      cases locked
  · simp only [step, found, reduceCtorEq] at moved

/-- A change made while a thread is inside counts as made before its section. -/
theorem outside_serial (untouched : ∀ e c, (body c).Unaffected (change e))
    (h : Serial body change first s before) (e : ε) :
    Serial body change first
      { s with state := change e s.state, history := s.history ++ [.outside e] }
      (change e before) := by
  refine ⟨replays_snoc h.replays rfl, fun unlocked => ?_, fun locked => ?_⟩
  · obtain ⟨nobody, same⟩ := h.free unlocked
    exact ⟨nobody, congrArg (change e) same⟩
  · obtain ⟨c, rest, one, ends, apart⟩ := h.held locked
    refine ⟨c, rest, one, ?_, apart⟩
    rw [Prog.exec_unaffected (apart e), Prog.exec_unaffected (untouched e c), ends]

end Step

theorem step_serial (untouched : ∀ e c, (body c).Unaffected (change e)) {first : σ}
    {s t : Shared κ ε σ ρ} {a : Action κ ε} (moved : step body change s a = some t)
    (h : ∃ before, Serial body change first s before) :
    ∃ before, Serial body change first t before := by
  obtain ⟨before, h⟩ := h
  cases a with
  | call c =>
    obtain rfl := Option.some.inj moved
    exact ⟨before, call_serial h c⟩
  | acquire k => exact ⟨before, acquire_serial untouched h moved⟩
  | access k => exact ⟨before, access_serial h moved⟩
  | release k => exact release_serial h moved
  | outside e =>
    obtain rfl := Option.some.inj moved
    exact ⟨change e before, outside_serial untouched h e⟩

/-- Every interleaving of single accesses is the sections one after another. -/
theorem run_serial (untouched : ∀ e c, (body c).Unaffected (change e)) {first : σ}
    {s : Shared κ ε σ ρ} {actions : List (Action κ ε)}
    (h : Execution.run (step body change) (Shared.fresh first) actions = some s) :
    ∃ before, Serial body change first s before :=
  Execution.run_invariant (fun s => ∃ before, Serial body change first s before)
    (fun _ _ _ inv moved => step_serial untouched moved inv) ⟨first, fresh_serial first⟩ h

/-- A thread that is there can go on: the lock is never left behind. -/
theorem serial_progress {first before : σ} {s : Shared κ ε σ ρ}
    (h : Serial body change first s before) (busy : s.threads ≠ []) :
    ∃ k a, (a = .acquire k ∨ a = .access k ∨ a = .release k) ∧
      (step body change s a).isSome = true := by
  cases locked : s.locked with
  | false =>
    obtain ⟨nobody, _⟩ := h.free locked
    obtain ⟨p, rest, hthreads⟩ := List.exists_cons_of_ne_nil busy
    have found : s.threads[0]? = some p := by rw [hthreads]; rfl
    cases p with
    | waiting c =>
      refine ⟨0, .acquire 0, Or.inl rfl, ?_⟩
      simp only [step, found, locked, Bool.false_eq_true, if_false, Option.isSome_some]
    | inside c rest =>
      rw [Shared.inside, hthreads] at nobody
      simp [Thread.running] at nobody
  | true =>
    obtain ⟨c, rest, one, _, _⟩ := h.held locked
    have somebody : (c, rest) ∈ s.inside := by rw [one]; exact List.mem_singleton.mpr rfl
    obtain ⟨p, hp, runs⟩ := List.mem_filterMap.mp somebody
    obtain ⟨k, found⟩ := List.getElem?_of_mem hp
    cases p with
    | waiting c' => cases runs
    | inside c' rest' =>
      cases rest' with
      | ret r =>
        refine ⟨k, .release k, Or.inr (Or.inr rfl), ?_⟩
        simp only [step, found, Option.isSome_some]
      | access own next =>
        refine ⟨k, .access k, Or.inr (Or.inl rfl), ?_⟩
        simp only [step, found, Option.isSome_some]

end Serial

end LockSection
