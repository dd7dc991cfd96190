import Kvnet.Execution
import Kvnet.Pool
import Mathlib.Data.List.Nodup

/-!
# Resources held by programs

A program acquires resources one at a time, which can fail, and releases them or
gives them away. Owning is a property of the program alone: whatever it is given,
it lets go only of what it holds, and at its end holds what it should. Programs
that own run side by side without ever letting go of each other's resources.
-/

namespace Holding

universe u

variable {X : Type} [DecidableEq X] {ρ ρ' : Type u}

inductive Prog (X : Type) (ρ : Type u) : Type u where
  | ret (r : ρ)
  | acquire (next : Option X → Prog X ρ)
  | release (x : X) (next : Prog X ρ)
  | give (x : X) (next : Prog X ρ)

namespace Prog

def bind : Prog X ρ → (ρ → Prog X ρ') → Prog X ρ'
  | ret r, f => f r
  | acquire next, f => acquire fun x => (next x).bind f
  | release x next, f => release x (next.bind f)
  | give x next, f => give x (next.bind f)

/-- Started with what it holds, the program lets go of nothing else, and ends as
`post` says of its result and what it then holds. -/
def Owns (post : ρ → List X → Prop) : Prog X ρ → List X → Prop
  | ret r, held => post r held
  | acquire next, held =>
    (next none).Owns post held ∧ ∀ x, x ∉ held → (next (some x)).Owns post (x :: held)
  | release x next, held => x ∈ held ∧ next.Owns post (held.erase x)
  | give x next, held => x ∈ held ∧ next.Owns post (held.erase x)

/-- The result of a program that is through. -/
def result : Prog X ρ → Option ρ
  | ret r => some r
  | _ => none

/-- The program alone, its n-th acquisition answered by `answers n`. -/
def exec (answers : Nat → Option X) : Nat → Prog X ρ → ρ
  | _, ret r => r
  | n, acquire next => (next (answers n)).exec answers (n + 1)
  | n, release _ next => next.exec answers n
  | n, give _ next => next.exec answers n

/-- What it then releases, in order. -/
def released (answers : Nat → Option X) : Nat → Prog X ρ → List X
  | _, ret _ => []
  | n, acquire next => (next (answers n)).released answers (n + 1)
  | n, release x next => x :: next.released answers n
  | n, give _ next => next.released answers n

omit [DecidableEq X] in
/-- A program followed by one that only computes a result. -/
theorem exec_bind_ret (answers : Nat → Option X) (n : Nat) (p : Prog X ρ) (f : ρ → Prog X ρ')
    (g : ρ → ρ') (ends : ∀ r n, (f r).exec answers n = g r) :
    (p.bind f).exec answers n = g (p.exec answers n) := by
  induction p generalizing n with
  | ret r => exact ends r n
  | acquire next ih => exact ih (answers n) (n + 1)
  | release x next ih => exact ih n
  | give x next ih => exact ih n

theorem owns_bind {mid : ρ → List X → Prop} {post : ρ' → List X → Prop} {p : Prog X ρ}
    {f : ρ → Prog X ρ'} {held : List X} (first : p.Owns mid held)
    (rest : ∀ r held', mid r held' → (f r).Owns post held') : (p.bind f).Owns post held := by
  induction p generalizing held with
  | ret r => exact rest r held first
  | acquire next ih =>
    exact ⟨ih none first.1, fun x fresh => ih (some x) (first.2 x fresh)⟩
  | release x next ih => exact ⟨first.1, ih first.2⟩
  | give x next ih => exact ⟨first.1, ih first.2⟩

theorem owns_mono {post post' : ρ → List X → Prop} {p : Prog X ρ} {held : List X}
    (owns : p.Owns post held) (weaker : ∀ r held', post r held' → post' r held') :
    p.Owns post' held := by
  induction p generalizing held with
  | ret r => exact weaker r held owns
  | acquire next ih =>
    exact ⟨ih none owns.1, fun x fresh => ih (some x) (owns.2 x fresh)⟩
  | release x next ih => exact ⟨owns.1, ih owns.2⟩
  | give x next ih => exact ⟨owns.1, ih owns.2⟩

/-- What the program does not know of it keeps. -/
theorem owns_frame {post : ρ → List X → Prop} {p : Prog X ρ} {held : List X} (x : X)
    (owns : p.Owns post held) (fresh : x ∉ held) :
    p.Owns (fun r held' => ∃ rest, held' = rest ++ [x] ∧ post r rest) (held ++ [x]) := by
  induction p generalizing held with
  | ret r => exact ⟨held, rfl, owns⟩
  | acquire next ih =>
    refine ⟨ih none owns.1 fresh, fun y new => ?_⟩
    rw [List.mem_append, not_or, List.mem_singleton] at new
    refine ih (some y) (owns.2 y new.1) fun among => ?_
    rcases List.mem_cons.mp among with same | old
    · exact new.2 same.symm
    · exact fresh old
  | release y next ih =>
    refine ⟨List.mem_append_left _ owns.1, ?_⟩
    rw [List.erase_append_left _ owns.1]
    exact ih owns.2 fun among => fresh (List.mem_of_mem_erase among)
  | give y next ih =>
    refine ⟨List.mem_append_left _ owns.1, ?_⟩
    rw [List.erase_append_left _ owns.1]
    exact ih owns.2 fun among => fresh (List.mem_of_mem_erase among)

end Prog

structure Thread (X : Type) (ρ : Type u) where
  prog : Prog X ρ
  held : List X

/-- `live` is what has been acquired and not released, `given` what somebody else
has been given. -/
structure Sys (X : Type) (ρ : Type u) where
  live : List X
  given : List X
  threads : List (Thread X ρ)

inductive Action (X : Type) (ρ : Type u) where
  | enter (p : Prog X ρ)
  | next (k : Nat) (answer : Option X)
  | dispose (x : X)

namespace Sys

/-- The thread's next operation. No live resource is handed out again. -/
def next (s : Sys X ρ) (k : Nat) (answer : Option X) (th : Thread X ρ) : Option (Sys X ρ) :=
  match th.prog with
  | .ret _ => none
  | .acquire next =>
    match answer with
    | none => some { s with threads := s.threads.set k ⟨next none, th.held⟩ }
    | some x =>
      if x ∉ s.live then
        some { s with
          live := x :: s.live, threads := s.threads.set k ⟨next (some x), x :: th.held⟩ }
      else none
  | .release x next =>
    some { s with
      live := s.live.erase x, threads := s.threads.set k ⟨next, th.held.erase x⟩ }
  | .give x next =>
    some { s with given := x :: s.given, threads := s.threads.set k ⟨next, th.held.erase x⟩ }

def step (s : Sys X ρ) : Action X ρ → Option (Sys X ρ)
  | .enter p => some { s with threads := s.threads ++ [⟨p, []⟩] }
  | .next k answer => s.threads[k]?.bind (s.next k answer)
  | .dispose x =>
    if x ∈ s.given then some { s with live := s.live.erase x, given := s.given.erase x } else none

def empty : Sys X ρ := ⟨[], [], []⟩

/-- Only programs that own enter. -/
def Admits (post : ρ → List X → Prop) : Action X ρ → Prop
  | .enter p => p.Owns post []
  | _ => True

/-- A thread lets go of what it holds itself, what is live, and nobody else has. -/
def Legal (s : Sys X ρ) : Action X ρ → Prop
  | .next k _ => ∀ th x rest, s.threads[k]? = some th →
    th.prog = .release x rest ∨ th.prog = .give x rest →
    x ∈ th.held ∧ x ∈ s.live ∧ x ∉ s.given ∧
      ∀ j other, s.threads[j]? = some other → x ∈ other.held → j = k
  | _ => True

def heldBy (threads : List (Thread X ρ)) : List X := threads.flatMap Thread.held

/-- Each live resource is held by one thread once, or was given away. -/
structure Balanced (post : ρ → List X → Prop) (s : Sys X ρ) : Prop where
  owns : ∀ th ∈ s.threads, th.prog.Owns post th.held
  once : ∀ x, (heldBy s.threads).count x + s.given.count x = s.live.count x
  live : s.live.Nodup

section Step

variable {post : ρ → List X → Prop} {s t : Sys X ρ} {k : Nat} {th : Thread X ρ}

theorem count_heldBy_set {threads : List (Thread X ρ)} (at_ : threads[k]? = some th)
    (th' : Thread X ρ) (x : X) :
    (heldBy (threads.set k th')).count x + th.held.count x =
      (heldBy threads).count x + th'.held.count x := by
  obtain ⟨before, after, split, set, _⟩ := Pool.split_at at_
  rw [set, split]
  simp only [heldBy, List.flatMap_append, List.flatMap_cons, List.count_append]
  omega

/-- What a thread holds is live, is not given away, and no other thread holds it. -/
theorem Balanced.exclusive (h : Balanced post s) (at_ : s.threads[k]? = some th) {x : X}
    (holds : x ∈ th.held) : x ∈ s.live ∧ x ∉ s.given ∧
      ∀ j other, s.threads[j]? = some other → x ∈ other.held → j = k := by
  have own : 0 < th.held.count x := List.count_pos_iff.mpr holds
  have once := h.once x
  have few := List.nodup_iff_count_le_one.mp h.live x
  -- a thread that held nothing in its place would leave the count of the others
  have rest := count_heldBy_set at_ ⟨th.prog, []⟩ x
  rw [List.count_nil] at rest
  refine ⟨List.count_pos_iff.mp (by omega), fun given => ?_, fun j other there among => ?_⟩
  · have := List.count_pos_iff.mpr given
    omega
  · by_contra apart
    have set_there : (s.threads.set k ⟨th.prog, []⟩)[j]? = some other := by
      rw [List.getElem?_set_ne (Ne.symm apart)]
      exact there
    have still : x ∈ heldBy (s.threads.set k ⟨th.prog, []⟩) :=
      List.mem_flatMap.mpr ⟨other, List.mem_of_getElem? set_there, among⟩
    have := List.count_pos_iff.mpr still
    omega

theorem step_legal (h : Balanced post s) {a : Action X ρ} : Legal s a := by
  cases a with
  | next k answer =>
    intro th x rest at_ lets_go
    have owns := h.owns th (List.mem_of_getElem? at_)
    have holds : x ∈ th.held := by
      rcases lets_go with released | given
      · rw [released] at owns
        exact owns.1
      · rw [given] at owns
        exact owns.1
    exact ⟨holds, h.exclusive at_ holds⟩
  | enter p => exact trivial
  | dispose x => exact trivial

theorem count_erase_add {x : X} {xs : List X} (among : x ∈ xs) (y : X) :
    (xs.erase x).count y + [x].count y = xs.count y := by
  have same := (List.perm_cons_erase among).count_eq y
  rw [List.count_cons] at same
  rw [List.count_cons, List.count_nil]
  omega

theorem next_balanced (h : Balanced post s) (at_ : s.threads[k]? = some th) {answer : Option X}
    (moved : s.next k answer th = some t) : Balanced post t := by
  have owns := h.owns th (List.mem_of_getElem? at_)
  unfold next at moved
  cases now : th.prog with
  | ret r =>
    simp only [now] at moved
    cases moved
  | acquire next =>
    rw [now] at owns
    cases answer with
    | none =>
      simp only [now, Option.some.injEq] at moved
      subst moved
      refine ⟨Pool.forall_set h.owns owns.1, fun x => ?_, h.live⟩
      have count := count_heldBy_set at_ ⟨next none, th.held⟩ x
      have once := h.once x
      simp only at count ⊢
      omega
    | some x =>
      simp only [now, Option.ite_none_right_eq_some, Option.some.injEq] at moved
      obtain ⟨fresh, rfl⟩ := moved
      have unheld : x ∉ th.held := fun among => fresh (h.exclusive at_ among).1
      refine ⟨Pool.forall_set h.owns (owns.2 x unheld), fun y => ?_,
        List.nodup_cons.mpr ⟨fresh, h.live⟩⟩
      have count := count_heldBy_set at_ ⟨next (some x), x :: th.held⟩ y
      have once := h.once y
      simp only [List.count_cons] at count ⊢
      omega
  | release x next =>
    rw [now] at owns
    simp only [now, Option.some.injEq] at moved
    subst moved
    have live := (h.exclusive at_ owns.1).1
    refine ⟨Pool.forall_set h.owns owns.2, fun y => ?_, h.live.erase x⟩
    have count := count_heldBy_set at_ ⟨next, th.held.erase x⟩ y
    have once := h.once y
    have less := count_erase_add owns.1 y
    have less' := count_erase_add live y
    simp only at count ⊢
    omega
  | give x next =>
    rw [now] at owns
    simp only [now, Option.some.injEq] at moved
    subst moved
    refine ⟨Pool.forall_set h.owns owns.2, fun y => ?_, h.live⟩
    have count := count_heldBy_set at_ ⟨next, th.held.erase x⟩ y
    have once := h.once y
    have less := count_erase_add owns.1 y
    simp only [List.count_cons, List.count_nil] at count less ⊢
    omega

theorem step_balanced (h : Balanced post s) {a : Action X ρ} (admits : Admits post a)
    (moved : step s a = some t) : Balanced post t := by
  cases a with
  | enter p =>
    obtain rfl := Option.some.inj moved
    refine ⟨Pool.forall_snoc h.owns admits, fun x => ?_, h.live⟩
    have once := h.once x
    simpa [heldBy] using once
  | next k answer =>
    obtain ⟨th, at_, next⟩ := Option.bind_eq_some_iff.mp moved
    exact next_balanced h at_ next
  | dispose x =>
    obtain ⟨given, same⟩ := Option.ite_none_right_eq_some.mp moved
    obtain rfl := Option.some.inj same
    have live : x ∈ s.live := by
      have once := h.once x
      have := List.count_pos_iff.mpr given
      exact List.count_pos_iff.mp (by omega)
    refine ⟨h.owns, fun y => ?_, h.live.erase x⟩
    have once := h.once y
    have less := count_erase_add given y
    have less' := count_erase_add live y
    simp only
    omega

end Step

/-- Nothing is live that nobody has. -/
theorem Balanced.holder {post : ρ → List X → Prop} {s : Sys X ρ} (h : Balanced post s) {x : X}
    (live : x ∈ s.live) : x ∈ s.given ∨ ∃ th ∈ s.threads, x ∈ th.held := by
  by_cases given : x ∈ s.given
  · exact Or.inl given
  have once := h.once x
  have some_live := List.count_pos_iff.mpr live
  rw [List.count_eq_zero.mpr given] at once
  have among : x ∈ heldBy s.threads := List.count_pos_iff.mp (by omega)
  exact Or.inr (List.mem_flatMap.mp among)

/-- What is live once all programs are through that end with nothing. -/
theorem Balanced.through {s : Sys X ρ} (h : Balanced (fun _ held => held = []) s)
    (through : ∀ th ∈ s.threads, th.prog.result ≠ none) : s.live.Perm s.given := by
  have none_held : heldBy s.threads = [] := by
    refine List.flatMap_eq_nil_iff.mpr fun th among => ?_
    have owns := h.owns th among
    have ended := through th among
    cases now : th.prog with
    | ret r =>
      rw [now] at owns
      exact owns
    | acquire next => exact absurd (by rw [now]; rfl) ended
    | release x next => exact absurd (by rw [now]; rfl) ended
    | give x next => exact absurd (by rw [now]; rfl) ended
  refine List.perm_iff_count.mpr fun x => ?_
  have once := h.once x
  rw [none_held, List.count_nil, Nat.zero_add] at once
  exact once.symm

theorem empty_balanced (post : ρ → List X → Prop) : Balanced post (empty : Sys X ρ) :=
  ⟨fun _ none_there => absurd none_there List.not_mem_nil, fun _ => rfl, List.nodup_nil⟩

/-- Programs that own, side by side in any order: nobody lets go of anything but
its own, and what is live is what they hold and what was given away. -/
theorem run_balanced (post : ρ → List X → Prop) {s : Sys X ρ} {actions : List (Action X ρ)}
    (admits : ∀ a ∈ actions, Admits post a) (h : Execution.run step empty actions = some s) :
    Execution.Meets step Legal (empty : Sys X ρ) actions ∧ Balanced post s := by
  have meets : Execution.Meets (@step X _ ρ) (fun _ a => Admits post a) empty actions :=
    Execution.meets_of_forall admits empty
  have keeps : ∀ s (a : Action X ρ) t, Balanced post s → Admits post a → step s a = some t →
      Balanced post t := fun _ _ _ held admits moved => step_balanced held admits moved
  exact ⟨Execution.meets_of_guarded (Balanced post) keeps (fun _ _ _ held _ _ => step_legal held)
      (empty_balanced post) meets h,
    Execution.run_guarded_invariant (Balanced post) keeps (empty_balanced post) meets h⟩

end Sys

end Holding
