import Mathlib.Data.List.Basic

/-!
# Runs of a deterministic step function

All nondeterminism of a system (which thread moves, what the environment
answers) sits in the actions, so a run is the list of its actions and is
undefined when an action is not enabled. The rules below lift a fact about one
step to every run: invariants, invariants of guarded runs, and properties of a
run that hold exactly when every step of it meets a condition.
-/

namespace Execution

universe u v

variable {σ : Type u} {α : Type v} {step : σ → α → Option σ}

/-- The state after the actions, taken in order. -/
def run (step : σ → α → Option σ) : σ → List α → Option σ
  | s, [] => some s
  | s, a :: rest => (step s a).bind fun t => run step t rest

/-- Every action of the run meets the guard in the state it is taken in. -/
def Meets (step : σ → α → Option σ) (guard : σ → α → Prop) : σ → List α → Prop
  | _, [] => True
  | s, a :: rest => guard s a ∧ ∀ t, step s a = some t → Meets step guard t rest

/-- The property holds in every state of the run, the first and the last included. -/
def Always (step : σ → α → Option σ) (property : σ → Prop) : σ → List α → Prop
  | s, [] => property s
  | s, a :: rest => property s ∧ ∀ t, step s a = some t → Always step property t rest

@[simp] theorem run_nil (s : σ) : run step s [] = some s := rfl

theorem run_cons_some {s u : σ} {a : α} {rest : List α} (h : run step s (a :: rest) = some u) :
    ∃ t, step s a = some t ∧ run step t rest = some u :=
  Option.bind_eq_some_iff.mp h

theorem run_cons {s t : σ} {a : α} (h : step s a = some t) (rest : List α) :
    run step s (a :: rest) = run step t rest := by
  simp only [run, h, Option.bind_some]

theorem run_append (s : σ) (first second : List α) :
    run step s (first ++ second) = (run step s first).bind fun t => run step t second := by
  induction first generalizing s with
  | nil => rfl
  | cons a rest ih =>
    cases hs : step s a with
    | none => simp [run, hs]
    | some t => simpa [run, hs] using ih t

/-- The run decides whether it meets a guard that each of its states decides. -/
instance decidableMeets {guard : σ → α → Prop} [∀ s a, Decidable (guard s a)] :
    ∀ s actions, Decidable (Meets step guard s actions)
  | _, [] => isTrue trivial
  | s, a :: rest =>
    match h : step s a with
    | none => decidable_of_iff (guard s a)
        ⟨fun now => ⟨now, fun t ht => by rw [h] at ht; cases ht⟩, And.left⟩
    | some t =>
      have : Decidable (Meets step guard t rest) := decidableMeets t rest
      decidable_of_iff (guard s a ∧ Meets step guard t rest)
        ⟨fun meets => ⟨meets.1, fun r hr => Option.some.inj (h.symm.trans hr) ▸ meets.2⟩,
          fun meets => ⟨meets.1, meets.2 t h⟩⟩

theorem meets_append {guard : σ → α → Prop} {s t : σ} {first : List α}
    (h : run step s first = some t) (second : List α) :
    Meets step guard s (first ++ second) ↔
      Meets step guard s first ∧ Meets step guard t second := by
  induction first generalizing s with
  | nil =>
    obtain rfl : s = t := Option.some.inj h
    exact ⟨fun meets => ⟨trivial, meets⟩, And.right⟩
  | cons a rest ih =>
    obtain ⟨r, moved, later⟩ := run_cons_some h
    constructor
    · rintro ⟨now, next⟩
      obtain ⟨rest_meets, then_meets⟩ := (ih later).mp (next r moved)
      refine ⟨⟨now, fun r' moved' => ?_⟩, then_meets⟩
      obtain rfl : r = r' := Option.some.inj (moved.symm.trans moved')
      exact rest_meets
    · rintro ⟨⟨now, next⟩, then_meets⟩
      refine ⟨now, fun r' moved' => ?_⟩
      obtain rfl : r = r' := Option.some.inj (moved.symm.trans moved')
      exact (ih later).mpr ⟨next r moved, then_meets⟩

/-- A simulation that answers each step by some steps, and a guard on the step by
one on those, does so for whole runs. -/
theorem run_simulates {τ : Type u} {β : Type v} {step' : τ → β → Option τ}
    {guard : σ → α → Prop} {guard' : τ → β → Prop} {good : β → Prop} (rel : σ → τ → Prop)
    (answers : ∀ s a t s', rel s s' → step s a = some t → ∃ bs t', run step' s' bs = some t' ∧
      rel t t' ∧ (∀ b ∈ bs, good b) ∧ (guard s a ↔ Meets step' guard' s' bs))
    {s t : σ} {s' : τ} {actions : List α} (start : rel s s') (h : run step s actions = some t) :
    ∃ bs t', run step' s' bs = some t' ∧ rel t t' ∧ (∀ b ∈ bs, good b) ∧
      (Meets step guard s actions ↔ Meets step' guard' s' bs) := by
  induction actions generalizing s s' with
  | nil =>
    obtain rfl : s = t := Option.some.inj h
    exact ⟨[], s', rfl, start, fun b none_there => absurd none_there List.not_mem_nil, Iff.rfl⟩
  | cons a rest ih =>
    obtain ⟨r, moved, later⟩ := run_cons_some h
    obtain ⟨bs, r', ran, related, fine, same⟩ := answers s a r s' start moved
    obtain ⟨cs, t', ran', related', fine', same'⟩ := ih related later
    refine ⟨bs ++ cs, t', by rw [run_append, ran]; exact ran', related', fun b among => ?_, ?_⟩
    · exact (List.mem_append.mp among).elim (fine b) (fine' b)
    · rw [meets_append ran, ← same, ← same']
      constructor
      · exact fun meets => ⟨meets.1, meets.2 r moved⟩
      · rintro ⟨now, next⟩
        refine ⟨now, fun q moved' => ?_⟩
        obtain rfl : r = q := Option.some.inj (moved.symm.trans moved')
        exact next

/-- A property kept by every step that meets the guard holds after every run
whose steps all meet it. -/
theorem run_guarded_invariant {guard : σ → α → Prop} (inv : σ → Prop)
    (keeps : ∀ s a t, inv s → guard s a → step s a = some t → inv t)
    {s u : σ} {actions : List α} (start : inv s)
    (meets : Meets step guard s actions) (h : run step s actions = some u) : inv u := by
  induction actions generalizing s with
  | nil =>
    have same : s = u := Option.some.inj h
    exact same ▸ start
  | cons a rest ih =>
    obtain ⟨t, ht, hrest⟩ := run_cons_some h
    exact ih (keeps s a t start meets.1 ht) (meets.2 t ht) hrest

theorem meets_and {guard guard' : σ → α → Prop} {s : σ} {actions : List α}
    (h : Meets step guard s actions) (h' : Meets step guard' s actions) :
    Meets step (fun s a => guard s a ∧ guard' s a) s actions := by
  induction actions generalizing s with
  | nil => exact trivial
  | cons a rest ih => exact ⟨⟨h.1, h'.1⟩, fun t ht => ih (h.2 t ht) (h'.2 t ht)⟩

theorem meets_trivial (s : σ) (actions : List α) : Meets step (fun _ _ => True) s actions := by
  induction actions generalizing s with
  | nil => exact trivial
  | cons a rest ih => exact ⟨trivial, fun t _ => ih t⟩

/-- A guard on the actions alone is met by a run of such actions. -/
theorem meets_of_forall {good : α → Prop} {actions : List α} (hall : ∀ a ∈ actions, good a)
    (s : σ) : Meets step (fun _ a => good a) s actions := by
  induction actions generalizing s with
  | nil => exact trivial
  | cons a rest ih =>
    exact ⟨hall a List.mem_cons_self,
      fun t _ => ih (fun b hb => hall b (List.mem_cons_of_mem a hb)) t⟩

/-- A property kept by every step holds after every run. -/
theorem run_invariant (inv : σ → Prop)
    (keeps : ∀ s a t, inv s → step s a = some t → inv t)
    {s u : σ} {actions : List α} (start : inv s) (h : run step s actions = some u) : inv u :=
  run_guarded_invariant inv (fun s a t hs _ ht => keeps s a t hs ht) start
    (meets_trivial s actions) h

/-- A run whose states satisfy an invariant and whose steps meet a guard meets
every guard that the two grant to enabled actions. -/
theorem meets_of_guarded {guard guard' : σ → α → Prop} (inv : σ → Prop)
    (keeps : ∀ s a t, inv s → guard s a → step s a = some t → inv t)
    (grants : ∀ s a t, inv s → guard s a → step s a = some t → guard' s a)
    {s u : σ} {actions : List α} (start : inv s) (meets : Meets step guard s actions)
    (h : run step s actions = some u) : Meets step guard' s actions := by
  induction actions generalizing s with
  | nil => exact trivial
  | cons a rest ih =>
    obtain ⟨t, ht, hrest⟩ := run_cons_some h
    refine ⟨grants s a t start meets.1 ht, fun r hr => ?_⟩
    obtain rfl : t = r := Option.some.inj (ht.symm.trans hr)
    exact ih (keeps s a t start meets.1 ht) (meets.2 t ht) hrest

theorem meets_of_invariant {guard : σ → α → Prop} (inv : σ → Prop)
    (keeps : ∀ s a t, inv s → step s a = some t → inv t)
    (grants : ∀ s a t, inv s → step s a = some t → guard s a)
    {s u : σ} {actions : List α} (start : inv s) (h : run step s actions = some u) :
    Meets step guard s actions :=
  meets_of_guarded inv (fun s a t hs _ ht => keeps s a t hs ht)
    (fun s a t hs _ ht => grants s a t hs ht) start (meets_trivial s actions) h

/-- Where no step raises a rank and the counted actions lower it, a run counts no
more of them than the rank falls. -/
theorem run_rank {counted : α → Bool} (inv : σ → Prop) (rank : σ → Nat)
    (keeps : ∀ s a t, inv s → step s a = some t → inv t)
    (falls : ∀ s a t, inv s → step s a = some t → (counted a).toNat + rank t ≤ rank s)
    {s u : σ} {actions : List α} (start : inv s) (h : run step s actions = some u) :
    actions.countP counted + rank u ≤ rank s := by
  induction actions generalizing s with
  | nil =>
    obtain rfl : s = u := Option.some.inj h
    exact Nat.le_of_eq (by rw [List.countP_nil, Nat.zero_add])
  | cons a rest ih =>
    obtain ⟨t, ht, hrest⟩ := run_cons_some h
    have later := ih (keeps s a t start ht) hrest
    have now := falls s a t start ht
    rw [List.countP_cons]
    cases counts : counted a with
    | true =>
      rw [counts, Bool.toNat_true] at now
      rw [if_pos rfl]
      omega
    | false =>
      rw [counts, Bool.toNat_false] at now
      rw [if_neg Bool.false_ne_true]
      omega

/-- A property that such an invariant implies holds in every state of the run. -/
theorem always_guarded {guard : σ → α → Prop} {property : σ → Prop} (inv : σ → Prop)
    (keeps : ∀ s a t, inv s → guard s a → step s a = some t → inv t)
    (implies : ∀ s, inv s → property s) {s : σ} {actions : List α} (start : inv s)
    (meets : Meets step guard s actions) : Always step property s actions := by
  induction actions generalizing s with
  | nil => exact implies s start
  | cons a rest ih =>
    refine ⟨implies s start, fun t ht => ?_⟩
    exact ih (keeps s a t start meets.1 ht) (meets.2 t ht)

theorem always_start {property : σ → Prop} {s : σ} {actions : List α}
    (h : Always step property s actions) : property s := by
  cases actions with
  | nil => exact h
  | cons a rest => exact h.1

/-- Under an invariant, a property that each step keeps exactly when it meets
the guard holds in every state of a run exactly when all its steps meet the guard. -/
theorem always_iff_meets {guard : σ → α → Prop} {property : σ → Prop} (inv : σ → Prop)
    (keeps : ∀ s a t, inv s → step s a = some t → inv t)
    (decides : ∀ s a t, inv s → property s → step s a = some t → (property t ↔ guard s a))
    {s u : σ} {actions : List α} (start : inv s) (holds : property s)
    (h : run step s actions = some u) :
    Always step property s actions ↔ Meets step guard s actions := by
  induction actions generalizing s with
  | nil => exact ⟨fun _ => trivial, fun _ => holds⟩
  | cons a rest ih =>
    obtain ⟨t, ht, hrest⟩ := run_cons_some h
    have next := decides s a t start holds ht
    constructor
    · rintro ⟨_, later⟩
      have ht' : property t := always_start (later t ht)
      refine ⟨next.mp ht', fun r hr => ?_⟩
      have same : t = r := Option.some.inj (ht.symm.trans hr)
      subst same
      exact (ih (keeps s a t start ht) ht' hrest).mp (later t ht)
    · rintro ⟨meets, later⟩
      refine ⟨holds, fun r hr => ?_⟩
      have same : t = r := Option.some.inj (ht.symm.trans hr)
      subst same
      exact (ih (keeps s a t start ht) (next.mpr meets) hrest).mpr (later t ht)

/-- A property that a step can only lose, and loses exactly when it does not
meet the guard, holds at the end of a run exactly when it held at the start and
all steps meet the guard. -/
theorem final_iff_meets {guard : σ → α → Prop} {property : σ → Prop} (inv : σ → Prop)
    (keeps : ∀ s a t, inv s → step s a = some t → inv t)
    (decides : ∀ s a t, inv s → step s a = some t → (property t ↔ property s ∧ guard s a))
    {s u : σ} {actions : List α} (start : inv s) (h : run step s actions = some u) :
    property u ↔ property s ∧ Meets step guard s actions := by
  induction actions generalizing s with
  | nil =>
    have same : s = u := Option.some.inj h
    subst same
    exact ⟨fun hp => ⟨hp, trivial⟩, fun hp => hp.1⟩
  | cons a rest ih =>
    obtain ⟨t, ht, hrest⟩ := run_cons_some h
    rw [ih (keeps s a t start ht) hrest, decides s a t start ht, and_assoc]
    refine and_congr_right fun _ => and_congr_right fun _ => ?_
    constructor
    · intro later r hr
      have same : t = r := Option.some.inj (ht.symm.trans hr)
      exact same ▸ later
    · intro later
      exact later t ht

end Execution
