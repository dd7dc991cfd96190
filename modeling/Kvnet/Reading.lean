import Mathlib.Data.List.Basic

/-!
# Computations that read a memory

A computation is the tree of its reads: a leaf holds the result, a node asks for
one location and goes on with what it finds there. One memory turns it into a
value and the list of the locations it touched, in order. The value depends on
these locations only, and both are found along the structure of the computation.
-/

universe u

inductive Reading (Loc Val : Type) (α : Type u) : Type u where
  | done (a : α)
  | read (loc : Loc) (next : Val → Reading Loc Val α)

namespace Reading

variable {Loc Val : Type} {α β : Type u}

def bind : Reading Loc Val α → (α → Reading Loc Val β) → Reading Loc Val β
  | done a, f => f a
  | read loc next, f => read loc fun v => (next v).bind f

instance : Monad (Reading Loc Val) where
  pure := done
  bind := bind

def load (loc : Loc) : Reading Loc Val Val := read loc done

/-- The values at several locations, read in order. -/
def loads : List Loc → Reading Loc Val (List Val)
  | [] => pure []
  | loc :: rest => do
    let v ← load loc
    let vs ← loads rest
    return v :: vs

def value (m : Loc → Val) : Reading Loc Val α → α
  | done a => a
  | read loc next => (next (m loc)).value m

def touched (m : Loc → Val) : Reading Loc Val α → List Loc
  | done _ => []
  | read loc next => loc :: (next (m loc)).touched m

section Rules

variable (m : Loc → Val)

@[simp] theorem value_pure (a : α) : (pure a : Reading Loc Val α).value m = a := rfl

@[simp] theorem touched_pure (a : α) : (pure a : Reading Loc Val α).touched m = [] := rfl

@[simp] theorem value_load (loc : Loc) : (load loc : Reading Loc Val Val).value m = m loc := rfl

@[simp] theorem touched_load (loc : Loc) :
    (load loc : Reading Loc Val Val).touched m = [loc] := rfl

@[simp] theorem value_bind (c : Reading Loc Val α) (f : α → Reading Loc Val β) :
    (c >>= f).value m = (f (c.value m)).value m := by
  induction c with
  | done a => rfl
  | read loc next ih => exact ih (m loc)

@[simp] theorem touched_bind (c : Reading Loc Val α) (f : α → Reading Loc Val β) :
    (c >>= f).touched m = c.touched m ++ (f (c.value m)).touched m := by
  induction c with
  | done a => rfl
  | read loc next ih => exact congrArg (List.cons loc) (ih (m loc))

@[simp] theorem value_ite {c : Prop} [Decidable c] (a b : Reading Loc Val α) :
    (if c then a else b).value m = if c then a.value m else b.value m :=
  apply_ite _ c a b

@[simp] theorem touched_loads (locs : List Loc) :
    (loads locs : Reading Loc Val (List Val)).touched m = locs := by
  induction locs with
  | nil => rfl
  | cons loc rest ih =>
    simp only [loads, touched_bind, touched_load, touched_pure, ih, List.append_nil,
      List.singleton_append]

end Rules

/-- A memory that agrees on what was touched cannot be told apart. -/
theorem value_congr {m m' : Loc → Val} (c : Reading Loc Val α)
    (same : ∀ loc ∈ c.touched m, m' loc = m loc) : c.value m' = c.value m := by
  induction c with
  | done a => rfl
  | read loc next ih =>
    have here : m' loc = m loc := same loc List.mem_cons_self
    rw [value, value, here]
    exact ih (m loc) fun later h => same later (List.mem_cons_of_mem loc h)

/-- Everything the computation touches satisfies P. -/
def Within (m : Loc → Val) (P : Loc → Prop) (c : Reading Loc Val α) : Prop :=
  ∀ loc ∈ c.touched m, P loc

section Within

variable {m : Loc → Val} {P : Loc → Prop}

@[simp] theorem within_pure (a : α) : (pure a : Reading Loc Val α).Within m P :=
  fun _ h => nomatch h

@[simp] theorem within_load {loc : Loc} : (load loc : Reading Loc Val Val).Within m P ↔ P loc :=
  List.forall_mem_singleton

@[simp] theorem within_bind {c : Reading Loc Val α} {f : α → Reading Loc Val β} :
    (c >>= f).Within m P ↔ c.Within m P ∧ (f (c.value m)).Within m P := by
  rw [Within, touched_bind, List.forall_mem_append]
  rfl

/-- What a test leaves out is not read. -/
@[simp] theorem within_ite {c : Prop} [Decidable c] {a b : Reading Loc Val α} :
    (if c then a else b).Within m P ↔ (c → a.Within m P) ∧ (¬ c → b.Within m P) := by
  by_cases h : c
  · rw [if_pos h]
    exact ⟨fun within => ⟨fun _ => within, fun other => absurd h other⟩, fun both => both.1 h⟩
  · rw [if_neg h]
    exact ⟨fun within => ⟨fun other => absurd other h, fun _ => within⟩, fun both => both.2 h⟩

@[simp] theorem within_loads {locs : List Loc} :
    (loads locs : Reading Loc Val (List Val)).Within m P ↔ ∀ loc ∈ locs, P loc := by
  rw [Within, touched_loads]

end Within

end Reading
