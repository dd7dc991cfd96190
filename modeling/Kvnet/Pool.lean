import Mathlib.Data.List.Basic

/-!
# Pools of processes

Any number of processes of one kind run at once; a pool is the list of their
local states and a step acts on one position of it. Facts about a pool are
proved about the list split at that position.
-/

namespace Pool

universe u v

variable {P : Type u} {X : Type v}

/-- Reading a position splits the pool there; writing and removing act on the split. -/
theorem split_at {pool : List P} {k : Nat} {p : P} (h : pool[k]? = some p) :
    ∃ before after, pool = before ++ p :: after ∧
      (∀ q, pool.set k q = before ++ q :: after) ∧ pool.eraseIdx k = before ++ after := by
  induction pool generalizing k with
  | nil => simp at h
  | cons r pool ih =>
    cases k with
    | zero =>
      have same : r = p := by simpa using h
      subst same
      exact ⟨[], pool, rfl, fun _ => rfl, rfl⟩
    | succ k =>
      obtain ⟨before, after, hpool, hset, herase⟩ := ih (by simpa using h)
      refine ⟨r :: before, after, by rw [hpool]; rfl, fun q => ?_, ?_⟩
      · rw [List.set_cons_succ, hset q]
        rfl
      · rw [List.eraseIdx_cons_succ, herase]
        rfl

/-- A pool of one process has no other. -/
theorem only_found {pool : List P} {p q : P} (one : pool = [p]) (h : pool[0]? = some q) :
    p = q := by
  subst one
  exact Option.some.inj h

/-- Where a process of the pool comes from after one was replaced. -/
theorem get_set {pool : List P} {k i : Nat} {p q : P} (h : (pool.set k q)[i]? = some p) :
    i = k ∧ p = q ∨ i ≠ k ∧ pool[i]? = some p := by
  rw [List.getElem?_set] at h
  by_cases same : k = i
  · subst same
    rw [if_pos rfl] at h
    by_cases inside : k < pool.length
    · rw [if_pos inside] at h
      exact Or.inl ⟨rfl, (Option.some.inj h).symm⟩
    · rw [if_neg inside] at h
      cases h
  · rw [if_neg same] at h
    exact Or.inr ⟨fun eq => same eq.symm, h⟩

theorem mem_found {pool : List P} {k : Nat} {p q : P} (found : pool[k]? = some q)
    (h : p ∈ pool) : p = q ∨ p ∈ pool.eraseIdx k := by
  obtain ⟨i, there⟩ := List.mem_iff_getElem?.mp h
  by_cases same : i = k
  · subst same
    exact Or.inl (Option.some.inj (there.symm.trans found))
  · exact Or.inr (List.mem_eraseIdx_iff_getElem?.mpr ⟨i, same, there⟩)

/-- A process that is still there is another one, or the one that replaces it. -/
theorem mem_set {pool : List P} {k : Nat} {p q : P} (h : p ∈ pool.set k q) :
    p = q ∨ p ∈ pool.eraseIdx k := by
  obtain ⟨i, there⟩ := List.mem_iff_getElem?.mp h
  rcases get_set there with ⟨_, rfl⟩ | ⟨other, old⟩
  · exact Or.inl rfl
  · exact Or.inr (List.mem_eraseIdx_iff_getElem?.mpr ⟨i, other, old⟩)

theorem get_snoc {pool : List P} {i : Nat} {p q : P} (h : (pool ++ [q])[i]? = some p) :
    pool[i]? = some p ∨ p = q := by
  rw [List.getElem?_append] at h
  by_cases inside : i < pool.length
  · exact Or.inl (by rwa [if_pos inside] at h)
  · rw [if_neg inside] at h
    exact Or.inr (List.mem_singleton.mp (List.mem_of_getElem? h))

/-- A property of all processes survives replacing one by a process that has it. -/
theorem forall_set {good : P → Prop} {pool : List P} {k : Nat} {q : P}
    (hall : ∀ p ∈ pool, good p) (hq : good q) : ∀ p ∈ pool.set k q, good p := by
  intro p hp
  rcases List.mem_or_eq_of_mem_set hp with old | new
  · exact hall p old
  · exact new ▸ hq

theorem forall_eraseIdx {good : P → Prop} {pool : List P} {k : Nat}
    (hall : ∀ p ∈ pool, good p) : ∀ p ∈ pool.eraseIdx k, good p :=
  fun p hp => hall p (List.mem_of_mem_eraseIdx hp)

theorem forall_snoc {good : P → Prop} {pool : List P} {q : P}
    (hall : ∀ p ∈ pool, good p) (hq : good q) : ∀ p ∈ pool ++ [q], good p := by
  intro p hp
  rcases List.mem_append.mp hp with old | new
  · exact hall p old
  · exact List.mem_singleton.mp new ▸ hq

theorem forall_map {good : P → Prop} {pool : List P} {f : P → P}
    (hall : ∀ p ∈ pool, good (f p)) : ∀ p ∈ pool.map f, good p := by
  intro p hp
  obtain ⟨q, hq, same⟩ := List.mem_map.mp hp
  exact same ▸ hall q hq

section Last

variable (pool : List P) (p q : P)

/-- The process that entered last is found at the end of the pool. -/
@[simp] theorem last_found : (pool ++ [p])[pool.length]? = some p := List.getElem?_concat_length

@[simp] theorem last_set : (pool ++ [p]).set pool.length q = pool ++ [q] := by
  rw [List.set_append_right _ _ (Nat.le_refl _), Nat.sub_self]
  rfl

theorem last_eraseIdx : (pool ++ [p]).eraseIdx pool.length = pool := by
  rw [List.eraseIdx_append_of_length_le (Nat.le_refl _), Nat.sub_self]
  exact List.append_nil pool

end Last

section Holdings

variable {f : P → Option X} {pool : List P} {k : Nat} {p : P}

/-- Replacing a process by one that holds the same. -/
theorem filterMap_set (found : pool[k]? = some p) {q : P} (same : f q = f p) :
    (pool.set k q).filterMap f = pool.filterMap f := by
  obtain ⟨before, after, hpool, hset, _⟩ := split_at found
  rw [hset, hpool, List.filterMap_append, List.filterMap_append]
  cases holds : f p with
  | none => rw [List.filterMap_cons_none (same.trans holds), List.filterMap_cons_none holds]
  | some x => rw [List.filterMap_cons_some (same.trans holds), List.filterMap_cons_some holds]

/-- A process that holds nothing leaves. -/
theorem filterMap_eraseIdx (found : pool[k]? = some p) (nothing : f p = none) :
    (pool.eraseIdx k).filterMap f = pool.filterMap f := by
  obtain ⟨before, after, hpool, _, herase⟩ := split_at found
  rw [herase, hpool, List.filterMap_append, List.filterMap_append,
    List.filterMap_cons_none nothing]

theorem filterMap_set_subset {q : P} {xs : List X} (own : ∀ x, f q = some x → x ∈ xs)
    (others : pool.filterMap f ⊆ xs) : (pool.set k q).filterMap f ⊆ xs := by
  intro x hx
  obtain ⟨r, hr, holds⟩ := List.mem_filterMap.mp hx
  rcases List.mem_or_eq_of_mem_set hr with old | rfl
  · exact others (List.mem_filterMap.mpr ⟨r, old, holds⟩)
  · exact own x holds

end Holdings

section Resources

variable [DecidableEq X] {f : P → Option X} {pool : List P} {k : Nat} {p : P}

/-- Replacing a process exchanges the resource it holds. -/
theorem count_set (h : pool[k]? = some p) (q : P) (x : X) :
    ((pool.set k q).filterMap f).count x + (f p).toList.count x =
      (pool.filterMap f).count x + (f q).toList.count x := by
  obtain ⟨before, after, hpool, hset, _⟩ := split_at h
  have one : ∀ r : P, [r].filterMap f = (f r).toList := by
    intro r
    cases hr : f r <;> simp [hr]
  rw [hset, hpool]
  simp only [← List.singleton_append (l := after), List.filterMap_append, List.count_append, one]
  omega

/-- A process that leaves takes its resource along. -/
theorem count_eraseIdx (h : pool[k]? = some p) (x : X) :
    ((pool.eraseIdx k).filterMap f).count x + (f p).toList.count x =
      (pool.filterMap f).count x := by
  obtain ⟨before, after, hpool, _, herase⟩ := split_at h
  rw [herase, hpool, ← List.singleton_append (l := after)]
  simp only [List.filterMap_append, List.count_append]
  have one : [p].filterMap f = (f p).toList := by cases hp : f p <;> simp [hp]
  rw [one]
  omega

end Resources

end Pool
