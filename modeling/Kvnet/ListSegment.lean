import Mathlib.Logic.Function.Basic
import Mathlib.Data.List.Nodup

/-!
# Singly linked segments in a heap

A heap is read only through its next function. `Seg next a xs b` says that
following next from a visits exactly the cells xs, in order, and then stands on
b. Framing and linking are stated for one overwritten cell at a time, which is
how pointer code changes a list.
-/

namespace ListSegment

universe u

variable {A : Type u} {next : A → A}

def Seg (next : A → A) : A → List A → A → Prop
  | a, [], b => a = b
  | a, x :: xs, b => a = x ∧ Seg next (next x) xs b

theorem seg_congr {next' : A → A} {a b : A} {xs : List A}
    (agree : ∀ x ∈ xs, next x = next' x) (h : Seg next a xs b) : Seg next' a xs b := by
  induction xs generalizing a with
  | nil => exact h
  | cons x xs ih =>
    refine ⟨h.1, ?_⟩
    rw [← agree x List.mem_cons_self]
    exact ih (fun y hy => agree y (List.mem_cons_of_mem x hy)) h.2

theorem seg_append_iff {a c : A} {xs ys : List A} :
    Seg next a (xs ++ ys) c ↔ ∃ b, Seg next a xs b ∧ Seg next b ys c := by
  induction xs generalizing a with
  | nil =>
    constructor
    · exact fun h => ⟨a, rfl, h⟩
    · rintro ⟨b, rfl, h⟩
      exact h
  | cons x xs ih =>
    constructor
    · rintro ⟨ha, h⟩
      obtain ⟨b, hb, hc⟩ := ih.mp h
      exact ⟨b, ⟨ha, hb⟩, hc⟩
    · rintro ⟨b, ⟨ha, hb⟩, hc⟩
      exact ⟨ha, ih.mpr ⟨b, hb, hc⟩⟩

/-- A segment ending on a cell outside it determines its list of cells. -/
theorem seg_unique {a b : A} {xs ys : List A} (hxs : b ∉ xs) (hys : b ∉ ys)
    (hx : Seg next a xs b) (hy : Seg next a ys b) : xs = ys := by
  induction xs generalizing a ys with
  | nil =>
    cases ys with
    | nil => rfl
    | cons y ys =>
      have same : a = b := hx
      exact False.elim (hys (by rw [← same, hy.1]; exact List.mem_cons_self))
  | cons x xs ih =>
    cases ys with
    | nil =>
      have same : a = b := hy
      exact False.elim (hxs (by rw [← same, hx.1]; exact List.mem_cons_self))
    | cons y ys =>
      obtain ⟨hax, hx⟩ := hx
      obtain ⟨hay, hy⟩ := hy
      have same : x = y := hax.symm.trans hay
      subst same
      rw [ih (fun h => hxs (List.mem_cons_of_mem x h))
        (fun h => hys (List.mem_cons_of_mem x h)) hx hy]

/-- The segment is empty exactly when it starts where it ends. -/
theorem seg_nil_iff {a b : A} {xs : List A} (hb : b ∉ xs) (h : Seg next a xs b) :
    a = b ↔ xs = [] := by
  constructor
  · intro same
    cases xs with
    | nil => rfl
    | cons x xs => exact False.elim (hb (by rw [← same, h.1]; exact List.mem_cons_self))
  · intro empty
    subst empty
    exact h

section Update

variable [DecidableEq A]

/-- Overwriting a cell outside the segment leaves it as it was. -/
theorem seg_frame {a b x v : A} {xs : List A} (hx : x ∉ xs) (h : Seg next a xs b) :
    Seg (Function.update next x v) a xs b := by
  refine seg_congr (fun y hy => ?_) h
  have hne : y ≠ x := by intro same; exact hx (same ▸ hy)
  rw [Function.update_of_ne hne]

/-- Redirecting the last cell moves the end of the segment. -/
theorem seg_redirect {a b c t : A} {xs : List A} (ht : t ∉ xs)
    (h : Seg next a (xs ++ [t]) b) : Seg (Function.update next t c) a (xs ++ [t]) c := by
  obtain ⟨d, hd, hlast⟩ := seg_append_iff.mp h
  refine seg_append_iff.mpr ⟨d, seg_frame ht hd, hlast.1, ?_⟩
  exact Function.update_self t c next

end Update

end ListSegment
