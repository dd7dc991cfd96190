import Mathlib.Data.Int.ModEq

/-!
# One's complement arithmetic of words up to m

Words that are congruent modulo m are the same number, except that zero is
written both as 0 and as m. A sum with end-around carry never goes back to 0, so
it is the representative from 1 to m unless nothing but zeros was added. Exact
equality of two results is thus congruence and the position of a single zero.
-/

namespace OnesComplement

variable {m : Nat}

def rep (m : Nat) (z : Int) : Int := (z - 1) % m + 1

theorem rep_pos (positive : 0 < m) (z : Int) : 0 < rep m z :=
  Int.lt_add_one_of_le (Int.emod_nonneg _ (Int.natCast_ne_zero.mpr positive.ne'))

theorem rep_le (positive : 0 < m) (z : Int) : rep m z ≤ m :=
  Int.add_one_le_of_lt (Int.emod_lt_of_pos _ (Int.natCast_pos.mpr positive))

theorem rep_modEq (z : Int) : rep m z ≡ z [ZMOD m] := by
  have shifted : (z - 1) % m + 1 ≡ z - 1 + 1 [ZMOD m] := (Int.mod_modEq (z - 1) m).add_right 1
  rwa [Int.sub_add_cancel] at shifted

theorem rep_congr {y z : Int} (same : y ≡ z [ZMOD m]) : rep m y = rep m z :=
  congrArg (· + 1) (same.sub_right 1)

theorem rep_of_mem {z : Int} (above : 0 < z) (upTo : z ≤ m) : rep m z = z := by
  rw [rep, Int.emod_eq_of_lt (by omega) (by omega)]
  omega

theorem rep_add_left (y z : Int) : rep m (rep m y + z) = rep m (y + z) :=
  rep_congr ((rep_modEq y).add_right z)

theorem rep_sub_left (y z : Int) : rep m (rep m y - z) = rep m (y - z) :=
  rep_congr ((rep_modEq y).sub_right z)

/-- Addition with end-around carry. -/
def endAround (m a b : Nat) : Nat := if a + b ≤ m then a + b else a + b - m

def onesSum (m : Nat) (ws : List Nat) : Nat := ws.foldl (endAround m) 0

/-- The word a sum comes to: the representative from 1 to m, or 0 for no sum at all. -/
def norm (m s : Nat) : Nat := if s = 0 then 0 else (s - 1) % m + 1

theorem norm_zero : norm m 0 = 0 := rfl

theorem norm_natCast {s : Nat} (positive : 0 < s) : (norm m s : Int) = rep m s := by
  rw [norm, if_neg positive.ne', rep]
  push_cast [Nat.cast_sub positive]
  rfl

theorem norm_le (positive : 0 < m) (s : Nat) : norm m s ≤ m := by
  rw [norm]
  split
  · exact Nat.zero_le m
  · exact Nat.mod_lt _ positive

theorem norm_eq_zero_iff {s : Nat} : norm m s = 0 ↔ s = 0 := by
  by_cases zero : s = 0
  · subst zero
    exact iff_of_true norm_zero rfl
  · rw [norm, if_neg zero]
    exact iff_of_false (Nat.succ_ne_zero _) zero

theorem norm_modEq (s : Nat) : norm m s ≡ s [MOD m] := by
  rcases Nat.eq_zero_or_pos s with rfl | positive
  · rfl
  · have same := rep_modEq (m := m) s
    rw [← norm_natCast positive] at same
    exact (Int.natCast_modEq_iff).mp same

theorem norm_unique {a s : Nat} (upTo : a ≤ m) (zero : a = 0 ↔ s = 0)
    (same : a ≡ s [MOD m]) : a = norm m s := by
  by_cases none : s = 0
  · rw [none, norm_zero, zero.mpr none]
  · have above : 0 < a := Nat.pos_of_ne_zero (mt zero.mp none)
    have words : (a : Int) = norm m s := by
      rw [norm_natCast (Nat.pos_of_ne_zero none),
        ← rep_of_mem (Int.natCast_pos.mpr above) (Int.ofNat_le.mpr upTo)]
      exact rep_congr (Int.natCast_modEq_iff.mpr same)
    exact Int.ofNat_inj.mp words

theorem norm_eq_max_iff (positive : 0 < m) {s : Nat} : norm m s = m ↔ s ≠ 0 ∧ s ≡ 0 [MOD m] := by
  have zero : m ≡ 0 [MOD m] := (Nat.modEq_zero_iff_dvd).mpr (dvd_refl m)
  constructor
  · intro full
    have same := norm_modEq (m := m) s
    rw [full] at same
    refine ⟨fun none => ?_, same.symm.trans zero⟩
    rw [none, norm_zero] at full
    omega
  · rintro ⟨some, same⟩
    exact (norm_unique (le_refl m) (iff_of_false positive.ne' some)
      (zero.trans same.symm)).symm

/-- A word and a sum cancel when the word is the sum's complement, or its other zero. -/
theorem add_modEq_zero_iff (positive : 0 < m) (v s : Nat) :
    v + s ≡ 0 [MOD m] ↔ v ≡ m - norm m s [MOD m] := by
  have whole : m - norm m s + s ≡ 0 [MOD m] := by
    have complement : m - norm m s + norm m s ≡ 0 [MOD m] := by
      rw [Nat.sub_add_cancel (norm_le positive s)]
      exact Nat.modEq_zero_iff_dvd.mpr (dvd_refl m)
    exact ((norm_modEq s).add_left _).symm.trans complement
  constructor
  · intro cancel
    exact Nat.ModEq.add_right_cancel' s (cancel.trans whole.symm)
  · intro same
    exact (same.add_right s).trans whole

theorem endAround_norm (positive : 0 < m) (s : Nat) {w : Nat} (word : w ≤ m) :
    endAround m (norm m s) w = norm m (s + w) := by
  have upTo := norm_le positive s
  have added : norm m s + w ≡ s + w [MOD m] := (norm_modEq s).add_right w
  have none : norm m s = 0 ↔ s = 0 := norm_eq_zero_iff
  by_cases fits : norm m s + w ≤ m
  · rw [endAround, if_pos fits]
    exact norm_unique fits (by omega) added
  · rw [endAround, if_neg fits]
    refine norm_unique (by omega) (by omega) ?_
    have carried : norm m s + w - m ≡ norm m s + w [MOD m] :=
      (Nat.mod_eq_sub_mod (by omega)).symm
    exact carried.trans added

/-- A sum with end-around carry is the sum, written as a word. -/
theorem onesSum_eq_norm (positive : 0 < m) (ws : List Nat) (words : ∀ w ∈ ws, w ≤ m) :
    onesSum m ws = norm m ws.sum := by
  have from_norm (s : Nat) : ws.foldl (endAround m) (norm m s) = norm m (s + ws.sum) := by
    induction ws generalizing s with
    | nil => rfl
    | cons w ws ih =>
      rw [List.foldl_cons, endAround_norm positive s (words w List.mem_cons_self), List.sum_cons,
        ih (fun v hv => words v (List.mem_cons_of_mem w hv)), Nat.add_assoc]
  have from_zero := from_norm 0
  rwa [norm_zero, Nat.zero_add] at from_zero

end OnesComplement
