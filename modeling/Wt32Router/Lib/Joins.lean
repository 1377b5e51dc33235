import Mathlib.Algebra.GroupWithZero.Nat
import Mathlib.Algebra.Order.BigOperators.Group.List
import Mathlib.Algebra.Order.Group.Nat
import Mathlib.Data.List.Nodup

/-!
# Joins

Rows are looked up by a key, and the first that has it is taken.

> **`sum_find_le`**: whatever is counted of the rows that distinct keys find is counted at most
> once for each row.
-/

namespace Wt32Router
namespace Lib

universe u v

variable {γ : Type u} {κ : Type v} [DecidableEq κ]

/-- One row is found by one of several distinct keys at most. -/
theorem sum_found_le (k₀ : κ) (n : Nat) {ks : List κ} (h : ks.Nodup) :
    (ks.map fun k => if k₀ == k then n else 0).sum ≤ n := by
  induction ks with
  | nil => exact Nat.zero_le n
  | cons k ks ih =>
    obtain ⟨hnot, hks⟩ := List.nodup_cons.mp h
    rw [List.map_cons, List.sum_cons]
    by_cases hk : k₀ = k
    · subst hk
      have hrest : (ks.map fun k' => if k₀ == k' then n else 0).sum = 0 := by
        refine List.sum_eq_zero fun x hx => ?_
        obtain ⟨k', hk', rfl⟩ := List.mem_map.mp hx
        have hne : k₀ ≠ k' := fun heq => hnot (heq ▸ hk')
        exact if_neg fun heq => hne (eq_of_beq heq)
      rw [hrest, Nat.add_zero]
      split
      · exact Nat.le_refl n
      · exact Nat.zero_le n
    · rw [if_neg fun heq => hk (eq_of_beq heq), Nat.zero_add]
      exact ih hks

/-- **Distinct keys** find each row at most once. -/
theorem sum_find_le (key : γ → κ) (w : γ → Nat) (rows : List γ) {ks : List κ} (h : ks.Nodup) :
    (ks.map fun k => ((rows.find? fun r => key r == k).map w).getD 0).sum ≤ (rows.map w).sum := by
  induction rows with
  | nil =>
    refine Nat.le_of_eq (List.sum_eq_zero fun x hx => ?_)
    obtain ⟨k, -, rfl⟩ := List.mem_map.mp hx
    rfl
  | cons r rows ih =>
    have hsplit : ∀ k, (((r :: rows).find? fun r => key r == k).map w).getD 0 ≤
        (if key r == k then w r else 0) +
          ((rows.find? fun r => key r == k).map w).getD 0 := by
      intro k
      rw [List.find?_cons]
      cases key r == k with
      | true => exact Nat.le_add_right _ _
      | false => exact Nat.le_add_left _ _
    calc
      _ ≤ (ks.map fun k => (if key r == k then w r else 0) +
            ((rows.find? fun r => key r == k).map w).getD 0).sum :=
        List.sum_le_sum fun k _ => hsplit k
      _ = (ks.map fun k => if key r == k then w r else 0).sum +
            (ks.map fun k => ((rows.find? fun r => key r == k).map w).getD 0).sum :=
        List.sum_map_add
      _ ≤ w r + (rows.map w).sum := Nat.add_le_add (sum_found_le (key r) (w r) h) ih
      _ = ((r :: rows).map w).sum := by rw [List.map_cons, List.sum_cons]

end Lib
end Wt32Router
