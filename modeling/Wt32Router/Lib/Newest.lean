import Mathlib.Algebra.GroupWithZero.Nat
import Mathlib.Data.Fin.Basic
import Mathlib.Data.List.Basic
import Mathlib.Logic.Function.Basic

/-!
# A ring that keeps the newest

Elements are numbered as they come, and the ring of `n` places has the one of number `k` at
`k % n`. What it keeps is the last `n` of them (`Keeps.push`), and reading from there up to the
last one gives them in their order (`Keeps.newest`).
-/

namespace Wt32Router
namespace Lib

section

variable {α : Type*} {n : Nat} [NeZero n] {ring : Fin n → α} {xs : List α} {x : α} {i k m : Nat}

/-- The ring has the last `n` elements of `xs`, each at its place. -/
def Keeps (ring : Fin n → α) (xs : List α) : Prop :=
  ∀ k (hk : k < xs.length), xs.length ≤ k + n → ring (Fin.ofNat n k) = xs[k]

theorem Keeps.nil (ring : Fin n → α) : Keeps ring [] := fun _ hk => absurd hk (Nat.not_lt_zero _)

/-- Numbers less than a round apart have places of their own. -/
theorem ofNat_ne (hlt : i < k) (hround : k < i + n) : Fin.ofNat n i ≠ Fin.ofNat n k := by
  intro heq
  have hmod : i % n = k % n := congrArg Fin.val heq
  have hzero := Nat.sub_mod_eq_zero_of_mod_eq hmod.symm
  rw [Nat.mod_eq_of_lt (by omega)] at hzero
  omega

theorem Keeps.push (h : Keeps ring xs) :
    Keeps (Function.update ring (Fin.ofNat n xs.length) x) (xs ++ [x]) := by
  intro k hk hlast
  rw [List.length_append, List.length_singleton] at hk hlast
  by_cases heq : k = xs.length
  · subst heq
    rw [Function.update_self, List.getElem_concat_length rfl]
  · have hlt : k < xs.length := by omega
    rw [Function.update_of_ne (ofNat_ne hlt (by omega)), List.getElem_append_left hlt]
    exact h k hlt (by omega)

theorem Keeps.newest (h : Keeps ring xs) (hring : m ≤ n) (hm : m ≤ xs.length) :
    (List.range m).map (fun k => ring (Fin.ofNat n (xs.length - m + k))) =
      xs.drop (xs.length - m) := by
  refine List.ext_getElem (by simp; omega) fun k hk _ => ?_
  rw [List.length_map, List.length_range] at hk
  rw [List.getElem_map, List.getElem_range, List.getElem_drop]
  exact h _ (by omega) (by omega)

end

end Lib
end Wt32Router
