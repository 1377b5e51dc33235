import Mathlib.Data.Fin.Basic
import Mathlib.Data.List.FinRange
import Mathlib.Logic.Function.Basic
import Mathlib.Data.Fin.Tuple.Basic
import Mathlib.Order.Defs.LinearOrder
import Mathlib.Order.Basic

/-!
# Fixed tables of slots

A table is a function `ι → α` from slots to records, some of which are *live*. Records
are found by a linear scan (`Fin.find?`, from Batteries), written with
`Function.update`, and identified by a key that no two live records share.

Two things are not in the libraries and are here: the uniqueness of a key among the
live records, with the one rule every table operation uses to keep it, and the scan
that keeps the *oldest* candidate rather than the first.
-/

namespace Wt32Router
namespace Lib

variable {ι α κ : Type*} {n : Nat}

/-! ## Keys -/

def KeyUnique (live : α → Prop) (key : α → κ) (t : ι → α) : Prop :=
  ∀ i j, live (t i) → live (t j) → key (t i) = key (t j) → i = j

section

variable {live : α → Prop} {key : α → κ} {t t' : ι → α}

/-- **One slot written, every other only weakened.** The operation may kill records or
    change their other fields, and writes one slot with a key nobody else has. -/
theorem KeyUnique.write (h : KeyUnique live key t) (e : ι)
    (hother : ∀ j, j ≠ e → live (t' j) → live (t j) ∧ key (t j) = key (t' j))
    (hfresh : live (t' e) → ∀ j, j ≠ e → live (t' j) → key (t' j) ≠ key (t' e)) :
    KeyUnique live key t' := by
  intro i j hi hj hk
  by_cases hie : i = e
  · by_cases hje : j = e
    · rw [hie, hje]
    · subst hie
      exact absurd hk.symm (hfresh hi j hje hj)
  · by_cases hje : j = e
    · subst hje
      exact absurd hk (hfresh hj i hie hi)
    · obtain ⟨hi', hki⟩ := hother i hie hi
      obtain ⟨hj', hkj⟩ := hother j hje hj
      exact h i j hi' hj' (by rw [hki, hkj, hk])

/-- Every record only weakened: killed, or changed in fields that are not the key. -/
theorem KeyUnique.weaken (h : KeyUnique live key t)
    (hother : ∀ j, live (t' j) → live (t j) ∧ key (t j) = key (t' j)) :
    KeyUnique live key t' := by
  intro i j hi hj hk
  obtain ⟨hi', hki⟩ := hother i hi
  obtain ⟨hj', hkj⟩ := hother j hj
  exact h i j hi' hj' (by rw [hki, hkj, hk])

end

/-! ## The oldest candidate -/

/-- One step of the scan: keep the best so far unless this candidate is older. -/
def keepOlder (older : α → α → Bool) (p : Fin n → Bool) (t : Fin n → α)
    (best : Option (Fin n)) (i : Fin n) : Option (Fin n) :=
  if p i then
    match best with
    | none => some i
    | some b => if older (t i) (t b) then some i else some b
  else best

/-- The scan in slot order for the oldest slot that satisfies `p`; among equals the
    first one seen stays. -/
def oldest (older : α → α → Bool) (p : Fin n → Bool) (t : Fin n → α) : Option (Fin n) :=
  (List.finRange n).foldl (keepOlder older p t) none

section

variable {older : α → α → Bool} {p : Fin n → Bool} {t : Fin n → α}

theorem keepOlder_sat {best : Option (Fin n)} {i v : Fin n}
    (hb : ∀ b, best = some b → p b = true) (h : keepOlder older p t best i = some v) :
    p v = true := by
  unfold keepOlder at h
  split at h
  · rename_i hp
    cases best with
    | none => simp only [Option.some.injEq] at h; exact h ▸ hp
    | some b =>
      simp only at h
      split at h <;> simp only [Option.some.injEq] at h
      · exact h ▸ hp
      · exact h ▸ hb b rfl
  · exact hb v h

theorem oldest_sat {v : Fin n} (h : oldest older p t = some v) : p v = true := by
  have key : ∀ (l : List (Fin n)) (best : Option (Fin n)),
      (∀ b, best = some b → p b = true) →
      ∀ v, l.foldl (keepOlder older p t) best = some v → p v = true := by
    intro l
    induction l with
    | nil => intro best hb v hv; exact hb v hv
    | cons i l ih =>
      intro best hb v hv
      exact ih _ (fun b h => keepOlder_sat hb h) v hv
  exact key _ none (by simp) v h

theorem oldest_eq_none {i : Fin n} (h : oldest older p t = none) : p i = false := by
  have keep : ∀ (best : Option (Fin n)) (i : Fin n),
      keepOlder older p t best i = none → best = none ∧ p i = false := by
    intro best i hk
    unfold keepOlder at hk
    split at hk
    · cases best with
      | none => simp at hk
      | some b => simp only at hk; split at hk <;> simp at hk
    · rename_i hp; exact ⟨hk, by simpa using hp⟩
  have key : ∀ (l : List (Fin n)) (best : Option (Fin n)),
      l.foldl (keepOlder older p t) best = none → best = none ∧ ∀ i ∈ l, p i = false := by
    intro l
    induction l with
    | nil => intro best hb; exact ⟨hb, by simp⟩
    | cons j l ih =>
      intro best hb
      obtain ⟨hk, hl⟩ := ih _ hb
      obtain ⟨hbest, hj⟩ := keep best j hk
      exact ⟨hbest, by simpa [hj] using hl⟩
  exact (key _ none h).2 i (List.mem_finRange i)

/-- **The scan keeps the oldest**, where being older is having the smaller key. -/
theorem oldest_le [LinearOrder κ] {key : α → κ} (hkey : ∀ a b, older a b = true ↔ key a < key b)
    {i v : Fin n} (h : oldest older p t = some v) (hi : p i = true) : key (t v) ≤ key (t i) := by
  -- what the scan ends with is no newer than what it had, and than what it has still to see
  have keep : ∀ (l : List (Fin n)) (best : Option (Fin n)),
      l.foldl (keepOlder older p t) best = some v →
      (∀ b, best = some b → key (t v) ≤ key (t b)) ∧
        ∀ i ∈ l, p i = true → key (t v) ≤ key (t i) := by
    intro l
    induction l with
    | nil =>
      intro best hv
      exact ⟨fun b hb => by rw [Option.some.inj (hb.symm.trans hv)], by simp⟩
    | cons j l ih =>
      intro best hv
      obtain ⟨hbest, hl⟩ := ih _ hv
      unfold keepOlder at hbest
      cases hp : p j with
      | false =>
        rw [hp] at hbest
        exact ⟨hbest, List.forall_mem_cons.mpr
          ⟨fun hyes => absurd (hp.symm.trans hyes) (by simp), hl⟩⟩
      | true =>
        rw [hp, if_pos rfl] at hbest
        cases best with
        | none =>
          exact ⟨fun b hb => absurd hb (by simp),
            List.forall_mem_cons.mpr ⟨fun _ => hbest j rfl, hl⟩⟩
        | some b =>
          have hboth : key (t v) ≤ key (t b) ∧ key (t v) ≤ key (t j) := by
            cases holder : older (t j) (t b) with
            | true =>
              have hj := hbest j (by simp [holder])
              exact ⟨hj.trans ((hkey _ _).mp holder).le, hj⟩
            | false =>
              have hb := hbest b (by simp [holder])
              have hle : key (t b) ≤ key (t j) := by
                rw [← not_lt, ← hkey, holder]
                exact Bool.false_ne_true
              exact ⟨hb, hb.trans hle⟩
          refine ⟨fun b' hb' => ?_, List.forall_mem_cons.mpr ⟨fun _ => hboth.2, hl⟩⟩
          rw [← Option.some.inj hb']
          exact hboth.1
  exact (keep _ none h).2 i (List.mem_finRange i) hi

end

end Lib
end Wt32Router
