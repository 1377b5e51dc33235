import Mathlib.Data.Fin.Basic
import Mathlib.Logic.Function.Basic
import Mathlib.Data.List.TakeDrop
import Wt32Router.Lib.Bytes

/-!
# Decoders that could overrun

A function that decodes a buffer into a table can go past the end of either. Here every access
says whether it did: `none` is an access out of bounds, and nothing comes after it. So a
decoder that returns has touched nothing it should not.

A loop is a fold over its counter, and has one rule: an invariant that each turn carries on, and
under which each turn returns.
-/

namespace Wt32Router
namespace Lib

/-- `memcpy` of `n` bytes from `buf + off`, of a buffer that holds `buf`. -/
def copyIn (buf : List UInt8) (off n : Nat) : Option (List UInt8) :=
  if off + n ≤ buf.length then some ((buf.drop off).take n) else none

/-- An assignment to fields of `t[i]`. -/
def writeAt {α : Type} {cap : Nat} (t : Fin cap → α) (i : Nat) (f : α → α) :
    Option (Fin cap → α) :=
  if h : i < cap then some (Function.update t ⟨i, h⟩ (f (t ⟨i, h⟩))) else none

/-- `for (int i = 0; i < n; i++)`. -/
def forUpTo {σ : Type} (n : Nat) (turn : σ → Nat → Option σ) (s : σ) : Option σ :=
  (List.range n).foldlM turn s

/-- A decoder that takes a buffer whole or not at all: `fits` says which, `idle` is what is
    left of a state where it does not, and `loaded` what is made of one where it does. -/
structure LoadsWhole {σ : Type} (load : σ → List UInt8 → Option σ) (room : Nat)
    (fits : List UInt8 → Prop) (idle : σ → σ) (loaded : σ → List UInt8 → σ → Prop)
    (restored : σ → Nat) (cap : Nat) : Prop where
  inBounds : ∀ st buf, buf.length ≤ room → load st buf ≠ none
  refused : ∀ st buf, buf.length ≤ room → ¬ fits buf → load st buf = some (idle st)
  whole : ∀ st buf st', buf.length ≤ room → fits buf → load st buf = some st' →
    loaded st buf st' ∧ restored st' ≤ cap

section

variable {σ α : Type} {n cap off i : Nat} {buf : List UInt8} {turn : σ → Nat → Option σ} {s : σ}

theorem copyIn_of_le (h : off + n ≤ buf.length) :
    copyIn buf off n = some ((buf.drop off).take n) := if_pos h

theorem copyIn_prefix (h : n ≤ buf.length) : copyIn buf 0 n = some (buf.take n) :=
  if_pos (by rw [Nat.zero_add]; exact h)

theorem writeAt_of_lt {t : Fin cap → α} {f : α → α} (h : i < cap) :
    writeAt t i f = some (Function.update t ⟨i, h⟩ (f (t ⟨i, h⟩))) := dif_pos h

/-- **A loop returns, and carries its invariant.** -/
theorem forUpTo_inv {P : Nat → σ → Prop}
    (hturn : ∀ i s, i < n → P i s → ∃ s', turn s i = some s' ∧ P (i + 1) s') (h0 : P 0 s) :
    ∃ s', forUpTo n turn s = some s' ∧ P n s' := by
  unfold forUpTo
  induction n with
  | zero => exact ⟨s, rfl, h0⟩
  | succ n ih =>
    obtain ⟨s₁, hrun, h₁⟩ := ih fun i s hi => hturn i s (Nat.lt_succ_of_lt hi)
    obtain ⟨s₂, hlast, h₂⟩ := hturn n s₁ (Nat.lt_succ_self n) h₁
    refine ⟨s₂, ?_, h₂⟩
    rw [List.range_succ, List.foldlM_append, hrun]
    show [n].foldlM turn s₁ = some s₂
    rw [List.foldlM_cons, hlast]
    rfl

/-- A decoder that returns on every buffer, and on each what it should. -/
theorem LoadsWhole.of_returns {load : σ → List UInt8 → Option σ} {room : Nat}
    {fits : List UInt8 → Prop} {idle : σ → σ} {loaded : σ → List UInt8 → σ → Prop}
    {restored : σ → Nat} (hrefused : ∀ st buf, buf.length ≤ room → ¬ fits buf →
      load st buf = some (idle st))
    (hwhole : ∀ st buf, buf.length ≤ room → fits buf →
      ∃ st', load st buf = some st' ∧ loaded st buf st' ∧ restored st' ≤ cap) :
    LoadsWhole load room fits idle loaded restored cap := by
  refine ⟨fun st buf hlen => ?_, hrefused, fun st buf st' hlen hfits hload => ?_⟩
  · by_cases hfits : fits buf
    · obtain ⟨st', hload, -⟩ := hwhole st buf hlen hfits
      rw [hload]
      exact Option.some_ne_none st'
    · rw [hrefused st buf hlen hfits]
      exact Option.some_ne_none (idle st)
  · obtain ⟨st₁, hload₁, hgood⟩ := hwhole st buf hlen hfits
    cases hload.symm.trans hload₁
    exact hgood

/-! ## Words of a copy -/

/-- A word is read the same from a copy that holds it. -/
theorem leNat_take (w : Nat) (bs : List UInt8) {n : Nat} (h : w ≤ n) :
    leNat w (bs.take n) = leNat w bs := by
  induction w generalizing bs n with
  | zero => rfl
  | succ w ih =>
    cases n with
    | zero => exact absurd h (Nat.not_succ_le_zero w)
    | succ n =>
      cases bs with
      | nil => rfl
      | cons b bs =>
        simp only [leNat, List.take_succ_cons, List.headD_cons, List.tail_cons]
        rw [ih bs (Nat.le_of_succ_le_succ h)]

theorem leNat_drop_take (w : Nat) (bs : List UInt8) {n off : Nat} (h : off + w ≤ n) :
    leNat w ((bs.take n).drop off) = leNat w (bs.drop off) := by
  rw [List.drop_take]
  exact leNat_take w _ (Nat.le_sub_of_add_le (Nat.add_comm off w ▸ h))

theorem headD_drop_take (bs : List UInt8) {n off : Nat} (h : off < n) :
    ((bs.take n).drop off).headD 0 = (bs.drop off).headD 0 := by
  rw [List.headD_eq_head?_getD, List.headD_eq_head?_getD, List.head?_drop, List.head?_drop,
    List.getElem?_take_of_lt h]

theorem takeD_take (bs : List UInt8) {m n : Nat} (h : m ≤ n) :
    (bs.take n).takeD m 0 = bs.takeD m 0 := by
  induction m generalizing bs n with
  | zero => rfl
  | succ m ih =>
    cases n with
    | zero => exact absurd h (Nat.not_succ_le_zero m)
    | succ n =>
      cases bs with
      | nil => rfl
      | cons b bs =>
        rw [List.take_succ_cons, List.takeD_succ, List.takeD_succ]
        simp only [List.head?_cons, List.tail_cons]
        rw [ih bs (Nat.le_of_succ_le_succ h)]

theorem takeD_drop_take (bs : List UInt8) {m n off : Nat} (h : off + m ≤ n) :
    ((bs.take n).drop off).takeD m 0 = (bs.drop off).takeD m 0 := by
  rw [List.drop_take]
  exact takeD_take _ (Nat.le_sub_of_add_le (Nat.add_comm off m ▸ h))

end

end Lib
end Wt32Router
