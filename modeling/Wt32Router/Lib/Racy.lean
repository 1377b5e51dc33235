import Mathlib.Data.BitVec
import Mathlib.Data.Finset.Card
import Mathlib.Logic.Function.Basic
import Wt32Router.Lib.Runs

/-!
# A counter without a lock

Several tasks count into one word. None of them waits for another, so each counts in two steps: it
loads the word, and it stores what it has loaded and one more. Whatever the others have stored in
between is lost.

> **`Racy.Below.step`**: the word is never more than the number of counts that have ended.

> **`Racy.step_exact`**: it is that number if no store finds the word changed since its load.

> **`Racy.swallowed_run`**: two tasks are enough to lose any number of counts at once, so what is
> lost is not bounded by how many stores find the word changed.
-/

namespace Wt32Router
namespace Lib

/-- Where a task stands. -/
inductive Counting (w : Nat) where
  | idle
  | due
  | loaded (v : BitVec w)
deriving DecidableEq, Repr

structure Racy (τ : Type) (w : Nat) where
  word : BitVec w
  at_ : τ → Counting w

inductive CountStep (τ : Type) where
  | begin (t : τ)
  | load (t : τ)
  | store (t : τ)
deriving DecidableEq, Repr

namespace Racy

def init {τ : Type} {w : Nat} : Racy τ w := ⟨0, fun _ => .idle⟩

variable {τ : Type} {w : Nat}

section

variable [DecidableEq τ]

/-- A step that is not the task's next one changes nothing. -/
def step (c : Racy τ w) : CountStep τ → Racy τ w
  | .begin t =>
    match c.at_ t with
    | .idle => { c with at_ := Function.update c.at_ t .due }
    | _ => c
  | .load t =>
    match c.at_ t with
    | .due => { c with at_ := Function.update c.at_ t (.loaded c.word) }
    | _ => c
  | .store t =>
    match c.at_ t with
    | .loaded v => ⟨v + 1, Function.update c.at_ t .idle⟩
    | _ => c

end

/-- How many counts have ended. -/
def ended (c : Racy τ w) (e : CountStep τ) (n : Nat) : Nat :=
  match e with
  | .store t =>
    match c.at_ t with
    | .loaded _ => n + 1
    | _ => n
  | _ => n

/-- How many have begun. -/
def begun (c : Racy τ w) (e : CountStep τ) (n : Nat) : Nat :=
  match e with
  | .begin t =>
    match c.at_ t with
    | .idle => n + 1
    | _ => n
  | _ => n

/-- Those that have begun have ended, or are some task's. -/
def UnderWay (c : Racy τ w) (b n : Nat) : Prop :=
  ∃ ts : Finset τ, (∀ t, t ∈ ts ↔ c.at_ t ≠ .idle) ∧ b = n + ts.card

/-- A store finds the word as it has been loaded. -/
def Undisturbed (c : Racy τ w) : CountStep τ → Prop
  | .store t => ∀ v, c.at_ t = .loaded v → v = c.word
  | _ => True

/-- The word, and everything that has been loaded of it, is a number of counts that have ended. -/
structure Below (c : Racy τ w) (n : Nat) : Prop where
  word : ∃ k ≤ n, c.word = BitVec.ofNat w k
  loaded : ∀ t v, c.at_ t = .loaded v → ∃ k ≤ n, v = BitVec.ofNat w k

section

variable {c : Racy τ w} {n : Nat} {e : CountStep τ} {t : τ}

theorem below_init : (init : Racy τ w).Below 0 :=
  ⟨⟨0, Nat.le_refl 0, rfl⟩, fun _ _ h => absurd h (by simp [init])⟩

theorem underWay_init : (init : Racy τ w).UnderWay 0 0 :=
  ⟨∅, fun t => by simp [init], rfl⟩

theorem ofNat_succ (k : Nat) : BitVec.ofNat w k + 1 = BitVec.ofNat w (k + 1) :=
  (BitVec.ofNat_add k 1).symm

theorem Below.mono {m : Nat} (h : c.Below n) (hle : n ≤ m) : c.Below m := by
  obtain ⟨k, hk, hword⟩ := h.word
  refine ⟨⟨k, Nat.le_trans hk hle, hword⟩, fun t v hv => ?_⟩
  obtain ⟨j, hj, hload⟩ := h.loaded t v hv
  exact ⟨j, Nat.le_trans hj hle, hload⟩

variable [DecidableEq τ]

/-- A task moves on without a store. -/
theorem Below.move (h : c.Below n) {pc : Counting w}
    (hpc : ∀ v, pc = .loaded v → ∃ k ≤ n, v = BitVec.ofNat w k) :
    ({ c with at_ := Function.update c.at_ t pc } : Racy τ w).Below n := by
  refine ⟨h.word, fun t' v hv => ?_⟩
  dsimp only at hv
  by_cases ht : t' = t
  · subst ht
    rw [Function.update_self] at hv
    exact hpc v hv
  · rw [Function.update_of_ne ht] at hv
    exact h.loaded t' v hv

theorem Below.step (h : c.Below n) (e : CountStep τ) : (c.step e).Below (c.ended e n) := by
  cases e with
  | begin t =>
    show (match c.at_ t with
      | .idle => { c with at_ := Function.update c.at_ t .due }
      | _ => c : Racy τ w).Below n
    cases c.at_ t with
    | idle => exact h.move fun v hv => absurd hv (by simp)
    | due => exact h
    | loaded v => exact h
  | load t =>
    show (match c.at_ t with
      | .due => { c with at_ := Function.update c.at_ t (.loaded c.word) }
      | _ => c : Racy τ w).Below n
    cases c.at_ t with
    | idle => exact h
    | due => exact h.move fun v hv => Counting.loaded.inj hv ▸ h.word
    | loaded v => exact h
  | store t =>
    unfold Racy.step Racy.ended
    dsimp only
    cases hpc : c.at_ t with
    | idle => exact h
    | due => exact h
    | loaded v =>
      obtain ⟨k, hk, rfl⟩ := h.loaded t v hpc
      have hmoved : ({ c with at_ := Function.update c.at_ t .idle } : Racy τ w).Below (n + 1) :=
        (h.mono (Nat.le_succ n)).move fun v hv => absurd hv (by simp)
      exact ⟨⟨k + 1, Nat.succ_le_succ hk, ofNat_succ k⟩, hmoved.loaded⟩

/-- **The word is exact**, where the counts do not get in each other's way. -/
theorem step_exact (hword : c.word = BitVec.ofNat w n) (he : c.Undisturbed e) :
    (c.step e).word = BitVec.ofNat w (c.ended e n) := by
  cases e with
  | begin t =>
    unfold step ended
    dsimp only
    split <;> exact hword
  | load t =>
    unfold step ended
    dsimp only
    split <;> exact hword
  | store t =>
    unfold step ended
    dsimp only
    cases hpc : c.at_ t with
    | idle => exact hword
    | due => exact hword
    | loaded v =>
      show v + 1 = BitVec.ofNat w (n + 1)
      rw [he v hpc, hword, ofNat_succ]

theorem UnderWay.step {b : Nat} (h : c.UnderWay b n) (e : CountStep τ) :
    (c.step e).UnderWay (c.begun e b) (c.ended e n) := by
  obtain ⟨ts, hts, hcard⟩ := h
  cases e with
  | begin t =>
    unfold Racy.step begun ended
    dsimp only
    cases hpc : c.at_ t with
    | due => exact ⟨ts, hts, hcard⟩
    | loaded v => exact ⟨ts, hts, hcard⟩
    | idle =>
      have hout : t ∉ ts := fun hmem => (hts t).mp hmem hpc
      refine ⟨insert t ts, fun t' => ?_, by rw [Finset.card_insert_of_notMem hout, hcard]; rfl⟩
      by_cases ht : t' = t
      · simp [ht]
      · simp [ht, hts]
  | load t =>
    unfold Racy.step begun ended
    dsimp only
    cases hpc : c.at_ t with
    | idle => exact ⟨ts, hts, hcard⟩
    | loaded v => exact ⟨ts, hts, hcard⟩
    | due =>
      refine ⟨ts, fun t' => ?_, hcard⟩
      by_cases ht : t' = t
      · simp [ht, hts, hpc]
      · simp [ht, hts]
  | store t =>
    unfold Racy.step begun ended
    dsimp only
    cases hpc : c.at_ t with
    | idle => exact ⟨ts, hts, hcard⟩
    | due => exact ⟨ts, hts, hcard⟩
    | loaded v =>
      have hin : t ∈ ts := (hts t).mpr (by simp [hpc])
      refine ⟨ts.erase t, fun t' => ?_, ?_⟩
      · by_cases ht : t' = t
        · simp [ht]
        · simp [ht, hts]
      · have hpos := Finset.card_pos.mpr ⟨t, hin⟩
        show b = n + 1 + (ts.erase t).card
        rw [Finset.card_erase_of_mem hin]
        omega

/-- A count that nothing comes into. -/
def count (t : τ) : List (CountStep τ) := [.begin t, .load t, .store t]

/-- Counts of one task between the load and the store of another. -/
def swallowed (a b : τ) (n : Nat) : List (CountStep τ) :=
  [.begin a, .load a] ++ (List.replicate n (count b)).flatten ++ [.store a]

theorem count_run (hidle : c.at_ t = .idle) (n : Nat) :
    (count t).foldl (watch step ended) (c, n) = (⟨c.word + 1, c.at_⟩, n + 1) := by
  have hback : Function.update c.at_ t .idle = c.at_ := by
    rw [← hidle, Function.update_eq_self]
  simp only [count, List.foldl_cons, List.foldl_nil, watch, step, ended, hidle,
    Function.update_self, Function.update_idem, hback]

theorem counts_run (hidle : c.at_ t = .idle) (k n : Nat) :
    ∃ v, (List.replicate k (count t)).flatten.foldl (watch step ended) (c, n) =
      (⟨v, c.at_⟩, n + k) := by
  induction k generalizing c n with
  | zero => exact ⟨c.word, rfl⟩
  | succ k ih =>
    obtain ⟨v, hruns⟩ := ih (c := ⟨c.word + 1, c.at_⟩) hidle (n + 1)
    refine ⟨v, ?_⟩
    rw [List.replicate_succ, List.flatten_cons, List.foldl_append, count_run hidle, hruns,
      Nat.add_right_comm]
    rfl

/-- **Any number of counts is lost at once**, from wherever the word is. -/
theorem swallowed_run {a b : τ} (hab : a ≠ b) (ha : c.at_ a = .idle) (hb : c.at_ b = .idle)
    (k n : Nat) :
    (swallowed a b k).foldl (watch step ended) (c, n) = (⟨c.word + 1, c.at_⟩, n + k + 1) := by
  let c₁ : Racy τ w := ⟨c.word, Function.update c.at_ a (.loaded c.word)⟩
  have hfront : ([.begin a, .load a] : List (CountStep τ)).foldl (watch step ended) (c, n) =
      (c₁, n) := by
    simp [watch, step, ended, ha, c₁]
  have hidle : c₁.at_ b = .idle := by
    show Function.update c.at_ a (.loaded c.word) b = .idle
    rw [Function.update_of_ne (Ne.symm hab), hb]
  have hback : Function.update c.at_ a .idle = c.at_ := by
    rw [← ha, Function.update_eq_self]
  obtain ⟨v, hruns⟩ := counts_run hidle k n
  unfold swallowed
  rw [List.foldl_append, List.foldl_append, hfront, hruns]
  simp [watch, step, ended, c₁, hback]

end

end Racy
end Lib
end Wt32Router
