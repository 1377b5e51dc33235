import Wt32Router.Lib.Slots
import Mathlib.Data.Fintype.Card
import Mathlib.Data.Finset.Card
import Mathlib.Data.List.Dedup
import Mathlib.Data.List.Pairwise

/-!
# The records used last

A table of fixed size that remembers, of each key, the record noted last, and where there are
more keys than slots gives up the one whose record is oldest. A record carries its time, a
slot nothing has been written to has time 0, and the history of what was noted (`List α`,
newest first) is what the table is held against.

> **`Recent.present`**: a key is still in the table as long as fewer other keys have been
> noted since as there are slots.

What carries a run is `Recent`, and what is asked of the write is only where it goes
(`Chosen`): to the slot of its key, or if there is none to one whose time is least.
-/

namespace Wt32Router
namespace Lib

variable {ι α κ : Type*}

section

variable [DecidableEq κ] (key : α → κ) (stamp : α → Nat)

/-- The record of `k` noted last, in a history. -/
def latest (k : κ) (hist : List α) : Option α := hist.find? fun a => key a == k

/-- The other keys noted since `k` was. -/
def othersSince (k : κ) (hist : List α) : List κ :=
  ((hist.takeWhile fun a => key a != k).map key).dedup

/-- Where a record of `k` is written to. -/
inductive Chosen (t : ι → α) (k : κ) (s : ι) : Prop where
  | hit (live : 0 < stamp (t s)) (hkey : key (t s) = k)
  | miss (absent : ∀ i, 0 < stamp (t i) → key (t i) ≠ k) (least : ∀ i, stamp (t s) ≤ stamp (t i))

/-- **The table against its history.** A slot holds the last record of its key, no two slots
    hold one key, and a key that was noted and is not in the table is older than all that is. -/
structure Recent (t : ι → α) (hist : List α) : Prop where
  sorted : hist.Pairwise fun a b => stamp b < stamp a
  kept : ∀ i, 0 < stamp (t i) → latest key (key (t i)) hist = some (t i)
  unique : KeyUnique (fun a => 0 < stamp a) key t
  gone : ∀ k a, latest key k hist = some a → (∀ i, 0 < stamp (t i) → key (t i) ≠ k) →
    ∀ i, stamp a < stamp (t i)

end

section

variable [DecidableEq κ] {key : α → κ} {stamp : α → Nat} {t : ι → α} {hist : List α}
  {k : κ} {a b : α} {s i : ι}

/-! ## Histories -/

theorem latest_mem (h : latest key k hist = some a) : a ∈ hist := List.mem_of_find?_eq_some h

theorem latest_key (h : latest key k hist = some a) : key a = k := by
  have hfound := List.find?_some h
  exact beq_iff_eq.mp hfound

theorem latest_cons_self : latest key (key a) (a :: hist) = some a := by
  apply List.find?_cons_of_pos
  exact beq_self_eq_true _

theorem latest_cons_other (h : key a ≠ k) : latest key k (a :: hist) = latest key k hist := by
  apply List.find?_cons_of_neg
  exact fun heq => h (beq_iff_eq.mp heq)

/-- Two records of one history with one time are one record. -/
theorem eq_of_stamp (hs : hist.Pairwise fun a b => stamp b < stamp a) (ha : a ∈ hist)
    (hb : b ∈ hist) (heq : stamp a = stamp b) : a = b := by
  induction hist with
  | nil => exact absurd ha List.not_mem_nil
  | cons x xs ih =>
    obtain ⟨hx, hxs⟩ := List.pairwise_cons.mp hs
    rcases List.mem_cons.mp ha with rfl | ha'
    · rcases List.mem_cons.mp hb with rfl | hb'
      · rfl
      · exact absurd heq (Nat.ne_of_gt (hx b hb'))
    · rcases List.mem_cons.mp hb with rfl | hb'
      · exact absurd heq (Nat.ne_of_lt (hx a ha'))
      · exact ih hxs ha' hb'

/-- What is younger than the last record of `k` was noted since. -/
theorem mem_takeWhile_of_stamp (hs : hist.Pairwise fun a b => stamp b < stamp a)
    (hlast : latest key k hist = some a) (hb : b ∈ hist) (hlt : stamp a < stamp b) :
    b ∈ hist.takeWhile fun a => key a != k := by
  induction hist with
  | nil => exact absurd hb List.not_mem_nil
  | cons x xs ih =>
    obtain ⟨hx, hxs⟩ := List.pairwise_cons.mp hs
    by_cases hk : key x = k
    · -- then the first record is the last one of `k`, and nothing is younger
      have hax : a = x := by
        have hself : latest key (key x) (x :: xs) = some x := latest_cons_self
        rw [hk, hlast] at hself
        exact Option.some.inj hself
      subst hax
      rcases List.mem_cons.mp hb with rfl | hb
      · exact absurd hlt (Nat.lt_irrefl _)
      · exact absurd hlt (Nat.lt_asymm (hx b hb))
    · rw [latest_cons_other hk] at hlast
      have hpast : (key x != k) = true := bne_iff_ne.mpr hk
      rw [List.takeWhile_cons_of_pos (p := fun a => key a != k) hpast]
      rcases List.mem_cons.mp hb with rfl | hb
      · exact List.mem_cons_self
      · exact List.mem_cons_of_mem _ (ih hxs hlast hb)

/-! ## The table -/

theorem Recent.start (h : ∀ i, stamp (t i) = 0) : Recent key stamp t [] where
  sorted := List.Pairwise.nil
  kept i hi := absurd (h i) (Nat.ne_of_gt hi)
  unique i _ hi := absurd (h i) (Nat.ne_of_gt hi)
  gone _ _ hlast := absurd hlast (by simp [latest])

theorem Recent.mem (h : Recent key stamp t hist) (hi : 0 < stamp (t i)) : t i ∈ hist :=
  latest_mem (h.kept i hi)

/-- No other slot holds the key of the one that is written. -/
theorem Recent.other_key (h : Recent key stamp t hist) (hs : Chosen key stamp t k s)
    (hi : 0 < stamp (t i)) (hne : i ≠ s) : key (t i) ≠ k := by
  cases hs with
  | hit live hkey => exact fun heq => hne (h.unique i s hi live (heq.trans hkey.symm))
  | miss absent _ => exact absent i hi

/-- What makes room is older than all that stays. -/
theorem Recent.least_lt (h : Recent key stamp t hist) (hs : 0 < stamp (t s))
    (hleast : ∀ i, stamp (t s) ≤ stamp (t i)) (hne : i ≠ s) : stamp (t s) < stamp (t i) := by
  apply lt_of_le_of_ne (hleast i)
  intro heq
  have hi : 0 < stamp (t i) := heq ▸ hs
  have hsame : t s = t i := eq_of_stamp h.sorted (h.mem hs) (h.mem hi) heq
  exact hne (h.unique i s hi hs (congrArg key hsame.symm))

/-- **The write.** A new record goes to the slot of its key, or takes the oldest one's. -/
theorem Recent.note [DecidableEq ι] (h : Recent key stamp t hist)
    (hs : Chosen key stamp t (key a) s) (hpos : 0 < stamp a)
    (hnew : ∀ b ∈ hist, stamp b < stamp a) :
    Recent key stamp (Function.update t s a) (a :: hist) := by
  have hself : Function.update t s a s = a := Function.update_self s a t
  have hother : ∀ {i}, i ≠ s → Function.update t s a i = t i :=
    fun hne => Function.update_of_ne hne a t
  refine ⟨List.pairwise_cons.mpr ⟨hnew, h.sorted⟩, ?_, ?_, ?_⟩
  · intro i hi
    by_cases his : i = s
    · rw [his, hself]
      exact latest_cons_self
    · rw [hother his] at hi ⊢
      rw [latest_cons_other (h.other_key hs hi his).symm]
      exact h.kept i hi
  · refine h.unique.write s (fun j hj hlive => ?_) (fun _ j hj hlive => ?_)
    · rw [hother hj] at hlive ⊢
      exact ⟨hlive, rfl⟩
    · rw [hself]
      rw [hother hj] at hlive ⊢
      exact h.other_key hs hlive hj
  · intro k b hlast habsent i
    have hk : key a ≠ k := by
      have hkey := habsent s
      rw [hself] at hkey
      exact hkey hpos
    rw [latest_cons_other hk] at hlast
    have hb : stamp b < stamp a := hnew b (latest_mem hlast)
    by_cases hwas : 0 < stamp (t s) ∧ key (t s) = k
    · -- the key has just been given up: its record was the oldest
      obtain ⟨hlive, hkey⟩ := hwas
      have hbs : b = t s := by
        have hkept := h.kept s hlive
        rw [hkey, hlast] at hkept
        exact Option.some.inj hkept
      cases hs with
      | hit _ hkey' => exact absurd (hkey'.symm.trans hkey) hk
      | miss _ hleast =>
        by_cases his : i = s
        · rw [his, hself]
          exact hb
        · rw [hother his, hbs]
          exact h.least_lt hlive hleast his
    · -- it was not in the table before either
      have hgone := h.gone k b hlast fun j hj hjk => by
        by_cases hjs : j = s
        · rw [hjs] at hj hjk
          exact hwas ⟨hj, hjk⟩
        · exact habsent j (by rw [hother hjs]; exact hj) (by rw [hother hjs]; exact hjk)
      by_cases his : i = s
      · rw [his, hself]
        exact hb
      · rw [hother his]
        exact hgone i

/-- **A key stays as long as too few others have come since.** -/
theorem Recent.present [Fintype ι] (h : Recent key stamp t hist)
    (hlast : latest key k hist = some a)
    (hfew : (othersSince key k hist).length < Fintype.card ι) : ∃ i, 0 < stamp (t i) ∧ t i = a := by
  by_contra habsent
  have hnokey : ∀ i, 0 < stamp (t i) → key (t i) ≠ k := by
    intro i hi hkey
    have hkept := h.kept i hi
    rw [hkey, hlast] at hkept
    exact habsent ⟨i, hi, (Option.some.inj hkept).symm⟩
  have hyounger := h.gone k a hlast hnokey
  have hlive : ∀ i, 0 < stamp (t i) := fun i => Nat.zero_lt_of_lt (hyounger i)
  -- so every slot holds a key of its own, noted since
  have hmem : ∀ i, key (t i) ∈ othersSince key k hist := by
    intro i
    apply List.mem_dedup.mpr
    exact List.mem_map_of_mem
      (mem_takeWhile_of_stamp h.sorted hlast (h.mem (hlive i)) (hyounger i))
  have hinj : Function.Injective fun i => key (t i) :=
    fun i j hij => h.unique i j (hlive i) (hlive j) hij
  have hcard : Fintype.card ι ≤ (othersSince key k hist).length :=
    calc Fintype.card ι = (Finset.univ.image fun i => key (t i)).card :=
          (Finset.card_image_of_injective _ hinj).symm
      _ ≤ (othersSince key k hist).toFinset.card := by
          apply Finset.card_le_card
          intro x hx
          obtain ⟨i, -, rfl⟩ := Finset.mem_image.mp hx
          exact List.mem_toFinset.mpr (hmem i)
      _ ≤ (othersSince key k hist).length := List.toFinset_card_le _
  exact absurd hfew (Nat.not_lt.mpr hcard)

end

end Lib
end Wt32Router
