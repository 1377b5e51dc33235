import Wt32Router.Lib.KeyStore
import Wt32Router.Lib.Runs

/-!
# A record saved by several tasks

A save sets the keys of its record one after the other, and replaces the copy in memory once all of
them are set. No lock is held from one of these steps to the next, so another task's stand between
them.

> **`SharedStore.overlapped_iff`**: two saves that are under way at once leave each part of the
> record as either of them has it, in every combination, and either of the two as the copy.

> **`SharedStore.Turns.step`**: saves that take turns leave what the last of them saved, but for the
> keys that the one under way has set.
-/

namespace Wt32Router
namespace Lib

structure SharedStore (κ ν α τ : Type*) where
  store : κ → Option ν
  cache : Option α
  /-- the record that a task saves, and how many of its keys are set -/
  saving : τ → Option (α × Nat)

inductive StoreStep (α τ : Type*) where
  | begin (t : τ) (a : α)
  | set (t : τ)
  | fail (t : τ)
  | finish (t : τ)
  | erase
deriving DecidableEq, Repr

namespace SharedStore

variable {κ ν α τ : Type*}

section

variable [DecidableEq κ] [DecidableEq τ]

/-- A step that is not the task's next one changes nothing. -/
def step (fields : List (Field κ ν α)) (keeps : Bool) (s : SharedStore κ ν α τ) :
    StoreStep α τ → SharedStore κ ν α τ
  | .begin t a =>
    match s.saving t with
    | none => { s with saving := Function.update s.saving t (some (a, 0)) }
    | some _ => s
  | .set t =>
    match s.saving t with
    | some (a, n) =>
      match fields[n]? with
      | some f =>
        { s with
          store := Function.update s.store f.key (some (f.value a))
          saving := Function.update s.saving t (some (a, n + 1)) }
      | none => s
    | none => s
  | .fail t => { s with saving := Function.update s.saving t none }
  | .finish t =>
    match s.saving t with
    | some (a, n) =>
      if n < fields.length then s
      else
        { s with
          cache := if keeps then some a else s.cache
          saving := Function.update s.saving t none }
    | none => s
  | .erase => { s with store := fun _ => none }

end

/-- How many keys a task's save has set: all of them, when it is over. -/
def sets (fields : List (Field κ ν α)) (s : SharedStore κ ν α τ) (t : τ) : Nat :=
  match s.saving t with
  | some (_, n) => n
  | none => fields.length

section

variable [DecidableEq κ] [DecidableEq τ] (fields : List (Field κ ν α)) (keeps : Bool)

theorem set_cases (s : SharedStore κ ν α τ) (t : τ) :
    s.step fields keeps (.set t) = s ∨ ∃ a n f, s.saving t = some (a, n) ∧ fields[n]? = some f ∧
      s.step fields keeps (.set t) =
        { s with
          store := Function.update s.store f.key (some (f.value a))
          saving := Function.update s.saving t (some (a, n + 1)) } := by
  cases ht : s.saving t with
  | none => exact .inl (by simp [step, ht])
  | some x =>
    cases hf : fields[x.2]? with
    | none => exact .inl (by simp [step, ht, hf])
    | some f => exact .inr ⟨x.1, x.2, f, rfl, hf, by simp [step, ht, hf]⟩

theorem finish_cases (s : SharedStore κ ν α τ) (t : τ) :
    s.step fields keeps (.finish t) = s ∨ ∃ a n, s.saving t = some (a, n) ∧ fields.length ≤ n ∧
      s.step fields keeps (.finish t) =
        { s with
          cache := if keeps then some a else s.cache
          saving := Function.update s.saving t none } := by
  cases ht : s.saving t with
  | none => exact .inl (by simp [step, ht])
  | some x =>
    by_cases hn : x.2 < fields.length
    · exact .inl (by simp [step, ht, hn])
    · exact .inr ⟨x.1, x.2, rfl, Nat.not_lt.mp hn, by simp [step, ht, hn]⟩

/-- A save that nothing comes into. -/
theorem sets_run (store : κ → Option ν) (cache : Option α) (saving : τ → Option (α × Nat)) (t : τ)
    (a : α) (n : Nat) :
    (List.replicate n (StoreStep.set t)).foldl (step fields keeps)
        ⟨store, cache, Function.update saving t (some (a, 0))⟩ =
      ⟨putAll store ((writes fields a).take n), cache,
        Function.update saving t (some (a, min n fields.length))⟩ := by
  induction n with
  | zero => simp [putAll]
  | succ n ih =>
    rw [List.replicate_succ', List.foldl_append, ih, List.foldl_cons, List.foldl_nil]
    cases hf : fields[n]? with
    | none =>
      have hle : fields.length ≤ n := List.getElem?_eq_none_iff.mp hf
      have hlen : (writes fields a).length ≤ n := by simpa [writes] using hle
      rw [List.take_of_length_le hlen, List.take_of_length_le (by omega),
        Nat.min_eq_right hle, Nat.min_eq_right (by omega)]
      simp [step]
    | some f =>
      obtain ⟨hlt, -⟩ := List.getElem?_eq_some_iff.mp hf
      have hwrite : (writes fields a)[n]? = some (f.key, f.value a) := by
        simp [writes, hf]
      rw [List.take_add_one, hwrite, Nat.min_eq_left (by omega), Nat.min_eq_left (by omega)]
      simp [step, hf, putAll, List.foldl_append]

end

/-- Distinct keys at distinct places. -/
theorem key_ne {fields : List (Field κ ν α)} (hkeys : (fields.map Field.key).Nodup) {i n : Nat}
    {f g : Field κ ν α} (hg : fields[i]? = some g) (hf : fields[n]? = some f) (hne : i ≠ n) :
    g.key ≠ f.key := by
  intro heq
  have hi : (fields.map Field.key)[i]? = some g.key := by rw [List.getElem?_map, hg]; rfl
  have hn : (fields.map Field.key)[n]? = some f.key := by rw [List.getElem?_map, hf]; rfl
  obtain ⟨hlt, -⟩ := List.getElem?_eq_some_iff.mp hi
  exact hne ((List.getElem?_inj hlt hkeys).mp (by rw [hi, hn, heq]))

/-- A store with a value of each field's own choice. -/
theorem exists_store [DecidableEq κ] {fields : List (Field κ ν α)}
    (hkeys : (fields.map Field.key).Nodup) {P : Field κ ν α → ν → Prop}
    (h : ∀ f ∈ fields, ∃ v, P f v) (store : κ → Option ν) :
    ∃ store' : κ → Option ν, (∀ f ∈ fields, ∃ v, store' f.key = some v ∧ P f v) ∧
      ∀ k, k ∉ fields.map Field.key → store' k = store k := by
  induction fields with
  | nil => exact ⟨store, fun _ hf => absurd hf List.not_mem_nil, fun _ _ => rfl⟩
  | cons f fs ih =>
    rw [List.map_cons, List.nodup_cons] at hkeys
    obtain ⟨v, hv⟩ := h f List.mem_cons_self
    obtain ⟨store', hpick, hout⟩ := ih hkeys.2 fun g hg => h g (List.mem_cons_of_mem _ hg)
    refine ⟨Function.update store' f.key (some v), fun g hg => ?_, fun k hk => ?_⟩
    · obtain rfl | hg := List.mem_cons.mp hg
      · exact ⟨v, Function.update_self _ _ _, hv⟩
      · have hne : g.key ≠ f.key := fun heq => hkeys.1 (heq ▸ List.mem_map_of_mem hg)
        obtain ⟨w, hw, hP⟩ := hpick g hg
        exact ⟨w, (Function.update_of_ne hne _ _).trans hw, hP⟩
    · rw [List.map_cons, List.mem_cons, not_or] at hk
      exact (Function.update_of_ne hk.1 _ _).trans (hout k hk.2)

/-! ## Two saves at once -/

/-- A step of a save that has begun and does not fail. -/
def GoesOn : StoreStep α τ → Prop
  | .set _ | .finish _ => True
  | _ => False

/-- What the copy may be behind both. -/
def Copied (keeps : Bool) (old : Option α) (a b : α) (cache : Option α) : Prop :=
  if keeps then cache = some a ∨ cache = some b else cache = old

/-- Where the saves of `a` and `b` have come to. Each key holds what one of them has set, if any
    has. -/
structure Merging (fields : List (Field κ ν α)) (keeps : Bool) (old : SharedStore κ ν α τ)
    (t u : τ) (a b : α) (s : SharedStore κ ν α τ) : Prop where
  left : ∀ c n, s.saving t = some (c, n) → c = a ∧ n ≤ fields.length
  right : ∀ c n, s.saving u = some (c, n) → c = b ∧ n ≤ fields.length
  rest : ∀ v, v ≠ t → v ≠ u → s.saving v = none
  keys : ∀ i f, fields[i]? = some f → s.store f.key = some (f.value a) ∨
    s.store f.key = some (f.value b) ∨ (s.sets fields t ≤ i ∧ s.sets fields u ≤ i)
  outside : ∀ k, k ∉ fields.map Field.key → s.store k = old.store k
  copy : (s.cache = old.cache ∧ s.saving t ≠ none ∧ s.saving u ≠ none) ∨
    Copied keeps old.cache a b s.cache

section

variable {fields : List (Field κ ν α)} {keeps : Bool} {old s : SharedStore κ ν α τ} {t u : τ}
  {a b : α}

theorem Copied.symm {o c : Option α} (h : Copied keeps o a b c) : Copied keeps o b a c := by
  cases keeps with
  | true => exact Or.symm h
  | false => exact h

theorem Merging.symm (h : Merging fields keeps old t u a b s) :
    Merging fields keeps old u t b a s where
  left := h.right
  right := h.left
  rest v hu ht := h.rest v ht hu
  keys i f hf := by
    obtain ha | hb | ⟨ht, hu⟩ := h.keys i f hf
    · exact .inr (.inl ha)
    · exact .inl hb
    · exact .inr (.inr ⟨hu, ht⟩)
  outside := h.outside
  copy := h.copy.imp (fun h => ⟨h.1, h.2.2, h.2.1⟩) Copied.symm

variable [DecidableEq κ] [DecidableEq τ]

theorem Merging.set (h : Merging fields keeps old t u a b s)
    (hkeys : (fields.map Field.key).Nodup) (htu : t ≠ u) :
    Merging fields keeps old t u a b (s.step fields keeps (.set t)) := by
  obtain heq | ⟨c, n, f, hsaving, hf, heq⟩ := set_cases fields keeps s t
  · rw [heq]
    exact h
  obtain ⟨rfl, -⟩ := h.left c n hsaving
  obtain ⟨hlt, -⟩ := List.getElem?_eq_some_iff.mp hf
  rw [heq]
  have hu : Function.update s.saving t (some (c, n + 1)) u = s.saving u :=
    Function.update_of_ne (Ne.symm htu) _ _
  refine ⟨fun c' n' hc => ?_, fun c' n' hc => ?_, fun v hvt hvu => ?_, fun i g hg => ?_,
    fun k hk => ?_, ?_⟩
  · dsimp only at hc
    rw [Function.update_self] at hc
    obtain ⟨rfl, rfl⟩ := Prod.mk.inj (Option.some.inj hc)
    exact ⟨rfl, hlt⟩
  · dsimp only at hc
    rw [hu] at hc
    exact h.right c' n' hc
  · exact (Function.update_of_ne hvt _ _).trans (h.rest v hvt hvu)
  · by_cases hi : i = n
    · subst hi
      obtain rfl : g = f := Option.some.inj (hg.symm.trans hf)
      exact .inl (Function.update_self _ _ _)
    · have hstore : Function.update s.store f.key (some (f.value c)) g.key = s.store g.key :=
        Function.update_of_ne (key_ne hkeys hg hf hi) _ _
      obtain ha | hb | ⟨hst, hsu⟩ := h.keys i g hg
      · exact .inl (hstore.trans ha)
      · exact .inr (.inl (hstore.trans hb))
      · refine .inr (.inr ⟨?_, ?_⟩)
        · have hn : n ≤ i := by simpa [sets, hsaving] using hst
          simp only [sets, Function.update_self]
          omega
        · simpa only [sets, hu] using hsu
  · have hne : k ≠ f.key := fun heq => hk (heq ▸ List.mem_map_of_mem (List.mem_of_getElem? hf))
    exact (Function.update_of_ne hne _ _).trans (h.outside k hk)
  · obtain ⟨hcache, -, hbusy⟩ | hcopied := h.copy
    · refine .inl ⟨hcache, ?_, ?_⟩
      · simp
      · dsimp only
        rwa [hu]
    · exact .inr hcopied

theorem Merging.finish (h : Merging fields keeps old t u a b s) (htu : t ≠ u) :
    Merging fields keeps old t u a b (s.step fields keeps (.finish t)) := by
  obtain heq | ⟨c, n, hsaving, hle, heq⟩ := finish_cases fields keeps s t
  · rw [heq]
    exact h
  obtain ⟨rfl, hn⟩ := h.left c n hsaving
  rw [heq]
  have hu : Function.update s.saving t none u = s.saving u :=
    Function.update_of_ne (Ne.symm htu) _ _
  refine ⟨fun c' n' hc => ?_, fun c' n' hc => ?_, fun v hvt hvu => ?_, fun i g hg => ?_,
    h.outside, ?_⟩
  · simp at hc
  · dsimp only at hc
    rw [hu] at hc
    exact h.right c' n' hc
  · exact (Function.update_of_ne hvt _ _).trans (h.rest v hvt hvu)
  · obtain ha | hb | ⟨hst, hsu⟩ := h.keys i g hg
    · exact .inl ha
    · exact .inr (.inl hb)
    · refine .inr (.inr ⟨?_, ?_⟩)
      · have hni : n ≤ i := by simpa [sets, hsaving] using hst
        simp only [sets, Function.update_self]
        omega
      · simpa only [sets, hu] using hsu
  · refine .inr ?_
    unfold Copied
    cases keeps with
    | true => exact .inl rfl
    | false =>
      obtain ⟨hcache, -⟩ | hcopied := h.copy
      · exact hcache
      · exact hcopied

theorem Merging.step (h : Merging fields keeps old t u a b s)
    (hkeys : (fields.map Field.key).Nodup) (htu : t ≠ u) {e : StoreStep α τ} (he : GoesOn e) :
    Merging fields keeps old t u a b (s.step fields keeps e) := by
  cases e with
  | begin _ _ | fail _ | erase => exact he.elim
  | set v =>
    by_cases hvt : v = t
    · subst hvt
      exact h.set hkeys htu
    by_cases hvu : v = u
    · subst hvu
      exact (h.symm.set hkeys (Ne.symm htu)).symm
    · have hsame : s.step fields keeps (.set v) = s := by
        simp [SharedStore.step, h.rest v hvt hvu]
      rw [hsame]
      exact h
  | finish v =>
    by_cases hvt : v = t
    · subst hvt
      exact h.finish htu
    by_cases hvu : v = u
    · subst hvu
      exact (h.symm.finish (Ne.symm htu)).symm
    · have hsame : s.step fields keeps (.finish v) = s := by
        simp [SharedStore.step, h.rest v hvt hvu]
      rw [hsame]
      exact h

/-- Both saves have begun, and each has set `n` keys. -/
def bothAt (t u : τ) (a b : α) (n : Nat) : τ → Option (α × Nat) :=
  Function.update (Function.update (fun _ => none) t (some (a, n))) u (some (b, n))

theorem bothAt_left (htu : t ≠ u) (n : Nat) : bothAt t u a b n t = some (a, n) :=
  (Function.update_of_ne htu _ _).trans (Function.update_self _ _ _)

theorem bothAt_right (n : Nat) : bothAt t u a b n u = some (b, n) := Function.update_self _ _ _

theorem bothAt_comm (htu : t ≠ u) (n : Nat) : bothAt t u a b n = bothAt u t b a n :=
  Function.update_comm htu _ _ _

/-- The later of the two decides. -/
theorem round {store : κ → Option ν} {cache : Option α} {f : Field κ ν α} {n : Nat} (htu : t ≠ u)
    (hf : fields[n]? = some f) :
    ([.set u, .set t] : List (StoreStep α τ)).foldl (step fields keeps)
        ⟨store, cache, bothAt t u a b n⟩ =
      ⟨Function.update store f.key (some (f.value a)), cache, bothAt t u a b (n + 1)⟩ := by
  have hu : (⟨store, cache, bothAt t u a b n⟩ : SharedStore κ ν α τ).step fields keeps (.set u) =
      ⟨Function.update store f.key (some (f.value b)), cache,
        Function.update (bothAt t u a b n) u (some (b, n + 1))⟩ := by
    simp only [step, bothAt_right, hf]
  have ht : Function.update (bothAt t u a b n) u (some (b, n + 1)) t = some (a, n) :=
    (Function.update_of_ne htu _ _).trans (bothAt_left htu n)
  have hboth : Function.update (Function.update (bothAt t u a b n) u (some (b, n + 1))) t
      (some (a, n + 1)) = bothAt t u a b (n + 1) := by
    unfold bothAt
    rw [Function.update_idem, Function.update_comm htu, Function.update_idem,
      Function.update_comm (Ne.symm htu)]
  rw [List.foldl_cons, hu, List.foldl_cons, List.foldl_nil]
  simp only [step, ht, hf, Function.update_idem, hboth]

/-- Every choice of the later one, key by key. -/
theorem rounds (keeps : Bool) (cache : Option α) (htu : t ≠ u) {store' : κ → Option ν}
    {fs : List (Field κ ν α)}
    (hpick : ∀ f ∈ fs, store' f.key = some (f.value a) ∨ store' f.key = some (f.value b))
    {n : Nat} (hfs : fields.drop n = fs) (store : κ → Option ν) :
    ∃ es : List (StoreStep α τ), (∀ e ∈ es, GoesOn e) ∧
      es.foldl (step fields keeps) ⟨store, cache, bothAt t u a b n⟩ =
        ⟨fun k => if k ∈ fs.map Field.key then store' k else store k, cache,
          bothAt t u a b (n + fs.length)⟩ := by
  induction fs generalizing n store with
  | nil => exact ⟨[], fun _ h => absurd h List.not_mem_nil, by simp⟩
  | cons f fs ih =>
    have hf : fields[n]? = some f := by
      have hhead : (fields.drop n)[0]? = fields[n + 0]? := List.getElem?_drop
      rw [hfs] at hhead
      exact hhead.symm
    have hrest : fields.drop (n + 1) = fs := by
      rw [← List.drop_drop, hfs]
      rfl
    have hround : ∃ es : List (StoreStep α τ), (∀ e ∈ es, GoesOn e) ∧
        es.foldl (step fields keeps) ⟨store, cache, bothAt t u a b n⟩ =
          ⟨Function.update store f.key (store' f.key), cache, bothAt t u a b (n + 1)⟩ := by
      obtain ha | hb := hpick f List.mem_cons_self
      · refine ⟨[.set u, .set t], by simp [GoesOn], ?_⟩
        rw [round htu hf, ha]
      · refine ⟨[.set t, .set u], by simp [GoesOn], ?_⟩
        rw [bothAt_comm htu, round (Ne.symm htu) hf, hb, bothAt_comm htu]
    obtain ⟨es, hes, hrun⟩ := hround
    obtain ⟨es', hes', hrun'⟩ := ih (fun g hg => hpick g (List.mem_cons_of_mem _ hg)) hrest
      (Function.update store f.key (store' f.key))
    refine ⟨es ++ es', List.forall_mem_append.mpr ⟨hes, hes'⟩, ?_⟩
    rw [List.foldl_append, hrun, hrun', List.length_cons, Nat.add_right_comm, Nat.add_assoc]
    congr 1
    funext k
    by_cases hk : k ∈ fs.map Field.key
    · simp [hk]
    · by_cases hkf : k = f.key
      · subst hkf
        simp [hk]
      · simp [hk, hkf]

/-- The later of the two is the copy. -/
theorem finish_both (htu : t ≠ u) {store : κ → Option ν} {cache : Option α} {n : Nat}
    (hn : fields.length ≤ n) :
    ([.finish u, .finish t] : List (StoreStep α τ)).foldl (step fields keeps)
        ⟨store, cache, bothAt t u a b n⟩ =
      ⟨store, if keeps then some a else cache, fun _ => none⟩ := by
  have hlt : ¬ n < fields.length := Nat.not_lt.mpr hn
  have ht : Function.update (bothAt t u a b n) u none t = some (a, n) :=
    (Function.update_of_ne htu _ _).trans (bothAt_left htu n)
  have hidle : Function.update (Function.update (bothAt t u a b n) u none) t none =
      fun _ => none := by
    funext v
    by_cases hvt : v = t
    · simp [hvt]
    · by_cases hvu : v = u
      · simp [hvu, Ne.symm htu]
      · simp [bothAt, hvt, hvu]
  rw [List.foldl_cons, List.foldl_cons, List.foldl_nil]
  simp only [step, bothAt_right, hlt, if_false, ht, hidle]
  cases keeps <;> rfl

/-- **Two saves at once**, both of them to their end: exactly every mixture. -/
theorem overlapped_iff (hkeys : (fields.map Field.key).Nodup) (keeps : Bool) (htu : t ≠ u) (a b : α)
    (store store' : κ → Option ν) (cache cache' : Option α) :
    (∃ es : List (StoreStep α τ), (∀ e ∈ es, GoesOn e) ∧
      es.foldl (step fields keeps) ⟨store, cache, bothAt t u a b 0⟩ =
        ⟨store', cache', fun _ => none⟩) ↔
      (∀ f ∈ fields, store' f.key = some (f.value a) ∨ store' f.key = some (f.value b)) ∧
        (∀ k, k ∉ fields.map Field.key → store' k = store k) ∧ Copied keeps cache a b cache' := by
  constructor
  · rintro ⟨es, hes, hrun⟩
    have hstart : Merging fields keeps ⟨store, cache, fun _ => none⟩ t u a b
        ⟨store, cache, bothAt t u a b 0⟩ := by
      refine ⟨fun c n hc => ?_, fun c n hc => ?_, fun v hvt hvu => by simp [bothAt, hvt, hvu],
        fun i f _ => .inr (.inr ⟨?_, ?_⟩), fun _ _ => rfl, .inl ⟨rfl, ?_, ?_⟩⟩
      · obtain ⟨rfl, rfl⟩ := Prod.mk.inj (Option.some.inj ((bothAt_left htu 0).symm.trans hc))
        exact ⟨rfl, Nat.zero_le _⟩
      · obtain ⟨rfl, rfl⟩ := Prod.mk.inj (Option.some.inj ((bothAt_right 0).symm.trans hc))
        exact ⟨rfl, Nat.zero_le _⟩
      · simp only [sets, bothAt_left htu]
        exact Nat.zero_le _
      · simp only [sets, bothAt_right]
        exact Nat.zero_le _
      · simp [bothAt_left htu]
      · simp [bothAt_right]
    have hend := (along_events.mpr hes).invariant hstart fun _ _ h he => h.step hkeys htu he
    rw [hrun] at hend
    refine ⟨fun f hf => ?_, hend.outside, ?_⟩
    · obtain ⟨i, hi⟩ := List.mem_iff_getElem?.mp hf
      obtain ⟨hlt, -⟩ := List.getElem?_eq_some_iff.mp hi
      obtain ha | hb | ⟨hle, -⟩ := hend.keys i f hi
      · exact .inl ha
      · exact .inr hb
      · exact absurd hlt (Nat.not_lt.mpr hle)
    · obtain ⟨-, hbusy, -⟩ | hcopied := hend.copy
      · exact absurd rfl hbusy
      · exact hcopied
  · rintro ⟨hpick, hout, hcopied⟩
    obtain ⟨es, hes, hrun⟩ := rounds keeps cache htu hpick List.drop_zero store
    have hstore : (fun k => if k ∈ fields.map Field.key then store' k else store k) = store' := by
      funext k
      by_cases hk : k ∈ fields.map Field.key
      · rw [if_pos hk]
      · rw [if_neg hk, hout k hk]
    rw [hstore, Nat.zero_add] at hrun
    have hends : ∃ fs : List (StoreStep α τ), (∀ e ∈ fs, GoesOn e) ∧
        fs.foldl (step fields keeps) ⟨store', cache, bothAt t u a b fields.length⟩ =
          ⟨store', cache', fun _ => none⟩ := by
      cases keeps with
      | false =>
        obtain rfl : cache' = cache := hcopied
        exact ⟨[.finish u, .finish t], by simp [GoesOn], finish_both htu (Nat.le_refl _)⟩
      | true =>
        obtain rfl | rfl := hcopied
        · exact ⟨[.finish u, .finish t], by simp [GoesOn], finish_both htu (Nat.le_refl _)⟩
        · refine ⟨[.finish t, .finish u], by simp [GoesOn], ?_⟩
          rw [bothAt_comm htu]
          exact finish_both (Ne.symm htu) (Nat.le_refl _)
    obtain ⟨fs, hfs, hend⟩ := hends
    refine ⟨es ++ fs, List.forall_mem_append.mpr ⟨hes, hfs⟩, ?_⟩
    rw [List.foldl_append, hrun, hend]

end

/-! ## Saves that take turns -/

/-- A save begins where none is under way, and so is the store erased. -/
def InTurn (s : SharedStore κ ν α τ) : StoreStep α τ → Prop
  | .begin _ _ | .erase => ∀ t, s.saving t = none
  | _ => True

/-- What was stored last, in a store that may have been erased. Behind a save that has failed there
    is no saying. -/
def stored (fields : List (Field κ ν α)) (s : SharedStore κ ν α τ) (e : StoreStep α τ)
    (last : Option (Option α)) : Option (Option α) :=
  match e with
  | .finish t =>
    match s.saving t with
    | some (a, n) => if n < fields.length then last else some (some a)
    | none => last
  | .fail t => if (s.saving t).isSome then none else last
  | .erase => some none
  | _ => last

/-- How many keys the save under way has set, if it is the task's. -/
def front (s : SharedStore κ ν α τ) (t : τ) : Nat :=
  match s.saving t with
  | some (_, n) => n
  | none => 0

structure Turns (fields : List (Field κ ν α)) (keeps : Bool) (s : SharedStore κ ν α τ)
    (last : Option (Option α)) : Prop where
  one : ∀ t u, s.saving t ≠ none → s.saving u ≠ none → t = u
  new : ∀ t a n, s.saving t = some (a, n) → ∀ i f, i < n → fields[i]? = some f →
    s.store f.key = some (f.value a)
  old : ∀ c, last = some c → ∀ i f, fields[i]? = some f → (∀ t, s.front t ≤ i) →
    s.store f.key = c.map f.value
  copy : ∀ a, last = some (some a) → keeps = true → s.cache = some a

section

variable {fields : List (Field κ ν α)} {keeps : Bool} {s : SharedStore κ ν α τ}
  {last : Option (Option α)} {t : τ}

theorem turns_start (hidle : ∀ t, s.saving t = none) : Turns fields keeps s none where
  one t _ ht := absurd (hidle t) ht
  new t _ _ ht := absurd (ht.symm.trans (hidle t)) (by simp)
  old _ hc := absurd hc (by simp)
  copy _ ha := absurd ha (by simp)

theorem front_idle (h : s.saving t = none) : s.front t = 0 := by
  unfold front
  rw [h]

/-- What is read while a save is under way, if the supply should go: the keys that are set, and what
    was stored last behind them. -/
theorem Turns.stores_busy {c : Option α} (h : Turns fields keeps s (some c)) {b : α} {n : Nat}
    (hsaving : s.saving t = some (b, n)) (a : α) :
    Stores fields s.store a ↔ (∀ f ∈ fields.take n, f.reads (some (f.value b)) a) ∧
      ∀ f ∈ fields.drop n, f.reads (c.map f.value) a := by
  have hfront : ∀ v, s.front v ≤ n := by
    intro v
    by_cases hv : s.saving v = none
    · rw [front_idle hv]
      exact Nat.zero_le n
    · obtain rfl := h.one v t hv (by rw [hsaving]; exact Option.some_ne_none _)
      simp [front, hsaving]
  have hnew : ∀ f ∈ fields.take n, s.store f.key = some (f.value b) := by
    intro f hf
    obtain ⟨i, hi, rfl⟩ := List.mem_take_iff_getElem.mp hf
    exact h.new t b n hsaving i _ (by omega) (List.getElem?_eq_getElem _)
  have hold : ∀ f ∈ fields.drop n, s.store f.key = c.map f.value := by
    intro f hf
    obtain ⟨i, hi, rfl⟩ := List.mem_drop_iff_getElem.mp hf
    exact h.old c rfl (n + i) _ (List.getElem?_eq_getElem _)
      fun v => Nat.le_trans (hfront v) (Nat.le_add_right n i)
  have hparts := List.take_append_drop n fields
  unfold Stores
  constructor
  · intro hread
    refine ⟨fun f hf => ?_, fun f hf => ?_⟩
    · rw [← hnew f hf]
      exact hread f (List.mem_of_mem_take hf)
    · rw [← hold f hf]
      exact hread f (List.mem_of_mem_drop hf)
  · rintro ⟨htake, hdrop⟩ f hf
    rw [← hparts, List.mem_append] at hf
    obtain hf | hf := hf
    · rw [hnew f hf]
      exact htake f hf
    · rw [hold f hf]
      exact hdrop f hf

/-- What is read while none is. -/
theorem Turns.stores_quiet {c : Option α} (h : Turns fields keeps s (some c))
    (hidle : ∀ t, s.saving t = none) (a : α) :
    Stores fields s.store a ↔ ∀ f ∈ fields, f.reads (c.map f.value) a := by
  have hold : ∀ f ∈ fields, s.store f.key = c.map f.value := by
    intro f hf
    obtain ⟨i, hi⟩ := List.mem_iff_getElem?.mp hf
    exact h.old c rfl i f hi fun v => (front_idle (hidle v)).symm ▸ Nat.zero_le i
  unfold Stores
  exact forall₂_congr fun f hf => by rw [hold f hf]

variable [DecidableEq τ]

theorem Turns.begin (h : Turns fields keeps s last) (hidle : ∀ t, s.saving t = none) (a : α) :
    Turns fields keeps { s with saving := Function.update s.saving t (some (a, 0)) } last := by
  have hother : ∀ v, v ≠ t → Function.update s.saving t (some (a, 0)) v = none :=
    fun v hv => (Function.update_of_ne hv _ _).trans (hidle v)
  refine ⟨fun v w hv hw => ?_, fun v b n hv i f hi _ => ?_, fun c hc i f hf _ => ?_, h.copy⟩
  · have hvt : v = t := by_contra fun hne => hv (hother v hne)
    have hwt : w = t := by_contra fun hne => hw (hother w hne)
    rw [hvt, hwt]
  · dsimp only at hv
    by_cases hvt : v = t
    · subst hvt
      rw [Function.update_self] at hv
      obtain ⟨-, rfl⟩ := Prod.mk.inj (Option.some.inj hv)
      exact absurd hi (Nat.not_lt_zero i)
    · exact absurd ((hother v hvt).symm.trans hv) (by simp)
  · exact h.old c hc i f hf fun v => by simp [front_idle (hidle v)]

theorem Turns.fail (h : Turns fields keeps s last) (hbusy : s.saving t ≠ none) :
    Turns fields keeps { s with saving := Function.update s.saving t none } none := by
  have hidle : ∀ v, Function.update s.saving t none v = none := by
    intro v
    by_cases hvt : v = t
    · rw [hvt, Function.update_self]
    · rw [Function.update_of_ne hvt]
      exact by_contra fun hv => hvt (h.one v t hv hbusy)
  exact turns_start hidle

theorem Turns.finish (h : Turns fields keeps s last) {a : α} {n : Nat}
    (hsaving : s.saving t = some (a, n)) (hn : fields.length ≤ n) :
    Turns fields keeps
      { s with
        cache := if keeps then some a else s.cache
        saving := Function.update s.saving t none } (some (some a)) := by
  have hall := h.fail (t := t) (by rw [hsaving]; exact Option.some_ne_none _)
  refine ⟨hall.one, hall.new, fun c hc i f hf _ => ?_, fun b hb hkeeps => ?_⟩
  · obtain rfl := Option.some.inj hc
    obtain ⟨hlt, -⟩ := List.getElem?_eq_some_iff.mp hf
    exact h.new t a n hsaving i f (Nat.lt_of_lt_of_le hlt hn) hf
  · rw [← Option.some.inj hb]
    exact if_pos hkeeps

variable [DecidableEq κ]

theorem Turns.set (h : Turns fields keeps s last) (hkeys : (fields.map Field.key).Nodup) :
    Turns fields keeps (s.step fields keeps (.set t)) last := by
  obtain heq | ⟨a, n, f, hsaving, hf, heq⟩ := set_cases fields keeps s t
  · rw [heq]
    exact h
  rw [heq]
  have hbusy : ∀ v, Function.update s.saving t (some (a, n + 1)) v ≠ none → s.saving v ≠ none := by
    intro v hv
    by_cases hvt : v = t
    · rw [hvt, hsaving]
      exact Option.some_ne_none _
    · rwa [Function.update_of_ne hvt] at hv
  have hstore : ∀ i g, fields[i]? = some g → i ≠ n →
      Function.update s.store f.key (some (f.value a)) g.key = s.store g.key :=
    fun i g hg hi => Function.update_of_ne (key_ne hkeys hg hf hi) _ _
  refine ⟨fun v w hv hw => h.one v w (hbusy v hv) (hbusy w hw), fun v b m hv i g hi hg => ?_,
    fun c hc i g hg hfront => ?_, h.copy⟩
  · dsimp only at hv
    obtain rfl : v = t :=
      h.one v t (hbusy v (by rw [hv]; exact Option.some_ne_none _))
        (by rw [hsaving]; exact Option.some_ne_none _)
    rw [Function.update_self] at hv
    obtain ⟨rfl, rfl⟩ := Prod.mk.inj (Option.some.inj hv)
    by_cases hin : i = n
    · subst hin
      obtain rfl : g = f := Option.some.inj (hg.symm.trans hf)
      exact Function.update_self _ _ _
    · exact (hstore i g hg hin).trans (h.new v a n hsaving i g (by omega) hg)
  · have hnext : n + 1 ≤ i := by simpa [front] using hfront t
    refine (hstore i g hg (by omega)).trans (h.old c hc i g hg fun v => ?_)
    by_cases hvt : v = t
    · subst hvt
      simp only [front, hsaving]
      omega
    · simpa [front, hvt] using hfront v

/-- **Saves that take turns.** What was stored last is what there is, behind the keys that the save
    under way has set. -/
theorem Turns.step (h : Turns fields keeps s last) (hkeys : (fields.map Field.key).Nodup)
    {e : StoreStep α τ} (he : InTurn s e) :
    Turns fields keeps (s.step fields keeps e) (stored fields s e last) := by
  cases e with
  | begin t a =>
    have hstep : s.step fields keeps (.begin t a) =
        { s with saving := Function.update s.saving t (some (a, 0)) } := by
      simp only [SharedStore.step, he t]
    rw [hstep]
    exact h.begin he a
  | set t => exact h.set hkeys
  | fail t =>
    show Turns fields keeps { s with saving := Function.update s.saving t none }
      (if (s.saving t).isSome then none else last)
    by_cases hbusy : s.saving t = none
    · have hsame : Function.update s.saving t none = s.saving := by
        rw [← hbusy, Function.update_eq_self]
      rw [hsame, hbusy]
      exact h
    · rw [if_pos (Option.isSome_iff_ne_none.mpr hbusy)]
      exact h.fail hbusy
  | finish t =>
    cases hsaving : s.saving t with
    | none => simpa only [SharedStore.step, stored, hsaving] using h
    | some x =>
      obtain ⟨a, n⟩ := x
      by_cases hn : n < fields.length
      · simpa only [SharedStore.step, stored, hsaving, if_pos hn] using h
      · simpa only [SharedStore.step, stored, hsaving, if_neg hn] using
          h.finish hsaving (Nat.not_lt.mp hn)
  | erase =>
    refine ⟨h.one, fun t a n ht => absurd (ht.symm.trans (he t)) (by simp), fun c hc i f _ _ => ?_,
      fun a ha => absurd ha (by simp [stored])⟩
    obtain rfl := Option.some.inj hc
    rfl

end

end SharedStore
end Lib
end Wt32Router
