import Mathlib.Data.List.Basic
import Mathlib.Logic.Function.Basic

/-!
# A record kept under several keys

A store holds values by key, and a record is put into it one key after the other. A write that
fails stops the rest, and those before it stand: what is read back then is the new record up to
there and the old one behind. So it is the old record exactly where each value that was written
reads as the old one's.

A reader may keep the record it has read. The copy lasts until the next boot.
-/

namespace Wt32Router
namespace Lib

variable {κ ν σ α β : Type*}

/-! ## Keys and values -/

/-- A part of a record: its key, its value, and when what stands under the key is read as it. -/
structure Field (κ ν α : Type*) where
  key : κ
  value : α → ν
  reads : Option ν → α → Prop

def putAll [DecidableEq κ] (s : κ → Option ν) (ws : List (κ × ν)) : κ → Option ν :=
  ws.foldl (fun s w => Function.update s w.1 (some w.2)) s

def writes (fields : List (Field κ ν α)) (a : α) : List (κ × ν) :=
  fields.map fun f => (f.key, f.value a)

/-- The store is read as `a`. -/
def Stores (fields : List (Field κ ν α)) (s : κ → Option ν) (a : α) : Prop :=
  ∀ f ∈ fields, f.reads (s f.key) a

section

variable [DecidableEq κ] {s : κ → Option ν} {fields : List (Field κ ν α)} {new a : α}

theorem putAll_of_not_mem {k : κ} (h : k ∉ fields.map Field.key) :
    putAll s (writes fields new) k = s k := by
  induction fields generalizing s with
  | nil => rfl
  | cons f fields ih =>
    rw [List.map_cons, List.mem_cons, not_or] at h
    exact (ih (s := Function.update s f.key (some (f.value new))) h.2).trans
      (Function.update_of_ne h.1 _ _)

theorem putAll_of_mem (hkeys : (fields.map Field.key).Nodup) {f : Field κ ν α} (hf : f ∈ fields) :
    putAll s (writes fields new) f.key = some (f.value new) := by
  induction fields generalizing s with
  | nil => exact absurd hf List.not_mem_nil
  | cons g fields ih =>
    rw [List.map_cons, List.nodup_cons] at hkeys
    obtain rfl | hf := List.mem_cons.mp hf
    · exact (putAll_of_not_mem hkeys.1).trans (Function.update_self _ _ _)
    · exact ih hkeys.2 hf

/-- **After the first `n` writes**: the new values up to there, and the old ones behind. -/
theorem stores_putAll_take (hkeys : (fields.map Field.key).Nodup) (n : Nat) :
    Stores fields (putAll s ((writes fields new).take n)) a ↔
      (∀ f ∈ fields.take n, f.reads (some (f.value new)) a) ∧
        ∀ f ∈ fields.drop n, f.reads (s f.key) a := by
  have hcut : (writes fields new).take n = writes (fields.take n) new := List.map_take.symm
  have hparts := List.take_append_drop n fields
  have hkeys' : ((fields.take n ++ fields.drop n).map Field.key).Nodup := by
    rw [hparts]
    exact hkeys
  rw [List.map_append, List.nodup_append] at hkeys'
  obtain ⟨hfirst, -, hapart⟩ := hkeys'
  have hnew : ∀ f ∈ fields.take n, putAll s (writes (fields.take n) new) f.key =
      some (f.value new) := fun f hf => putAll_of_mem hfirst hf
  have hold : ∀ f ∈ fields.drop n, putAll s (writes (fields.take n) new) f.key = s f.key := by
    intro f hf
    exact putAll_of_not_mem fun hmem => hapart _ hmem _ (List.mem_map_of_mem hf) rfl
  unfold Stores
  rw [hcut]
  constructor
  · intro h
    refine ⟨fun f hf => ?_, fun f hf => ?_⟩
    · rw [← hnew f hf]
      exact h f (List.mem_of_mem_take hf)
    · rw [← hold f hf]
      exact h f (List.mem_of_mem_drop hf)
  · rintro ⟨htake, hdrop⟩ f hf
    rw [← hparts, List.mem_append] at hf
    obtain hf | hf := hf
    · rw [hnew f hf]
      exact htake f hf
    · rw [hold f hf]
      exact hdrop f hf

/-- A store that was read as `a` is so still, where what was written is. -/
theorem stores_interrupted (hkeys : (fields.map Field.key).Nodup) (h : Stores fields s a)
    (n : Nat) : Stores fields (putAll s ((writes fields new).take n)) a ↔
      ∀ f ∈ fields.take n, f.reads (some (f.value new)) a := by
  rw [stores_putAll_take hkeys]
  exact and_iff_left fun f hf => h f (List.mem_of_mem_drop hf)

theorem stores_written (hkeys : (fields.map Field.key).Nodup) :
    Stores fields (putAll s (writes fields new)) a ↔
      ∀ f ∈ fields, f.reads (some (f.value new)) a := by
  have h : Stores fields (putAll s ((writes fields new).take fields.length)) a ↔ _ :=
    stores_putAll_take hkeys fields.length
  rw [List.take_of_length_le (by simp [writes]), List.take_length,
    List.drop_length] at h
  rw [h]
  exact and_iff_left fun f hf => absurd hf List.not_mem_nil

end

/-! ## A copy in memory -/

/-- What is stored, and what the reader keeps of it. -/
structure Device (σ α : Type*) where
  store : σ
  cache : Option α

inductive Later where
  | load
  | reboot
deriving DecidableEq, Repr

section

variable {read : σ → α} {keeps : Bool} {d : Device σ α} {view : α → β} {v : β}

/-- A load: of the copy, or of the store, and then perhaps a copy is kept. -/
def Device.load (read : σ → α) (keeps : Bool) (d : Device σ α) : α × Device σ α :=
  match d.cache with
  | some a => (a, d)
  | none => (read d.store, if keeps then { d with cache := some (read d.store) } else d)

def Device.reboot (d : Device σ α) : Device σ α := { d with cache := none }

/-- What the loads return, of a boot and of those after it. -/
def Device.loads (read : σ → α) (keeps : Bool) : Device σ α → List Later → List α
  | _, [] => []
  | d, .load :: es => (d.load read keeps).1 :: (d.load read keeps).2.loads read keeps es
  | d, .reboot :: es => d.reboot.loads read keeps es

/-- Every load shows `v` now: the one of a copy, if there is one, and the one of the store. -/
def Device.Shows (read : σ → α) (view : α → β) (d : Device σ α) (v : β) : Prop :=
  (∀ a, d.cache = some a → view a = v) ∧ view (read d.store) = v

theorem Device.Shows.load (h : d.Shows read view v) :
    view (d.load read keeps).1 = v ∧ (d.load read keeps).2.Shows read view v := by
  unfold Device.load
  cases hc : d.cache with
  | some a => exact ⟨h.1 a hc, h⟩
  | none =>
    refine ⟨h.2, ?_⟩
    dsimp only
    split
    · exact ⟨fun a ha => Option.some.inj ha ▸ h.2, h.2⟩
    · exact h

/-- **What every later load returns**, of a copy that shows it: it is a matter of the store. -/
theorem Device.loads_iff (read : σ → α) (keeps : Bool)
    (hcache : ∀ a, d.cache = some a → view a = v) :
    (∀ es, ∀ a ∈ d.loads read keeps es, view a = v) ↔ view (read d.store) = v := by
  constructor
  · intro h
    exact h [.reboot, .load] (read d.store) List.mem_cons_self
  · intro hstore es
    have hshows : d.Shows read view v := ⟨hcache, hstore⟩
    clear hcache hstore
    induction es generalizing d with
    | nil => exact fun a ha => absurd ha List.not_mem_nil
    | cons e es ih =>
      cases e with
      | load =>
        intro a ha
        obtain rfl | ha := List.mem_cons.mp ha
        · exact hshows.load.1
        · exact ih hshows.load.2 a ha
      | reboot =>
        have hreboot : d.reboot.Shows read view v :=
          ⟨fun a ha => absurd ha (by simp [Device.reboot]), hshows.2⟩
        exact ih hreboot

end

end Lib
end Wt32Router
