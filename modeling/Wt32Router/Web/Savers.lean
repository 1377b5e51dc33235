import Wt32Router.Lib.SharedStore
import Wt32Router.Web.Saving

/-!
# The settings, saved by two tasks

The worker of the web server saves a setting (`admin_post_handler`), and so does the console
(`cmd_admin`), which can erase them as well (`cmd_factory_reset`). Against each other's saves they
have a mutex around the copy in memory: "Reachable from both the httpd worker task [...] and the
serial console task [...], so the cache is protected by a mutex." None is around the keys in flash,
which are set one by one. A load fills the copy where there is none, and nothing below depends on
it.

> **`overlapped_saves_iff`**: two saves at once leave every mixture of the two in flash, and either
> of them as the copy.

> **`saves_in_turn`**: where they take turns, the next boot finds the last of them, or the keys of
> the one that the supply has cut short in front of it.
-/

namespace Wt32Router
namespace Web

open Lib (Along Device SharedStore StoreStep along_watch ascii watch)
open Lib.SharedStore (Copied GoesOn InTurn Turns bothAt stored)

inductive Saver where
  | httpd
  | console
deriving DecidableEq, Repr

section

variable {α β : Type}

def Setting.step (S : Setting α β) (s : SharedStore String NvsValue α Saver)
    (e : StoreStep α Saver) : SharedStore String NvsValue α Saver :=
  s.step S.fields S.cached e

/-- No save is under way. -/
def atRest (d : Device (Option Namespace) α) : SharedStore String NvsValue α Saver :=
  ⟨opened d.store, d.cache, fun _ => none⟩

/-- What the next boot loads, should the supply go now. -/
def Setting.nextBoot (S : Setting α β) (s : SharedStore String NvsValue α Saver) : β :=
  S.view (S.load (some s.store))

/-- The steps of a save. -/
def Setting.saveSteps (S : Setting α β) (t : Saver) (new : α) :
    Option Fault → List (StoreStep α Saver)
  | some .open => []
  | some (.call n) => .begin t new :: List.replicate n (.set t) ++ [.fail t]
  | none => .begin t new :: List.replicate S.fields.length (.set t) ++ [.finish t]

/-- A save that no other comes into leaves what it leaves where there is no other task. -/
theorem save_alone (S : Setting α β) (d : Device (Option Namespace) α) (t : Saver) (new : α)
    (fault : Option Fault) :
    (S.saveSteps t new fault).foldl S.step (atRest d) = atRest (S.save d new fault).2 := by
  have hsets : ∀ n, (.begin t new :: List.replicate n (.set t)).foldl S.step (atRest d) =
      ⟨Lib.putAll (opened d.store) ((Lib.writes S.fields new).take n), d.cache,
        Function.update (fun _ => none) t (some (new, min n S.fields.length))⟩ :=
    fun n => SharedStore.sets_run S.fields S.cached (opened d.store) d.cache (fun _ => none) t new n
  have hback : ∀ n, Function.update (Function.update (fun _ => none) t (some (new, n))) t none =
      (fun _ => none : Saver → Option (α × Nat)) := by
    intro n
    rw [Function.update_idem, Function.update_eq_self]
  cases fault with
  | some fault =>
    cases fault with
    | «open» => rfl
    | call n =>
      unfold Setting.saveSteps
      rw [List.foldl_append, hsets, List.foldl_cons, List.foldl_nil]
      simp only [Setting.step, SharedStore.step, hback]
      rfl
  | none =>
    have hall : (Lib.writes S.fields new).length ≤ S.fields.length := by simp [Lib.writes]
    unfold Setting.saveSteps
    rw [List.foldl_append, hsets, List.foldl_cons, List.foldl_nil, Nat.min_self,
      List.take_of_length_le hall]
    simp only [Setting.step, SharedStore.step, Function.update_self, Nat.lt_irrefl, if_false, hback]
    rfl

theorem nextBoot_iff (S : Setting α β) (s : SharedStore String NvsValue α Saver) (c : α) :
    S.nextBoot s = S.view c ↔ Lib.Stores S.fields s.store c :=
  S.reads (some s.store) c

/-! ## Two saves at once -/

/-- Both have begun, and have set no key yet. -/
def Setting.together (S : Setting α β) (d : Device (Option Namespace) α) (a b : α) :
    SharedStore String NvsValue α Saver :=
  [.begin .httpd a, .begin .console b].foldl S.step (atRest d)

/-- **Two saves of a setting at once**, both of which succeed. The next boot loads any record each
    part of which is as one of them has it, and this boot goes on with either. -/
theorem overlapped_saves_iff (S : Setting α β) (d : Device (Option Namespace) α) (a b c : α)
    (copy : Option α) :
    (∃ es : List (StoreStep α Saver), (∀ e ∈ es, GoesOn e) ∧
      ∃ s, es.foldl S.step (S.together d a b) = s ∧ (∀ t, s.saving t = none) ∧
        S.nextBoot s = S.view c ∧ s.cache = copy) ↔
      (∀ f ∈ S.fields, f.reads (some (f.value a)) c ∨ f.reads (some (f.value b)) c) ∧
        Copied S.cached d.cache a b copy := by
  have hne : Saver.httpd ≠ .console := by decide
  have hmerge : ∀ store' copy', (∃ es : List (StoreStep α Saver), (∀ e ∈ es, GoesOn e) ∧
      es.foldl S.step (S.together d a b) = ⟨store', copy', fun _ => none⟩) ↔ _ :=
    fun store' copy' => SharedStore.overlapped_iff S.keys S.cached hne a b (opened d.store)
      store' d.cache copy'
  constructor
  · rintro ⟨es, hes, ⟨store', copy', saving'⟩, hrun, hidle, hread, rfl⟩
    obtain rfl : saving' = fun _ => none := funext hidle
    obtain ⟨hpick, -, hcopied⟩ := (hmerge store' copy').mp ⟨es, hes, hrun⟩
    refine ⟨fun f hf => ?_, hcopied⟩
    have hf' := (nextBoot_iff S _ c).mp hread f hf
    obtain ha | hb := hpick f hf
    · exact .inl (ha ▸ hf')
    · exact .inr (hb ▸ hf')
  · rintro ⟨hparts, hcopied⟩
    have hchoice : ∀ f ∈ S.fields, ∃ v,
        (v = f.value a ∨ v = f.value b) ∧ f.reads (some v) c := by
      intro f hf
      obtain ha | hb := hparts f hf
      · exact ⟨_, .inl rfl, ha⟩
      · exact ⟨_, .inr rfl, hb⟩
    obtain ⟨store', hpick, hout⟩ := SharedStore.exists_store S.keys hchoice (opened d.store)
    have hpair : ∀ f ∈ S.fields, store' f.key = some (f.value a) ∨
        store' f.key = some (f.value b) := by
      intro f hf
      obtain ⟨v, hv, hab, -⟩ := hpick f hf
      obtain rfl | rfl := hab
      · exact .inl hv
      · exact .inr hv
    obtain ⟨es, hes, hrun⟩ := (hmerge store' copy).mpr ⟨hpair, hout, hcopied⟩
    refine ⟨es, hes, _, hrun, fun _ => rfl, (nextBoot_iff S _ c).mpr fun f hf => ?_, rfl⟩
    obtain ⟨v, hv, -, hread⟩ := hpick f hf
    show f.reads (store' f.key) c
    rw [hv]
    exact hread

/-- Two that save a name and a password. Neither pair opens the device when it has restarted. -/
example :
    let pairs := authSetting.together ⟨none, none⟩ ⟨ascii "farmer", ascii "tractor1"⟩
      ⟨ascii "guest", ascii "letmein2"⟩
    let s := [.set .httpd, .set .console, .set .console, .set .httpd, .finish .httpd,
      .finish .console].foldl authSetting.step pairs
    s.cache = some ⟨ascii "guest", ascii "letmein2"⟩ ∧
      authSetting.nextBoot s = ⟨ascii "guest", ascii "tractor1"⟩ := by
  decide +kernel

/-! ## Saves that take turns -/

/-- **Saves that take turns**, with erasures between them. Once the last of them is known, what the
    next boot loads is that, or the defaults, behind the keys that the save under way has set. -/
theorem saves_in_turn (S : Setting α β) (d : Device (Option Namespace) α)
    (es : List (StoreStep α Saver)) (h : Along S.step InTurn (atRest d) es)
    {s : SharedStore String NvsValue α Saver} {last : Option α}
    (hrun : es.foldl (watch S.step (stored S.fields)) (atRest d, none) = (s, some last)) (c : α) :
    (∀ t b n, s.saving t = some (b, n) → (S.nextBoot s = S.view c ↔
      (∀ f ∈ S.fields.take n, f.reads (some (f.value b)) c) ∧
        ∀ f ∈ S.fields.drop n, f.reads (last.map f.value) c)) ∧
    ((∀ t, s.saving t = none) →
      (S.nextBoot s = S.view c ↔ ∀ f ∈ S.fields, f.reads (last.map f.value) c)) ∧
    (∀ a, last = some a → S.cached = true → s.cache = some a) := by
  have hturns : Turns S.fields S.cached s (some last) := by
    have hwatched := (along_watch (stored S.fields) (atRest d, none)).mpr h
    have hend := hwatched.invariant (I := fun s => Turns S.fields S.cached s.1 s.2)
      (SharedStore.turns_start fun _ => rfl) fun _ _ hI hok => hI.step S.keys hok
    rw [hrun] at hend
    exact hend
  refine ⟨fun t b n hsaving => ?_, fun hidle => ?_, fun a ha => hturns.copy a (ha ▸ rfl)⟩
  · exact (nextBoot_iff S s c).trans (hturns.stores_busy hsaving c)
  · exact (nextBoot_iff S s c).trans (hturns.stores_quiet hidle c)

end

/-! ### The admin's name and password -/

def farmer : AuthCfg := ⟨ascii "farmer", ascii "tractor1"⟩
def guest : AuthCfg := ⟨ascii "guest", ascii "letmein2"⟩

/-- The supply goes between the two keys of the console's save. -/
def cutSave : List (StoreStep AuthCfg Saver) :=
  [.begin .httpd farmer, .set .httpd, .set .httpd, .finish .httpd, .begin .console guest,
    .set .console]

theorem saves_in_turn_cut :
    authSetting.nextBoot (cutSave.foldl authSetting.step (atRest ⟨none, none⟩)) =
      ⟨ascii "guest", ascii "tractor1"⟩ := by
  have hturn : Along authSetting.step InTurn (atRest ⟨none, none⟩) cutSave :=
    ⟨fun _ => rfl, trivial, trivial, trivial, fun t => by cases t <;> rfl, trivial, trivial⟩
  refine ((saves_in_turn authSetting ⟨none, none⟩ cutSave hturn (Prod.ext rfl rfl)
    ⟨ascii "guest", ascii "tractor1"⟩).1 .console guest 1 rfl).mpr ⟨fun f hf => ?_, fun f hf => ?_⟩
  · obtain rfl := List.mem_singleton.mp hf
    rfl
  · obtain rfl := List.mem_singleton.mp hf
    rfl

end Web
end Wt32Router
