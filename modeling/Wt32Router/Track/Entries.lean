import Wt32Router.Lib.Slots
import Wt32Router.Track.Clients

/-!
# One client's entry

The table of clients is searched by MAC, and no two entries in use have the same
(`ClientUnique`). So what an operation does to the table it does to each client's entry
(`entryOf`), and for the address and the time it was first seen on there are three kinds:

* accounting a frame replaces the entry of its sender with `accountClient` of it, and no other
  (`entryOf_account`);
* the first half of a tick drops entries (`entryOf_sweep`);
* everything else fills in addresses that are missing, unconfirmed (`Fills`).
-/

namespace Wt32Router
namespace Track

open Dhcp (Ip Mac)

def entryOf (t : ClientTable) (mac : Mac) : Option Client := (findLocked t mac).map t.clients

def ClientUnique (t : ClientTable) : Prop :=
  Lib.KeyUnique (fun e : Client => e.active = true) Client.mac t.clients

/-- A client's entry stays, or has an address filled in, and a new one is unconfirmed. -/
def Fills (t t' : ClientTable) : Prop :=
  ∀ mac, match entryOf t mac with
    | none => ∀ e', entryOf t' mac = some e' → e'.ipSinceUs = 0
    | some e => ∃ e', entryOf t' mac = some e' ∧
        (e'.ip = e.ip ∧ e'.ipSinceUs = e.ipSinceUs ∨ e.ip = 0 ∧ e'.ipSinceUs = 0)

section

variable {t t' t'' : ClientTable} {mac m : Mac} {now : Nat} {i : ClientSlot} {e : Client}

/-! ## Reading and writing -/

theorem entryOf_of_find (h : findLocked t mac = some i) : entryOf t mac = some (t.clients i) := by
  unfold entryOf
  rw [h]
  rfl

theorem entryOf_of_slot (hu : ClientUnique t) (hi : (t.clients i).active = true) :
    entryOf t (t.clients i).mac = some (t.clients i) := by
  cases hfind : findLocked t (t.clients i).mac with
  | none => exact absurd rfl (findLocked_none hfind hi)
  | some j =>
    obtain ⟨hj, hmac⟩ := findLocked_some hfind
    rw [entryOf_of_find hfind, hu j i hj hi hmac]

/-- One slot rewritten, which is not another client's before or after. -/
theorem entryOf_set_other (hbefore : (t.clients i).active = true → (t.clients i).mac ≠ m)
    (hafter : e.active = true → e.mac ≠ m) : entryOf (t.set i e) m = entryOf t m := by
  have hfind : findLocked (t.set i e) m = findLocked t m := by
    unfold findLocked
    congr 1
    funext j
    by_cases hji : j = i
    · subst hji
      rw [ClientTable.set_same]
      have hb : ((t.clients j).active && (t.clients j).mac == m) = false := by
        simpa [Bool.and_eq_false_iff] using hbefore
      have ha : (e.active && e.mac == m) = false := by
        simpa [Bool.and_eq_false_iff] using hafter
      rw [hb, ha]
    · rw [t.set_other e hji]
  unfold entryOf
  rw [hfind]
  cases hf : findLocked t m with
  | none => rfl
  | some j =>
    obtain ⟨hj, hmac⟩ := findLocked_some hf
    have hji : j ≠ i := by
      rintro rfl
      exact hbefore hj hmac
    exact congrArg some (t.set_other e hji)

theorem ClientUnique.set (hu : ClientUnique t) (hi : (t.clients i).active = true)
    (hmac : e.mac = (t.clients i).mac) : ClientUnique (t.set i e) :=
  hu.weaken fun j hj => by
    by_cases hji : j = i
    · subst hji
      rw [ClientTable.set_same]
      exact ⟨hi, hmac.symm⟩
    · rw [t.set_other e hji] at hj ⊢
      exact ⟨hj, rfl⟩

theorem entryOf_set_same (hu : ClientUnique t) (hi : (t.clients i).active = true)
    (hactive : e.active = true) (hmac : e.mac = (t.clients i).mac) :
    entryOf (t.set i e) e.mac = some e := by
  have hsame : (t.set i e).clients i = e := ClientTable.set_same t i e
  have hslot := entryOf_of_slot (hu.set hi hmac) (i := i) (by rw [hsame]; exact hactive)
  rwa [hsame] at hslot

theorem ClientUnique.findOrCreate (hu : ClientUnique t)
    (h : findOrCreateLocked t mac now = some (t', i)) : ClientUnique t' := by
  rcases findOrCreateLocked_cases h with ⟨-, rfl⟩ | ⟨hnone, -, rfl⟩
  · exact hu
  · refine Lib.KeyUnique.write hu i (fun j hj hactive => ?_) (fun _ j hj hactive => ?_)
    · rw [t.set_other _ hj] at hactive ⊢
      exact ⟨hactive, rfl⟩
    · rw [t.set_other _ hj] at hactive ⊢
      rw [ClientTable.set_same]
      exact findLocked_none hnone hactive

theorem entryOf_findOrCreate (h : findOrCreateLocked t mac now = some (t', i)) :
    (entryOf t mac = some (t'.clients i) ∨
      entryOf t mac = none ∧ (t'.clients i).ip = 0 ∧ (t'.clients i).ipSinceUs = 0) ∧
    ∀ m, m ≠ mac → entryOf t' m = entryOf t m := by
  rcases findOrCreateLocked_cases h with ⟨hfind, rfl⟩ | ⟨hnone, hfree, rfl⟩
  · exact ⟨.inl (entryOf_of_find hfind), fun _ _ => rfl⟩
  · refine ⟨.inr ⟨by unfold entryOf; rw [hnone]; rfl, by simp, by simp⟩, fun m hm => ?_⟩
    exact entryOf_set_other (fun hactive => absurd (hfree.symm.trans hactive) (by simp))
      fun _ => Ne.symm hm

theorem entryOf_created_set (hu : ClientUnique t)
    (h : findOrCreateLocked t mac now = some (t', i)) (hactive : e.active = true)
    (hmac : e.mac = mac) :
    ClientUnique (t'.set i e) ∧ entryOf (t'.set i e) mac = some e ∧
      ∀ m, m ≠ mac → entryOf (t'.set i e) m = entryOf t m := by
  obtain ⟨hi, himac⟩ := findOrCreateLocked_entry h
  have hu' := hu.findOrCreate h
  have hsame : e.mac = (t'.clients i).mac := hmac.trans himac.symm
  refine ⟨hu'.set hi hsame, hmac ▸ entryOf_set_same hu' hi hactive hsame, fun m hm => ?_⟩
  rw [entryOf_set_other (fun _ heq => hm (heq.symm.trans himac))
    (fun _ heq => hm (heq.symm.trans hmac))]
  exact (entryOf_findOrCreate h).2 m hm

/-! ## Filling in -/

theorem Fills.refl : Fills t t := by
  intro mac
  cases he : entryOf t mac with
  | none => exact fun e' he' => absurd he' (by simp)
  | some e => exact ⟨e, rfl, .inl ⟨rfl, rfl⟩⟩

theorem Fills.trans (h : Fills t t') (h' : Fills t' t'') : Fills t t'' := by
  intro mac
  have h := h mac
  have h' := h' mac
  cases he : entryOf t mac with
  | none =>
    rw [he] at h
    intro e'' he''
    cases he' : entryOf t' mac with
    | none =>
      rw [he'] at h'
      exact h' e'' he''
    | some e' =>
      rw [he'] at h'
      obtain ⟨e₂, he₂, hcase⟩ := h'
      obtain rfl : e₂ = e'' := Option.some.inj (he₂.symm.trans he'')
      rcases hcase with ⟨-, hsince⟩ | ⟨-, hsince⟩
      · exact hsince.trans (h e' he')
      · exact hsince
  | some e =>
    rw [he] at h
    obtain ⟨e', he', hcase⟩ := h
    rw [he'] at h'
    obtain ⟨e'', he'', hcase'⟩ := h'
    refine ⟨e'', he'', ?_⟩
    rcases hcase with ⟨hip, hsince⟩ | ⟨hip, hsince⟩
    · rcases hcase' with ⟨hip', hsince'⟩ | ⟨hip', hsince'⟩
      · exact .inl ⟨hip'.trans hip, hsince'.trans hsince⟩
      · exact .inr ⟨hip.symm.trans hip', hsince'⟩
    · rcases hcase' with ⟨-, hsince'⟩ | ⟨-, hsince'⟩
      · exact .inr ⟨hip, hsince'.trans hsince⟩
      · exact .inr ⟨hip, hsince'⟩

/-- An entry found or made, and rewritten with at most an address filled in. -/
theorem fills_set (hu : ClientUnique t) (h : findOrCreateLocked t mac now = some (t', i))
    (hactive : e.active = true) (hmac : e.mac = mac)
    (he : e.ip = (t'.clients i).ip ∧ e.ipSinceUs = (t'.clients i).ipSinceUs ∨
      (t'.clients i).ip = 0 ∧ e.ipSinceUs = 0) :
    ClientUnique (t'.set i e) ∧ Fills t (t'.set i e) := by
  obtain ⟨hu', hself, hothers⟩ := entryOf_created_set hu h hactive hmac
  refine ⟨hu', fun m => ?_⟩
  by_cases hm : m = mac
  · subst hm
    rcases (entryOf_findOrCreate h).1 with hsome | ⟨hnone, -, hsince⟩
    · rw [hsome]
      exact ⟨e, hself, he⟩
    · rw [hnone]
      intro e' he'
      obtain rfl : e = e' := Option.some.inj (hself.symm.trans he')
      exact he.elim (fun h => h.2.trans hsince) fun h => h.2
  · rw [hothers m hm]
    exact Fills.refl m

theorem updateClientIpLocked_fills {ip : Ip} (h0 : e.ip = 0) :
    (updateClientIpLocked e ip).ip = e.ip ∧ (updateClientIpLocked e ip).ipSinceUs = e.ipSinceUs ∨
      e.ip = 0 ∧ (updateClientIpLocked e ip).ipSinceUs = 0 := by
  unfold updateClientIpLocked
  split
  · exact .inl ⟨rfl, rfl⟩
  · exact .inr ⟨h0, rfl⟩

@[simp] theorem updateClientIpLocked_active {ip : Ip} :
    (updateClientIpLocked e ip).active = e.active := by
  unfold updateClientIpLocked
  split <;> rfl

@[simp] theorem updateClientIpLocked_mac {ip : Ip} :
    (updateClientIpLocked e ip).mac = e.mac := by
  unfold updateClientIpLocked
  split <;> rfl

theorem fills_assigned {ofBridge : Bool} {ip : Ip} {hostname : List UInt8} (hu : ClientUnique t) :
    ClientUnique (onClientIpAssigned t now ofBridge mac ip hostname) ∧
      Fills t (onClientIpAssigned t now ofBridge mac ip hostname) := by
  unfold onClientIpAssigned
  split
  · cases hfc : findOrCreateLocked t mac now with
    | none => exact ⟨hu, .refl⟩
    | some r =>
      obtain ⟨t₁, i⟩ := r
      obtain ⟨hi, himac⟩ := findOrCreateLocked_entry hfc
      refine fills_set hu hfc ?_ ?_ ?_
      · split <;> split <;> simp [hi]
      · split <;> split <;> simp [himac]
      · split
        · split
          · exact updateClientIpLocked_fills ‹_›
          · exact .inl ⟨rfl, rfl⟩
        · split
          · exact updateClientIpLocked_fills ‹_›
          · exact .inl ⟨rfl, rfl⟩
  · exact ⟨hu, .refl⟩

theorem fills_resolveClient (now : Nat) {answer : Mac × Ip} (hu : ClientUnique t) :
    ClientUnique (resolveClient now t answer) ∧ Fills t (resolveClient now t answer) := by
  unfold resolveClient
  cases hfc : findOrCreateLocked t answer.1 now with
  | none => exact ⟨hu, .refl⟩
  | some r =>
    obtain ⟨t₁, i⟩ := r
    obtain ⟨hi, himac⟩ := findOrCreateLocked_entry hfc
    dsimp only
    split
    · refine fills_set hu hfc ?_ ?_ (updateClientIpLocked_fills ‹_›)
      · simp [hi]
      · simp [himac]
    · -- the entry may have been made, and then it is as made
      have hset : t₁ = t₁.set i (t₁.clients i) := by
        unfold ClientTable.set
        rw [Function.update_eq_self]
      rw [hset]
      exact fills_set hu hfc hi himac (.inl ⟨rfl, rfl⟩)

theorem fills_stationListed (now : Nat) {sta : Mac × Int} (hu : ClientUnique t) :
    ClientUnique (stationListed now t sta) ∧ Fills t (stationListed now t sta) := by
  unfold stationListed
  cases hfc : findOrCreateLocked t sta.1 now with
  | none => exact ⟨hu, .refl⟩
  | some r =>
    obtain ⟨t₁, i⟩ := r
    obtain ⟨hi, himac⟩ := findOrCreateLocked_entry hfc
    exact fills_set hu hfc hi himac (.inl ⟨rfl, rfl⟩)

theorem fills_foldl {α : Type*} {f : ClientTable → α → ClientTable}
    (hf : ∀ t a, ClientUnique t → ClientUnique (f t a) ∧ Fills t (f t a)) (as : List α)
    (hu : ClientUnique t) : ClientUnique (as.foldl f t) ∧ Fills t (as.foldl f t) := by
  induction as generalizing t with
  | nil => exact ⟨hu, .refl⟩
  | cons a as ih =>
    obtain ⟨hu', hfill⟩ := hf t a hu
    obtain ⟨hu'', hfill'⟩ := ih hu'
    exact ⟨hu'', hfill.trans hfill'⟩

theorem fills_resolve {answers : List (Mac × Ip)} {stas : List (Mac × Int)}
    (hu : ClientUnique t) :
    ClientUnique (resolve t now answers stas) ∧ Fills t (resolve t now answers stas) := by
  obtain ⟨hu', hfill⟩ := fills_foldl (fun _ _ => fills_resolveClient now) answers hu
  obtain ⟨hu'', hfill'⟩ := fills_foldl (fun _ _ => fills_stationListed now) stas hu'
  exact ⟨hu'', hfill.trans hfill'⟩

/-! ## Dropping -/

theorem sweepClient_eq (h : (sweepClient now e).active = true) :
    e.active = true ∧ (sweepClient now e).mac = e.mac ∧ (sweepClient now e).ip = e.ip ∧
      (sweepClient now e).ipSinceUs = e.ipSinceUs := by
  unfold sweepClient at *
  split
  · rename_i hactive
    rw [if_pos hactive] at h
    split
    · rename_i hold
      rw [if_pos hold] at h
      exact absurd h (by simp)
    · exact ⟨hactive, rfl, rfl, rfl⟩
  · rename_i hno
    rw [if_neg hno] at h
    exact absurd h hno

theorem ClientUnique.sweep (hu : ClientUnique t) : ClientUnique (Track.sweep t now).1 :=
  hu.weaken fun j hj => by
    obtain ⟨hactive, hmac, -, -⟩ := sweepClient_eq (e := t.clients j) hj
    exact ⟨hactive, hmac.symm⟩

/-- An entry that is there after was there before, on the same address since the same time. -/
theorem entryOf_sweep (hu : ClientUnique t) {e' : Client}
    (h : entryOf (Track.sweep t now).1 mac = some e') :
    ∃ e, entryOf t mac = some e ∧ e'.ip = e.ip ∧ e'.ipSinceUs = e.ipSinceUs := by
  obtain ⟨i, hfind, rfl⟩ := Option.map_eq_some_iff.mp h
  obtain ⟨hactive, hmac⟩ := findLocked_some hfind
  obtain ⟨hbefore, hsame, hip, hsince⟩ := sweepClient_eq (e := t.clients i) hactive
  have hmac' : (t.clients i).mac = mac := hsame.symm.trans hmac
  exact ⟨_, hmac' ▸ entryOf_of_slot hu hbefore, hip, hsince⟩

/-! ## Accounting -/

variable {ev : TrafficEvent}

@[simp] theorem accountClient_active : (accountClient ev now e).active = e.active := by
  unfold accountClient
  dsimp only
  split
  · split <;> split <;> simp
  · split <;> rfl

@[simp] theorem accountClient_mac : (accountClient ev now e).mac = e.mac := by
  unfold accountClient
  dsimp only
  split
  · split <;> split <;> simp
  · split <;> rfl

theorem accountClient_silent (e : Client) (now : Nat) (h : ev.observedIp = 0) :
    (accountClient ev now e).ip = e.ip ∧ (accountClient ev now e).ipSinceUs = e.ipSinceUs := by
  unfold accountClient
  dsimp only
  rw [if_neg (by simp [h])]
  split <;> exact ⟨rfl, rfl⟩

theorem updateClientIpLocked_same {ip : Ip} (h : e.ip = ip) : updateClientIpLocked e ip = e := by
  unfold updateClientIpLocked
  rw [if_pos (.inr h.symm)]

theorem updateClientIpLocked_new {ip : Ip} (h0 : ip ≠ 0) (h : e.ip ≠ ip) :
    updateClientIpLocked e ip = { e with ip := ip, ipSinceUs := 0 } := by
  unfold updateClientIpLocked
  rw [if_neg (not_or.mpr ⟨h0, Ne.symm h⟩)]

/-- A frame from an address is from the address held after, which is confirmed: since before,
    if it was, or from now. -/
theorem accountClient_sighted (e : Client) (now : Nat) (h : ev.observedIp ≠ 0) :
    (accountClient ev now e).ip = ev.observedIp ∧
      (accountClient ev now e).ipSinceUs =
        if e.ip = ev.observedIp ∧ e.ipSinceUs ≠ 0 then e.ipSinceUs else now := by
  have key : ∀ e' : Client, e'.ip = e.ip → e'.ipSinceUs = e.ipSinceUs →
      let e₁ := updateClientIpLocked e' ev.observedIp
      let e₂ := if e₁.ipSinceUs = 0 ∧ e₁.ip = ev.observedIp then { e₁ with ipSinceUs := now }
        else e₁
      e₂.ip = ev.observedIp ∧ e₂.ipSinceUs =
        if e.ip = ev.observedIp ∧ e.ipSinceUs ≠ 0 then e.ipSinceUs else now := by
    intro e' hip hsince
    dsimp only
    by_cases hsame : e.ip = ev.observedIp
    · have hsame' : e'.ip = ev.observedIp := hip.trans hsame
      rw [updateClientIpLocked_same hsame']
      by_cases hzero : e.ipSinceUs = 0
      · rw [if_pos ⟨hsince.trans hzero, hsame'⟩, if_neg fun hc => hc.2 hzero]
        exact ⟨hsame', rfl⟩
      · rw [if_neg fun hc => hzero (hsince.symm.trans hc.1), if_pos ⟨hsame, hzero⟩]
        exact ⟨hsame', hsince⟩
    · have hnow : ¬ (e.ip = ev.observedIp ∧ e.ipSinceUs ≠ 0) := fun hc => hsame hc.1
      rw [updateClientIpLocked_new h (hip ▸ hsame), if_pos ⟨rfl, rfl⟩, if_neg hnow]
      exact ⟨rfl, rfl⟩
  unfold accountClient
  dsimp only
  rw [if_pos h]
  split
  · exact key _ rfl rfl
  · exact key _ rfl rfl

end

end Track
end Wt32Router
