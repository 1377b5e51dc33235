import Wt32Router.Dhcp.Select

/-!
# Recording a lease

`take_free_slot_locked` finds room for a MAC that has no entry, and
`commit_lease_locked` records that a MAC holds an address. A commit touches at most
three slots: the one it writes, the one it reclaimed to get it, which is the same slot,
and the one it clears because another entry had the address leased.

`commitLeaseLocked_cases` splits a commit into finding the slot (`SlotFor`) and the two
writes after it (`commitAt`); the lemmas about `commitAt` say slot by slot what came of
them. A commit with no room changes nothing, *and the caller answers the client anyway*.
-/

namespace Wt32Router
namespace Dhcp

def freshLease (mac : Mac) : Lease := { inUse := true, mac := mac }

def takeFreeSlotLocked (st : Server) (mac : Mac) (now : Nat) : Option (Server × Slot) :=
  match Fin.find? fun i => !(st.leases i).inUse with
  | some i => some (st.setLease i (freshLease mac), i)
  | none =>
    match pickVictimLocked st false ⟨0, 0⟩ now with
    | none => none
    | some (v, _) => some ((reclaimLocked st v now).setLease v (freshLease mac), v)

/-- The entry of `mac`, or room for one: how both `commit_lease_locked` and
    `dhcp_server_note_observed_ip` begin. -/
def slotForLocked (st : Server) (mac : Mac) (now : Nat) : Option (Server × Slot) :=
  match findByMacLocked st mac with
  | some i => some (st, i)
  | none => takeFreeSlotLocked st mac now

/-- Clears the previous holder of an address that is being handed to slot `e`. -/
def clearClash (st : Server) (e : Slot) (ip : Ip) (now : Nat) : Server :=
  match findByIpLocked st ip with
  | some c =>
    if c = e then st
    else if (st.leases c).savedIp != 0 then (st.dropLease c).markDirty now
    else st.dropLease c
  | none => st

/-- What `commit_lease_locked` does once it has a slot. -/
def commitAt (st : Server) (e : Slot) (ip : Ip) (holdS : Nat) (persist : Bool) (now : Nat) :
    Server :=
  let st := clearClash st e ip now
  let st := st.setLease e
    { st.leases e with
      ip := ip, expiresUs := now + holdS * 1000000, lastSeenSeq := st.bootSeq, lastSeenUs := now }
  if persist && (st.leases e).savedIp != (st.leases e).ip then st.markDirty now else st

/-- `commit_lease_locked`. The flag is false if there was no slot to record it in. -/
def commitLeaseLocked (st : Server) (mac : Mac) (ip : Ip) (holdS : Nat) (persist : Bool)
    (now : Nat) : Server × Bool :=
  match slotForLocked st mac now with
  | none => (st, false)
  | some (st, e) => (commitAt st e ip holdS persist now, true)

section

variable {st st' st₁ : Server} {mac : Mac} {ip : Ip} {holdS now : Nat} {persist ok : Bool}
  {e i j : Slot}

/-- Where the slot a MAC is recorded in came from. -/
inductive SlotFor (st : Server) (mac : Mac) (now : Nat) : Server → Slot → Prop
  /-- it already had an entry -/
  | own {i : Slot} : findByMacLocked st mac = some i → SlotFor st mac now st i
  /-- a slot nobody was using -/
  | free {i : Slot} : findByMacLocked st mac = none → (st.leases i).inUse = false →
      SlotFor st mac now (st.setLease i (freshLease mac)) i
  /-- the table was full and the oldest unseen entry gave way -/
  | reclaimed {v : Slot} : findByMacLocked st mac = none → (∀ i, st.live i) →
      Eligible st false ⟨0, 0⟩ now v →
      SlotFor st mac now ((reclaimLocked st v now).setLease v (freshLease mac)) v

theorem takeFreeSlotLocked_some (hm : findByMacLocked st mac = none)
    (h : takeFreeSlotLocked st mac now = some (st₁, e)) : SlotFor st mac now st₁ e := by
  unfold takeFreeSlotLocked at h
  split at h
  · rename_i hi
    simp only [Option.some.injEq, Prod.mk.injEq] at h
    obtain ⟨rfl, rfl⟩ := h
    have hp := (Fin.find?_eq_some_iff.mp hi).1
    exact .free hm (by simpa using hp)
  · rename_i hfull
    split at h
    · exact absurd h (by simp)
    · rename_i hv
      simp only [Option.some.injEq, Prod.mk.injEq] at h
      obtain ⟨rfl, rfl⟩ := h
      refine .reclaimed hm (fun i => ?_) (pickVictimLocked_some hv).1
      simpa using Fin.find?_eq_none_iff.mp hfull i

theorem slotForLocked_some (h : slotForLocked st mac now = some (st₁, e)) :
    SlotFor st mac now st₁ e := by
  unfold slotForLocked at h
  split at h
  · rename_i hi
    simp only [Option.some.injEq, Prod.mk.injEq] at h
    obtain ⟨rfl, rfl⟩ := h
    exact .own hi
  · rename_i hm
    exact takeFreeSlotLocked_some hm h

/-- No slot: the MAC has no entry, every slot is in use and none may be reclaimed. -/
theorem slotForLocked_none (h : slotForLocked st mac now = none) :
    findByMacLocked st mac = none ∧ (∀ i, st.live i) ∧
      ∀ i, ¬ Eligible st false ⟨0, 0⟩ now i := by
  unfold slotForLocked takeFreeSlotLocked at h
  split at h
  · exact absurd h (by simp)
  · rename_i hm
    split at h
    · exact absurd h (by simp)
    · rename_i hfull
      split at h
      · rename_i hv
        refine ⟨hm, fun i => ?_, fun i => pickVictimLocked_none hv⟩
        simpa using Fin.find?_eq_none_iff.mp hfull i
      · exact absurd h (by simp)

theorem slotForLocked_own (h : findByMacLocked st mac = some i) :
    slotForLocked st mac now = some (st, i) := by
  unfold slotForLocked
  rw [h]

namespace SlotFor

variable (h : SlotFor st mac now st₁ e)
include h

theorem cfg_eq : st₁.cfg = st.cfg := by cases h <;> simp

theorem declined_eq : st₁.declined = st.declined := by cases h <;> simp

theorem bootSeq_eq : st₁.bootSeq = st.bootSeq := by cases h <;> simp

theorem other (hj : j ≠ e) : st₁.leases j = st.leases j := by
  cases h with
  | own _ => rfl
  | free _ _ => simp [hj]
  | reclaimed _ _ _ => simp [hj]

theorem live_mac : st₁.live e ∧ (st₁.leases e).mac = mac := by
  cases h with
  | own hi => exact findByMacLocked_some hi
  | free _ _ => simp [Server.live, freshLease]
  | reclaimed _ _ _ => simp [Server.live, freshLease]

/-- The slot is the MAC's own entry, untouched, or a wiped one. -/
theorem own_or_fresh : (findByMacLocked st mac = some e ∧ st₁ = st) ∨
    (findByMacLocked st mac = none ∧ st₁.leases e = freshLease mac) := by
  cases h with
  | own hi => exact .inl ⟨hi, rfl⟩
  | free hm _ => exact .inr ⟨hm, by simp⟩
  | reclaimed hm _ _ => exact .inr ⟨hm, by simp⟩

theorem other_mac (hu : MacUnique st.leases) (hj : j ≠ e) (hlive : st.live j) :
    (st.leases j).mac ≠ mac := by
  cases h with
  | own hi =>
    obtain ⟨he, hm⟩ := findByMacLocked_some hi
    intro hjm
    exact hj (hu j e hlive he (hjm.trans hm.symm))
  | free hm _ => exact findByMacLocked_none hm hlive
  | reclaimed hm _ _ => exact findByMacLocked_none hm hlive

end SlotFor

/-! ### Clearing the previous holder -/

@[simp] theorem clearClash_cfg : (clearClash st e ip now).cfg = st.cfg := by
  unfold clearClash
  split
  · split_ifs <;> simp
  · rfl

@[simp] theorem clearClash_declined : (clearClash st e ip now).declined = st.declined := by
  unfold clearClash
  split
  · split_ifs <;> simp
  · rfl

@[simp] theorem clearClash_bootSeq : (clearClash st e ip now).bootSeq = st.bootSeq := by
  unfold clearClash
  split
  · split_ifs <;> simp
  · rfl

@[simp] theorem clearClash_same : (clearClash st e ip now).leases e = st.leases e := by
  unfold clearClash
  split
  · rename_i c _
    split
    · rfl
    · rename_i hce
      split <;> simp [Ne.symm hce]
  · rfl

/-- Every other slot is untouched, or was the first one found with the address leased and
    is dropped. -/
theorem clearClash_other (st : Server) (e : Slot) (ip : Ip) (now : Nat) (j : Slot) :
    (clearClash st e ip now).leases j = st.leases j ∨
      (findByIpLocked st ip = some j ∧
        (clearClash st e ip now).leases j = { st.leases j with inUse := false }) := by
  unfold clearClash
  split
  · rename_i c hc
    split
    · exact .inl rfl
    · by_cases hjc : j = c
      · subst hjc
        refine .inr ⟨hc, ?_⟩
        split <;> simp
      · refine .inl ?_
        split <;> simp [hjc]
  · exact .inl rfl

/-- The holder is gone afterwards, when leased addresses are unique. -/
theorem clearClash_cleared (hu : IpUnique st.leases) (hip : ip ≠ 0) (hj : j ≠ e)
    (hlive : (clearClash st e ip now).live j) :
    (clearClash st e ip now).leases j = st.leases j ∧ (st.leases j).ip ≠ ip := by
  rcases clearClash_other st e ip now j with hsame | ⟨-, hdrop⟩
  · refine ⟨hsame, fun heq => ?_⟩
    have hlive' : st.live j := by rw [Server.live, hsame] at hlive; exact hlive
    have hfind : findByIpLocked st ip = some j :=
      heq ▸ findByIpLocked_eq hu hlive' (heq ▸ hip)
    have hgone : ((clearClash st e ip now).leases j).inUse = false := by
      unfold clearClash
      rw [hfind]
      simp only [if_neg hj]
      split <;> simp
    rw [Server.live, hgone] at hlive
    exact absurd hlive (by simp)
  · rw [Server.live, hdrop] at hlive
    exact absurd hlive (by simp)

/-! ### The commit itself -/

theorem commitLeaseLocked_cases
    (h : commitLeaseLocked st mac ip holdS persist now = (st', ok)) :
    (ok = false ∧ st' = st ∧ slotForLocked st mac now = none) ∨
      ∃ st₁ e, ok = true ∧ slotForLocked st mac now = some (st₁, e) ∧
        SlotFor st mac now st₁ e ∧ st' = commitAt st₁ e ip holdS persist now := by
  unfold commitLeaseLocked at h
  split at h
  · rename_i hn
    simp only [Prod.mk.injEq] at h
    exact .inl ⟨h.2.symm, h.1.symm, hn⟩
  · rename_i st₁ e hs
    simp only [Prod.mk.injEq] at h
    exact .inr ⟨st₁, e, h.2.symm, hs, slotForLocked_some hs, h.1.symm⟩

@[simp] theorem commitAt_cfg : (commitAt st e ip holdS persist now).cfg = st.cfg := by
  unfold commitAt; dsimp only; split <;> simp

@[simp] theorem commitAt_declined :
    (commitAt st e ip holdS persist now).declined = st.declined := by
  unfold commitAt; dsimp only; split <;> simp

@[simp] theorem commitAt_bootSeq :
    (commitAt st e ip holdS persist now).bootSeq = st.bootSeq := by
  unfold commitAt; dsimp only; split <;> simp

@[simp] theorem commitAt_same : (commitAt st e ip holdS persist now).leases e =
    { st.leases e with
      ip := ip, expiresUs := now + holdS * 1000000, lastSeenSeq := st.bootSeq,
      lastSeenUs := now } := by
  unfold commitAt; dsimp only; split <;> simp

theorem commitAt_other (ip : Ip) (holdS : Nat) (persist : Bool) (now : Nat) (hj : j ≠ e) :
    (commitAt st e ip holdS persist now).leases j = (clearClash st e ip now).leases j := by
  unfold commitAt; dsimp only; split <;> simp [hj]

/-- A commit marks the table dirty when it clears an entry whose lease is in flash, or
    when it is to be persisted and flash holds a different address for this client. -/
theorem commitAt_dirty (hd : st.dirty = true ∨
    (∃ c, findByIpLocked st ip = some c ∧ c ≠ e ∧ (st.leases c).savedIp ≠ 0) ∨
    (persist = true ∧ (st.leases e).savedIp ≠ ip)) :
    (commitAt st e ip holdS persist now).dirty = true := by
  have hclash : (clearClash st e ip now).dirty = true ∨
      (persist = true ∧ (st.leases e).savedIp ≠ ip) := by
    rcases hd with hd | ⟨c, hc, hce, hs⟩ | hd
    · left
      unfold clearClash
      split
      · split_ifs <;> simp [hd]
      · exact hd
    · left
      unfold clearClash
      rw [hc]
      simp only [if_neg hce, bne_iff_ne, ne_eq, hs, not_false_eq_true, if_true,
        Server.markDirty_dirty]
    · exact .inr hd
  unfold commitAt
  dsimp only
  split
  · simp
  · rename_i hns
    rcases hclash with hc | ⟨hp, hs⟩
    · simpa using hc
    · simp [hp, hs] at hns

theorem commitAt_clean (hd : (commitAt st e ip holdS persist now).dirty = false) :
    st.dirty = false ∧
      (∀ c, findByIpLocked st ip = some c → c ≠ e → (st.leases c).savedIp = 0) ∧
      (persist = true → (st.leases e).savedIp = ip) := by
  refine ⟨?_, fun c hc hce => ?_, fun hp => ?_⟩
  · by_contra hne
    rw [commitAt_dirty (.inl (by simpa using hne))] at hd
    exact absurd hd (by simp)
  · by_contra hne
    rw [commitAt_dirty (.inr (.inl ⟨c, hc, hce, hne⟩))] at hd
    exact absurd hd (by simp)
  · by_contra hne
    rw [commitAt_dirty (.inr (.inr ⟨hp, hne⟩))] at hd
    exact absurd hd (by simp)

/-- **Where an entry comes from that is live after a commit.** It was live before with the
    same keys and marks, and is untouched or the one written; or it was made for this
    MAC. -/
theorem commit_origin (hj : (commitLeaseLocked st mac ip holdS persist now).1.live j) :
    (st.live j ∧ ((commitLeaseLocked st mac ip holdS persist now).1.leases j =
        st.leases j ∨ (st.leases j).mac = mac ∧
      (commitLeaseLocked st mac ip holdS persist now).1.leases j = { st.leases j with
        ip := ip, expiresUs := now + holdS * 1000000, lastSeenSeq := st.bootSeq,
        lastSeenUs := now })) ∨
      (findByMacLocked st mac = none ∧ (commitLeaseLocked st mac ip holdS persist now).1.leases j =
        { freshLease mac with
          ip := ip, expiresUs := now + holdS * 1000000, lastSeenSeq := st.bootSeq,
          lastSeenUs := now }) := by
  cases hc : commitLeaseLocked st mac ip holdS persist now with
  | mk st' ok =>
    rw [hc] at hj
    rcases commitLeaseLocked_cases hc with ⟨-, rfl, -⟩ | ⟨st₁, e, -, -, hs, rfl⟩
    · exact .inl ⟨hj, .inl rfl⟩
    dsimp only at hj ⊢
    by_cases hje : j = e
    · subst hje
      rw [commitAt_same, hs.bootSeq_eq]
      rcases hs.own_or_fresh with ⟨hm, rfl⟩ | ⟨hm, hfresh⟩
      · obtain ⟨hlive, hmac⟩ := findByMacLocked_some hm
        exact .inl ⟨hlive, .inr ⟨hmac, rfl⟩⟩
      · exact .inr ⟨hm, by rw [hfresh]⟩
    · left
      rw [Server.live, commitAt_other ip holdS persist now hje] at hj
      rw [commitAt_other ip holdS persist now hje]
      rcases clearClash_other st₁ e ip now j with h | ⟨-, h⟩
      · rw [h, hs.other hje] at hj ⊢
        exact ⟨hj, .inl rfl⟩
      · rw [h] at hj
        exact absurd hj (by simp)

end

end Dhcp
end Wt32Router
