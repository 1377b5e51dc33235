import Wt32Router.Dhcp.Commit

/-!
# The calls `client_track.c` makes

What the other module tells the server (an address it saw a client use, the set of
clients it is cutting off) and what it asks (where a client is believed to be, and the whole
table). Each runs under the same mutex as a DHCP message, so each is one atomic step.
-/

namespace Wt32Router
namespace Dhcp

/-- The addresses `dhcp_server_note_observed_ip` records: on the bridge's own subnet, and
    not the bridge's own. -/
def notable (cfg : Config) (ip : Ip) : Bool :=
  ip != 0 && (ip &&& cfg.netmask) == (cfg.serverIp &&& cfg.netmask) && ip != cfg.serverIp

/-- The entry `dhcp_server_note_observed_ip` leaves: nothing to record while the client is
    using exactly what it was leased, and seen this boot either way. -/
def notedLease (bootSeq : BitVec 32) (ip : Ip) (now : Nat) (e : Lease) : Lease :=
  { e with
    observedIp := if ip = e.ip then 0 else ip, lastSeenSeq := bootSeq, lastSeenUs := now }

/-- What `dhcp_server_note_observed_ip` does once it has the client's entry. -/
def noteAt (st : Server) (e : Slot) (ip : Ip) (now : Nat) : Server :=
  let st := st.setLease e (notedLease st.bootSeq ip now (st.leases e))
  if (st.leases e).savedObservedIp ≠ persistedObservedIp (st.leases e) then st.markDirty now
  else st

/-- `dhcp_server_note_observed_ip`. -/
def noteObservedIp (st : Server) (mac : Mac) (ip : Ip) (now : Nat) : Server :=
  if notable st.cfg ip then
    match slotForLocked st mac now with
    | none => st
    | some (st, e) => noteAt st e ip now
  else st

/-- The entry `dhcp_server_set_quarantined` leaves in a slot. -/
def quarantineLease (macs : List Mac) (e : Lease) : Lease :=
  { e with quarantined := e.inUse && macs.contains e.mac }

/-- `dhcp_server_set_quarantined`: the whole set every time, not a delta. -/
def setQuarantined (st : Server) (macs : List Mac) (now : Nat) : Server :=
  let st := { st with leases := fun i => quarantineLease macs (st.leases i) }
  if (Fin.find? fun i => (st.leases i).inUse &&
      (st.leases i).savedObservedIp != persistedObservedIp (st.leases i)).isSome then
    st.markDirty now
  else st

/-- `dhcp_server_lookup_ip`. -/
def lookupIp (st : Server) (mac : Mac) : Option Ip :=
  match findByMacLocked st mac with
  | none => none
  | some i =>
    let e := st.leases i
    if e.observedIp ≠ 0 then some e.observedIp
    else if e.ip ≠ 0 ∧ 0 < e.expiresUs then some e.ip
    else none

/-- `dhcp_lease_info_t`. -/
structure LeaseInfo where
  mac : Mac
  ip : Ip
  observedIp : Ip
  /-- 0 also in the last second of a lease -/
  expiresInS : BitVec 32
  bootsSinceSeen : BitVec 32
  stored : Bool
  savedIp : Ip
  savedObservedIp : Ip
deriving DecidableEq, Repr

def leaseInfo (st : Server) (now : Nat) (e : Lease) : LeaseInfo where
  mac := e.mac
  ip := e.ip
  observedIp := e.observedIp
  expiresInS := if now < e.expiresUs then BitVec.ofNat 32 ((e.expiresUs - now) / 1000000) else 0
  bootsSinceSeen := if seenThisBoot st e then 0 else st.bootSeq - e.lastSeenSeq
  stored := e.savedIp == e.ip && e.savedObservedIp == persistedObservedIp e
  savedIp := e.savedIp
  savedObservedIp := e.savedObservedIp

/-- `dhcp_server_get_leases` into an array that has room for every entry. -/
def getLeases (st : Server) (now : Nat) : List LeaseInfo :=
  ((List.finRange maxLeases).filter fun i =>
      (st.leases i).inUse && !((st.leases i).ip == 0 && (st.leases i).observedIp == 0)).map
    fun i => leaseInfo st now (st.leases i)

section

variable {st st' : Server} {mac : Mac} {ip : Ip} {now : Nat} {e j : Slot} {macs : List Mac}

theorem getLeases_nodup (hu : MacUnique st.leases) :
    ((getLeases st now).map LeaseInfo.mac).Nodup := by
  unfold getLeases
  rw [List.map_map]
  refine List.Nodup.map_on (fun i hi j hj hmac => ?_) ((List.nodup_finRange _).filter _)
  have hi := (Bool.and_eq_true _ _ |>.mp (List.mem_filter.mp hi).2).1
  have hj := (Bool.and_eq_true _ _ |>.mp (List.mem_filter.mp hj).2).1
  exact hu i j hi hj hmac

theorem notable_ne_zero (h : notable st.cfg ip = true) : ip ≠ 0 := by
  simp only [notable, Bool.and_eq_true, bne_iff_ne] at h
  exact h.1.1

/-- **What a note can have done**: nothing, or found a slot and written it. -/
theorem noteObservedIp_cases (st : Server) (mac : Mac) (ip : Ip) (now : Nat) :
    (noteObservedIp st mac ip now = st ∧
        (notable st.cfg ip = true → slotForLocked st mac now = none)) ∨
      ∃ st₁ e, notable st.cfg ip = true ∧ slotForLocked st mac now = some (st₁, e) ∧
        SlotFor st mac now st₁ e ∧ noteObservedIp st mac ip now = noteAt st₁ e ip now := by
  unfold noteObservedIp
  split
  · rename_i hn
    split
    · rename_i hs
      exact .inl ⟨rfl, fun _ => hs⟩
    · rename_i st₁ e hs
      exact .inr ⟨st₁, e, hn, hs, slotForLocked_some hs, rfl⟩
  · rename_i hn
    exact .inl ⟨rfl, fun h => absurd h hn⟩

@[simp] theorem noteAt_cfg : (noteAt st e ip now).cfg = st.cfg := by
  unfold noteAt; dsimp only; split <;> simp

@[simp] theorem noteAt_declined : (noteAt st e ip now).declined = st.declined := by
  unfold noteAt; dsimp only; split <;> simp

@[simp] theorem noteAt_bootSeq : (noteAt st e ip now).bootSeq = st.bootSeq := by
  unfold noteAt; dsimp only; split <;> simp

@[simp] theorem noteAt_same : (noteAt st e ip now).leases e =
    notedLease st.bootSeq ip now (st.leases e) := by
  unfold noteAt; dsimp only; split <;> simp

theorem noteAt_other (hj : j ≠ e) : (noteAt st e ip now).leases j = st.leases j := by
  unfold noteAt; dsimp only; split <;> simp [hj]

@[simp] theorem noteObservedIp_bootSeq : (noteObservedIp st mac ip now).bootSeq = st.bootSeq := by
  rcases noteObservedIp_cases st mac ip now with ⟨heq, -⟩ | ⟨st₁, e, -, -, hs, heq⟩
  · rw [heq]
  · rw [heq, noteAt_bootSeq, hs.bootSeq_eq]

/-- **Where an entry comes from that is in use after a note.** It is as it was, and not this
    client's if the note was taken; or it is this client's, or was made for it, and says what
    the note said. -/
theorem noteObservedIp_origin (hu : MacUnique st.leases)
    (hj : (noteObservedIp st mac ip now).live j) :
    (st.live j ∧ (noteObservedIp st mac ip now).leases j = st.leases j ∧
      (notable st.cfg ip = true → (st.leases j).mac ≠ mac)) ∨
    (∃ l, (st.live j ∧ l = st.leases j ∨ l = freshLease mac) ∧
      (noteObservedIp st mac ip now).leases j = notedLease st.bootSeq ip now l) := by
  rcases noteObservedIp_cases st mac ip now with ⟨heq, hfull⟩ | ⟨st₁, i, -, -, hs, heq⟩
  · rw [heq] at hj ⊢
    exact .inl ⟨hj, rfl, fun hn => findByMacLocked_none (slotForLocked_none (hfull hn)).1 hj⟩
  · rw [heq] at hj ⊢
    by_cases hji : j = i
    · subst hji
      rw [noteAt_same, hs.bootSeq_eq]
      refine .inr ⟨st₁.leases j, ?_, rfl⟩
      rcases hs.own_or_fresh with ⟨hm, rfl⟩ | ⟨-, hfresh⟩
      · exact .inl ⟨(findByMacLocked_some hm).1, rfl⟩
      · exact .inr hfresh
    · rw [Server.live, noteAt_other hji, hs.other hji] at hj
      rw [noteAt_other hji, hs.other hji]
      exact .inl ⟨hj, rfl, fun _ => hs.other_mac hu hji hj⟩

@[simp] theorem noteObservedIp_cfg : (noteObservedIp st mac ip now).cfg = st.cfg := by
  rcases noteObservedIp_cases st mac ip now with ⟨heq, -⟩ | ⟨st₁, e, -, -, hs, heq⟩
  · rw [heq]
  · rw [heq, noteAt_cfg, hs.cfg_eq]

theorem noteAt_clean (h : (noteAt st e ip now).dirty = false) :
    st.dirty = false ∧ ((noteAt st e ip now).leases e).savedObservedIp =
      persistedObservedIp ((noteAt st e ip now).leases e) := by
  rw [noteAt_same]
  unfold noteAt at h
  dsimp only at h
  split at h
  · simp at h
  · rename_i hs
    simp only [Server.setLease_same, ne_eq, not_not] at hs
    exact ⟨h, hs⟩

@[simp] theorem setQuarantined_cfg : (setQuarantined st macs now).cfg = st.cfg := by
  unfold setQuarantined; dsimp only; split <;> simp

@[simp] theorem setQuarantined_declined :
    (setQuarantined st macs now).declined = st.declined := by
  unfold setQuarantined; dsimp only; split <;> simp

@[simp] theorem setQuarantined_bootSeq :
    (setQuarantined st macs now).bootSeq = st.bootSeq := by
  unfold setQuarantined; dsimp only; split <;> simp

@[simp] theorem setQuarantined_leases :
    (setQuarantined st macs now).leases j = quarantineLease macs (st.leases j) := by
  unfold setQuarantined; dsimp only; split <;> simp

/-- A push of the cut-off set leaves the table dirty, or every entry's observed address
    as flash has it. -/
theorem setQuarantined_clean (h : (setQuarantined st macs now).dirty = false) :
    st.dirty = false ∧ ∀ j, st.live j →
      (st.leases j).savedObservedIp =
        persistedObservedIp ((setQuarantined st macs now).leases j) := by
  unfold setQuarantined at h
  dsimp only at h
  split at h
  · simp at h
  · rename_i hs
    refine ⟨h, fun j hj => ?_⟩
    rw [setQuarantined_leases]
    rw [Option.not_isSome_iff_eq_none, Fin.find?_eq_none_iff] at hs
    have hsj := hs j
    have hlive : (quarantineLease macs (st.leases j)).inUse = true := hj
    simp only [hlive, Bool.true_and, bne_eq_false_iff_eq] at hsj
    exact hsj

end

end Dhcp
end Wt32Router
