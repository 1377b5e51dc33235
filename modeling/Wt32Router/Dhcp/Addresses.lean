import Wt32Router.Dhcp.Bystander

/-!
# The two addresses of an entry

An entry has the address it was leased and the one it was seen on, and much of what the server
does moves neither: a lease is renewed, released, dropped, marked as saved, cut off. What a
property of the two has to survive is a commit, which sets the first, a note, which sets the
second, and the way through flash, which may clear the second.

So a rule about the pair is checked where it can break, and `Server.AllPairs` carries it
everywhere else: through a message (`Handled.allPairs`), a note, a save and a boot.
-/

namespace Wt32Router
namespace Dhcp

/-- Every entry in use has a leased and an observed address that satisfy `P`. -/
def Server.AllPairs (st : Server) (P : Ip → Ip → Prop) : Prop :=
  ∀ i, st.live i → P (st.leases i).ip (st.leases i).observedIp

/-- The same of the table and of the records in flash. -/
structure System.AllPairs (s : System) (P : Ip → Ip → Prop) : Prop where
  table : s.srv.AllPairs P
  flash : ∀ t ∈ flashRecords s.flash, P t.ip t.observedIp

/-- A message may be answered with this address: any is offered, and one is acknowledged if
    none was asked for or this one. -/
def Request.Accepts (q : Request) (a : Ip) : Prop :=
  q.type = dhcpDiscover ∨ q.requested = 0 ∨ q.requested = a

instance (q : Request) (a : Ip) : Decidable (q.Accepts a) :=
  inferInstanceAs (Decidable (_ ∨ _))

section

variable {st st₁ st' : Server} {env : Env} {m : DhcpMsg} {q : Request} {len : Nat}
  {outs : List Out} {mac : Mac} {a ip requested : Ip} {now holdS : Nat} {persist wired : Bool}
  {s : System} {macs : List Mac} {flash : Option (List UInt8)} {cfg : Config}
  {P : Ip → Ip → Prop}

/-! ## Within a boot -/

/-- Entries that are dropped or changed in other fields keep the rule. -/
theorem Server.AllPairs.weaken (h : st.AllPairs P)
    (hsame : ∀ i, st'.live i → st.live i ∧ (st'.leases i).ip = (st.leases i).ip ∧
      (st'.leases i).observedIp = (st.leases i).observedIp) : st'.AllPairs P := by
  intro i hi
  obtain ⟨hlive, hip, hobs⟩ := hsame i hi
  rw [hip, hobs]
  exact h i hlive

theorem Server.AllPairs.dropLease (h : st.AllPairs P) (j : Slot) : (st.dropLease j).AllPairs P :=
  h.weaken fun i hi => by
    obtain ⟨-, heq⟩ := st.dropLease_live j i hi
    rw [Server.live, heq] at hi
    rw [heq]
    exact ⟨hi, rfl, rfl⟩

theorem Server.AllPairs.of_leases (h : st.AllPairs P) (heq : st'.leases = st.leases) :
    st'.AllPairs P :=
  h.weaken fun i hi => by
    rw [Server.live, heq] at hi
    rw [heq]
    exact ⟨hi, rfl, rfl⟩

theorem Server.AllPairs.select (h : st.AllPairs P)
    (hs : selectAddressLocked st mac requested wired now = (st₁, ip)) : st₁.AllPairs P :=
  h.weaken fun i hi => by
    have hsame := select_live hs hi
    rw [Server.live, hsame] at hi
    rw [hsame]
    exact ⟨hi, rfl, rfl⟩

/-- **The rule after a message**, once it is known to survive what the message commits. -/
theorem Handled.allPairs (hh : Handled st env m q st' outs) (h : st.AllPairs P)
    (hcommit : ∀ st₁ ip holdS persist, q.Asks st →
      selectAddressLocked st q.mac q.requested env.wired env.now = (st₁, ip) → ip ≠ 0 →
      q.Accepts ip → (commitLeaseLocked st₁ q.mac ip holdS persist env.now).1.AllPairs P) :
    st'.AllPairs P := by
  cases hh with
  | ignored _ => exact h
  | offered ht hs h0 => exact hcommit _ _ _ _ (.inl ht) hs h0 (.inl ht)
  | acked ht hf hs h0 hreq => exact hcommit _ _ _ _ (.inr ⟨ht, hf⟩) hs h0 (.inr hreq)
  | naked _ _ hs _ => exact h.select hs
  | elsewhere _ _ _ _ => exact h.dropLease _
  | declined _ _ heq => exact (h.dropLease _).of_leases (declined_leases heq)
  | declinedUnknown _ _ => exact h.of_leases declineIp_leases
  | @released j _ _ =>
    refine h.weaken fun i hi => ?_
    by_cases hij : i = j
    · subst hij
      rw [Server.live, Server.setLease_same] at hi
      rw [Server.setLease_same]
      exact ⟨hi, rfl, rfl⟩
    · rw [Server.live, Server.setLease_ne _ _ _ _ hij] at hi
      rw [Server.setLease_ne _ _ _ _ hij]
      exact ⟨hi, rfl, rfl⟩

/-- A commit keeps the rule, if the client's own entry keeps it with the new lease. -/
theorem Server.AllPairs.commit (h : st.AllPairs P) (hfresh : P ip 0)
    (hown : ∀ i, st.live i → (st.leases i).mac = mac → P ip (st.leases i).observedIp) :
    (commitLeaseLocked st mac ip holdS persist now).1.AllPairs P := by
  intro i hi
  rcases commit_origin hi with ⟨hlive, heq | ⟨hmac, heq⟩⟩ | ⟨-, heq⟩
  · rw [heq]
    exact h i hlive
  · rw [heq]
    exact hown i hlive hmac
  · rw [heq]
    exact hfresh

/-- A note keeps the rule, if a lease keeps it with what the note says of the client. -/
theorem Server.AllPairs.note (h : st.AllPairs P) (hu : MacUnique st.leases)
    (hnote : notable st.cfg ip = true → ∀ x, (x = 0 ∨ ∃ o, P x o) → P x (if ip = x then 0 else ip)) :
    (noteObservedIp st mac ip now).AllPairs P := by
  by_cases hnot : notable st.cfg ip = true
  · intro i hi
    rcases noteObservedIp_origin hu hi with ⟨hlive, heq, -⟩ | ⟨l, hl, heq⟩
    · rw [heq]
      exact h i hlive
    · rw [heq]
      apply hnote hnot
      rcases hl with ⟨hlive, rfl⟩ | rfl
      · exact .inr ⟨_, h i hlive⟩
      · exact .inl rfl
  · have hsame : noteObservedIp st mac ip now = st := if_neg hnot
    rw [hsame]
    exact h

theorem Server.AllPairs.quarantine (h : st.AllPairs P) : (setQuarantined st macs now).AllPairs P :=
  h.weaken fun i hi => by
    rw [Server.live, setQuarantined_leases] at hi
    rw [setQuarantined_leases]
    exact ⟨hi, rfl, rfl⟩

theorem Server.AllPairs.saved (h : st.AllPairs P) : (markSaved st).AllPairs P :=
  h.weaken fun i hi => by
    obtain ⟨huse, -, hip, hobs, -⟩ := markSaved_fields st i
    rw [Server.live, huse] at hi
    exact ⟨hi, hip, hobs⟩

/-! ## Through flash -/

/-- What is saved of an entry is its pair, or its lease alone. -/
theorem Server.AllPairs.savedRecords (h : st.AllPairs P) (hzero : ∀ x o, P x o → P x 0) :
    ∀ t ∈ savedRecords st, P t.ip t.observedIp := by
  intro t ht
  obtain ⟨i, hi, rfl⟩ := mem_savedRecords.mp ht
  have hpair := h i (storable_iff.mp hi).1
  unfold storedOf persistedObservedIp
  dsimp only
  split
  · exact hzero _ _ hpair
  · exact hpair

/-- What is restored of a record is its pair, or its lease alone. -/
theorem bootServer_allPairs (h : ∀ t ∈ flashRecords flash, P t.ip t.observedIp)
    (hzero : ∀ x o, P x o → P x 0) : (bootServer cfg flash now).AllPairs P := by
  intro i hi
  obtain ⟨hdr, recs, t, hp, -, ht, heq⟩ := bootServer_live hi
  rw [flashRecords_some hp] at h
  rw [heq]
  unfold restoredLease
  dsimp only
  split
  · exact hzero _ _ (h t ht)
  · exact h t ht

theorem System.AllPairs.poll (h : s.AllPairs P) (hzero : ∀ x o, P x o → P x 0)
    (nvs : NvsResult) : (s.step (.poll now nvs)).AllPairs P := by
  refine ⟨System.poll_srv (P := fun st => st.AllPairs P) now nvs h.table h.table.saved, ?_⟩
  rw [System.step_poll_flash]
  cases hw : s.written (.poll now nvs) with
  | none => exact h.flash
  | some blob =>
    rw [Option.some_or, System.written_eq hw, flashRecords_saveBlob]
    exact h.table.savedRecords hzero

theorem powerOn_allPairs : (powerOn cfg none now).AllPairs P where
  table i hi := absurd hi powerOn_not_live
  flash t ht := absurd ht (by simp [powerOn, flashRecords])

end

end Dhcp
end Wt32Router
