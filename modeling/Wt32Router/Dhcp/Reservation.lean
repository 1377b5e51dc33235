import Wt32Router.Dhcp.Bystander

/-!
# Reservations

A lease that has lapsed, was released or was restored from flash is kept for its client:
a *reservation*. Two properties of it.

**Nobody else gets it while its range has room** (`reservation_kept_iff`), except through
step 2, which honours what a client asks for and stops at addresses that are really in
use, not at addresses somebody has a reservation for.

**Its client gets it back after a reboot** (`rejoin_keeps_address`), in whatever order the
clients come back and whatever strangers do in between, as long as strangers do not ask
for it by name and the table and the ranges have room.
-/

namespace Wt32Router
namespace Dhcp

/-! ## While the range has room -/

def Server.Claimed (st : Server) (ip : Ip) : Prop :=
  ∃ i, st.live i ∧ ((st.leases i).ip = ip ∨ (st.leases i).observedIp = ip)

/-- Some client other than this one, and not cut off, has the address leased. -/
def Server.ReservedByOther (st : Server) (mac : Mac) (ip : Ip) : Prop :=
  ∃ i, st.live i ∧ (st.leases i).quarantined = false ∧ (st.leases i).mac ≠ mac ∧
    (st.leases i).ip = ip

/-- Every address of the range is claimed, apart from the bridge's own and the declined
    ones. -/
def Server.RunOut (st : Server) (r : ServedRange) : Prop :=
  ∀ a, ipInRange a r = true → a ≠ st.cfg.serverIp → ipDeclined st a = false → st.Claimed a

def Config.ranges (cfg : Config) : List ServedRange := [cfg.wired, cfg.pool]

/-- What this step sends carries somebody else's leased address only if the range it is in
    has run out. -/
def System.KeepsReservations (s : System) (e : Event) : Prop :=
  ∀ o ∈ s.outs e, ∀ mac ip, o.Carries mac ip → ip ≠ 0 → s.srv.ReservedByOther mac ip →
    ∀ r ∈ s.srv.cfg.ranges, ipInRange ip r = true → s.srv.RunOut r

/-- The message is granted, in step 2, an address that is leased to another client, in a
    range that has others free. -/
def GrantsReserved (st : Server) (env : Env) (q : Request) : Prop :=
  q.GrantedAsked st env ∧ st.ReservedByOther q.mac q.requested ∧
    ∃ r ∈ st.cfg.ranges, ipInRange q.requested r = true ∧ ¬ st.RunOut r

instance (st : Server) (ip : Ip) : Decidable (st.Claimed ip) :=
  inferInstanceAs (Decidable (∃ _, _))

instance (st : Server) (mac : Mac) (ip : Ip) : Decidable (st.ReservedByOther mac ip) :=
  inferInstanceAs (Decidable (∃ _, _))

section

variable {st st₁ st' : Server} {env : Env} {m : DhcpMsg} {q : Request} {len : Nat}
  {outs : List Out} {mac : Mac} {ip requested : Ip} {now : Nat} {wired : Bool} {i v : Slot}
  {r r' : ServedRange} {s : System} {e : Event}

theorem Config.ranges_disjoint {cfg : Config} (hr : r ∈ cfg.ranges) (hr' : r' ∈ cfg.ranges)
    (hip : ipInRange ip r = true) (hip' : ipInRange ip r' = true) : r = r' := by
  simp only [Config.ranges, List.mem_cons, List.not_mem_nil, or_false] at hr hr'
  rcases hr with rfl | rfl <;> rcases hr' with rfl | rfl
  · rfl
  · exact absurd hip (by simp [cfg.disjoint hip'])
  · exact absurd hip' (by simp [cfg.disjoint hip])
  · rfl

theorem rangesTried_sub (hr : r ∈ rangesTried st mac requested wired now) : r ∈ st.cfg.ranges := by
  unfold rangesTried at hr
  unfold Config.ranges
  split at hr
  · exact hr
  · simp only [List.mem_singleton] at hr
    unfold servedRange at hr
    split at hr
    · simp [hr]
    · simp [hr]

theorem runOut_of_firstFree (hr : r ∈ rangesTried st mac requested wired now)
    (h : firstFree st r = none) : st.RunOut r := by
  obtain ⟨hs, hle⟩ := rangesTried_wf hr
  intro a ha hsrv hd
  obtain ⟨i, hi, -, hclaim⟩ := firstFree_none hs hle h ha hsrv hd
  exact ⟨i, hi, hclaim⟩

theorem reclaimsIn_inRange (h : ReclaimsIn st mac requested now r v ip) :
    ipInRange ip r = true := by
  obtain ⟨hel, rfl⟩ := pickVictimLocked_some h.2
  exact (reclaimableAddress_eq hel.address.1).1

theorem granted_carries (hq : readRequest m len = some q) (h : q.GrantedAsked st env) :
    ∃ o ∈ (handleMessage st env m len).2, o.Carries q.mac q.requested := by
  obtain ⟨ha, r, hr, hask⟩ := h
  have hsel := selectAddressLocked_of_asked hr hask
  have h0 : q.requested ≠ 0 := ipInRange_ne_zero (grantsAsked_iff.mp hask.2).1
  have hmac := readRequest_mac hq
  rw [handleMessage_answer hq ha hsel h0 (.inr rfl)]
  split
  · exact ⟨_, List.mem_singleton_self _, .inl rfl, hmac.symm, rfl⟩
  · exact ⟨_, List.mem_cons_self, .inr rfl, hmac.symm, rfl⟩

/-- **A reservation is given to somebody else only when its range has run out, if and only
    if** the message is not granted it by step 2. -/
theorem System.Reachable.reservation_kept_iff (hs : s.Reachable) :
    s.KeepsReservations e ↔ ¬ s.Asking e GrantsReserved := by
  cases e with
  | recv env m len =>
    constructor
    · rintro hkeep ⟨q, hq, hgrant, hres, r, hr, hin, hroom⟩
      obtain ⟨o, ho, hc⟩ := granted_carries hq hgrant
      obtain ⟨-, r', -, hask⟩ := hgrant
      have h0 : q.requested ≠ 0 := ipInRange_ne_zero (grantsAsked_iff.mp hask.2).1
      exact hroom (hkeep o ho _ _ hc h0 hres r hr hin)
    · rintro hno o ho mac ip hc h0 ⟨i, hi, hquar, hne, rfl⟩ r hr hin
      rcases s.recv_cases env m len with ⟨-, hnone⟩ | ⟨q, hq, hh⟩
      · rw [hnone] at ho
        exact absurd ho (by simp)
      obtain ⟨rfl, ha, st₁, hsel⟩ := hh.carries hq ho hc h0
      obtain ⟨r', hr', ⟨hask, hreq⟩ | ⟨v, hv⟩⟩ :=
        select_of_leased hs.inv.table.ip hi hquar hne h0 hsel
      · by_contra hroom
        refine hno ⟨q, hq, ⟨ha, r', hr', hask⟩, ?_, r, hr, ?_, hroom⟩
        · exact ⟨i, hi, hquar, hne, hreq.symm⟩
        · rw [hreq]; exact hin
      · have heq := Config.ranges_disjoint hr (rangesTried_sub hr') hin (reclaimsIn_inRange hv)
        exact heq ▸ runOut_of_firstFree hr' hv.1.2.2
  | noteObserved _ _ _ => simp [System.KeepsReservations, System.outs, System.Asking]
  | setQuarantined _ _ => simp [System.KeepsReservations, System.outs, System.Asking]
  | poll _ _ => simp [System.KeepsReservations, System.outs, System.Asking]
  | reboot _ _ => simp [System.KeepsReservations, System.outs, System.Asking]

theorem reservation_kept_unasked :
    let s := System.step (powerOn shipped none 0)
      (.sends 10 false dhcpRequest 1 (ip4 192 168 5 10))
    s.KeepsReservations (.sends 20 false dhcpDiscover 2 0) :=
  (System.Reachable.reservation_kept_iff (.step _ (System.Reachable.switchedOn shipped 0)
      (by decide +kernel))).mpr
    fun h => absurd (h.mono fun _ _ _ _ hq => hq.1)
      (by decide +kernel : ¬ System.Asking _ _ fun st env q => q.GrantedAsked st env)

/-- A client is given 192.168.5.10, and releases it. -/
def leaseReleased : List Event :=
  [.sends 10 false dhcpRequest 1 (ip4 192 168 5 10), .sends 20 false dhcpRelease 1 0]

/-- Another asks for it, and step 2 gives it away with the rest of the pool free. -/
theorem reservation_not_kept : ¬ ∀ (s : System) (e : Event), s.Reachable →
    s.KeepsReservations e := by
  intro hall
  let s := leaseReleased.foldl System.step (powerOn shipped none 0)
  let e := Event.sends 30 false dhcpDiscover 2 (ip4 192 168 5 10)
  have hs : s.Reachable :=
    (System.Reachable.switchedOn shipped 0).run leaseReleased (by decide +kernel)
  have hout : ∃ o ∈ s.outs e, o.Carries 2 (ip4 192 168 5 10) := by decide +kernel
  obtain ⟨o, ho, hc⟩ := hout
  have hres : s.srv.ReservedByOther 2 (ip4 192 168 5 10) := by decide +kernel
  have hrun := hall s e hs o ho 2 _ hc (by decide) hres shipped.pool
    (by decide +kernel) (by decide)
  have hclaim := hrun (ip4 192 168 5 11) (by decide) (by decide +kernel) (by decide +kernel)
  exact absurd hclaim (by decide +kernel)

end

/-! ## After a reboot -/

/-- An address of the range, other than the bridge's own, is one nobody has an entry
    for. -/
def Server.HasFree (st : Server) (r : ServedRange) : Prop :=
  ∃ a ∈ r.addresses, a ≠ st.cfg.serverIp ∧ ¬ st.Claimed a

/-- The table has a free slot, and each served range a free address. -/
def Server.HasRoom (st : Server) : Prop :=
  (∃ i, ¬ st.live i) ∧ ∀ r ∈ st.cfg.ranges, r.start ≠ 0 → st.HasFree r

/-- How a client behaves, given what was stored: it asks this server, a client with a
    stored lease on a port whose range holds it and for nothing or exactly that, and nobody
    for an address stored for somebody else. -/
def Request.Rejoins (recs : List StoredLease) (st : Server) (env : Env) (q : Request) : Prop :=
  q.Asks st ∧ ∀ t ∈ recs, t.ip ≠ 0 →
    (t.mac = q.mac → ipInRange t.ip (servedRange st.cfg env.wired) = true ∧
      (q.requested = 0 ∨ q.requested = t.ip)) ∧
    (t.mac ≠ q.mac → q.requested ≠ t.ip)

/-- One step of clients coming back: a message as above, or the save check. -/
def System.Rejoining (recs : List StoredLease) (s : System) (e : Event) : Prop :=
  s.srv.HasRoom ∧
    match e with
    | .recv env m len => ∀ q ∈ readRequest m len, q.Rejoins recs s.srv env
    | .poll .. => True
    | _ => False

/-- Whoever has a stored lease and asks is answered with it and with nothing else: an
    OFFER to a DISCOVER, an ACK to a REQUEST. -/
def System.AnswersStored (recs : List StoredLease) (s : System) (e : Event) : Prop :=
  ∀ q, e.request? = some q → ∀ t ∈ recs, t.ip ≠ 0 → t.mac = q.mac →
    (∃ r, Out.reply r ∈ s.outs e ∧ r.chaddr = t.mac ∧ r.yiaddr = t.ip ∧
      r.type = if q.type = dhcpDiscover then dhcpOffer else dhcpAck) ∧
    ∀ o ∈ s.outs e, ∀ mac ip, o.Carries mac ip → mac = t.mac ∧ ip = t.ip

-- named, since the instance for quantifiers over all of `BitVec 32` would be found first
instance (st : Server) (r : ServedRange) : Decidable (st.HasFree r) := List.decidableBEx _ _

instance (st : Server) : Decidable st.HasRoom := inferInstanceAs (Decidable (_ ∧ _))

instance (recs : List StoredLease) (st : Server) (env : Env) (q : Request) :
    Decidable (q.Rejoins recs st env) := inferInstanceAs (Decidable (_ ∧ _))

instance (recs : List StoredLease) (s : System) : (e : Event) → Decidable (s.Rejoining recs e)
  | .recv env m len =>
    inferInstanceAs (Decidable (_ ∧ ∀ q ∈ readRequest m len, q.Rejoins recs s.srv env))
  | .poll .. => inferInstanceAs (Decidable (_ ∧ True))
  | .noteObserved .. => inferInstanceAs (Decidable (_ ∧ False))
  | .setQuarantined .. => inferInstanceAs (Decidable (_ ∧ False))
  | .reboot .. => inferInstanceAs (Decidable (_ ∧ False))

/-- What holds while the clients come back: every stored lease is in the entry of its
    client, and no other client is seen using its address. -/
structure Server.Restored (recs : List StoredLease) (st : Server) : Prop where
  table : TableInv st
  declined : st.declined = []
  served : ∀ i, st.live i → (st.leases i).quarantined = false
  kept : ∀ t ∈ recs, t.ip ≠ 0 →
    ∃ i, st.live i ∧ (st.leases i).mac = t.mac ∧ (st.leases i).ip = t.ip
  alone : ∀ t ∈ recs, t.ip ≠ 0 →
    ∀ i, st.live i → (st.leases i).observedIp = t.ip → (st.leases i).mac = t.mac

section

variable {st st₁ st' : Server} {env : Env} {m : DhcpMsg} {q : Request} {len : Nat}
  {mac : Mac} {ip requested : Ip} {now holdS : Nat} {wired persist : Bool} {i : Slot}
  {r : ServedRange} {s : System} {e : Event} {recs : List StoredLease} {t : StoredLease}

/-! ### The table a saved one is restored as -/

/-- If it forgets none of them, they fill the first slots in order. -/
theorem bootServer_saved {cfg : Config} (st : Server)
    (hkept : ∀ t ∈ savedRecords st, forgets (st.bootSeq + 1) storeVersion t = false) :
    (bootServer cfg (some (saveBlob st)) now).leases = restore (fun _ => {}) (savedRecords st) := by
  have hall : keptRecords (st.bootSeq + 1) storeVersion (savedRecords st) = savedRecords st := by
    unfold keptRecords
    exact List.filter_eq_self.mpr fun t ht => by rw [hkept t ht]; rfl
  rw [bootServer_saveBlob, loadRecords_leases, hall]
  rfl

/-- An observed address that survives a load is in no other restored record. -/
theorem dropObserved_alone {j k : Nat} {t u : StoredLease} (hj : recs[j]? = some t)
    (hk : recs[k]? = some u) (hne : k ≠ j) (hu : u.observedIp ≠ 0) (heq : u.observedIp = t.ip) :
    dropObserved recs k = true := by
  have hlt : j < recs.length := (List.getElem?_eq_some_iff.mp hj).1
  unfold dropObserved
  rw [hk]
  simp only [Bool.and_eq_true, bne_iff_ne]
  refine ⟨hu, List.any_eq_true.mpr ⟨j, List.mem_range.mpr hlt, ?_⟩⟩
  rw [hj]
  simp [Ne.symm hne, heq]

theorem Server.Restored.boot {cfg : Config} (h : TableInv st)
    (hkept : ∀ t ∈ savedRecords st, forgets (st.bootSeq + 1) storeVersion t = false) :
    (bootServer cfg (some (saveBlob st)) now).Restored (savedRecords st) := by
  have hok : RecordsOk (savedRecords st) := savedRecords_ok h.mac h.ip
  have htab : (bootServer cfg (some (saveBlob st)) now).leases =
      restore (fun _ => {}) (savedRecords st) := bootServer_saved st hkept
  refine ⟨TableInv.boot fun buf hbuf => ?_, bootServer_declined _, fun i _ => ?_, ?_, ?_⟩
  · simp only [Option.some.injEq] at hbuf
    exact ⟨_, _, hbuf.symm, hok⟩
  · exact (bootServer_expired _ i).2
  · intro t ht _
    obtain ⟨k, hk, rfl⟩ := List.mem_iff_getElem.mp ht
    have hlt : k < maxLeases := Nat.lt_of_lt_of_le hk hok.length_le
    have hget : (savedRecords st)[(⟨k, hlt⟩ : Slot).val]? = some (savedRecords st)[k] :=
      List.getElem?_eq_getElem hk
    refine ⟨⟨k, hlt⟩, ?_, ?_, ?_⟩
    · rw [Server.live, htab, restore_some hget]; rfl
    · rw [htab, restore_some hget]; rfl
    · rw [htab, restore_some hget]; rfl
  · intro t ht h0 i hi hobs
    obtain ⟨k, hk, rfl⟩ := List.mem_iff_getElem.mp ht
    have hget : (savedRecords st)[k]? = some (savedRecords st)[k] := List.getElem?_eq_getElem hk
    rw [Server.live, htab] at hi
    rw [htab] at hobs ⊢
    cases hu : (savedRecords st)[i.val]? with
    | none =>
      rw [restore_none hu] at hi
      exact absurd hi (by simp)
    | some u =>
      rw [restore_some hu] at hobs ⊢
      simp only [restoredLease] at hobs ⊢
      split at hobs
      · exact absurd hobs.symm h0
      · rename_i hdrop
        by_cases hik : i.val = k
        · subst hik
          rw [hget, Option.some.injEq] at hu
          rw [hu]
        · exact absurd (dropObserved_alone hget hu hik (hobs ▸ h0) hobs) hdrop

/-! ### One step of clients coming back -/

theorem firstFree_of_room (hd : st.declined = []) (hroom : st.HasRoom)
    (hr : r ∈ rangesTried st mac requested wired now) : firstFree st r ≠ none := by
  intro hnone
  obtain ⟨a, ha, hsrv, hfree⟩ := hroom.2 r (rangesTried_sub hr) (rangesTried_wf hr).1
  refine absurd (List.find?_eq_none.mp hnone a ha) (not_not.mpr ?_)
  refine isFree_iff.mpr ⟨hsrv, by simp [ipDeclined, hd], ?_⟩
  by_contra hsome
  obtain ⟨i, hi, -, hclaim⟩ := findByAnyIpLocked_isSome hsome
  exact hfree ⟨i, hi, hclaim⟩

/-- With room in its ranges the allocator takes nothing off anybody. -/
theorem select_of_room (hd : st.declined = []) (hroom : st.HasRoom)
    (hs : selectAddressLocked st mac requested wired now = (st₁, ip)) : st₁ = st :=
  select_unchanged hs fun _ hr _ _ h => firstFree_of_room hd hroom hr h.1.2.2

theorem Server.Restored.confirms (h : st.Restored recs) (requested : Ip) (now : Nat)
    (ht : t ∈ recs) (h0 : t.ip ≠ 0)
    (hin : ipInRange t.ip (servedRange st.cfg wired) = true) :
    selectAddressLocked st t.mac requested wired now = (st, t.ip) := by
  obtain ⟨i, hi, hmac, hip⟩ := h.kept t ht h0
  have hfind : findByMacLocked st t.mac = some i := hmac ▸ findByMacLocked_eq h.table.mac hi
  have hfree : ipInUseLocked st t.ip (some i) now = false := by
    refine ipInUseLocked_false_iff.mpr fun j hji => ?_
    rw [← Bool.not_eq_true, Lease.uses_iff]
    rintro ⟨hj, -, hobs | ⟨hjip, -⟩⟩
    · exact hji (congrArg some
        (h.table.mac j i hj hi ((h.alone t ht h0 j hj hobs).trans hmac.symm)))
    · exact hji (congrArg some (h.table.ip j i ⟨hj, hjip ▸ h0⟩ ⟨hi, hip ▸ h0⟩
        (hjip.trans hip.symm)))
  refine selectAddressLocked_of_own ?_
  unfold confirmsOwn
  rw [hfind, Option.bind_some]
  dsimp only
  rw [hip, if_pos]
  simp [h.served i hi, hin, hfree, ipDeclined, h.declined]

/-- Recording a lease keeps the stored ones, when it is the client's own stored address or
    stored for nobody. -/
theorem Server.Restored.commit (h : st.Restored recs) (hfree : ∃ i, ¬ st.live i) (h0 : ip ≠ 0)
    (hown : ∀ t ∈ recs, t.ip ≠ 0 → t.mac = mac → ip = t.ip)
    (hother : ∀ t ∈ recs, t.ip ≠ 0 → t.mac ≠ mac → ip ≠ t.ip) :
    (commitLeaseLocked st mac ip holdS persist now).1.Restored recs := by
  refine ⟨h.table.commit _ _ _ _ h0, commit_declined.trans h.declined, fun i hi => ?_,
    fun t ht ht0 => ?_, fun t ht ht0 i hi hobs => ?_⟩
  · rcases commit_origin hi with ⟨hlive, heq | ⟨-, heq⟩⟩ | ⟨-, heq⟩
    · rw [heq]; exact h.served i hlive
    · rw [heq]; exact h.served i hlive
    · rw [heq]; rfl
  · obtain ⟨i, hi, hmac, hip⟩ := h.kept t ht ht0
    by_cases hm : t.mac = mac
    · have hroom : slotForLocked st mac now ≠ none := by
        rw [slotForLocked_own (i := i) (hm ▸ hmac ▸ findByMacLocked_eq h.table.mac hi)]
        simp
      obtain ⟨j, hj, hjmac, -, hjip, -⟩ := commit_entry ip holdS persist hroom
      exact ⟨j, hj, hjmac.trans hm.symm, hjip.trans (hown t ht ht0 hm)⟩
    · rcases commit_keeps ip holdS persist now hi (hmac ▸ hm) with heq | ⟨-, hfull⟩ | heq
      · exact ⟨i, by rw [Server.live, heq]; exact hi, heq ▸ hmac, heq ▸ hip⟩
      · obtain ⟨k, hk⟩ := hfree
        exact absurd (hfull k) hk
      · exact absurd (heq.symm.trans hip) (hother t ht ht0 hm)
  · rcases commit_origin hi with ⟨hlive, heq | ⟨-, heq⟩⟩ | ⟨-, heq⟩
    · rw [heq] at hobs ⊢; exact h.alone t ht ht0 i hlive hobs
    · rw [heq] at hobs ⊢; exact h.alone t ht ht0 i hlive hobs
    · rw [heq] at hobs
      exact absurd hobs.symm ht0

/-- What is selected for a client that behaves: its own stored address, and never one
    stored for somebody else. -/
theorem Server.Restored.selects (h : st.Restored recs) (hroom : st.HasRoom)
    (hq : q.Rejoins recs st env)
    (hs : selectAddressLocked st q.mac q.requested env.wired env.now = (st₁, ip))
    (ht : t ∈ recs) (ht0 : t.ip ≠ 0) : ip = t.ip ↔ t.mac = q.mac := by
  constructor
  · intro heq
    by_contra hne
    obtain ⟨i, hi, hmac, hip⟩ := h.kept t ht ht0
    have hs' : selectAddressLocked st q.mac q.requested env.wired env.now =
        (st₁, (st.leases i).ip) := by rw [hs, heq, hip]
    obtain ⟨r, hr, ⟨-, hreq⟩ | ⟨v, hv⟩⟩ :=
      select_of_leased h.table.ip hi (h.served i hi) (hmac ▸ hne) (hip ▸ ht0) hs'
    · exact (hq.2 t ht ht0).2 hne (hreq.trans hip)
    · exact firstFree_of_room h.declined hroom hr hv.1.2.2
  · intro hmac
    have hconf := h.confirms q.requested env.now ht ht0
      ((hq.2 t ht ht0).1 hmac).1
    rw [hmac, hs] at hconf
    exact (Prod.mk.injEq .. ▸ hconf).2

theorem Server.Restored.handled {outs : List Out} (h : st.Restored recs) (hroom : st.HasRoom)
    (hq : q.Rejoins recs st env) (hh : Handled st env m q st' outs) : st'.Restored recs := by
  have hdiscover : ∀ {P : Prop}, q.type = dhcpDecline → P := fun ht => by
    rcases hq.1 with h | ⟨h, -⟩ <;> rw [h] at ht <;> exact absurd ht (by decide)
  cases hh with
  | ignored _ => exact h
  | offered _ hs h0 =>
    rw [select_of_room h.declined hroom hs]
    exact h.commit hroom.1 h0 (fun t ht ht0 => (h.selects hroom hq hs ht ht0).mpr)
      fun t ht ht0 hne heq => hne ((h.selects hroom hq hs ht ht0).mp heq)
  | acked _ _ hs h0 _ =>
    rw [select_of_room h.declined hroom hs]
    exact h.commit hroom.1 h0 (fun t ht ht0 => (h.selects hroom hq hs ht ht0).mpr)
      fun t ht ht0 hne heq => hne ((h.selects hroom hq hs ht ht0).mp heq)
  | naked _ _ hs _ =>
    rw [select_of_room h.declined hroom hs]
    exact h
  | elsewhere ht hnot _ _ =>
    rcases hq.1 with hd | ⟨-, hf⟩
    · rw [hd] at ht
      exact absurd ht (by decide)
    · exact absurd hf hnot
  | declined ht _ _ => exact hdiscover ht
  | declinedUnknown ht _ => exact hdiscover ht
  | released ht _ =>
    rcases hq.1 with h | ⟨h, -⟩ <;> rw [h] at ht <;> exact absurd ht (by decide)

theorem Server.Restored.saved (h : st.Restored recs) : (markSaved st).Restored recs := by
  have hf := markSaved_fields st
  refine ⟨h.table.saved, h.declined, fun i hi => ?_, fun t ht h0 => ?_,
    fun t ht h0 i hi hobs => ?_⟩
  · obtain ⟨huse, -, -, -, -, -, hq⟩ := hf i
    rw [Server.live, huse] at hi
    rw [hq]; exact h.served i hi
  · obtain ⟨i, hi, hmac, hip⟩ := h.kept t ht h0
    obtain ⟨huse, hm, hp, -⟩ := hf i
    exact ⟨i, by rw [Server.live, huse]; exact hi, hm.trans hmac, hp.trans hip⟩
  · obtain ⟨huse, hm, -, ho, -⟩ := hf i
    rw [Server.live, huse] at hi
    rw [hm]; exact h.alone t ht h0 i hi (ho ▸ hobs)

theorem Server.Restored.step (h : s.srv.Restored recs) (he : s.Rejoining recs e) :
    s.AnswersStored recs e ∧ (s.step e).srv.Restored recs := by
  obtain ⟨hroom, he⟩ := he
  cases e with
  | recv env m len =>
    refine ⟨fun q hq t ht h0 hmac => ?_, ?_⟩
    · obtain ⟨hask, hstored⟩ := he q hq
      obtain ⟨hin, hreq⟩ := (hstored t ht h0).1 hmac
      have hs := h.confirms q.requested env.now ht h0 hin
      rw [hmac] at hs
      have hchaddr := (readRequest_mac hq).symm.trans hmac.symm
      have houts : s.outs (.recv env m len) = _ := handleMessage_answer hq hask hs h0 hreq
      rw [houts]
      by_cases hd : q.type = dhcpDiscover
      · rw [if_pos hd, if_pos hd]
        refine ⟨⟨_, List.mem_singleton_self _, hchaddr, rfl, rfl⟩, fun o ho mac ip hc => ?_⟩
        rw [List.mem_singleton] at ho
        subst ho
        exact ⟨hc.2.1.symm.trans hchaddr, hc.2.2.symm⟩
      · rw [if_neg hd, if_neg hd]
        refine ⟨⟨_, List.mem_cons_self, hchaddr, rfl, rfl⟩, fun o ho mac ip hc => ?_⟩
        simp only [List.mem_cons, List.not_mem_nil, or_false] at ho
        rcases ho with rfl | rfl
        · exact ⟨hc.2.1.symm.trans hchaddr, hc.2.2.symm⟩
        · exact absurd hc (by simp [Out.Carries])
    · rcases s.recv_cases env m len with ⟨hsrv, -⟩ | ⟨q, hq, hh⟩
      · rw [hsrv]
        exact h
      · exact h.handled hroom (he q hq) hh
  | noteObserved _ _ _ => exact he.elim
  | setQuarantined _ _ => exact he.elim
  | poll now nvs =>
    exact ⟨fun q hq => absurd hq (by simp [Event.request?]), System.poll_srv now nvs h h.saved⟩
  | reboot _ _ => exact he.elim

/-- **Clients keep their address across a reboot, whatever the order they come back in.**
    A table is saved and the next boot finds it in flash, forgetting nobody; then clients
    with a stored lease and strangers send what they like, within what `Request.Rejoins`
    allows and while there is room. Every client with a stored lease that asks is answered
    with that address and no other. -/
theorem System.Reachable.rejoin_keeps_address {cfg : Config} {es : List Event}
    (hs : s.Reachable) (hkept : ∀ t ∈ savedRecords s.srv,
      forgets (s.srv.bootSeq + 1) storeVersion t = false)
    (hrun : Lib.Along System.step (System.Rejoining (savedRecords s.srv))
      (powerOn cfg (some (saveBlob s.srv)) now) es) :
    Lib.Along System.step (System.AnswersStored (savedRecords s.srv))
      (powerOn cfg (some (saveBlob s.srv)) now) es := by
  refine hrun.of_invariant (I := fun s' => s'.srv.Restored (savedRecords s.srv)) ?_
    fun s' e' h he' => ?_
  · exact Server.Restored.boot hs.inv.table hkept
  · exact Server.Restored.step h he'

def twoLeases : List Event :=
  [.sends 10 false dhcpRequest 1 (ip4 192 168 5 10),
    .sends 20 false dhcpRequest 2 (ip4 192 168 5 11)]

/-- After the reboot a stranger is served first, and of the two the later one comes back
    first and the other asks for nothing. -/
def rejoinSwapped : List Event :=
  [.sends 10 false dhcpDiscover 3 0, .sends 11 false dhcpRequest 3 (ip4 192 168 5 12),
    .sends 20 false dhcpDiscover 2 0, .sends 21 false dhcpRequest 2 (ip4 192 168 5 11),
    .poll 20000000 .ok, .sends 20000001 false dhcpRequest 1 0]

theorem rejoin_keeps_address_swapped :
    let s := twoLeases.foldl System.step (powerOn shipped none 0)
    Lib.Along System.step (System.AnswersStored (savedRecords s.srv))
      (powerOn shipped (some (saveBlob s.srv)) 0) rejoinSwapped := by
  intro s
  have hs : s.Reachable :=
    (System.Reachable.switchedOn shipped 0).run twoLeases (by decide +kernel)
  have hrecs : savedRecords s.srv =
      [⟨1, ip4 192 168 5 10, 0, 1⟩, ⟨2, ip4 192 168 5 11, 0, 1⟩] := by decide +kernel
  have hseq : s.srv.bootSeq = 1 := by decide +kernel
  refine hs.rejoin_keeps_address (by decide +kernel) ?_
  unfold powerOn
  rw [bootServer_saveBlob, hrecs, hseq]
  decide +kernel

end

end Dhcp
end Wt32Router
