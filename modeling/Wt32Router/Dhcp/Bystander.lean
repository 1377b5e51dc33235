import Wt32Router.Dhcp.System

/-!
# What a message does to somebody else's entry

Every safety property of the server is about one client's entry while *other* clients'
messages, notes and saves go by. This file says once what those can do to it, so that no
property has to look inside the allocator again.

> **`System.step_entry`**: the entry of a client that has been heard from this boot, and
> is not cut off, is left as it was by every event that is not that client's own, or the
> event is a message that *takes* the entry's leased address (`Request.Takes`).

Taking an address is getting at it through step 2 or step 4 of the allocator. Steps 1 and
3 cannot: leased addresses are unique, and step 3 wants an address nobody has an entry
for.
-/

namespace Wt32Router
namespace Dhcp

/-! ## Messages that get at an address somebody may have -/

/-- The allocator gets to step 2 for this message, and grants what it asks for. -/
def Request.GrantedAsked (q : Request) (st : Server) (env : Env) : Prop :=
  q.Asks st ∧ ∃ r ∈ rangesTried st q.mac q.requested env.wired env.now,
    AskedIn st q.mac q.requested env.now r

/-- The allocator gets to step 4 for this message, with a victim and an address there that
    satisfy `P`. -/
def Request.Reclaims (q : Request) (st : Server) (env : Env) (P : Slot → Ip → Prop) : Prop :=
  q.Asks st ∧ ∃ r ∈ rangesTried st q.mac q.requested env.wired env.now,
    Exhausted st q.mac q.requested r env.now ∧
      ∃ p ∈ pickVictimLocked st true r env.now, P p.1 p.2

/-- The message gets at an address through step 2 or step 4. -/
def Request.Takes (q : Request) (st : Server) (env : Env) (ip : Ip) : Prop :=
  (q.GrantedAsked st env ∧ q.requested = ip) ∨ q.Reclaims st env fun _ a => a = ip

instance (q : Request) (st : Server) (env : Env) : Decidable (q.GrantedAsked st env) :=
  inferInstanceAs (Decidable (_ ∧ _))

instance (q : Request) (st : Server) (env : Env) (P : Slot → Ip → Prop)
    [∀ v a, Decidable (P v a)] : Decidable (q.Reclaims st env P) :=
  inferInstanceAs (Decidable (_ ∧ _))

instance (q : Request) (st : Server) (env : Env) (ip : Ip) : Decidable (q.Takes st env ip) :=
  inferInstanceAs (Decidable (_ ∨ _))

section

variable {st st₁ st' : Server} {env : Env} {m : DhcpMsg} {q : Request} {len : Nat}
  {outs : List Out} {mac : Mac} {ip requested : Ip} {now holdS : Nat} {persist wired : Bool}
  {i j v : Slot} {r : ServedRange} {P Q : Slot → Ip → Prop} {macs : List Mac}

theorem Request.reclaims_of (ha : q.Asks st)
    (hr : r ∈ rangesTried st q.mac q.requested env.wired env.now)
    (h : ReclaimsIn st q.mac q.requested env.now r v ip) (hP : P v ip) :
    q.Reclaims st env P := ⟨ha, r, hr, h.1, (v, ip), h.2, hP⟩

theorem Request.Reclaims.mono (h : q.Reclaims st env P) (hPQ : ∀ v a, P v a → Q v a) :
    q.Reclaims st env Q := by
  obtain ⟨ha, r, hr, hex, p, hp, hP⟩ := h
  exact ⟨ha, r, hr, hex, p, hp, hPQ _ _ hP⟩

theorem Request.Reclaims.unseen (h : q.Reclaims st env P) :
    q.Reclaims st env fun v a => P v a ∧ seenThisBoot st (st.leases v) = false := by
  obtain ⟨ha, r, hr, hex, p, hp, hP⟩ := h
  exact ⟨ha, r, hr, hex, p, hp, hP, (pickVictimLocked_some hp).1.unseen⟩

theorem ne_findByMac (hne : (st.leases i).mac ≠ mac) : some i ≠ findByMacLocked st mac :=
  fun h => hne (findByMacLocked_some h.symm).2

/-- **An address somebody is on is selected for somebody else only off a victim.** -/
theorem select_of_uses (huse : (st.leases i).uses ip now = true)
    (hne : (st.leases i).mac ≠ mac) (h0 : ip ≠ 0)
    (hs : selectAddressLocked st mac requested wired now = (st₁, ip)) :
    ∃ r ∈ rangesTried st mac requested wired now, ∃ v, ReclaimsIn st mac requested now r v ip := by
  have hnot : ipInUseLocked st ip (findByMacLocked st mac) now ≠ false := by
    rw [Bool.ne_false_iff]
    exact ipInUseLocked_iff.mpr ⟨i, ne_findByMac hne, huse⟩
  rcases selectAddressLocked_cases hs with ⟨-, h⟩ | ⟨r, hr, hsel⟩
  · exact absurd h h0
  · cases hsel with
    | own h =>
      obtain ⟨-, -, -, -, -, -, hfree⟩ := confirmsOwn_some h
      exact absurd hfree hnot
    | asked h => exact absurd (grantsAsked_iff.mp h.2).2.2 hnot
    | free h _ =>
      have hno : (st.leases i).uses ip now = false :=
        not_uses_of_findByAnyIp (isFree_iff.mp h).2.2
      rw [huse] at hno
      exact absurd hno (by simp)
    | reclaimed h => exact ⟨r, hr, _, h⟩

/-- **An address somebody has leased, lapsed or not, is selected for somebody else only
    because it was asked for or off a victim.** -/
theorem select_of_leased (hu : IpUnique st.leases) (hi : st.live i)
    (hq : (st.leases i).quarantined = false) (hne : (st.leases i).mac ≠ mac)
    (h0 : (st.leases i).ip ≠ 0)
    (hs : selectAddressLocked st mac requested wired now = (st₁, (st.leases i).ip)) :
    ∃ r ∈ rangesTried st mac requested wired now,
      (AskedIn st mac requested now r ∧ requested = (st.leases i).ip) ∨
        ∃ v, ReclaimsIn st mac requested now r v (st.leases i).ip := by
  rcases selectAddressLocked_cases hs with ⟨-, h⟩ | ⟨r, hr, hsel⟩
  · exact absurd h h0
  · generalize hip : (st.leases i).ip = ip at hsel h0
    cases hsel with
    | own h =>
      obtain ⟨j, hj, hjip, -⟩ := confirmsOwn_some h
      obtain ⟨hjlive, hjmac⟩ := findByMacLocked_some hj
      have hij := hu i j ⟨hi, by rw [hip]; exact h0⟩ ⟨hjlive, by rw [← hjip]; exact h0⟩
        (by rw [hip, hjip])
      exact absurd (hij ▸ hjmac) hne
    | asked h => exact ⟨r, hr, .inl ⟨h, rfl⟩⟩
    | free h _ => exact absurd hip (findByAnyIpLocked_none (isFree_iff.mp h).2.2 hi hq).1
    | reclaimed h => exact ⟨r, hr, .inr ⟨_, h⟩⟩

/-- What is sent carries an address only if the sender of the message asked this server
    for one, and then it is what the allocator selected. -/
theorem Handled.carries (hh : Handled st env m q st' outs) (hq : readRequest m len = some q)
    {o : Out} (ho : o ∈ outs) (hc : o.Carries mac ip) (h0 : ip ≠ 0) :
    mac = q.mac ∧ q.Asks st ∧
      ∃ st₁, selectAddressLocked st q.mac q.requested env.wired env.now = (st₁, ip) := by
  have hmac := readRequest_mac hq
  cases hh with
  | ignored h =>
    rw [h o ho] at hc
    exact absurd hc.2.2.symm h0
  | offered ht hs _ =>
    simp only [List.mem_singleton] at ho
    subst ho
    obtain ⟨-, hm, hy⟩ := hc
    simp only [sendReply_chaddr, sendReply_yiaddr] at hm hy
    exact ⟨hm.symm.trans hmac.symm, .inl ht, _, hy ▸ hs⟩
  | acked ht hf hs _ _ =>
    simp only [List.mem_cons, List.not_mem_nil, or_false] at ho
    rcases ho with rfl | rfl
    · obtain ⟨-, hm, hy⟩ := hc
      simp only [sendReply_chaddr, sendReply_yiaddr] at hm hy
      exact ⟨hm.symm.trans hmac.symm, .inr ⟨ht, hf⟩, _, hy ▸ hs⟩
    · exact absurd hc (by simp [Out.Carries])
  | naked _ _ _ _ =>
    simp only [List.mem_singleton] at ho
    subst ho
    exact absurd hc.2.2.symm h0
  | elsewhere _ _ _ _ => exact absurd ho (by simp)
  | declined _ _ _ => exact absurd ho (by simp)
  | declinedUnknown _ _ => exact absurd ho (by simp)
  | released _ _ => exact absurd ho (by simp)

/-! ## One entry, and one operation on the table -/

/-- Selecting an address touches the entry it reclaims and no other. -/
theorem select_keeps (hs : selectAddressLocked st mac requested wired now = (st₁, ip)) :
    st₁.leases i = st.leases i ∨
      ∃ r ∈ rangesTried st mac requested wired now,
        ReclaimsIn st mac requested now r i ip ∧ st₁ = reclaimLocked st i now := by
  rcases selectAddressLocked_cases hs with ⟨rfl, -⟩ | ⟨r, hr, hsel⟩
  · exact .inl rfl
  · cases hsel with
    | own _ => exact .inl rfl
    | asked _ => exact .inl rfl
    | free _ _ => exact .inl rfl
    | @reclaimed v _ h =>
      by_cases hiv : i = v
      · subst hiv
        exact .inr ⟨r, hr, h, rfl⟩
      · exact .inl (by simp [hiv])

theorem select_live (hs : selectAddressLocked st mac requested wired now = (st₁, ip))
    (hj : st₁.live j) : st₁.leases j = st.leases j := by
  rcases select_keeps (i := j) hs with h | ⟨r, -, -, rfl⟩
  · exact h
  · rw [Server.live, reclaimLocked_leases, Server.dropLease_same] at hj
    exact absurd hj (by simp)

theorem select_seen (hs : selectAddressLocked st mac requested wired now = (st₁, ip))
    (hseen : seenThisBoot st (st.leases i) = true) : st₁.leases i = st.leases i := by
  rcases select_keeps (i := i) hs with hsame | ⟨r, -, hr, -⟩
  · exact hsame
  · exact absurd ((pickVictimLocked_some hr.2).1.unseen.symm.trans hseen) (by simp)

/-- What neither half of a selection touches: the configuration, the generation and the
    declined list. -/
structure Server.SameStatics (st st' : Server) : Prop where
  cfg : st'.cfg = st.cfg
  bootSeq : st'.bootSeq = st.bootSeq
  declined : st'.declined = st.declined

theorem select_statics (hs : selectAddressLocked st mac requested wired now = (st₁, ip)) :
    st.SameStatics st₁ := by
  rcases selectAddressLocked_cases hs with ⟨rfl, -⟩ | ⟨r, -, hsel⟩
  · exact ⟨rfl, rfl, rfl⟩
  · cases hsel <;> exact ⟨by simp, by simp, by simp⟩

theorem select_cfg (hs : selectAddressLocked st mac requested wired now = (st₁, ip)) :
    st₁.cfg = st.cfg := (select_statics hs).cfg

theorem select_bootSeq (hs : selectAddressLocked st mac requested wired now = (st₁, ip)) :
    st₁.bootSeq = st.bootSeq := (select_statics hs).bootSeq

theorem select_declined (hs : selectAddressLocked st mac requested wired now = (st₁, ip)) :
    st₁.declined = st.declined := (select_statics hs).declined

/-- An allocator that never gets to a victim leaves the server as it was. -/
theorem select_unchanged (hs : selectAddressLocked st mac requested wired now = (st₁, ip))
    (hno : ∀ r ∈ rangesTried st mac requested wired now, ∀ v a,
      ¬ ReclaimsIn st mac requested now r v a) : st₁ = st := by
  rcases selectAddressLocked_cases hs with ⟨h, -⟩ | ⟨r, hr, hsel⟩
  · exact h
  · cases hsel with
    | own _ => rfl
    | asked _ => rfl
    | free _ _ => rfl
    | reclaimed h => exact absurd h (hno r hr _ _)

theorem SlotFor.keeps {e : Slot} (h : SlotFor st mac now st₁ e) (hi : st.live i)
    (hne : (st.leases i).mac ≠ mac) :
    (i ≠ e ∧ st₁.leases i = st.leases i) ∨
      (i = e ∧ Eligible st false ⟨0, 0⟩ now i ∧ ∀ j, st.live j) := by
  by_cases hie : i = e
  · subst hie
    cases h with
    | own hm => exact absurd (findByMacLocked_some hm).2 hne
    | free _ hf => rw [Server.live, hf] at hi; exact absurd hi (by simp)
    | reclaimed _ hfull he => exact .inr ⟨rfl, he, hfull⟩
  · exact .inl ⟨hie, h.other hie⟩

theorem note_seen (hi : st.live i) (hseen : seenThisBoot st (st.leases i) = true)
    (hne : (st.leases i).mac ≠ mac) :
    (noteObservedIp st mac ip now).leases i = st.leases i := by
  rcases noteObservedIp_cases st mac ip now with ⟨heq, -⟩ | ⟨st₁, e, -, -, hs, heq⟩
  · rw [heq]
  · rw [heq]
    rcases hs.keeps hi hne with ⟨hie, hsame⟩ | ⟨-, hel, -⟩
    · exact (noteAt_other hie).trans hsame
    · exact absurd (hel.unseen.symm.trans hseen) (by simp)

/-- A commit touches an entry of another client only by taking its slot or by clearing it
    as the holder of the address. -/
theorem commit_keeps (ip : Ip) (holdS : Nat) (persist : Bool) (now : Nat) (hi : st.live i)
    (hne : (st.leases i).mac ≠ mac) :
    (commitLeaseLocked st mac ip holdS persist now).1.leases i = st.leases i ∨
      (Eligible st false ⟨0, 0⟩ now i ∧ ∀ j, st.live j) ∨ (st.leases i).ip = ip := by
  cases hc : commitLeaseLocked st mac ip holdS persist now with
  | mk st' ok =>
    rcases commitLeaseLocked_cases hc with ⟨-, rfl, -⟩ | ⟨st₁, e, -, -, hs, rfl⟩
    · exact .inl rfl
    · rcases hs.keeps hi hne with ⟨hie, hsame⟩ | ⟨-, hel⟩
      · dsimp only
        rw [commitAt_other ip holdS persist now hie]
        rcases clearClash_other st₁ e ip now i with h | ⟨hc, -⟩
        · exact .inl (h.trans hsame)
        · refine .inr (.inr ?_)
          rw [← hsame]
          exact (findByIpLocked_some hc).2
      · exact .inr (.inl hel)

theorem commit_statics (st : Server) (mac : Mac) (ip : Ip) (holdS : Nat) (persist : Bool)
    (now : Nat) : st.SameStatics (commitLeaseLocked st mac ip holdS persist now).1 := by
  cases hc : commitLeaseLocked st mac ip holdS persist now with
  | mk st' ok =>
    rcases commitLeaseLocked_cases hc with ⟨-, rfl, -⟩ | ⟨st₁, e, -, -, hs, rfl⟩
    · exact ⟨rfl, rfl, rfl⟩
    · exact ⟨commitAt_cfg.trans hs.cfg_eq, commitAt_bootSeq.trans hs.bootSeq_eq,
        commitAt_declined.trans hs.declined_eq⟩

theorem commit_bootSeq :
    (commitLeaseLocked st mac ip holdS persist now).1.bootSeq = st.bootSeq :=
  (commit_statics st mac ip holdS persist now).bootSeq

theorem commit_cfg :
    (commitLeaseLocked st mac ip holdS persist now).1.cfg = st.cfg :=
  (commit_statics st mac ip holdS persist now).cfg

theorem commit_declined :
    (commitLeaseLocked st mac ip holdS persist now).1.declined = st.declined :=
  (commit_statics st mac ip holdS persist now).declined

theorem commit_other_live (hj : (commitLeaseLocked st mac ip holdS persist now).1.live j)
    (hne : ((commitLeaseLocked st mac ip holdS persist now).1.leases j).mac ≠ mac) :
    st.live j ∧
      (commitLeaseLocked st mac ip holdS persist now).1.leases j = st.leases j := by
  rcases commit_origin hj with ⟨hlive, heq | ⟨hm, heq⟩⟩ | ⟨-, heq⟩
  · exact ⟨hlive, heq⟩
  · rw [heq] at hne
    exact absurd hm hne
  · rw [heq] at hne
    exact absurd rfl hne

theorem commit_own_slot (h : TableInv st)
    (hj : (commitLeaseLocked st mac ip holdS persist now).1.live j)
    (hmac : ((commitLeaseLocked st mac ip holdS persist now).1.leases j).mac = mac)
    (h0 : ip ≠ 0) : ∃ st₁, SlotFor st mac now st₁ j ∧
      (commitLeaseLocked st mac ip holdS persist now).1 = commitAt st₁ j ip holdS persist now := by
  have hu := (h.commit mac holdS persist now h0).mac
  cases hc : commitLeaseLocked st mac ip holdS persist now with
  | mk st' ok =>
    rw [hc] at hj hmac hu
    rcases commitLeaseLocked_cases hc with ⟨-, rfl, hnone⟩ | ⟨st₁, e, -, -, hs, rfl⟩
    · exact absurd hmac (findByMacLocked_none (slotForLocked_none hnone).1 hj)
    have hlive : (commitAt st₁ e ip holdS persist now).live e := by
      rw [Server.live, commitAt_same]; exact hs.live_mac.1
    have hemac : ((commitAt st₁ e ip holdS persist now).leases e).mac = mac := by
      rw [commitAt_same]; exact hs.live_mac.2
    have hje : j = e := hu j e hj hlive (hmac.trans hemac.symm)
    subst hje
    exact ⟨st₁, hs, rfl⟩

theorem commit_own_seen (h : TableInv st)
    (hj : (commitLeaseLocked st mac ip holdS persist now).1.live j)
    (hmac : ((commitLeaseLocked st mac ip holdS persist now).1.leases j).mac = mac)
    (h0 : ip ≠ 0) :
    ((commitLeaseLocked st mac ip holdS persist now).1.leases j).lastSeenSeq = st.bootSeq := by
  obtain ⟨st₁, hs, heq⟩ := commit_own_slot h hj hmac h0
  rw [heq, commitAt_same]
  exact hs.bootSeq_eq

/-- A commit that finds a slot leaves an entry of this client with the lease in it. -/
theorem commit_entry (ip : Ip) (holdS : Nat) (persist : Bool)
    (hroom : slotForLocked st mac now ≠ none) :
    ∃ j, (commitLeaseLocked st mac ip holdS persist now).1.live j ∧
      ((commitLeaseLocked st mac ip holdS persist now).1.leases j).mac = mac ∧
      seenThisBoot (commitLeaseLocked st mac ip holdS persist now).1
        ((commitLeaseLocked st mac ip holdS persist now).1.leases j) = true ∧
      ((commitLeaseLocked st mac ip holdS persist now).1.leases j).ip = ip ∧
      ((commitLeaseLocked st mac ip holdS persist now).1.leases j).expiresUs =
        now + holdS * 1000000 := by
  obtain ⟨p, hslot⟩ := Option.ne_none_iff_exists'.mp hroom
  obtain ⟨st₁, j⟩ := p
  have hfor := slotForLocked_some hslot
  have hcom : (commitLeaseLocked st mac ip holdS persist now).1 =
      commitAt st₁ j ip holdS persist now := by
    unfold commitLeaseLocked
    rw [hslot]
  rw [hcom]
  refine ⟨j, ?_, ?_, ?_, ?_, ?_⟩
  · rw [Server.live, commitAt_same]; exact hfor.live_mac.1
  · rw [commitAt_same]; exact hfor.live_mac.2
  · rw [seenThisBoot_iff, commitAt_same, commitAt_bootSeq]; exact BitVec.le_refl _
  · rw [commitAt_same]
  · rw [commitAt_same]

/-- Selecting an address and recording it, as a message does: an entry of another client
    is kept unless it was reclaimed, or had the selected address leased. -/
theorem select_commit_keeps (holdS : Nat) (persist : Bool) (hi : st.live i)
    (hne : (st.leases i).mac ≠ mac)
    (hs : selectAddressLocked st mac requested wired now = (st₁, ip)) :
    (commitLeaseLocked st₁ mac ip holdS persist now).1.leases i = st.leases i ∨
      (∃ need r, Eligible st need r now i) ∨ (st.leases i).ip = ip := by
  rcases select_keeps (i := i) hs with hsame | ⟨r, -, hr, -⟩
  · have hlive : st₁.live i := by rwa [Server.live, hsame]
    have hmac : (st₁.leases i).mac ≠ mac := by rwa [hsame]
    have hcom := commit_keeps ip holdS persist now hlive hmac
    rw [hsame] at hcom
    rcases hcom with h | h | h
    · exact .inl h
    · refine .inr (.inl ⟨false, ⟨0, 0⟩, ?_⟩)
      have hb := select_bootSeq hs
      have hd := select_declined hs
      simpa only [Eligible, victimEligible, seenThisBoot, ipDeclined, hsame, hb, hd] using h.1
    · exact .inr (.inr h)
  · exact .inr (.inl ⟨_, _, (pickVictimLocked_some hr.2).1⟩)

/-! ## One entry, and one event -/

theorem Handled.bootSeq_eq (hh : Handled st env m q st' outs) : st'.bootSeq = st.bootSeq := by
  cases hh with
  | ignored _ => rfl
  | offered _ hs _ => rw [commit_bootSeq, select_bootSeq hs]
  | acked _ _ hs _ _ => rw [commit_bootSeq, select_bootSeq hs]
  | naked _ _ hs _ => exact select_bootSeq hs
  | elsewhere _ _ _ _ => rfl
  | declined _ _ heq => subst heq; split <;> simp
  | declinedUnknown _ _ => simp
  | released _ _ => rfl

theorem Handled.cfg_eq (hh : Handled st env m q st' outs) : st'.cfg = st.cfg := by
  cases hh with
  | ignored _ => rfl
  | offered _ hs _ => rw [commit_cfg, select_cfg hs]
  | acked _ _ hs _ _ => rw [commit_cfg, select_cfg hs]
  | naked _ _ hs _ => exact select_cfg hs
  | elsewhere _ _ _ _ => rfl
  | declined _ _ heq => subst heq; split <;> simp
  | declinedUnknown _ _ => simp
  | released _ _ => rfl

/-- **One message and a bystander's entry**: kept, reclaimed, or cleared because its
    leased address was selected for the sender. -/
theorem Handled.keeps (hh : Handled st env m q st' outs) (hi : st.live i)
    (hne : (st.leases i).mac ≠ q.mac) :
    st'.leases i = st.leases i ∨ (q.Asks st ∧ ((∃ need r, Eligible st need r env.now i) ∨
      (st.leases i).ip ≠ 0 ∧ ∃ st₁, selectAddressLocked st q.mac q.requested env.wired env.now =
        (st₁, (st.leases i).ip))) := by
  have hother : ∀ {j}, findByMacLocked st q.mac = some j → i ≠ j := fun hj hij =>
    hne (hij ▸ (findByMacLocked_some hj).2)
  cases hh with
  | ignored _ => exact .inl rfl
  | offered ht hs h0 =>
    rcases select_commit_keeps offerHoldS false hi hne hs with h | h | h
    · exact .inl h
    · exact .inr ⟨.inl ht, .inl h⟩
    · exact .inr ⟨.inl ht, .inr ⟨h ▸ h0, _, h ▸ hs⟩⟩
  | acked ht hf hs h0 _ =>
    rcases select_commit_keeps (leaseTimeSFor env) true hi hne hs with
      h | h | h
    · exact .inl h
    · exact .inr ⟨.inr ⟨ht, hf⟩, .inl h⟩
    · exact .inr ⟨.inr ⟨ht, hf⟩, .inr ⟨h ▸ h0, _, h ▸ hs⟩⟩
  | naked ht hf hs _ =>
    rcases select_keeps (i := i) hs with h | ⟨r, -, hr, -⟩
    · exact .inl h
    · exact .inr ⟨.inr ⟨ht, hf⟩, .inl ⟨_, _, (pickVictimLocked_some hr.2).1⟩⟩
  | elsewhere _ _ hj _ => exact .inl (by simp [hother hj])
  | declined _ hj heq =>
    subst heq
    refine .inl ?_
    split <;> simp [hother hj]
  | declinedUnknown _ _ => exact .inl (by simp)
  | released _ hj => exact .inl (by simp [hother hj])

/-- An entry of a client the server has heard from this boot and is not cutting off. -/
structure Server.Heard (st : Server) (mac : Mac) (i : Slot) : Prop where
  live : st.live i
  mac_eq : (st.leases i).mac = mac
  seen : seenThisBoot st (st.leases i) = true
  served : (st.leases i).quarantined = false

/-- The event is not this client's own and does not cut it off: no message from it, no
    set with it in, no restart. -/
def Event.Spares (mac : Mac) : Event → Prop
  | .recv _ m len => ∀ q ∈ readRequest m len, q.mac ≠ mac
  | .noteObserved .. => True
  | .setQuarantined _ macs => mac ∉ macs
  | .poll .. => True
  | .reboot .. => False

instance (mac : Mac) (e : Event) : Decidable (e.Spares mac) := by
  cases e <;> unfold Event.Spares <;> infer_instance

/-- What is true of the request of an event, if it carries one. -/
def System.Asking (s : System) (e : Event) (P : Server → Env → Request → Prop) : Prop :=
  match e with
  | .recv env m len => ∃ q ∈ readRequest m len, P s.srv env q
  | _ => False

instance (s : System) (e : Event) (P : Server → Env → Request → Prop)
    [∀ st env q, Decidable (P st env q)] : Decidable (s.Asking e P) := by
  cases e <;> unfold System.Asking <;> infer_instance

theorem System.Asking.mono {s : System} {e : Event} {P Q : Server → Env → Request → Prop}
    (h : s.Asking e P)
    (hPQ : ∀ env q, e.time = env.now → e.request? = some q → P s.srv env q → Q s.srv env q) :
    s.Asking e Q := by
  cases e with
  | recv env m len =>
    obtain ⟨q, hq, hP⟩ := h
    exact ⟨q, hq, hPQ env q rfl hq hP⟩
  | noteObserved _ _ _ => exact h
  | setQuarantined _ _ => exact h
  | poll _ _ => exact h
  | reboot _ _ => exact h

theorem Event.Spares.ne {e : Event} (h : e.Spares mac) (hq : e.request? = some q) :
    q.mac ≠ mac := by
  cases e with
  | recv env m len => exact h q hq
  | _ => exact absurd hq (by simp [Event.request?])

theorem Server.Heard.notEligible (h : st.Heard mac i) {need : Bool} :
    ¬ Eligible st need r now i :=
  fun he => absurd (he.unseen.symm.trans h.seen) (by simp)

theorem Server.Heard.of_eq (h : st.Heard mac i) (hseq : st'.bootSeq = st.bootSeq)
    (heq : st'.leases i = st.leases i) : st'.Heard mac i where
  live := by rw [Server.live, heq]; exact h.live
  mac_eq := by rw [heq]; exact h.mac_eq
  seen := by
    rw [seenThisBoot_iff, hseq, heq]
    exact seenThisBoot_iff.mp h.seen
  served := by rw [heq]; exact h.served

/-- What a bystander's entry still says after an event: the same lease, and the same
    observed address unless the event is a note about this very client. -/
def SameLease (mac : Mac) (e : Event) (l l' : Lease) : Prop :=
  l'.ip = l.ip ∧ l'.expiresUs = l.expiresUs ∧
    (l'.observedIp = l.observedIp ∨ ∃ now ip, e = .noteObserved now mac ip ∧
      l'.observedIp = if ip = l.ip then 0 else ip)

theorem SameLease.refl {e : Event} {l : Lease} : SameLease mac e l l := ⟨rfl, rfl, .inl rfl⟩

/-- The message gets at the leased address of a bystander the server has heard from, if
    the bystander's entry does not survive it. -/
theorem Handled.takes (h : TableInv st) (hi : st.Heard mac i) (hne : mac ≠ q.mac)
    (hh : Handled st env m q st' outs) :
    q.Takes st env (st.leases i).ip ∨ st'.leases i = st.leases i := by
  have hmac : (st.leases i).mac ≠ q.mac := by rw [hi.mac_eq]; exact hne
  rcases hh.keeps hi.live hmac with heq | ⟨ha, ⟨_, _, hel⟩ | ⟨h0, st₁, hs⟩⟩
  · exact .inr heq
  · exact absurd hel hi.notEligible
  · left
    obtain ⟨r, hr, ⟨hask, heq⟩ | ⟨v, hv⟩⟩ :=
      select_of_leased h.ip hi.live hi.served hmac h0 hs
    · exact .inl ⟨⟨ha, r, hr, hask⟩, heq⟩
    · exact .inr (Request.reclaims_of ha hr hv rfl)

theorem note_keeps (h : TableInv st) (hi : st.Heard mac i) {mac' : Mac} :
    (noteObservedIp st mac' ip now).Heard mac i ∧
      SameLease mac (.noteObserved now mac' ip) (st.leases i)
        ((noteObservedIp st mac' ip now).leases i) := by
  by_cases hm : mac' = mac
  · subst hm
    rcases noteObservedIp_cases st mac' ip now with ⟨heq, -⟩ | ⟨st₁, e, -, hslot, -, heq⟩
    · rw [heq]
      exact ⟨hi, .refl⟩
    have hown : findByMacLocked st mac' = some i := by
      have := findByMacLocked_eq h.mac hi.live
      rwa [hi.mac_eq] at this
    rw [slotForLocked_own hown] at hslot
    simp only [Option.some.injEq, Prod.mk.injEq] at hslot
    obtain ⟨rfl, rfl⟩ := hslot
    have hl : (noteAt st i ip now).leases i = notedLease st.bootSeq ip now (st.leases i) :=
      noteAt_same
    rw [heq]
    refine ⟨⟨?_, ?_, ?_, ?_⟩, ?_, ?_, .inr ⟨now, ip, rfl, ?_⟩⟩
    · rw [Server.live, hl]; exact hi.live
    · rw [hl]; exact hi.mac_eq
    · rw [seenThisBoot_iff, noteAt_bootSeq, hl]; exact BitVec.le_refl _
    · rw [hl]; exact hi.served
    · rw [hl]; rfl
    · rw [hl]; rfl
    · rw [hl]; rfl
  · have hne : (st.leases i).mac ≠ mac' := by rw [hi.mac_eq]; exact Ne.symm hm
    have hsame : (noteObservedIp st mac' ip now).leases i = st.leases i :=
      note_seen hi.live hi.seen hne
    refine ⟨hi.of_eq noteObservedIp_bootSeq hsame, ?_⟩
    rw [hsame]
    exact .refl

theorem quarantine_keeps (hi : st.Heard mac i) (hmac : mac ∉ macs) {e : Event} :
    (setQuarantined st macs now).Heard mac i ∧
      SameLease mac e (st.leases i) ((setQuarantined st macs now).leases i) := by
  have hl : (setQuarantined st macs now).leases i = quarantineLease macs (st.leases i) :=
    setQuarantined_leases
  rw [hl]
  refine ⟨⟨?_, ?_, ?_, ?_⟩, .refl⟩
  · rw [Server.live, hl]; exact hi.live
  · rw [hl]; exact hi.mac_eq
  · rw [seenThisBoot_iff, hl, setQuarantined_bootSeq]; exact seenThisBoot_iff.mp hi.seen
  · rw [hl]
    simp [quarantineLease, hi.mac_eq, hmac]

theorem saved_keeps (hi : st.Heard mac i) {e : Event} :
    (markSaved st).Heard mac i ∧ SameLease mac e (st.leases i) ((markSaved st).leases i) := by
  obtain ⟨huse, hmac, hip, hobs, hexp, hseen, hq⟩ := markSaved_fields st i
  refine ⟨⟨?_, ?_, ?_, ?_⟩, hip, hexp, .inl hobs⟩
  · rw [Server.live, huse]; exact hi.live
  · rw [hmac]; exact hi.mac_eq
  · rw [seenThisBoot_iff, hseen]; exact seenThisBoot_iff.mp hi.seen
  · rw [hq]; exact hi.served

/-- **One event and a bystander's entry.** It says what it said before, or the event is a
    message that takes the address it has leased. -/
theorem System.step_entry {s : System} {e : Event} (hI : s.Inv) (hi : s.srv.Heard mac i)
    (he : e.Spares mac) :
    (s.Asking e fun st env q => q.Takes st env (s.srv.leases i).ip) ∨
      ((s.step e).srv.Heard mac i ∧
        SameLease mac e (s.srv.leases i) ((s.step e).srv.leases i)) := by
  cases e with
  | recv env m len =>
    rcases s.recv_cases env m len with ⟨hsrv, -⟩ | ⟨q, hq, hh⟩
    · rw [hsrv]
      exact .inr ⟨hi, .refl⟩
    · rcases hh.takes hI.table hi (Ne.symm (he q hq)) with ht | heq
      · exact .inl ⟨q, hq, ht⟩
      · refine .inr ⟨hi.of_eq hh.bootSeq_eq heq, ?_⟩
        rw [heq]
        exact .refl
  | noteObserved now mac' ip => exact .inr (note_keeps hI.table hi)
  | setQuarantined now macs => exact .inr (quarantine_keeps hi he)
  | poll now nvs =>
    right
    exact System.poll_srv (P := fun st => st.Heard mac i ∧
      SameLease mac (.poll now nvs) (s.srv.leases i) (st.leases i)) now nvs ⟨hi, .refl⟩
      (saved_keeps hi)
  | reboot now cfg => exact absurd he (by simp [Event.Spares])

end

end Dhcp
end Wt32Router
