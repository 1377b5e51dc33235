import Wt32Router.Dhcp.Bystander

/-!
# Who an address is given to

Three questions about one address and two clients. Is what the allocator returns free of
anybody else (`selectAddressLocked_sound_iff`)? Does a client that was told it may use an
address keep it (`acked_exclusive`)? And one that was *seen* using an address
(`observed_exclusive`)?

The answer is the same each time: yes, except through **step 4**, which takes an address
off a victim without asking whether anybody else is on it, and for an observed address
through **step 2** as well, which takes the whole entry down for the sake of a lapsed
lease. The theorems are stated with these steps excluded, and beside each stands a run of
the shipped configuration that takes one.
-/

namespace Wt32Router
namespace Dhcp

/-! ## The allocator -/

section

variable {st st' : Server} {mac : Mac} {requested ip : Ip} {wired : Bool} {now : Nat}

/-- **What `select_address_locked` returns is in use by nobody else, if and only if** no
    range gets as far as step 4 with a victim on whose address a third entry is: neither
    the victim's nor the requester's own. -/
theorem selectAddressLocked_sound_iff (st : Server) (mac : Mac) (requested : Ip) (wired : Bool)
    (now : Nat) :
    (∀ st' ip, selectAddressLocked st mac requested wired now = (st', ip) → ip ≠ 0 →
        ipInUseLocked st' ip (findByMacLocked st mac) now = false) ↔
      ¬ ∃ r ∈ rangesTried st mac requested wired now, ∃ v ip,
        ReclaimsIn st mac requested now r v ip ∧
          ∃ j, j ≠ v ∧ some j ≠ findByMacLocked st mac ∧ (st.leases j).uses ip now = true := by
  constructor
  · rintro hsound ⟨r, hr, v, ip, hv, j, hjv, hjm, huse⟩
    have h0 : ip ≠ 0 := by
      obtain ⟨hel, rfl⟩ := pickVictimLocked_some hv.2
      exact hel.address.1
    have hfree := hsound _ _ (selectAddressLocked_of_reclaims hr hv) h0
    have hj := ipInUseLocked_false_iff.mp hfree j hjm
    rw [reclaimLocked_leases, Server.dropLease_ne _ _ _ hjv, huse] at hj
    exact absurd hj (by simp)
  · intro hno st' ip hs h0
    rcases selectAddressLocked_cases hs with ⟨-, h⟩ | ⟨r, hr, hsel⟩
    · exact absurd h h0
    · cases hsel with
      | own h =>
        obtain ⟨-, -, -, -, -, -, hfree⟩ := confirmsOwn_some h
        exact hfree
      | asked h => exact (grantsAsked_iff.mp h.2).2.2
      | free h _ =>
        exact ipInUseLocked_false_iff.mpr fun _ _ => not_uses_of_findByAnyIp (isFree_iff.mp h).2.2
      | @reclaimed v _ h =>
        refine ipInUseLocked_false_iff.mpr fun j hjm => ?_
        by_contra huse
        rw [Bool.not_eq_false, reclaimLocked_leases] at huse
        have hjv : j ≠ v := by
          rintro rfl
          rw [Server.dropLease_same] at huse
          exact absurd (Lease.uses_iff.mp huse).1 (by simp)
        rw [Server.dropLease_ne _ _ _ hjv] at huse
        exact hno ⟨r, hr, v, ip, h, j, hjv, hjm, huse⟩

end

/-- Eight wired clients take the wired range, each asking for one address of it. -/
def wiredRangeTaken : List Event :=
  (List.range 8).map fun k => .sends (10 + k) true dhcpRequest (BitVec.ofNat 48 (k + 1))
    (ipOffset (ip4 192 168 5 2) k)

/-- The wired range is taken; its first client releases 192.168.5.2, and a ninth is then
    seen using that address. -/
def releasedThenSeen : List Event :=
  wiredRangeTaken ++ [.sends 20 true dhcpRelease 1 0, .noteObserved 21 9 (ip4 192 168 5 2)]

/-- Step 4 takes 192.168.5.2 off the client that released it, and the client seen on it
    is still on it. -/
theorem selectAddressLocked_unsound : ¬ ∀ s : System, s.Reachable →
    ∀ mac requested wired now st' ip,
      selectAddressLocked s.srv mac requested wired now = (st', ip) → ip ≠ 0 →
        ipInUseLocked st' ip (findByMacLocked s.srv mac) now = false := by
  intro hall
  let s := releasedThenSeen.foldl System.step (powerOn shipped none 0)
  have hs : s.Reachable :=
    (System.Reachable.switchedOn shipped 0).run releasedThenSeen (by decide +kernel)
  have hip : (selectAddressLocked s.srv 10 0 true 30).2 = ip4 192 168 5 2 := by decide +kernel
  have huse : ipInUseLocked (selectAddressLocked s.srv 10 0 true 30).1 (ip4 192 168 5 2)
      (findByMacLocked s.srv 10) 30 = true := by decide +kernel
  generalize hsel : selectAddressLocked s.srv 10 0 true 30 = res at hip huse
  obtain ⟨st', ip⟩ := res
  dsimp only at hip huse
  subst hip
  have hfree := hall s hs 10 0 true 30 st' _ hsel (by decide)
  exact absurd (huse.symm.trans hfree) (by simp)

/-! ## A client that was told it may use an address -/

/-- No OFFER or ACK this step sends carries the address to anybody else. -/
def System.GivesOnlyTo (mac : Mac) (ip : Ip) (s : System) (e : Event) : Prop :=
  ∀ o ∈ s.outs e, ∀ mac', o.Carries mac' ip → mac' = mac

def Server.CutOff (st : Server) (mac : Mac) : Prop :=
  ∃ i, st.live i ∧ (st.leases i).mac = mac ∧ (st.leases i).quarantined = true

/-- Step 4 is reached with a victim on whose address somebody else has an unexpired
    lease. -/
def TakesUnexpired (st : Server) (env : Env) (q : Request) : Prop :=
  q.Reclaims st env fun v ip => ∃ j, j ≠ v ∧ st.live j ∧ (st.leases j).quarantined = false ∧
    (st.leases j).ip = ip ∧ env.now ≤ (st.leases j).expiresUs

instance (st : Server) (mac : Mac) : Decidable (st.CutOff mac) :=
  inferInstanceAs (Decidable (∃ _, _))

instance (st : Server) (env : Env) (q : Request) : Decidable (TakesUnexpired st env q) :=
  inferInstanceAs (Decidable (q.Reclaims _ _ _))

section

variable {s : System} {e : Event} {mac : Mac} {ip : Ip} {leaseS : Nat} {es : List Event}
  {st st₁ st' : Server} {i : Slot} {now : Nat} {q : Request} {env : Env}

/-- What is sent carries an address to somebody other than the client that is on it only
    off a victim. -/
theorem System.carries_of_uses {o : Out} {mac' : Mac} (hi : s.srv.Heard mac i)
    (huse : (s.srv.leases i).uses ip e.time = true) (h0 : ip ≠ 0) (he : e.Spares mac)
    (ho : o ∈ s.outs e) (hc : o.Carries mac' ip) :
    s.Asking e fun st env q => q.Reclaims st env fun v a => v ≠ i ∧ a = ip := by
  cases e with
  | recv env m len =>
    rcases s.recv_cases env m len with ⟨-, hnone⟩ | ⟨q, hq, hh⟩
    · rw [hnone] at ho
      exact absurd ho (by simp)
    · obtain ⟨-, ha, st₁, hs⟩ := hh.carries hq ho hc h0
      have hne : (s.srv.leases i).mac ≠ q.mac := by
        rw [hi.mac_eq]; exact Ne.symm (he q hq)
      obtain ⟨r, hr, v, hv⟩ := select_of_uses huse hne h0 hs
      refine ⟨q, hq, Request.reclaims_of ha hr hv ⟨fun hvi => ?_, rfl⟩⟩
      exact hi.notEligible (hvi ▸ (pickVictimLocked_some hv.2).1)
  | noteObserved _ _ _ => exact absurd ho (by simp [System.outs])
  | setQuarantined _ _ => exact absurd ho (by simp [System.outs])
  | poll _ _ => exact absurd ho (by simp [System.outs])
  | reboot _ _ => exact absurd ho (by simp [System.outs])

/-- There is room for a client after an address has been selected for it, if there was
    before: a victim's slot is free by then. -/
theorem slotForLocked_select {requested : Ip} {wired : Bool}
    (hroom : slotForLocked st mac now ≠ none)
    (hs : selectAddressLocked st mac requested wired now = (st₁, ip)) :
    slotForLocked st₁ mac now ≠ none := by
  rcases selectAddressLocked_cases hs with ⟨rfl, -⟩ | ⟨r, -, hsel⟩
  · exact hroom
  · cases hsel with
    | own _ => exact hroom
    | asked _ => exact hroom
    | free _ _ => exact hroom
    | @reclaimed v _ _ =>
      intro hnone
      have hlive := (slotForLocked_none hnone).2.1 v
      rw [Server.live, reclaimLocked_leases, Server.dropLease_same] at hlive
      exact absurd hlive (by simp)

theorem System.acked_entry (hack : ∃ o ∈ s.outs e, o.Acks mac ip leaseS) (h0 : ip ≠ 0)
    (hroom : slotForLocked s.srv mac e.time ≠ none) (hcut : ¬ (s.step e).srv.CutOff mac) :
    ∃ i, (s.step e).srv.Heard mac i ∧ ((s.step e).srv.leases i).ip = ip ∧
      ((s.step e).srv.leases i).expiresUs = e.time + leaseS * 1000000 := by
  obtain ⟨o, ho, hack⟩ := hack
  cases e with
  | recv env m len =>
    cases hm : handleMessage s.srv env m len with
    | mk st' outs =>
      have hout : o ∈ outs := by simpa [System.outs, hm] using ho
      have hstep : (s.step (.recv env m len)).srv = st' := by simp [System.step, hm]
      rw [hstep] at hcut ⊢
      have hcar : o.Carries mac ip := by
        cases o with
        | reply r => exact ⟨.inr hack.1, hack.2.1, hack.2.2.1⟩
        | assigned _ _ _ => exact hack
      rcases handleMessage_cases hm with ⟨-, rfl⟩ | ⟨q, hq, hh⟩
      · exact absurd hout (by simp)
      obtain ⟨hmac, -⟩ := hh.carries hq hout hcar h0
      cases hh with
      | ignored h =>
        rw [h o hout] at hcar
        exact absurd hcar.2.2.symm h0
      | offered _ _ _ =>
        simp only [List.mem_singleton] at hout
        subst hout
        exact absurd hack.1 (by simp [dhcpOffer, dhcpAck])
      | @acked st₁ ip' _ _ hs _ _ =>
        simp only [List.mem_cons, List.not_mem_nil, or_false] at hout
        rcases hout with rfl | rfl
        swap
        · exact absurd hack (by simp [Out.Acks])
        obtain ⟨-, -, hy, hl⟩ := hack
        simp only [sendReply_yiaddr, sendReply_leaseS] at hy hl
        subst hy hl
        rw [hmac] at hroom hcut ⊢
        obtain ⟨j, hlive, hjmac, hseen, hip, hexp⟩ := commit_entry ip'
          (leaseTimeSFor env) true (slotForLocked_select hroom hs)
        refine ⟨j, ⟨hlive, hjmac, hseen, ?_⟩, hip, hexp⟩
        by_contra hq
        exact hcut ⟨j, hlive, hjmac, by simpa using hq⟩
      | naked _ _ _ _ =>
        simp only [List.mem_singleton] at hout
        subst hout
        exact absurd hack.1 (by simp [dhcpNak, dhcpAck])
      | elsewhere _ _ _ _ => exact absurd hout (by simp)
      | declined _ _ _ => exact absurd hout (by simp)
      | declinedUnknown _ _ => exact absurd hout (by simp)
      | released _ _ => exact absurd hout (by simp)
  | noteObserved _ _ _ => exact absurd ho (by simp [System.outs])
  | setQuarantined _ _ => exact absurd ho (by simp [System.outs])
  | poll _ _ => exact absurd ho (by simp [System.outs])
  | reboot _ _ => exact absurd ho (by simp [System.outs])

/-- Taking an address somebody is really on is taking it off a victim. -/
theorem Request.Takes.of_uses (ht : q.Takes st env ip) (hi : st.Heard mac i)
    (hne : q.mac ≠ mac) (huse : (st.leases i).uses ip env.now = true) :
    q.Reclaims st env fun v a => v ≠ i ∧ a = ip := by
  rcases ht with ⟨⟨-, r, -, hask⟩, rfl⟩ | hr
  · have hmine : some i ≠ findByMacLocked st q.mac :=
      ne_findByMac (by rw [hi.mac_eq]; exact Ne.symm hne)
    have hno := ipInUseLocked_false_iff.mp (grantsAsked_iff.mp hask.2).2.2 i hmine
    rw [huse] at hno
    exact absurd hno (by simp)
  · refine hr.unseen.mono fun v a hva => ⟨fun hvi => ?_, hva.1⟩
    subst hvi
    exact absurd (hva.2.symm.trans hi.seen) (by simp)

/-- While a client's lease has this long to run, its entry says so. -/
def System.LeasedUntil (s : System) (mac : Mac) (ip : Ip) (till : Nat) : Prop :=
  s.Inv ∧ (till < s.clock ∨ ∃ i, s.srv.Heard mac i ∧ (s.srv.leases i).ip = ip ∧
    till ≤ (s.srv.leases i).expiresUs)

theorem System.LeasedUntil.step {till : Nat} (h : s.LeasedUntil mac ip till) (h0 : ip ≠ 0)
    (hok : s.ok e) (hboot : e.isReboot = false)
    (he : e.time ≤ till → e.Spares mac ∧ ¬ s.Asking e TakesUnexpired) :
    (e.time ≤ till → s.GivesOnlyTo mac ip e) ∧ (s.step e).LeasedUntil mac ip till := by
  obtain ⟨hI, hheld⟩ := h
  by_cases hle : e.time ≤ till
  · obtain ⟨hspare, hsafe⟩ := he hle
    rcases hheld with hlate | ⟨i, hi, hip, hexp⟩
    · exact absurd (Nat.lt_of_lt_of_le hlate (hok hboot)) (Nat.not_lt.mpr hle)
    have huse : (s.srv.leases i).uses ip e.time = true :=
      Lease.uses_iff.mpr ⟨hi.live, hi.served, .inr ⟨hip, Nat.le_trans hle hexp⟩⟩
    -- taking the address off any victim is taking it from this entry's client
    have htaken : ¬ s.Asking e fun st env q => q.Reclaims st env fun v a => v ≠ i ∧ a = ip := by
      refine fun h => hsafe (h.mono fun env q ht _ hr => hr.mono fun v a hva => ?_)
      exact ⟨i, hva.1.symm, hi.live, hi.served, hip.trans hva.2.symm,
        Nat.le_trans (ht ▸ hle) hexp⟩
    refine ⟨fun _ o ho mac' hc => ?_, hI.step, .inr ?_⟩
    · exact absurd (System.carries_of_uses hi huse h0 hspare ho hc) htaken
    · rcases System.step_entry hI hi hspare with ht | ⟨hi', hip', hexp', -⟩
      · refine absurd (ht.mono fun env q hnow hq ht => ?_) htaken
        rw [hip] at ht
        exact ht.of_uses hi (hspare.ne hq) (hnow ▸ huse)
      · exact ⟨i, hi', hip'.trans hip, hexp' ▸ hexp⟩
  · refine ⟨fun h => absurd h hle, hI.step, .inl ?_⟩
    rw [System.step_clock]
    exact Nat.lt_of_not_le hle

/-- The wired range is taken, and its first client has been told it may use 192.168.5.2.
    A ninth is seen on that address, and releases. -/
def seenThenReleased : List Event :=
  wiredRangeTaken.tail ++ [.noteObserved 20 9 (ip4 192 168 5 2), .sends 21 true dhcpRelease 9 0]

/-- The client has an entry that records the address as the one it was seen using. -/
def Server.Observes (st : Server) (mac : Mac) (ip : Ip) : Prop :=
  ∃ i, st.live i ∧ (st.leases i).mac = mac ∧ (st.leases i).observedIp = ip

/-- The message takes the leased address of the client's entry, or gets to step 4 with a
    victim that would release this other address. -/
def TakesEntry (mac : Mac) (ip : Ip) (st : Server) (env : Env) (q : Request) : Prop :=
  (∃ i, st.live i ∧ (st.leases i).mac = mac ∧ q.Takes st env (st.leases i).ip) ∨
    q.Reclaims st env fun _ a => a = ip

instance (st : Server) (mac : Mac) (ip : Ip) : Decidable (st.Observes mac ip) :=
  inferInstanceAs (Decidable (∃ _, _))

instance (mac : Mac) (ip : Ip) (st : Server) (env : Env) (q : Request) :
    Decidable (TakesEntry mac ip st env q) := inferInstanceAs (Decidable (_ ∨ _))

/-- The event is not a note of this client on another address. -/
def Event.NotesOnly (mac : Mac) (ip : Ip) (e : Event) : Prop :=
  match e with
  | .noteObserved _ mac' ip' => mac' = mac → ip' = ip
  | _ => True

instance (mac : Mac) (ip : Ip) : (e : Event) → Decidable (e.NotesOnly mac ip)
  | .noteObserved _ mac' ip' => inferInstanceAs (Decidable (mac' = mac → ip' = ip))
  | .recv .. => isTrue trivial
  | .setQuarantined .. => isTrue trivial
  | .poll .. => isTrue trivial
  | .reboot .. => isTrue trivial

/-- A client seen on an address it did not lease has an entry that says so. -/
def System.SeenOn (s : System) (mac : Mac) (ip : Ip) : Prop :=
  s.Inv ∧ ∃ i, s.srv.Heard mac i ∧ (s.srv.leases i).observedIp = ip ∧ (s.srv.leases i).ip ≠ ip

theorem System.SeenOn.step (h : s.SeenOn mac ip) (h0 : ip ≠ 0) (hspare : e.Spares mac)
    (hnote : e.NotesOnly mac ip) (hsafe : ¬ s.Asking e (TakesEntry mac ip)) :
    s.GivesOnlyTo mac ip e ∧ (s.step e).SeenOn mac ip := by
  obtain ⟨hI, i, hi, hobs, hip⟩ := h
  have huse : (s.srv.leases i).uses ip e.time = true :=
    Lease.uses_iff.mpr ⟨hi.live, hi.served, .inl hobs⟩
  refine ⟨fun o ho mac' hc => ?_, hI.step, ?_⟩
  · have htaken := System.carries_of_uses hi huse h0 hspare ho hc
    exact absurd (htaken.mono fun _ _ _ _ hr => .inr (hr.mono fun _ _ hva => hva.2)) hsafe
  · rcases System.step_entry hI hi hspare with ht | ⟨hi', hip', -, hobs'⟩
    · exact absurd (ht.mono fun _ _ _ _ hq => .inl ⟨i, hi.live, hi.mac_eq, hq⟩) hsafe
    · refine ⟨i, hi', ?_, hip' ▸ hip⟩
      rcases hobs' with heq | ⟨now, ip', rfl, heq⟩
      · exact heq.trans hobs
      · rw [heq, hnote rfl, if_neg (Ne.symm hip)]

theorem noteObserved_seenOn (hI : s.Inv) (hn : notable s.srv.cfg ip = true)
    (hobs : (noteObservedIp s.srv mac ip now).Observes mac ip)
    (hcut : ¬ (noteObservedIp s.srv mac ip now).CutOff mac) :
    (s.step (.noteObserved now mac ip)).SeenOn mac ip := by
  refine ⟨hI.step, ?_⟩
  have hstep : (s.step (.noteObserved now mac ip)).srv = noteObservedIp s.srv mac ip now := rfl
  rw [hstep]
  have hu : MacUnique (noteObservedIp s.srv mac ip now).leases :=
    (hI.step (e := .noteObserved now mac ip)).table.mac
  obtain ⟨j, hj, hjmac, hjobs⟩ := hobs
  rcases noteObservedIp_cases s.srv mac ip now with
    ⟨heq, hnone⟩ | ⟨st₁, i, -, -, hs, heq⟩
  · rw [heq] at hj hjmac
    exact absurd hjmac (findByMacLocked_none (slotForLocked_none (hnone hn)).1 hj)
  · rw [heq] at hu hj hjmac hjobs hcut ⊢
    have hl : (noteAt st₁ i ip now).leases i = notedLease st₁.bootSeq ip now (st₁.leases i) :=
      noteAt_same
    have hlive : (noteAt st₁ i ip now).live i := by
      rw [Server.live, hl]; exact hs.live_mac.1
    have hmac : ((noteAt st₁ i ip now).leases i).mac = mac := by
      rw [hl]; exact hs.live_mac.2
    have hij : j = i := hu j i hj hlive (hjmac.trans hmac.symm)
    subst hij
    refine ⟨j, ⟨hj, hjmac, ?_, ?_⟩, hjobs, fun hip => ?_⟩
    · rw [seenThisBoot_iff, hl, noteAt_bootSeq]
      exact BitVec.le_refl _
    · by_contra hq
      exact hcut ⟨j, hj, hjmac, by simpa using hq⟩
    · -- a client using exactly what it was leased has nothing observed
      have h0 := notable_ne_zero hn
      rw [hl] at hjobs hip
      simp only [notedLease] at hjobs hip
      rw [if_pos hip.symm] at hjobs
      exact h0 hjobs.symm

/-- **An address a client was seen using is given to nobody else**, for as long as the
    client is not noted elsewhere, says nothing itself and is not cut off.

    The code keeps this as long as no message takes the client's *leased* address, lapsed
    as it may be, since the entry that is cleared for it carries the observed one as well;
    and none gets to step 4 with a victim that has the same address. -/
theorem System.Reachable.observed_exclusive (hs : s.Reachable) (hn : notable s.srv.cfg ip = true)
    (hobs : (s.step (.noteObserved now mac ip)).srv.Observes mac ip)
    (hcut : ¬ (s.step (.noteObserved now mac ip)).srv.CutOff mac)
    (hrun : Lib.Along System.step (fun s' e' => e'.Spares mac ∧ e'.NotesOnly mac ip ∧
      ¬ s'.Asking e' (TakesEntry mac ip)) (s.step (.noteObserved now mac ip)) es) :
    Lib.Along System.step (System.GivesOnlyTo mac ip)
      (s.step (.noteObserved now mac ip)) es := by
  refine hrun.of_invariant (I := (System.SeenOn · mac ip))
    (noteObserved_seenOn hs.inv hn hobs hcut) fun s' e' h he' => ?_
  exact System.SeenOn.step h (notable_ne_zero hn) he'.1 he'.2.1 he'.2.2

/-- A client with a lease is seen on 192.168.5.60; others are told of it, and ask for it
    and for the address it leased. -/
theorem observed_exclusive_contested :
    let s := System.step (powerOn shipped none 0)
      (.sends 10 false dhcpRequest 1 (ip4 192 168 5 10))
    let e := Event.noteObserved 20 1 (ip4 192 168 5 60)
    let es := [.sends 30 false dhcpRequest 2 (ip4 192 168 5 60),
      .noteObserved 40 3 (ip4 192 168 5 61), .poll 20000000 .ok,
      .sends 30000000 false dhcpRequest 3 (ip4 192 168 5 10)]
    Lib.Along System.step (System.GivesOnlyTo 1 (ip4 192 168 5 60)) (s.step e) es :=
  System.Reachable.observed_exclusive
    (.step _ (System.Reachable.switchedOn shipped 0) (by decide +kernel)) (by decide +kernel)
    (by decide +kernel) (by decide +kernel) (by decide +kernel)

def leaseGiven : List Event :=
  [.sends 10 false dhcpRequest 1 (ip4 192 168 5 10)]

/-- Its lease has lapsed when a second client asks for 192.168.5.10, and is given it. -/
def lapsedLeaseAsked : List Event :=
  [.sends 8000000000 false dhcpRequest 2 (ip4 192 168 5 10)]

/-- The entry was cleared for the sake of its lapsed lease, and what it knew of
    192.168.5.60 went with it: a third client is given that. -/
theorem observed_not_exclusive : ¬ ∀ (s : System) (now : Nat) (mac : Mac) (ip : Ip)
    (es : List Event), s.Reachable → s.ok (.noteObserved now mac ip) →
      notable s.srv.cfg ip = true → (s.step (.noteObserved now mac ip)).srv.Observes mac ip →
      ¬ (s.step (.noteObserved now mac ip)).srv.CutOff mac →
      Lib.Along System.step (fun s' e' => s'.ok e' ∧ e'.Spares mac ∧ e'.NotesOnly mac ip)
        (s.step (.noteObserved now mac ip)) es →
      Lib.Along System.step (System.GivesOnlyTo mac ip)
        (s.step (.noteObserved now mac ip)) es := by
  intro hall
  let s := leaseGiven.foldl System.step (powerOn shipped none 0)
  let e := Event.noteObserved 20 1 (ip4 192 168 5 60)
  let last := Event.sends 8000000001 false dhcpRequest 3 (ip4 192 168 5 60)
  have hs : s.Reachable :=
    (System.Reachable.switchedOn shipped 0).run leaseGiven (by decide +kernel)
  have hrun := hall s 20 1 (ip4 192 168 5 60) (lapsedLeaseAsked ++ [last]) hs
    (by decide +kernel) (by decide +kernel) (by decide +kernel) (by decide +kernel)
    (by decide +kernel)
  have hlast := (Lib.along_append.mp hrun).2.1
  have hout : ∃ o ∈ (lapsedLeaseAsked.foldl System.step (s.step e)).outs last,
      o.Carries 3 (ip4 192 168 5 60) := by decide +kernel
  obtain ⟨o, ho, hc⟩ := hout
  exact absurd (hlast o ho 3 hc) (by decide)

end

end Dhcp
end Wt32Router
