import Wt32Router.Dhcp.Confirmed
import Wt32Router.Dhcp.Ranges

/-!
# An offer is honoured

> **`System.Reachable.offer_honoured`**: a client that takes an OFFER up in time is given the
> address, whatever other clients have asked for in between.

What keeps the offer is the entry it is recorded in (`Server.Holds`). Its client has been heard
from, so nobody makes room with it; its lease runs, so nobody else's step 1 or 2 passes; and a
victim of step 4 would have to have the address as well, which by then only a client that is
seen on it could.
-/

namespace Wt32Router
namespace Dhcp

/-- The client has this address leased until the deadline, and nobody else is seen on it. -/
structure Server.Holds (st : Server) (mac : Mac) (ip : Ip) (deadline : Nat) (i : Slot) :
    Prop where
  heard : st.Heard mac i
  leased : (st.leases i).ip = ip
  until_ : deadline ≤ (st.leases i).expiresUs
  usable : ipDeclined st ip = false
  alone : ∀ j, st.live j → j ≠ i → (st.leases j).observedIp ≠ ip

/-- Another client's message that is not a DECLINE, or the save check. -/
def Event.FromOthers (mac : Mac) : Event → Prop
  | .recv _ m len => ∀ q ∈ readRequest m len, q.mac ≠ mac ∧ q.type ≠ dhcpDecline
  | .poll .. => True
  | _ => False

instance (mac : Mac) : ∀ e : Event, Decidable (e.FromOthers mac)
  | .recv _ _ _ => inferInstanceAs (Decidable (∀ _ ∈ _, _))
  | .poll _ _ => isTrue trivial
  | .noteObserved _ _ _ | .setQuarantined _ _ | .reboot _ _ => isFalse id

section

variable {st st₁ st' : Server} {env : Env} {m : DhcpMsg} {q : Request} {len : Nat}
  {outs : List Out} {mac : Mac} {ip requested : Ip} {now deadline : Nat} {wired : Bool}
  {i j : Slot} {s : System} {e : Event} {es : List Event}

/-- Only a DECLINE adds to the declined addresses. -/
theorem Handled.declined_eq (hh : Handled st env m q st' outs) (ht : q.type ≠ dhcpDecline) :
    st'.declined = st.declined := by
  cases hh with
  | ignored _ => rfl
  | offered _ hs _ => rw [commit_declined, select_declined hs]
  | acked _ _ hs _ _ => rw [commit_declined, select_declined hs]
  | naked _ _ hs _ => exact select_declined hs
  | elsewhere _ _ _ _ => rfl
  | declined h _ _ => exact absurd h ht
  | declinedUnknown h _ => exact absurd h ht
  | released _ _ => rfl

/-! ## One step -/

theorem Server.Holds.uses (h : st.Holds mac ip deadline i) (hnow : now ≤ deadline) :
    (st.leases i).uses ip now = true :=
  Lease.uses_iff.mpr ⟨h.heard.live, h.heard.served, .inr ⟨h.leased, le_trans hnow h.until_⟩⟩

/-- Nobody else's message gets at the address: whoever is given it has it off a victim, and
    every possible victim has another. -/
theorem Server.Holds.not_selected (h : st.Holds mac ip deadline i) (hI : TableInv st)
    (h0 : ip ≠ 0) (hnow : now ≤ deadline) {mac' : Mac} (hne : mac ≠ mac') :
    selectAddressLocked st mac' requested wired now ≠ (st₁, ip) := by
  intro hs
  have hmac : (st.leases i).mac ≠ mac' := by
    rw [h.heard.mac_eq]
    exact hne
  obtain ⟨r, -, v, hv⟩ := select_of_uses (h.uses hnow) hmac h0 hs
  obtain ⟨hel, hip⟩ := pickVictimLocked_some hv.2
  have hvi : v ≠ i := fun hvi => h.heard.notEligible (hvi ▸ hel)
  rcases (reclaimableAddress_eq hel.address.1).2 with hleased | hobserved
  · have hsame : (st.leases v).ip = (st.leases i).ip := by
      rw [← hleased, ← hip, h.leased]
    have hv0 : (st.leases v).ip ≠ 0 := by
      rw [← hleased, ← hip]
      exact h0
    exact hvi (hI.ip v i ⟨hel.live, hv0⟩ ⟨h.heard.live, hsame ▸ hv0⟩ hsame)
  · exact h.alone v hel.live hvi (by rw [← hobserved, ← hip])

theorem Server.Holds.message (h : st.Holds mac ip deadline i) (hI : TableInv st) (h0 : ip ≠ 0)
    (hnow : env.now ≤ deadline) (hne : q.mac ≠ mac) (ht : q.type ≠ dhcpDecline)
    (hq : readRequest m len = some q) (hh : Handled st env m q st' outs) : st'.Holds mac ip deadline i := by
  have hmac : (st.leases i).mac ≠ q.mac := by
    rw [h.heard.mac_eq]
    exact hne.symm
  have hsame : st'.leases i = st.leases i := by
    rcases hh.keeps h.heard.live hmac with hsame | ⟨-, ⟨_, _, hel⟩ | ⟨-, st₁, hs⟩⟩
    · exact hsame
    · exact absurd hel h.heard.notEligible
    · rw [h.leased] at hs
      exact absurd hs (h.not_selected hI h0 hnow hne.symm)
  refine ⟨h.heard.of_eq hh.bootSeq_eq hsame, ?_, ?_, ?_, fun j hj hji => ?_⟩
  · rw [hsame]
    exact h.leased
  · rw [hsame]
    exact h.until_
  · unfold ipDeclined
    rw [hh.declined_eq ht]
    exact h.usable
  · rcases hh.observed hq hj with ⟨hlive, heq, -⟩ | ⟨hzero, -⟩
    · rw [heq]
      exact h.alone j hlive hji
    · rw [hzero]
      exact h0.symm

theorem Server.Holds.saved (h : st.Holds mac ip deadline i) :
    (markSaved st).Holds mac ip deadline i := by
  obtain ⟨-, -, hip, -, hexp, -, -⟩ := markSaved_fields st i
  refine ⟨(saved_keeps h.heard (e := .poll 0 .ok)).1, hip.trans h.leased, ?_, h.usable,
    fun j hj hji => ?_⟩
  · rw [hexp]
    exact h.until_
  · obtain ⟨huse, -, -, hobs, -⟩ := markSaved_fields st j
    rw [Server.live, huse] at hj
    rw [hobs]
    exact h.alone j hj hji

/-- **One step of somebody else's**, in time. -/
theorem Server.Holds.step (h : s.srv.Holds mac ip deadline i) (hI : s.Inv) (h0 : ip ≠ 0)
    (htime : e.time ≤ deadline) (he : e.FromOthers mac) :
    (s.step e).srv.Holds mac ip deadline i := by
  cases e with
  | recv env m len =>
    rcases s.recv_cases env m len with ⟨hsrv, -⟩ | ⟨q, hq, hh⟩
    · rw [hsrv]
      exact h
    · obtain ⟨hne, ht⟩ := he q hq
      exact h.message hI.table h0 htime hne ht hq hh
  | poll now nvs =>
    exact System.poll_srv (P := fun st => st.Holds mac ip deadline i) now nvs h h.saved
  | noteObserved _ _ _ => exact absurd he (by simp [Event.FromOthers])
  | setQuarantined _ _ => exact absurd he (by simp [Event.FromOthers])
  | reboot _ _ => exact absurd he (by simp [Event.FromOthers])

theorem Event.FromOthers.cfg_eq (he : e.FromOthers mac) : (s.step e).srv.cfg = s.srv.cfg := by
  cases e with
  | recv env m len =>
    rcases s.recv_cases env m len with ⟨hsrv, -⟩ | ⟨q, -, hh⟩
    · rw [hsrv]
    · exact hh.cfg_eq
  | poll now nvs => exact System.poll_srv (P := fun st => st.cfg = s.srv.cfg) now nvs rfl rfl
  | noteObserved _ _ _ => exact absurd he (by simp [Event.FromOthers])
  | setQuarantined _ _ => exact absurd he (by simp [Event.FromOthers])
  | reboot _ _ => exact absurd he (by simp [Event.FromOthers])

/-! ## The whole exchange -/

/-- The DISCOVER that is answered with the address: who holds it then. -/
theorem Handled.offer_held (hI : TableInv st) (hh : Handled st env m q st' outs)
    (hserved : ∀ j, st.live j → (st.leases j).quarantined = false)
    {r : Reply} (hr : Out.reply r ∈ outs) (htype : r.type = dhcpOffer)
    (halone : ∀ j, st'.live j → (st'.leases j).mac ≠ q.mac → (st'.leases j).observedIp ≠ r.yiaddr)
    (hrec : ∃ i, st'.live i ∧ (st'.leases i).mac = q.mac ∧ (st'.leases i).ip = r.yiaddr) :
    ∃ i, st'.Holds q.mac r.yiaddr (env.now + offerHoldS * 1000000) i := by
  have hno : ∀ cfg type a leaseS, type ≠ dhcpOffer →
      r ≠ sendReply cfg env.replyDns m type a leaseS := fun cfg type a leaseS hne heq => by
    rw [heq] at htype
    exact hne htype
  cases hh with
  | ignored ho => exact absurd (Out.reply.inj (ho _ hr)) (hno _ _ _ _ (by decide))
  | @offered st₁ ip ht hs hip =>
    have hreply : r = sendReply st₁.cfg env.replyDns m dhcpOffer ip (leaseTimeSFor env) := by
      simpa using hr
    have hyiaddr : r.yiaddr = ip := by rw [hreply, sendReply_yiaddr]
    rw [hyiaddr] at halone hrec ⊢
    obtain ⟨i, hlive, hmac, -⟩ := hrec
    have hI₁ : TableInv st₁ := hI.select hs
    have hI' := hI₁.commit q.mac offerHoldS false env.now hip
    obtain ⟨st₂, hslot, heq⟩ := commit_own_slot hI₁ hlive hmac hip
    have hlease : ((commitLeaseLocked st₁ q.mac ip offerHoldS false env.now).1.leases i) =
        { st₂.leases i with
          ip := ip, expiresUs := env.now + offerHoldS * 1000000, lastSeenSeq := st₂.bootSeq,
          lastSeenUs := env.now } := by
      rw [heq, commitAt_same]
    refine ⟨i, ⟨hlive, hmac, ?_, ?_⟩, ?_, ?_, ?_, fun j hj hji => ?_⟩
    · rw [seenThisBoot_iff, hlease, commit_bootSeq, hslot.bootSeq_eq]
      exact BitVec.le_refl _
    · rw [hlease]
      dsimp only
      rcases hslot.own_or_fresh with ⟨hown, rfl⟩ | ⟨-, hfresh⟩
      · have hsame := select_live hs (findByMacLocked_some hown).1
        rw [hsame]
        refine hserved i ?_
        rw [Server.live, ← hsame]
        exact (findByMacLocked_some hown).1
      · rw [hfresh]
        rfl
    · rw [hlease]
    · rw [hlease]
    · rcases selectAddressLocked_cases hs with ⟨-, h⟩ | ⟨r', -, hsel⟩
      · exact absurd h hip
      · unfold ipDeclined
        rw [commit_declined, select_declined hs]
        exact hsel.not_declined
    · refine halone j hj fun hjmac => hji (hI'.mac j i hj hlive (hjmac.trans hmac.symm))
  | @acked st₁ ip _ _ _ _ _ =>
    have hreply : r = sendReply st₁.cfg env.replyDns m dhcpAck ip (leaseTimeSFor env) := by
      simpa using hr
    exact absurd hreply (hno _ _ _ _ (by decide))
  | naked _ _ _ _ =>
    refine absurd ?_ (hno st'.cfg dhcpNak 0 0 (by decide))
    simpa using hr
  | elsewhere _ _ _ _ => exact absurd hr (by simp)
  | declined _ _ _ => exact absurd hr (by simp)
  | declinedUnknown _ _ => exact absurd hr (by simp)
  | released _ _ => exact absurd hr (by simp)

/-- The REQUEST that takes it up. -/
theorem Server.Holds.acked (h : st.Holds mac ip deadline i) (hI : TableInv st) (h0 : ip ≠ 0)
    (hrange : ipInRange ip (servedRange st.cfg env.wired) = true)
    (hq : readRequest m len = some q) (hmac : q.mac = mac) (ht : q.type = dhcpRequest)
    (hfor : q.ForUs st) (hasked : q.requested = ip) :
    ∃ o ∈ (handleMessage st env m len).2, o.Acks mac ip (leaseTimeSFor env) := by
  have hfind : findByMacLocked st q.mac = some i := by
    rw [hmac, ← h.heard.mac_eq]
    exact findByMacLocked_eq hI.mac h.heard.live
  have hfree : ipInUseLocked st (st.leases i).ip (some i) env.now = false := by
    rw [ipInUseLocked_false_iff]
    intro j hji
    have hji : j ≠ i := fun heq => hji (heq ▸ rfl)
    rw [← Bool.not_eq_true, Lease.uses_iff]
    rintro ⟨hj, -, hobs | ⟨hip, -⟩⟩
    · exact h.alone j hj hji (by rw [hobs, h.leased])
    · have hj0 : (st.leases j).ip ≠ 0 := by
        rw [hip, h.leased]
        exact h0
      exact hji (hI.ip j i ⟨hj, hj0⟩ ⟨h.heard.live, hip ▸ hj0⟩ hip)
  have hown : confirmsOwn st (findByMacLocked st q.mac) (servedRange st.cfg env.wired) env.now =
      some ip := by
    rw [hfind]
    unfold confirmsOwn
    rw [Option.bind_some]
    dsimp only
    rw [h.heard.served, hfree, h.leased, hrange, h.usable]
    rfl
  have hsel : selectAddressLocked st q.mac q.requested env.wired env.now = (st, ip) :=
    selectAddressLocked_of_own hown
  have hne : q.type ≠ dhcpDiscover := by
    rw [ht]
    decide
  have hchaddr := readRequest_mac hq
  rw [handleMessage_answer hq (.inr ⟨ht, hfor⟩) hsel h0 (.inr hasked), if_neg hne]
  exact ⟨_, List.mem_cons_self, rfl, hchaddr.symm.trans hmac, rfl, rfl⟩

/-- **An offer is honoured.** It was sent, its address is in the range of the client's own
    port and nobody else is seen on it, and the table has it; then other clients are served;
    and then, in time, its client asks for it. -/
theorem System.Reachable.offer_honoured (hs : s.Reachable)
    (hserved : ∀ j, s.srv.live j → (s.srv.leases j).quarantined = false)
    (hq : readRequest m len = some q) {r : Reply}
    (hoffer : Out.reply r ∈ s.outs (.recv env m len)) (htype : r.type = dhcpOffer)
    (hrange : ipInRange r.yiaddr (servedRange s.srv.cfg env.wired) = true)
    (halone : ∀ j, (s.step (.recv env m len)).srv.live j →
      ((s.step (.recv env m len)).srv.leases j).mac ≠ q.mac →
      ((s.step (.recv env m len)).srv.leases j).observedIp ≠ r.yiaddr)
    (hrec : (s.step (.recv env m len)).srv.leasedTo q.mac = some r.yiaddr)
    (hrun : Lib.Along System.step (fun s' e => s'.ok e ∧ e.FromOthers q.mac)
      (s.step (.recv env m len)) es)
    {env' : Env} {m' : DhcpMsg} {len' : Nat} {q' : Request}
    (hq' : readRequest m' len' = some q') (hmac : q'.mac = q.mac) (ht : q'.type = dhcpRequest)
    (hasked : q'.requested = r.yiaddr) (hport : env'.wired = env.wired)
    (hok : (es.foldl System.step (s.step (.recv env m len))).ok (.recv env' m' len'))
    (hfor : q'.ForUs (es.foldl System.step (s.step (.recv env m len))).srv)
    (htime : env'.now ≤ env.now + offerHoldS * 1000000) :
    ∃ o ∈ (es.foldl System.step (s.step (.recv env m len))).outs (.recv env' m' len'),
      o.Acks q.mac r.yiaddr (leaseTimeSFor env') := by
  have h0 : r.yiaddr ≠ 0 := ipInRange_ne_zero hrange
  have hI : (s.step (.recv env m len)).Inv := hs.inv.step
  obtain ⟨i, hheld, hcfg⟩ : ∃ i, (s.step (.recv env m len)).srv.Holds q.mac r.yiaddr
      (env.now + offerHoldS * 1000000) i ∧ (s.step (.recv env m len)).srv.cfg = s.srv.cfg := by
    obtain ⟨k, hk, hkip⟩ := Option.map_eq_some_iff.mp hrec
    obtain ⟨hlive, hkmac⟩ := findByMacLocked_some hk
    rcases s.recv_cases env m len with ⟨-, hnone⟩ | ⟨q₁, hq₁, hh⟩
    · rw [hnone] at hoffer
      exact absurd hoffer (by simp)
    · rw [hq, Option.some.injEq] at hq₁
      subst hq₁
      obtain ⟨i, hi⟩ := hh.offer_held hs.inv.table hserved hoffer htype halone
        ⟨k, hlive, hkmac, hkip⟩
      exact ⟨i, hi, hh.cfg_eq⟩
  -- held for as long as the deadline has not passed
  obtain ⟨hI', hcfg', hheld'⟩ := hrun.invariant
    (I := fun s' => s'.Inv ∧ s'.srv.cfg = s.srv.cfg ∧
      (s'.clock ≤ env.now + offerHoldS * 1000000 →
        s'.srv.Holds q.mac r.yiaddr (env.now + offerHoldS * 1000000) i))
    ⟨hI, hcfg, fun _ => hheld⟩ (fun s' e hkept hev => by
      obtain ⟨hI', hcfg', hheld'⟩ := hkept
      obtain ⟨hok', he⟩ := hev
      have hnoReboot : e.isReboot = false := by
        cases e with
        | reboot _ _ => exact absurd he (by simp [Event.FromOthers])
        | _ => rfl
      refine ⟨hI'.step, he.cfg_eq.trans hcfg', fun hclock => ?_⟩
      rw [System.step_clock] at hclock
      have hnow := hheld' (le_trans (hok' hnoReboot) hclock)
      exact hnow.step hI' h0 hclock he)
  have hnow := hheld' (le_trans (hok rfl) htime)
  have hrange' : ipInRange r.yiaddr (servedRange
      (es.foldl System.step (s.step (.recv env m len))).srv.cfg env'.wired) = true := by
    rw [hcfg', hport]
    exact hrange
  exact hnow.acked hI'.table h0 hrange' hq' hmac ht hfor hasked

/-- Others ask for the same address, by name and without, before its client takes it up with
    its last second. -/
theorem offer_honoured_contested :
    let s := System.step (powerOn shipped none 0) (.sends 10 false dhcpDiscover 1 0)
    let es := [Event.sends 20 false dhcpRequest 2 (ip4 192 168 5 10),
      .sends 1000000 true dhcpDiscover 3 (ip4 192 168 5 10), .poll 20000000 .ok,
      .sends 20000000 false dhcpRelease 4 (ip4 192 168 5 10)]
    ∃ o ∈ (es.foldl System.step s).outs (.sends 30000010 false dhcpRequest 1 (ip4 192 168 5 10)),
      o.Acks 1 (ip4 192 168 5 10) 7200 :=
  have hdiscover : readRequest (clientMsg dhcpDiscover 1 0 0) dhcpMinReply =
      some ⟨dhcpDiscover, 1, 0, 0, 0, []⟩ := by decide +kernel
  have hrequest : readRequest (clientMsg dhcpRequest 1 (ip4 192 168 5 10) 0) dhcpMinReply =
      some ⟨dhcpRequest, 1, ip4 192 168 5 10, 0, 0, []⟩ := by decide +kernel
  System.Reachable.offer_honoured
    (r := sendReply shipped 0 (clientMsg dhcpDiscover 1 0 0) dhcpOffer (ip4 192 168 5 10) 7200)
    (System.Reachable.switchedOn shipped 0) (by decide +kernel) hdiscover
    (by decide +kernel) (by decide) (by decide +kernel) (by decide +kernel) (by decide +kernel)
    (by decide +kernel) hrequest (by decide) (by decide) (by decide) rfl
    (by decide +kernel) (by decide +kernel) (by decide +kernel)

end

end Dhcp
end Wt32Router
