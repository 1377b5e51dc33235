import Wt32Router.Dhcp.Bystander
import Wt32Router.Dhcp.Ranges

/-!
# What a refusal leaves behind

The server refuses a REQUEST with a NAK, which "sends it back to DISCOVER, where it gets the
address that is actually reserved for it". By then the allocator has run, and its step 4 has
written: a victim was dropped "to make room" for a client that is turned away.

> **`System.nak_unchanged_iff`**: a NAK leaves the table, the declined list and the dirty flag
> as they were exactly if the request did not get to step 4 and find a victim there.

A client refuses an address with a DECLINE. Its entry goes in the same step, so all that keeps
the address back is the declined list, and that has eight places.

> **`System.declined_withheld`**: an address that is declined is not given to anybody for the
> rest of the boot, if it was on the list already or there is room for it.
-/

namespace Wt32Router
namespace Dhcp

open Lib

def Out.isNak : Out → Bool
  | .reply r => r.type == dhcpNak
  | .assigned .. => false

/-- The step answers a message with a NAK. -/
def System.Refuses (s : System) (e : Event) : Prop := ∃ o ∈ s.outs e, o.isNak = true

/-- The step leaves the table, the declined list and the dirty flag as they were. -/
structure System.Unchanged (s : System) (e : Event) : Prop where
  leases : (s.step e).srv.leases = s.srv.leases
  declined : (s.step e).srv.declined = s.srv.declined
  dirty : (s.step e).srv.dirty = s.srv.dirty

/-- The message gets to step 4 of the allocator, and there is a victim. -/
def FindsVictim (st : Server) (env : Env) (q : Request) : Prop :=
  q.Reclaims st env fun _ _ => True

instance (s : System) (e : Event) : Decidable (s.Refuses e) :=
  inferInstanceAs (Decidable (∃ o ∈ s.outs e, _))

instance (st : Server) (env : Env) (q : Request) : Decidable (FindsVictim st env q) :=
  inferInstanceAs (Decidable (q.Reclaims st env fun _ _ => True))

section

variable {st st₁ st' : Server} {env : Env} {m : DhcpMsg} {q : Request} {len : Nat}
  {outs : List Out} {mac : Mac} {x ip requested : Ip} {now : Nat} {wired : Bool} {s : System}
  {e : Event} {v : Slot}

/-! ## A request that is refused -/

/-- A NAK comes out of one branch only, and leaves what the allocator left. -/
theorem Handled.refused (hh : Handled st env m q st' outs) {o : Out} (ho : o ∈ outs)
    (hnak : o.isNak = true) : q.Asks st ∧
      ∃ ip, selectAddressLocked st q.mac q.requested env.wired env.now = (st', ip) := by
  have hother : ∀ {cfg : Config} {t : UInt8} {y : Ip} {l : Nat}, t ≠ dhcpNak →
      o ≠ .reply (sendReply cfg env.replyDns m t y l) := by
    rintro cfg t y l ht rfl
    exact ht (beq_iff_eq.mp hnak)
  cases hh with
  | ignored h => exact absurd (h o ho) (hother (by decide))
  | offered _ _ _ => exact absurd (List.mem_singleton.mp ho) (hother (by decide))
  | acked _ _ _ _ _ =>
    rcases List.mem_cons.mp ho with ho | ho
    · exact absurd ho (hother (by decide))
    · rw [List.mem_singleton.mp ho] at hnak
      exact absurd hnak Bool.false_ne_true
  | @naked _ ip ht hf hs _ => exact ⟨.inr ⟨ht, hf⟩, ip, hs⟩
  | elsewhere _ _ _ _ => exact absurd ho List.not_mem_nil
  | declined _ _ _ => exact absurd ho List.not_mem_nil
  | declinedUnknown _ _ => exact absurd ho List.not_mem_nil
  | released _ _ => exact absurd ho List.not_mem_nil

/-- A victim is gone from the table. -/
theorem reclaimLocked_changes (now : Nat) (hv : st.live v) :
    (reclaimLocked st v now).leases ≠ st.leases := by
  intro heq
  have hgone : ((reclaimLocked st v now).leases v).inUse = false := by
    rw [reclaimLocked_leases, Server.dropLease_same]
  rw [heq, hv] at hgone
  exact absurd hgone (by decide)

/-- **A NAK changes nothing exactly if no victim was found for the request.** -/
theorem System.nak_unchanged_iff (s : System) (e : Event) (hnak : s.Refuses e) :
    s.Unchanged e ↔ ¬ s.Asking e FindsVictim := by
  obtain ⟨o, ho, hno⟩ := hnak
  cases e with
  | recv env m len =>
    rcases s.recv_cases env m len with ⟨-, hnone⟩ | ⟨q, hq, hh⟩
    · rw [hnone] at ho
      exact absurd ho List.not_mem_nil
    obtain ⟨ha, ip, hs⟩ := hh.refused ho hno
    constructor
    · rintro hsame ⟨q', hq', -, r, hr, hex, p, hp, -⟩
      obtain rfl : q = q' := Option.some.inj (hq.symm.trans hq')
      have hsel := selectAddressLocked_of_reclaims hr ⟨hex, hp⟩
      rw [hs] at hsel
      have hst : (s.step (.recv env m len)).srv = reclaimLocked s.srv p.1 env.now :=
        congrArg Prod.fst hsel
      have hlive := (pickVictimLocked_some hp).1.live
      apply reclaimLocked_changes env.now hlive
      rw [← hst]
      exact hsame.leases
    · intro hno'
      have hst : (s.step (.recv env m len)).srv = s.srv := select_unchanged hs fun r hr v a hre =>
        hno' ⟨q, hq, Request.reclaims_of ha hr hre trivial⟩
      exact ⟨by rw [hst], by rw [hst], by rw [hst]⟩
  | _ => exact absurd ho List.not_mem_nil

/-- One address to give, and no wired range. -/
def oneAddress : Config :=
  { shipped with
    pool := ⟨ip4 192 168 5 10, ip4 192 168 5 10⟩
    wired := ⟨0, 0⟩
    pool_last_ne := by decide
    pool_le := by decide
    wired_ok := by decide }

/-- A client has the one address, and has not been heard from since a reboot. -/
def oneKept : List Event :=
  [.sends 10 false dhcpRequest 1 (ip4 192 168 5 10), .poll 20000000 .ok, .reboot 0 oneAddress]

/-- Another asks for 192.168.5.50. It is refused, and the first one's entry is gone. -/
theorem nak_unchanged_fails : ¬ ∀ (s : System) (e : Event), s.Reachable → s.Refuses e →
    s.Unchanged e := by
  intro hall
  let s := oneKept.foldl System.step (powerOn oneAddress none 0)
  let e := Event.sends 10 false dhcpRequest 2 (ip4 192 168 5 50)
  have hs : s.Reachable :=
    (System.Reachable.switchedOn oneAddress 0).run oneKept (by decide +kernel)
  have hsame := (hall s e hs (by decide +kernel)).leases
  have hwas : (s.srv.leases ⟨0, by decide⟩).inUse = true := by decide +kernel
  have hgone : ((s.step e).srv.leases ⟨0, by decide⟩).inUse = false := by decide +kernel
  rw [hsame, hwas] at hgone
  exact absurd hgone (by decide)

theorem nak_unchanged_free :
    (powerOn shipped none 0).Unchanged (.sends 10 false dhcpRequest 2 (ip4 192 168 6 50)) :=
  (System.nak_unchanged_iff _ _ (by decide +kernel)).mpr (by decide +kernel)

/-! ## An address that is refused -/

/-- The message declines this address: the one leased to its sender, or the one it names if
    the sender has no entry. -/
def Request.Declines (q : Request) (st : Server) (x : Ip) : Prop :=
  q.type = dhcpDecline ∧ x ≠ 0 ∧
    match findByMacLocked st q.mac with
    | some i => (st.leases i).ip = x
    | none => q.requested = x

instance (q : Request) (st : Server) (x : Ip) : Decidable (q.Declines st x) :=
  match h : findByMacLocked st q.mac with
  | some i => decidable_of_iff (q.type = dhcpDecline ∧ x ≠ 0 ∧ (st.leases i).ip = x) (by
      unfold Request.Declines
      rw [h])
  | none => decidable_of_iff (q.type = dhcpDecline ∧ x ≠ 0 ∧ q.requested = x) (by
      unfold Request.Declines
      rw [h])

/-- Nothing that is sent in this step offers or acknowledges the address. -/
def System.Withholds (x : Ip) (s : System) (e : Event) : Prop :=
  ∀ o ∈ s.outs e, ∀ mac, ¬ o.Carries mac x

theorem declineIp_keeps {bad : Ip} (h : ipDeclined st x = true) :
    ipDeclined (declineIp st bad) x = true := by
  unfold declineIp
  split
  · exact List.contains_iff_mem.mpr (List.mem_append_left _ (List.contains_iff_mem.mp h))
  · exact h

/-- A declined address is on the list afterwards, if it was or if there was room. -/
theorem declineIp_adds (h0 : x ≠ 0)
    (hroom : ipDeclined st x = true ∨ st.declined.length < maxDeclined) :
    ipDeclined (declineIp st x) x = true := by
  cases hwas : ipDeclined st x with
  | true => exact declineIp_keeps hwas
  | false =>
    rcases hroom with h | hlen
    · exact absurd (hwas.symm.trans h) Bool.false_ne_true
    · unfold declineIp
      rw [if_pos ⟨h0, hwas, hlen⟩]
      exact List.contains_iff_mem.mpr (List.mem_append_right _ (List.mem_singleton_self _))

theorem ipDeclined_of_eq (heq : st'.declined = st.declined) (h : ipDeclined st x = true) :
    ipDeclined st' x = true := by
  unfold ipDeclined
  rw [heq]
  exact h

theorem declined_declined {i : Slot} {p : Prop} [Decidable p] :
    (if p then (st'.dropLease i).markDirty now else st'.dropLease i).declined = st'.declined := by
  split
  · rw [Server.markDirty_declined]
    rfl
  · rfl

/-- The list only grows. -/
theorem Handled.keeps_declined (hh : Handled st env m q st' outs) (h : ipDeclined st x = true) :
    ipDeclined st' x = true := by
  cases hh with
  | ignored _ => exact h
  | offered _ hs _ => exact ipDeclined_of_eq (commit_declined.trans (select_declined hs)) h
  | acked _ _ hs _ _ => exact ipDeclined_of_eq (commit_declined.trans (select_declined hs)) h
  | naked _ _ hs _ => exact ipDeclined_of_eq (select_declined hs) h
  | elsewhere _ _ _ _ => exact h
  | declined _ _ heq =>
    refine ipDeclined_of_eq declined_declined ?_
    rw [heq]
    exact declineIp_keeps h
  | declinedUnknown _ _ => exact declineIp_keeps h
  | released _ _ => exact h

theorem noteObservedIp_declined : (noteObservedIp st mac ip now).declined = st.declined := by
  rcases noteObservedIp_cases st mac ip now with ⟨heq, -⟩ | ⟨st₁, e, -, -, hs, heq⟩
  · rw [heq]
  · rw [heq, noteAt_declined, hs.declined_eq]

/-- Within a boot nothing is taken off the list. -/
theorem System.keeps_declined (h : ipDeclined s.srv x = true) (hboot : e.isReboot = false) :
    ipDeclined (s.step e).srv x = true := by
  cases e with
  | recv env m len =>
    rcases s.recv_cases env m len with ⟨hsame, -⟩ | ⟨q, -, hh⟩
    · rw [hsame]
      exact h
    · exact hh.keeps_declined h
  | noteObserved now mac ip => exact ipDeclined_of_eq noteObservedIp_declined h
  | setQuarantined now macs => exact ipDeclined_of_eq setQuarantined_declined h
  | poll now nvs => exact System.poll_srv (P := fun st => ipDeclined st x = true) now nvs h h
  | reboot _ _ => exact absurd hboot Bool.true_eq_false.mp

/-- No step of the allocator gives what is on the list. -/
theorem System.withholds_declined (h : ipDeclined s.srv x = true) (h0 : x ≠ 0) :
    s.Withholds x e := by
  cases e with
  | recv env m len =>
    intro o ho mac hc
    rcases s.recv_cases env m len with ⟨-, hnone⟩ | ⟨q, hq, hh⟩
    · rw [hnone] at ho
      exact absurd ho List.not_mem_nil
    obtain ⟨-, -, st₁, hs⟩ := hh.carries hq ho hc h0
    rcases selectAddressLocked_cases hs with ⟨-, hx⟩ | ⟨r, -, hsel⟩
    · exact absurd hx h0
    · exact absurd (hsel.not_declined.symm.trans h) Bool.false_ne_true
  | _ => exact fun o ho => absurd ho List.not_mem_nil

/-- What a DECLINE leaves on the list. -/
theorem Request.Declines.listed (hd : q.Declines st x)
    (hroom : ipDeclined st x = true ∨ st.declined.length < maxDeclined) (env : Env) :
    ipDeclined (handleDecline st env q).1 x = true := by
  obtain ⟨-, h0, hbad⟩ := hd
  unfold handleDecline
  cases hfind : findByMacLocked st q.mac with
  | some i =>
    rw [hfind] at hbad
    dsimp only at hbad ⊢
    subst hbad
    exact ipDeclined_of_eq declined_declined (declineIp_adds h0 hroom)
  | none =>
    rw [hfind] at hbad
    dsimp only at hbad ⊢
    subst hbad
    exact declineIp_adds h0 hroom

/-- **A declined address stays out of circulation while the list has it.** -/
theorem System.declined_withheld (s : System) (e : Event) (x : Ip) (es : List Event)
    (hdec : s.Asking e fun st _ q => q.Declines st x)
    (hroom : ipDeclined s.srv x = true ∨ s.srv.declined.length < maxDeclined)
    (hboot : ∀ e ∈ es, e.isReboot = false) :
    Along System.step (System.Withholds x) (s.step e) es := by
  cases e with
  | recv env m len =>
    obtain ⟨q, hq, hd⟩ := hdec
    have hsrv : (s.step (.recv env m len)).srv = (handleDecline s.srv env q).1 := by
      have ht := hd.1
      show (handleMessage s.srv env m len).1 = _
      unfold handleMessage
      rw [Option.mem_def.mp hq]
      dsimp only
      rw [ht, if_neg (by decide), if_neg (by decide), if_pos rfl]
    have hrun : Along System.step (fun _ e => e.isReboot = false) (s.step (.recv env m len)) es :=
      along_events.mpr hboot
    refine hrun.of_invariant (I := fun s' => ipDeclined s'.srv x = true) ?_ fun s' e' h hnob => ?_
    · rw [hsrv]
      exact hd.listed hroom env
    · exact ⟨System.withholds_declined h hd.2.1, System.keeps_declined h hnob⟩
  | _ => exact hdec.elim

/-- Eight clients without an entry decline the addresses from 192.168.5.50 on. -/
def eightDeclines : List Event :=
  (List.range 8).map fun k =>
    .sends (10 + k) false dhcpDecline (BitVec.ofNat 48 (1 + k)) (ip4 192 168 5 (50 + k))

/-- A ninth declines 192.168.5.60, and another client asks for it and is offered it. -/
theorem declined_withheld_fails : ¬ ∀ (s : System) (e : Event) (x : Ip) (es : List Event),
    s.Reachable → s.Asking e (fun st _ q => q.Declines st x) →
    (∀ e ∈ es, e.isReboot = false) → Along System.step (System.Withholds x) (s.step e) es := by
  intro hall
  let s := eightDeclines.foldl System.step (powerOn shipped none 0)
  let e := Event.sends 20 false dhcpDecline 9 (ip4 192 168 5 60)
  let later := Event.sends 30 false dhcpDiscover 10 (ip4 192 168 5 60)
  have hs : s.Reachable :=
    (System.Reachable.switchedOn shipped 0).run eightDeclines (by decide +kernel)
  have hwith := (hall s e (ip4 192 168 5 60) [later] hs (by decide +kernel) (by decide)).1
  have hout : ∃ o ∈ (s.step e).outs later, o.Carries 10 (ip4 192 168 5 60) := by decide +kernel
  obtain ⟨o, ho, hc⟩ := hout
  exact hwith o ho 10 hc

theorem declined_withheld_first :
    let s := powerOn shipped none 0
    Along System.step (System.Withholds (ip4 192 168 5 60))
      (s.step (.sends 10 false dhcpDecline 1 (ip4 192 168 5 60)))
      [.sends 30 false dhcpDiscover 10 (ip4 192 168 5 60)] :=
  System.declined_withheld _ _ _ _ (by decide +kernel) (.inr (by decide)) (by decide)

end

end Dhcp
end Wt32Router
