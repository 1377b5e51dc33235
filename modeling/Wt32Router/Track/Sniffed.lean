import Wt32Router.Dhcp.Reports
import Wt32Router.Track.Bridge

/-!
# What is sniffed reaches the lease table

`account_traffic` tells the DHCP server the address a client is using, when it is not the
one believed already, so that the mapping kept in flash is the client's actual address.

> **`Sniffed.reach_leases`**: in any run, the server reports every address a tracked client
> was last seen using (`Sniffed.Holds`) in every state reached, exactly if no step *loses*
> one (`Sniffed.Loses`).

Two kinds of step lose one. A client's traffic is accounted from an address that the table
of clients had come to believe some other way, from the ARP cache or from a lease of an
earlier boot, and that the server does not report: it is not told, then or later. And a
message dislodges the client's entry from the lease table, and nothing puts it back, since
the belief it would be a change from has not changed.

The last address each client was seen using is followed by a monitor, `Sources`, that
forgets a client when its entry ages out.
-/

namespace Wt32Router
namespace Track

open Dhcp (Ip Mac Server System Env Request DhcpMsg NvsResult notable slotForLocked readRequest
  handleMessage noteObservedIp setQuarantined seenThisBoot dhcpRelease dhcpDecline dhcpDiscover
  dhcpRequest shipped ip4 powerOn)

/-- The last address each tracked client was seen using. -/
abbrev Sources := Mac → Option Ip

def Sources.start : Sources := fun _ => none

def Sources.next (b : Bridge) (e : Event) (src : Sources) : Sources :=
  match e with
  | .account now ev =>
    if (findOrCreateLocked b.table ev.mac now).isSome ∧ ev.observedIp ≠ 0 then
      Function.update src ev.mac (some ev.observedIp)
    else src
  | .sweep now =>
    fun mac => if (findLocked (Track.sweep b.table now).1 mac).isSome then src mac else none
  | _ => src

abbrev Sniffed := Bridge × Sources

abbrev Sniffed.step : Sniffed → Event → Sniffed := Lib.watch Bridge.step Sources.next

/-- A boot: no clients, and whatever the server restored. -/
def Sniffed.boot (s : System) : Sniffed := (⟨.empty, s⟩, .start)

/-- A step with room in the lease table for whatever it records, and no message but those
    that ask for an address. -/
def Bridge.Ok (b : Bridge) : Event → Prop
  | .account now ev => notable b.dhcp.srv.cfg ev.observedIp = true →
      slotForLocked b.dhcp.srv ev.mac now ≠ none
  | .server (.recv env m len) => ∀ q ∈ readRequest m len, q.type ≠ dhcpRelease ∧
      q.type ≠ dhcpDecline ∧ q.Recordable b.dhcp.srv env
  | .server (.noteObserved ..) => False
  | .server (.reboot ..) => False
  | _ => True

/-- The server reports every address on the bridge's own subnet, and not the bridge's, that
    a tracked client was last seen using. -/
def Sniffed.Holds (p : Sniffed) : Prop :=
  ∀ mac ip, p.2 mac = some ip → notable p.1.dhcp.srv.cfg ip = true → p.1.dhcp.srv.Reports mac ip

/-- The slot has an entry that reports the address its client was last seen using, and the
    message dislodges it. -/
def Sources.LosesEntry (src : Sources) (st : Server) (env : Env) (q : Request) (i : Dhcp.Slot) :
    Prop :=
  match src (st.leases i).mac with
  | some ip => notable st.cfg ip = true ∧ st.live i ∧
      ((st.leases i).observedIp = ip ∨ (st.leases i).ip = ip) ∧
      seenThisBoot st (st.leases i) = true ∧ q.Dislodges st env (st.leases i) ip
  | none => False

/-- A client is accounted on an address that is believed of it and not reported, or a
    message dislodges the entry that reports the address one was last seen using. -/
def Sniffed.Loses (p : Sniffed) : Event → Prop
  | .account _ ev => notable p.1.dhcp.srv.cfg ev.observedIp = true ∧
      (∃ i, findLocked p.1.table ev.mac = some i ∧ (p.1.table.clients i).ip = ev.observedIp) ∧
      ¬ p.1.dhcp.srv.Reports ev.mac ev.observedIp
  | .server (.recv env m len) => ∃ q ∈ readRequest m len, ∃ i,
      p.2.LosesEntry p.1.dhcp.srv env q i
  | _ => False

instance (b : Bridge) (e : Event) : Decidable (b.Ok e) := by
  unfold Bridge.Ok
  split <;> infer_instance

instance (src : Sources) (st : Server) (env : Env) (q : Request) (i : Dhcp.Slot) :
    Decidable (src.LosesEntry st env q i) := by
  unfold Sources.LosesEntry
  split <;> infer_instance

instance (p : Sniffed) (e : Event) : Decidable (p.Loses e) := by
  unfold Sniffed.Loses
  split <;> infer_instance

section

variable {b : Bridge} {src : Sources} {now : Nat} {ev : TrafficEvent} {mac : Mac} {ip : Ip}
  {env : Env} {m : DhcpMsg} {len : Nat} {e : Event} {s : System} {es : List Event}

/-! ## Steps that lose nothing -/

theorem Sniffed.Holds.of_dhcp (h : Sniffed.Holds (b, src)) (hd : (b.step e).dhcp = b.dhcp)
    (hsrc : ∀ mac ip, Sources.next b e src mac = some ip → src mac = some ip) :
    Sniffed.Holds (Sniffed.step (b, src) e) := by
  intro mac ip hm hn
  have hd : (Sniffed.step (b, src) e).1.dhcp = b.dhcp := hd
  rw [hd] at hn ⊢
  exact h mac ip (hsrc mac ip hm) hn

theorem Sniffed.Holds.of_server {e : Dhcp.Event} (h : Sniffed.Holds (b, src))
    (hcfg : (b.dhcp.step e).srv.cfg = b.dhcp.srv.cfg)
    (hrep : ∀ mac ip, b.dhcp.srv.Reports mac ip → (b.dhcp.step e).srv.Reports mac ip) :
    Sniffed.Holds (Sniffed.step (b, src) (.server e)) := by
  intro mac ip hm hn
  have hd : (Sniffed.step (b, src) (.server e)).1.dhcp = b.dhcp.step e := rfl
  rw [hd] at hn ⊢
  exact hrep mac ip (h mac ip hm (hcfg ▸ hn))

theorem Sources.sweep_sub (h : Sources.next b (.sweep now) src mac = some ip) :
    src mac = some ip := by
  simp only [Sources.next] at h
  split at h
  · exact h
  · exact absurd h (by simp)

theorem Sniffed.Holds.polled {nvs : NvsResult} (h : Sniffed.Holds (b, src)) :
    Sniffed.Holds (Sniffed.step (b, src) (.server (.poll now nvs))) := by
  refine h.of_server ?_ fun mac ip hr =>
    System.poll_srv (P := fun st => st.Reports mac ip) now nvs hr hr.saved
  exact System.poll_srv (P := fun st => st.cfg = b.dhcp.srv.cfg) now nvs rfl Dhcp.markSaved_cfg

/-! ## Traffic -/

/-- **One accounted frame**: what was to be reported still is, exactly if the frame's
    address is not one that was believed and not reported. -/
theorem Sniffed.account_iff (h : Sniffed.Holds (b, src)) (hok : b.Ok (.account now ev)) :
    Sniffed.Holds (Sniffed.step (b, src) (.account now ev)) ↔
      ¬ Sniffed.Loses (b, src) (.account now ev) := by
  have hdhcp : (Sniffed.step (b, src) (.account now ev)).1.dhcp =
      (accountTraffic b now ev).dhcp := rfl
  cases hf : findOrCreateLocked b.table ev.mac now with
  | none =>
    refine iff_of_true (h.of_dhcp ?_ fun mac ip hm => ?_) ?_
    · show (accountTraffic b now ev).dhcp = b.dhcp
      unfold accountTraffic
      rw [hf]
    · simpa [Sources.next, hf] using hm
    · rintro ⟨-, ⟨i, hi, -⟩, -⟩
      unfold findOrCreateLocked at hf
      rw [hi] at hf
      exact absurd hf (by simp)
  | some ti =>
    obtain ⟨t, i⟩ := ti
    by_cases h0 : ev.observedIp = 0
    · refine iff_of_true (h.of_dhcp ?_ fun mac ip hm => ?_) ?_
      · show (accountTraffic b now ev).dhcp = b.dhcp
        unfold accountTraffic
        rw [hf]
        exact if_neg fun hc => hc.1 h0
      · simpa [Sources.next, h0] using hm
      · rintro ⟨hn, -, -⟩
        exact Dhcp.notable_ne_zero hn h0
    · have hsrc : Sources.next b (.account now ev) src =
          Function.update src ev.mac (some ev.observedIp) := by
        simp only [Sources.next, hf]
        exact if_pos ⟨rfl, h0⟩
      by_cases hip : (t.clients i).ip = ev.observedIp
      · -- believed already: the server is not told
        have hd := accountTraffic_believed hf hip
        obtain ⟨hfind, rfl⟩ := findOrCreateLocked_found hf (hip ▸ h0)
        constructor
        · rintro hpost ⟨hn, -, hno⟩
          have hrep := hpost ev.mac ev.observedIp (by simp [hsrc])
          rw [hdhcp, hd] at hrep
          exact hno (hrep hn)
        · intro hno mac ip hm hn
          rw [hdhcp, hd] at hn ⊢
          rw [Lib.watch_snd, hsrc] at hm
          by_cases hmac : mac = ev.mac
          · subst hmac
            rw [Function.update_self, Option.some.injEq] at hm
            subst hm
            by_contra hr
            exact hno ⟨hn, ⟨i, hfind, hip⟩, hr⟩
          · rw [Function.update_of_ne hmac] at hm
            exact h mac ip hm hn
      · -- a change from what was believed: the server is told
        have hd := accountTraffic_told hf h0 hip
        have hsrv : (b.dhcp.step (.noteObserved now ev.mac ev.observedIp)).srv =
            noteObservedIp b.dhcp.srv ev.mac ev.observedIp now := rfl
        refine iff_of_true (fun mac ip hm hn => ?_) ?_
        · rw [hdhcp, hd, hsrv] at hn ⊢
          rw [Lib.watch_snd, hsrc] at hm
          rw [Dhcp.noteObservedIp_cfg] at hn
          by_cases hmac : mac = ev.mac
          · subst hmac
            rw [Function.update_self, Option.some.injEq] at hm
            subst hm
            exact Dhcp.reports_noted hn (hok hn)
          · rw [Function.update_of_ne hmac] at hm
            exact (h mac ip hm hn).noted hmac
        · rintro ⟨-, ⟨j, hj, hjip⟩, -⟩
          rcases findOrCreateLocked_cases hf with ⟨hfind, rfl⟩ | ⟨hnone, -, -⟩
          · rw [hfind, Option.some.injEq] at hj
            exact hip (hj ▸ hjip)
          · rw [hnone] at hj
            exact absurd hj (by simp)

/-! ## Messages -/

/-- **One message**: what was to be reported still is, exactly if the message dislodges no
    entry that reports it. -/
theorem Sniffed.message_iff (hI : b.dhcp.Inv) (h : Sniffed.Holds (b, src))
    (hok : b.Ok (.server (.recv env m len))) :
    Sniffed.Holds (Sniffed.step (b, src) (.server (.recv env m len))) ↔
      ¬ Sniffed.Loses (b, src) (.server (.recv env m len)) := by
  have hsrv : (Sniffed.step (b, src) (.server (.recv env m len))).1.dhcp.srv =
      (handleMessage b.dhcp.srv env m len).1 := rfl
  cases hq : readRequest m len with
  | none =>
    refine iff_of_true (h.of_server ?_ fun mac ip hr => ?_) ?_
    · simp [System.step, handleMessage, hq]
    · simpa [System.step, handleMessage, hq] using hr
    · rintro ⟨q, hq', -⟩
      rw [hq] at hq'
      exact absurd hq' (by simp)
  | some q =>
    obtain ⟨hrel, hdec, hrec⟩ := hok q hq
    have hcfg : (handleMessage b.dhcp.srv env m len).1.cfg = b.dhcp.srv.cfg := by
      cases hm : handleMessage b.dhcp.srv env m len with
      | mk st' outs =>
        rcases Dhcp.handleMessage_cases hm with ⟨rfl, -⟩ | ⟨q', -, hh⟩
        · rfl
        · exact hh.cfg_eq
    constructor
    · rintro hpost ⟨q', hq', i, hl⟩
      obtain rfl : q = q' := Option.some.inj (hq.symm.trans hq')
      simp only [Sources.LosesEntry] at hl
      split at hl
      · rename_i ip hm
        obtain ⟨hn, hi, hnames, hseen, hdis⟩ := hl
        have hrep := hpost (b.dhcp.srv.leases i).mac ip hm
        rw [hsrv, hcfg] at hrep
        exact (Dhcp.reports_message hI.table hq hrel hdec hrec hi hnames hseen).mp (hrep hn) hdis
      · exact hl
    · intro hno mac ip hm hn
      rw [hsrv] at hn ⊢
      rw [hcfg] at hn
      obtain ⟨i, hi, rfl, hnames, hseen⟩ := h mac ip hm hn
      refine (Dhcp.reports_message hI.table hq hrel hdec hrec hi hnames hseen).mpr fun hdis => ?_
      refine hno ⟨q, hq, i, ?_⟩
      have hm : src (b.dhcp.srv.leases i).mac = some ip := hm
      show src.LosesEntry b.dhcp.srv env q i
      unfold Sources.LosesEntry
      rw [hm]
      exact ⟨hn, hi, hnames, hseen, hdis⟩

/-! ## Runs -/

theorem Sniffed.step_iff (hI : b.dhcp.Inv) (h : Sniffed.Holds (b, src)) (hok : b.Ok e) :
    Sniffed.Holds (Sniffed.step (b, src) e) ↔ ¬ Sniffed.Loses (b, src) e := by
  cases e with
  | account now ev => exact Sniffed.account_iff h hok
  | assigned _ _ _ _ _ => exact iff_of_true (h.of_dhcp rfl fun _ _ hm => hm) id
  | sweep now => exact iff_of_true (h.of_dhcp rfl fun _ _ hm => Sources.sweep_sub hm) id
  | resolve _ _ _ => exact iff_of_true (h.of_dhcp rfl fun _ _ hm => hm) id
  | server e =>
    cases e with
    | recv env m len => exact Sniffed.message_iff hI h hok
    | noteObserved _ _ _ => exact absurd hok id
    | setQuarantined now macs =>
      exact iff_of_true (h.of_server Dhcp.setQuarantined_cfg fun _ _ hr => hr.quarantined) id
    | poll now nvs => exact iff_of_true h.polled id
    | reboot _ _ => exact absurd hok id

/-- **Sniffed addresses reach the lease table**, from any table a boot has restored: the
    server reports the last address every tracked client was seen using, in every state a
    run reaches, exactly if no step of the run loses one. -/
theorem Sniffed.reach_leases (hs : s.Reachable)
    (hrun : Lib.Along Sniffed.step (fun p e => p.1.Ok e) (Sniffed.boot s) es) :
    Lib.Along Sniffed.step (fun p e => Sniffed.Holds (Sniffed.step p e)) (Sniffed.boot s) es ↔
      Lib.Along Sniffed.step (fun p e => ¬ p.Loses e) (Sniffed.boot s) es := by
  refine hrun.iff_of_invariant (I := fun p => p.1.dhcp.Inv ∧ p.Holds)
    ⟨hs.inv, fun _ _ hm => absurd hm (by simp [Sniffed.boot, Sources.start])⟩ ?_
  rintro ⟨b, src⟩ e ⟨hI, h⟩ hok
  exact ⟨Sniffed.step_iff hI h hok, fun hpost => ⟨Bridge.step_inv hI e, hpost⟩⟩

/-- A client is told its address and uses it, then sets itself another; the table is saved,
    and a second client is offered an address. -/
def sniffedAndServed : List Event :=
  [.account 10 ⟨1, true, 342, true, 0⟩,
    .server (.sends 20 false dhcpRequest 1 (ip4 192 168 5 10)),
    .assigned 30 true 1 (ip4 192 168 5 10) [],
    .account 40 ⟨1, true, 98, true, ip4 192 168 5 10⟩, .sweep 1000000,
    .resolve 1000000 [(1, ip4 192 168 5 10)] [(1, -40)],
    .account 1500000 ⟨1, true, 98, true, ip4 192 168 5 60⟩, .server (.poll 20000000 .ok),
    .server (.sends 30000000 false dhcpDiscover 2 0)]

theorem reach_leases_served :
    Lib.Along Sniffed.step (fun p e => Sniffed.Holds (Sniffed.step p e))
      (Sniffed.boot (powerOn shipped none 0)) sniffedAndServed :=
  (Sniffed.reach_leases (System.Reachable.switchedOn shipped 0) (by decide +kernel)).mpr
    (by decide +kernel)

/-- A client with an address of its own is heard from by ARP alone, and a tick finds its
    address in the ARP cache. -/
def arpThenTick : List Event :=
  let p := [.account 10 ⟨1, true, 42, true, 0⟩].foldl Sniffed.step
    (Sniffed.boot (powerOn shipped none 0))
  .account 10 ⟨1, true, 42, true, 0⟩ ::
    tickEvents p.1 1000000 (fun _ => ip4 192 168 5 77) [(1, -40)] []

/-- Its traffic from that address is then no news to the table of clients, and the server
    never has an entry for it. -/
theorem sniffed_not_reported : ¬ ∀ (s : System) (es : List Event), s.Reachable →
    Lib.Along Sniffed.step (fun p e => p.1.Ok e) (Sniffed.boot s) es →
      Lib.Along Sniffed.step (fun p e => Sniffed.Holds (Sniffed.step p e)) (Sniffed.boot s) es := by
  intro hall
  let last := Event.account 2000000 ⟨1, true, 98, true, ip4 192 168 5 77⟩
  have hrun := hall (powerOn shipped none 0) (arpThenTick ++ [last])
    (System.Reachable.switchedOn shipped 0) (by decide +kernel)
  let p := arpThenTick.foldl Sniffed.step (Sniffed.boot (powerOn shipped none 0))
  have hlast : Sniffed.Holds (Sniffed.step p last) := (Lib.along_append.mp hrun).2.1
  have hsrc : (Sniffed.step p last).2 1 = some (ip4 192 168 5 77) := by decide +kernel
  have hnotable : notable (Sniffed.step p last).1.dhcp.srv.cfg (ip4 192 168 5 77) = true := by
    decide +kernel
  have hrep : ¬ (Sniffed.step p last).1.dhcp.srv.Reports 1 (ip4 192 168 5 77) := by
    decide +kernel
  exact hrep (hlast 1 (ip4 192 168 5 77) hsrc hnotable)

end

end Track
end Wt32Router
