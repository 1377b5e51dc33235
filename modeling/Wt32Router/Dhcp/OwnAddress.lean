import Wt32Router.Dhcp.Addresses
import Wt32Router.Dhcp.Reservation

/-!
# The bridge's own address

Step 3 of the allocator skips `s_server_ip`, "rather than assume it to be outside the range: a
range widened over it later should cost nothing rather than hand out an address that is
already spoken for". A wired range that holds it is switched off at the start; the general
pool is not looked at. Then step 3 is the only one of the four with the test: step 2 grants
the address to whoever asks for it, and from then on it is that client's reservation.

> **`System.own_address_kept_iff`**: in every run in which a boot does not take an address of
> the table in flash for its own, no reply carries the bridge's address exactly if no message
> is granted it by step 2.

The guard on boots is about an update that moves the bridge: a table saved under the old
address may hold a lease on the new one, and step 1 confirms it.
-/

namespace Wt32Router
namespace Dhcp

open Lib

/-- Nothing that is sent in this step offers or acknowledges the bridge's own address. -/
def System.SparesOwn (s : System) (e : Event) : Prop :=
  ∀ o ∈ s.outs e, ∀ mac, ¬ o.Carries mac s.srv.cfg.serverIp

/-- The message gets to step 2, and is granted the bridge's own address there. -/
def GrantsOwn (st : Server) (env : Env) (q : Request) : Prop :=
  q.GrantedAsked st env ∧ q.requested = st.cfg.serverIp

instance (st : Server) (env : Env) (q : Request) : Decidable (GrantsOwn st env q) :=
  inferInstanceAs (Decidable (_ ∧ _))

/-- A boot keeps the bridge where it was, or moves it to an address no record has. -/
def System.BootsApart (s : System) (e : Event) : Prop :=
  match e with
  | .reboot _ cfg => cfg.serverIp = s.srv.cfg.serverIp ∨
      ∀ t ∈ flashRecords s.flash, t.ip ≠ cfg.serverIp ∧ t.observedIp ≠ cfg.serverIp
  | _ => True

instance (s : System) : (e : Event) → Decidable (s.BootsApart e)
  | .reboot _ cfg => inferInstanceAs (Decidable (cfg.serverIp = s.srv.cfg.serverIp ∨
      ∀ t ∈ flashRecords s.flash, t.ip ≠ cfg.serverIp ∧ t.observedIp ≠ cfg.serverIp))
  | .recv _ _ _ | .noteObserved _ _ _ | .setQuarantined _ _ | .poll _ _ => .isTrue trivial

/-- An entry's two addresses have nothing to do with this one. -/
def Avoids (a leased observed : Ip) : Prop := leased ≠ a ∧ observed ≠ a

/-- What carries the run: neither the table nor flash has the bridge's own address. -/
abbrev System.OwnApart (s : System) : Prop := s.AllPairs (Avoids s.srv.cfg.serverIp)

section

variable {st st₁ st' : Server} {env : Env} {m : DhcpMsg} {q : Request} {len : Nat}
  {outs : List Out} {mac : Mac} {a ip requested : Ip} {now : Nat} {wired : Bool}
  {r : ServedRange} {s : System} {e : Event} {cfg : Config}

theorem Avoids.unobserved (h0 : a ≠ 0) {x o : Ip} (h : Avoids a x o) : Avoids a x 0 :=
  ⟨h.1, h0.symm⟩

/-- An address that no entry has is selected only if it is asked for, or free. -/
theorem select_avoids (hall : st.AllPairs (Avoids a)) (h0 : a ≠ 0)
    (hs : selectAddressLocked st mac requested wired now = (st₁, a)) :
    ∃ r ∈ rangesTried st mac requested wired now,
      (AskedIn st mac requested now r ∧ requested = a) ∨ isFree st a = true := by
  rcases selectAddressLocked_cases hs with ⟨-, h⟩ | ⟨r, hr, hsel⟩
  · exact absurd h h0
  · refine ⟨r, hr, ?_⟩
    cases hsel with
    | own h =>
      obtain ⟨i, hi, heq, -⟩ := confirmsOwn_some h
      exact absurd heq.symm (hall i (findByMacLocked_some hi).1).1
    | asked h => exact .inl ⟨h, rfl⟩
    | free h _ => exact .inr h
    | reclaimed h =>
      -- the victim gives up the address it has or the one it uses
      obtain ⟨hel, heq⟩ := pickVictimLocked_some h.2
      obtain ⟨hip, hobs⟩ := hall _ hel.live
      rcases (reclaimableAddress_eq hel.address.1).2 with h' | h'
      · exact absurd (heq.trans h').symm hip
      · exact absurd (heq.trans h').symm hobs

/-! ## One message -/

/-- The bridge's address is selected only if step 2 grants it: step 3 skips it. -/
theorem select_grantsOwn (hall : st.AllPairs (Avoids st.cfg.serverIp)) (ha : q.Asks st)
    (hs : selectAddressLocked st q.mac q.requested env.wired env.now = (st₁, st.cfg.serverIp)) :
    GrantsOwn st env q := by
  obtain ⟨r, hr, ⟨hask, hreq⟩ | hfree⟩ := select_avoids hall st.cfg.serverIp_ne hs
  · exact ⟨⟨ha, r, hr, hask⟩, hreq⟩
  · exact absurd rfl (isFree_iff.mp hfree).1

theorem Handled.avoids (hall : st.AllPairs (Avoids st.cfg.serverIp))
    (hno : ¬ GrantsOwn st env q) (hh : Handled st env m q st' outs) :
    st'.AllPairs (Avoids st.cfg.serverIp) := by
  refine hh.allPairs hall fun st₁ ip holdS persist ha hs _ _ => ?_
  have hip : ip ≠ st.cfg.serverIp := by
    rintro rfl
    exact hno (select_grantsOwn hall ha hs)
  apply (hall.select hs).commit
  · exact ⟨hip, st.cfg.serverIp_ne.symm⟩
  · intro i hi _
    exact ⟨hip, (hall.select hs i hi).2⟩

/-! ## One event -/

theorem System.OwnApart.sparesOwn_iff (h : s.OwnApart) :
    s.SparesOwn e ↔ ¬ s.Asking e GrantsOwn := by
  cases e with
  | recv env m len =>
    constructor
    · rintro hspare ⟨q, hq, hgrant, hreq⟩
      obtain ⟨o, ho, hc⟩ := granted_carries hq hgrant
      rw [hreq] at hc
      exact hspare o ho _ hc
    · intro hno o ho mac hc
      rcases s.recv_cases env m len with ⟨-, hnone⟩ | ⟨q, hq, hh⟩
      · rw [hnone] at ho
        exact absurd ho List.not_mem_nil
      · obtain ⟨-, ha, st₁, hs⟩ := hh.carries hq ho hc s.srv.cfg.serverIp_ne
        exact hno ⟨q, hq, select_grantsOwn h.table ha hs⟩
  | _ => exact iff_of_true (fun o ho => absurd ho List.not_mem_nil) id

theorem System.step_cfg (hboot : e.isReboot = false) : (s.step e).srv.cfg = s.srv.cfg := by
  cases e with
  | recv env m len =>
    rcases s.recv_cases env m len with ⟨hsame, -⟩ | ⟨q, -, hh⟩
    · rw [hsame]
    · exact hh.cfg_eq
  | noteObserved now mac ip => exact noteObservedIp_cfg
  | setQuarantined now macs => exact setQuarantined_cfg
  | poll now nvs => exact System.poll_srv (P := fun st => st.cfg = s.srv.cfg) now nvs rfl rfl
  | reboot _ _ => exact absurd hboot Bool.true_eq_false.mp

theorem System.OwnApart.step (h : s.OwnApart) (hi : s.Inv) (hboot : s.BootsApart e)
    (hno : ¬ s.Asking e GrantsOwn) : (s.step e).OwnApart := by
  have h0 := s.srv.cfg.serverIp_ne
  have hzero : ∀ x o, Avoids s.srv.cfg.serverIp x o → Avoids s.srv.cfg.serverIp x 0 :=
    fun _ _ => Avoids.unobserved h0
  unfold System.OwnApart
  cases e with
  | recv env m len =>
    rw [System.step_cfg rfl]
    refine ⟨?_, h.flash⟩
    rcases s.recv_cases env m len with ⟨hsame, -⟩ | ⟨q, hq, hh⟩
    · rw [hsame]
      exact h.table
    · exact hh.avoids h.table fun hg => hno ⟨q, hq, hg⟩
  | noteObserved now mac ip =>
    rw [System.step_cfg rfl]
    refine ⟨h.table.note hi.table.mac fun hnot x hx => ⟨?_, ?_⟩, h.flash⟩
    · rcases hx with rfl | ⟨o, ho⟩
      · exact h0.symm
      · exact ho.1
    · -- a note is not taken of the bridge's own address
      split
      · exact h0.symm
      · simp only [notable, Bool.and_eq_true, bne_iff_ne] at hnot
        exact hnot.2
  | setQuarantined now macs =>
    rw [System.step_cfg rfl]
    exact ⟨h.table.quarantine, h.flash⟩
  | poll now nvs =>
    rw [System.step_cfg rfl]
    exact h.poll hzero nvs
  | reboot now cfg =>
    have hcfg : (s.step (.reboot now cfg)).srv.cfg = cfg := bootServer_cfg _
    have hflash : ∀ t ∈ flashRecords s.flash, Avoids cfg.serverIp t.ip t.observedIp := by
      rcases hboot with hkeep | hmoved
      · rw [hkeep]
        exact h.flash
      · exact hmoved
    rw [hcfg]
    exact ⟨bootServer_allPairs hflash fun _ _ => Avoids.unobserved cfg.serverIp_ne, hflash⟩

/-- **The bridge's address is given out by step 2 or not at all**: no reply of a run carries
    it exactly if no message is granted it there. -/
theorem System.own_address_kept_iff (cfg : Config) (now : Nat) (es : List Event)
    (hboots : Along System.step System.BootsApart (powerOn cfg none now) es) :
    Along System.step System.SparesOwn (powerOn cfg none now) es ↔
      Along System.step (fun s e => ¬ s.Asking e GrantsOwn) (powerOn cfg none now) es := by
  refine hboots.iff_of_invariant (I := fun s => s.Inv ∧ s.OwnApart)
    ⟨(System.Reachable.switchedOn cfg now).inv, powerOn_allPairs⟩ fun s e h hboot => ?_
  have hiff := h.2.sparesOwn_iff (e := e)
  exact ⟨hiff, fun hspare => ⟨h.1.step, h.2.step h.1 hboot (hiff.mp hspare)⟩⟩

/-- The pool of `shipped`, widened down to the bridge's own address. -/
def widened : Config :=
  { shipped with
    pool := ⟨ip4 192 168 5 1, ip4 192 168 5 101⟩
    wired := ⟨0, 0⟩
    pool_start_ne := by decide
    pool_le := by decide
    wired_ok := by decide }

/-- A client asks for 192.168.5.1, and is offered it. -/
theorem own_address_fails : ¬ ∀ (cfg : Config) (now : Nat) (es : List Event),
    Along System.step System.SparesOwn (powerOn cfg none now) es := by
  intro hall
  let e := Event.sends 10 false dhcpDiscover 1 (ip4 192 168 5 1)
  have hspare := (hall widened 0 [e]).1
  have hout : ∃ o ∈ (powerOn widened none 0).outs e, o.Carries 1 (ip4 192 168 5 1) := by
    decide +kernel
  obtain ⟨o, ho, hc⟩ := hout
  exact hspare o ho 1 hc

theorem own_address_kept_unasked :
    Along System.step System.SparesOwn (powerOn widened none 0)
      [.sends 10 false dhcpDiscover 1 0, .reboot 0 widened] :=
  (System.own_address_kept_iff widened 0 _ (by decide +kernel)).mpr (by decide +kernel)

end

end Dhcp
end Wt32Router
