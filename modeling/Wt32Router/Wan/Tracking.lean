import Wt32Router.Wan.Uplink

/-!
# The filter and the state of the uplink

The state the status page shows and the rule set the datapath reads are written by the same
handlers, one after the other, and neither is computed from the other. `on_got_ip` writes
them together; `on_lost_ip` closes the filter but leaves a state that is not `UP` alone;
`on_sta_disconnected` closes it and then decides the state on three branches.

> **`Uplink.filter_tracks`**: once the filter is installed, it is open exactly while the state
> is `UP`, it names no DNS server while closed, and while it is open the station's network
> shares no address with the LAN. The backoff stays between its bounds, and so does every
> delay, the long one of a refusal or a conflict apart.

The station's last address and mask are those of the last `GOT_IP` event, which a monitor
keeps (`lastLease`): nothing in the code needs to be asked what the last event was.
-/

namespace Wt32Router
namespace Wan

open Lib

/-- The address and mask of the last `GOT_IP` event. -/
def lastLease (_ : Uplink) (e : Event) (lease : Option (Ip × Ip)) : Option (Ip × Ip) :=
  match e with
  | .gotIp (some evt) => some (evt.ip, evt.netmask)
  | _ => lease

/-- The rule set follows the state, and the network in use is not the LAN's. -/
structure FilterTracks (s : Uplink) (lease : Option (Ip × Ip)) : Prop where
  up_iff : s.rules.live.up = true ↔ s.status.state = .up
  closed : s.rules.live.up = false → s.rules.live.dnsIp = 0
  last : s.rules.live.up = true → lease = some (s.status.ip, s.status.netmask)
  apart : s.rules.live.up = true →
    ¬ ∃ a, InNet s.status.ip s.status.netmask a ∧ InNet lanIp lanMask a
  backoff : backoffMinS ≤ s.backoffS ∧ s.backoffS ≤ backoffMaxS

def DelayOk (seconds : Nat) : Prop :=
  (backoffMinS ≤ seconds ∧ seconds ≤ backoffMaxS) ∨ seconds = backoffRejectedS

/-- What can happen before the station is started. -/
def Event.beforeStart : Event → Bool
  | .staStarted netifReady => !netifReady
  | .netifUp _ _ | .cfgSaved _ | .portsChanged => true
  | _ => false

/-- A closed filter over a state that is not `UP`, the wrappers not yet in place. -/
structure Unstarted (s : Uplink) : Prop where
  hooked : s.hooked = false
  up : s.rules.live.up = false
  dnsIp : s.rules.live.dnsIp = 0
  backoff : s.backoffS = backoffMinS

section

variable {s s' : Uplink} {e : Event} {lease : Option (Ip × Ip)} {cfg : WanCfg}
  {reason : Option (BitVec 8)} {up : Bool} {dnsIp : Ip}

theorem publish_up : (s.publish up dnsIp).rules.live.up = up := by
  rw [publish_live, fillRules_up]

theorem publish_dnsIp : (s.publish up dnsIp).rules.live.dnsIp = dnsIp := by
  rw [publish_live, fillRules_dnsIp]

/-! ## Before the station starts -/

theorem naptEnsure_hooked {naptOk : Bool} : (s.naptEnsure naptOk).hooked = s.hooked := by
  unfold Uplink.naptEnsure; split <;> rfl

theorem wanInit_unstarted (h : cfg.enabled = true) : Unstarted (wanInit cfg) := by
  unfold wanInit
  dsimp only
  rw [if_pos h]
  exact ⟨rfl, publish_up, publish_dnsIp, rfl⟩

theorem Unstarted.step (h : Unstarted s) (he : e.beforeStart = true) : Unstarted (s.step e) := by
  cases e with
  | staStarted netifReady =>
    -- a start with no netif is one that has not happened
    have hready : netifReady = false := by simpa [Event.beforeStart] using he
    show Unstarted (onStaPortStarted s netifReady).1
    rw [onStaPortStarted_again (.inr hready)]
    exact h
  | netifUp ofBridge naptOk =>
    show Unstarted (if ofBridge then s.naptEnsure naptOk else s)
    split
    · exact ⟨naptEnsure_hooked.trans h.hooked, by rw [naptEnsure_rules]; exact h.up,
        by rw [naptEnsure_rules]; exact h.dnsIp, by rw [naptEnsure_backoffS]; exact h.backoff⟩
    · exact h
  | cfgSaved cfg => exact ⟨h.hooked, h.up, h.dnsIp, h.backoff⟩
  | portsChanged =>
    exact ⟨h.hooked, publish_up.trans h.up, publish_dnsIp.trans h.dnsIp, h.backoff⟩
  | _ => exact absurd he Bool.false_ne_true

theorem Unstarted.started (h : Unstarted s) : FilterTracks (s.step (.staStarted true)) lease := by
  show FilterTracks (onStaPortStarted s true).1 lease
  rw [onStaPortStarted_first h.hooked]
  refine ⟨iff_of_false ?_ WanState.noConfusion, fun _ => h.dnsIp, fun hup => ?_, fun hup => ?_, ?_⟩
  · exact fun hup => Bool.false_ne_true (h.up.symm.trans hup)
  · exact absurd (h.up.symm.trans hup) Bool.false_ne_true
  · exact absurd (h.up.symm.trans hup) Bool.false_ne_true
  · show backoffMinS ≤ s.backoffS ∧ s.backoffS ≤ backoffMaxS
    rw [h.backoff]
    decide

theorem Unstarted.hooked_after (h : Unstarted s) : (s.step (.staStarted true)).hooked = true := by
  show (onStaPortStarted s true).1.hooked = true
  rw [onStaPortStarted_first h.hooked]

/-! ## The handlers -/

theorem scheduleRetry_hooked {seconds : Nat} :
    (s.scheduleRetry seconds).hooked = s.hooked := by
  unfold Uplink.scheduleRetry; split <;> rfl

theorem FilterTracks.keep (h : FilterTracks s lease) (hup : s'.rules.live.up = s.rules.live.up)
    (hdns : s'.rules.live.dnsIp = s.rules.live.dnsIp) (hstate : s'.status.state = s.status.state)
    (hip : s'.status.ip = s.status.ip) (hmask : s'.status.netmask = s.status.netmask)
    (hback : s'.backoffS = s.backoffS) : FilterTracks s' lease := by
  constructor
  · rw [hup, hstate]; exact h.up_iff
  · rw [hup, hdns]; exact h.closed
  · rw [hup, hip, hmask]; exact h.last
  · rw [hup, hip, hmask]; exact h.apart
  · rw [hback]; exact h.backoff

/-- A step that closes the filter, whatever it makes of the state. -/
theorem FilterTracks.of_closed (hup : s.rules.live.up = false) (hdns : s.rules.live.dnsIp = 0)
    (hstate : s.status.state ≠ .up)
    (hback : backoffMinS ≤ s.backoffS ∧ s.backoffS ≤ backoffMaxS) : FilterTracks s lease := by
  have hclosed : s.rules.live.up ≠ true := fun h => Bool.false_ne_true (hup.symm.trans h)
  exact ⟨iff_of_false hclosed hstate, fun _ => hdns, fun h => absurd h hclosed,
    fun h => absurd h hclosed, hback⟩

theorem onGotIp_tracks {evt : GotIp} (h : FilterTracks s lease) :
    FilterTracks (onGotIp s (some evt)).1 (some (evt.ip, evt.netmask)) := by
  cases hover : overlapsLan evt.ip evt.netmask with
  | true =>
    rw [onGotIp_conflict hover]
    refine .of_closed ?_ ?_ ?_ ?_
    · rw [scheduleRetry_rules, publish_up]
    · rw [scheduleRetry_rules, publish_dnsIp]
    · rw [scheduleRetry_state, publish_status]
      exact WanState.noConfusion
    · rw [scheduleRetry_backoffS, publish_backoffS]
      exact h.backoff
  | false =>
    have hapart : ¬ ∃ a, InNet evt.ip evt.netmask a ∧ InNet lanIp lanMask a :=
      fun hshare => Bool.false_ne_true (hover.symm.trans (overlapsLan_iff.mpr hshare))
    -- the uplink is up, on a network that is apart from the LAN
    rw [onGotIp_apart hover]
    constructor
    · simp
    · simp
    · simp
    · simpa using hapart
    · rw [naptEnsure_backoffS, publish_backoffS]
      exact ⟨le_refl _, show backoffMinS ≤ backoffMaxS by decide⟩

theorem backoff_doubled {seconds delay : Nat}
    (h : backoffMinS ≤ seconds ∧ seconds ≤ backoffMaxS) :
    backoffMinS ≤ (if delay = seconds then min (seconds * 2) backoffMaxS else seconds) ∧
      (if delay = seconds then min (seconds * 2) backoffMaxS else seconds) ≤ backoffMaxS := by
  unfold backoffMinS backoffMaxS at *
  split <;> omega

theorem onStaDisconnected_tracks (h : FilterTracks s lease) :
    FilterTracks (onStaDisconnected s reason).1 lease := by
  unfold onStaDisconnected
  dsimp only
  split
  -- in a conflict the state stays, and it is not `UP`
  · rename_i hconf
    refine .of_closed publish_up publish_dnsIp ?_ h.backoff
    exact fun hup => WanState.noConfusion (hconf.symm.trans hup)
  · refine .of_closed ?_ ?_ ?_ ?_
    · rw [scheduleRetry_rules]
      exact publish_up
    · rw [scheduleRetry_rules]
      exact publish_dnsIp
    · rw [scheduleRetry_state]
      exact judgeDisconnect_state.2
    · rw [scheduleRetry_backoffS]
      exact backoff_doubled h.backoff

theorem Uplink.step_hooked (h : s.hooked = true) : (s.step e).hooked = true := by
  cases e with
  | staStarted netifReady =>
    show (onStaPortStarted s netifReady).1.hooked = true
    rw [onStaPortStarted_again (.inl h)]
    exact h
  | netifUp ofBridge naptOk =>
    show (if ofBridge then s.naptEnsure naptOk else s).hooked = true
    split
    · rw [naptEnsure_hooked]; exact h
    · exact h
  | gotIp evt =>
    show (onGotIp s evt).1.hooked = true
    cases evt with
    | none => exact h
    | some evt =>
      cases hover : overlapsLan evt.ip evt.netmask with
      | true => rw [onGotIp_conflict hover]; exact scheduleRetry_hooked.trans h
      | false => rw [onGotIp_apart hover]; exact naptEnsure_hooked.trans h
  | staDisconnected reason =>
    show (onStaDisconnected s reason).1.hooked = true
    unfold onStaDisconnected
    dsimp only
    split
    · exact h
    · exact scheduleRetry_hooked.trans h
  | _ => exact h

theorem FilterTracks.step (hhook : s.hooked = true) (h : FilterTracks s lease) :
    FilterTracks (s.step e) (lastLease s e lease) := by
  cases e with
  | staStarted netifReady =>
    show FilterTracks (onStaPortStarted s netifReady).1 lease
    rw [onStaPortStarted_again (.inl hhook)]
    exact h
  | netifUp ofBridge naptOk =>
    show FilterTracks (if ofBridge then s.naptEnsure naptOk else s) lease
    split
    · exact h.keep (by rw [naptEnsure_rules]) (by rw [naptEnsure_rules]) naptEnsure_state
        naptEnsure_ip naptEnsure_netmask naptEnsure_backoffS
    · exact h
  | staConnected channel configured => exact h.keep rfl rfl rfl rfl rfl rfl
  | gotIp evt =>
    cases evt with
    | none => exact h
    | some evt => exact onGotIp_tracks h
  | lostIp =>
    -- the state goes from `UP` to `DOWN`, and from any other nowhere
    refine .of_closed publish_up publish_dnsIp ?_ h.backoff
    show (if s.status.state = WanState.up then WanState.down else s.status.state) ≠ .up
    split
    · exact WanState.noConfusion
    · assumption
  | staDisconnected reason => exact onStaDisconnected_tracks h
  | retryExpired => exact h.keep rfl rfl rfl rfl rfl rfl
  | cfgSaved cfg => exact h.keep rfl rfl rfl rfl rfl rfl
  | portsChanged => exact h.keep publish_up publish_dnsIp rfl rfl rfl rfl

/-- What `wan_get_dns` hands the DHCP server is the live rule set's, whichever state the
    uplink is in: its own test of `up` finds nothing to hide. -/
theorem FilterTracks.wanGetDns_eq (h : FilterTracks s lease) :
    wanGetDns s.rules = s.rules.live.dnsIp := by
  unfold wanGetDns
  cases hup : s.rules.live.up with
  | true => exact if_pos rfl
  | false => rw [if_neg Bool.false_ne_true, h.closed hup]

theorem Uplink.delays_ok (h : backoffMinS ≤ s.backoffS ∧ s.backoffS ≤ backoffMaxS) :
    ∀ seconds ∈ s.delays e, DelayOk seconds := by
  intro seconds hmem
  cases e with
  | gotIp evt =>
    have hgot : seconds ∈ (onGotIp s evt).2.filterMap retryDelay := hmem
    cases evt with
    | none => exact absurd hgot (by simp [onGotIp])
    | some evt =>
      cases hover : overlapsLan evt.ip evt.netmask with
      | true =>
        -- a conflict waits for the long delay
        rw [onGotIp_conflict hover] at hgot
        have hlong : backoffRejectedS = seconds := by simpa [retryDelay] using hgot
        exact .inr hlong.symm
      | false =>
        rw [onGotIp_apart hover] at hgot
        exact absurd hgot (by simp [retryDelay])
  | staDisconnected reason =>
    have hdis : seconds ∈ (onStaDisconnected s reason).2.filterMap retryDelay := hmem
    unfold onStaDisconnected at hdis
    dsimp only at hdis
    split at hdis
    · exact absurd hdis (by simp [retryDelay])
    · simp only [List.filterMap_cons, List.filterMap_nil, retryDelay, List.mem_singleton] at hdis
      rcases judgeDisconnect_cases with ⟨-, hlong⟩ | ⟨-, hshort⟩
      · exact .inr (by rw [hdis, hlong])
      · exact .inl (by rw [hdis, hshort]; exact h)
  | staStarted netifReady =>
    have hstart : seconds ∈ (onStaPortStarted s netifReady).2.filterMap retryDelay := hmem
    rcases onStaPortStarted_cases s netifReady with heq | heq
    · exact absurd (heq ▸ hstart) (by simp)
    · exact absurd (heq ▸ hstart) (by simp [retryDelay])
  | netifUp | staConnected | retryExpired | cfgSaved | portsChanged =>
    exact absurd hmem (by
      simp [Uplink.delays, Uplink.handle, onStaConnected, retryTimerCb, retryDelay])
  | lostIp => exact absurd hmem (by simp [Uplink.delays, Uplink.handle, onLostIp, retryDelay])

end

/-- **The filter tracks the state of the uplink.** The station is started in any state the
    events before it lead to, and then any events come in any order. -/
theorem Uplink.filter_tracks {cfg : WanCfg} (h : cfg.enabled = true) (before es : List Event)
    (hbefore : Along Uplink.step (fun _ e => e.beforeStart = true) (wanInit cfg) before) :
    let start := (before.foldl Uplink.step (wanInit cfg)).step (.staStarted true)
    let now := es.foldl (watch Uplink.step lastLease) (start, none)
    FilterTracks now.1 now.2 ∧ ∀ e, ∀ seconds ∈ now.1.delays e, DelayOk seconds := by
  intro start now
  have hun : Unstarted (before.foldl Uplink.step (wanInit cfg)) :=
    hbefore.invariant (wanInit_unstarted h) fun _ _ hI he => hI.step he
  have hnow : now.1.hooked = true ∧ FilterTracks now.1 now.2 :=
    along_true.invariant (I := fun s : Uplink × Option (Ip × Ip) =>
      s.1.hooked = true ∧ FilterTracks s.1 s.2) ⟨hun.hooked_after, hun.started⟩
      fun _ _ hI _ => ⟨Uplink.step_hooked hI.1, hI.2.step hI.1⟩
  exact ⟨hnow.2, fun e => Uplink.delays_ok hnow.2.backoff⟩

theorem filter_tracks_conflict_while_up :
    let cfg : WanCfg := ⟨true, [], [], fun _ => {}, 0⟩
    let start := ([.netifUp true true].foldl Uplink.step (wanInit cfg)).step (.staStarted true)
    let now := [.gotIp (some { ip := 0x0A000005, netmask := 0xFFFFFF00, dns := some 0x0A000001 }),
      .gotIp (some { ip := 0xC0A80007, netmask := 0xFFFF0000 }),
      .staDisconnected (some 8)].foldl (watch Uplink.step lastLease) (start, none)
    FilterTracks now.1 now.2 ∧ ∀ e, ∀ seconds ∈ now.1.delays e, DelayOk seconds :=
  Uplink.filter_tracks rfl _ _ (by decide)

end Wan
end Wt32Router
