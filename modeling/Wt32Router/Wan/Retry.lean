import Wt32Router.Wan.Uplink

/-!
# The uplink and its retries

"Still retried, never given up on", says `main/wan.c` of a network that will not have us. A
refused or dropped association does schedule its own retry, on every path of
`on_sta_disconnected` but one: in a subnet conflict it returns early, because the conflict
"has already scheduled its own long retry". That retry is a one-shot timer. It fires, the
station reconnects, and if the network is gone by then nothing schedules the next one: the
state is still the conflict's, since only an address or the association's own handlers leave
it.

> **`Uplink.disconnect_arms_retry_iff`**: every disconnection leaves the timer armed exactly
> if none comes in a conflict whose own retry has fired.

The condition speaks of what happened and not of the timer, so it needs a monitor: whether
the timer has expired since an overlapping address was last received (`retryFired`).
-/

namespace Wt32Router
namespace Wan

open Lib

def Event.findsConflict : Event → Bool
  | .gotIp (some evt) => overlapsLan evt.ip evt.netmask
  | _ => false

/-- The retry timer has expired since a conflict was last found. -/
def retryFired (_ : Uplink) (e : Event) (fired : Bool) : Bool :=
  match e with
  | .retryExpired => true
  | e => if e.findsConflict then false else fired

/-- The retry timer is armed right after the step, if the step is a disconnection. -/
def ArmedAfter (s : Uplink × Bool) (e : Event) : Prop :=
  e.isDisconnect = true → (s.1.step e).timer.isArmed = true

/-- A disconnection in a conflict comes before the conflict's own retry. -/
def BeforeRetry (s : Uplink × Bool) (e : Event) : Prop :=
  e.isDisconnect = true → s.1.status.state = .subnetConflict → s.2 = false

instance (s : Uplink × Bool) (e : Event) : Decidable (ArmedAfter s e) :=
  inferInstanceAs (Decidable (_ → _))

instance (s : Uplink × Bool) (e : Event) : Decidable (BeforeRetry s e) :=
  inferInstanceAs (Decidable (_ → _))

/-- What carries the run: the timer exists, and in a conflict it is armed exactly until it
    has fired. -/
def ConflictTimed (s : Uplink × Bool) : Prop :=
  s.1.timer ≠ .absent ∧
    (s.1.status.state = .subnetConflict → (s.1.timer.isArmed = true ↔ s.2 = false))

section

variable {s : Uplink} {e : Event} {fired : Bool} {reason : Option (BitVec 8)} {cfg : WanCfg}

theorem scheduleRetry_isArmed {seconds : Nat} (h : s.timer ≠ .absent) :
    (s.scheduleRetry seconds).timer.isArmed = true := by
  rw [scheduleRetry_armed h, RetryTimer.isArmed]

/-- **The early return.** In a conflict a disconnection leaves the timer as it was. -/
theorem onStaDisconnected_conflict (h : s.status.state = .subnetConflict) :
    (onStaDisconnected s reason).1.timer = s.timer ∧
      (onStaDisconnected s reason).1.status.state = .subnetConflict := by
  unfold onStaDisconnected
  dsimp only
  split
  · exact ⟨rfl, h⟩
  · rename_i hother
    exact absurd h hother

theorem onStaDisconnected_other (ht : s.timer ≠ .absent)
    (h : s.status.state ≠ .subnetConflict) :
    (onStaDisconnected s reason).1.timer.isArmed = true ∧
      (onStaDisconnected s reason).1.status.state ≠ .subnetConflict := by
  unfold onStaDisconnected
  dsimp only
  split
  · rename_i hconf
    exact absurd hconf h
  · refine ⟨scheduleRetry_isArmed ht, ?_⟩
    rw [scheduleRetry_state]
    exact judgeDisconnect_state.1

theorem ConflictTimed.keep {s' : Uplink} (h : ConflictTimed (s, fired)) (ht : s'.timer = s.timer)
    (hstate : s'.status.state = .subnetConflict → s.status.state = .subnetConflict) :
    ConflictTimed (s', fired) := by
  obtain ⟨hpres, hc⟩ := h
  refine ⟨ht ▸ hpres, fun hconf => ?_⟩
  show s'.timer.isArmed = true ↔ _
  rw [ht]
  exact hc (hstate hconf)

theorem ConflictTimed.step (h : ConflictTimed (s, fired)) :
    ConflictTimed (s.step e, retryFired s e fired) := by
  cases e with
  | staStarted netifReady =>
    show ConflictTimed ((onStaPortStarted s netifReady).1, fired)
    rcases onStaPortStarted_cases s netifReady with heq | heq
    · rw [heq]; exact h
    · rw [heq]; exact h.keep rfl fun hconf => WanState.noConfusion hconf
  | netifUp ofBridge naptOk =>
    show ConflictTimed (if ofBridge then s.naptEnsure naptOk else s, fired)
    split
    · exact h.keep naptEnsure_timer (by rw [naptEnsure_state]; exact id)
    · exact h
  | staConnected channel configured => exact h.keep rfl id
  | gotIp evt =>
    cases evt with
    | none => exact h.keep rfl id
    | some evt =>
      refine ⟨Uplink.step_timer h.1, fun hstate => ?_⟩
      cases hover : overlapsLan evt.ip evt.netmask with
      | true =>
        have harmed : (onGotIp s (some evt)).1.timer.isArmed = true := by
          rw [onGotIp_conflict hover]
          exact scheduleRetry_isArmed h.1
        have hfired : retryFired s (.gotIp (some evt)) fired = false := by
          simp [retryFired, Event.findsConflict, hover]
        exact iff_of_true harmed hfired
      | false =>
        -- the address is good, and the state it leaves is no conflict
        have hup : (onGotIp s (some evt)).1.status.state = .up := by
          rw [onGotIp_apart hover, naptEnsure_state, publish_status]
        exact WanState.noConfusion (hup.symm.trans hstate)
  | lostIp =>
    refine h.keep rfl ?_
    show (if s.status.state = WanState.up then WanState.down else s.status.state) = _ → _
    split
    · exact fun hconf => WanState.noConfusion hconf
    · exact id
  | staDisconnected reason =>
    -- only a conflict leaves the timer as it is, and it was armed then until it fired
    by_cases hwas : s.status.state = .subnetConflict
    · exact h.keep (onStaDisconnected_conflict hwas).1 fun _ => hwas
    · refine ⟨Uplink.step_timer h.1, fun hstate => ?_⟩
      exact absurd hstate (onStaDisconnected_other h.1 hwas).2
  | retryExpired =>
    refine ⟨RetryTimer.noConfusion, fun _ => ?_⟩
    exact iff_of_false Bool.false_ne_true Bool.true_eq_false.mp
  | cfgSaved cfg => exact h.keep rfl id
  | portsChanged => exact h.keep rfl id

/-- One disconnection: it leaves the timer armed exactly if it does not come too late. -/
theorem ConflictTimed.armedAfter_iff (h : ConflictTimed (s, fired)) :
    ArmedAfter (s, fired) e ↔ BeforeRetry (s, fired) e := by
  obtain ⟨ht, hc⟩ := h
  refine imp_congr_right fun hdis => ?_
  cases e with
  | staDisconnected reason =>
    by_cases hwas : s.status.state = .subnetConflict
    · show (onStaDisconnected s reason).1.timer.isArmed = true ↔ _
      rw [(onStaDisconnected_conflict hwas).1]
      exact ⟨fun harmed _ => (hc hwas).mp harmed, fun hb => (hc hwas).mpr (hb hwas)⟩
    · exact ⟨fun _ hconf => absurd hconf hwas, fun _ => (onStaDisconnected_other ht hwas).1⟩
  | _ => exact absurd hdis Bool.false_ne_true

theorem wanInit_conflictTimed (h : cfg.enabled = true) : ConflictTimed (wanInit cfg, false) := by
  have hidle := wanInit_timer h
  refine ⟨fun habs => RetryTimer.noConfusion (hidle.symm.trans habs), fun hstate => ?_⟩
  have hconn : (wanInit cfg).status.state = .connecting := by
    unfold wanInit
    dsimp only
    rw [if_pos h]
  exact WanState.noConfusion (hconn.symm.trans hstate)

/-- **A disconnection is retried unless it comes in a conflict whose own retry has fired.**
    In the runs where none does, and in no others, the timer is armed after each one. -/
theorem Uplink.disconnect_arms_retry_iff (h : cfg.enabled = true) (es : List Event) :
    Along (watch Uplink.step retryFired) ArmedAfter (wanInit cfg, false) es ↔
      Along (watch Uplink.step retryFired) BeforeRetry (wanInit cfg, false) es := by
  exact along_true.iff_of_invariant (wanInit_conflictTimed h) fun s e hI _ =>
    ⟨hI.armedAfter_iff, fun _ => hI.step⟩

/-- The uplink as the address 192.168.5.7/24 of an upstream network leaves it, its own
    disconnection after that, and the retry 300 s later finding the network gone. -/
def conflictThenGone : List Event :=
  [.staStarted true, .staConnected (some 6) 1,
    .gotIp (some { ip := 0xC0A80507, netmask := 0xFFFFFF00 }), .staDisconnected (some 8),
    .retryExpired, .staDisconnected (some reasonNoApFound)]

def upstreamCfg : WanCfg where
  enabled := true
  ssid := []
  password := []
  ports := fun _ => {}
  nports := 0

theorem disconnect_arms_retry_fails :
    ¬ ∀ (cfg : WanCfg) (es : List Event), cfg.enabled = true →
      Along (watch Uplink.step retryFired) ArmedAfter (wanInit cfg, false) es := by
  intro h
  exact absurd (h upstreamCfg conflictThenGone rfl) (by decide)

theorem disconnect_arms_retry_first :
    Along (watch Uplink.step retryFired) ArmedAfter (wanInit upstreamCfg, false)
      (conflictThenGone.take 4) :=
  (Uplink.disconnect_arms_retry_iff rfl _).mpr (by decide)

end

end Wan
end Wt32Router
