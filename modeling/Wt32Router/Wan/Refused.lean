import Wt32Router.Wan.Retry

/-!
# A password that is refused again and again

`AUTH_FAILS_BEFORE_SLOW` is there because "a network that will not have us is not worth a
retry every minute for the rest of the device's life": the third refusal in a row, and every
later one, waits `BACKOFF_REJECTED_S`. What decides it is `s_auth_fails`, a `uint8_t` that
only an association sets back. It goes on counting at every refusal, and comes round to 0 at
the 256th. The bridge then takes its network for one it has hardly tried: the state is
"connecting" again, and the next tries come at the short delays of the backoff.

> **`Uplink.refused_slow_iff`**: in every run, every refusal from the third on is retried
> slowly exactly if none of them has a number that is 0, 1 or 2 modulo 256.

The number is a monitor's (`refusals`): it counts the refusals outside a conflict since the
last association, as the code means to.
-/

namespace Wt32Router
namespace Wan

open Lib

/-- The reasons `on_sta_disconnected` takes for a refused password. -/
def refusesPassword (reason : BitVec 8) : Prop :=
  reason = reasonAuthFail ∨ reason = reason4wayHandshakeTimeout ∨ reason = reasonHandshakeTimeout

instance (reason : BitVec 8) : Decidable (refusesPassword reason) :=
  inferInstanceAs (Decidable (_ ∨ _))

/-- The event is a refusal, and does not come in a conflict. -/
def Uplink.Refused (s : Uplink) : Event → Prop
  | .staDisconnected reason =>
    refusesPassword (reason.getD 0) ∧ s.status.state ≠ .subnetConflict
  | _ => False

instance (s : Uplink) : ∀ e : Event, Decidable (s.Refused e)
  | .staDisconnected _ => inferInstanceAs (Decidable (_ ∧ _))
  | .staStarted _ | .netifUp _ _ | .staConnected _ _ | .gotIp _ | .lostIp | .retryExpired
  | .cfgSaved _ | .portsChanged => .isFalse id

/-- The refusals since the last association. -/
def refusals (s : Uplink) (e : Event) (n : Nat) : Nat :=
  match e with
  | .staConnected _ _ => 0
  | e => if s.Refused e then n + 1 else n

/-- What a refusal is to be followed by. -/
structure Uplink.RetriesSlowly (s : Uplink) (e : Event) : Prop where
  state : (s.step e).status.state = .authFailed
  timer : (s.step e).timer = .armed backoffRejectedS
  delay : s.delays e = [backoffRejectedS]

/-- The refusal this step is, if it is one, is retried slowly if it is the third or later. -/
def SlowFromThird (s : Uplink × Nat) (e : Event) : Prop :=
  s.1.Refused e → authFailsBeforeSlow ≤ s.2 + 1 → s.1.RetriesSlowly e

/-- The number of the refusal this step is, if it is one, still tells a byte that it is the
    third or later. -/
def CountedInByte (s : Uplink × Nat) (e : Event) : Prop :=
  s.1.Refused e → authFailsBeforeSlow ≤ s.2 + 1 → authFailsBeforeSlow ≤ (s.2 + 1) % 256

instance (s : Uplink) (e : Event) : Decidable (s.RetriesSlowly e) :=
  decidable_of_iff ((s.step e).status.state = .authFailed ∧
    (s.step e).timer = .armed backoffRejectedS ∧ s.delays e = [backoffRejectedS])
    ⟨fun ⟨hs, ht, hd⟩ => ⟨hs, ht, hd⟩, fun h => ⟨h.state, h.timer, h.delay⟩⟩

instance (s : Uplink × Nat) (e : Event) : Decidable (SlowFromThird s e) :=
  inferInstanceAs (Decidable (_ → _ → _))

instance (s : Uplink × Nat) (e : Event) : Decidable (CountedInByte s e) :=
  inferInstanceAs (Decidable (_ → _ → _))

/-- What carries the run: the timer exists, and the byte is the count modulo 256. -/
structure Counting (s : Uplink × Nat) : Prop where
  timer : s.1.timer ≠ .absent
  count : s.1.authFails.toNat = s.2 % 256

section

variable {s : Uplink} {e : Event} {n : Nat} {reason : Option (BitVec 8)} {cfg : WanCfg}
  {up naptOk netifReady : Bool} {dnsIp : Ip} {seconds : Nat}

/-! ## The count -/

@[simp] theorem scheduleRetry_authFails : (s.scheduleRetry seconds).authFails = s.authFails := by
  unfold Uplink.scheduleRetry; split <;> rfl

@[simp] theorem naptEnsure_authFails : (s.naptEnsure naptOk).authFails = s.authFails := by
  unfold Uplink.naptEnsure; split <;> rfl

theorem onStaPortStarted_authFails : (onStaPortStarted s netifReady).1.authFails = s.authFails := by
  rcases onStaPortStarted_cases s netifReady with heq | heq
  · rw [heq]
  · rw [heq]

theorem onGotIp_authFails {evt : Option GotIp} : (onGotIp s evt).1.authFails = s.authFails := by
  cases evt with
  | none => rfl
  | some evt =>
    cases hover : overlapsLan evt.ip evt.netmask with
    | true => rw [onGotIp_conflict hover, scheduleRetry_authFails]; rfl
    | false => rw [onGotIp_apart hover, naptEnsure_authFails]; rfl

/-- A refusal counts, whatever delay it leads to. -/
theorem judgeDisconnect_refused {r : BitVec 8} (h : refusesPassword r) :
    judgeDisconnect s r =
      if authFailsBeforeSlow ≤ (s.authFails + 1).toNat then
        (.authFailed, s.authFails + 1, backoffRejectedS)
      else (.connecting, s.authFails + 1, s.backoffS) :=
  if_pos h

theorem judgeDisconnect_refused_count {r : BitVec 8} (h : refusesPassword r) :
    (judgeDisconnect s r).2.1 = s.authFails + 1 := by
  rw [judgeDisconnect_refused h]
  split <;> rfl

theorem judgeDisconnect_other_count {r : BitVec 8} (h : ¬ refusesPassword r) :
    (judgeDisconnect s r).2.1 = s.authFails := by
  have hother : judgeDisconnect s r =
      if r = reasonNoApFound then (.noAp, s.authFails, s.backoffS)
      else (if s.status.state ≠ .connecting then .down else .connecting, s.authFails,
        s.backoffS) := if_neg h
  rw [hother]
  split <;> rfl

/-- Outside a conflict a disconnection is judged, and its retry scheduled. -/
theorem onStaDisconnected_judged (reason : Option (BitVec 8)) (h : s.status.state ≠ .subnetConflict) :
    (onStaDisconnected s reason).1.authFails = (judgeDisconnect s (reason.getD 0)).2.1 ∧
      (onStaDisconnected s reason).1.status.state = (judgeDisconnect s (reason.getD 0)).1 ∧
      (onStaDisconnected s reason).2 =
        [.clockDown, .retryIn (judgeDisconnect s (reason.getD 0)).2.2] := by
  unfold onStaDisconnected
  dsimp only
  split
  · rename_i hconf
    exact absurd hconf h
  · exact ⟨scheduleRetry_authFails, scheduleRetry_state, rfl⟩

theorem onStaDisconnected_timer (reason : Option (BitVec 8)) (ht : s.timer ≠ .absent)
    (h : s.status.state ≠ .subnetConflict) :
    (onStaDisconnected s reason).1.timer = .armed (judgeDisconnect s (reason.getD 0)).2.2 := by
  unfold onStaDisconnected
  dsimp only
  split
  · rename_i hconf
    exact absurd hconf h
  · exact scheduleRetry_armed ht

theorem onStaDisconnected_conflict_authFails (h : s.status.state = .subnetConflict) :
    (onStaDisconnected s reason).1.authFails = s.authFails := by
  unfold onStaDisconnected
  dsimp only
  split
  · rfl
  · rename_i hother
    exact absurd h hother

/-- The byte after a step: an association clears it, a refusal adds one to it, and nothing
    else touches it. -/
theorem Uplink.step_authFails (s : Uplink) (e : Event) :
    (s.step e).authFails =
      match e with
      | .staConnected _ _ => 0
      | e => if s.Refused e then s.authFails + 1 else s.authFails := by
  cases e with
  | staStarted netifReady => exact onStaPortStarted_authFails
  | netifUp ofBridge naptOk =>
    show (if ofBridge then s.naptEnsure naptOk else s).authFails = s.authFails
    split
    · exact naptEnsure_authFails
    · rfl
  | staConnected channel configured => rfl
  | gotIp evt => exact onGotIp_authFails
  | lostIp => rfl
  | staDisconnected reason =>
    show (onStaDisconnected s reason).1.authFails = _
    dsimp only
    by_cases hconf : s.status.state = .subnetConflict
    · rw [if_neg fun hr => hr.2 hconf]
      exact onStaDisconnected_conflict_authFails hconf
    · rw [(onStaDisconnected_judged reason hconf).1]
      by_cases hr : refusesPassword (reason.getD 0)
      · rw [if_pos ⟨hr, hconf⟩]
        exact judgeDisconnect_refused_count hr
      · rw [if_neg fun h => hr h.1]
        exact judgeDisconnect_other_count hr
  | retryExpired => rfl
  | cfgSaved cfg => rfl
  | portsChanged => rfl

/-- The byte goes round with the count. -/
theorem succ_mod_byte {b : BitVec 8} (h : b.toNat = n % 256) :
    (b + 1).toNat = (n + 1) % 256 := by
  have hone : (1 : BitVec 8).toNat = 1 := rfl
  rw [BitVec.toNat_add, hone, h]
  exact Nat.mod_add_mod n 256 1

theorem Counting.step (h : Counting (s, n)) : Counting (s.step e, refusals s e n) := by
  refine ⟨Uplink.step_timer h.timer, ?_⟩
  show (s.step e).authFails.toNat = refusals s e n % 256
  rw [Uplink.step_authFails]
  cases e with
  | staConnected channel configured => rfl
  | staDisconnected reason =>
    show (if _ then _ else _ : BitVec 8).toNat = (if _ then _ else _) % 256
    split
    · exact succ_mod_byte h.count
    · exact h.count
  | staStarted _ | netifUp _ _ | gotIp _ | lostIp | retryExpired | cfgSaved _ | portsChanged =>
    exact h.count

/-! ## One refusal -/

/-- A refusal is retried slowly exactly if the byte says it is the third or later. -/
theorem retriesSlowly_iff (ht : s.timer ≠ .absent) (hr : s.Refused e) :
    s.RetriesSlowly e ↔ authFailsBeforeSlow ≤ (s.authFails + 1).toNat := by
  cases e with
  | staDisconnected reason =>
    obtain ⟨hreason, hconf⟩ := hr
    obtain ⟨-, hstate, heffects⟩ := onStaDisconnected_judged reason hconf
    have htimer := onStaDisconnected_timer reason ht hconf
    rw [judgeDisconnect_refused hreason] at hstate heffects htimer
    constructor
    · intro hslow
      by_contra hfew
      rw [if_neg hfew] at hstate
      exact WanState.noConfusion (hstate.symm.trans hslow.state)
    · intro hmany
      rw [if_pos hmany] at hstate heffects htimer
      refine ⟨hstate, htimer, ?_⟩
      show (onStaDisconnected s reason).2.filterMap retryDelay = _
      rw [heffects]
      rfl
  | _ => exact hr.elim

theorem Counting.slowFromThird_iff (h : Counting (s, n)) :
    SlowFromThird (s, n) e ↔ CountedInByte (s, n) e := by
  refine imp_congr_right fun hr => imp_congr_right fun _ => ?_
  show s.RetriesSlowly e ↔ _ ≤ (n + 1) % 256
  rw [retriesSlowly_iff h.timer hr, succ_mod_byte h.count]

theorem wanInit_counting (h : cfg.enabled = true) : Counting (wanInit cfg, 0) := by
  have hidle := wanInit_timer h
  refine ⟨fun habs => RetryTimer.noConfusion (hidle.symm.trans habs), ?_⟩
  have hzero : (wanInit cfg).authFails = 0 := by
    unfold wanInit
    dsimp only
    rw [if_pos h]
    rfl
  rw [hzero]
  rfl

/-- **A refusal is retried slowly from the third on until the byte comes round.** In the runs
    where no third or later refusal has a number below 3 modulo 256, and in no others, each of
    them is followed by the state "refused" and a retry in 300 s. -/
theorem Uplink.refused_slow_iff (h : cfg.enabled = true) (es : List Event) :
    Along (watch Uplink.step refusals) SlowFromThird (wanInit cfg, 0) es ↔
      Along (watch Uplink.step refusals) CountedInByte (wanInit cfg, 0) es := by
  exact along_true.iff_of_invariant (wanInit_counting h) fun s e hI _ =>
    ⟨hI.slowFromThird_iff, fun _ => hI.step⟩

/-- A station that starts and is refused `n` times, each retry expiring in between. -/
def refusedTimes (n : Nat) : List Event :=
  .staStarted true :: (List.replicate n
    [.staDisconnected (some reasonAuthFail), .retryExpired]).flatten

theorem refused_slow_fails :
    ¬ ∀ (cfg : WanCfg) (es : List Event), cfg.enabled = true →
      Along (watch Uplink.step refusals) SlowFromThird (wanInit cfg, 0) es := by
  intro h
  exact absurd (h upstreamCfg (refusedTimes 256) rfl) (by decide +kernel)

theorem refused_slow_first :
    Along (watch Uplink.step refusals) SlowFromThird (wanInit upstreamCfg, 0)
      (refusedTimes 5) :=
  (Uplink.refused_slow_iff rfl _).mpr (by decide)

end

end Wan
end Wt32Router
