import Wt32Router.Clock.Device
import Wt32Router.Wan.Tracking

/-!
# The NTP client and the WAN

`main/wan.c` starts the client of `main/clock_time.c` when the uplink has an address and stops it
when it has lost one; each handler opens or closes the egress filter first. A client that asks while
the filter is closed is refused by this device itself, and each refusal lands on a counter that
is shown as evidence of a misconfigured port list.

> **`client_follows_filter`**: in every run of the WAN's handlers and of the clock's, through
> resets too, the client runs only while the filter is open, and if it can be started it runs
> exactly then; and only then it is said that no server has answered.
-/

namespace Wt32Router
namespace Clock

open Lib (Along along_events)
open Wan (Effect GotIp Uplink wanInit)

/-- What the WAN asks of the clock. -/
def Clocked.effect (ok : Bool) (s : Clocked) : Effect → Clocked
  | .clockUp => s.wanUp ok
  | .clockDown => s.wanDown
  | _ => s

/-- The statics of the two modules. -/
structure Net where
  uplink : Uplink
  clock : Clocked

inductive NetEvent where
  /-- a handler of `wan.c`; a client that is to be started starts or not -/
  | wan (e : Wan.Event) (ok : Bool)
  | clock (e : Event)

/-- The boot ends with this event. -/
def Event.ends : Event → Bool
  | .cutInit _ _ | .cutSync _ _ _ | .warmReset _ | .powerCycle _ _ _ _ => true
  | _ => false

def Net.step (n : Net) : NetEvent → Net
  | .wan e ok => ⟨(n.uplink.handle e).1, (n.uplink.handle e).2.foldl (Clocked.effect ok) n.clock⟩
  | .clock e => ⟨if e.ends then wanInit n.uplink.cfg else n.uplink, n.clock.step e⟩

/-- The client is started and stopped by `wan.c` only. -/
def NetEvent.proper : NetEvent → Bool
  | .clock (.wanUp _) | .clock .wanDown => false
  | _ => true

/-- The client can be started. -/
def NetEvent.starts : NetEvent → Bool
  | .wan _ ok => ok
  | .clock _ => true

/-- The client runs only while the filter is open. -/
def Net.Follows (n : Net) : Prop := n.clock.started = true → n.uplink.rules.live.up = true

/-- And it runs then. -/
def Net.Exactly (n : Net) : Prop := n.clock.started = n.uplink.rules.live.up

section

variable {n : Net} {e : NetEvent}

theorem wanUp_started (c : Clocked) (ok : Bool) : (c.wanUp ok).started = (c.started || ok) := by
  unfold Clocked.wanUp
  cases hstarted : c.started <;> cases ok <;> simp [hstarted]

/-- **A handler leaves both the filter and the client, or opens the one and starts the other, or
    closes the one and stops the other.** -/
theorem handle_client (s : Uplink) (c : Clocked) (e : Wan.Event) (ok : Bool) :
    ((s.handle e).1.rules.live.up = s.rules.live.up ∧
        ((s.handle e).2.foldl (Clocked.effect ok) c).started = c.started) ∨
      ((s.handle e).1.rules.live.up = true ∧
        ((s.handle e).2.foldl (Clocked.effect ok) c).started = (c.started || ok)) ∨
      ((s.handle e).1.rules.live.up = false ∧
        ((s.handle e).2.foldl (Clocked.effect ok) c).started = false) := by
  cases e with
  | staStarted netifReady =>
    unfold Uplink.handle Wan.onStaPortStarted
    dsimp only
    split <;> exact .inl ⟨rfl, rfl⟩
  | netifUp ofBridge naptOk =>
    refine .inl ⟨?_, rfl⟩
    unfold Uplink.handle Uplink.naptEnsure
    dsimp only
    split
    · split <;> rfl
    · rfl
  | staConnected channel configured => exact .inl ⟨rfl, rfl⟩
  | gotIp evt =>
    cases evt with
    | none => exact .inl ⟨rfl, rfl⟩
    | some evt =>
      unfold Uplink.handle Wan.onGotIp
      dsimp only
      split
      · refine .inr (.inr ⟨?_, rfl⟩)
        unfold Uplink.scheduleRetry
        dsimp only
        split <;> exact Wan.publish_up
      · refine .inr (.inl ⟨?_, wanUp_started c ok⟩)
        unfold Uplink.naptEnsure
        dsimp only
        split <;> exact Wan.publish_up
  | lostIp => exact .inr (.inr ⟨Wan.publish_up, rfl⟩)
  | staDisconnected reason =>
    unfold Uplink.handle Wan.onStaDisconnected
    dsimp only
    split
    · exact .inr (.inr ⟨Wan.publish_up, rfl⟩)
    · refine .inr (.inr ⟨?_, rfl⟩)
      unfold Uplink.scheduleRetry
      dsimp only
      split <;> exact Wan.publish_up
  | retryExpired => exact .inl ⟨rfl, rfl⟩
  | cfgSaved cfg => exact .inl ⟨rfl, rfl⟩
  | portsChanged => exact .inl ⟨Wan.publish_up, rfl⟩

/-- The clock's own calls leave the client, or the boot ends and it is gone. -/
theorem clock_client (c : Clocked) {e : Event} (hproper : NetEvent.proper (.clock e) = true) :
    (c.step e).started = if e.ends then false else c.started := by
  cases e with
  | clockTimeTick res =>
    show (c.tick res).started = c.started
    unfold Clocked.tick
    dsimp only
    split <;> rfl
  | wanUp ok => exact absurd hproper Bool.false_ne_true
  | wanDown => exact absurd hproper Bool.false_ne_true
  | _ => rfl

theorem wanInit_closed (cfg : Wan.WanCfg) : (wanInit cfg).rules.live.up = false := by
  unfold wanInit
  dsimp only
  split
  · exact Wan.publish_up
  · rfl

theorem Net.Follows.step (h : n.Follows) (hproper : e.proper = true) : (n.step e).Follows := by
  intro hstarted
  cases e with
  | wan e ok =>
    rcases handle_client n.uplink n.clock e ok with ⟨hup, hc⟩ | ⟨hup, -⟩ | ⟨-, hc⟩
    · exact hup.trans (h (hc.symm.trans hstarted))
    · exact hup
    · exact absurd (hc.symm.trans hstarted) Bool.false_ne_true
  | clock e =>
    have hc := (clock_client n.clock hproper).symm.trans hstarted
    cases hends : e.ends with
    | true => simp [hends] at hc
    | false =>
      rw [hends, if_neg Bool.false_ne_true] at hc
      show (if e.ends then wanInit n.uplink.cfg else n.uplink).rules.live.up = true
      rw [hends, if_neg Bool.false_ne_true]
      exact h hc

theorem Net.Exactly.step (h : n.Exactly) (hproper : e.proper = true) (hstarts : e.starts = true) :
    (n.step e).Exactly := by
  cases e with
  | wan e ok =>
    obtain rfl : ok = true := hstarts
    rcases handle_client n.uplink n.clock e true with ⟨hup, hc⟩ | ⟨hup, hc⟩ | ⟨hup, hc⟩
    · exact hc.trans (h.trans hup.symm)
    · exact hc.trans ((Bool.or_true _).trans hup.symm)
    · exact hc.trans hup.symm
  | clock e =>
    have hc := clock_client n.clock hproper
    show (n.clock.step e).started =
      (if e.ends then wanInit n.uplink.cfg else n.uplink).rules.live.up
    rw [hc]
    cases e.ends with
    | true => exact (wanInit_closed _).symm
    | false => exact h

/-- **The client follows the filter.** -/
theorem client_follows_filter (cfg : Wan.WanCfg) (rtc : Reset.Rtc) (clk : Rtc) (wall : Int)
    (es : List NetEvent) (hes : ∀ e ∈ es, e.proper = true) :
    let n := es.foldl Net.step ⟨wanInit cfg, Clocked.blank rtc clk wall⟩
    (n.clock.started = true → n.uplink.rules.live.up = true) ∧
      (n.clock.unanswered = true → n.uplink.rules.live.up = true) ∧
      ((∀ e ∈ es, e.starts = true) → n.clock.started = n.uplink.rules.live.up) := by
  intro n
  have hfollows : n.Follows := (along_events.mpr hes).invariant (I := Net.Follows)
    (fun h => absurd h Bool.false_ne_true) fun _ _ hI hok => hI.step hok
  refine ⟨hfollows, fun h => hfollows ?_, fun hstarts => ?_⟩
  · unfold Clocked.unanswered at h
    simp only [Bool.and_eq_true] at h
    exact h.1.1.1
  · have hboth : ∀ e ∈ es, e.proper = true ∧ e.starts = true := fun e he =>
      ⟨hes e he, hstarts e he⟩
    exact (along_events.mpr hboth).invariant (I := Net.Exactly) (wanInit_closed cfg).symm
      fun _ _ hI hok => hI.step hok.1 hok.2

/-- An uplink, its loss, another, and a minute and a half without an answer. -/
def unansweredMinute : List NetEvent :=
  [.clock .clockTimeInit, .wan (.gotIp (some ⟨0x0a000002, 0xffffff00, 0, none, none, true⟩)) true,
    .wan .lostIp true, .clock (.pass 5000000),
    .wan (.gotIp (some ⟨0x0a000003, 0xffffff00, 0, none, none, true⟩)) true,
    .clock (.pass 90000001)]

theorem client_follows_filter_unanswered :
    let cfg : Wan.WanCfg := ⟨true, [], [], fun _ => {}, 0⟩
    let n := unansweredMinute.foldl Net.step
      ⟨wanInit cfg, Clocked.blank ⟨0, 0, 0, 0, 0, 0, 0⟩ ⟨0, 0, 0, 0, 0, 0, 0⟩ 0⟩
    n.clock.unanswered = true ∧ n.uplink.rules.live.up = true := by
  intro cfg n
  have hend : n.clock.unanswered = true := by decide +kernel
  exact ⟨hend, (client_follows_filter cfg ⟨0, 0, 0, 0, 0, 0, 0⟩ ⟨0, 0, 0, 0, 0, 0, 0⟩ 0
    unansweredMinute (by decide +kernel)).2.1 hend⟩

end

end Clock
end Wt32Router
