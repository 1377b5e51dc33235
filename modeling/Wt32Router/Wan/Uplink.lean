import Wt32Router.Lib.Runs
import Wt32Router.Lib.Nets
import Wt32Router.Wan.Rules

/-!
# The life of the uplink

`main/wan.c` is driven by events: the station associates, gets an address, loses it,
disassociates, and a one-shot timer asks for another try. The handlers all run in the event
task, one at a time, and each is a function on `Uplink`, which holds the file's statics and
the configuration they are read against. What a handler asks of other components (the radio,
the timer, the SNTP client) is listed beside the new state, as `Effect`s.

`tx_allowed`, `tx_blocked` and their two mirrors count on the datapath, and are not here.
Memory that cannot be had in `wan_init`, and the errors `ESP_ERROR_CHECK` aborts on, are left
out: the machine starts where `wan_init` has returned `ESP_OK`.
-/

namespace Wt32Router
namespace Wan

/-! ## Constants -/

/-- `LAN_IP`, 192.168.5.1. -/
def lanIp : Ip := 0xC0A80501

def lanMask : Ip := 0xFFFFFF00

def backoffMinS : Nat := 1
def backoffMaxS : Nat := 60
def backoffRejectedS : Nat := 300
def authFailsBeforeSlow : Nat := 3

/-- `wifi_err_reason_t`, as far as `on_sta_disconnected` tells reasons apart. -/
def reason4wayHandshakeTimeout : BitVec 8 := 15
def reasonNoApFound : BitVec 8 := 201
def reasonAuthFail : BitVec 8 := 202
def reasonHandshakeTimeout : BitVec 8 := 204

/-! ## State -/

/-- `wan_state_t`. -/
inductive WanState where
  | disabled
  | connecting
  | up
  | down
  | noAp
  | authFailed
  | subnetConflict
deriving DecidableEq, Repr

/-- `wan_status_t`. -/
structure WanStatus where
  state : WanState := .disabled
  ip : Ip := 0
  netmask : Ip := 0
  gw : Ip := 0
  dns : Ip := 0
  apChannel : BitVec 8 := 0
  apChannelConfigured : BitVec 8 := 0
  rssi : Int := 0
  connects : BitVec 32 := 0
  disconnects : BitVec 32 := 0
  lastReason : BitVec 16 := 0
  retryInS : Nat := 0
  naptOn : Bool := false
deriving DecidableEq

/-- `s_retry_timer`: not created, or created and counting so many seconds or not. -/
inductive RetryTimer where
  | absent
  | idle
  | armed (seconds : Nat)
deriving DecidableEq, Repr

def RetryTimer.isArmed : RetryTimer → Bool
  | .armed _ => true
  | _ => false

/-- The statics of `wan.c`, and `wan_cfg.c`'s configuration. -/
structure Uplink where
  status : WanStatus
  rules : RuleStore
  cfg : WanCfg
  timer : RetryTimer
  backoffS : Nat
  authFails : BitVec 8
  naptOn : Bool
  /-- `s_sta_orig_input` is set: the wrappers are in place -/
  hooked : Bool

/-- What a handler asks of others. -/
inductive Effect where
  | wifiConnect
  | wifiDisconnect
  | clockUp
  | clockDown
  /-- the argument of a call of `schedule_retry` -/
  | retryIn (seconds : Nat)
deriving DecidableEq, Repr

/-- `ip_event_got_ip_t`, and what the handler then asks the netif and the radio. -/
structure GotIp where
  ip : Ip
  netmask : Ip
  gw : Ip := 0
  dns : Option Ip := none
  rssi : Option Int := none
  naptOk : Bool := true
deriving DecidableEq

inductive Event where
  /-- `WIFI_EVENT_STA_START`, with the netif's implementation there or not yet -/
  | staStarted (netifReady : Bool)
  /-- `IP_EVENT_NETIF_UP` of the bridge or another netif -/
  | netifUp (ofBridge naptOk : Bool)
  | staConnected (channel : Option (BitVec 8)) (configured : BitVec 8)
  | gotIp (evt : Option GotIp)
  | lostIp
  | staDisconnected (reason : Option (BitVec 8))
  | retryExpired
  /-- `wan_cfg_save` -/
  | cfgSaved (cfg : WanCfg)
  | portsChanged

/-! ## Handlers -/

/-- `publish_rules`. -/
def Uplink.publish (s : Uplink) (up : Bool) (dnsIp : Ip) : Uplink :=
  { s with rules := publishRules s.rules s.cfg up dnsIp }

def Uplink.scheduleRetry (s : Uplink) (seconds : Nat) : Uplink :=
  match s.timer with
  | .absent => s
  | _ => { s with timer := .armed seconds, status := { s.status with retryInS := seconds } }

def Uplink.naptEnsure (s : Uplink) (naptOk : Bool) : Uplink :=
  if !s.naptOn && naptOk then
    { s with naptOn := true, status := { s.status with naptOn := true } }
  else s

def onStaPortStarted (s : Uplink) (netifReady : Bool) : Uplink × List Effect :=
  if s.hooked || !netifReady then (s, [])
  else ({ s with hooked := true, status := { s.status with state := .connecting } },
    [.wifiConnect])

def retryTimerCb (s : Uplink) : Uplink × List Effect :=
  ({ s with timer := .idle, status := { s.status with retryInS := 0 } }, [.wifiConnect])

def onStaConnected (s : Uplink) (channel : Option (BitVec 8)) (configured : BitVec 8) :
    Uplink × List Effect :=
  ({ s with
      authFails := 0
      status := { s.status with
        connects := s.status.connects + 1
        apChannel := channel.getD s.status.apChannel
        apChannelConfigured := configured } }, [])

/-- The test of `on_got_ip`: the network overlaps the LAN. -/
def overlapsLan (ip netmask : Ip) : Bool := (ip ^^^ lanIp) &&& (netmask &&& lanMask) == 0

def onGotIp (s : Uplink) (evt : Option GotIp) : Uplink × List Effect :=
  match evt with
  | none => (s, [])
  | some evt =>
    if overlapsLan evt.ip evt.netmask then
      let s := { s with status := { s.status with state := .subnetConflict, ip := 0, dns := 0 } }
      ((s.publish false 0).scheduleRetry backoffRejectedS,
        [.clockDown, .wifiDisconnect, .retryIn backoffRejectedS])
    else
      let dnsIp := evt.dns.getD 0
      let s := { s with
        backoffS := backoffMinS
        status := { s.status with
          state := .up, ip := evt.ip, netmask := evt.netmask, gw := evt.gw, dns := dnsIp
          rssi := evt.rssi.getD s.status.rssi, retryInS := 0 } }
      ((s.publish true dnsIp).naptEnsure evt.naptOk, [.clockUp])

def onLostIp (s : Uplink) : Uplink × List Effect :=
  let s := { s with
    status := { s.status with
      state := if s.status.state = WanState.up then .down else s.status.state, ip := 0, dns := 0 } }
  (s.publish false 0, [.clockDown])

/-- What `on_sta_disconnected` makes of a reason outside a conflict: the new state, the count
    of refusals, and the delay. -/
def judgeDisconnect (s : Uplink) (reason : BitVec 8) : WanState × BitVec 8 × Nat :=
  if reason = reasonAuthFail ∨ reason = reason4wayHandshakeTimeout ∨
      reason = reasonHandshakeTimeout then
    if authFailsBeforeSlow ≤ (s.authFails + 1).toNat then
      (.authFailed, s.authFails + 1, backoffRejectedS)
    else (.connecting, s.authFails + 1, s.backoffS)
  else if reason = reasonNoApFound then (.noAp, s.authFails, s.backoffS)
  else (if s.status.state ≠ .connecting then .down else .connecting, s.authFails, s.backoffS)

def onStaDisconnected (s : Uplink) (reason : Option (BitVec 8)) : Uplink × List Effect :=
  let reason := reason.getD 0
  let s := { s with
    status := { s.status with
      disconnects := s.status.disconnects + 1, lastReason := reason.setWidth 16
      ip := 0, dns := 0 } }
  let s := s.publish false 0
  -- a conflict has scheduled its own retry when it was found, and none is scheduled here
  if s.status.state = .subnetConflict then (s, [.clockDown])
  else
    let (state, authFails, delay) := judgeDisconnect s reason
    let s := { s with
      authFails := authFails, status := { s.status with state := state }
      backoffS := if delay = s.backoffS then min (s.backoffS * 2) backoffMaxS else s.backoffS }
    (s.scheduleRetry delay, [.clockDown, .retryIn delay])

def wanPortsChanged (s : Uplink) : Uplink := s.publish s.rules.live.up s.rules.live.dnsIp

/-! ## The machine -/

/-- The statics as the program starts. -/
def Uplink.cold (cfg : WanCfg) : Uplink where
  status := {}
  rules := .start
  cfg := cfg
  timer := .absent
  backoffS := backoffMinS
  authFails := 0
  naptOn := false
  hooked := false

def wanInit (cfg : WanCfg) : Uplink :=
  let s := Uplink.cold cfg
  if cfg.enabled then
    { s.publish false 0 with timer := .idle, status := { s.status with state := .connecting } }
  else s

/-- What an event does, and what it asks of others. -/
def Uplink.handle (s : Uplink) : Event → Uplink × List Effect
  | .staStarted netifReady => onStaPortStarted s netifReady
  | .netifUp ofBridge naptOk => (if ofBridge then s.naptEnsure naptOk else s, [])
  | .staConnected channel configured => onStaConnected s channel configured
  | .gotIp evt => onGotIp s evt
  | .lostIp => onLostIp s
  | .staDisconnected reason => onStaDisconnected s reason
  | .retryExpired => retryTimerCb s
  | .cfgSaved cfg => ({ s with cfg := cfg }, [])
  | .portsChanged => (wanPortsChanged s, [])

def Uplink.step (s : Uplink) (e : Event) : Uplink := (s.handle e).1

def retryDelay : Effect → Option Nat
  | .retryIn seconds => some seconds
  | _ => none

def Uplink.delays (s : Uplink) (e : Event) : List Nat := (s.handle e).2.filterMap retryDelay

def Event.isDisconnect : Event → Bool
  | .staDisconnected _ => true
  | _ => false

section

variable {s : Uplink} {e : Event} {up naptOk : Bool} {dnsIp ip mask : Ip} {seconds : Nat}
  {reason : Option (BitVec 8)} {cfg : WanCfg} {evt : GotIp}

/-! ## What the pieces of a handler leave -/

@[simp] theorem publish_status : (s.publish up dnsIp).status = s.status := rfl
@[simp] theorem publish_timer : (s.publish up dnsIp).timer = s.timer := rfl
@[simp] theorem publish_backoffS : (s.publish up dnsIp).backoffS = s.backoffS := rfl
@[simp] theorem publish_live :
    (s.publish up dnsIp).rules.live = fillRules s.cfg up dnsIp := publishRules_live _ _ _ _

@[simp] theorem scheduleRetry_rules : (s.scheduleRetry seconds).rules = s.rules := by
  unfold Uplink.scheduleRetry; split <;> rfl

@[simp] theorem scheduleRetry_backoffS : (s.scheduleRetry seconds).backoffS = s.backoffS := by
  unfold Uplink.scheduleRetry; split <;> rfl

@[simp] theorem scheduleRetry_state :
    (s.scheduleRetry seconds).status.state = s.status.state := by
  unfold Uplink.scheduleRetry; split <;> rfl

@[simp] theorem scheduleRetry_ip : (s.scheduleRetry seconds).status.ip = s.status.ip := by
  unfold Uplink.scheduleRetry; split <;> rfl

@[simp] theorem scheduleRetry_netmask :
    (s.scheduleRetry seconds).status.netmask = s.status.netmask := by
  unfold Uplink.scheduleRetry; split <;> rfl

@[simp] theorem naptEnsure_rules : (s.naptEnsure naptOk).rules = s.rules := by
  unfold Uplink.naptEnsure; split <;> rfl

@[simp] theorem naptEnsure_timer : (s.naptEnsure naptOk).timer = s.timer := by
  unfold Uplink.naptEnsure; split <;> rfl

@[simp] theorem naptEnsure_backoffS : (s.naptEnsure naptOk).backoffS = s.backoffS := by
  unfold Uplink.naptEnsure; split <;> rfl

@[simp] theorem naptEnsure_state : (s.naptEnsure naptOk).status.state = s.status.state := by
  unfold Uplink.naptEnsure; split <;> rfl

@[simp] theorem naptEnsure_ip : (s.naptEnsure naptOk).status.ip = s.status.ip := by
  unfold Uplink.naptEnsure; split <;> rfl

@[simp] theorem naptEnsure_netmask :
    (s.naptEnsure naptOk).status.netmask = s.status.netmask := by
  unfold Uplink.naptEnsure; split <;> rfl

theorem scheduleRetry_armed (h : s.timer ≠ .absent) :
    (s.scheduleRetry seconds).timer = .armed seconds := by
  unfold Uplink.scheduleRetry
  split
  · rename_i ht
    exact absurd ht h
  · rfl

theorem scheduleRetry_present (h : s.timer ≠ .absent) :
    (s.scheduleRetry seconds).timer ≠ .absent := by
  rw [scheduleRetry_armed h]
  exact RetryTimer.noConfusion

/-! ## What a handler does, by the branch it takes -/

/-- The states that a disconnection leads to outside a conflict, and the delay of each. -/
theorem judgeDisconnect_cases {reason : BitVec 8} :
    (judgeDisconnect s reason).1 = .authFailed ∧
        (judgeDisconnect s reason).2.2 = backoffRejectedS ∨
      ((judgeDisconnect s reason).1 = .connecting ∨ (judgeDisconnect s reason).1 = .noAp ∨
        (judgeDisconnect s reason).1 = .down) ∧ (judgeDisconnect s reason).2.2 = s.backoffS := by
  unfold judgeDisconnect
  split
  · split
    · exact .inl ⟨rfl, rfl⟩
    · exact .inr ⟨.inl rfl, rfl⟩
  · split
    · exact .inr ⟨.inr (.inl rfl), rfl⟩
    · refine .inr ⟨?_, rfl⟩
      dsimp only
      split
      · exact .inr (.inr rfl)
      · exact .inl rfl

/-- None of them is the state of a conflict, or that of a connection. -/
theorem judgeDisconnect_state {reason : BitVec 8} :
    (judgeDisconnect s reason).1 ≠ .subnetConflict ∧ (judgeDisconnect s reason).1 ≠ .up := by
  rcases judgeDisconnect_cases with ⟨h, -⟩ | ⟨h | h | h, -⟩ <;>
    exact h ▸ ⟨WanState.noConfusion, WanState.noConfusion⟩

theorem onStaPortStarted_cases (s : Uplink) (netifReady : Bool) :
    onStaPortStarted s netifReady = (s, []) ∨ onStaPortStarted s netifReady =
      ({ s with hooked := true, status := { s.status with state := .connecting } },
        [.wifiConnect]) := by
  unfold onStaPortStarted
  split
  · exact .inl rfl
  · exact .inr rfl

/-- The wrappers go in once, and only over a netif. -/
theorem onStaPortStarted_again {netifReady : Bool} (h : s.hooked = true ∨ netifReady = false) :
    onStaPortStarted s netifReady = (s, []) := by
  unfold onStaPortStarted
  rcases h with hhook | hready
  · rw [hhook, Bool.true_or, if_pos rfl]
  · rw [hready, Bool.not_false, Bool.or_true, if_pos rfl]

theorem onStaPortStarted_first (h : s.hooked = false) :
    onStaPortStarted s true =
      ({ s with hooked := true, status := { s.status with state := .connecting } },
        [.wifiConnect]) := by
  unfold onStaPortStarted
  rw [h, Bool.not_true, Bool.or_false, if_neg Bool.false_ne_true]

theorem onGotIp_conflict (h : overlapsLan evt.ip evt.netmask = true) :
    onGotIp s (some evt) =
      ((Uplink.publish { s with
          status := { s.status with state := .subnetConflict, ip := 0, dns := 0 } } false
          0).scheduleRetry backoffRejectedS,
        [.clockDown, .wifiDisconnect, .retryIn backoffRejectedS]) := by
  unfold onGotIp
  dsimp only
  rw [if_pos h]

theorem onGotIp_apart (h : overlapsLan evt.ip evt.netmask = false) :
    onGotIp s (some evt) =
      ((Uplink.publish { s with
          backoffS := backoffMinS
          status := { s.status with
            state := .up, ip := evt.ip, netmask := evt.netmask, gw := evt.gw
            dns := evt.dns.getD 0, rssi := evt.rssi.getD s.status.rssi, retryInS := 0 } } true
          (evt.dns.getD 0)).naptEnsure evt.naptOk, [.clockUp]) := by
  unfold onGotIp
  dsimp only
  rw [h, if_neg Bool.false_ne_true]

theorem overlapsLan_iff : overlapsLan ip mask = true ↔
    ∃ a, Lib.InNet ip mask a ∧ Lib.InNet lanIp lanMask a := by
  rw [Lib.share_address_iff, overlapsLan, beq_iff_eq]

theorem Uplink.step_timer (h : s.timer ≠ .absent) : (s.step e).timer ≠ .absent := by
  cases e with
  | staStarted netifReady =>
    show (onStaPortStarted s netifReady).1.timer ≠ .absent
    rcases onStaPortStarted_cases s netifReady with heq | heq
    · rw [heq]; exact h
    · rw [heq]; exact h
  | netifUp ofBridge naptOk =>
    show (if ofBridge then s.naptEnsure naptOk else s).timer ≠ .absent
    split
    · rw [naptEnsure_timer]; exact h
    · exact h
  | staConnected channel configured => exact h
  | gotIp evt =>
    show (onGotIp s evt).1.timer ≠ .absent
    cases evt with
    | none => exact h
    | some evt =>
      cases hover : overlapsLan evt.ip evt.netmask with
      | true => rw [onGotIp_conflict hover]; exact scheduleRetry_present h
      | false => rw [onGotIp_apart hover, naptEnsure_timer]; exact h
  | lostIp => exact h
  | staDisconnected reason =>
    show (onStaDisconnected s reason).1.timer ≠ .absent
    unfold onStaDisconnected
    dsimp only
    split
    · exact h
    · exact scheduleRetry_present h
  | retryExpired => exact RetryTimer.noConfusion
  | cfgSaved cfg => exact h
  | portsChanged => exact h

theorem wanInit_timer (h : cfg.enabled = true) : (wanInit cfg).timer = .idle := by
  unfold wanInit
  dsimp only
  rw [if_pos h]

end

end Wan
end Wt32Router
