import Mathlib.Data.Fin.Basic
import Mathlib.Logic.Function.Basic

/-!
# The rule sets of the WAN filter

`main/wan.c` keeps two rule sets, `s_rules[2]`, and a pointer to the live one, `s_active`. A
publish fills the one that is not live and then moves the pointer (`publishRules`); the two
wrappers on the datapath take the pointer once and read through it with no lock.

What a publish does to the memory a wrapper is reading meanwhile is `Wan/Snapshot.lean`. Here
a publish is one step, as it is to other publishers.

Addresses are numbers, as in the DHCP server: an `Ip` is `lwip_ntohl` of the code's word.
-/

namespace Wt32Router
namespace Wan

abbrev Ip := BitVec 32

/-- `WAN_CFG_MAX_PORTS`. -/
def maxPorts : Nat := 12

/-- `wan_proto_t`. -/
def wanProtoTcp : UInt8 := 0
def wanProtoUdp : UInt8 := 1

/-- `wan_port_rule_t`. -/
structure PortRule where
  port : BitVec 16 := 0
  proto : UInt8 := wanProtoTcp
deriving DecidableEq, Repr

/-- `wan_cfg_t`. -/
structure WanCfg where
  enabled : Bool
  ssid : List UInt8
  password : List UInt8
  ports : Fin maxPorts → PortRule
  nports : BitVec 8

/-- `wan_rules_t`. -/
structure Rules where
  ports : Fin maxPorts → PortRule
  nports : BitVec 8
  dnsIp : Ip
  up : Bool

/-- A rule set as the program starts, and as `memset` leaves it. -/
def Rules.zero : Rules := ⟨fun _ => {}, 0, 0, false⟩

/-- What `publish_rules` fills a rule set with. -/
def fillRules (cfg : WanCfg) (up : Bool) (dnsIp : Ip) : Rules where
  ports := cfg.ports
  nports := if cfg.nports.toNat ≤ maxPorts then cfg.nports else BitVec.ofNat 8 maxPorts
  dnsIp := dnsIp
  up := up

/-- `s_rules` and `s_active`, which points to `s_rules[1]` when `active` is set. -/
structure RuleStore where
  rules : Bool → Rules
  active : Bool

/-- The rule set `s_active` points to. -/
def RuleStore.live (r : RuleStore) : Rules := r.rules r.active

def RuleStore.start : RuleStore := ⟨fun _ => .zero, false⟩

/-- The part of `publish_rules` under the mutex. -/
def publishRules (r : RuleStore) (cfg : WanCfg) (up : Bool) (dnsIp : Ip) : RuleStore where
  rules := Function.update r.rules (!r.active) (fillRules cfg up dnsIp)
  active := !r.active

def wanGetDns (r : RuleStore) : Ip := if r.live.up then r.live.dnsIp else 0

@[simp] theorem publishRules_live (r : RuleStore) (cfg : WanCfg) (up : Bool) (dnsIp : Ip) :
    (publishRules r cfg up dnsIp).live = fillRules cfg up dnsIp := by
  simp [publishRules, RuleStore.live]

@[simp] theorem fillRules_up (cfg : WanCfg) (up : Bool) (dnsIp : Ip) :
    (fillRules cfg up dnsIp).up = up := rfl

@[simp] theorem fillRules_dnsIp (cfg : WanCfg) (up : Bool) (dnsIp : Ip) :
    (fillRules cfg up dnsIp).dnsIp = dnsIp := rfl

theorem fillRules_nports (cfg : WanCfg) (up : Bool) (dnsIp : Ip) :
    (fillRules cfg up dnsIp).nports.toNat ≤ maxPorts := by
  unfold fillRules
  dsimp only
  split
  · assumption
  · decide

end Wan
end Wt32Router
