import Wt32Router.Lib.Bytes
import Wt32Router.Lib.KeyStore
import Wt32Router.Web.PortList

/-!
# The settings in flash

The saves and loads of `main/auth_cfg.c`, `main/wifi_cfg.c` and `main/wan_cfg.c`. Each of the
three keeps one configuration under several keys of a namespace of its own, sets one key after
the other, and loads each key by itself, with a default of its own for a key it cannot use. A
set that has succeeded is seen by every later load, whatever becomes of the calls behind it.
-/

namespace Wt32Router
namespace Web

open Lib (ascii leBytes leNat Device Field Stores putAll writes)
open Wan (PortRule WanCfg maxPorts wanProtoTcp wanProtoUdp)

/-! ## NVS -/

inductive NvsValue where
  | u8 (v : BitVec 8)
  | str (s : List UInt8)
  | blob (b : List UInt8)
deriving DecidableEq, Repr

/-- What a namespace holds. -/
abbrev Namespace := String → Option NvsValue

/-- The namespace as `nvs_open` finds it, and as it makes it where there is none. -/
def opened (nvs : Option Namespace) : Namespace := nvs.getD fun _ => none

def nvsGetU8 : Option NvsValue → Option (BitVec 8)
  | some (.u8 v) => some v
  | _ => none

/-- `nvs_get_str` into an array of `size` bytes, one of them for the NUL. -/
def nvsGetStr (size : Nat) : Option NvsValue → Option (List UInt8)
  | some (.str s) => if s.length < size then some s else none
  | _ => none

def nvsGetBlob : Option NvsValue → Option (List UInt8)
  | some (.blob b) => some b
  | _ => none

/-- The call of a save that fails: `nvs_open`, or the one behind the first `n` that set a key.
    That is the next to set one, or `nvs_commit`. -/
inductive Fault where
  | open
  | call (n : Nat)
deriving DecidableEq, Repr

/-- How many keys have been set by then. -/
def Fault.sets : Fault → Nat
  | .open => 0
  | .call n => n

/-! ## One configuration -/

/-- How a configuration is kept: its keys, in the order they are set, the load, and what of it
    the rest of the program sees. A load is right about the keys one by one. -/
structure Setting (α β : Type) where
  fields : List (Field String NvsValue α)
  load : Option Namespace → α
  view : α → β
  cached : Bool
  keys : (fields.map Field.key).Nodup
  reads : ∀ nvs a, view (load nvs) = view a ↔ Stores fields (opened nvs) a

section

variable {α β : Type}

/-- A save: whether it succeeds, and what it leaves. The copy in memory is replaced only at its
    end. -/
def Setting.save (S : Setting α β) (d : Device (Option Namespace) α) (new : α) :
    Option Fault → Bool × Device (Option Namespace) α
  | some .open => (false, d)
  | some (.call n) =>
      (false, { d with store := some (putAll (opened d.store) ((writes S.fields new).take n)) })
  | none =>
      (true, { store := some (putAll (opened d.store) (writes S.fields new))
               cache := if S.cached then some new else d.cache })

/-- After a save of `new` that fails, every load returns `old`. -/
def Setting.FailedSaveKeeps (S : Setting α β) (d : Device (Option Namespace) α) (old new : α)
    (fault : Fault) : Prop :=
  ∀ es, ∀ a ∈ (S.save d new (some fault)).2.loads S.load S.cached es, S.view a = S.view old

/-- After a save of `a` that succeeds, the first load of the next boot returns `a`. -/
def Setting.Survives (S : Setting α β) (a : α) : Prop :=
  ∀ d, S.view (((S.save d a none).2.reboot.load S.load S.cached).1) = S.view a

variable {S : Setting α β} {d : Device (Option Namespace) α} {old new : α} {fault : Fault}

theorem Setting.failedSaveKeeps_iff (h : d.Shows S.load S.view (S.view old)) :
    S.FailedSaveKeeps d old new fault ↔
      ∀ f ∈ S.fields.take fault.sets, f.reads (some (f.value new)) old := by
  have hold : Stores S.fields (opened d.store) old := (S.reads _ _).mp h.2
  cases fault with
  | «open» =>
    exact ⟨fun _ f hf => absurd hf List.not_mem_nil,
      fun _ => (Lib.Device.loads_iff S.load S.cached h.1).mpr h.2⟩
  | call n =>
    have hloads := Lib.Device.loads_iff (d := (S.save d new (some (.call n))).2)
      S.load S.cached h.1
    exact hloads.trans ((S.reads _ _).trans (Lib.stores_interrupted S.keys hold n))

theorem Setting.survives_iff (a : α) :
    S.Survives a ↔ ∀ f ∈ S.fields, f.reads (some (f.value a)) a := by
  have hstored : ∀ d : Device (Option Namespace) α,
      S.view (((S.save d a none).2.reboot.load S.load S.cached).1) = S.view a ↔
        ∀ f ∈ S.fields, f.reads (some (f.value a)) a :=
    fun d => (S.reads _ _).trans (Lib.stores_written S.keys)
  exact ⟨fun h => (hstored ⟨none, none⟩).mp (h _), fun h d => (hstored d).mpr h⟩

/-- The same with a part of the configuration for each key. -/
theorem forall_take_iff {fields : List (Field String NvsValue α)} {parts : List Prop}
    {P : Field String NvsValue α → Prop} (h : List.Forall₂ (fun f p => P f ↔ p) fields parts)
    (n : Nat) : (∀ f ∈ fields.take n, P f) ↔ ∀ p ∈ parts.take n, p := by
  induction h generalizing n with
  | nil => simp
  | cons hfp _ ih =>
    cases n with
    | zero => simp
    | succ n => simp only [List.take_succ_cons, List.forall_mem_cons, hfp, ih]

end

/-! ## The keys -/

section

variable {α : Type}

/-- A string, loaded into an array of `size` bytes; `dflt` where that fails. -/
def strField (key : String) (size : Nat) (dflt : List UInt8) (get : α → List UInt8) :
    Field String NvsValue α where
  key := key
  value a := .str (get a)
  reads v a := (nvsGetStr size v).getD dflt = get a

/-- What is loaded of a string that has been set. -/
def reloaded (size : Nat) (dflt s : List UInt8) : List UInt8 :=
  (nvsGetStr size (some (.str s))).getD dflt

theorem reloaded_of_fits {size : Nat} {dflt s : List UInt8} (h : s.length < size) :
    reloaded size dflt s = s := by
  have hget : nvsGetStr size (some (.str s)) = some s := if_pos h
  rw [reloaded, hget, Option.getD_some]

end

/-! ### `auth_cfg.c` -/

def authCfgDefaultUsername : List UInt8 := ascii "admin"

def authCfgLoadFromNvs : Option Namespace → AuthCfg
  | some nvs =>
      { username := (nvsGetStr authCfgUsernameMaxLen (nvs "user")).getD authCfgDefaultUsername
        password :=
          (nvsGetStr authCfgPasswordMaxLen (nvs "password")).getD authCfgDefaultPassword }
  | none => ⟨authCfgDefaultUsername, authCfgDefaultPassword⟩

/-- `auth_cfg_save` sets these, and `auth_cfg_load` keeps a copy. -/
def authSetting : Setting AuthCfg AuthCfg where
  fields := [strField "user" authCfgUsernameMaxLen authCfgDefaultUsername AuthCfg.username,
    strField "password" authCfgPasswordMaxLen authCfgDefaultPassword AuthCfg.password]
  load := authCfgLoadFromNvs
  view := id
  cached := true
  keys := by simp [strField]
  reads nvs a := by
    obtain ⟨user, password⟩ := a
    cases nvs <;> simp [authCfgLoadFromNvs, Stores, opened, strField, nvsGetStr]

/-! ### `wifi_cfg.c` -/

def wifiCfgDefaultSsid : List UInt8 := ascii "AOG hub"
def wifiCfgDefaultPass : List UInt8 := ascii "password"

def wifiCfgLoad : Option Namespace → WifiCfg
  | some nvs =>
      { ssid := (nvsGetStr wifiCfgSsidMaxLen (nvs "ssid")).getD wifiCfgDefaultSsid
        password := (nvsGetStr wifiCfgPasswordMaxLen (nvs "password")).getD wifiCfgDefaultPass
        channel := (nvsGetU8 (nvs "channel")).getD (BitVec.ofInt 8 wifiCfgDefaultChannel) }
  | none => ⟨wifiCfgDefaultSsid, wifiCfgDefaultPass, BitVec.ofInt 8 wifiCfgDefaultChannel⟩

/-- `wifi_cfg_save` sets these. There is no copy: every load reads the flash. -/
def wifiSetting : Setting WifiCfg WifiCfg where
  fields := [strField "ssid" wifiCfgSsidMaxLen wifiCfgDefaultSsid WifiCfg.ssid,
    strField "password" wifiCfgPasswordMaxLen wifiCfgDefaultPass WifiCfg.password,
    { key := "channel"
      value := fun a => .u8 a.channel
      reads := fun v a => (nvsGetU8 v).getD (BitVec.ofInt 8 wifiCfgDefaultChannel) = a.channel }]
  load := wifiCfgLoad
  view := id
  cached := false
  keys := by simp [strField]
  reads nvs a := by
    obtain ⟨ssid, password, channel⟩ := a
    cases nvs <;> simp [wifiCfgLoad, Stores, opened, strField, nvsGetStr, nvsGetU8]

/-! ### `wan_cfg.c` -/

/-- `k_default_ports`. -/
def kDefaultPorts : List PortRule :=
  [⟨2101, wanProtoTcp⟩, ⟨2102, wanProtoTcp⟩, ⟨21115, wanProtoTcp⟩, ⟨21116, wanProtoTcp⟩,
    ⟨21116, wanProtoUdp⟩, ⟨21117, wanProtoTcp⟩]

/-- `wan_cfg_default_ports`, into a zeroed array. -/
def wanCfgDefaultPorts : (Fin maxPorts → PortRule) × BitVec 8 :=
  (listed (fun _ => {}) kDefaultPorts, BitVec.ofNat 8 kDefaultPorts.length)

/-- The four bytes of a `wan_port_rule_t`: the last is padding, which is always zeroed. -/
def ruleBytes (rule : PortRule) : List UInt8 := leBytes 2 rule.port.toNat ++ [rule.proto, 0]

def ruleOfBytes (b : List UInt8) : PortRule := ⟨BitVec.ofNat 16 (leNat 2 b), (b.drop 2).headD 0⟩

/-- `cfg->ports[i]`, where `behind` is the memory behind the array. -/
def ruleAt (behind : Nat → PortRule) (cfg : WanCfg) (i : Nat) : PortRule :=
  if h : i < maxPorts then cfg.ports ⟨i, h⟩ else behind i

/-- The `nports` rules from the start of the array on, as they lie in memory. -/
def portsBlob (behind : Nat → PortRule) (cfg : WanCfg) : List UInt8 :=
  (List.range cfg.nports.toNat).flatMap fun i => ruleBytes (ruleAt behind cfg i)

/-- The ports that a load makes of the blob. -/
def portsOf (v : Option NvsValue) : (Fin maxPorts → PortRule) × BitVec 8 :=
  match nvsGetBlob v with
  | some b =>
      if 0 < b.length ∧ b.length ≤ 4 * maxPorts ∧ b.length % 4 = 0 then
        (fun i => ruleOfBytes (b.drop (i * 4)), BitVec.ofNat 8 (b.length / 4))
      else wanCfgDefaultPorts
  | none => wanCfgDefaultPorts

/-- `load_from_nvs`. -/
def wanLoadFromNvs : Option Namespace → WanCfg
  | some nvs =>
      { enabled := ((nvsGetU8 (nvs "enabled")).map (· != 0)).getD false
        ssid := (nvsGetStr wanCfgSsidMaxLen (nvs "ssid")).getD []
        password := (nvsGetStr wanCfgPasswordMaxLen (nvs "password")).getD []
        ports := (portsOf (nvs "ports")).1
        nports := (portsOf (nvs "ports")).2 }
  | none =>
      { enabled := false, ssid := [], password := []
        ports := wanCfgDefaultPorts.1, nports := wanCfgDefaultPorts.2 }

/-- The first `nports` of the rules. -/
def firstPorts (ports : (Fin maxPorts → PortRule) × BitVec 8) : BitVec 8 × List PortRule :=
  (ports.2, (List.ofFn ports.1).take ports.2.toNat)

/-- The flag, the two strings and the port list. What is in the array behind the list is not
    part of a configuration. -/
def wanView (cfg : WanCfg) :
    Bool × List UInt8 × List UInt8 × BitVec 8 × List PortRule :=
  (cfg.enabled, cfg.ssid, cfg.password, firstPorts (cfg.ports, cfg.nports))

/-- `wan_cfg_save` sets these, and `wan_cfg_get` keeps a copy. -/
def wanSetting (behind : Nat → PortRule) :
    Setting WanCfg (Bool × List UInt8 × List UInt8 × BitVec 8 × List PortRule) where
  fields := [
    { key := "enabled"
      value := fun a => .u8 (if a.enabled then 1 else 0)
      reads := fun v a => ((nvsGetU8 v).map (· != 0)).getD false = a.enabled },
    strField "ssid" wanCfgSsidMaxLen [] WanCfg.ssid,
    strField "password" wanCfgPasswordMaxLen [] WanCfg.password,
    { key := "ports"
      value := fun a => .blob (portsBlob behind a)
      reads := fun v a => firstPorts (portsOf v) = firstPorts (a.ports, a.nports) }]
  load := wanLoadFromNvs
  view := wanView
  cached := true
  keys := by simp [strField]
  reads nvs a := by
    cases nvs with
    | none => simp [wanLoadFromNvs, wanView, Stores, opened, strField, nvsGetStr, nvsGetU8,
        portsOf, nvsGetBlob]
    | some nvs => simp [wanLoadFromNvs, wanView, Stores, opened, strField]

/-- The port list that is loaded of one that has been set: a list of no rules is taken for no
    list, and so is one that the array could not hold. -/
def savedPorts (cfg : WanCfg) : BitVec 8 × List PortRule :=
  if 0 < cfg.nports.toNat ∧ cfg.nports.toNat ≤ maxPorts then firstPorts (cfg.ports, cfg.nports)
  else firstPorts wanCfgDefaultPorts

theorem flag_reloaded (b : Bool) :
    ((nvsGetU8 (some (.u8 (if b then 1 else 0)))).map (· != 0)).getD false = b := by
  cases b <;> rfl

theorem ruleBytes_length (rule : PortRule) : (ruleBytes rule).length = 4 := by
  rw [ruleBytes, List.length_append, Lib.leBytes_length]
  rfl

theorem ruleOfBytes_append (rule : PortRule) (rest : List UInt8) :
    ruleOfBytes (ruleBytes rule ++ rest) = rule := by
  unfold ruleOfBytes ruleBytes
  rw [List.append_assoc, Lib.leNat_leBytes, Lib.drop_leBytes,
    Lib.ofNat_toNat_mod _ _ (by decide)]
  rfl

theorem portsBlob_length (behind : Nat → PortRule) (cfg : WanCfg) :
    (portsBlob behind cfg).length = cfg.nports.toNat * 4 := by
  rw [portsBlob, Lib.flatMap_length fun i => ruleBytes_length _, List.length_range]

/-- A rule of the array is found again where it was written. -/
theorem ruleOfBytes_portsBlob {behind : Nat → PortRule} {cfg : WanCfg} {i : Fin maxPorts}
    (hi : i < cfg.nports.toNat) :
    ruleOfBytes ((portsBlob behind cfg).drop (i * 4)) = cfg.ports i := by
  have hrange : (List.range cfg.nports.toNat).drop i = i.val ::
      (List.range cfg.nports.toNat).drop (i + 1) := by
    rw [List.drop_eq_getElem_cons (by simpa using hi), List.getElem_range]
  rw [portsBlob, Lib.drop_flatMap fun i => ruleBytes_length _, hrange, List.flatMap_cons,
    ruleOfBytes_append]
  exact dif_pos i.isLt

theorem firstPorts_blob (behind : Nat → PortRule) (cfg : WanCfg) :
    firstPorts (portsOf (some (.blob (portsBlob behind cfg)))) = savedPorts cfg := by
  have hlen := portsBlob_length behind cfg
  have hget : nvsGetBlob (some (.blob (portsBlob behind cfg))) = some (portsBlob behind cfg) := rfl
  unfold portsOf savedPorts
  rw [hget]
  dsimp only
  by_cases h : 0 < cfg.nports.toNat ∧ cfg.nports.toNat ≤ maxPorts
  · rw [if_pos h, if_pos (by omega), hlen, Nat.mul_div_cancel _ (by decide), BitVec.ofNat_toNat,
      BitVec.setWidth_eq]
    unfold firstPorts
    refine Prod.ext rfl (List.ext_getElem (by simp) fun i hi _ => ?_)
    have hlt : i < maxPorts ∧ i < cfg.nports.toNat := by
      rw [List.length_take, List.length_ofFn] at hi
      dsimp only at hi
      omega
    simpa using ruleOfBytes_portsBlob (i := ⟨i, hlt.1⟩) hlt.2
  · rw [if_neg h, if_neg (by omega)]

/-! ## A save that succeeds -/

/-- The strings are those of the arrays `ssid` and `password`. -/
structure InArrays (cfg : WanCfg) : Prop where
  ssid : cfg.ssid.length < wanCfgSsidMaxLen
  password : cfg.password.length < wanCfgPasswordMaxLen

theorem savedPorts_eq_iff (cfg : WanCfg) :
    savedPorts cfg = firstPorts (cfg.ports, cfg.nports) ↔
      0 < cfg.nports.toNat ∧ cfg.nports.toNat ≤ maxPorts := by
  unfold savedPorts
  split
  · rename_i h
    exact iff_of_true rfl h
  · rename_i h
    refine iff_of_false (fun heq => h ?_) h
    have hsix : cfg.nports = BitVec.ofNat 8 kDefaultPorts.length := (congrArg Prod.fst heq).symm
    rw [hsix]
    decide

theorem nports_of_validate {cfg : WanCfg} (h : wanCfgValidate cfg = none)
    (hon : cfg.enabled = true) : 0 < cfg.nports.toNat := by
  unfold wanCfgValidate at h
  rw [if_neg (by simp [hon])] at h
  split at h
  · exact absurd h (by simp)
  · split at h
    · exact absurd h (by simp)
    · split at h
      · exact absurd h (by simp)
      · rename_i hzero
        exact Nat.pos_of_ne_zero fun hz => hzero (BitVec.eq_of_toNat_eq hz)

/-- An accepted configuration comes back after a reboot exactly where its list has a rule, and
    no more than the array holds. With the WAN on it always has. -/
theorem wan_survives_iff (behind : Nat → PortRule) (cfg : WanCfg) (hstrings : InArrays cfg)
    (hvalid : wanCfgValidate cfg = none) :
    ((wanSetting behind).Survives cfg ↔
      0 < cfg.nports.toNat ∧ cfg.nports.toNat ≤ maxPorts) ∧
    (cfg.enabled = true → (wanSetting behind).Survives cfg) := by
  have hiff : (wanSetting behind).Survives cfg ↔
      0 < cfg.nports.toNat ∧ cfg.nports.toNat ≤ maxPorts := by
    rw [Setting.survives_iff, ← savedPorts_eq_iff, ← firstPorts_blob behind]
    simp only [wanSetting, List.forall_mem_cons]
    constructor
    · exact fun h => h.2.2.2.1
    · exact fun h => ⟨flag_reloaded _, reloaded_of_fits hstrings.ssid,
        reloaded_of_fits hstrings.password, h, fun f hf => absurd hf List.not_mem_nil⟩
  exact ⟨hiff, fun hon =>
    hiff.mpr ⟨nports_of_validate hvalid hon, (validRules_of_validate hvalid hon).count⟩⟩

/-- An uplink that is switched off, with one rule or none. -/
def offWith (rules : List PortRule) : WanCfg where
  enabled := false
  ssid := ascii "field"
  password := ascii "12345678"
  ports := listed (fun _ => {}) rules
  nports := BitVec.ofNat 8 rules.length

theorem wan_survives_off :
    (wanSetting fun _ => {}).Survives (offWith [⟨2101, wanProtoTcp⟩]) :=
  (wan_survives_iff _ _ ⟨by decide, by decide⟩ (by decide)).1.mpr ⟨by decide, by decide⟩

/-- An empty list comes back as the six rules of the default. -/
theorem wan_survives_fails :
    ¬ ∀ cfg, InArrays cfg → wanCfgValidate cfg = none →
      (wanSetting fun _ => {}).Survives cfg := by
  intro h
  have hback := h (offWith []) ⟨by decide, by decide⟩ (by decide) ⟨none, none⟩
  have hcount : BitVec.ofNat 8 kDefaultPorts.length = (0 : BitVec 8) :=
    congrArg (fun v => v.2.2.2.1) hback
  exact absurd hcount (by decide)

/-! ## A save that fails -/

/-- Each part of the configuration, as it is loaded once it has been set, is the old one. -/
def authParts (old new : AuthCfg) : List Prop :=
  [reloaded authCfgUsernameMaxLen authCfgDefaultUsername new.username = old.username,
    reloaded authCfgPasswordMaxLen authCfgDefaultPassword new.password = old.password]

def wifiParts (old new : WifiCfg) : List Prop :=
  [reloaded wifiCfgSsidMaxLen wifiCfgDefaultSsid new.ssid = old.ssid,
    reloaded wifiCfgPasswordMaxLen wifiCfgDefaultPass new.password = old.password,
    new.channel = old.channel]

def wanParts (old new : WanCfg) : List Prop :=
  [new.enabled = old.enabled,
    reloaded wanCfgSsidMaxLen [] new.ssid = old.ssid,
    reloaded wanCfgPasswordMaxLen [] new.password = old.password,
    savedPorts new = firstPorts (old.ports, old.nports)]

/-- A failed save changes nothing exactly where what it has set by then is no change. -/
theorem failed_save_keeps_iff (fault : Fault) (behind : Nat → PortRule) :
    (∀ d old new, d.Shows authSetting.load authSetting.view (authSetting.view old) →
      (authSetting.FailedSaveKeeps d old new fault ↔
        ∀ p ∈ (authParts old new).take fault.sets, p)) ∧
    (∀ d old new, d.Shows wifiSetting.load wifiSetting.view (wifiSetting.view old) →
      (wifiSetting.FailedSaveKeeps d old new fault ↔
        ∀ p ∈ (wifiParts old new).take fault.sets, p)) ∧
    (∀ d old new,
      d.Shows (wanSetting behind).load (wanSetting behind).view ((wanSetting behind).view old) →
      ((wanSetting behind).FailedSaveKeeps d old new fault ↔
        ∀ p ∈ (wanParts old new).take fault.sets, p)) := by
  refine ⟨fun d old new h => ?_, fun d old new h => ?_, fun d old new h => ?_⟩
  · refine (Setting.failedSaveKeeps_iff h).trans (forall_take_iff ?_ _)
    exact .cons Iff.rfl (.cons Iff.rfl .nil)
  · refine (Setting.failedSaveKeeps_iff h).trans (forall_take_iff ?_ _)
    exact .cons Iff.rfl (.cons Iff.rfl (.cons Iff.rfl .nil))
  · refine (Setting.failedSaveKeeps_iff h).trans (forall_take_iff ?_ _)
    refine .cons ?_ (.cons Iff.rfl (.cons Iff.rfl (.cons ?_ .nil)))
    · show _ = _ ↔ _
      rw [flag_reloaded]
    · show firstPorts _ = _ ↔ _
      rw [firstPorts_blob]

/-- A device with these credentials, saved and loaded. -/
def deviceOf (auth : AuthCfg) : Device (Option Namespace) AuthCfg where
  store := some (putAll (fun _ => none) (writes authSetting.fields auth))
  cache := some auth

/-- The first key cannot be set. -/
theorem failed_save_keeps_first :
    authSetting.FailedSaveKeeps (deviceOf ⟨ascii "farmer", ascii "tractor1"⟩)
      ⟨ascii "farmer", ascii "tractor1"⟩ ⟨ascii "guest", ascii "letmein2"⟩ (.call 0) :=
  ((failed_save_keeps_iff (.call 0) fun _ => {}).1 _ _ _
    ⟨fun _ ha => (Option.some.inj ha) ▸ rfl, by decide⟩).mpr
    fun _ hp => absurd hp List.not_mem_nil

/-- The password cannot be set: from the next boot on the new name goes with the old password. -/
theorem failed_save_mixes :
    ¬ ∀ d old new fault, d.Shows authSetting.load authSetting.view (authSetting.view old) →
      authSetting.FailedSaveKeeps d old new fault := by
  intro h
  have hkept := h (deviceOf ⟨ascii "farmer", ascii "tractor1"⟩) ⟨ascii "farmer", ascii "tractor1"⟩
    ⟨ascii "guest", ascii "letmein2"⟩ (.call 1)
    ⟨fun a ha => (Option.some.inj ha) ▸ rfl, by decide⟩ [.reboot, .load]
    ⟨ascii "guest", ascii "tractor1"⟩ (by decide)
  exact absurd hkept (by decide)

end Web
end Wt32Router
