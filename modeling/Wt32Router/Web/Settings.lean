import Wt32Router.Wan.Rules
import Wt32Router.Web.JsonGet

/-!
# Saving settings

The POST handlers of `/api/admin`, `/api/wifi` and `/api/wan` of `main/web_server.c`, with the
checks of `main/auth_cfg.c`, `main/wifi_cfg.c` and `main/wan_cfg.c`. Each reads its values into
buffers of its own sizes, puts what is saved in the place of what it is not given, checks the
whole and saves it.
-/

namespace Wt32Router
namespace Web

open Lib (ascii cString isDigit strlcpy strtoul)
open Wan (PortRule WanCfg maxPorts wanProtoTcp wanProtoUdp)

/-! ## The configurations and their checks -/

def authCfgUsernameMaxLen : Nat := 32
def authCfgPasswordMaxLen : Nat := 64
def wifiCfgSsidMaxLen : Nat := 32
def wifiCfgPasswordMaxLen : Nat := 64
def wanCfgSsidMaxLen : Nat := 33
def wanCfgPasswordMaxLen : Nat := 64
def wanCfgPortsStrMax : Nat := 10 * maxPorts + 1

def authCfgDefaultPassword : List UInt8 := ascii "admin"

def wifiCfgDefaultChannel : Int := 1

/-- `s_username` and `s_password`. -/
structure AuthCfg where
  username : List UInt8
  password : List UInt8
deriving DecidableEq, Repr

structure WifiCfg where
  ssid : List UInt8
  password : List UInt8
  channel : BitVec 8
deriving DecidableEq, Repr

/-- The error of `auth_cfg_validate`, if there is one. -/
def authCfgValidate (username password : List UInt8) : Option String :=
  if username.length = 0 ∨ authCfgUsernameMaxLen - 1 < username.length then
    some "Admin username must be 1-31 characters"
  else if password.length < 4 ∨ authCfgPasswordMaxLen - 1 < password.length then
    some "Admin password must be 4-63 characters"
  else if password = authCfgDefaultPassword then
    some "Choose an admin password other than the default"
  else none

def wifiCfgValidate (ssid password : List UInt8) (channel : BitVec 8) : Option String :=
  if ssid.length = 0 ∨ wifiCfgSsidMaxLen - 1 < ssid.length then
    some "SSID must be 1-31 characters"
  else if password.length < 8 ∨ wifiCfgPasswordMaxLen - 1 < password.length then
    some "Password must be 8-63 characters"
  else if channel ≠ 1 ∧ channel ≠ 6 ∧ channel ≠ 11 then
    some "Channel must be 1, 6, or 11"
  else none

def portsNotNumbers : String := "Ports must be numbers separated by commas, like 2101,2102"
def portsRange : String := "Ports must be 1-65535"
def portsProto : String := "After a port, write /tcp or /udp - nothing else"
def portsTooMany : String := "At most 12 rules can be allowed"
def portsTwice : String := "That port and protocol is listed twice"

/-- The check of one rule against those before it. -/
def ruleError (cfg : WanCfg) (i : Fin maxPorts) : Option String :=
  if cfg.nports.toNat ≤ i then none
  else if (cfg.ports i).port = 0 then some portsRange
  else if (cfg.ports i).proto ≠ wanProtoTcp ∧ (cfg.ports i).proto ≠ wanProtoUdp then
    some portsProto
  else if ∃ j < i, cfg.ports i = cfg.ports j then some portsTwice
  else none

def wanCfgValidate (cfg : WanCfg) : Option String :=
  if !cfg.enabled then none
  else if cfg.ssid.length = 0 ∨ wanCfgSsidMaxLen - 1 < cfg.ssid.length then
    some "Upstream network name must be 1-32 characters"
  else if cfg.password.length ≠ 0 ∧
      (cfg.password.length < 8 ∨ wanCfgPasswordMaxLen - 1 < cfg.password.length) then
    some "Upstream password must be 8-63 characters, or blank for an open network"
  else if cfg.nports = 0 then
    some "Add at least one allowed port - 2101 is the usual NTRIP caster port"
  else if maxPorts < cfg.nports.toNat then some portsTooMany
  else (List.finRange maxPorts).findSome? (ruleError cfg)

/-! ## The port list -/

/-- The suffix of a port: its protocol, and the text behind it. -/
def portProto : List UInt8 → Except String (UInt8 × List UInt8)
  | [] => .ok (wanProtoTcp, [])
  | c :: p =>
      if c = 47 then
        if (ascii "tcp").isPrefixOf p then .ok (wanProtoTcp, p.drop 3)
        else if (ascii "udp").isPrefixOf p then .ok (wanProtoUdp, p.drop 3)
        else .error portsProto
      else .ok (wanProtoTcp, c :: p)

/-- One entry of the list, and the text behind it. -/
def parsePort (p : List UInt8) : Except String (PortRule × List UInt8) := do
  let p := p.dropWhile isBlank
  if !p.head?.any isDigit then throw portsNotNumbers
  let v := strtoul p
  if v = 0 ∨ 65535 < v.toNat then throw portsRange
  let (proto, p) ← portProto (p.dropWhile isDigit)
  return (⟨v.setWidth 16, proto⟩, p)

/-- The loop of `wan_cfg_parse_ports`, with `n` rules in `out` so far. Each pass takes a digit
    and a comma at least, so a `fuel` of the text's length is never used up. -/
def parsePortsLoop : Nat → List UInt8 → (Fin maxPorts → PortRule) → Nat →
    Except String ((Fin maxPorts → PortRule) × BitVec 8)
  | 0, _, _, _ => .error portsNotNumbers
  | fuel + 1, p, out, n => do
      let (rule, p) ← parsePort p
      if h : n < maxPorts then
        if ∃ i : Fin maxPorts, i < n ∧ out i = rule then throw portsTwice
        let out := Function.update out ⟨n, h⟩ rule
        match p.dropWhile isBlank with
        | [] => return (out, BitVec.ofNat 8 (n + 1))
        | c :: p => if c = 44 then parsePortsLoop fuel p out (n + 1) else throw portsNotNumbers
      else throw portsTooMany

def wanCfgParsePorts (csv : List UInt8) (out : Fin maxPorts → PortRule) :
    Except String ((Fin maxPorts → PortRule) × BitVec 8) :=
  if csv.dropWhile isBlank = [] then .ok (out, 0)
  else parsePortsLoop (csv.length + 1) csv out 0

section

variable {p text : List UInt8} {rule : PortRule} {out : Fin maxPorts → PortRule} {n fuel : Nat}

theorem portProto_length {proto : UInt8} (h : portProto p = .ok (proto, text)) :
    text.length ≤ p.length := by
  unfold portProto at h
  split at h
  · obtain ⟨-, rfl⟩ := Prod.mk.inj (Except.ok.inj h)
    exact Nat.le_refl _
  · split at h
    · split at h
      · obtain ⟨-, rfl⟩ := Prod.mk.inj (Except.ok.inj h)
        rw [List.length_drop, List.length_cons]
        omega
      · split at h
        · obtain ⟨-, rfl⟩ := Prod.mk.inj (Except.ok.inj h)
          rw [List.length_drop, List.length_cons]
          omega
        · exact absurd h (by simp)
    · obtain ⟨-, rfl⟩ := Prod.mk.inj (Except.ok.inj h)
      exact Nat.le_refl _

/-- An entry takes a digit at least. -/
theorem parsePort_length (h : parsePort p = .ok (rule, text)) : text.length < p.length := by
  have hblanks : (p.dropWhile isBlank).length ≤ p.length :=
    (List.dropWhile_suffix isBlank).length_le
  have hdigits : (p.dropWhile isBlank).head?.any isDigit = true →
      ((p.dropWhile isBlank).dropWhile isDigit).length < (p.dropWhile isBlank).length := by
    cases p.dropWhile isBlank with
    | nil => simp
    | cons c rest =>
      intro hc
      rw [List.dropWhile_cons_of_pos (by simpa using hc), List.length_cons]
      exact Nat.lt_succ_of_le (List.dropWhile_suffix isDigit).length_le
  unfold parsePort at h
  simp only [bind, Except.bind, pure, Except.pure, throw, throwThe, MonadExceptOf.throw] at h
  split at h
  · exact absurd h (by simp)
  · rename_i hdigit
    split at h
    · exact absurd h (by simp)
    · cases hproto : portProto ((p.dropWhile isBlank).dropWhile isDigit) with
      | error msg =>
        rw [hproto] at h
        exact absurd h (by simp)
      | ok v =>
        rw [hproto] at h
        obtain ⟨-, rfl⟩ := Prod.mk.inj (Except.ok.inj h)
        have hlen := portProto_length hproto
        have := hdigits (by simpa using hdigit)
        omega

/-- More fuel than the text is long makes no difference. -/
theorem parsePortsLoop_fuel (h : p.length < fuel) :
    parsePortsLoop (fuel + 1) p out n = parsePortsLoop fuel p out n := by
  induction fuel generalizing p out n with
  | zero => exact absurd h (Nat.not_lt_zero _)
  | succ fuel ih =>
    conv_lhs => unfold parsePortsLoop
    conv_rhs => unfold parsePortsLoop
    cases hp : parsePort p with
    | error msg => rfl
    | ok parsed =>
      obtain ⟨rule, text⟩ := parsed
      have hlen := parsePort_length hp
      have hblanks : (text.dropWhile isBlank).length ≤ text.length :=
        (List.dropWhile_suffix isBlank).length_le
      simp only [bind, Except.bind]
      cases hrest : text.dropWhile isBlank with
      | nil => rfl
      | cons c rest =>
        rw [hrest, List.length_cons] at hblanks
        simp only [ih (p := rest) (by omega)]

end

/-! ## The handlers -/

/-- What is saved. -/
structure Settings where
  auth : AuthCfg
  wifi : WifiCfg
  wan : WanCfg

/-- A request, with what `check_admin_auth` and `csrf_check` say of it, what the connection
    returns of its body, and whether the flash takes what is saved. -/
structure PostRequest where
  authorized : Bool
  csrf : Bool
  content : List UInt8
  recvs : List Recv
  saves : Bool
deriving DecidableEq, Repr

inductive Answer where
  | authError
  | setupRequired
  | csrfError
  /-- `recv_body` has answered. -/
  | bodyError
  | badRequest (msg : String)
  | serverError (msg : String)
  | ok (reboot : Bool)
deriving DecidableEq, Repr

def Answer.isOk : Answer → Bool
  | .ok _ => true
  | _ => false

/-- A value that is given and not left blank, or the one there was. -/
def orKeep (value : Option (List UInt8)) (old : List UInt8) : List UInt8 :=
  match value with
  | none => old
  | some v => if v = [] then old else v

/-- `auth_cfg_password_is_default`. -/
def Settings.passwordIsDefault (s : Settings) : Bool := s.auth.password == authCfgDefaultPassword

/-- How each handler begins: the body as a string, or the answer already given. `setup` is set
    where the handler is closed until the default password is changed. -/
def receive (s : Settings) (req : PostRequest) (setup : Bool) (bufsz : Nat) :
    Except Answer (List UInt8) :=
  if !req.authorized then .error .authError
  else if setup && s.passwordIsDefault then .error .setupRequired
  else if !req.csrf then .error .csrfError
  else match recvBody bufsz req.content req.recvs with
  | none => .error .bodyError
  | some buf => .ok (cString buf)

def adminPost (s : Settings) (req : PostRequest) : Settings × Answer :=
  match receive s req false 256 with
  | .error answer => (s, answer)
  | .ok json =>
      let newUser :=
        orKeep (jsonGetString json "new_admin_user" authCfgUsernameMaxLen) s.auth.username
      let newPassword :=
        orKeep (jsonGetString json "new_admin_password" authCfgPasswordMaxLen) s.auth.password
      match authCfgValidate newUser newPassword with
      | some msg => (s, .badRequest msg)
      | none =>
          if req.saves then ({ s with auth := ⟨newUser, newPassword⟩ }, .ok false)
          else (s, .serverError "Failed to save")

def channelOf (val : Option Int) : BitVec 8 :=
  let val := val.getD wifiCfgDefaultChannel
  if val < 0 ∨ 255 < val then 0 else BitVec.ofInt 8 val

def wifiPost (s : Settings) (req : PostRequest) : Settings × Answer :=
  match receive s req true 256 with
  | .error answer => (s, answer)
  | .ok json =>
      match jsonGetString json "ssid" wifiCfgSsidMaxLen with
      | none => (s, .badRequest "Missing \"ssid\"")
      | some ssid =>
          let password :=
            orKeep (jsonGetString json "password" wifiCfgPasswordMaxLen) s.wifi.password
          let channel := channelOf (jsonGetInt json "channel")
          match wifiCfgValidate ssid password channel with
          | some msg => (s, .badRequest msg)
          | none =>
              if req.saves then ({ s with wifi := ⟨ssid, password, channel⟩ }, .ok true)
              else (s, .serverError "Failed to save")

/-- What `wan_post_handler` puts into its `cfg` before it comes to the ports. -/
def wanCfgWith (cfg : WanCfg) (enabled : Option Int) (ssid password : Option (List UInt8)) :
    WanCfg :=
  { cfg with
    enabled := match enabled with
      | none => cfg.enabled
      | some val => decide (val ≠ 0)
    ssid := match ssid with
      | none => cfg.ssid
      | some ssid => strlcpy wanCfgSsidMaxLen ssid
    password := match password with
      | none => cfg.password
      | some password =>
          if password = [] then cfg.password else strlcpy wanCfgPasswordMaxLen password }

/-- The port list, if one is given. -/
def wanPortsWith (cfg : WanCfg) (ports : Option (List UInt8)) : Except String WanCfg :=
  match ports with
  | none => .ok cfg
  | some csv => (wanCfgParsePorts csv cfg.ports).map fun (ports, nports) =>
      { cfg with ports, nports }

def wanPost (s : Settings) (req : PostRequest) : Settings × Answer :=
  match receive s req true 512 with
  | .error answer => (s, answer)
  | .ok json =>
      let cfg := wanCfgWith s.wan (jsonGetInt json "enabled")
        (jsonGetString json "ssid" wanCfgSsidMaxLen)
        (jsonGetString json "password" wanCfgPasswordMaxLen)
      match wanPortsWith cfg (jsonGetString json "ports" wanCfgPortsStrMax) with
      | .error msg => (s, .badRequest msg)
      | .ok cfg =>
          match wanCfgValidate cfg with
          | some msg => (s, .badRequest msg)
          | none =>
              let radioChanged := cfg.enabled != s.wan.enabled || cfg.ssid != s.wan.ssid ||
                cfg.password != s.wan.password
              if req.saves then ({ s with wan := cfg }, .ok radioChanged)
              else (s, .serverError "Failed to save uplink config")

inductive Endpoint where
  | admin
  | wifi
  | wan
deriving DecidableEq, Repr

def post : Endpoint → Settings → PostRequest → Settings × Answer
  | .admin => adminPost
  | .wifi => wifiPost
  | .wan => wanPost

end Web
end Wt32Router
