import Mathlib.Data.List.TakeWhile
import Wt32Router.Web.Settings

/-!
# A saved setting against the submitted one

A value that does not fit in the buffer of its handler is cut there, before any check sees it:
the checks refuse what is longer than a buffer holds, and are never given such a value. So a
request with a value too long is refused for another reason or not at all.
-/

namespace Wt32Router
namespace Web

open Lib (ascii cString strchr strstr strlcpy)
open Wan (WanCfg)

/-- The body as the handlers read it. -/
def PostRequest.json (req : PostRequest) : List UInt8 := cString req.content

/-- What a request does to a setting: it is the whole of the value given, or it was before
    and no value is given, or a blank one. -/
def Submitted (value : Option (List UInt8)) (old new : List UInt8) : Prop :=
  value = some new ∨ ((value = none ∨ value = some []) ∧ new = old)

/-- The same of the port list. -/
def PortsSubmitted (value : Option (List UInt8)) (old new : WanCfg) : Prop :=
  (∃ csv, value = some csv ∧ wanCfgParsePorts csv old.ports = .ok (new.ports, new.nports)) ∨
    (value = none ∧ new.ports = old.ports ∧ new.nports = old.nports)

/-- Each string setting of the endpoint, from the old settings to the new. -/
def StoredWhole (json : List UInt8) (old new : Settings) : Endpoint → Prop
  | .admin =>
      Submitted (jsonValue json "new_admin_user") old.auth.username new.auth.username ∧
        Submitted (jsonValue json "new_admin_password") old.auth.password new.auth.password
  | .wifi =>
      Submitted (jsonValue json "ssid") old.wifi.ssid new.wifi.ssid ∧
        Submitted (jsonValue json "password") old.wifi.password new.wifi.password
  | .wan =>
      Submitted (jsonValue json "ssid") old.wan.ssid new.wan.ssid ∧
        Submitted (jsonValue json "password") old.wan.password new.wan.password ∧
        PortsSubmitted (jsonValue json "ports") old.wan new.wan

/-- The keys of an endpoint's strings, with the sizes of their buffers. -/
def buffers : Endpoint → List (String × Nat)
  | .admin => [("new_admin_user", authCfgUsernameMaxLen),
      ("new_admin_password", authCfgPasswordMaxLen)]
  | .wifi => [("ssid", wifiCfgSsidMaxLen), ("password", wifiCfgPasswordMaxLen)]
  | .wan => [("ssid", wanCfgSsidMaxLen), ("password", wanCfgPasswordMaxLen),
      ("ports", wanCfgPortsStrMax)]

/-- Every string of the body has room in its buffer. -/
def Fits (e : Endpoint) (json : List UInt8) : Prop :=
  ∀ f ∈ buffers e, ∀ v, jsonValue json f.1 = some v → v.length < f.2

/-- A request saves what is submitted: with success the whole of each value, each of which
    fitted, and without it nothing. -/
structure SavesSubmitted (e : Endpoint) (s : Settings) (req : PostRequest) : Prop where
  whole : (post e s req).2.isOk = true → StoredWhole req.json s (post e s req).1 e
  fits : (post e s req).2.isOk = true → Fits e req.json
  kept : (post e s req).2.isOk = false → (post e s req).1 = s

/-- The first `size - 1` bytes of a value. -/
def cut (json : List UInt8) (key : String) (size : Nat) : Option (List UInt8) :=
  (jsonValue json key).map (List.take (size - 1))

/-- Nothing is wrong with who sends the request, or with its body as a whole. -/
structure Received (s : Settings) (req : PostRequest) (setup : Bool) (bufsz : Nat) : Prop where
  authorized : req.authorized = true
  setUp : (setup && s.passwordIsDefault) = false
  csrf : req.csrf = true
  body : (recvBody bufsz req.content req.recvs).isSome = true

/-- Every check lets the request pass that is made: those of its sender and its body, those of
    the values as they are cut, and that of the flash. -/
def Passes (s : Settings) (req : PostRequest) : Endpoint → Prop
  | .admin =>
      Received s req false 256 ∧
        authCfgValidate
          (orKeep (cut req.json "new_admin_user" authCfgUsernameMaxLen) s.auth.username)
          (orKeep (cut req.json "new_admin_password" authCfgPasswordMaxLen) s.auth.password)
          = none ∧
        req.saves = true
  | .wifi =>
      Received s req true 256 ∧
        (∃ ssid, cut req.json "ssid" wifiCfgSsidMaxLen = some ssid ∧
          wifiCfgValidate ssid
            (orKeep (cut req.json "password" wifiCfgPasswordMaxLen) s.wifi.password)
            (channelOf (jsonGetInt req.json "channel")) = none) ∧
        req.saves = true
  | .wan =>
      Received s req true 512 ∧
        (∃ cfg,
          wanPortsWith (wanCfgWith s.wan (jsonGetInt req.json "enabled")
              (cut req.json "ssid" wanCfgSsidMaxLen)
              (cut req.json "password" wanCfgPasswordMaxLen))
            (cut req.json "ports" wanCfgPortsStrMax) = .ok cfg ∧
          wanCfgValidate cfg = none) ∧
        req.saves = true

section

variable {s : Settings} {req : PostRequest} {json v text : List UInt8} {key : String}
  {e : Endpoint} {size : Nat} {old : List UInt8}

/-! ### Values -/

theorem jsonGetString_eq_cut : jsonGetString json key size = cut json key size :=
  jsonGetString_eq_take

theorem cut_of_fits (h : ∀ v, jsonValue json key = some v → v.length < size) :
    cut json key size = jsonValue json key :=
  jsonGetString_eq_cut.symm.trans (jsonGetString_of_fits h)

theorem strstr_suffix {pattern p : List UInt8} (h : strstr pattern text = some p) :
    p <:+ text := by
  induction text with
  | nil =>
    unfold strstr at h
    split at h
    · exact (Option.some.inj h) ▸ List.suffix_refl _
    · exact absurd h (by simp)
  | cons c text ih =>
    unfold strstr at h
    split at h
    · exact (Option.some.inj h) ▸ List.suffix_refl _
    · exact (ih h).trans (List.suffix_cons _ _)

theorem strchr_suffix {c : UInt8} {p : List UInt8} (h : strchr c text = some p) :
    p <:+ text := by
  unfold strchr at h
  split at h
  · exact absurd h (by simp)
  · obtain rfl := Option.some.inj h
    exact List.dropWhile_suffix _

theorem jsonFind_suffix {p : List UInt8} (h : jsonFind json key = some p) : p <:+ json := by
  unfold jsonFind at h
  obtain ⟨a, ha, hp⟩ := Option.bind_eq_some_iff.mp h
  obtain ⟨b, hb, rfl⟩ := Option.map_eq_some_iff.mp hp
  exact ((List.tail_suffix b).trans (strchr_suffix hb)).trans
    ((List.drop_suffix _ _).trans (strstr_suffix ha))

theorem jsonString_suffix {p : List UInt8} (h : jsonString json key = some p) : p <:+ json := by
  unfold jsonString at h
  obtain ⟨a, ha, hp⟩ := Option.bind_eq_some_iff.mp h
  dsimp only at hp
  split at hp
  · obtain rfl := Option.some.inj hp
    exact ((List.tail_suffix _).trans (List.dropWhile_suffix _)).trans (jsonFind_suffix ha)
  · exact absurd hp (by simp)

theorem mem_of_mem_decoded {c : UInt8} (h : c ∈ decoded text) : c ∈ text := by
  induction text using decoded.induct with
  | case1 => exact absurd h (by simp [decoded])
  | case2 => exact absurd h (by simp [decoded])
  | case3 d hd => simpa [decoded, hd] using h
  | case4 d p => exact absurd h (by simp [decoded])
  | case5 d p hquote ih =>
    rw [decoded, if_neg hquote, if_pos rfl] at h
    rcases List.mem_cons.mp h with rfl | h
    · simp
    · simp [ih h]
  | case6 c d p hquote hescape ih =>
    rw [decoded, if_neg hquote, if_neg hescape] at h
    rcases List.mem_cons.mp h with rfl | h
    · simp
    · exact List.mem_cons_of_mem _ (ih h)

/-- A value holds no NUL. -/
theorem jsonValue_cString (h : jsonValue req.json key = some v) : cString v = v := by
  obtain ⟨p, hp, rfl⟩ := Option.map_eq_some_iff.mp h
  refine List.takeWhile_eq_self_iff.mpr fun c hc => ?_
  have hmem : c ∈ cString req.content :=
    (jsonString_suffix hp).subset (mem_of_mem_decoded hc)
  exact List.mem_takeWhile_imp (p := fun x => decide (x ≠ 0)) hmem

theorem strlcpy_value (h : jsonValue req.json key = some v) (hlt : v.length < size) :
    strlcpy size v = v := by
  unfold strlcpy
  rw [jsonValue_cString h]
  exact List.take_of_length_le (by omega)

theorem submitted_orKeep (value : Option (List UInt8)) (old : List UInt8) :
    Submitted value old (orKeep value old) := by
  cases value with
  | none => exact .inr ⟨.inl rfl, rfl⟩
  | some v =>
    unfold orKeep
    dsimp only
    split
    · rename_i hblank
      exact .inr ⟨.inr (congrArg some hblank), rfl⟩
    · exact .inl rfl

/-! ### What a handler does -/

theorem receive_ok {setup : Bool} {bufsz : Nat} (h : receive s req setup bufsz = .ok json) :
    Received s req setup bufsz ∧ json = req.json := by
  unfold receive at h
  split at h
  · exact absurd h (by simp)
  · rename_i hauth
    split at h
    · exact absurd h (by simp)
    · rename_i hsetup
      split at h
      · exact absurd h (by simp)
      · rename_i hcsrf
        split at h
        · exact absurd h (by simp)
        · rename_i buf hbuf
          obtain rfl := Except.ok.inj h
          exact ⟨⟨by simpa using hauth, Bool.eq_false_iff.mpr hsetup, by simpa using hcsrf,
            by rw [hbuf]; rfl⟩, congrArg cString (recvBody_some hbuf)⟩

/-- A request turned away at the start is not answered with success. -/
theorem receive_error {setup : Bool} {bufsz : Nat} {answer : Answer}
    (h : receive s req setup bufsz = .error answer) :
    ¬ Received s req setup bufsz ∧ answer.isOk = false := by
  unfold receive at h
  split at h
  · rename_i hauth
    obtain rfl := Except.error.inj h
    exact ⟨fun hr => absurd hr.authorized (by simpa using hauth), rfl⟩
  · split at h
    · rename_i hsetup
      obtain rfl := Except.error.inj h
      exact ⟨fun hr => absurd (hsetup.symm.trans hr.setUp) (by simp), rfl⟩
    · split at h
      · rename_i hcsrf
        obtain rfl := Except.error.inj h
        exact ⟨fun hr => absurd hr.csrf (by simpa using hcsrf), rfl⟩
      · split at h
        · rename_i hbody
          obtain rfl := Except.error.inj h
          exact ⟨fun hr => absurd hr.body (by rw [hbody]; simp), rfl⟩
        · exact absurd h (by simp)

/-- The two ends of a request: saved and answered with success, or neither. -/
def Settled (s : Settings) (req : PostRequest) (e : Endpoint) (saved : Settings → Prop) : Prop :=
  (Passes s req e ∧ (post e s req).2.isOk = true ∧ saved (post e s req).1) ∨
    (¬ Passes s req e ∧ (post e s req).2.isOk = false ∧ (post e s req).1 = s)

theorem adminPost_settled : Settled s req .admin fun t => t.auth =
    ⟨orKeep (cut req.json "new_admin_user" authCfgUsernameMaxLen) s.auth.username,
      orKeep (cut req.json "new_admin_password" authCfgPasswordMaxLen) s.auth.password⟩ := by
  unfold Settled post adminPost
  dsimp only
  cases hr : receive s req false 256 with
  | error answer =>
    obtain ⟨hnot, hans⟩ := receive_error hr
    exact .inr ⟨fun h => hnot h.1, hans, rfl⟩
  | ok json =>
    obtain ⟨hreceived, rfl⟩ := receive_ok hr
    dsimp only
    rw [jsonGetString_eq_cut, jsonGetString_eq_cut]
    cases hv : authCfgValidate _ _ with
    | some msg => exact .inr ⟨fun h => absurd (hv.symm.trans h.2.1) (by simp), rfl, rfl⟩
    | none =>
      dsimp only
      cases hs : req.saves with
      | true => exact .inl ⟨⟨hreceived, hv, hs⟩, rfl, rfl⟩
      | false => exact .inr ⟨fun h => absurd (hs.symm.trans h.2.2) (by simp), rfl, rfl⟩

theorem wifiPost_settled : Settled s req .wifi fun t =>
    cut req.json "ssid" wifiCfgSsidMaxLen = some t.wifi.ssid ∧
      t.wifi.password =
        orKeep (cut req.json "password" wifiCfgPasswordMaxLen) s.wifi.password := by
  unfold Settled post wifiPost
  dsimp only
  cases hr : receive s req true 256 with
  | error answer =>
    obtain ⟨hnot, hans⟩ := receive_error hr
    exact .inr ⟨fun h => hnot h.1, hans, rfl⟩
  | ok json =>
    obtain ⟨hreceived, rfl⟩ := receive_ok hr
    dsimp only
    rw [jsonGetString_eq_cut, jsonGetString_eq_cut]
    cases hssid : cut req.json "ssid" wifiCfgSsidMaxLen with
    | none =>
      refine .inr ⟨fun h => ?_, rfl, rfl⟩
      obtain ⟨ssid, heq, _⟩ := h.2.1
      exact absurd (hssid.symm.trans heq) (by simp)
    | some ssid =>
      dsimp only
      cases hv : wifiCfgValidate ssid _ _ with
      | some msg =>
        refine .inr ⟨fun h => ?_, rfl, rfl⟩
        obtain ⟨ssid₁, heq, hnone⟩ := h.2.1
        obtain rfl := Option.some.inj (hssid.symm.trans heq)
        exact absurd (hv.symm.trans hnone) (by simp)
      | none =>
        dsimp only
        cases hs : req.saves with
        | true => exact .inl ⟨⟨hreceived, ⟨ssid, hssid, hv⟩, hs⟩, rfl, rfl, rfl⟩
        | false => exact .inr ⟨fun h => absurd (hs.symm.trans h.2.2) (by simp), rfl, rfl⟩

theorem wanPost_settled : Settled s req .wan fun t =>
    wanPortsWith (wanCfgWith s.wan (jsonGetInt req.json "enabled")
        (cut req.json "ssid" wanCfgSsidMaxLen) (cut req.json "password" wanCfgPasswordMaxLen))
      (cut req.json "ports" wanCfgPortsStrMax) = .ok t.wan := by
  unfold Settled post wanPost
  dsimp only
  cases hr : receive s req true 512 with
  | error answer =>
    obtain ⟨hnot, hans⟩ := receive_error hr
    exact .inr ⟨fun h => hnot h.1, hans, rfl⟩
  | ok json =>
    obtain ⟨hreceived, rfl⟩ := receive_ok hr
    dsimp only
    rw [jsonGetString_eq_cut, jsonGetString_eq_cut, jsonGetString_eq_cut]
    cases hp : wanPortsWith _ _ with
    | error msg =>
      refine .inr ⟨fun h => ?_, rfl, rfl⟩
      obtain ⟨cfg, heq, _⟩ := h.2.1
      exact absurd (hp.symm.trans heq) (by simp)
    | ok cfg =>
      dsimp only
      cases hv : wanCfgValidate cfg with
      | some msg =>
        refine .inr ⟨fun h => ?_, rfl, rfl⟩
        obtain ⟨cfg₁, heq, hnone⟩ := h.2.1
        obtain rfl := Except.ok.inj (hp.symm.trans heq)
        exact absurd (hv.symm.trans hnone) (by simp)
      | none =>
        dsimp only
        cases hs : req.saves with
        | true => exact .inl ⟨⟨hreceived, ⟨cfg, hp, hv⟩, hs⟩, rfl, rfl⟩
        | false => exact .inr ⟨fun h => absurd (hs.symm.trans h.2.2) (by simp), rfl, rfl⟩

/-! ### What it stores -/

theorem fits_buffer (h : Fits e req.json) (hmem : (key, size) ∈ buffers e) :
    ∀ v, jsonValue req.json key = some v → v.length < size := h (key, size) hmem

theorem cut_of_buffer (h : Fits e req.json) (hmem : (key, size) ∈ buffers e) :
    cut req.json key size = jsonValue req.json key := cut_of_fits (fits_buffer h hmem)

theorem Settled.saved {saved : Settings → Prop} (h : Settled s req e saved)
    (hok : (post e s req).2.isOk = true) : saved (post e s req).1 := by
  rcases h with ⟨_, _, hsaved⟩ | ⟨_, hno, _⟩
  · exact hsaved
  · exact absurd (hno.symm.trans hok) (by simp)

theorem post_settled (e : Endpoint) (s : Settings) (req : PostRequest) :
    ∃ saved, Settled s req e saved := by
  cases e with
  | admin => exact ⟨_, adminPost_settled⟩
  | wifi => exact ⟨_, wifiPost_settled⟩
  | wan => exact ⟨_, wanPost_settled⟩

theorem wanCfgWith_ssid {cfg : WanCfg} {enabled : Option Int} {password : Option (List UInt8)}
    (hfits : ∀ v, jsonValue req.json key = some v → v.length < wanCfgSsidMaxLen) :
    Submitted (jsonValue req.json key) cfg.ssid
      (wanCfgWith cfg enabled (jsonValue req.json key) password).ssid := by
  cases hvalue : jsonValue req.json key with
  | none => exact .inr ⟨.inl rfl, rfl⟩
  | some v =>
    unfold wanCfgWith
    dsimp only
    rw [strlcpy_value hvalue (hfits v hvalue)]
    exact .inl rfl

theorem wanCfgWith_password {cfg : WanCfg} {enabled : Option Int} {ssid : Option (List UInt8)}
    (hfits : ∀ v, jsonValue req.json key = some v → v.length < wanCfgPasswordMaxLen) :
    Submitted (jsonValue req.json key) cfg.password
      (wanCfgWith cfg enabled ssid (jsonValue req.json key)).password := by
  cases hvalue : jsonValue req.json key with
  | none => exact .inr ⟨.inl rfl, rfl⟩
  | some v =>
    unfold wanCfgWith
    dsimp only
    rw [strlcpy_value hvalue (hfits v hvalue)]
    exact submitted_orKeep (some v) cfg.password

theorem wanPortsWith_ok {cfg t : WanCfg} {ports : Option (List UInt8)}
    (h : wanPortsWith cfg ports = .ok t) :
    t.ssid = cfg.ssid ∧ t.password = cfg.password ∧ PortsSubmitted ports cfg t := by
  cases ports with
  | none =>
    obtain rfl := Except.ok.inj h
    exact ⟨rfl, rfl, .inr ⟨rfl, rfl, rfl⟩⟩
  | some csv =>
    unfold wanPortsWith at h
    dsimp only at h
    cases hp : wanCfgParsePorts csv cfg.ports with
    | error msg =>
      rw [hp] at h
      exact absurd h (by simp [Except.map])
    | ok parsed =>
      rw [hp] at h
      obtain rfl := Except.ok.inj h
      exact ⟨rfl, rfl, .inl ⟨csv, rfl, hp⟩⟩

/-- What fits is stored whole. -/
theorem storedWhole_of_fits (hfits : Fits e req.json) (hok : (post e s req).2.isOk = true) :
    StoredWhole req.json s (post e s req).1 e := by
  cases e with
  | admin =>
    have hauth := adminPost_settled.saved hok
    rw [cut_of_buffer hfits (by simp [buffers]), cut_of_buffer hfits (by simp [buffers])] at hauth
    unfold StoredWhole
    rw [hauth]
    exact ⟨submitted_orKeep _ _, submitted_orKeep _ _⟩
  | wifi =>
    obtain ⟨hssid, hpass⟩ := wifiPost_settled.saved hok
    rw [cut_of_buffer hfits (by simp [buffers])] at hssid hpass
    unfold StoredWhole
    rw [hpass]
    exact ⟨.inl hssid, submitted_orKeep _ _⟩
  | wan =>
    have hwan := wanPost_settled.saved hok
    rw [cut_of_buffer hfits (by simp [buffers]), cut_of_buffer hfits (by simp [buffers]),
      cut_of_buffer hfits (by simp [buffers])] at hwan
    obtain ⟨hssid, hpass, hports⟩ := wanPortsWith_ok hwan
    unfold StoredWhole
    rw [hssid, hpass]
    exact ⟨wanCfgWith_ssid (fits_buffer hfits (by simp [buffers])),
      wanCfgWith_password (fits_buffer hfits (by simp [buffers])), hports⟩

theorem post_isOk_iff : (post e s req).2.isOk = true ↔ Passes s req e := by
  obtain ⟨saved, ⟨hpasses, hok, _⟩ | ⟨hnot, hno, _⟩⟩ := post_settled e s req
  · exact iff_of_true hok hpasses
  · exact iff_of_false (by simp [hno]) hnot

theorem post_kept (h : (post e s req).2.isOk = false) : (post e s req).1 = s := by
  obtain ⟨saved, ⟨_, hok, _⟩ | ⟨_, _, hsame⟩⟩ := post_settled e s req
  · exact absurd (h.symm.trans hok) (by simp)
  · exact hsame

end

def savedSettings : Settings :=
  { auth := ⟨ascii "owner", ascii "secret"⟩
    wifi := ⟨ascii "AOG hub", ascii "password", 1⟩
    wan := ⟨false, [], [], fun _ => {}, 0⟩ }

/-- A request for a password of 70 characters. -/
def longPassword : PostRequest :=
  { authorized := true
    csrf := true
    content := ascii "\x7b\"new_admin_password\":\"" ++ List.replicate 70 97 ++ ascii "\"\x7d"
    recvs := [.bytes 255]
    saves := true }

end Web
end Wt32Router
