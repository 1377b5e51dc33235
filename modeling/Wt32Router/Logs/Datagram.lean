import Wt32Router.Lib.Rfc5424
import Wt32Router.Logs.Drain
import Wt32Router.Web.LogPoll

/-!
# The datagrams of `drain_pass`

Each line that passes the filter is framed as an RFC 5424 message: what the ring holds, the boot
number, and a host name that `syslog_cfg_validate` has checked. The tag is made an APP-NAME and
the message is rid of control characters; its other bytes pass through.

> **`datagram_parses`**: a datagram is never cut short, and it derives the one message that was
> meant, unless the line's message declares itself UTF-8 and is not.

"No BOM is written", says the source of that declaration, which "this device cannot honestly
make"; but a line's message may begin with one.
-/

namespace Wt32Router
namespace Logs

open Lib
open Web (copyOut copyOut_length)

/-! ## The configuration -/

def syslogCfgHostnameMaxLen : Nat := 33

/-- `syslog_cfg_t`, with the addresses as they stand in memory. -/
structure SyslogCfg where
  enabled : Bool
  serverIp : BitVec 32
  port : UInt16
  facility : UInt8
  minSeverity : UInt8
  hostname : List UInt8
deriving DecidableEq, Repr

/-- The error of `syslog_cfg_validate`, if there is one. -/
def syslogCfgValidate (cfg : SyslogCfg) (subnetIp subnetMask : BitVec 32) : Option String :=
  if !cfg.enabled then none
  else if cfg.serverIp = 0 then some "Enter the syslog collector's IP address"
  else if subnetMask = 0 then
    some "Could not read this bridge's own address, so the collector's could not be checked"
  else if cfg.serverIp &&& subnetMask ≠ subnetIp &&& subnetMask then
    some ("The collector must be on the bridge's 192.168.5.0/24 network - " ++
      "it has no gateway to anywhere else")
  else if cfg.serverIp = subnetIp then
    some "That is this device's own address - enter the collector's"
  else if cfg.serverIp ||| ~~~subnetMask = cfg.serverIp then
    some "Enter one collector's address, not the broadcast address"
  else if cfg.port = 0 then some "Port must be 1-65535 (514 is the syslog default)"
  else if 23 < cfg.facility then some "Facility must be 0-23 (23 is local7)"
  else if 7 < cfg.minSeverity then some "Minimum severity must be 0-7"
  else if cfg.hostname.length = 0 ∨ syslogCfgHostnameMaxLen - 1 < cfg.hostname.length then
    some "Hostname must be 1-32 characters"
  else if ∃ c ∈ cfg.hostname, c < 33 ∨ 126 < c then
    some "Hostname must be printable ASCII with no spaces"
  else none

/-! ## The text -/

def syslogDgramMax : Nat := 384

def appnameByte (c : UInt8) : UInt8 := if 33 ≤ c && c ≤ 126 then c else 95

def sanitizeAppname (outsz : Nat) (tag : List UInt8) : List UInt8 :=
  if tag = [] then strlcpy outsz (ascii "-") else (tag.take (outsz - 1)).map appnameByte

def msgByte (c : UInt8) : UInt8 := if c < 0x20 || c == 0x7f then 46 else c

def sanitizeMsg (msg : List UInt8) : List UInt8 := msg.map msgByte

/-- What `snprintf` is given, of a line as it was copied out. -/
def dgramText (cfg : SyslogCfg) (bootSeq seq : BitVec 32) (line : LogLine) : List UInt8 :=
  ascii "<" ++ decimal (cfg.facility.toNat * 8 + severityFromLetter line.level) ++ ascii ">1 - "
    ++ cfg.hostname ++ ascii " " ++ sanitizeAppname Web.logBufTagMax line.tag ++ ascii " "
    ++ decimal bootSeq.toNat ++ ascii " - "
    ++ (ascii "[timeQuality tzKnown=\"0\" isSynced=\"0\"]"
      ++ ascii "[aog@32473 up_ms=\"" ++ decimal line.tsMs.toNat
      ++ ascii "\" seq=\"" ++ decimal seq.toNat ++ ascii "\" boot=\"" ++ decimal bootSeq.toNat
      ++ ascii "\"]")
    ++ ascii " " ++ sanitizeMsg line.msg

/-- What `sendto` is given: `s_dgram`, up to the length that `snprintf` has returned or to the
    buffer's end. -/
def datagram (cfg : SyslogCfg) (bootSeq seq : BitVec 32) (line : LogLine) : List UInt8 :=
  let text := dgramText cfg bootSeq seq (copyOut line)
  let len := if syslogDgramMax ≤ text.length then syslogDgramMax - 1 else text.length
  (text.take (syslogDgramMax - 1)).take len

/-! ## The message that is meant -/

def timeQuality : SdElement :=
  ⟨ascii "timeQuality", [⟨ascii "tzKnown", ascii "0"⟩, ⟨ascii "isSynced", ascii "0"⟩]⟩

/-- `aog@32473`, which says what orders the lines. -/
def origin (bootSeq seq tsMs : BitVec 32) : SdElement :=
  ⟨ascii "aog@32473",
    [⟨ascii "up_ms", decimal tsMs.toNat⟩, ⟨ascii "seq", decimal seq.toNat⟩,
      ⟨ascii "boot", decimal bootSeq.toNat⟩]⟩

def meant (cfg : SyslogCfg) (bootSeq seq : BitVec 32) (line : LogLine) : SyslogMsg where
  pri := cfg.facility.toNat * 8 + severityFromLetter line.level
  version := 1
  timestamp := ascii "-"
  hostname := cfg.hostname
  appName := sanitizeAppname Web.logBufTagMax (copyOut line).tag
  procid := decimal bootSeq.toNat
  msgid := ascii "-"
  elements := [timeQuality, origin bootSeq seq line.tsMs]
  msg := some (sanitizeMsg (copyOut line).msg)

section

variable {cfg : SyslogCfg} {subnetIp subnetMask bootSeq seq : BitVec 32} {line : LogLine}
  {tag msg : List UInt8} {c : UInt8} {n outsz : Nat}

/-! ## Each field -/

/-- A check that finds nothing wrong has gone on to the next. -/
theorem check_eq_none {p : Prop} [Decidable p] {e : String} {rest : Option String} :
    (if p then some e else rest) = none ↔ ¬p ∧ rest = none := by
  split <;> simp [*]

theorem syslogCfg_fits (henabled : cfg.enabled = true)
    (h : syslogCfgValidate cfg subnetIp subnetMask = none) :
    cfg.facility.toNat ≤ 23 ∧ cfg.hostname.length ≤ 32 ∧ IsHeaderField 255 cfg.hostname := by
  unfold syslogCfgValidate at h
  simp only [henabled, Bool.not_true, Bool.false_eq_true, if_false, check_eq_none, not_or,
    not_exists, not_and] at h
  obtain ⟨-, -, -, -, -, -, hfacility, -, ⟨hnonempty, hlength⟩, hbytes, -⟩ := h
  have hlength : cfg.hostname.length ≤ 32 := Nat.le_of_not_lt hlength
  refine ⟨?_, hlength, fun hnil => hnonempty (by rw [hnil]; rfl), by omega, fun c hc => ?_⟩
  · exact UInt8.le_iff_toNat_le.mp (UInt8.not_lt.mp hfacility)
  · obtain ⟨hlo, hhi⟩ := hbytes c hc
    unfold isPrintUsAscii
    simp [UInt8.not_lt.mp hlo, UInt8.not_lt.mp hhi]

theorem severityFromLetter_le (letter : Char) : severityFromLetter letter ≤ 7 := by
  unfold severityFromLetter
  split <;> decide

theorem appnameByte_print (c : UInt8) : isPrintUsAscii (appnameByte c) = true := by
  unfold appnameByte
  split
  · rename_i hprint
    exact hprint
  · decide

theorem sanitizeAppname_ok (h : 1 < outsz) :
    IsHeaderField (outsz - 1) (sanitizeAppname outsz tag) := by
  unfold sanitizeAppname
  split
  · have hnil : strlcpy outsz (ascii "-") = [45] := List.take_of_length_le (by
      rw [show cString (ascii "-") = [45] by decide, List.length_singleton]
      omega)
    rw [hnil]
    exact (show IsHeaderField 1 [45] by decide).mono (Nat.le_sub_of_add_le h)
  · rename_i hne
    refine ⟨?_, ?_, ?_⟩
    · rw [ne_eq, List.map_eq_nil_iff, List.take_eq_nil_iff, not_or]
      exact ⟨by omega, hne⟩
    · rw [List.length_map]
      exact List.length_take_le _ _
    · exact List.forall_mem_map.mpr fun c _ => appnameByte_print c

theorem decimal_field (n : BitVec 32) : IsHeaderField 128 (decimal n.toNat) := by
  refine ⟨decimal_ne_nil, Nat.le_trans (decimal_length_u32 n) (by decide), fun c hc => ?_⟩
  have hdigit := digit_of_mem_decimal hc
  unfold isDigit at hdigit
  unfold isPrintUsAscii
  simp only [Bool.and_eq_true, decide_eq_true_eq, UInt8.le_iff_toNat_le] at hdigit ⊢
  exact ⟨Nat.le_trans (by decide) hdigit.1, Nat.le_trans hdigit.2 (by decide)⟩

theorem msgByte_low (h : c < 128) : msgByte c < 128 := by
  unfold msgByte
  split
  · decide
  · exact h

theorem msgByte_high (h : 128 ≤ c) : msgByte c = c := by
  have hge := UInt8.le_iff_toNat_le.mp h
  have hlt : ¬ c < 0x20 := fun hlt =>
    absurd (UInt8.lt_iff_toNat_lt.mp hlt) (Nat.not_lt.mpr (Nat.le_trans (by decide) hge))
  have hne : c ≠ 0x7f := by
    rintro rfl
    exact absurd hge (by decide)
  unfold msgByte
  rw [decide_eq_false hlt, beq_eq_false_iff_ne.mpr hne]
  rfl

theorem sanitizeMsg_visible : ∀ c ∈ sanitizeMsg msg, ¬(c < 0x20 ∨ c = 0x7f) := by
  intro c hc
  obtain ⟨d, -, rfl⟩ := List.mem_map.mp hc
  unfold msgByte
  split
  · decide
  · rename_i h
    simpa using h

/-! ## The whole -/

/-- Digits need no escape. -/
theorem decimal_escaped (n : Nat) : (decimal n).flatMap escapeByte = decimal n := by
  refine (List.flatMap_congr fun c hc => ?_).trans (List.flatMap_singleton' _)
  have hdigit := digit_of_mem_decimal hc
  unfold escapeByte
  rw [if_neg]
  rintro (rfl | rfl | rfl) <;> exact absurd hdigit (by decide)

theorem timeQuality_text :
    timeQuality.text = ascii "[timeQuality tzKnown=\"0\" isSynced=\"0\"]" := by
  decide

theorem origin_text (bootSeq seq tsMs : BitVec 32) :
    (origin bootSeq seq tsMs).text =
      ascii "[aog@32473 up_ms=\"" ++ decimal tsMs.toNat ++ ascii "\" seq=\"" ++ decimal seq.toNat
        ++ ascii "\" boot=\"" ++ decimal bootSeq.toNat ++ ascii "\"]" := by
  have hopen : ascii "[aog@32473 up_ms=\"" =
      91 :: (ascii "aog@32473" ++ 32 :: (ascii "up_ms" ++ [61, 34])) := by decide
  have hseq : ascii "\" seq=\"" = 34 :: 32 :: (ascii "seq" ++ [61, 34]) := by decide
  have hboot : ascii "\" boot=\"" = 34 :: 32 :: (ascii "boot" ++ [61, 34]) := by decide
  have hclose : ascii "\"]" = [34, 93] := by decide
  rw [hopen, hseq, hboot, hclose]
  simp only [origin, SdElement.text, SdParam.text, List.flatMap_cons, List.flatMap_nil,
    decimal_escaped, List.append_assoc, List.cons_append, List.nil_append]

theorem dgramText_eq (cfg : SyslogCfg) (bootSeq seq : BitVec 32) (line : LogLine) :
    dgramText cfg bootSeq seq (copyOut line) = (meant cfg bootSeq seq line).render := by
  have hopen : ascii "<" = [60] := by decide
  have hversion : ascii ">1 - " = 62 :: (decimal 1 ++ 32 :: (ascii "-" ++ [32])) := by decide
  have hspace : ascii " " = [32] := by decide
  have hmsgid : ascii " - " = 32 :: (ascii "-" ++ [32]) := by decide
  have hlevel : (copyOut line).level = line.level := rfl
  have hts : (copyOut line).tsMs = line.tsMs := rfl
  unfold dgramText
  rw [hopen, hversion, hspace, hmsgid, ← timeQuality_text, hlevel, hts]
  simp only [meant, SyslogMsg.render, structuredData, List.flatMap_cons, List.flatMap_nil,
    origin_text, msgTail, List.append_assoc, List.cons_append, List.nil_append]

/-- The worst case that the buffer's size was chosen for. -/
theorem dgramText_length (henabled : cfg.enabled = true)
    (h : syslogCfgValidate cfg subnetIp subnetMask = none) :
    (dgramText cfg bootSeq seq (copyOut line)).length ≤ 334 := by
  obtain ⟨hfacility, hhostname, -⟩ := syslogCfg_fits henabled h
  have hseverity := severityFromLetter_le (copyOut line).level
  have hpri : (decimal (cfg.facility.toNat * 8 + severityFromLetter (copyOut line).level)).length
      ≤ 3 := decimal_length (by decide) (by omega)
  have happname : (sanitizeAppname Web.logBufTagMax (copyOut line).tag).length ≤ 31 :=
    (sanitizeAppname_ok (by decide)).2.1
  have hboot := decimal_length_u32 bootSeq
  have hts := decimal_length_u32 (copyOut line).tsMs
  have hseq := decimal_length_u32 seq
  have hmsg : (sanitizeMsg (copyOut line).msg).length ≤ 143 := by
    unfold sanitizeMsg
    rw [List.length_map]
    exact (copyOut_length line).2
  have hopen : (ascii "<").length = 1 := ascii_ofList_length _
  have hversion : (ascii ">1 - ").length = 5 := ascii_ofList_length _
  have hspace : (ascii " ").length = 1 := ascii_ofList_length _
  have hmsgid : (ascii " - ").length = 3 := ascii_ofList_length _
  have hquality : (ascii "[timeQuality tzKnown=\"0\" isSynced=\"0\"]").length = 38 :=
    ascii_ofList_length _
  have horigin : (ascii "[aog@32473 up_ms=\"").length = 18 := ascii_ofList_length _
  have hseqName : (ascii "\" seq=\"").length = 7 := ascii_ofList_length _
  have hbootName : (ascii "\" boot=\"").length = 8 := ascii_ofList_length _
  have hclose : (ascii "\"]").length = 2 := ascii_ofList_length _
  unfold dgramText
  simp only [List.length_append]
  omega

theorem timeQuality_ok : timeQuality.Ok := by
  have hzero : IsUtf8 (ascii "0") := isUtf8_decimal 0
  have htzKnown : IsSdName (ascii "tzKnown") := by decide
  have hisSynced : IsSdName (ascii "isSynced") := by decide
  refine ⟨show IsSdName (ascii "timeQuality") by decide, ?_⟩
  exact List.forall_mem_cons.mpr ⟨⟨htzKnown, hzero⟩, List.forall_mem_cons.mpr
    ⟨⟨hisSynced, hzero⟩, List.forall_mem_nil _⟩⟩

theorem origin_ok (bootSeq seq tsMs : BitVec 32) : (origin bootSeq seq tsMs).Ok := by
  have hupMs : IsSdName (ascii "up_ms") := by decide
  have hseq : IsSdName (ascii "seq") := by decide
  have hboot : IsSdName (ascii "boot") := by decide
  refine ⟨show IsSdName (ascii "aog@32473") by decide, ?_⟩
  exact List.forall_mem_cons.mpr ⟨⟨hupMs, isUtf8_decimal _⟩, List.forall_mem_cons.mpr
    ⟨⟨hseq, isUtf8_decimal _⟩, List.forall_mem_cons.mpr
      ⟨⟨hboot, isUtf8_decimal _⟩, List.forall_mem_nil _⟩⟩⟩

theorem meant_ok (henabled : cfg.enabled = true)
    (h : syslogCfgValidate cfg subnetIp subnetMask = none) :
    (meant cfg bootSeq seq line).HeaderOk where
  pri := by
    obtain ⟨hfacility, -⟩ := syslogCfg_fits henabled h
    have hseverity := severityFromLetter_le line.level
    show cfg.facility.toNat * 8 + severityFromLetter line.level ≤ 191
    omega
  version := ⟨Nat.le_refl 1, show 1 ≤ 999 by decide⟩
  timestamp := .inl (show ascii "-" = [45] by decide)
  hostname := (syslogCfg_fits henabled h).2.2
  appName := (sanitizeAppname_ok (show 1 < Web.logBufTagMax by decide)).mono (by decide)
  procid := decimal_field bootSeq
  msgid := show IsHeaderField 32 (ascii "-") by decide
  elements := List.forall_mem_cons.mpr ⟨timeQuality_ok, List.forall_mem_cons.mpr
    ⟨origin_ok bootSeq seq line.tsMs, List.forall_mem_nil _⟩⟩

/-- The buffer takes the whole text. -/
theorem datagram_whole (bootSeq seq : BitVec 32) (line : LogLine) (henabled : cfg.enabled = true)
    (h : syslogCfgValidate cfg subnetIp subnetMask = none) :
    (dgramText cfg bootSeq seq (copyOut line)).length < syslogDgramMax ∧
      datagram cfg bootSeq seq line = dgramText cfg bootSeq seq (copyOut line) := by
  have hlt : (dgramText cfg bootSeq seq (copyOut line)).length < syslogDgramMax :=
    Nat.lt_of_le_of_lt (dgramText_length henabled h) (by decide)
  refine ⟨hlt, ?_⟩
  unfold datagram
  dsimp only
  rw [if_neg (Nat.not_le.mpr hlt), List.take_of_length_le (Nat.le_sub_one_of_lt hlt),
    List.take_length]

theorem datagram_derives_iff (bootSeq seq : BitVec 32) (line : LogLine)
    (henabled : cfg.enabled = true) (h : syslogCfgValidate cfg subnetIp subnetMask = none) :
    (∀ m, Rfc5424 (datagram cfg bootSeq seq line) m ↔ m = meant cfg bootSeq seq line) ↔
      IsMsg (copyOut line).msg := by
  rw [(datagram_whole bootSeq seq line henabled h).2, dgramText_eq,
    SyslogMsg.derives_iff (meant_ok henabled h)]
  have hmsg : IsMsg (sanitizeMsg (copyOut line).msg) ↔ IsMsg (copyOut line).msg :=
    isMsg_map (fun _ => msgByte_low) fun _ => msgByte_high
  simpa [meant] using hmsg

/-- **Every datagram is whole and has no control byte in its message**, and it derives the message
    that was meant, and no other, exactly where the line's message does not declare itself UTF-8
    falsely. -/
theorem datagram_parses (cfg : SyslogCfg) (subnetIp subnetMask bootSeq seq : BitVec 32)
    (line : LogLine) (henabled : cfg.enabled = true)
    (h : syslogCfgValidate cfg subnetIp subnetMask = none) :
    ((dgramText cfg bootSeq seq (copyOut line)).length < syslogDgramMax ∧
        datagram cfg bootSeq seq line = dgramText cfg bootSeq seq (copyOut line) ∧
        (∀ m, Rfc5424 (datagram cfg bootSeq seq line) m ↔ m = meant cfg bootSeq seq line) ∧
        ∀ msg ∈ (meant cfg bootSeq seq line).msg, ∀ c ∈ msg, ¬(c < 0x20 ∨ c = 0x7f)) ↔
      (bom <+: (copyOut line).msg → IsUtf8 ((copyOut line).msg.drop 3)) := by
  obtain ⟨hlt, heq⟩ := datagram_whole bootSeq seq line henabled h
  have hvisible : ∀ msg ∈ (meant cfg bootSeq seq line).msg, ∀ c ∈ msg, ¬(c < 0x20 ∨ c = 0x7f) := by
    rintro _ ⟨rfl⟩
    exact sanitizeMsg_visible
  have hderives := datagram_derives_iff bootSeq seq line henabled h
  constructor
  · rintro ⟨-, -, hall, -⟩
    exact hderives.mp hall
  · intro hmsg
    exact ⟨hlt, heq, hderives.mpr hmsg, hvisible⟩

/-- The collector 192.168.5.2 of the bridge 192.168.5.1, and the defaults. -/
def defaultCfg : SyslogCfg := ⟨true, 0x0205a8c0, 514, 23, 7, ascii "wt32-bridge-a1b2c3"⟩

theorem defaultCfg_valid : syslogCfgValidate defaultCfg 0x0105a8c0 0x00ffffff = none := by decide

theorem datagram_parses_linkUp :
    let line : LogLine := ⟨4711, 'I', ascii "eth", ascii "link up"⟩
    (dgramText defaultCfg 7 12 (copyOut line)).length < syslogDgramMax ∧
      datagram defaultCfg 7 12 line = dgramText defaultCfg 7 12 (copyOut line) ∧
      (∀ m, Rfc5424 (datagram defaultCfg 7 12 line) m ↔ m = meant defaultCfg 7 12 line) ∧
      ∀ msg ∈ (meant defaultCfg 7 12 line).msg, ∀ c ∈ msg, ¬(c < 0x20 ∨ c = 0x7f) := by
  refine (datagram_parses defaultCfg 0x0105a8c0 0x00ffffff 7 12 ⟨4711, 'I', ascii "eth",
    ascii "link up"⟩ rfl defaultCfg_valid).mpr fun hbom => absurd hbom ?_
  decide

/-- A line without a tag, whose message is a byte order mark and a byte that no UTF-8 has. -/
theorem datagram_parses_fails :
    ¬ ∀ (cfg : SyslogCfg) (subnetIp subnetMask bootSeq seq : BitVec 32) (line : LogLine),
      cfg.enabled = true → syslogCfgValidate cfg subnetIp subnetMask = none →
      (dgramText cfg bootSeq seq (copyOut line)).length < syslogDgramMax ∧
        datagram cfg bootSeq seq line = dgramText cfg bootSeq seq (copyOut line) ∧
        (∀ m, Rfc5424 (datagram cfg bootSeq seq line) m ↔ m = meant cfg bootSeq seq line) ∧
        ∀ msg ∈ (meant cfg bootSeq seq line).msg, ∀ c ∈ msg, ¬(c < 0x20 ∨ c = 0x7f) := by
  intro h
  obtain ⟨-, -, hall, -⟩ := h defaultCfg 0x0105a8c0 0x00ffffff 7 12
    ⟨4711, '?', [], [0xef, 0xbb, 0xbf, 0xff]⟩ rfl defaultCfg_valid
  have hmsg := (datagram_derives_iff _ _ _ rfl defaultCfg_valid).mp hall (by decide)
  have hutf8 : IsUtf8 [0xff] := hmsg
  exact absurd (isUtf8_singleton.mp hutf8) (by decide)

end

end Logs
end Wt32Router
