import Wt32Router.Web.LogPoll

/-!
# The text of a downloaded log

What `logs_download_get_handler` of `main/web_server.c` writes: two header blocks, a row for each
line of the ring, and a notice where lines are missing.
-/

namespace Wt32Router
namespace Web

open Lib (append_ascii_length ascii ascii_ofList_length decimal padLeft padRight)
open Logs (LogLine logBufLines)

/-! ## The header blocks -/

/-- `esp_reset_reason_t`. -/
inductive ResetReason where
  | poweron
  | ext
  | sw
  | panic
  | intWdt
  | taskWdt
  | wdt
  | deepsleep
  | brownout
  | sdio
  | other
deriving DecidableEq, Repr

def resetLogReasonName : ResetReason → String
  | .poweron => "power-on"
  | .ext => "external"
  | .sw => "software"
  | .panic => "panic"
  | .intWdt => "int-wdt"
  | .taskWdt => "task-wdt"
  | .wdt => "other-wdt"
  | .deepsleep => "deep-sleep"
  | .brownout => "brownout"
  | .sdio => "sdio"
  | .other => "unknown"

/-- `reset_intent_t`. -/
inductive ResetIntent where
  | unknown
  | ota
  | wifiSave
  | wanSave
  | console
  | factoryReset
deriving DecidableEq, Repr

def resetLogIntentName : ResetIntent → String
  | .ota => "ota"
  | .wifiSave => "wifi-save"
  | .wanSave => "wan-save"
  | .console => "console"
  | .factoryReset => "factory-reset"
  | .unknown => "unknown"

/-- `eth_link_status_t`. -/
structure EthLinkStatus where
  up : Bool
  speedMbit : BitVec 32
  fullDuplex : Bool
  flaps : BitVec 32
  sinceChangeS : BitVec 32

/-- What the header blocks report, besides the ring. `version` is an array of 32 bytes. -/
structure DownloadHeader where
  version : List UInt8
  version_le : version.length ≤ 31
  /-- the number of the boot, why it came about and what for, if they are known -/
  boot : Option (BitVec 32 × ResetReason × ResetIntent)
  uptimeS : BitVec 64
  eth : EthLinkStatus
  serverIp : BitVec 32
  port : BitVec 16
  syslog : SyslogStatus
  levels : LogLevels

/-- `esp_ip4addr_ntoa`, of an address in network byte order. -/
def ip4addrText (addr : BitVec 32) : List UInt8 :=
  decimal (addr.toNat % 256) ++ ascii "." ++ decimal (addr.toNat / 2 ^ 8 % 256) ++ ascii "."
    ++ decimal (addr.toNat / 2 ^ 16 % 256) ++ ascii "." ++ decimal (addr.toNat / 2 ^ 24)

namespace DownloadHeader

def bootText (h : DownloadHeader) : List UInt8 :=
  match h.boot with
  | some (bootSeq, reason, intent) =>
      ascii "boot            " ++ decimal bootSeq.toNat ++ ascii " ("
        ++ ascii (resetLogReasonName reason) ++ ascii ", intent "
        ++ ascii (resetLogIntentName intent) ++ ascii ")\n"
  | none => ascii "boot            unknown\n"

def uptimeText (h : DownloadHeader) : List UInt8 :=
  ascii "uptime          " ++ decimal h.uptimeS.toNat ++ ascii " s\nethernet        "
    ++ ascii (if h.eth.up then "up" else "down") ++ ascii (if h.eth.up then "" else " (no link)")
    ++ ascii "\n"

def linkText (h : DownloadHeader) : List UInt8 :=
  ascii "                " ++ decimal h.eth.speedMbit.toNat ++ ascii " Mbit, "
    ++ ascii (if h.eth.fullDuplex then "full" else "half") ++ ascii " duplex, "
    ++ decimal h.eth.flaps.toNat ++ ascii " flap(s), " ++ decimal h.eth.sinceChangeS.toNat
    ++ ascii " s in this state\n"

/-- The appends of the first block. -/
def first (h : DownloadHeader) : List (List UInt8) :=
  [ascii "wt32-bridge device log\n\nversion         " ++ h.version ++ ascii "\n", h.bootText,
    h.uptimeText] ++ if h.eth.up then [h.linkText] else []

def ringText (h : DownloadHeader) (oldest newest missed : BitVec 32) : List UInt8 :=
  ascii "log ring        " ++ decimal logBufLines ++ ascii " lines, holding "
    ++ decimal oldest.toNat ++ ascii ".." ++ decimal newest.toNat
    ++ ascii "\nlines lost      " ++ decimal missed.toNat
    ++ ascii " the capture hook could not store\ncapture level   "
    ++ ascii (logLevelName h.levels.capture) ++ ascii " (build maximum: "
    ++ ascii (logLevelName h.levels.build) ++ ascii ")\n"

def syslogText (h : DownloadHeader) : List UInt8 :=
  if h.syslog.enabled then
    ascii "syslog          enabled, " ++ ip4addrText h.serverIp ++ ascii ":"
      ++ decimal h.port.toNat ++ ascii ", " ++ decimal h.syslog.sent.toNat ++ ascii " sent, "
      ++ decimal h.syslog.agedOut.toNat ++ ascii " aged out, "
      ++ decimal h.syslog.sendFail.toNat ++ ascii " failed\n"
  else ascii "syslog          disabled\n"

def timestampsNote : List UInt8 :=
  ascii "timestamps      milliseconds since this boot started, deliberately, even\n"
    ++ ascii "                when the device does know the wall-clock time. There is no\n"
    ++ ascii "                RTC battery here, so a clock exists only while the WAN can\n"
    ++ ascii "                reach an NTP server - and a log whose lines are relative\n"
    ++ ascii "                for the first part of a boot and absolute afterwards is\n"
    ++ ascii "                harder to read than one that is consistently relative. The\n"
    ++ ascii "                reboot history at /resets IS dated where it can be.\n\n"

/-- The columns' names over the columns. -/
def columns : List UInt8 :=
  padLeft 6 (ascii "seq") ++ ascii "  " ++ padLeft 8 (ascii "ms") ++ ascii "  L  "
    ++ padRight 24 (ascii "tag") ++ ascii "  " ++ ascii "message" ++ ascii "\n"

/-- The appends of the second block, over the range of the ring. -/
def second (h : DownloadHeader) (oldest newest missed : BitVec 32) : List (List UInt8) :=
  [h.ringText oldest newest missed, h.syslogText, timestampsNote, columns]

end DownloadHeader

/-! ## The rows -/

/-- The notice in the place of `gap` lines. -/
def overwrittenText (gap : BitVec 32) : List UInt8 :=
  ascii "*** " ++ decimal gap.toNat
    ++ ascii " line(s) were overwritten while this file was being written ***\n"

/-- `LOGS_DL_LINE_FMT`, of a line as `log_buf_get_line` copies it out. -/
def rowText (seq : BitVec 32) (copy : LogLine) : List UInt8 :=
  padLeft 6 (decimal seq.toNat) ++ ascii "  " ++ padLeft 8 (decimal copy.tsMs.toNat)
    ++ ascii "  " ++ [UInt8.ofNat copy.level.toNat] ++ ascii "  "
    ++ padRight 24 (if copy.tag = [] then ascii "-" else copy.tag) ++ ascii "  " ++ copy.msg
    ++ ascii "\n"

section

variable (h : DownloadHeader) (seq gap : BitVec 32) (line : LogLine)

/-! ## Their lengths -/

theorem overwrittenText_length : (overwrittenText gap).length ≤ 78 := by
  have hgap := Lib.decimal_length_u32 gap
  have hstars : (ascii "*** ").length = 4 := ascii_ofList_length _
  have hmissed :
      (ascii " line(s) were overwritten while this file was being written ***\n").length = 64 :=
    ascii_ofList_length _
  unfold overwrittenText
  simp only [List.length_append]
  omega

theorem rowText_length : (rowText seq (copyOut line)).length ≤ 204 := by
  have hseq := Lib.decimal_length_u32 seq
  have hts := Lib.decimal_length_u32 (copyOut line).tsMs
  obtain ⟨htag, hmsg⟩ := copyOut_length line
  have hcolumn : (if (copyOut line).tag = [] then ascii "-" else (copyOut line).tag).length ≤
      31 := by
    split
    · decide
    · exact htag
  have hgap : (ascii "  ").length = 2 := ascii_ofList_length _
  have hend : (ascii "\n").length = 1 := ascii_ofList_length _
  unfold rowText
  simp only [List.length_append, List.length_singleton, Lib.padLeft_length, Lib.padRight_length]
  omega

theorem resetLogReasonName_length (r : ResetReason) :
    (ascii (resetLogReasonName r)).length ≤ 10 := by
  cases r <;> decide

theorem resetLogIntentName_length (i : ResetIntent) :
    (ascii (resetLogIntentName i)).length ≤ 13 := by
  cases i <;> decide

theorem ip4addrText_length (addr : BitVec 32) : (ip4addrText addr).length ≤ 15 := by
  have hbyte : ∀ n < 256, (decimal n).length ≤ 3 := fun n hn =>
    Lib.decimal_length (by decide) (Nat.lt_of_lt_of_le hn (by decide))
  have h₀ := hbyte (addr.toNat % 256) (by omega)
  have h₁ := hbyte (addr.toNat / 2 ^ 8 % 256) (by omega)
  have h₂ := hbyte (addr.toNat / 2 ^ 16 % 256) (by omega)
  have h₃ := hbyte (addr.toNat / 2 ^ 24) (by omega)
  have hdot : (ascii ".").length = 1 := ascii_ofList_length _
  unfold ip4addrText
  simp only [List.length_append]
  omega

theorem bootText_length : h.bootText.length ≤ 62 := by
  unfold DownloadHeader.bootText
  split
  · rename_i bootSeq reason intent _
    have hseq := Lib.decimal_length_u32 bootSeq
    have hreason := resetLogReasonName_length reason
    have hintent := resetLogIntentName_length intent
    have hboot : (ascii "boot            ").length = 16 := ascii_ofList_length _
    have hopen : (ascii " (").length = 2 := ascii_ofList_length _
    have hfor : (ascii ", intent ").length = 9 := ascii_ofList_length _
    have hclose : (ascii ")\n").length = 2 := ascii_ofList_length _
    simp only [List.length_append]
    omega
  · decide

theorem uptimeText_length : h.uptimeText.length ≤ 70 := by
  have huptime : (decimal h.uptimeS.toNat).length ≤ 20 :=
    Lib.decimal_length (by decide) (Nat.lt_of_lt_of_le h.uptimeS.isLt (by decide))
  have hup : ∀ up : Bool, (ascii (if up then "up" else "down")).length +
      (ascii (if up then "" else " (no link)")).length ≤ 14 := by decide
  have hlink := hup h.eth.up
  have hlabel : (ascii "uptime          ").length = 16 := ascii_ofList_length _
  have hethernet : (ascii " s\nethernet        ").length = 19 := ascii_ofList_length _
  have hend : (ascii "\n").length = 1 := ascii_ofList_length _
  unfold DownloadHeader.uptimeText
  simp only [List.length_append]
  omega

theorem linkText_length : h.linkText.length ≤ 95 := by
  have hspeed := Lib.decimal_length_u32 h.eth.speedMbit
  have hflaps := Lib.decimal_length_u32 h.eth.flaps
  have hsince := Lib.decimal_length_u32 h.eth.sinceChangeS
  have hfull : ∀ full : Bool, (ascii (if full then "full" else "half")).length = 4 := by decide
  have hduplex := hfull h.eth.fullDuplex
  have hindent : (ascii "                ").length = 16 := ascii_ofList_length _
  have hmbit : (ascii " Mbit, ").length = 7 := ascii_ofList_length _
  have hword : (ascii " duplex, ").length = 9 := ascii_ofList_length _
  have hcount : (ascii " flap(s), ").length = 10 := ascii_ofList_length _
  have hend : (ascii " s in this state\n").length = 17 := ascii_ofList_length _
  unfold DownloadHeader.linkText
  simp only [List.length_append]
  omega

theorem ringText_length (oldest newest missed : BitVec 32) :
    (h.ringText oldest newest missed).length ≤ 170 := by
  have holdest := Lib.decimal_length_u32 oldest
  have hnewest := Lib.decimal_length_u32 newest
  have hmissed := Lib.decimal_length_u32 missed
  have hcapture := logLevelName_length h.levels.capture
  have hbuild := logLevelName_length h.levels.build
  have hlines : (decimal logBufLines).length = 3 := by decide
  have hlabel : (ascii "log ring        ").length = 16 := ascii_ofList_length _
  have hholding : (ascii " lines, holding ").length = 16 := ascii_ofList_length _
  have hdots : (ascii "..").length = 2 := ascii_ofList_length _
  have hlost : (ascii "\nlines lost      ").length = 17 := ascii_ofList_length _
  have hhook : (ascii " the capture hook could not store\ncapture level   ").length = 50 :=
    ascii_ofList_length _
  have hmaximum : (ascii " (build maximum: ").length = 17 := ascii_ofList_length _
  have hclose : (ascii ")\n").length = 2 := ascii_ofList_length _
  unfold DownloadHeader.ringText
  simp only [List.length_append]
  omega

theorem syslogText_length : h.syslogText.length ≤ 110 := by
  have hip := ip4addrText_length h.serverIp
  have hport : (decimal h.port.toNat).length ≤ 5 :=
    Lib.decimal_length (by decide) (Nat.lt_of_lt_of_le h.port.isLt (by decide))
  have hsent := Lib.decimal_length_u32 h.syslog.sent
  have haged := Lib.decimal_length_u32 h.syslog.agedOut
  have hfailed := Lib.decimal_length_u32 h.syslog.sendFail
  have hlabel : (ascii "syslog          enabled, ").length = 25 := ascii_ofList_length _
  have hcolon : (ascii ":").length = 1 := ascii_ofList_length _
  have hcomma : (ascii ", ").length = 2 := ascii_ofList_length _
  have hsent' : (ascii " sent, ").length = 7 := ascii_ofList_length _
  have haged' : (ascii " aged out, ").length = 11 := ascii_ofList_length _
  have hfailed' : (ascii " failed\n").length = 8 := ascii_ofList_length _
  unfold DownloadHeader.syslogText
  split
  · simp only [List.length_append]
    omega
  · decide

theorem timestampsNote_length : DownloadHeader.timestampsNote.length = 512 :=
  append_ascii_length (append_ascii_length (append_ascii_length (append_ascii_length
    (append_ascii_length (append_ascii_length (ascii_ofList_length _) _) _) _) _) _) _

theorem columns_length : DownloadHeader.columns.length = 55 := by
  have hseq : (ascii "seq").length = 3 := ascii_ofList_length _
  have hms : (ascii "ms").length = 2 := ascii_ofList_length _
  have htag : (ascii "tag").length = 3 := ascii_ofList_length _
  have hmessage : (ascii "message").length = 7 := ascii_ofList_length _
  have hgap : (ascii "  ").length = 2 := ascii_ofList_length _
  have hlevel : (ascii "  L  ").length = 5 := ascii_ofList_length _
  have hend : (ascii "\n").length = 1 := ascii_ofList_length _
  unfold DownloadHeader.columns
  simp only [List.length_append, Lib.padLeft_length, Lib.padRight_length]
  omega

/-- The first block fits the buffer. -/
theorem first_length : h.first.flatten.length < 1024 := by
  have hversion := h.version_le
  have hboot := bootText_length h
  have huptime := uptimeText_length h
  have hlink := linkText_length h
  have htitle : (ascii "wt32-bridge device log\n\nversion         ").length = 40 :=
    ascii_ofList_length _
  have hend : (ascii "\n").length = 1 := ascii_ofList_length _
  unfold DownloadHeader.first
  split
  · simp only [List.flatten_append, List.flatten_cons, List.flatten_nil, List.length_append,
      List.length_nil]
    omega
  · simp only [List.append_nil, List.flatten_cons, List.flatten_nil, List.length_append]
    omega

theorem first_pos : 0 < h.first.flatten.length := by
  have htitle : (ascii "wt32-bridge device log\n\nversion         ").length = 40 :=
    ascii_ofList_length _
  unfold DownloadHeader.first
  simp only [List.cons_append, List.flatten_cons, List.length_append]
  omega

/-- The second block fits the buffer. -/
theorem second_length (oldest newest missed : BitVec 32) :
    (h.second oldest newest missed).flatten.length < 1024 := by
  have hring := ringText_length h oldest newest missed
  have hsyslog := syslogText_length h
  have hnote := timestampsNote_length
  have hcolumns := columns_length
  unfold DownloadHeader.second
  simp only [List.flatten_cons, List.flatten_nil, List.length_append, List.length_nil]
  omega

end

end Web
end Wt32Router
