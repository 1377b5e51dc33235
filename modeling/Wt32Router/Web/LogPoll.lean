import Mathlib.Algebra.GroupWithZero.Nat
import Wt32Router.Lib.Bytes
import Wt32Router.Lib.Runs
import Wt32Router.Logs.Ring
import Wt32Router.Web.Resp

/-!
# Polling the log

`logs_get_handler` of `main/web_server.c` answers one request of a reader: the lines above the
number the reader sends, as many as the buffer takes, and the number to send next. It takes the
ring's lock for each line alone, so lines come in while it reads, and what it reads next may be
gone. A `turn` is one pass of its loop, or its way out.

A batch keeps the list of the entries it has written beside their text. The handler has no such
list: `Batch.Ok.resp` says that the text is the text of the list.
-/

namespace Wt32Router
namespace Web

open Lib (Along ascii decimal signedDecimal commaSeparated strlcpy strtoul)
open Logs (LogLine Ring)

def logsRespSize : Nat := 4096

/-- `LOGS_TRAILER_MAX`. -/
def logsTrailerMax : Nat := 320

/-- `LOGS_GAP_MAX`. -/
def logsGapMax : Nat := 32

def logBufTagMax : Nat := 32

def logBufMsgMax : Nat := 144

/-- `esp_log_level_t`. -/
inductive EspLogLevel where
  | none
  | error
  | warn
  | info
  | debug
  | verbose
  | other
deriving DecidableEq, Repr

def logLevelName : EspLogLevel → String
  | .none => "none"
  | .error => "error"
  | .warn => "warn"
  | .info => "info"
  | .debug => "debug"
  | .verbose => "verbose"
  | .other => "unknown"

theorem logLevelName_length (l : EspLogLevel) : (ascii (logLevelName l)).length ≤ 7 := by
  cases l <;> decide

/-- The levels of the trailer: captured, on the serial console, and kept by the build. -/
structure LogLevels where
  capture : EspLogLevel
  serial : EspLogLevel
  build : EspLogLevel
deriving DecidableEq, Repr

/-- The part of `syslog_status_t` that a poll reports. -/
structure SyslogStatus where
  enabled : Bool
  sent : BitVec 32
  agedOut : BitVec 32
  sendFail : BitVec 32
  lastErrno : BitVec 32
  backlog : BitVec 32
deriving DecidableEq, Repr

/-! ## Entries -/

/-- An element of `lines`: a run of lost lines, or a line under its number. -/
inductive Entry where
  | gap (n : BitVec 32)
  | line (seq : BitVec 32) (line : LogLine)
deriving DecidableEq, Repr

/-- The line as `log_buf_get_line` copies it out. -/
def copyOut (line : LogLine) : LogLine :=
  { line with tag := strlcpy logBufTagMax line.tag, msg := strlcpy logBufMsgMax line.msg }

theorem copyOut_length (line : LogLine) :
    (copyOut line).tag.length ≤ 31 ∧ (copyOut line).msg.length ≤ 143 :=
  ⟨List.length_take_le _ _, List.length_take_le _ _⟩

def gapText (n : BitVec 32) : List UInt8 := ascii "\x7b\"gap\":" ++ decimal n.toNat ++ ascii "\x7d"

/-- An entry up to the tag. -/
def lineHead (seq : BitVec 32) (line : LogLine) : List UInt8 :=
  ascii "\x7b\"n\":" ++ decimal seq.toNat ++ ascii ",\"l\":\"" ++ [UInt8.ofNat line.level.toNat]
    ++ ascii "\",\"t\":" ++ decimal line.tsMs.toNat ++ ascii ",\"g\":\""

def Entry.text : Entry → List UInt8
  | .gap n => gapText n
  | .line seq copy =>
      lineHead seq copy ++ escaped copy.tag ++ ascii "\",\"m\":\"" ++ escaped copy.msg
        ++ ascii "\"\x7d"

def Entry.number : Entry → Option Nat
  | .gap _ => none
  | .line seq _ => some seq.toNat

def Entry.skipped : Entry → Nat
  | .gap n => n.toNat
  | .line _ _ => 0

/-- The numbers of the lines among the entries. -/
def numbers (es : List Entry) : List Nat := es.filterMap Entry.number

/-- The lines the gaps among the entries stand for. -/
def gaps (es : List Entry) : Nat := (es.map Entry.skipped).sum

/-! ## The handler -/

def boolText (b : Bool) : List UInt8 := ascii (if b then "true" else "false")

def linesHead : List UInt8 := ascii "\x7b\"lines\":["

def trailer (seq lost missed : BitVec 32) (more restarted : Bool) (levels : LogLevels) :
    List UInt8 :=
  ascii "],\"seq\":" ++ decimal seq.toNat ++ ascii ",\"lost\":" ++ decimal lost.toNat
    ++ ascii ",\"missed\":" ++ decimal missed.toNat ++ ascii ",\"more\":" ++ boolText more
    ++ ascii ",\"restarted\":" ++ boolText restarted
    ++ ascii ",\"level\":\"" ++ ascii (logLevelName levels.capture)
    ++ ascii "\",\"serial_level\":\"" ++ ascii (logLevelName levels.serial)
    ++ ascii "\",\"max_level\":\"" ++ ascii (logLevelName levels.build) ++ ascii "\""

def syslogTrailer (st : SyslogStatus) : List UInt8 :=
  ascii ",\"syslog_enabled\":" ++ boolText st.enabled
    ++ ascii ",\"syslog_sent\":" ++ decimal st.sent.toNat
    ++ ascii ",\"syslog_aged\":" ++ decimal st.agedOut.toNat
    ++ ascii ",\"syslog_failed\":" ++ decimal st.sendFail.toNat
    ++ ascii ",\"syslog_errno\":" ++ signedDecimal st.lastErrno.toInt
    ++ ascii ",\"syslog_backlog\":" ++ decimal st.backlog.toNat

/-- The variables of `logs_get_handler` in its loop, and the entries written so far. -/
structure Batch where
  since : BitVec 32
  newest : BitVec 32
  missed : BitVec 32
  restarted : Bool
  next : BitVec 32
  lost : BitVec 32
  syslog : SyslogStatus
  resp : Resp
  seq : BitVec 32
  emitted : Nat
  gap : BitVec 32
  entries : List Entry
deriving DecidableEq, Repr

/-- What a request is answered with. `body` is what is sent, the other fields are its values. -/
structure Response where
  since : BitVec 32
  newest : BitVec 32
  entries : List Entry
  seq : BitVec 32
  lost : BitVec 32
  missed : BitVec 32
  more : Bool
  restarted : Bool
  levels : LogLevels
  syslog : SyslogStatus
  body : Option (List UInt8)
deriving DecidableEq, Repr

/-- The handler up to its loop. -/
def Batch.start (ring : Ring) (since : BitVec 32) (syslog : SyslogStatus) : Batch :=
  let (oldest, newest, missed) := ring.getRange
  let restarted := decide (newest < since)
  let next := if restarted then oldest else since + 1
  let late := decide (next < oldest)
  { since, newest, missed, restarted, syslog
    next := if late then oldest else next
    lost := if late then (if since = 0 then 0 else oldest - next) else 0
    resp := respAppend logsRespSize (some []) linesHead
    seq := if late then oldest else next
    emitted := 0
    gap := 0
    entries := [] }

/-- The bytes reserved for a line. -/
def needed (line : LogLine) : Nat := 64 + 6 * line.tag.length + 6 * line.msg.length

/-- With `line` and what may follow it, the buffer might not do. -/
def Batch.full (b : Batch) (line : LogLine) : Bool :=
  decide (logsRespSize ≤
    b.resp.off logsRespSize + needed line + 2 * logsGapMax + logsTrailerMax)

def Batch.comma (b : Batch) : List UInt8 := if b.emitted = 0 then [] else [44]

/-- A line overwritten since the range was read. -/
def Batch.skip (b : Batch) : Batch := { b with gap := b.gap + 1, seq := b.seq + 1 }

def Batch.putGap (b : Batch) : Batch :=
  if 0 < b.gap then
    { b with
      resp := respAppend logsRespSize b.resp (b.comma ++ gapText b.gap)
      emitted := b.emitted + 1
      gap := 0
      entries := b.entries ++ [Entry.gap b.gap] }
  else b

def Batch.putLine (b : Batch) (line : LogLine) : Batch :=
  let resp := respAppend logsRespSize b.resp (b.comma ++ lineHead b.seq line)
  let resp := jsonAppendEscaped logsRespSize resp line.tag
  let resp := respAppend logsRespSize resp (ascii "\",\"m\":\"")
  let resp := jsonAppendEscaped logsRespSize resp line.msg
  let resp := respAppend logsRespSize resp (ascii "\"\x7d")
  { b with
    resp
    seq := b.seq + 1
    emitted := b.emitted + 1
    entries := b.entries ++ [Entry.line b.seq line] }

section

variable {b : Batch} {line : LogLine}

@[simp] theorem putLine_since : (b.putLine line).since = b.since := rfl
@[simp] theorem putLine_newest : (b.putLine line).newest = b.newest := rfl
@[simp] theorem putLine_next : (b.putLine line).next = b.next := rfl
@[simp] theorem putLine_lost : (b.putLine line).lost = b.lost := rfl
@[simp] theorem putLine_seq : (b.putLine line).seq = b.seq + 1 := rfl
@[simp] theorem putLine_gap : (b.putLine line).gap = b.gap := rfl
@[simp] theorem putLine_emitted : (b.putLine line).emitted = b.emitted + 1 := rfl
@[simp] theorem putLine_entries :
    (b.putLine line).entries = b.entries ++ [Entry.line b.seq line] := rfl

@[simp] theorem skip_seq : b.skip.seq = b.seq + 1 := rfl
@[simp] theorem skip_gap : b.skip.gap = b.gap + 1 := rfl

@[simp] theorem putGap_seq : b.putGap.seq = b.seq := by
  unfold Batch.putGap
  split <;> rfl

@[simp] theorem putGap_newest : b.putGap.newest = b.newest := by
  unfold Batch.putGap
  split <;> rfl

end

/-- The handler after its loop. -/
def Batch.finish (b : Batch) (levels : LogLevels) : Response :=
  let last := b.putGap
  let more := decide (b.seq ≤ b.newest)
  let resp := respAppend logsRespSize last.resp
    (trailer (b.seq - 1) b.lost b.missed more b.restarted levels)
  let resp := respAppend logsRespSize resp (syslogTrailer b.syslog)
  let resp := respAppend logsRespSize resp (ascii "\x7d")
  { since := b.since, newest := b.newest, missed := b.missed, restarted := b.restarted
    entries := last.entries
    seq := b.seq - 1
    lost := b.lost
    more, levels
    syslog := b.syslog
    body := respSendJson logsRespSize resp }

theorem finish_since (b : Batch) (levels : LogLevels) : (b.finish levels).since = b.since := rfl

theorem finish_lost (b : Batch) (levels : LogLevels) : (b.finish levels).lost = b.lost := rfl

/-- One pass of the loop, with the ring as it is then, or the way out of it. -/
def Batch.turn (b : Batch) (ring : Ring) (levels : LogLevels) : Batch ⊕ Response :=
  if b.seq ≤ b.newest then
    match ring.getLine b.seq with
    | none => .inl b.skip
    | some line =>
        if b.full (copyOut line) then .inr (b.finish levels)
        else .inl (b.putGap.putLine (copyOut line))
  else .inr (b.finish levels)

/-- The text of a response, from its values. -/
def Response.text (r : Response) : List UInt8 :=
  linesHead ++ commaSeparated (r.entries.map Entry.text)
    ++ trailer r.seq r.lost r.missed r.more r.restarted r.levels
    ++ syslogTrailer r.syslog ++ ascii "\x7d"

/-! ## A reader and its chain of requests -/

/-- The ring, the number one reader sends next, its request if one is being answered, and the
    answers it has had, the last one last. -/
structure LogReader where
  ring : Ring
  cursor : BitVec 32
  batch : Option Batch
  answers : List Response

inductive LogEvent where
  /-- A line is stored. -/
  | commit (line : LogLine)
  /-- A line cannot be stored. -/
  | miss
  /-- The reader sends the number it has. -/
  | request (syslog : SyslogStatus)
  /-- The handler takes a turn. -/
  | turn (levels : LogLevels)
deriving DecidableEq, Repr

def LogReader.start (ring : Ring) (since : BitVec 32) : LogReader := ⟨ring, since, none, []⟩

def LogReader.step (s : LogReader) : LogEvent → LogReader
  | .commit line => { s with ring := s.ring.commit line }
  | .miss => { s with ring := { s.ring with missed := s.ring.missed + 1 } }
  | .request syslog =>
      match s.batch with
      | none => { s with batch := some (.start s.ring (strtoul (decimal s.cursor.toNat)) syslog) }
      -- the server has one worker: a request waits for the one before it
      | some _ => s
  | .turn levels =>
      match s.batch with
      | none => s
      | some b =>
          match b.turn s.ring levels with
          | .inl b => { s with batch := some b }
          | .inr r => { s with batch := none, cursor := r.seq, answers := s.answers ++ [r] }

end Web
end Wt32Router
