import Wt32Router.Logs.Ring

/-!
# `drain_pass`

`main/syslog.c` ships the ring of log lines, at most 16 datagrams to a pass. The ring may grow
between any two lines of a pass, so a pass is not one step: it opens with the range read and
takes its loop one turn at a time.

What `sendto` answers is the event's. The text of a datagram is not modelled here, only that
framing it can fail; nor are `s_last_errno` and the sender's reports on itself, which no
decision of the loop reads.
-/

namespace Wt32Router
namespace Logs

def syslogBurstMax : Nat := 16

def syslogStallMax : BitVec 32 := 3

/-- RFC 5424 severities of the ring's level letters. -/
def severityFromLetter : Char → Nat
  | 'E' => 3
  | 'W' => 4
  | 'I' => 6
  | 'D' => 7
  | 'V' => 7
  | _ => 5

/-- The loop's variables. -/
structure Pass where
  seq : BitVec 32
  newest : BitVec 32
  budget : Nat
deriving DecidableEq, Repr

/-- The ring, and the statics of the task that ships it. `pass` is `none` between two calls. -/
structure Shipper where
  ring : Ring
  cursor : BitVec 32
  sent : BitVec 32
  filtered : BitVec 32
  agedOut : BitVec 32
  sendFail : BitVec 32
  stalls : BitVec 32
  lastSendFailed : Bool
  passStalled : Bool
  minSeverity : UInt8
  pass : Option Pass
  /-- what the last call returned -/
  linesRemain : Bool

def Shipper.boot (minSeverity : UInt8) : Shipper :=
  { ring := .start, cursor := 0, sent := 0, filtered := 0, agedOut := 0, sendFail := 0
    stalls := 0, lastSendFailed := false, passStalled := false, minSeverity, pass := none
    linesRemain := false }

/-- How a line that passed the filter fared: `snprintf` failed, or what `sendto` returned. -/
inductive Outcome where
  | unframed
  | sent
  /-- `ENOMEM` or `ENOBUFS` -/
  | noBuffers
  | failed
deriving DecidableEq, Repr

inductive Event where
  | log (line : LogLine)
  /-- `drain_pass` up to its loop; the task clears `s_pass_stalled` before -/
  | begin
  /-- one turn of the loop, or its exit -/
  | turn (o : Outcome)

/-- `oldest` of `log_buf_get_range`. -/
def Shipper.oldest (s : Shipper) : BitVec 32 := s.ring.getRange.1

/-- Lines left the ring before this pass could send them, and they are counted. -/
def Shipper.overrun (s : Shipper) : Bool := s.cursor + 1 < s.oldest && s.cursor != 0

def Shipper.begin (s : Shipper) : Shipper :=
  let next := s.cursor + 1
  { s with
    agedOut := if s.overrun then s.agedOut + (s.oldest - next) else s.agedOut
    passStalled := false
    pass := some
      { seq := if next < s.oldest then s.oldest else next
        newest := s.ring.getRange.2.1
        budget := syslogBurstMax } }

def Pass.more (p : Pass) : Bool := p.seq ≤ p.newest && 0 < p.budget

/-- `s_cursor = seq`, and the next turn. -/
def Shipper.past (s : Shipper) (p : Pass) (budget : Nat) : Shipper :=
  { s with cursor := p.seq, pass := some { p with seq := p.seq + 1, budget } }

/-- `sendto` has returned a negative number. -/
def Shipper.noteFailure (s : Shipper) : Shipper :=
  { s with sendFail := s.sendFail + 1, lastSendFailed := true }

def Shipper.finish (s : Shipper) (p : Pass) : Shipper :=
  { s with pass := none, linesRemain := s.cursor < p.newest }

/-- Out of buffers: `s_cursor` stays put. -/
def Shipper.stall (s : Shipper) (p : Pass) : Shipper :=
  { s with stalls := s.stalls + 1, passStalled := true }.finish p

/-- The loop's body. -/
def Shipper.body (s : Shipper) (p : Pass) (o : Outcome) : Shipper :=
  match s.ring.getLine p.seq with
  | none => { s with agedOut := s.agedOut + 1 }.past p p.budget
  | some line =>
    if s.minSeverity.toNat < severityFromLetter line.level then
      { s with filtered := s.filtered + 1 }.past p p.budget
    else match o with
    | .unframed => s.past p p.budget
    | .sent =>
      { s with sent := s.sent + 1, stalls := 0, lastSendFailed := false }.past p (p.budget - 1)
    | .noBuffers =>
      if s.stalls < syslogStallMax then s.noteFailure.stall p
      else s.noteFailure.past p (p.budget - 1)
    | .failed => s.noteFailure.past p (p.budget - 1)

def Shipper.turn (s : Shipper) (p : Pass) (o : Outcome) : Shipper :=
  if p.more then s.body p o else s.finish p

def Shipper.step (s : Shipper) : Event → Shipper
  | .log line => { s with ring := s.ring.commit line }
  | .begin => if s.pass.isNone then s.begin else s
  | .turn o => match s.pass with
    | none => s
    | some p => s.turn p o

end Logs
end Wt32Router
