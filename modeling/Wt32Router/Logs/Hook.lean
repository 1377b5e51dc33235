import Mathlib.Data.List.DropRight
import Wt32Router.Lib.Ascii
import Wt32Router.Logs.Ring

/-!
# The hook behind the log

`main/log_buf.c` puts a line together from the calls of its hook. A call brings a piece of text, a
line may take several, and several tasks call. Each call holds `s_mutex` from the formatting to the
end, so a run is a list of calls, or it cannot have it and stores nothing.

`log_vprintf` prints a call's text on the serial console where the level of its line is not above
the console's. `s_mutex` exists when the hook is installed, so its absence is not modelled here; nor
is the task that is woken for a new line.
-/

namespace Wt32Router
namespace Logs

open Lib (ascii cString scanNumber strchr strlcpy strtoul)

def logBufTagMax : Nat := 32

def logBufMsgMax : Nat := 144

/-- `sizeof(s_staging)`, and of `s_pending`. -/
def stagingSize : Nat := 256

/-- `esp_log_level_t`. -/
inductive Level where
  | none
  | error
  | warn
  | info
  | debug
  | verbose
deriving DecidableEq, Repr

def Level.toNat : Level → Nat
  | .none => 0
  | .error => 1
  | .warn => 2
  | .info => 3
  | .debug => 4
  | .verbose => 5

instance : LE Level := ⟨fun l m => l.toNat ≤ m.toNat⟩

instance (l m : Level) : Decidable (l ≤ m) := inferInstanceAs (Decidable (l.toNat ≤ m.toNat))

/-! ## Text -/

/-- `strip_ansi`, inside of a sequence and outside. A sequence runs to its first byte from `@` to
    `~`. -/
def stripLoop : Bool → List UInt8 → List UInt8
  | _, [] => []
  | true, c :: s => if 64 ≤ c ∧ c ≤ 126 then stripLoop false s else stripLoop true s
  | false, 27 :: 91 :: s => stripLoop true s
  | false, c :: s => c :: stripLoop false s

def stripAnsi (s : List UInt8) : List UInt8 := stripLoop false s

def trimTrailing (s : List UInt8) : List UInt8 := s.rdropWhile (· = 32)

/-- `match_prefix`: the letter, the timestamp, and the text behind them. -/
def matchPrefix : List UInt8 → Option (UInt8 × BitVec 32 × List UInt8)
  | letter :: 32 :: 40 :: rest =>
      if letter ∈ ascii "EWIDV" then
        match (match scanNumber rest with | some (_, _, tail) => tail | none => rest) with
        | 41 :: 32 :: tail => some (letter, strtoul rest, tail)
        | _ => none
      else none
  | _ => none

def levelFromLetter (letter : UInt8) : Level :=
  if letter = 69 then .error
  else if letter = 87 then .warn
  else if letter = 73 then .info
  else if letter = 68 then .debug
  else if letter = 86 then .verbose
  else .error

/-- The level of a line that the text opens. -/
def fragmentLevel (fragment : List UInt8) : Level :=
  match matchPrefix fragment with
  | some (letter, _, _) => levelFromLetter letter
  | none => .error

/-- The tag, and the text behind it. -/
def splitTag (rest : List UInt8) : List UInt8 × List UInt8 :=
  match strchr 58 rest with
  | some (_ :: behind) =>
      let tag := rest.takeWhile (· ≠ 58)
      if tag.length < logBufTagMax then
        (tag, match behind with | 32 :: tail => tail | tail => tail)
      else ([], rest)
  | _ => ([], rest)

def parseLine (line : List UInt8) : LogLine :=
  match matchPrefix line with
  | none => { level := '?', tsMs := 0, tag := [], msg := strlcpy logBufMsgMax line }
  | some (letter, ts, rest) =>
      { level := Char.ofNat letter.toNat, tsMs := ts, tag := (splitTag rest).1
        msg := strlcpy logBufMsgMax (splitTag rest).2 }

/-! ## The hook -/

/-- The statics of the hook, for tasks `T`. `pending` is the first `s_pending_len` bytes of
    `s_pending`. -/
structure LogBuf (T : Type) where
  ring : Ring
  pending : List UInt8
  pendingTask : Option T
  pendingLevel : Level
  serialLevel : Level

/-- A call: who makes it, what its format and arguments make, and whether it has the lock. -/
structure Call (T : Type) where
  task : T
  text : List UInt8
  locked : Bool
deriving DecidableEq, Repr

variable {T : Type} [DecidableEq T]

/-- The text that a call brings, as it stands in `s_staging`. -/
def Call.fragment (c : Call T) : List UInt8 := stripAnsi (cString (c.text.take (stagingSize - 1)))

namespace LogBuf

def start (serialLevel : Level) : LogBuf T :=
  { ring := .start, pending := [], pendingTask := none, pendingLevel := .error, serialLevel }

def commitPending (s : LogBuf T) : LogBuf T :=
  { s with
    ring :=
      if trimTrailing s.pending = [] then s.ring
      else s.ring.commit (parseLine (trimTrailing s.pending))
    pending := [] }

def pendingPutc (s : LogBuf T) (c : UInt8) : LogBuf T :=
  let s := if stagingSize ≤ s.pending.length + 1 then s.commitPending else s
  { s with pending := s.pending ++ [c] }

/-- The walk over the text. A newline is the last one where none is behind it. -/
def walk (s : LogBuf T) : List UInt8 → LogBuf T
  | [] => s
  | c :: rest =>
      if c = 10 ∧ 10 ∉ rest then walk s.commitPending rest
      else walk (s.pendingPutc (if c = 10 ∨ c = 13 then 32 else c)) rest

/-- The line before is closed where another task calls or a prefix opens a line. -/
def interrupt (s : LogBuf T) (task : T) (opensLine : Bool) : LogBuf T :=
  if s.pending ≠ [] ∧ (some task ≠ s.pendingTask ∨ opensLine) then s.commitPending else s

/-- Where no line is pending, the text opens one. -/
def openLine (s : LogBuf T) (task : T) (fragment : List UInt8) : LogBuf T :=
  if s.pending = [] then
    { s with pendingTask := some task, pendingLevel := fragmentLevel fragment }
  else s

/-- `capture` up to its walk over the text. -/
def begin (s : LogBuf T) (task : T) (fragment : List UInt8) : LogBuf T :=
  (s.interrupt task (matchPrefix fragment).isSome).openLine task fragment

/-- `capture`: the level of the line that the text belongs to. -/
def capture (s : LogBuf T) (c : Call T) : LogBuf T × Level :=
  if !c.locked then ({ s with ring := { s.ring with missed := s.ring.missed + 1 } }, .error)
  else
    let s := s.begin c.task c.fragment
    (s.walk c.fragment, s.pendingLevel)

/-- `log_vprintf`, and whether it prints. -/
def logVprintf (s : LogBuf T) (c : Call T) : LogBuf T × Bool :=
  let r := s.capture c
  (r.1, r.2 ≤ s.serialLevel)

def step (s : LogBuf T) (c : Call T) : LogBuf T := (s.logVprintf c).1

end LogBuf

end Logs
end Wt32Router
