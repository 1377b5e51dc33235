import Wt32Router.Lib.Versioned
import Wt32Router.Logs.Datagram

/-!
# The task that ships the log

`syslog_task`, `reload_config`, the functions of the socket and `br_netif_status_cb` of
`main/syslog.c`, with `syslog_cfg_get`, `syslog_cfg_generation` and the end of `syslog_cfg_save` of
`main/syslog_cfg.c`.

Four parties share the sender's statics: the task itself; whoever saves a configuration, which is a
web request or the console; the handler of the bridge's events, which unbinds the socket of a bridge
that goes down; and every task that logs. Each step here is one that no other party can come
between: a critical section of a mutex, a call of the stack, an assignment. What the stack answers
is the step's. Only the line that `settle_log` writes is left to the events that log.
-/

namespace Wt32Router
namespace Logs

open Lib (Versioned cString)

/-- The answers of the calls a step may make. -/
structure Io where
  /-- `socket` -/
  opens : Bool := true
  /-- `esp_netif_get_netif_impl_name` -/
  named : Bool := true
  /-- `setsockopt` -/
  optionSet : Bool := true
  outcome : Outcome := .sent
deriving DecidableEq, Repr

/-- Where the task stands. -/
inductive Pc where
  /-- in `ulTaskNotifyTake` -/
  | take
  /-- in front of the comparison of the generations -/
  | check
  /-- `reload_config`, in front of `syslog_cfg_get` -/
  | get
  /-- in front of `syslog_cfg_generation`, with `was_enabled` -/
  | look (wasEnabled : Bool)
  /-- in front of `s_dest` and the branch -/
  | choose (wasEnabled : Bool)
  /-- `open_socket` has its socket -/
  | bind (wasEnabled : Bool)
  /-- `open_socket`, in front of `s_bound =` -/
  | store (wasEnabled bound : Bool)
  /-- `close_socket`, in front of `bind_to_bridge` -/
  | unbind
  /-- in front of `close` -/
  | close
  /-- in front of `s_bound = false` -/
  | forget
  /-- in front of the condition of the drain -/
  | drain
  /-- in `drain_pass` -/
  | pass
  /-- in the delay between two passes -/
  | pace
  /-- in `settle_log` -/
  | settle
deriving DecidableEq, Repr

/-- A configuration as `syslog_cfg_save` keeps it, `name` being `syslog_cfg_default_hostname`. -/
def SyslogCfg.resolved (name : List UInt8) (cfg : SyslogCfg) : SyslogCfg :=
  if cString cfg.hostname = [] then { cfg with hostname := name } else cfg

/-- The statics of both files. -/
structure Sender where
  defaultHostname : List UInt8
  /-- `s_cache` -/
  cache : SyslogCfg
  /-- `s_generation` -/
  generation : BitVec 32
  /-- notifications that somebody has yet to give: behind a save, and behind the handler's store -/
  owed : Nat
  /-- the task's notification value -/
  notified : Nat
  /-- what the handler is about to store in `s_bound` -/
  handler : Option Bool
  /-- `s_sock`: `none` for -1, and of a socket whether it is bound to an interface -/
  sock : Option Bool
  /-- `s_bound` -/
  bound : Bool
  /-- `s_cfg` -/
  cfg : SyslogCfg
  /-- `s_seen_generation` -/
  seen : BitVec 32
  /-- `s_dest`: address and port -/
  dest : BitVec 32 × UInt16
  ship : Shipper
  /-- the first `reload_config` is over -/
  started : Bool
  pc : Pc

/-- `s_cfg` before the first `reload_config`. -/
def zeroCfg : SyslogCfg := ⟨false, 0, 0, 0, 0, []⟩

/-- The task has been made; `cache` is what the flash holds. -/
def Sender.boot (defaultHostname : List UInt8) (cache : SyslogCfg) : Sender :=
  { defaultHostname, cache, generation := 0, owed := 0, notified := 0, handler := none
    sock := none, bound := false, cfg := zeroCfg, seen := 0, dest := (0, 0), ship := .boot 0
    started := false, pc := .get }

/-- `bind_to_bridge`: what it returns, and the socket behind it. -/
def bindToBridge (bound : Bool) (io : Io) : Option Bool → Bool × Option Bool
  | none => (false, none)
  | some pinned =>
    if bound && !io.named then (false, some pinned)
    else if !io.optionSet then (false, some pinned)
    else (bound, some bound)

/-- The end of `reload_config`. -/
def Sender.reloaded (s : Sender) : Sender :=
  { s with started := true, pc := if s.started then .drain else .take }

/-- Behind `open_socket`. -/
def Sender.opened (s : Sender) (wasEnabled : Bool) : Sender :=
  if wasEnabled then s.reloaded
  else { s with ship := { s.ship with cursor := 0 } }.reloaded

/-- The branch of `reload_config`, and the start of what it calls. -/
def Sender.choose (s : Sender) (wasEnabled : Bool) (io : Io) : Sender :=
  if s.cfg.enabled ∧ s.cfg.serverIp ≠ 0 then
    if s.sock.isSome ∨ io.opens = false then s.opened wasEnabled
    else { s with sock := some false, pc := .bind wasEnabled }
  else if s.sock.isSome then { s with pc := .unbind }
  else s.reloaded

/-- One turn of `drain_pass`, and the loop around it. -/
def Sender.pass (s : Sender) (p : Pass) (io : Io) : Sender :=
  let ship := s.ship.turn p io.outcome
  { s with
    ship
    pc :=
      if ship.pass.isSome then .pass
      else if ship.linesRemain && !ship.passStalled then .pace
      else .settle }

/-- The task's next step. -/
def Sender.task (s : Sender) (io : Io) : Sender :=
  match s.pc with
  | .take => { s with notified := 0, pc := .check }
  | .check => { s with pc := if s.generation ≠ s.seen then .get else .drain }
  | .get =>
      { s with
        cfg := s.cache
        ship := { s.ship with minSeverity := s.cache.minSeverity }
        pc := .look s.cfg.enabled }
  | .look wasEnabled => { s with seen := s.generation, pc := .choose wasEnabled }
  | .choose wasEnabled => { s with dest := (s.cfg.serverIp, s.cfg.port) }.choose wasEnabled io
  | .bind wasEnabled =>
      { s with
        sock := (bindToBridge true io s.sock).2
        pc := .store wasEnabled (bindToBridge true io s.sock).1 }
  | .store wasEnabled bound => { s with bound }.opened wasEnabled
  | .unbind => { s with sock := (bindToBridge false io s.sock).2, pc := .close }
  | .close => { s with sock := none, pc := .forget }
  | .forget => { s with bound := false }.reloaded
  | .drain =>
      if s.cfg.enabled ∧ s.bound ∧ s.sock.isSome then
        { s with ship := s.ship.begin, pc := .pass }
      else { s with pc := .settle }
  | .pass => match s.ship.pass with
    | none => s
    | some p => s.pass p io
  | .pace => { s with ship := s.ship.begin, pc := .pass }
  | .settle => { s with pc := .take }

/-- What any party does next. -/
inductive SenderEvent where
  | task (io : Io)
  /-- the end of `syslog_cfg_save`, with the flash written -/
  | save (cfg : SyslogCfg)
  /-- a notification that was owed -/
  | give
  /-- another one -/
  | notify
  | log (line : LogLine)
  /-- `br_netif_status_cb`: `bind_to_bridge`, -/
  | status (up : Bool) (io : Io)
  /-- and the assignment behind it -/
  | statusStored

def Sender.step (s : Sender) : SenderEvent → Sender
  | .task io => s.task io
  | .save cfg =>
      { s with
        cache := cfg.resolved s.defaultHostname
        generation := s.generation + 1
        owed := s.owed + 1 }
  | .give => if s.owed = 0 then s else { s with owed := s.owed - 1, notified := s.notified + 1 }
  | .notify => { s with notified := s.notified + 1 }
  | .log line => { s with ship := { s.ship with ring := s.ship.ring.commit line } }
  | .status up io =>
      -- the event loop runs one handler at a time
      if s.handler.isSome then s
      else
        { s with
          handler := some (bindToBridge up io s.sock).1
          sock := (bindToBridge up io s.sock).2 }
  | .statusStored => match s.handler with
    | none => s
    | some bound => { s with bound, handler := none, owed := s.owed + 1 }

/-- The step hands a datagram to `sendto`. -/
def Sender.sends (s : Sender) : SenderEvent → Bool
  | .task io => s.pc == .pass && match s.ship.pass with
    | none => false
    | some p => p.more && match s.ship.ring.getLine p.seq with
      | none => false
      | some line =>
        decide (severityFromLetter line.level ≤ s.ship.minSeverity.toNat) && io.outcome != .unframed
  | _ => false

/-- The configuration, and the task's copy of it. -/
def Sender.versioned (s : Sender) : Versioned SyslogCfg 32 := ⟨s.cache, s.generation, s.cfg, s.seen⟩

/-- What a step is to the configuration. -/
def Sender.op (s : Sender) : SenderEvent → Option (Versioned.Op SyslogCfg)
  | .save cfg => some (.put (cfg.resolved s.defaultHostname))
  | .task _ => match s.pc with
    | .get => some .copy
    | .look _ => some .look
    | _ => none
  | _ => none

end Logs
end Wt32Router
