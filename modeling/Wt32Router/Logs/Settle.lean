import Mathlib.Data.List.Chain
import Mathlib.Data.List.Induction
import Wt32Router.Lib.Throttle
import Wt32Router.Logs.Datagram
import Wt32Router.Logs.Hook
import Wt32Router.Web.DownloadText

/-!
# What the sender says about itself

`current_state` and `settle_log` of `main/syslog.c`. The task that ships the log logs too, and its
own lines are shipped like any other: once a pass it says what state it is in, if that is not what
it said last and the last time is a minute ago.

> **`states_settled`**: over any passes, its lines are a minute apart, each names another state
> than the one before and is short enough to be shipped whole, and the passes that found a state
> of which it had yet to tell are all counted.

> **`settled_or_recent`**: behind each pass the last line names the state, or is less than a minute
> old.

The lines call what they count "state changes". They are passes: a state that comes once and stays
is counted with every pass until it is told, one that comes and goes between two passes never.
-/

namespace Wt32Router
namespace Logs

open Lib (Throttle ascii cString decimal decimal_length_u32 signedDecimal signedDecimal_length_i32
  ascii_ofList_length pdMsToTicks pdMsToTicks_seconds)
open Lib.Throttle (tickAt)
open Web (ip4addrText ip4addrText_length)

/-- `SYSLOG_LOG_MIN_INTERVAL_MS`. -/
def syslogLogMinIntervalMs : Nat := 60000

/-- `syslog_state_t`. -/
inductive SyslogState where
  | off
  | waiting
  | shipping
  | failing
deriving DecidableEq, Repr

/-- What the end of a pass finds: the tick, the statics of the sender, and `log_buf_get_range`. -/
structure Found where
  tick : Nat
  cfg : SyslogCfg
  bound : Bool
  sock : Int
  lastSendFailed : Bool
  lastErrno : BitVec 32
  sendFail : BitVec 32
  cursor : BitVec 32
  newest : BitVec 32

/-- `current_state`. -/
def Found.currentState (f : Found) : SyslogState :=
  if !f.cfg.enabled then .off
  else if !f.bound ∨ f.sock < 0 then .waiting
  else if f.lastSendFailed then .failing
  else .shipping

/-- `s_logged_state`, `s_last_log_tick`, `s_ever_logged` and `s_suppressed`. -/
structure Settle where
  loggedState : SyslogState
  lastLogTick : BitVec 32
  everLogged : Bool
  suppressed : BitVec 32
deriving DecidableEq, Repr

def Settle.boot : Settle := ⟨.off, 0, false, 0⟩

/-- A line: the tick it is written at, what it counts, and the state it names. -/
structure StateLine where
  tick : Nat
  also : BitVec 32
  state : SyslogState
  level : Level
  msg : List UInt8
deriving DecidableEq

/-- `also_str`. -/
def alsoText (also : BitVec 32) : List UInt8 :=
  if 0 < also then
    ascii " (" ++ decimal also.toNat ++ ascii " more state changes since the last of these)"
  else []

/-- The lines that are not shipped yet. -/
def Found.backlog (f : Found) : BitVec 32 := if f.newest > f.cursor then f.newest - f.cursor else 0

/-- The collector's address and port. -/
def Found.server (f : Found) : List UInt8 :=
  ip4addrText f.cfg.serverIp ++ ascii ":" ++ decimal f.cfg.port.toNat

/-- The level and the message of a line about a state. -/
def Found.stateText (f : Found) (also : BitVec 32) : SyslogState → Level × List UInt8
  | .off => (.info, ascii "Remote logging off" ++ alsoText also)
  | .waiting =>
      (.warn, ascii "Waiting for the bridge network - holding " ++ decimal f.backlog.toNat ++
        ascii " line(s) for " ++ f.server ++ alsoText also)
  | .shipping =>
      (.info, ascii "Shipping the log to " ++ f.server ++ ascii " as " ++ cString f.cfg.hostname ++
        alsoText also)
  | .failing =>
      (.error, ascii "Cannot send to " ++ f.server ++ ascii " (errno " ++
        signedDecimal f.lastErrno.toInt ++ ascii ") - " ++ decimal f.sendFail.toNat ++
        ascii " failure(s) so far" ++ alsoText also)

/-- `settle_log`. -/
def settleLog (hz : Nat) (f : Found) (state : SyslogState) (s : Settle) :
    Settle × Option StateLine :=
  if state = s.loggedState ∧ s.everLogged then (s, none)
  else
    let now := tickAt f.tick
    if s.everLogged ∧ now - s.lastLogTick < pdMsToTicks hz syslogLogMinIntervalMs then
      ({ s with suppressed := s.suppressed + 1 }, none)
    else
      let (level, msg) := f.stateText s.suppressed state
      ({ loggedState := state, lastLogTick := now, everLogged := true, suppressed := 0 },
        some ⟨f.tick, s.suppressed, state, level, msg⟩)

/-- The end of a pass. -/
def Settle.pass (hz : Nat) (s : Settle) (f : Found) : Settle × Option StateLine :=
  settleLog hz f f.currentState s

/-- The lines that passes leave in the log. -/
def Settle.lines (hz : Nat) : Settle → List Found → List StateLine
  | _, [] => []
  | s, f :: fs => (s.pass hz f).2.toList ++ Settle.lines hz (s.pass hz f).1 fs

/-- Where they end. -/
def Settle.after (hz : Nat) (s : Settle) (fs : List Found) : Settle :=
  fs.foldl (fun s f => (s.pass hz f).1) s

/-- The pass finds a state that is not the one named last. -/
def Settle.untold (s : Settle) (f : Found) : Bool :=
  !(decide (f.currentState = s.loggedState) && s.everLogged)

/-- The passes that do. -/
def Settle.changes (hz : Nat) : Settle → List Found → List Found
  | _, [] => []
  | s, f :: fs => (if s.untold f then [f] else []) ++ Settle.changes hz (s.pass hz f).1 fs

section

variable {hz : Nat} {f : Found} {fs : List Found} {s : Settle} {also : BitVec 32}

/-! ## The messages -/

theorem alsoText_length (also : BitVec 32) : (alsoText also).length ≤ 56 := by
  have hcount := decimal_length_u32 also
  have hparen : (ascii " (").length = 2 := ascii_ofList_length _
  have hmore : (ascii " more state changes since the last of these)").length = 44 :=
    ascii_ofList_length _
  unfold alsoText
  split
  · simp only [List.length_append]
    omega
  · exact Nat.zero_le _

theorem server_length (f : Found) : f.server.length ≤ 21 := by
  have haddr := ip4addrText_length f.cfg.serverIp
  have hcolon : (ascii ":").length = 1 := ascii_ofList_length _
  have hport : (decimal f.cfg.port.toNat).length ≤ 5 :=
    Lib.decimal_length (by decide) (Nat.lt_trans f.cfg.port.toNat_lt (by decide))
  unfold Found.server
  simp only [List.length_append]
  omega

/-- A message fits the ring's slot, with the longest of everything in it to the byte. -/
theorem stateText_length (hhostname : (cString f.cfg.hostname).length < syslogCfgHostnameMaxLen)
    (also : BitVec 32) (state : SyslogState) :
    (f.stateText also state).2.length < logBufMsgMax := by
  have hbound : syslogCfgHostnameMaxLen = 33 := rfl
  have hslot : logBufMsgMax = 144 := rfl
  have halso := alsoText_length also
  have hserver := server_length f
  cases state with
  | off =>
    have hoff : (ascii "Remote logging off").length = 18 := ascii_ofList_length _
    simp only [Found.stateText, List.length_append]
    omega
  | waiting =>
    have hbacklog := decimal_length_u32 f.backlog
    have hopen : (ascii "Waiting for the bridge network - holding ").length = 41 :=
      ascii_ofList_length _
    have hlines : (ascii " line(s) for ").length = 13 := ascii_ofList_length _
    simp only [Found.stateText, List.length_append]
    omega
  | shipping =>
    have hopen : (ascii "Shipping the log to ").length = 20 := ascii_ofList_length _
    have has : (ascii " as ").length = 4 := ascii_ofList_length _
    simp only [Found.stateText, List.length_append]
    omega
  | failing =>
    have herrno := signedDecimal_length_i32 f.lastErrno
    have hfails := decimal_length_u32 f.sendFail
    have hopen : (ascii "Cannot send to ").length = 15 := ascii_ofList_length _
    have herr : (ascii " (errno ").length = 8 := ascii_ofList_length _
    have hclose : (ascii ") - ").length = 4 := ascii_ofList_length _
    have hso : (ascii " failure(s) so far").length = 18 := ascii_ofList_length _
    simp only [Found.stateText, List.length_append]
    omega

/-! ## A pass -/

/-- The statics as a reporter that holds back. -/
def Settle.throttle (s : Settle) : Throttle := ⟨s.everLogged, s.lastLogTick, s.suppressed⟩

/-- A pass that finds the state named last does nothing. -/
theorem pass_told (hz : Nat) (h : s.untold f = false) : s.pass hz f = (s, none) := by
  have htold : f.currentState = s.loggedState ∧ s.everLogged = true := by
    simpa [Settle.untold] using h
  rw [Settle.pass, settleLog, if_pos htold]

/-- **Any other is an offer**, held back or told. -/
theorem pass_untold (hz : Nat) (h : s.untold f = true) :
    (s.pass hz f).1 = (match (s.throttle.offer (pdMsToTicks hz syslogLogMinIntervalMs)
        (tickAt f.tick)).2 with
      | none => { s with suppressed := s.suppressed + 1 }
      | some _ => ⟨f.currentState, tickAt f.tick, true, 0⟩) ∧
      (s.pass hz f).2 = (s.throttle.offer (pdMsToTicks hz syslogLogMinIntervalMs)
        (tickAt f.tick)).2.map fun also =>
          ⟨f.tick, also, f.currentState, (f.stateText also f.currentState).1,
            (f.stateText also f.currentState).2⟩ := by
  have huntold : ¬(f.currentState = s.loggedState ∧ s.everLogged = true) := by
    rintro ⟨hstate, hever⟩
    simp [Settle.untold, hstate, hever] at h
  rw [Settle.pass, settleLog, if_neg huntold]
  unfold Throttle.offer Throttle.early Settle.throttle
  simp only [Bool.and_eq_true, decide_eq_true_iff]
  split <;> exact ⟨rfl, rfl⟩

theorem pass_throttle (hz : Nat) (h : s.untold f = true) :
    (s.pass hz f).1.throttle =
      (s.throttle.offer (pdMsToTicks hz syslogLogMinIntervalMs) (tickAt f.tick)).1 := by
  rw [(pass_untold hz h).1]
  cases hoffer : (s.throttle.offer (pdMsToTicks hz syslogLogMinIntervalMs) (tickAt f.tick)).2 with
  | none => exact (Throttle.offer_held hoffer).symm
  | some also => exact (Throttle.offer_reported hoffer).1.symm

/-! ## Passes -/

/-- **The lines are the reporter's reports** on the passes that found another state. -/
theorem Settle.lines_reports (hz : Nat) (s : Settle) (fs : List Found) :
    ((s.lines hz fs).map fun line => (line.tick, line.also)) =
        s.throttle.reports (pdMsToTicks hz syslogLogMinIntervalMs)
          ((s.changes hz fs).map Found.tick) ∧
      (s.after hz fs).throttle = s.throttle.after (pdMsToTicks hz syslogLogMinIntervalMs)
        ((s.changes hz fs).map Found.tick) := by
  induction fs generalizing s with
  | nil => exact ⟨rfl, rfl⟩
  | cons f fs ih =>
    obtain ⟨hlines, hafter⟩ := ih (s.pass hz f).1
    have hstep : s.after hz (f :: fs) = (s.pass hz f).1.after hz fs := rfl
    rw [Settle.lines, Settle.changes, hstep, List.map_append, hlines, hafter]
    cases hf : s.untold f with
    | false =>
      rw [pass_told hz hf]
      exact ⟨rfl, rfl⟩
    | true =>
      rw [if_pos rfl, List.singleton_append, List.map_cons, Throttle.reports_cons,
        pass_throttle hz hf, (pass_untold hz hf).2]
      refine ⟨?_, rfl⟩
      cases (s.throttle.offer _ (tickAt f.tick)).2 <;> rfl

theorem changes_sublist (hz : Nat) (s : Settle) (fs : List Found) :
    (s.changes hz fs).Sublist fs := by
  induction fs generalizing s with
  | nil => exact List.Sublist.slnil
  | cons f fs ih =>
    rw [Settle.changes]
    split
    · exact (ih _).cons_cons f
    · exact (ih _).cons f

/-- Each line comes of a pass, and is its text. -/
theorem Settle.lines_mem {line : StateLine} (h : line ∈ s.lines hz fs) :
    ∃ f ∈ fs, ∃ also state, line.msg = (f.stateText also state).2 := by
  induction fs generalizing s with
  | nil => exact absurd h List.not_mem_nil
  | cons f fs ih =>
    rcases List.mem_append.mp h with h | h
    · have hline := Option.mem_toList.mp h
      cases hf : s.untold f with
      | false =>
        rw [pass_told hz hf] at hline
        exact absurd hline (by simp)
      | true =>
        rw [(pass_untold hz hf).2] at hline
        obtain ⟨also, -, rfl⟩ := Option.map_eq_some_iff.mp hline
        exact ⟨f, List.mem_cons_self, also, f.currentState, rfl⟩
    · obtain ⟨f', hf', also, state, hmsg⟩ := ih h
      exact ⟨f', List.mem_cons_of_mem _ hf', also, state, hmsg⟩

/-- The first line names another state than the one named last, and so does each that follows. -/
theorem Settle.lines_chain (hz : Nat) (s : Settle) (fs : List Found) :
    (s.lines hz fs).IsChain (fun a b => a.state ≠ b.state) ∧
      (s.everLogged = true → ∀ line ∈ (s.lines hz fs).head?, s.loggedState ≠ line.state) := by
  induction fs generalizing s with
  | nil => exact ⟨.nil, fun _ line hline => absurd hline (by simp [Settle.lines])⟩
  | cons f fs ih =>
    obtain ⟨hchain, hhead⟩ := ih (s.pass hz f).1
    rw [Settle.lines]
    cases hf : s.untold f with
    | false =>
      rw [pass_told hz hf] at hchain hhead ⊢
      exact ⟨hchain, hhead⟩
    | true =>
      obtain ⟨hstate, hline⟩ := pass_untold hz hf
      cases hoffer : (s.throttle.offer (pdMsToTicks hz syslogLogMinIntervalMs)
          (tickAt f.tick)).2 with
      | none =>
        rw [hoffer] at hstate hline
        rw [hstate] at hchain hhead
        rw [hline, hstate]
        exact ⟨hchain, hhead⟩
      | some also =>
        rw [hoffer] at hstate hline
        rw [hstate] at hchain hhead
        rw [hline, hstate]
        refine ⟨List.isChain_cons.mpr ⟨fun line h => hhead rfl line h, hchain⟩, ?_⟩
        intro hever line hmem
        obtain rfl := Option.some.inj hmem
        intro hsame
        exact absurd hf (by simp [Settle.untold, hever, hsame])

/-- The last line: when it was written, and that the statics hold its state. -/
def Settle.Told (s : Settle) (line : StateLine) : Prop :=
  s.everLogged = true ∧ s.loggedState = line.state ∧ s.lastLogTick = tickAt line.tick

/-- A pass leaves its own line as the last, or the one that was. -/
theorem pass_line_told {line : StateLine} (h : (s.pass hz f).2 = some line) :
    (s.pass hz f).1.Told line ∧ line.state = f.currentState := by
  cases hf : s.untold f with
  | false =>
    rw [pass_told hz hf] at h
    exact absurd h (by simp)
  | true =>
    obtain ⟨hstate, hline⟩ := pass_untold hz hf
    rw [h] at hline
    obtain ⟨also, hoffer, rfl⟩ := Option.map_eq_some_iff.mp hline.symm
    rw [hoffer] at hstate
    rw [hstate]
    exact ⟨⟨rfl, rfl, rfl⟩, rfl⟩

theorem pass_none_told {line : StateLine} (h : (s.pass hz f).2 = none) (ht : s.Told line) :
    (s.pass hz f).1.Told line ∧ (line.state = f.currentState ∨
      (tickAt f.tick - tickAt line.tick) < pdMsToTicks hz syslogLogMinIntervalMs) := by
  obtain ⟨hever, hstate, htick⟩ := ht
  cases hf : s.untold f with
  | false =>
    rw [pass_told hz hf]
    have htold : f.currentState = s.loggedState ∧ s.everLogged = true := by
      simpa [Settle.untold] using hf
    exact ⟨⟨hever, hstate, htick⟩, .inl (hstate.symm.trans htold.1.symm)⟩
  | true =>
    obtain ⟨hnext, hline⟩ := pass_untold hz hf
    rw [h] at hline
    have hheld := Option.map_eq_none_iff.mp hline.symm
    rw [hheld] at hnext
    rw [hnext]
    refine ⟨⟨hever, hstate, htick⟩, .inr ?_⟩
    have hearly : s.throttle.early (pdMsToTicks hz syslogLogMinIntervalMs) (tickAt f.tick) =
        true := by
      by_contra hno
      rw [Throttle.offer, if_neg hno] at hheld
      exact absurd hheld (by simp)
    unfold Throttle.early at hearly
    rw [← htick]
    exact of_decide_eq_true (Bool.and_eq_true_iff.mp hearly).2

/-- **What the sender says about itself**, at a tick rate that FreeRTOS has, with host names that
    fit the array that holds them. -/
theorem states_settled (hz : Nat) (hhz : hz ≤ 1000) (fs : List Found)
    (horder : fs.Pairwise fun f f' => f.tick ≤ f'.tick)
    (hhostname : ∀ f ∈ fs, (cString f.cfg.hostname).length < syslogCfgHostnameMaxLen) :
    let lines := Settle.boot.lines hz fs
    (lines.Pairwise fun a b => a.tick + 60 * hz ≤ b.tick) ∧
      lines.IsChain (fun a b => a.state ≠ b.state) ∧
      (∀ line ∈ lines, line.msg.length < logBufMsgMax) ∧
      (lines.map fun line => line.also + 1).sum + (Settle.boot.after hz fs).suppressed =
        BitVec.ofNat 32 (Settle.boot.changes hz fs).length := by
  have hinterval : (pdMsToTicks hz syslogLogMinIntervalMs).toNat = 60 * hz :=
    pdMsToTicks_seconds 60 hz (by omega)
  obtain ⟨hlines, hafter⟩ := Settle.boot.lines_reports hz fs
  refine ⟨?_, (Settle.lines_chain hz Settle.boot fs).1, fun line hline => ?_, ?_⟩
  · have hticks : ((Settle.boot.changes hz fs).map Found.tick).Pairwise (· ≤ ·) :=
      List.pairwise_map.mpr (horder.sublist (changes_sublist hz Settle.boot fs))
    have hfirst : Settle.boot.throttle.LastAt 0 := fun h => absurd h (by decide)
    have hspaced := Throttle.reports_spaced (pdMsToTicks hz syslogLogMinIntervalMs) hfirst
      (fun t _ => Nat.zero_le t) hticks
    rw [← hlines, hinterval] at hspaced
    exact List.pairwise_map.mp hspaced
  · obtain ⟨f, hf, also, state, hmsg⟩ := Settle.lines_mem hline
    rw [hmsg]
    exact stateText_length (hhostname f hf) also state
  · have hcount := Throttle.reports_count (pdMsToTicks hz syslogLogMinIntervalMs)
      Settle.boot.throttle ((Settle.boot.changes hz fs).map Found.tick)
    rw [← hlines, ← hafter, List.map_map, List.length_map] at hcount
    exact hcount.trans (BitVec.zero_add _)

/-- Off, then waiting for the bridge over five passes at 100 ticks a second, then shipping. -/
def turnedOn : List Found :=
  [(10, false, false), (400, true, false), (2000, true, false), (4000, true, false),
    (6050, true, false), (6080, true, true), (12100, true, true)].map fun (tick, enabled, bound) =>
      ⟨tick, { defaultCfg with enabled }, bound, 3, false, 0, 0, 0, 40⟩

/-- The one change to waiting is told as four: itself and the three passes that held it back. -/
theorem states_settled_turnedOn :
    let lines := Settle.boot.lines 100 turnedOn
    lines.map (fun line => (line.tick, line.also, line.state)) =
        [(10, 0, .off), (6050, 3, .waiting), (12100, 1, .shipping)] ∧
      (lines.Pairwise fun a b => a.tick + 60 * 100 ≤ b.tick) ∧
      ∀ line ∈ lines, line.msg.length < logBufMsgMax := by
  obtain ⟨hspaced, -, hmsg, -⟩ :=
    states_settled 100 (by decide) turnedOn (by decide) (by decide)
  exact ⟨by decide, hspaced, hmsg⟩

theorem Settle.lines_concat (hz : Nat) (s : Settle) (fs : List Found) (f : Found) :
    s.lines hz (fs ++ [f]) = s.lines hz fs ++ ((s.after hz fs).pass hz f).2.toList := by
  induction fs generalizing s with
  | nil => exact List.append_nil _
  | cons f' fs ih =>
    rw [List.cons_append, Settle.lines, Settle.lines, ih, List.append_assoc]
    rfl

theorem Settle.after_concat (hz : Nat) (s : Settle) (fs : List Found) (f : Found) :
    s.after hz (fs ++ [f]) = ((s.after hz fs).pass hz f).1 := by
  rw [Settle.after, List.foldl_append]
  rfl

/-- Until there is a line, the next pass writes one. -/
theorem pass_first (hz : Nat) (h : s.everLogged = false) (f : Found) :
    ∃ line, (s.pass hz f).2 = some line := by
  have huntold : s.untold f = true := by simp [Settle.untold, h]
  have hearly : s.throttle.early (pdMsToTicks hz syslogLogMinIntervalMs) (tickAt f.tick) =
      false := by
    simp [Throttle.early, Settle.throttle, h]
  rw [(pass_untold hz huntold).2, Throttle.offer, hearly, if_neg Bool.false_ne_true]
  exact ⟨_, rfl⟩

/-- The statics hold what the last line says; without one they say that there is none. -/
theorem told_after (hz : Nat) (fs : List Found) :
    match (Settle.boot.lines hz fs).getLast? with
    | none => (Settle.boot.after hz fs).everLogged = false ∧ fs = []
    | some line => (Settle.boot.after hz fs).Told line := by
  induction fs using List.reverseRecOn with
  | nil => exact ⟨rfl, rfl⟩
  | append_singleton fs f ih =>
    rw [Settle.lines_concat, Settle.after_concat]
    cases hline : ((Settle.boot.after hz fs).pass hz f).2 with
    | some line =>
      rw [Option.toList_some, List.getLast?_concat]
      exact (pass_line_told hline).1
    | none =>
      rw [Option.toList_none, List.append_nil]
      cases hlast : (Settle.boot.lines hz fs).getLast? with
      | none =>
        rw [hlast] at ih
        obtain ⟨line, hfirst⟩ := pass_first hz ih.1 f
        exact absurd (hline.symm.trans hfirst) (by simp)
      | some line =>
        rw [hlast] at ih
        exact (pass_none_told hline ih).1

/-- **Behind each pass** the last line names the state that the pass found, or is less than a
    minute old; and there is one. -/
theorem settled_or_recent (hz : Nat) (fs : List Found) (f : Found) :
    ∃ line, (Settle.boot.lines hz (fs ++ [f])).getLast? = some line ∧
      (line.state = f.currentState ∨
        tickAt f.tick - tickAt line.tick < pdMsToTicks hz syslogLogMinIntervalMs) := by
  have htold := told_after hz fs
  rw [Settle.lines_concat]
  cases hline : ((Settle.boot.after hz fs).pass hz f).2 with
  | some line =>
    exact ⟨line, List.getLast?_concat, .inl (pass_line_told hline).2⟩
  | none =>
    rw [Option.toList_none, List.append_nil]
    cases hlast : (Settle.boot.lines hz fs).getLast? with
    | none =>
      rw [hlast] at htold
      obtain ⟨line, hfirst⟩ := pass_first hz htold.1 f
      exact absurd (hline.symm.trans hfirst) (by simp)
    | some line =>
      rw [hlast] at htold
      exact ⟨line, rfl, (pass_none_told hline htold).2⟩

end

end Logs
end Wt32Router
