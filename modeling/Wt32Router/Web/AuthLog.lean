import Wt32Router.Lib.Throttle
import Wt32Router.Logs.Hook
import Wt32Router.Web.Auth

/-!
# What an unauthenticated caller can write into the log

`log_auth_failure` and `send_auth_error` of `main/web_server.c`. The line about a rejected request
is all that a caller without credentials can put into the log, and nothing else paces it: one line
goes out in a window of `AUTH_FAIL_LOG_INTERVAL_MS`, and the rest are counted and told with the
next. A rejected guess costs its caller a second.

> **`rejections_logged`**: over any requests, the lines are a minute apart, every rejection is
> counted by one of them or still pending, no line is too long for the ring, and the answers to
> two guesses are a second apart.

The window is kept by `Lib.Throttle`, of which the three statics are one (`logAuthFailure_offer`).
-/

namespace Wt32Router
namespace Web

open Lib (Throttle ascii cString decimal decimal_length_u32 ascii_ofList_length pdMsToTicks
  pdMsToTicks_seconds)
open Lib.Throttle (tickAt)

/-- `AUTH_FAIL_DELAY_MS`. -/
def authFailDelayMs : Nat := 1000

/-- `AUTH_FAIL_LOG_INTERVAL_MS`. -/
def authFailLogIntervalMs : Nat := 60000

/-- `AUTH_FAIL_LOG_URI_MAX`. -/
def authFailLogUriMax : Nat := 48

/-- `s_auth_fail_unreported`, `s_auth_fail_last_log` and `s_auth_fail_logged`. -/
structure AuthLog where
  unreported : BitVec 32
  lastLog : BitVec 32
  logged : Bool
deriving DecidableEq, Repr

def AuthLog.boot : AuthLog := ⟨0, 0, false⟩

/-- A line about a rejection: the tick it is written at, the rejections it counts beside its own,
    and its message. -/
structure RejectLine where
  tick : Nat
  also : BitVec 32
  msg : List UInt8
deriving DecidableEq, Repr

/-- The message. -/
def rejectMsg (uri : List UInt8) (hadCredentials : Bool) (also : BitVec 32) : List UInt8 :=
  ascii "Rejected request for " ++ (cString uri).take authFailLogUriMax ++ ascii ": " ++
    (if hadCredentials then ascii "bad credentials" else ascii "no credentials sent") ++
    if also = 0 then []
    else ascii " (" ++ decimal also.toNat ++ ascii " more since the last of these)"

/-- `log_auth_failure`, at a time. -/
def logAuthFailure (hz tick : Nat) (uri : List UInt8) (hadCredentials : Bool) (s : AuthLog) :
    AuthLog × Option RejectLine :=
  let now := tickAt tick
  let s := { s with unreported := s.unreported + 1 }
  if s.logged ∧ now - s.lastLog < pdMsToTicks hz authFailLogIntervalMs then (s, none)
  else
    let also := s.unreported - 1
    ({ unreported := 0, lastLog := now, logged := true },
      some ⟨tick, also, rejectMsg uri hadCredentials also⟩)

/-- A request: the tick its handler begins at, how many ticks its answer takes but for the delay,
    what `auth_cfg_load` returns then, and what of it is looked at. -/
structure Request where
  begins : Nat
  takes : Nat
  auth : AuthCfg
  authorization : Option (List UInt8)
  uri : List UInt8

namespace Request

def rejected (r : Request) : Bool := !checkAdminAuth r.auth r.authorization

/-- `httpd_req_get_hdr_value_len` of the header is not 0. -/
def hadCredentials (r : Request) : Bool := 0 < (r.authorization.getD []).length

/-- Credentials that were sent and are not those. -/
def guess (r : Request) : Bool := r.rejected && r.hadCredentials

/-- The tick it is answered at, behind the `vTaskDelay` of `send_auth_error`. -/
def answered (hz : Nat) (r : Request) : Nat :=
  r.begins + (if r.guess then (pdMsToTicks hz authFailDelayMs).toNat else 0) + r.takes

end Request

/-- A request that comes up to the check of a handler. -/
def AuthLog.serve (hz : Nat) (s : AuthLog) (r : Request) : AuthLog × Option RejectLine :=
  if r.rejected then logAuthFailure hz (r.answered hz) r.uri r.hadCredentials s else (s, none)

/-- The lines that requests leave in the log. -/
def AuthLog.lines (hz : Nat) : AuthLog → List Request → List RejectLine
  | _, [] => []
  | s, r :: rs => (s.serve hz r).2.toList ++ AuthLog.lines hz (s.serve hz r).1 rs

/-- Where they end. -/
def AuthLog.after (hz : Nat) (s : AuthLog) (rs : List Request) : AuthLog :=
  rs.foldl (fun s r => (s.serve hz r).1) s

/-- The server has one worker: a request is answered before the next begins. -/
def OneWorker (hz : Nat) (rs : List Request) : Prop :=
  rs.Pairwise fun r r' => r.answered hz ≤ r'.begins

instance (hz : Nat) (rs : List Request) : Decidable (OneWorker hz rs) :=
  inferInstanceAs (Decidable (rs.Pairwise _))

section

variable {hz tick : Nat} {uri : List UInt8} {had : Bool} {s : AuthLog} {r : Request}
  {rs : List Request}

/-- The statics as a reporter that holds back. -/
def AuthLog.throttle (s : AuthLog) : Throttle := ⟨s.logged, s.lastLog, s.unreported⟩

/-- **A rejection is an offer**: it moves the statics as the reporter moves, and writes a line
    where that reports. -/
theorem logAuthFailure_offer (hz tick : Nat) (uri : List UInt8) (had : Bool) (s : AuthLog) :
    (logAuthFailure hz tick uri had s).1.throttle =
        (s.throttle.offer (pdMsToTicks hz authFailLogIntervalMs) (tickAt tick)).1 ∧
      (logAuthFailure hz tick uri had s).2 =
        (s.throttle.offer (pdMsToTicks hz authFailLogIntervalMs) (tickAt tick)).2.map fun also =>
          ⟨tick, also, rejectMsg uri had also⟩ := by
  have hback : s.unreported + 1 - 1 = s.unreported := BitVec.add_sub_cancel _ _
  unfold logAuthFailure Throttle.offer Throttle.early AuthLog.throttle
  simp only [Bool.and_eq_true, decide_eq_true_iff, hback]
  split <;> exact ⟨rfl, rfl⟩

/-- What a line says is the reporter's count, and it is at most 132 bytes long. -/
theorem rejectMsg_length (uri : List UInt8) (had : Bool) (also : BitVec 32) :
    (rejectMsg uri had also).length ≤ 132 := by
  have hcount := decimal_length_u32 also
  have huri : ((cString uri).take authFailLogUriMax).length ≤ 48 := List.length_take_le _ _
  have hopen : (ascii "Rejected request for ").length = 21 := ascii_ofList_length _
  have hcolon : (ascii ": ").length = 2 := ascii_ofList_length _
  have hbad : (ascii "bad credentials").length = 15 := ascii_ofList_length _
  have hnone : (ascii "no credentials sent").length = 19 := ascii_ofList_length _
  have hparen : (ascii " (").length = 2 := ascii_ofList_length _
  have hmore : (ascii " more since the last of these)").length = 30 := ascii_ofList_length _
  have hwhy : (if had then ascii "bad credentials" else ascii "no credentials sent").length
      ≤ 19 := by
    split <;> omega
  have htail : (if also = 0 then [] else
      ascii " (" ++ decimal also.toNat ++ ascii " more since the last of these)").length ≤ 42 := by
    split
    · exact Nat.zero_le _
    · simp only [List.length_append]
      omega
  unfold rejectMsg
  simp only [List.length_append]
  omega

/-- The ticks at which rejections are logged or counted. -/
def offers (hz : Nat) (rs : List Request) : List Nat :=
  (rs.filter Request.rejected).map (Request.answered hz)

/-- **The lines are the reporter's reports** on the rejections. -/
theorem lines_reports (hz : Nat) (s : AuthLog) (rs : List Request) :
    ((s.lines hz rs).map fun line => (line.tick, line.also)) =
        s.throttle.reports (pdMsToTicks hz authFailLogIntervalMs) (offers hz rs) ∧
      (s.after hz rs).throttle =
        s.throttle.after (pdMsToTicks hz authFailLogIntervalMs) (offers hz rs) := by
  induction rs generalizing s with
  | nil => exact ⟨rfl, rfl⟩
  | cons r rs ih =>
    obtain ⟨hlines, hafter⟩ := ih (s.serve hz r).1
    have hstep : (s.after hz (r :: rs)) = (s.serve hz r).1.after hz rs := rfl
    rw [AuthLog.lines, hstep, List.map_append, hlines, hafter]
    cases hr : r.rejected with
    | false =>
      have hoffers : offers hz (r :: rs) = offers hz rs := by
        rw [offers, List.filter_cons_of_neg (by simp [hr])]
        rfl
      have hserve : s.serve hz r = (s, none) := by
        rw [AuthLog.serve, hr, if_neg Bool.false_ne_true]
      rw [hoffers, hserve]
      exact ⟨rfl, rfl⟩
    | true =>
      have hoffers : offers hz (r :: rs) = r.answered hz :: offers hz rs := by
        rw [offers, List.filter_cons_of_pos hr, List.map_cons]
        rfl
      have hserve : s.serve hz r = logAuthFailure hz (r.answered hz) r.uri r.hadCredentials s := by
        rw [AuthLog.serve, hr, if_pos rfl]
      obtain ⟨hstate, hline⟩ :=
        logAuthFailure_offer hz (r.answered hz) r.uri r.hadCredentials s
      rw [hoffers, hserve, Throttle.reports_cons, hstate, hline]
      refine ⟨?_, rfl⟩
      cases (s.throttle.offer _ (tickAt (r.answered hz))).2 <;> rfl

theorem lines_msg {line : RejectLine} (h : line ∈ s.lines hz rs) : line.msg.length ≤ 132 := by
  induction rs generalizing s with
  | nil => exact absurd h List.not_mem_nil
  | cons r rs ih =>
    rcases List.mem_append.mp h with h | h
    · have hserve := Option.mem_toList.mp h
      unfold AuthLog.serve logAuthFailure at hserve
      simp only at hserve
      split at hserve
      · split at hserve
        · exact absurd hserve (by simp)
        · obtain rfl := Option.some.inj hserve
          exact rejectMsg_length _ _ _
      · exact absurd hserve (by simp)
    · exact ih h

theorem begins_le_answered (hz : Nat) (r : Request) : r.begins ≤ r.answered hz := by
  unfold Request.answered
  omega

/-- **What rejections leave in the log**, at a tick rate that FreeRTOS has. -/
theorem rejections_logged (hz : Nat) (hhz : hz ≤ 1000) (rs : List Request)
    (hworker : OneWorker hz rs) :
    let lines := AuthLog.boot.lines hz rs
    (lines.Pairwise fun a b => a.tick + 60 * hz ≤ b.tick) ∧
      (lines.map fun line => line.also + 1).sum + (AuthLog.boot.after hz rs).unreported =
        BitVec.ofNat 32 (rs.filter Request.rejected).length ∧
      (∀ line ∈ lines, line.msg.length < Logs.logBufMsgMax) ∧
      (rs.filter Request.guess).Pairwise fun r r' => r.answered hz + hz ≤ r'.answered hz := by
  have hinterval : (pdMsToTicks hz authFailLogIntervalMs).toNat = 60 * hz :=
    pdMsToTicks_seconds 60 hz (by omega)
  have hdelay : (pdMsToTicks hz authFailDelayMs).toNat = 1 * hz :=
    pdMsToTicks_seconds 1 hz (by omega)
  obtain ⟨hlines, hafter⟩ := lines_reports hz AuthLog.boot rs
  refine ⟨?_, ?_, fun line hline => ?_, ?_⟩
  · have horder : (offers hz rs).Pairwise (· ≤ ·) := by
      refine List.pairwise_map.mpr ((hworker.filter _).imp fun {r r'} h => ?_)
      exact Nat.le_trans h (begins_le_answered hz r')
    have hfirst : AuthLog.boot.throttle.LastAt 0 := fun h => absurd h (by decide)
    have hspaced := Throttle.reports_spaced (pdMsToTicks hz authFailLogIntervalMs) hfirst
      (fun t _ => Nat.zero_le t) horder
    rw [← hlines, hinterval] at hspaced
    exact List.pairwise_map.mp hspaced
  · have hcount := Throttle.reports_count (pdMsToTicks hz authFailLogIntervalMs)
      AuthLog.boot.throttle (offers hz rs)
    rw [← hlines, ← hafter, List.map_map, offers, List.length_map] at hcount
    exact hcount.trans (BitVec.zero_add _)
  · exact Nat.lt_of_le_of_lt (lines_msg hline) (by decide)
  · refine (List.Pairwise.filter _ hworker).imp_of_mem fun {r r'} _ hr' h => ?_
    have hguess : r'.guess = true := (List.mem_filter.mp hr').2
    have hanswered : r'.answered hz = r'.begins + (pdMsToTicks hz authFailDelayMs).toNat +
        r'.takes := by
      rw [Request.answered, if_pos hguess]
    omega

/-- A caller without credentials at 100 ticks a second: one, two more within the minute, and one
    behind it. -/
def probing : List Request :=
  [0, 5, 70, 6100].map fun tick => ⟨tick, 1, ⟨ascii "admin", ascii "orchard"⟩, none, ascii "/api"⟩

/-- The second line tells of the two that were held back. -/
theorem rejections_logged_probing :
    let lines := AuthLog.boot.lines 100 probing
    lines.map (fun line => (line.tick, line.also)) = [(1, 0), (6101, 2)] ∧
      (lines.Pairwise fun a b => a.tick + 60 * 100 ≤ b.tick) ∧
      ∀ line ∈ lines, line.msg.length < Logs.logBufMsgMax := by
  obtain ⟨hspaced, -, hmsg, -⟩ := rejections_logged 100 (by decide) probing (by decide)
  exact ⟨by decide, hspaced, hmsg⟩

end

end Web
end Wt32Router
