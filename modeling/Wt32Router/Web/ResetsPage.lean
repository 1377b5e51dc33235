import Wt32Router.Reset.Console
import Wt32Router.Web.Resets

/-!
# One history, told twice

`serial_console.c` and `webpage/resets.html` both say how a boot ended and how long it ran, each in
its own words. "The console and this page describe the same records, and a reader comparing the two
should never have to work out whether a wording difference means a difference in what happened." The
console has the records; the page has what `/api/resets` tells of them.

> **`rows_agree`**: the two agree on every row, boot for boot, down to the figure, but for one kind
> of record: one that carries an intent which this firmware has no name for.

Both say in a comment what is to become of such a record, a restart that somebody asked for and
"must not fall through". On the console it does not. But `reset_log_intent_name` answers "unknown"
for it, which is also the name of no intent at all, so the page cannot know, and calls the restart
an untagged one, or a crash.
-/

namespace Wt32Router
namespace Web

open Lib
open Reset (fPrevState fRailHeld fRailKnown fReachedReady fRollback fmtExact hasFlag ranSize
  resetRanFor)

/-! ## What can be said of an ending -/

inductive Ending where
  | rolledBack
  | update
  | wifiSettings
  | wanSettings
  | console
  | factoryReset
  /-- on request, by a name that neither has wording for -/
  | asked (intent : String)
  | panic
  | watchdog
  | brownout
  /-- what the rail did, if that has been measured -/
  | powerOn (railHeld : Option Bool)
  | untagged
  | unknown (code : Nat)
deriving DecidableEq, Repr

/-- The console's wording. -/
def Ending.consoleText : Ending → List UInt8
  | .rolledBack => ascii "rolled back from a failed update"
  | .update => ascii "restart for firmware update"
  | .wifiSettings => ascii "restart to apply WiFi settings"
  | .wanSettings => ascii "restart to apply WAN settings"
  | .console => ascii "console requested restart"
  | .factoryReset => ascii "factory reset"
  | .asked intent => ascii "restart on request (" ++ ascii intent ++ ascii ")"
  | .panic => ascii "crashed (panic)"
  | .watchdog => ascii "watchdog reset - something stopped responding"
  | .brownout => ascii "brownout - the supply voltage dipped"
  | .powerOn none => ascii "power-on or power loss"
  | .powerOn (some true) => ascii "reset without power cycle"
  | .powerOn (some false) => ascii "cold boot after power loss"
  | .untagged => ascii "restarted by software, untagged"
  | .unknown code => ascii "unknown reason (code " ++ decimal code ++ ascii ")"

/-- The page's wording, and whether the cell is marked as a fault. -/
def Ending.page : Ending → String × Bool
  | .rolledBack => ("Rolled back from a failed update", true)
  | .update => ("Restarted for a firmware update", false)
  | .wifiSettings => ("Restarted to apply WiFi settings", false)
  | .wanSettings => ("Restarted to apply WAN settings", false)
  | .console => ("Console requested restart", false)
  | .factoryReset => ("Factory reset", false)
  | .asked intent => ("Restarted on request (" ++ intent ++ ")", false)
  | .panic => ("Crashed (panic)", true)
  | .watchdog => ("Watchdog reset — something stopped responding", true)
  | .brownout => ("Brownout — the supply voltage dipped", true)
  | .powerOn (some true) => ("Reset without power cycle", false)
  | .powerOn (some false) => ("Cold boot after power loss", false)
  | .powerOn none => ("Power-on or power loss", false)
  | .untagged => ("Restarted by software, untagged", true)
  | .unknown code => ("Reset for an unknown reason (code " ++ toString code ++ ")", true)

/-! ## The console -/

section

variable (named : UInt8 → ResetReason) (rendered : BitVec 64 → List UInt8)

/-- The chain of `reset_what_happened`. -/
def consoleEnding (e : Reset.Entry) : Ending :=
  let reason := resetLogReasonName (named e.reason)
  if hasFlag e.flags fRollback then .rolledBack
  else if e.intent = 1 then .update
  else if e.intent = 2 then .wifiSettings
  else if e.intent = 3 then .wanSettings
  else if e.intent = 4 then .console
  else if e.intent = 5 then .factoryReset
  else if e.intent ≠ 0 then .asked (intentName e.intent)
  else if reason = "panic" then .panic
  else if reason = "int-wdt" ∨ reason = "task-wdt" ∨ reason = "other-wdt" then .watchdog
  else if reason = "brownout" then .brownout
  else if reason = "power-on" then
    .powerOn (if hasFlag e.flags fRailKnown then some (hasFlag e.flags fRailHeld) else none)
  else if reason = "software" then .untagged
  else .unknown e.reason.toNat

/-- "The boot-loop signature". -/
def consoleStartup (e : Reset.Entry) : Bool :=
  hasFlag e.flags fPrevState && !hasFlag e.flags fReachedReady

/-- `reset_what_happened`. -/
def resetWhatHappened (e : Reset.Entry) (n : Nat) : List UInt8 :=
  Reset.truncated n ((consoleEnding named e).consoleText ++
    if consoleStartup e then ascii ", during startup" else [])

/-- What a row says. -/
inductive RowText where
  | running (soFar : List UInt8)
  | unrecorded
  | ended (ending : Ending) (duringStartup : Bool) (ranFor : List UInt8)
deriving DecidableEq, Repr

structure TableRow where
  seq : Nat
  text : RowText
deriving DecidableEq, Repr

/-- The rows of `cmd_resets`, with the record above the first one. -/
def consoleRowsFrom (upS : BitVec 64) : Option Reset.Entry → List Reset.Entry → List TableRow
  | _, [] => []
  | newer, e :: recs =>
      { seq := e.bootSeq.toNat
        text := match newer with
          | none => .running (fmtExact (upS.setWidth 32).toNat ranSize)
          | some ender =>
            if ender.bootSeq = e.bootSeq + 1 then
              .ended (consoleEnding named ender) (consoleStartup ender) (resetRanFor ender ranSize)
            else .unrecorded } ::
        consoleRowsFrom upS (some e) recs

/-- `cmd_resets`: the columns BOOT, WHAT HAPPENED and RAN FOR. -/
def consoleRows (upS : BitVec 64) (ring : List Reset.Entry) : List TableRow :=
  consoleRowsFrom named upS none (resetLogGet ring Reset.maxRecords)

end

/-! ## The page -/

/-- The chain of `whatHappened`. -/
def pageEnding (r : ResetRow) : Ending :=
  if r.rollback then .rolledBack
  else if r.intent = "ota" then .update
  else if r.intent = "wifi-save" then .wifiSettings
  else if r.intent = "wan-save" then .wanSettings
  else if r.intent = "console" then .console
  else if r.intent = "factory-reset" then .factoryReset
  else if r.intent ≠ "" ∧ r.intent ≠ "unknown" then .asked r.intent
  else if r.reason = "panic" then .panic
  else if r.reason = "int-wdt" ∨ r.reason = "task-wdt" ∨ r.reason = "other-wdt" then .watchdog
  else if r.reason = "brownout" then .brownout
  else if r.reason = "power-on" then
    if r.railHeld = some true then .powerOn (some true)
    else if r.railHeld = some false then .powerOn (some false)
    else .powerOn none
  else if r.reason = "software" then .untagged
  else .unknown r.reasonCode

def pageStartup (r : ResetRow) : Bool := r.reachedReady == some false

/-- `whatHappened`. -/
def whatHappened (r : ResetRow) : String × Bool :=
  let (text, fault) := (pageEnding r).page
  (if pageStartup r then text ++ " during startup" else text, fault)

/-- `formatUptime`. -/
def formatUptime (s : Nat) : List UInt8 :=
  if 86400 ≤ s then decimal (s / 86400) ++ ascii "d " ++ decimal (s % 86400 / 3600) ++ ascii "h"
  else if 3600 ≤ s then decimal (s / 3600) ++ ascii "h " ++ decimal (s % 3600 / 60) ++ ascii "m"
  else if 60 ≤ s then decimal (s / 60) ++ ascii "m " ++ decimal (s % 60) ++ ascii "s"
  else decimal s ++ ascii "s"

/-- `formatShort`. -/
def formatShort (s : Nat) : List UInt8 :=
  if 365 * 86400 ≤ s then decimal (s / (365 * 86400)) ++ ascii "y"
  else if 86400 ≤ s then decimal (s / 86400) ++ ascii "d"
  else if 3600 ≤ s then decimal (s / 3600) ++ ascii "h"
  else if 60 ≤ s then decimal (s / 60) ++ ascii "m"
  else decimal s ++ ascii "s"

/-- `formatBound`; the text of null is "null". -/
def formatBound (floor : Nat) (ceil : Option Nat) : List UInt8 :=
  if floor = 0 then
    ascii "<" ++ match ceil with
      | some ceil => formatShort ceil
      | none => ascii "nulls"
  else ascii ">" ++ formatShort floor

/-- The last column of `addRow`, of a boot whose ending is recorded. -/
def pageRanFor (ender : ResetRow) : List UInt8 :=
  match ender.uptimeS with
  | none => ascii "unknown"
  | some s => if ender.uptimeApprox then formatBound s ender.uptimeMaxS else formatUptime s

/-- The rows of `render`, with the row above the first one. -/
def pageRowsFrom (currentUptimeS : Nat) : Option ResetRow → List ResetRow → List TableRow
  | _, [] => []
  | newer, r :: rows =>
      { seq := r.seq
        text := match newer with
          | none => .running (formatUptime currentUptimeS)
          | some ender =>
            if ender.seq = r.seq + 1 then
              .ended (pageEnding ender) (pageStartup ender) (pageRanFor ender)
            else .unrecorded } ::
        pageRowsFrom currentUptimeS (some r) rows

/-- `render`: the columns Boot, What happened and Ran for. -/
def pageRows (currentUptimeS : Nat) (rows : List ResetRow) : List TableRow :=
  pageRowsFrom currentUptimeS none rows

/-- The firmware has a name for what the record was asked for, or does not look at it. -/
def Worded (e : Reset.Entry) : Prop :=
  hasFlag e.flags fRollback = true ∨ (resetIntent e.intent).isSome = true

instance (e : Reset.Entry) : Decidable (Worded e) := inferInstanceAs (Decidable (_ ∨ _))

/-- Where the record above ends a boot, it is worded. -/
def EndsWorded (newer e : Reset.Entry) : Prop := newer.bootSeq = e.bootSeq + 1 → Worded newer

instance (newer e : Reset.Entry) : Decidable (EndsWorded newer e) :=
  inferInstanceAs (Decidable (_ → _))

section

variable {named : UInt8 → ResetReason} {rendered : BitVec 64 → List UInt8} {e ender : Reset.Entry}
  {s : Nat}

/-! ## Figures -/

theorem fmtExact_whole (hs : s < 4294967296) : fmtExact s ranSize = formatUptime s := by
  have htwo : ∀ a b : Nat, ∀ x y : String, a ≤ s → b ≤ s → (ascii x).length = 2 →
      (ascii y).length = 1 →
      Reset.truncated ranSize (decimal a ++ ascii x ++ decimal b ++ ascii y) =
        decimal a ++ ascii x ++ decimal b ++ ascii y := by
    intro a b x y ha hb hx hy
    have halen := Reset.decimal_fits (Nat.lt_of_le_of_lt ha hs)
    have hblen := Reset.decimal_fits (Nat.lt_of_le_of_lt hb hs)
    refine Reset.truncated_fits ?_
    simp only [List.length_append]
    show _ < 24
    omega
  unfold fmtExact formatUptime
  split
  · exact htwo _ _ "d " "h" (Nat.div_le_self _ _) (by omega) (by decide) (by decide)
  split
  · exact htwo _ _ "h " "m" (Nat.div_le_self _ _) (by omega) (by decide) (by decide)
  split
  · exact htwo _ _ "m " "s" (Nat.div_le_self _ _) (Nat.mod_le _ _) (by decide) (by decide)
  · have hlen := Reset.decimal_fits hs
    refine Reset.truncated_fits ?_
    rw [List.length_append]
    show _ + 1 < 24
    omega

theorem formatShort_eq (s : Nat) :
    formatShort s = decimal (Reset.fmtShort s).1 ++ [(Reset.fmtShort s).2] := by
  unfold formatShort Reset.fmtShort
  split
  · rfl
  split
  · rfl
  split
  · rfl
  split
  · rfl
  · rfl

/-- **The figures are the same**, mark and all, of every record. -/
theorem ranFor_agrees (named : UInt8 → ResetReason) (rendered : BitVec 64 → List UInt8)
    (e : Reset.Entry) : pageRanFor (resetRow named rendered e) = resetRanFor e ranSize := by
  have hlt := e.prevUptimeS.isLt
  unfold pageRanFor resetRow resetRanFor Reset.resetUptimeIsFloor
  dsimp only
  cases hprev : hasFlag e.flags fPrevState with
  | true => exact (fmtExact_whole hlt).symm
  | false =>
    cases hmin : hasFlag e.flags Reset.fPrevUptimeMin with
    | false =>
      show ascii "unknown" = Reset.truncated ranSize (ascii "unknown")
      exact (Reset.truncated_fits (by decide)).symm
    | true =>
      show formatBound e.prevUptimeS.toNat (if Reset.ceilingFor e.prevUptimeS.toNat ≠ 0 then
          some (Reset.ceilingFor e.prevUptimeS.toNat) else none) =
        Reset.fmtBound e.prevUptimeS.toNat ranSize
      unfold formatBound Reset.fmtBound
      split
      · rename_i hzero
        rw [hzero]
        decide
      · obtain ⟨-, htext, -⟩ := Reset.readBound_fmtShort hlt 62
        dsimp only
        rw [htext, formatShort_eq]
        rfl

theorem startup_agrees : pageStartup (resetRow named rendered e) = consoleStartup e := by
  unfold pageStartup resetRow consoleStartup
  dsimp only
  cases hasFlag e.flags fPrevState <;> cases hasFlag e.flags fReachedReady <;> rfl

/-! ## Endings -/

/-- Past the intents, both go by the reason. -/
def reasonEnding (named : UInt8 → ResetReason) (e : Reset.Entry) : Ending :=
  let reason := resetLogReasonName (named e.reason)
  if reason = "panic" then .panic
  else if reason = "int-wdt" ∨ reason = "task-wdt" ∨ reason = "other-wdt" then .watchdog
  else if reason = "brownout" then .brownout
  else if reason = "power-on" then
    .powerOn (if hasFlag e.flags fRailKnown then some (hasFlag e.flags fRailHeld) else none)
  else if reason = "software" then .untagged
  else .unknown e.reason.toNat

theorem consoleEnding_reason : consoleEnding named e =
    if hasFlag e.flags fRollback then .rolledBack
    else if e.intent = 1 then .update
    else if e.intent = 2 then .wifiSettings
    else if e.intent = 3 then .wanSettings
    else if e.intent = 4 then .console
    else if e.intent = 5 then .factoryReset
    else if e.intent ≠ 0 then .asked (intentName e.intent)
    else reasonEnding named e := rfl

theorem railHeld_agrees :
    (if (resetRow named rendered e).railHeld = some true then Ending.powerOn (some true)
      else if (resetRow named rendered e).railHeld = some false then .powerOn (some false)
      else .powerOn none) =
      .powerOn (if hasFlag e.flags fRailKnown then some (hasFlag e.flags fRailHeld) else none) := by
  unfold resetRow
  dsimp only
  cases hasFlag e.flags fRailKnown <;> cases hasFlag e.flags fRailHeld <;> rfl

theorem reasonEnding_ne (intent : String) : reasonEnding named e ≠ .asked intent := by
  unfold reasonEnding
  dsimp only
  split
  · simp
  split
  · simp
  split
  · simp
  split
  · simp
  split
  · simp
  · simp

/-- The page has no wording of its own for "unknown". -/
theorem pageEnding_unknown (hno : hasFlag e.flags fRollback = false)
    (hname : intentName e.intent = "unknown") :
    pageEnding (resetRow named rendered e) = reasonEnding named e := by
  unfold pageEnding reasonEnding
  rw [railHeld_agrees]
  have hrollback : (resetRow named rendered e).rollback = false := hno
  have hintent : (resetRow named rendered e).intent = "unknown" := hname
  rw [hrollback, hintent]
  rfl

/-- **The endings are the same** of a record exactly if it is worded. -/
theorem ending_agrees :
    pageEnding (resetRow named rendered e) = consoleEnding named e ↔ Worded e := by
  unfold Worded
  cases hrollback : hasFlag e.flags fRollback with
  | true =>
    have hrow : (resetRow named rendered e).rollback = true := hrollback
    unfold pageEnding consoleEnding
    rw [hrow, hrollback]
    simp
  | false =>
    have hrow : (resetRow named rendered e).rollback = false := hrollback
    have hpage : ∀ intent, (resetRow named rendered e).intent = intent →
        pageEnding (resetRow named rendered e) =
          if intent = "ota" then .update
          else if intent = "wifi-save" then .wifiSettings
          else if intent = "wan-save" then .wanSettings
          else if intent = "console" then .console
          else if intent = "factory-reset" then .factoryReset
          else if intent ≠ "" ∧ intent ≠ "unknown" then .asked intent
          else reasonEnding named e := by
      rintro intent rfl
      unfold pageEnding reasonEnding
      rw [railHeld_agrees, hrow]
      rfl
    have hintent : (resetRow named rendered e).intent = intentName e.intent := rfl
    rw [consoleEnding_reason, hrollback, if_neg Bool.false_ne_true, hpage _ hintent]
    by_cases h₀ : e.intent = 0
    · rw [h₀]; simp [intentName, resetIntent, resetLogIntentName]
    by_cases h₁ : e.intent = 1
    · rw [h₁]; simp [intentName, resetIntent, resetLogIntentName]
    by_cases h₂ : e.intent = 2
    · rw [h₂]; simp [intentName, resetIntent, resetLogIntentName]
    by_cases h₃ : e.intent = 3
    · rw [h₃]; simp [intentName, resetIntent, resetLogIntentName]
    by_cases h₄ : e.intent = 4
    · rw [h₄]; simp [intentName, resetIntent, resetLogIntentName]
    by_cases h₅ : e.intent = 5
    · rw [h₅]; simp [intentName, resetIntent, resetLogIntentName]
    · -- no name of its own, and so "unknown"
      have hnone : resetIntent e.intent = none := by
        simp [resetIntent, h₀, h₁, h₂, h₃, h₄, h₅]
      have hname : intentName e.intent = "unknown" := by
        unfold intentName
        rw [hnone]
        rfl
      rw [hname, hnone]
      simp [h₀, h₁, h₂, h₃, h₄, h₅, reasonEnding_ne]

/-! ## Wordings -/

theorem consoleText_length (ending : Ending)
    (hasked : ∀ intent, ending = .asked intent → (ascii intent).length ≤ 13)
    (hcode : ∀ code, ending = .unknown code → code < 256) : ending.consoleText.length ≤ 45 := by
  cases ending with
  | asked intent =>
    have hlen := hasked intent rfl
    have hfront : (ascii "restart on request (").length = 20 := ascii_ofList_length _
    have hback : (ascii ")").length = 1 := ascii_ofList_length _
    show (ascii "restart on request (" ++ ascii intent ++ ascii ")").length ≤ 45
    rw [List.length_append, List.length_append]
    omega
  | unknown code =>
    have hlen : (decimal code).length ≤ 3 :=
      decimal_length (by decide) (Nat.lt_trans (hcode code rfl) (by decide))
    have hfront : (ascii "unknown reason (code ").length = 21 := ascii_ofList_length _
    have hback : (ascii ")").length = 1 := ascii_ofList_length _
    show (ascii "unknown reason (code " ++ decimal code ++ ascii ")").length ≤ 45
    rw [List.length_append, List.length_append]
    omega
  | powerOn railHeld =>
    cases railHeld with
    | none => decide
    | some held => cases held <;> decide
  | _ => decide

theorem reasonEnding_code {code : Nat} (h : reasonEnding named e = .unknown code) :
    code = e.reason.toNat := by
  unfold reasonEnding at h
  dsimp only at h
  split at h
  · exact absurd h (by simp)
  split at h
  · exact absurd h (by simp)
  split at h
  · exact absurd h (by simp)
  split at h
  · exact absurd h (by simp)
  split at h
  · exact absurd h (by simp)
  · exact (Ending.unknown.inj h).symm

/-- The ending of a record is by its reason, or says nothing that is not in it. -/
theorem consoleEnding_cases {ending : Ending} (h : consoleEnding named e = ending) :
    reasonEnding named e = ending ∨ ending = .asked (intentName e.intent) ∨
      ∀ intent code, ending ≠ .asked intent ∧ ending ≠ .unknown code := by
  have hplain : ∀ {other : Ending}, other = ending →
      (∀ intent code, other ≠ .asked intent ∧ other ≠ .unknown code) →
      reasonEnding named e = ending ∨ ending = .asked (intentName e.intent) ∨
        ∀ intent code, ending ≠ .asked intent ∧ ending ≠ .unknown code := by
    rintro other rfl hother
    exact .inr (.inr hother)
  rw [consoleEnding_reason] at h
  split at h
  · exact hplain h (by simp)
  split at h
  · exact hplain h (by simp)
  split at h
  · exact hplain h (by simp)
  split at h
  · exact hplain h (by simp)
  split at h
  · exact hplain h (by simp)
  split at h
  · exact hplain h (by simp)
  split at h
  · exact .inr (.inl h.symm)
  · exact .inl h

theorem consoleEnding_length (named : UInt8 → ResetReason) (e : Reset.Entry) :
    (consoleEnding named e).consoleText.length ≤ 45 := by
  rcases consoleEnding_cases (rfl : consoleEnding named e = _) with heq | heq | hne
  · rw [← heq]
    exact consoleText_length _ (fun intent h => absurd h (reasonEnding_ne intent))
      fun code h => reasonEnding_code h ▸ e.reason.toNat_lt
  · rw [heq]
    exact consoleText_length _ (fun _ h => Ending.asked.inj h ▸ intentName_length e.intent)
      fun _ h => absurd h (by simp)
  · exact consoleText_length _ (fun intent h => absurd h (hne intent 0).1)
      fun code h => absurd h (hne "" code).2

/-- The console's cell takes every ending whole. -/
theorem resetWhatHappened_whole (named : UInt8 → ResetReason) (e : Reset.Entry) :
    resetWhatHappened named e 64 = (consoleEnding named e).consoleText ++
      if consoleStartup e then ascii ", during startup" else [] := by
  have hlen := consoleEnding_length named e
  have hstartup : (if consoleStartup e then ascii ", during startup" else []).length ≤ 16 := by
    split <;> decide
  refine Reset.truncated_fits ?_
  rw [List.length_append]
  omega

/-- **Two wordings of one ending**, where the record is worded. -/
theorem wordings_agree (named : UInt8 → ResetReason) (rendered : BitVec 64 → List UInt8)
    (h : Worded e) : ∃ (ending : Ending) (duringStartup : Bool),
      resetWhatHappened named e 64 =
          ending.consoleText ++ (if duringStartup then ascii ", during startup" else []) ∧
        whatHappened (resetRow named rendered e) =
          (if duringStartup then ending.page.1 ++ " during startup" else ending.page.1,
            ending.page.2) := by
  refine ⟨consoleEnding named e, consoleStartup e, resetWhatHappened_whole named e, ?_⟩
  unfold whatHappened
  rw [ending_agrees.mpr h, startup_agrees]

/-! ## Rows -/

/-- The console's numbers wrap and the page's do not, but there is no record 0. -/
theorem seq_agrees (h : ender.bootSeq ≠ 0) :
    ender.bootSeq.toNat = e.bootSeq.toNat + 1 ↔ ender.bootSeq = e.bootSeq + 1 := by
  have hlt := ender.bootSeq.isLt
  have hne : ender.bootSeq.toNat ≠ 0 := fun hzero => h (BitVec.eq_of_toNat_eq hzero)
  have hsum : (e.bootSeq + 1).toNat = (e.bootSeq.toNat + 1) % 2 ^ 32 := BitVec.toNat_add _ _
  constructor
  · intro heq
    apply BitVec.eq_of_toNat_eq
    rw [hsum]
    omega
  · intro heq
    rw [heq] at hne hlt ⊢
    rw [hsum] at hne hlt ⊢
    omega

/-- A row below another says the same of both exactly if what ends it is worded. -/
theorem row_agrees (named : UInt8 → ResetReason) (rendered : BitVec 64 → List UInt8)
    {ender : Reset.Entry} (e : Reset.Entry) (h : ender.bootSeq ≠ 0) :
    (if (resetRow named rendered ender).seq = (resetRow named rendered e).seq + 1 then
        RowText.ended (pageEnding (resetRow named rendered ender))
          (pageStartup (resetRow named rendered ender)) (pageRanFor (resetRow named rendered ender))
      else .unrecorded) =
      (if ender.bootSeq = e.bootSeq + 1 then
        .ended (consoleEnding named ender) (consoleStartup ender) (resetRanFor ender ranSize)
      else .unrecorded) ↔ EndsWorded ender e := by
  have hseq : (resetRow named rendered ender).seq = (resetRow named rendered e).seq + 1 ↔
      ender.bootSeq = e.bootSeq + 1 := seq_agrees h
  unfold EndsWorded
  by_cases hnext : ender.bootSeq = e.bootSeq + 1
  · rw [if_pos (hseq.mpr hnext), if_pos hnext, startup_agrees, ranFor_agrees, RowText.ended.injEq,
      ending_agrees]
    simp [hnext]
  · rw [if_neg fun heq => hnext (hseq.mp heq), if_neg hnext]
    exact ⟨fun _ heq => absurd heq hnext, fun _ => rfl⟩

theorem rowsFrom_agree (named : UInt8 → ResetReason) (rendered : BitVec 64 → List UInt8)
    {upS : BitVec 64} (hup : upS.toNat < 4294967296) (newer : Option Reset.Entry)
    (recs : List Reset.Entry)
    (hnewer : ∀ ender ∈ newer, ender.bootSeq ≠ 0) (hrecs : ∀ e ∈ recs, e.bootSeq ≠ 0) :
    pageRowsFrom upS.toNat (newer.map (resetRow named rendered))
        (recs.map (resetRow named rendered)) = consoleRowsFrom named upS newer recs ↔
      (newer.toList ++ recs).IsChain EndsWorded := by
  induction recs generalizing newer with
  | nil =>
    cases newer with
    | none => simp [pageRowsFrom, consoleRowsFrom]
    | some ender => simp [pageRowsFrom, consoleRowsFrom]
  | cons e recs ih =>
    obtain ⟨he, hrest⟩ := List.forall_mem_cons.mp hrecs
    have htail := ih (some e)
      (fun ender hender => Option.some.inj hender ▸ he) hrest
    cases newer with
    | none =>
      rw [Option.map_none, List.map_cons, pageRowsFrom, consoleRowsFrom, List.cons_eq_cons]
      have hfigure : fmtExact (upS.setWidth 32).toNat ranSize = formatUptime upS.toNat := by
        rw [BitVec.toNat_setWidth, Nat.mod_eq_of_lt hup]
        exact fmtExact_whole hup
      rw [hfigure]
      exact (and_iff_right rfl).trans htail
    | some ender =>
      have hrow := row_agrees named rendered e (hnewer ender rfl)
      rw [Option.map_some, List.map_cons, pageRowsFrom, consoleRowsFrom, List.cons_eq_cons,
        TableRow.mk.injEq]
      refine (and_congr ((and_iff_right rfl).trans hrow) htail).trans ?_
      exact List.isChain_cons_cons.symm

end

/-- A restart that a later firmware had a name for, below the record of a boot that ran out of its
    supply. -/
def laterFirmware : List Reset.Entry :=
  [{ bootSeq := 7, reason := 1 }, { bootSeq := 8, reason := 3, intent := 6, flags := fPrevState }]

end Web
end Wt32Router
