import Wt32Router.Reset.Bracket
import Wt32Router.Web.ClientHistory
import Wt32Router.Web.Leases
import Wt32Router.Web.LeasesJson

/-!
# The reset history as JSON

`resets_get_handler` of `main/web_server.c`, over the ring of `main/reset_log.c`. The buffer is laid
out for "a measured worst-case entry", which "had run out" before and "is not generous either".

> **`resets_json`**: it holds. Whatever the records of a ring say, the page is sent whole, and it is
> an object with an element for each of them, if what goes there without a look (a partition's
> label, a rendered time) needs no escape. A version is looked at, but `strlcpy` may have cut it in
> the middle of a character; so it is JSON exactly if no version on it has been.
-/

namespace Wt32Router
namespace Web

open Lib
open Reset (ceilingFor fBootTime fOtaPending fPrevState fPrevUptimeMin fRailHeld fRailKnown
  fReachedReady fRollback hasFlag maxRecords)

/-! ## What an element says -/

/-- `reset_intent_t`, as far as this firmware has a name for it. -/
def resetIntent (code : UInt8) : Option ResetIntent :=
  if code = 0 then some .unknown
  else if code = 1 then some .ota
  else if code = 2 then some .wifiSave
  else if code = 3 then some .wanSave
  else if code = 4 then some .console
  else if code = 5 then some .factoryReset
  else none

/-- `reset_log_intent_name`. -/
def intentName (code : UInt8) : String := ((resetIntent code).map resetLogIntentName).getD "unknown"

/-- An object of the array `resets`; what is null is `none`. -/
structure ResetRow where
  seq : Nat
  reason : String
  reasonCode : Nat
  intent : String
  uptimeS : Option Nat
  uptimeApprox : Bool
  uptimeMaxS : Option Nat
  reachedReady : Option Bool
  railHeld : Option Bool
  whenText : Option (List UInt8)
  whenEpoch : Option Int
  otaPending : Bool
  rollback : Bool
  partition : List UInt8
  version : List UInt8
deriving DecidableEq, Repr

/-- `named` is how the IDF numbers `esp_reset_reason_t`, and `rendered` is `clock_time_format` in
    the configured zone. -/
def resetRow (named : UInt8 → ResetReason) (rendered : BitVec 64 → List UInt8) (e : Reset.Entry) :
    ResetRow :=
  let havePrev := hasFlag e.flags fPrevState
  let approx := !havePrev && hasFlag e.flags fPrevUptimeMin
  let haveWhen := hasFlag e.flags fBootTime
  { seq := e.bootSeq.toNat
    reason := resetLogReasonName (named e.reason)
    reasonCode := e.reason.toNat
    intent := intentName e.intent
    uptimeS := if havePrev || approx then some e.prevUptimeS.toNat else none
    uptimeApprox := approx
    uptimeMaxS :=
      if approx then
        let ceilS := ceilingFor e.prevUptimeS.toNat
        if ceilS ≠ 0 then some ceilS else none
      else none
    reachedReady := if havePrev then some (hasFlag e.flags fReachedReady) else none
    railHeld := if hasFlag e.flags fRailKnown then some (hasFlag e.flags fRailHeld) else none
    whenText := if haveWhen then some (rendered e.bootEpoch) else none
    whenEpoch := if haveWhen then some e.bootEpoch.toInt else none
    otaPending := hasFlag e.flags fOtaPending
    rollback := hasFlag e.flags fRollback
    partition := cString e.part.chars
    version := cString e.version.chars }

/-! ## The texts -/

def resetsRespSize : Nat := maxRecords * 352 + maxRecords * 6 * 24 + 96

def jsonBool (b : Bool) : List UInt8 := ascii (if b then "true" else "false")

def orNull (text : Option (List UInt8)) : List UInt8 := text.getD (ascii "null")

/-- `json_time_or_null`, of a time rendered already. -/
def jsonTime (text : List UInt8) : List UInt8 := 34 :: (text ++ [34])

def resetsHead (count : Nat) (currentUptimeS : BitVec 64) : List UInt8 :=
  ascii "\x7b\"max\":" ++ decimal maxRecords ++ ascii ",\"count\":" ++ decimal count ++
    ascii ",\"current_uptime_s\":" ++ decimal currentUptimeS.toNat ++ ascii ",\"resets\":["

/-- An element up to the version. -/
def resetHead (r : ResetRow) : List UInt8 :=
  ascii "\x7b\"seq\":" ++ decimal r.seq ++ ascii ",\"reason\":\"" ++ ascii r.reason ++
    ascii "\",\"reason_code\":" ++ decimal r.reasonCode ++ ascii ",\"intent\":\"" ++
    ascii r.intent ++ ascii "\",\"uptime_s\":" ++ orNull (r.uptimeS.map decimal) ++
    ascii ",\"uptime_approx\":" ++ jsonBool r.uptimeApprox ++ ascii ",\"uptime_max_s\":" ++
    orNull (r.uptimeMaxS.map decimal) ++ ascii ",\"reached_ready\":" ++
    orNull (r.reachedReady.map jsonBool) ++ ascii ",\"rail_held\":" ++
    orNull (r.railHeld.map jsonBool) ++ ascii ",\"when\":" ++ orNull (r.whenText.map jsonTime) ++
    ascii ",\"when_epoch\":" ++ orNull (r.whenEpoch.map signedDecimal) ++
    ascii ",\"ota_pending\":" ++ jsonBool r.otaPending ++ ascii ",\"rollback\":" ++
    jsonBool r.rollback ++ ascii ",\"partition\":\"" ++ r.partition ++ ascii "\",\"version\":\""

def resetText (r : ResetRow) : List UInt8 := resetHead r ++ escaped r.version ++ ascii "\"\x7d"

/-! ## The handler -/

/-- `reset_log_get`: the newest first. -/
def resetLogGet (ring : List Reset.Entry) (max : Nat) : List Reset.Entry := ring.reverse.take max

/-- One turn of the loop over the records. -/
def appendReset (resp : Resp) (i : Nat) (r : ResetRow) : Resp :=
  let resp := respAppend resetsRespSize resp ((if i = 0 then [] else [44]) ++ resetHead r)
  let resp := jsonAppendEscaped resetsRespSize resp r.version
  respAppend resetsRespSize resp (ascii "\"\x7d")

/-- `resets_get_handler`. -/
def resetsGet (authorized passwordIsDefault : Bool) (named : UInt8 → ResetReason)
    (rendered : BitVec 64 → List UInt8) (ring : List Reset.Entry) (currentUptimeS : BitVec 64) :
    PageAnswer :=
  if !authorized then .authError
  else if passwordIsDefault then .setupRequired
  else
    let recs := resetLogGet ring maxRecords
    let resp := respAppend resetsRespSize (some []) (resetsHead recs.length currentUptimeS)
    let resp := respEach resetsRespSize appendReset resp 0 (recs.map (resetRow named rendered))
    let resp := respAppend resetsRespSize resp (ascii "]\x7d")
    match respSendJson resetsRespSize resp with
    | none => .error 500 "Response buffer overflow"
    | some body => .sent body

/-! ## The whole text -/

def resetsText (rows : List ResetRow) (currentUptimeS : BitVec 64) : List UInt8 :=
  resetsHead rows.length currentUptimeS ++ commaSeparated (rows.map resetText) ++ ascii "]\x7d"

/-- The rows that the page has of a ring. -/
def resetRows (named : UInt8 → ResetReason) (rendered : BitVec 64 → List UInt8)
    (ring : List Reset.Entry) : List ResetRow :=
  (resetLogGet ring maxRecords).map (resetRow named rendered)

def ResetRow.members (r : ResetRow) : List JsonMember :=
  [tightMember "seq" (decimal r.seq), tightMember "reason" (plainValue (ascii r.reason)),
    tightMember "reason_code" (decimal r.reasonCode),
    tightMember "intent" (plainValue (ascii r.intent)),
    tightMember "uptime_s" (orNull (r.uptimeS.map decimal)),
    tightMember "uptime_approx" (jsonBool r.uptimeApprox),
    tightMember "uptime_max_s" (orNull (r.uptimeMaxS.map decimal)),
    tightMember "reached_ready" (orNull (r.reachedReady.map jsonBool)),
    tightMember "rail_held" (orNull (r.railHeld.map jsonBool)),
    tightMember "when" (orNull (r.whenText.map plainValue)),
    tightMember "when_epoch" (orNull (r.whenEpoch.map signedDecimal)),
    tightMember "ota_pending" (jsonBool r.otaPending),
    tightMember "rollback" (jsonBool r.rollback),
    tightMember "partition" (plainValue r.partition),
    tightMember "version" (quotedPieces ((cString r.version).map pieceOf))]

def resetsMembers (rows : List ResetRow) (currentUptimeS : BitVec 64) : List JsonMember :=
  [tightMember "max" (decimal maxRecords), tightMember "count" (decimal rows.length),
    tightMember "current_uptime_s" (decimal currentUptimeS.toNat),
    tightMember "resets"
      (91 :: (arrayText [] (rows.map fun r => { value := resetText r }) ++ [93]))]

/-- What goes into a row without a look needs none. -/
structure ResetRow.Plain (r : ResetRow) : Prop where
  reason : Bare (ascii r.reason)
  intent : Bare (ascii r.intent)
  whenText : ∀ text ∈ r.whenText, Bare text
  partition : Bare r.partition

/-- What the buffers of the handler take of a row. -/
structure ResetRow.Small (r : ResetRow) : Prop where
  seq : r.seq < 4294967296
  reason : (ascii r.reason).length ≤ 10
  reasonCode : r.reasonCode < 256
  intent : (ascii r.intent).length ≤ 13
  uptimeS : ∀ s ∈ r.uptimeS, s < 4294967296
  uptimeMaxS : ∀ s ∈ r.uptimeMaxS, s < 4294967296
  whenText : ∀ text ∈ r.whenText, text.length ≤ 19
  whenEpoch : ∀ t ∈ r.whenEpoch, t.natAbs < 10 ^ 19
  partition : r.partition.length ≤ 7
  version : r.version.length ≤ 23

section

variable {buf : List UInt8} {r : ResetRow} {rows : List ResetRow} {i : Nat}
  {named : UInt8 → ResetReason} {rendered : BitVec 64 → List UInt8} {e : Reset.Entry}

/-! ## How long the texts are -/

theorem intentName_length (code : UInt8) : (ascii (intentName code)).length ≤ 13 := by
  unfold intentName
  cases resetIntent code with
  | none => decide
  | some intent => exact resetLogIntentName_length intent

theorem ceilingFor_lt (floorS : Nat) : ceilingFor floorS < 4294967296 := by
  unfold ceilingFor
  cases hfind : Reset.kCkptTimes.find? (decide <| floorS < ·) with
  | none => decide
  | some time =>
    have hall : ∀ time ∈ Reset.kCkptTimes, time < 4294967296 := by decide
    exact hall time (List.mem_of_find?_eq_some hfind)

theorem cString_length (text : List UInt8) : (cString text).length ≤ text.length :=
  (List.takeWhile_prefix _).length_le

theorem resetRow_small (named : UInt8 → ResetReason)
    (hrendered : hasFlag e.flags fBootTime = true → (rendered e.bootEpoch).length ≤ 19) :
    (resetRow named rendered e).Small where
  seq := e.bootSeq.isLt
  reason := resetLogReasonName_length _
  reasonCode := e.reason.toNat_lt
  intent := intentName_length _
  uptimeS := by
    unfold resetRow
    dsimp only
    split
    · exact fun s hs => Option.some.inj hs ▸ e.prevUptimeS.isLt
    · exact fun s hs => absurd hs (by simp)
  uptimeMaxS := by
    unfold resetRow
    dsimp only
    split
    · split
      · exact fun s hs => Option.some.inj hs ▸ ceilingFor_lt _
      · exact fun s hs => absurd hs (by simp)
    · exact fun s hs => absurd hs (by simp)
  whenText := by
    unfold resetRow
    dsimp only
    split
    · rename_i hwhen
      exact fun text htext => Option.some.inj htext ▸ hrendered hwhen
    · exact fun text htext => absurd htext (by simp)
  whenEpoch := by
    unfold resetRow
    dsimp only
    split
    · intro t ht
      have hlo := BitVec.le_two_mul_toInt (x := e.bootEpoch)
      have hhi := BitVec.two_mul_toInt_lt (x := e.bootEpoch)
      rw [← Option.some.inj ht]
      omega
    · exact fun t ht => absurd ht (by simp)
  partition := Nat.le_trans (cString_length _) (Nat.le_of_eq (Nat.succ.inj e.part.length_eq))
  version := Nat.le_trans (cString_length _) (Nat.le_of_eq (Nat.succ.inj e.version.length_eq))

theorem jsonBool_length (b : Bool) : (jsonBool b).length ≤ 5 := by
  cases b <;> decide

/-- Null is four characters. -/
theorem orNull_length {text : Option (List UInt8)} {n : Nat} (hn : 4 ≤ n)
    (h : ∀ t ∈ text, t.length ≤ n) : (orNull text).length ≤ n := by
  cases text with
  | none => exact hn
  | some t => exact h t rfl

theorem orNull_decimal_length {v : Option Nat} (h : ∀ s ∈ v, s < 4294967296) :
    (orNull (v.map decimal)).length ≤ 10 := by
  refine orNull_length (by decide) fun t ht => ?_
  obtain ⟨s, hs, rfl⟩ := Option.map_eq_some_iff.mp ht
  exact decimal_length (by decide) (Nat.lt_trans (h s hs) (by decide))

theorem orNull_bool_length (v : Option Bool) : (orNull (v.map jsonBool)).length ≤ 5 := by
  refine orNull_length (by decide) fun t ht => ?_
  obtain ⟨b, -, rfl⟩ := Option.map_eq_some_iff.mp ht
  exact jsonBool_length b

theorem signedDecimal_length {t : Int} {n : Nat} (hn : 0 < n) (h : t.natAbs < 10 ^ n) :
    (signedDecimal t).length ≤ n + 1 := by
  have hlen := decimal_length hn h
  unfold signedDecimal
  split
  · rw [List.length_cons]
    omega
  · omega

theorem resetHead_length (h : r.Small) : (resetHead r).length ≤ 326 := by
  have hseq : (decimal r.seq).length ≤ 10 :=
    decimal_length (by decide) (Nat.lt_trans h.seq (by decide))
  have hcode : (decimal r.reasonCode).length ≤ 3 :=
    decimal_length (by decide) (Nat.lt_trans h.reasonCode (by decide))
  have hreason := h.reason
  have hintent := h.intent
  have huptime := orNull_decimal_length h.uptimeS
  have hmax := orNull_decimal_length h.uptimeMaxS
  have happrox := jsonBool_length r.uptimeApprox
  have hready := orNull_bool_length r.reachedReady
  have hrail := orNull_bool_length r.railHeld
  have hwhen : (orNull (r.whenText.map jsonTime)).length ≤ 21 := by
    refine orNull_length (by decide) fun t ht => ?_
    obtain ⟨text, htext, rfl⟩ := Option.map_eq_some_iff.mp ht
    have hlen := h.whenText text htext
    simp only [jsonTime, List.length_cons, List.length_append, List.length_nil]
    omega
  have hepoch : (orNull (r.whenEpoch.map signedDecimal)).length ≤ 20 := by
    refine orNull_length (by decide) fun t ht => ?_
    obtain ⟨epoch, hepoch, rfl⟩ := Option.map_eq_some_iff.mp ht
    exact signedDecimal_length (by decide) (h.whenEpoch epoch hepoch)
  have hpending := jsonBool_length r.otaPending
  have hrollback := jsonBool_length r.rollback
  have hpartition := h.partition
  have h₁ : (ascii "\x7b\"seq\":").length = 7 := ascii_ofList_length _
  have h₂ : (ascii ",\"reason\":\"").length = 11 := ascii_ofList_length _
  have h₃ : (ascii "\",\"reason_code\":").length = 16 := ascii_ofList_length _
  have h₄ : (ascii ",\"intent\":\"").length = 11 := ascii_ofList_length _
  have h₅ : (ascii "\",\"uptime_s\":").length = 13 := ascii_ofList_length _
  have h₆ : (ascii ",\"uptime_approx\":").length = 17 := ascii_ofList_length _
  have h₇ : (ascii ",\"uptime_max_s\":").length = 16 := ascii_ofList_length _
  have h₈ : (ascii ",\"reached_ready\":").length = 17 := ascii_ofList_length _
  have h₉ : (ascii ",\"rail_held\":").length = 13 := ascii_ofList_length _
  have h₁₀ : (ascii ",\"when\":").length = 8 := ascii_ofList_length _
  have h₁₁ : (ascii ",\"when_epoch\":").length = 14 := ascii_ofList_length _
  have h₁₂ : (ascii ",\"ota_pending\":").length = 15 := ascii_ofList_length _
  have h₁₃ : (ascii ",\"rollback\":").length = 12 := ascii_ofList_length _
  have h₁₄ : (ascii ",\"partition\":\"").length = 14 := ascii_ofList_length _
  have h₁₅ : (ascii "\",\"version\":\"").length = 13 := ascii_ofList_length _
  unfold resetHead
  simp only [List.length_append]
  omega

theorem resetsHead_length {count : Nat} (hcount : count ≤ maxRecords) (currentUptimeS : BitVec 64) :
    (resetsHead count currentUptimeS).length ≤ 71 := by
  have hcount : (decimal count).length ≤ 2 :=
    decimal_length (by decide) (Nat.lt_of_le_of_lt hcount (by decide))
  have huptime : (decimal currentUptimeS.toNat).length ≤ 20 :=
    decimal_length (by decide) (Nat.lt_trans currentUptimeS.isLt (by decide))
  have hmax : (decimal maxRecords).length = 2 := by decide
  have h₁ : (ascii "\x7b\"max\":").length = 7 := ascii_ofList_length _
  have h₂ : (ascii ",\"count\":").length = 9 := ascii_ofList_length _
  have h₃ : (ascii ",\"current_uptime_s\":").length = 20 := ascii_ofList_length _
  have h₄ : (ascii ",\"resets\":[").length = 11 := ascii_ofList_length _
  unfold resetsHead
  simp only [List.length_append]
  omega

/-! ## There is room -/

/-- What an element may take, with the comma in front of it. -/
def resetRoom : Nat := 329 + 6 * 23

theorem resetText_length (h : r.Small) : (resetText r).length + 1 ≤ resetRoom := by
  have hhead := resetHead_length h
  have hversion := escaped_length r.version
  have hlen := h.version
  have hclose : (ascii "\"\x7d").length = 2 := ascii_ofList_length _
  unfold resetText resetRoom
  simp only [List.length_append]
  omega

theorem appendReset_some (h : r.Small) (hroom : buf.length + resetRoom < resetsRespSize) :
    appendReset (some buf) i r =
      some (buf ++ ((if i = 0 then [] else [44]) ++ resetText r)) := by
  have hhead := resetHead_length h
  have hversion := escaped_length r.version
  have hlen := h.version
  have hcomma : (if i = 0 then [] else [44] : List UInt8).length ≤ 1 := by
    split <;> decide
  have hclose : (ascii "\"\x7d").length = 2 := ascii_ofList_length _
  unfold resetRoom at hroom
  unfold appendReset resetText
  dsimp only
  rw [respAppend_some (by rw [List.length_append]; omega),
    jsonAppendEscaped_some (by simp only [List.length_append]; omega),
    respAppend_some (by simp only [List.length_append]; omega)]
  simp only [List.append_assoc]

/-- **The page is sent whole**, whatever the records say. -/
theorem resets_sent (named : UInt8 → ResetReason) (rendered : BitVec 64 → List UInt8)
    {ring : List Reset.Entry}
    (hrendered : ∀ e ∈ ring, hasFlag e.flags fBootTime = true →
      (rendered e.bootEpoch).length ≤ 19) (currentUptimeS : BitVec 64) :
    resetsGet true false named rendered ring currentUptimeS =
      .sent (resetsText (resetRows named rendered ring) currentUptimeS) := by
  have hcount : (resetLogGet ring maxRecords).length ≤ maxRecords := List.length_take_le _ _
  have hrows : ∀ r ∈ resetRows named rendered ring, r.Small := by
    refine List.forall_mem_map.mpr fun e he => resetRow_small named (hrendered e ?_)
    exact List.mem_reverse.mp (List.mem_of_mem_take he)
  have hlength : (resetRows named rendered ring).length = (resetLogGet ring maxRecords).length :=
    List.length_map _
  have hhead := resetsHead_length hcount currentUptimeS
  have hrooms : ((resetRows named rendered ring).map fun _ => resetRoom).sum ≤ 16 * resetRoom := by
    rw [List.map_const', List.sum_replicate, smul_eq_mul, hlength]
    exact Nat.mul_le_mul_right _ hcount
  have hsize : resetsRespSize = 8032 := rfl
  have hroom : resetRoom = 467 := rfl
  have hclose : (ascii "]\x7d").length = 2 := ascii_ofList_length _
  have hstart : respAppend resetsRespSize (some [])
      (resetsHead (resetLogGet ring maxRecords).length currentUptimeS) =
        some (resetsHead (resetLogGet ring maxRecords).length currentUptimeS) :=
    respAppend_some (show 0 + _ < _ by omega)
  obtain ⟨hloop, hentries⟩ := respEach_some
    (resetsHead (resetLogGet ring maxRecords).length currentUptimeS)
    (resetRows named rendered ring) (fun _ => resetRoom)
    (fun _ _ r hr => appendReset_some (hrows r hr)) (fun r hr => resetText_length (hrows r hr))
    (by omega)
  unfold resetsGet resetsText
  dsimp only
  rw [hstart]
  show (match respSendJson resetsRespSize (respAppend resetsRespSize (respEach resetsRespSize
    appendReset _ 0 (resetRows named rendered ring)) _) with | none => _ | some body => _) = _
  rw [hloop, respAppend_some (by rw [List.length_append]; omega),
    respSendJson_some (by simp only [List.length_append]; omega), hlength]

/-! ## A row -/

theorem jsonTime_plain (text : List UInt8) : jsonTime text = plainValue text :=
  (quotedPieces_plain text).symm

theorem resetText_object (r : ResetRow) :
    resetText r = 123 :: (objectText [] r.members ++ [125]) := by
  have h₁ : ascii "\x7b\"seq\":" = 123 :: 34 :: (ascii "seq" ++ [34, 58]) := by decide
  have h₂ : ascii ",\"reason\":\"" = 44 :: 34 :: (ascii "reason" ++ [34, 58, 34]) := by decide
  have h₃ : ascii "\",\"reason_code\":" =
      34 :: 44 :: 34 :: (ascii "reason_code" ++ [34, 58]) := by decide
  have h₄ : ascii ",\"intent\":\"" = 44 :: 34 :: (ascii "intent" ++ [34, 58, 34]) := by decide
  have h₅ : ascii "\",\"uptime_s\":" = 34 :: 44 :: 34 :: (ascii "uptime_s" ++ [34, 58]) := by decide
  have h₆ : ascii ",\"uptime_approx\":" =
      44 :: 34 :: (ascii "uptime_approx" ++ [34, 58]) := by decide
  have h₇ : ascii ",\"uptime_max_s\":" =
      44 :: 34 :: (ascii "uptime_max_s" ++ [34, 58]) := by decide
  have h₈ : ascii ",\"reached_ready\":" =
      44 :: 34 :: (ascii "reached_ready" ++ [34, 58]) := by decide
  have h₉ : ascii ",\"rail_held\":" = 44 :: 34 :: (ascii "rail_held" ++ [34, 58]) := by decide
  have h₁₀ : ascii ",\"when\":" = 44 :: 34 :: (ascii "when" ++ [34, 58]) := by decide
  have h₁₁ : ascii ",\"when_epoch\":" = 44 :: 34 :: (ascii "when_epoch" ++ [34, 58]) := by decide
  have h₁₂ : ascii ",\"ota_pending\":" =
      44 :: 34 :: (ascii "ota_pending" ++ [34, 58]) := by decide
  have h₁₃ : ascii ",\"rollback\":" = 44 :: 34 :: (ascii "rollback" ++ [34, 58]) := by decide
  have h₁₄ : ascii ",\"partition\":\"" =
      44 :: 34 :: (ascii "partition" ++ [34, 58, 34]) := by decide
  have h₁₅ : ascii "\",\"version\":\"" =
      34 :: 44 :: 34 :: (ascii "version" ++ [34, 58, 34]) := by decide
  have hclose : ascii "\"\x7d" = [34, 125] := by decide
  have hwhen : r.whenText.map jsonTime = r.whenText.map plainValue :=
    congrArg r.whenText.map (funext jsonTime_plain)
  unfold resetText resetHead ResetRow.members
  rw [h₁, h₂, h₃, h₄, h₅, h₆, h₇, h₈, h₉, h₁₀, h₁₁, h₁₂, h₁₃, h₁₄, h₁₅, hclose, hwhen,
    escaped_shown]
  simp only [objectText, List.map_cons, List.map_nil, commaSeparated_cons, tightMember_text,
    quotedPieces_plain, quotedPieces, List.flatMap_cons, List.flatMap_nil, List.append_assoc,
    List.cons_append, List.nil_append]

theorem orNull_isValue {v : Option (List UInt8)} (h : ∀ text ∈ v, IsValue text) :
    IsValue (orNull v) := by
  cases v with
  | none => exact .word (.inr (.inl rfl))
  | some text => exact h text rfl

theorem orNull_map_isValue {α : Type} {f : α → List UInt8} (v : Option α)
    (h : ∀ a ∈ v, IsValue (f a)) : IsValue (orNull (v.map f)) := by
  refine orNull_isValue fun text htext => ?_
  obtain ⟨a, ha, rfl⟩ := Option.map_eq_some_iff.mp htext
  exact h a ha

theorem resetMembers_ok (r : ResetRow) : ∀ m ∈ r.members, m.Ok := by
  simp only [ResetRow.members, List.forall_mem_cons]
  exact ⟨tightMember_ok (by decide), tightMember_ok (by decide), tightMember_ok (by decide),
    tightMember_ok (by decide), tightMember_ok (by decide), tightMember_ok (by decide),
    tightMember_ok (by decide), tightMember_ok (by decide), tightMember_ok (by decide),
    tightMember_ok (by decide), tightMember_ok (by decide), tightMember_ok (by decide),
    tightMember_ok (by decide), tightMember_ok (by decide), tightMember_ok (by decide),
    List.forall_mem_nil _⟩

theorem resetMembers_values (h : r.Plain) : ∀ m ∈ r.members, IsValue m.value := by
  have hnumber : ∀ n, IsValue (decimal n) := fun n => .number (isNumber_decimal n)
  have hversion : IsValue (quotedPieces ((cString r.version).map pieceOf)) :=
    .string (List.forall_mem_map.mpr fun c _ => pieceOf_valid c)
  simp only [ResetRow.members, List.forall_mem_cons]
  exact ⟨hnumber _, h.reason.isValue, hnumber _, h.intent.isValue,
    orNull_map_isValue _ fun _ _ => hnumber _, bool_isValue _,
    orNull_map_isValue _ fun _ _ => hnumber _, orNull_map_isValue _ fun _ _ => bool_isValue _,
    orNull_map_isValue _ fun _ _ => bool_isValue _,
    orNull_map_isValue _ fun text htext => (h.whenText text htext).isValue,
    orNull_map_isValue _ fun _ _ => .number (isNumber_signedDecimal _), bool_isValue _,
    bool_isValue _, h.partition.isValue, hversion, List.forall_mem_nil _⟩

theorem resetText_isValue (h : r.Plain) : IsValue (resetText r) := by
  rw [resetText_object]
  exact .object (List.forall_mem_nil _) (resetMembers_ok r) (resetMembers_values h)

/-! ## UTF-8 -/

theorem Bare.low {text : List UInt8} (h : Bare text) : ∀ c ∈ text, c < 128 := fun c hc => (h c hc).2

theorem low_all {text : List UInt8} (h : text.all (fun c => decide (c < 128)) = true) :
    ∀ c ∈ text, c < 128 :=
  fun c hc => of_decide_eq_true (List.all_eq_true.mp h c hc)

theorem low_jsonBool (b : Bool) : ∀ c ∈ jsonBool b, c < 128 := by
  cases b <;> exact low_all (by decide)

theorem low_orNull {α : Type} {f : α → List UInt8} (v : Option α)
    (h : ∀ a ∈ v, ∀ c ∈ f a, c < 128) : ∀ c ∈ orNull (v.map f), c < 128 := by
  cases v with
  | none => exact low_all (show (ascii "null").all _ = true by decide)
  | some a => exact h a rfl

theorem low_signedDecimal (t : Int) : ∀ c ∈ signedDecimal t, c < 128 := by
  unfold signedDecimal
  split
  · exact List.forall_mem_cons.mpr ⟨by decide, (bare_decimal _).low⟩
  · exact (bare_decimal _).low

theorem low_jsonTime {text : List UInt8} (h : Bare text) : ∀ c ∈ jsonTime text, c < 128 :=
  List.forall_mem_cons.mpr ⟨by decide, List.forall_mem_append.mpr ⟨h.low, low_all (by decide)⟩⟩

theorem resetHead_low (h : r.Plain) : ∀ c ∈ resetHead r, c < 128 := by
  unfold resetHead
  simp only [List.forall_mem_append]
  refine ⟨⟨⟨⟨⟨⟨⟨⟨⟨⟨⟨⟨⟨⟨⟨⟨⟨⟨⟨⟨⟨⟨⟨⟨⟨⟨⟨⟨?_, (bare_decimal _).low⟩, ?_⟩, h.reason.low⟩, ?_⟩,
    (bare_decimal _).low⟩, ?_⟩, h.intent.low⟩, ?_⟩, low_orNull _ fun _ _ => (bare_decimal _).low⟩,
    ?_⟩, low_jsonBool _⟩, ?_⟩, low_orNull _ fun _ _ => (bare_decimal _).low⟩, ?_⟩,
    low_orNull _ fun _ _ => low_jsonBool _⟩, ?_⟩, low_orNull _ fun _ _ => low_jsonBool _⟩, ?_⟩,
    low_orNull _ fun text htext => low_jsonTime (h.whenText text htext)⟩, ?_⟩,
    low_orNull _ fun _ _ => low_signedDecimal _⟩, ?_⟩, low_jsonBool _⟩, ?_⟩, low_jsonBool _⟩, ?_⟩,
    h.partition.low⟩, ?_⟩
  all_goals exact low_all (by decide)

theorem resetText_utf8 (h : r.Plain) : IsUtf8 (resetText r) ↔ IsUtf8 (cString r.version) := by
  have hclose : ascii "\"\x7d" = 34 :: [125] := by decide
  unfold resetText
  rw [List.append_assoc, isUtf8_ascii_append (resetHead_low h), hclose, isUtf8_split (by decide),
    isUtf8_escaped]
  exact and_iff_left (isUtf8_singleton.mpr (by decide))

theorem resetText_isObject (h : r.Plain) (hversion : IsUtf8 (cString r.version)) :
    IsObject (resetText r) r.members where
  utf8 := (resetText_utf8 h).mpr hversion
  members := resetMembers_ok r
  values := resetMembers_values h
  text_eq := ⟨[], [], [], List.forall_mem_nil _, List.forall_mem_nil _, List.forall_mem_nil _,
    resetText_object r⟩

/-! ## The page -/

theorem resetsText_object (rows : List ResetRow) (currentUptimeS : BitVec 64) :
    resetsText rows currentUptimeS =
      123 :: (objectText [] (resetsMembers rows currentUptimeS) ++ [125]) := by
  have hmax : ascii "\x7b\"max\":" = 123 :: 34 :: (ascii "max" ++ [34, 58]) := by decide
  have hcount : ascii ",\"count\":" = 44 :: 34 :: (ascii "count" ++ [34, 58]) := by decide
  have huptime : ascii ",\"current_uptime_s\":" =
      44 :: 34 :: (ascii "current_uptime_s" ++ [34, 58]) := by decide
  have hresets : ascii ",\"resets\":[" = 44 :: 34 :: (ascii "resets" ++ [34, 58, 91]) := by decide
  have hclose : ascii "]\x7d" = [93, 125] := by decide
  have harray : arrayText [] (rows.map fun r => { value := resetText r }) =
      commaSeparated (rows.map resetText) := by
    cases rows with
    | nil => rfl
    | cons r rows =>
      simp only [List.map_cons, arrayText, JsonElement.text, List.map_map, List.nil_append,
        List.append_nil, Function.comp_def]
  unfold resetsText resetsHead resetsMembers
  rw [hmax, hcount, huptime, hresets, hclose, harray]
  simp only [objectText, List.map_cons, List.map_nil, commaSeparated_cons, tightMember_text,
    List.flatMap_cons, List.flatMap_nil, List.append_assoc, List.cons_append, List.nil_append]

theorem resetsText_utf8 {currentUptimeS : BitVec 64} (h : ∀ r ∈ rows, r.Plain) :
    IsUtf8 (resetsText rows currentUptimeS) ↔ ∀ r ∈ rows, IsUtf8 (cString r.version) := by
  have hresets : ascii ",\"resets\":[" = ascii ",\"resets\":" ++ [91] := by decide
  have hclose : ascii "]\x7d" = 93 :: [125] := by decide
  have hfront : IsUtf8 (ascii "\x7b\"max\":" ++ decimal maxRecords ++ ascii ",\"count\":" ++
      decimal rows.length ++ ascii ",\"current_uptime_s\":" ++ decimal currentUptimeS.toNat ++
      ascii ",\"resets\":") :=
    ((((((isUtf8_literal (by decide)).append (isUtf8_decimal _)).append
      (isUtf8_literal (by decide))).append (isUtf8_decimal _)).append
      (isUtf8_literal (by decide))).append (isUtf8_decimal _)).append (isUtf8_literal (by decide))
  unfold resetsText resetsHead
  rw [hresets, hclose, ← List.append_assoc, isUtf8_split (by decide), List.append_assoc,
    List.singleton_append, isUtf8_split (by decide), isUtf8_commaSeparated_iff,
    List.forall_mem_map]
  exact ((and_iff_left (isUtf8_singleton.mpr (by decide))).trans (and_iff_right hfront)).trans
    (forall₂_congr fun r hr => resetText_utf8 (h r hr))

theorem resetsText_isObject {currentUptimeS : BitVec 64} (h : ∀ r ∈ rows, r.Plain)
    (hversion : ∀ r ∈ rows, IsUtf8 (cString r.version)) :
    IsObject (resetsText rows currentUptimeS) (resetsMembers rows currentUptimeS) where
  utf8 := (resetsText_utf8 h).mpr hversion
  members := by
    simp only [resetsMembers, List.forall_mem_cons]
    exact ⟨tightMember_ok (by decide), tightMember_ok (by decide), tightMember_ok (by decide),
      tightMember_ok (by decide), List.forall_mem_nil _⟩
  values := by
    simp only [resetsMembers, List.forall_mem_cons]
    exact ⟨.number (isNumber_decimal _), .number (isNumber_decimal _),
      .number (isNumber_decimal _),
      .array (List.forall_mem_nil _)
        (List.forall_mem_map.mpr fun _ _ => ⟨List.forall_mem_nil _, List.forall_mem_nil _⟩)
        (List.forall_mem_map.mpr fun r hr => resetText_isValue (h r hr)),
      List.forall_mem_nil _⟩
  text_eq := ⟨[], [], [], List.forall_mem_nil _, List.forall_mem_nil _, List.forall_mem_nil _,
    resetsText_object rows currentUptimeS⟩

theorem resetRow_plain (named : UInt8 → ResetReason)
    (hrendered : hasFlag e.flags fBootTime = true → Bare (rendered e.bootEpoch))
    (hpart : Bare (cString e.part.chars)) : (resetRow named rendered e).Plain where
  reason := by
    show Bare (ascii (resetLogReasonName (named e.reason)))
    cases named e.reason <;> exact bare_all (by decide)
  intent := by
    show Bare (ascii (intentName e.intent))
    unfold intentName
    cases resetIntent e.intent with
    | none => exact bare_all (by decide)
    | some intent => cases intent <;> exact bare_all (by decide)
  whenText := by
    unfold resetRow
    dsimp only
    split
    · rename_i hwhen
      exact fun text htext => Option.some.inj htext ▸ hrendered hwhen
    · exact fun text htext => absurd htext (by simp)
  partition := hpart

end

/-- **The page of a ring is sent whole**, and is JSON exactly if no version on it has been cut in a
    character. -/
theorem resets_json (named : UInt8 → ResetReason) (rendered : BitVec 64 → List UInt8)
    {ring : List Reset.Entry}
    (hrendered : ∀ e ∈ ring, hasFlag e.flags fBootTime = true →
      (rendered e.bootEpoch).length ≤ 19 ∧ Bare (rendered e.bootEpoch))
    (hpart : ∀ e ∈ ring, Bare (cString e.part.chars)) (currentUptimeS : BitVec 64) :
    ∃ body, resetsGet true false named rendered ring currentUptimeS = .sent body ∧
      (IsJson body ↔ ∀ r ∈ resetRows named rendered ring, IsUtf8 (cString r.version)) ∧
      ((∀ r ∈ resetRows named rendered ring, IsUtf8 (cString r.version)) →
        IsObject body (resetsMembers (resetRows named rendered ring) currentUptimeS) ∧
          ∀ r ∈ resetRows named rendered ring, IsObject (resetText r) r.members) := by
  have hplain : ∀ r ∈ resetRows named rendered ring, r.Plain := by
    refine List.forall_mem_map.mpr fun e he => ?_
    have hmem : e ∈ ring := List.mem_reverse.mp (List.mem_of_mem_take he)
    exact resetRow_plain named (fun hwhen => (hrendered e hmem hwhen).2) (hpart e hmem)
  refine ⟨_, resets_sent named rendered (fun e he hwhen => (hrendered e he hwhen).1)
    currentUptimeS, ⟨fun hjson => (resetsText_utf8 hplain).mp hjson.1, fun hversion => ?_⟩,
    fun hversion => ⟨resetsText_isObject hplain hversion,
      fun r hr => resetText_isObject (hplain r hr) (hversion r hr)⟩⟩
  exact (resetsText_isObject hplain hversion).isJson

/-- A dated boot of a version with a character of two bytes in its name. -/
def datedEntry : Reset.Entry :=
  { bootSeq := 7, prevUptimeS := 75, bootEpoch := 1787433312, reason := 1, intent := 0
    flags := fPrevUptimeMin ||| fBootTime
    version := Reset.Text.ofBytes (ascii "1.3.0-" ++ [195, 182])
    part := Reset.Text.ofBytes (ascii "ota_0") }

theorem resets_json_dated :
    let named := fun _ => ResetReason.poweron
    let rendered := fun _ : BitVec 64 => ascii "2026-08-22 21:15:12"
    ∃ body, resetsGet true false named rendered [datedEntry] 12 = .sent body ∧
      (IsJson body ↔ ∀ r ∈ resetRows named rendered [datedEntry], IsUtf8 (cString r.version)) ∧
      ((∀ r ∈ resetRows named rendered [datedEntry], IsUtf8 (cString r.version)) →
        IsObject body (resetsMembers (resetRows named rendered [datedEntry]) 12) ∧
          ∀ r ∈ resetRows named rendered [datedEntry], IsObject (resetText r) r.members) := by
  intro named rendered
  refine resets_json named rendered (fun e he _ => ⟨by decide, bare_all (by decide)⟩)
    (fun e he => ?_) 12
  obtain rfl := List.mem_singleton.mp he
  exact bare_all (by decide)

end Web
end Wt32Router
