import Wt32Router.Track.History
import Wt32Router.Web.Json
import Wt32Router.Web.Resp

/-!
# The history of a client as JSON

`client_history_get_handler` reads a MAC from the query with a scan that stops once it has six
numbers, and puts the text it scanned into the answer as it is.

> **`client_history_json`**: what is sent is a JSON object whose `mac` is the text of the query
> exactly where that text fits the handler's buffer and could stand in a string as it is.

"Every string this server emits is device-controlled but not device-authored", says the source of
`json_append_escaped`, which this handler does not call.

The query is taken apart by `httpd_query_key_value` of the server's library, which is a parameter
here: the text it finds under a key, of which the handler's buffer keeps what fits.
-/

namespace Wt32Router
namespace Web

open Dhcp (Mac)
open Lib
open Track (ClientHistory Sample Tracked historyLen historyPeriodMs)

/-! ## The query -/

def isHexDigit (c : UInt8) : Bool := (hexValue c).isSome

/-- `%x` of `sscanf`: what `strtoul` takes to the base 16, and at least one digit. -/
def scanHex (text : List UInt8) : Option (BitVec 32 × List UInt8) :=
  let text := text.dropWhile isSpace
  let minus := text.head? == some 45
  let text := if minus || text.head? == some 43 then text.tail else text
  let text := if text.take 2 = [48, 120] ∨ text.take 2 = [48, 88] then text.drop 2 else text
  let digits := text.takeWhile isHexDigit
  if digits = [] then none
  else
    let v := codeUnit digits
    let n := if 2 ^ 32 ≤ v then BitVec.allOnes 32
      else if minus then -BitVec.ofNat 32 v else BitVec.ofNat 32 v
    some (n, text.dropWhile isHexDigit)

/-- `n` more of the numbers of a MAC, with a colon before each. -/
def scanOctets : Nat → List UInt8 → Option (List (BitVec 32))
  | 0, _ => some []
  | n + 1, text =>
      match text with
      | [] => none
      | c :: text => do
          if c ≠ 58 then none
          else
            let (b, text) ← scanHex text
            return b :: (← scanOctets n text)

/-- `parse_mac`. What stands behind the sixth number is not looked at. -/
def parseMac (str : List UInt8) : Option Mac := do
  let (b, text) ← scanHex str
  let bs ← scanOctets 5 text
  return (b :: bs).foldl (fun mac b => mac * 256 + (b.setWidth 8).setWidth 48) 0

/-! ## The answer -/

def historyRespSize : Nat := 1600

def macStrSize : Nat := 24

def sinceStrSize : Nat := 16

/-- What `httpd_req_get_url_query_str` returns. -/
inductive UrlQuery where
  | truncated
  | notFound
  | ok (query : List UInt8)
deriving DecidableEq, Repr

inductive HistoryAnswer where
  | authError
  | setupRequired
  | error (status : Nat) (msg : String)
  | sent (body : List UInt8)
deriving DecidableEq, Repr

/-- One of the loops over the samples, from the `i`th on. -/
def appendRates (resp : Resp) : Nat → List (BitVec 32) → Resp
  | _, [] => resp
  | i, rate :: rates =>
      if resp.off historyRespSize < historyRespSize then
        appendRates (respAppend historyRespSize resp
          ((if i = 0 then [] else [44]) ++ decimal rate.toNat)) (i + 1) rates
      else resp

/-- The text up to the first of the four arrays. -/
def historyHead (macStr : List UInt8) (hist : ClientHistory) : List UInt8 :=
  ascii "\x7b\"mac\":\"" ++ macStr ++ ascii "\",\"period_ms\":" ++ decimal historyPeriodMs
    ++ ascii ",\"seq\":" ++ decimal hist.seq.toNat ++ ascii ",\"reset\":"
    ++ ascii (if hist.reset then "true" else "false") ++ ascii ",\"rx\":["

def historyResp (macStr : List UInt8) (hist : ClientHistory) : Resp :=
  let resp := respAppend historyRespSize (some []) (historyHead macStr hist)
  let resp := appendRates resp 0 (hist.samples.map Sample.rxBps)
  let resp := respAppend historyRespSize resp (ascii "],\"tx\":[")
  let resp := appendRates resp 0 (hist.samples.map Sample.txBps)
  let resp := respAppend historyRespSize resp (ascii "],\"rx_pps\":[")
  let resp := appendRates resp 0 (hist.samples.map Sample.rxPps)
  let resp := respAppend historyRespSize resp (ascii "],\"tx_pps\":[")
  let resp := appendRates resp 0 (hist.samples.map Sample.txPps)
  respAppend historyRespSize resp (ascii "]\x7d")

/-- The buffer for the value of a key, once `httpd_query_key_value` has been asked for it. -/
def urlValue (keyValue : List UInt8 → List UInt8 → Option (List UInt8)) (url : UrlQuery)
    (key : String) (size : Nat) : List UInt8 :=
  match url with
  | .ok query => strlcpy size ((keyValue query (ascii key)).getD [])
  | _ => []

/-- `client_history_get_handler`. `keyValue` has the value of a key in a query. -/
def clientHistoryGet (keyValue : List UInt8 → List UInt8 → Option (List UInt8)) (s : Tracked)
    (authorized passwordIsDefault : Bool) (url : UrlQuery) : HistoryAnswer :=
  if !authorized then .authError
  else if passwordIsDefault then .setupRequired
  else if url = .truncated then .error 414 "Query string too long"
  else
    let macStr := urlValue keyValue url "mac" macStrSize
    let sinceStr := urlValue keyValue url "since" sinceStrSize
    match parseMac macStr with
    | none => .error 400 "Missing or invalid \"mac\""
    | some mac =>
      match s.getHistory mac (if sinceStr = [] then 0 else strtoul sinceStr) with
      | none => .error 404 "Unknown client"
      | some hist =>
        match respSendJson historyRespSize (historyResp macStr hist) with
        | none => .error 500 "Response buffer overflow"
        | some body => .sent body

/-! ## The object -/

/-- A name, which needs no escape. -/
def nameOf (s : String) : List Piece := (ascii s).map Piece.plain

/-- A member without white space. -/
def tightMember (name : String) (value : List UInt8) : JsonMember := { name := nameOf name, value }

def ratesValue (rates : List (BitVec 32)) : List UInt8 :=
  91 :: (arrayText [] (rates.map fun rate => { value := decimal rate.toNat }) ++ [93])

/-- The members of an answer with this text for the client. -/
def historyMembers (macStr : List UInt8) (hist : ClientHistory) : List JsonMember :=
  [tightMember "mac" (quotedPieces (macStr.map Piece.plain)),
    tightMember "period_ms" (decimal historyPeriodMs),
    tightMember "seq" (decimal hist.seq.toNat),
    tightMember "reset" (ascii (if hist.reset then "true" else "false")),
    tightMember "rx" (ratesValue (hist.samples.map Sample.rxBps)),
    tightMember "tx" (ratesValue (hist.samples.map Sample.txBps)),
    tightMember "rx_pps" (ratesValue (hist.samples.map Sample.rxPps)),
    tightMember "tx_pps" (ratesValue (hist.samples.map Sample.txPps))]

/-- The rates between the brackets. -/
def ratesText (rates : List (BitVec 32)) : List UInt8 :=
  commaSeparated (rates.map fun rate => decimal rate.toNat)

/-- The text behind that of the client. -/
def historyRest (hist : ClientHistory) : List UInt8 :=
  ascii "period_ms\":" ++ decimal historyPeriodMs ++ ascii ",\"seq\":" ++ decimal hist.seq.toNat
    ++ ascii ",\"reset\":" ++ ascii (if hist.reset then "true" else "false") ++ ascii ",\"rx\":["
    ++ ratesText (hist.samples.map Sample.rxBps) ++ ascii "],\"tx\":["
    ++ ratesText (hist.samples.map Sample.txBps) ++ ascii "],\"rx_pps\":["
    ++ ratesText (hist.samples.map Sample.rxPps) ++ ascii "],\"tx_pps\":["
    ++ ratesText (hist.samples.map Sample.txPps) ++ ascii "]\x7d"

/-- The whole, as far as the marks around the text of the client. -/
def historyText (macStr : List UInt8) (hist : ClientHistory) : List UInt8 :=
  123 :: 34 :: (ascii "mac" ++ 34 :: 58 :: 34 :: (macStr ++ 34 :: 44 :: 34 :: historyRest hist))

section

variable {buf macStr : List UInt8} {rates : List (BitVec 32)} {hist : ClientHistory} {i n : Nat}

/-! ## What is written -/

theorem appendRates_cons {rate : BitVec 32} (h : buf.length + 11 < historyRespSize) :
    appendRates (some buf) i (rate :: rates) =
      appendRates (some (buf ++ ((if i = 0 then [] else [44]) ++ decimal rate.toNat))) (i + 1)
        rates := by
  have hrate := decimal_length_u32 rate
  have hcomma : (if i = 0 then [] else [44] : List UInt8).length ≤ 1 := by
    split <;> decide
  have hoff : (Resp.off historyRespSize (some buf)) < historyRespSize :=
    Nat.lt_of_le_of_lt (Nat.le_add_right _ 11) h
  rw [appendRates, if_pos hoff, respAppend_some (by rw [List.length_append]; omega)]

theorem appendRates_succ (h : buf.length + 11 * rates.length < historyRespSize) :
    appendRates (some buf) (i + 1) rates =
      some (buf ++ (rates.map fun rate => decimal rate.toNat).flatMap (List.cons 44)) := by
  induction rates generalizing buf i with
  | nil => simp [appendRates]
  | cons rate rates ih =>
    have hrate := decimal_length_u32 rate
    rw [List.length_cons] at h
    rw [appendRates_cons (by omega), if_neg (Nat.succ_ne_zero i), ih (by simp; omega)]
    simp

theorem appendRates_some (h : buf.length + 11 * rates.length < historyRespSize) :
    appendRates (some buf) 0 rates = some (buf ++ ratesText rates) := by
  cases rates with
  | nil => simp [appendRates, ratesText, commaSeparated]
  | cons rate rates =>
    have hrate := decimal_length_u32 rate
    rw [List.length_cons] at h
    rw [appendRates_cons (by omega), if_pos rfl, appendRates_succ (by simp; omega)]
    unfold ratesText
    rw [List.map_cons, commaSeparated_cons]
    simp

theorem ratesText_length (rates : List (BitVec 32)) :
    (ratesText rates).length ≤ 11 * rates.length := by
  have hflat : ∀ rates : List (BitVec 32),
      ((rates.map fun rate => decimal rate.toNat).flatMap (List.cons 44)).length ≤
        11 * rates.length := by
    intro rates
    induction rates with
    | nil => exact Nat.le_refl _
    | cons rate rates ih =>
      have hrate := decimal_length_u32 rate
      simp only [List.map_cons, List.flatMap_cons, List.length_append, List.length_cons]
      omega
  cases rates with
  | nil => exact Nat.le_refl _
  | cons rate rates =>
    have hrate := decimal_length_u32 rate
    have htail := hflat rates
    unfold ratesText
    rw [List.map_cons, commaSeparated_cons, List.length_append, List.length_cons]
    omega

/-! ## There is room -/

section

variable {resp : Resp} {text : List UInt8} {k : Nat}

theorem respAppend_fits (h : resp = some buf) (hbuf : buf.length ≤ n) (htext : text.length ≤ k)
    (hroom : n + k < historyRespSize) :
    respAppend historyRespSize resp text = some (buf ++ text) ∧ (buf ++ text).length ≤ n + k := by
  rw [h, List.length_append]
  exact ⟨respAppend_some (by omega), by omega⟩

theorem appendRates_fits (h : resp = some buf) (hbuf : buf.length ≤ n)
    (hcount : rates.length ≤ historyLen) (hroom : n + 352 < historyRespSize) :
    appendRates resp 0 rates = some (buf ++ ratesText rates) ∧
      (buf ++ ratesText rates).length ≤ n + 352 := by
  have hlength := ratesText_length rates
  have hcount : rates.length ≤ 32 := hcount
  rw [h, List.length_append]
  exact ⟨appendRates_some (by omega), by omega⟩

end

theorem historyHead_length (hmac : macStr.length < macStrSize) :
    (historyHead macStr hist).length ≤ 86 := by
  have hmac : macStr.length < 24 := hmac
  have hseq := decimal_length_u32 hist.seq
  have hreset : (ascii (if hist.reset then "true" else "false")).length ≤ 5 := by
    cases hist.reset <;> decide
  have hopen : (ascii "\x7b\"mac\":\"").length = 8 := ascii_ofList_length _
  have hperiod : (ascii "\",\"period_ms\":").length = 14 := ascii_ofList_length _
  have hms : (decimal historyPeriodMs).length = 3 := by decide
  have hseqName : (ascii ",\"seq\":").length = 7 := ascii_ofList_length _
  have hresetName : (ascii ",\"reset\":").length = 9 := ascii_ofList_length _
  have hrx : (ascii ",\"rx\":[").length = 7 := ascii_ofList_length _
  unfold historyHead
  simp only [List.length_append]
  omega

theorem historyText_eq (macStr : List UInt8) (hist : ClientHistory) :
    historyHead macStr hist ++ ratesText (hist.samples.map Sample.rxBps)
      ++ ascii "],\"tx\":[" ++ ratesText (hist.samples.map Sample.txBps)
      ++ ascii "],\"rx_pps\":[" ++ ratesText (hist.samples.map Sample.rxPps)
      ++ ascii "],\"tx_pps\":[" ++ ratesText (hist.samples.map Sample.txPps)
      ++ ascii "]\x7d" = historyText macStr hist := by
  have hopen : ascii "\x7b\"mac\":\"" = 123 :: 34 :: (ascii "mac" ++ [34, 58, 34]) := by decide
  have hperiod : ascii "\",\"period_ms\":" = 34 :: 44 :: 34 :: ascii "period_ms\":" := by decide
  unfold historyText historyHead historyRest
  rw [hopen, hperiod]
  simp only [List.append_assoc, List.cons_append, List.nil_append]

/-- **The buffer takes the whole answer.** -/
theorem historyResp_some (hmac : macStr.length < macStrSize)
    (hcount : hist.samples.length ≤ historyLen) :
    historyResp macStr hist = some (historyText macStr hist) ∧
      (historyText macStr hist).length < historyRespSize := by
  have hlen : ∀ f : Sample → BitVec 32, (hist.samples.map f).length ≤ historyLen := fun f => by
    rwa [List.length_map]
  have htx : (ascii "],\"tx\":[").length = 8 := ascii_ofList_length _
  have hrxPps : (ascii "],\"rx_pps\":[").length = 12 := ascii_ofList_length _
  have htxPps : (ascii "],\"tx_pps\":[").length = 12 := ascii_ofList_length _
  have hclose : (ascii "]\x7d").length = 2 := ascii_ofList_length _
  have hempty : (some [] : Resp) = some [] := rfl
  obtain ⟨h, hn⟩ := respAppend_fits hempty (Nat.le_refl 0) (historyHead_length hmac)
    (show 0 + 86 < historyRespSize by decide)
  obtain ⟨h, hn⟩ := appendRates_fits h hn (hlen Sample.rxBps) (by decide)
  obtain ⟨h, hn⟩ := respAppend_fits h hn (Nat.le_of_eq htx) (by decide)
  obtain ⟨h, hn⟩ := appendRates_fits h hn (hlen Sample.txBps) (by decide)
  obtain ⟨h, hn⟩ := respAppend_fits h hn (Nat.le_of_eq hrxPps) (by decide)
  obtain ⟨h, hn⟩ := appendRates_fits h hn (hlen Sample.rxPps) (by decide)
  obtain ⟨h, hn⟩ := respAppend_fits h hn (Nat.le_of_eq htxPps) (by decide)
  obtain ⟨h, hn⟩ := appendRates_fits h hn (hlen Sample.txPps) (by decide)
  obtain ⟨h, hn⟩ := respAppend_fits h hn (Nat.le_of_eq hclose) (by decide)
  rw [List.nil_append, historyText_eq] at h hn
  exact ⟨h, Nat.lt_of_le_of_lt hn (by decide)⟩

/-! ## What it reads as -/

theorem ratesValue_eq (rates : List (BitVec 32)) :
    ratesValue rates = 91 :: (ratesText rates ++ [93]) := by
  unfold ratesValue ratesText
  cases rates with
  | nil => rfl
  | cons rate rates =>
    simp only [List.map_cons, arrayText, JsonElement.text, List.map_map, List.nil_append,
      List.append_nil, Function.comp_def]

theorem tightMember_text (name : String) (value : List UInt8) :
    (tightMember name value).text = 34 :: (ascii name ++ 34 :: 58 :: value) := by
  simp [tightMember, JsonMember.text, quotedPieces, nameOf, stringText_plains]

theorem historyText_object (macStr : List UInt8) (hist : ClientHistory) :
    historyText macStr hist =
      123 :: (objectText [] (historyMembers macStr hist) ++ [125]) := by
  have hperiod : ascii "period_ms\":" = ascii "period_ms" ++ [34, 58] := by decide
  have hseq : ascii ",\"seq\":" = 44 :: 34 :: (ascii "seq" ++ [34, 58]) := by decide
  have hreset : ascii ",\"reset\":" = 44 :: 34 :: (ascii "reset" ++ [34, 58]) := by decide
  have hrx : ascii ",\"rx\":[" = 44 :: 34 :: (ascii "rx" ++ [34, 58, 91]) := by decide
  have htx : ascii "],\"tx\":[" = 93 :: 44 :: 34 :: (ascii "tx" ++ [34, 58, 91]) := by decide
  have hrxPps : ascii "],\"rx_pps\":[" = 93 :: 44 :: 34 :: (ascii "rx_pps" ++ [34, 58, 91]) := by
    decide
  have htxPps : ascii "],\"tx_pps\":[" = 93 :: 44 :: 34 :: (ascii "tx_pps" ++ [34, 58, 91]) := by
    decide
  have hclose : ascii "]\x7d" = [93, 125] := by decide
  unfold historyText historyRest
  rw [hperiod, hseq, hreset, hrx, htx, hrxPps, htxPps, hclose]
  simp only [historyMembers, objectText, List.map_cons, List.map_nil, commaSeparated_cons,
    tightMember_text, ratesValue_eq, quotedPieces, stringText_plains, List.flatMap_cons,
    List.flatMap_nil, List.append_assoc, List.cons_append, List.nil_append]

theorem tightMember_ok {name : String} {value : List UInt8}
    (h : (nameOf name).all (fun p => decide p.Valid) = true) : (tightMember name value).Ok :=
  ⟨List.forall_mem_nil _, fun p hp => of_decide_eq_true (List.all_eq_true.mp h p hp),
    List.forall_mem_nil _, List.forall_mem_nil _, List.forall_mem_nil _⟩

theorem tightMember_name (name : String) (value : List UInt8) :
    meaning (tightMember name value).name = ascii name := meaning_plains _

theorem ratesValue_isValue (rates : List (BitVec 32)) : IsValue (ratesValue rates) :=
  .array (List.forall_mem_nil _)
    (List.forall_mem_map.mpr fun _ _ => ⟨List.forall_mem_nil _, List.forall_mem_nil _⟩)
    (List.forall_mem_map.mpr fun rate _ => .number (isNumber_decimal rate.toNat))

theorem historyRest_utf8 (hist : ClientHistory) : IsUtf8 (historyRest hist) := by
  have hrates : ∀ f : Sample → BitVec 32, IsUtf8 (ratesText (hist.samples.map f)) := fun f =>
    isUtf8_commaSeparated (List.forall_mem_map.mpr fun _ _ => isUtf8_decimal _)
  have hreset : IsUtf8 (ascii (if hist.reset then "true" else "false")) := by
    cases hist.reset <;> exact isUtf8_literal (by decide)
  have hfront : IsUtf8 (ascii "period_ms\":" ++ decimal historyPeriodMs ++ ascii ",\"seq\":"
      ++ decimal hist.seq.toNat ++ ascii ",\"reset\":") :=
    ((((isUtf8_literal (by decide)).append (isUtf8_decimal _)).append
      (isUtf8_literal (by decide))).append (isUtf8_decimal _)).append (isUtf8_literal (by decide))
  unfold historyRest
  refine (((((((((hfront.append hreset).append (isUtf8_literal (by decide))).append
    (hrates _)).append ?_).append (hrates _)).append ?_).append (hrates _)).append ?_).append
      (hrates _)).append ?_
  all_goals exact isUtf8_literal (by decide)

theorem historyText_utf8 : IsUtf8 (historyText macStr hist) ↔ IsUtf8 macStr := by
  have hcut : historyText macStr hist = 123 :: 34 :: (ascii "mac" ++ [34, 58]) ++
      34 :: (macStr ++ 34 :: (44 :: 34 :: historyRest hist)) := by
    simp [historyText]
  have hfront : IsUtf8 (123 :: 34 :: (ascii "mac" ++ [34, 58])) := isUtf8_literal (by decide)
  have hrest : IsUtf8 ([44, 34] ++ historyRest hist) :=
    (isUtf8_literal (by decide)).append (historyRest_utf8 hist)
  rw [hcut, isUtf8_split (by decide), isUtf8_split (by decide)]
  exact (and_iff_right hfront).trans (and_iff_left hrest)

/-- A text that stands in a JSON string as it is. -/
def Verbatim (text : List UInt8) : Prop := (∀ c ∈ text, (Piece.plain c).Valid) ∧ IsUtf8 text

theorem historyText_isObject (h : Verbatim macStr) :
    IsObject (historyText macStr hist) (historyMembers macStr hist) where
  utf8 := historyText_utf8.mpr h.2
  members := by
    simp only [historyMembers, List.forall_mem_cons]
    exact ⟨tightMember_ok (by decide), tightMember_ok (by decide), tightMember_ok (by decide),
      tightMember_ok (by decide), tightMember_ok (by decide), tightMember_ok (by decide),
      tightMember_ok (by decide), tightMember_ok (by decide), List.forall_mem_nil _⟩
  values := by
    have hreset : IsValue (ascii (if hist.reset then "true" else "false")) := by
      cases hist.reset
      · exact .word (.inl rfl)
      · exact .word (.inr (.inr rfl))
    simp only [historyMembers, List.forall_mem_cons]
    exact ⟨.string (List.forall_mem_map.mpr h.1), .number (isNumber_decimal _),
      .number (isNumber_decimal _), hreset, ratesValue_isValue _, ratesValue_isValue _,
      ratesValue_isValue _, ratesValue_isValue _, List.forall_mem_nil _⟩
  text_eq := ⟨[], [], [], List.forall_mem_nil _, List.forall_mem_nil _, List.forall_mem_nil _,
    historyText_object macStr hist⟩

theorem historyMembers_mac (h : Verbatim macStr) :
    Names (historyMembers macStr hist) (ascii "mac") macStr := by
  have hother : ∀ {name : String} {value : List UInt8} {P : Prop}, ascii name ≠ ascii "mac" →
      meaning (tightMember name value).name = ascii "mac" → P := fun hne hname =>
    absurd ((tightMember_name _ _).symm.trans hname) hne
  refine ⟨⟨_, List.mem_cons_self, tightMember_name _ _⟩, ?_⟩
  simp only [historyMembers, List.forall_mem_cons]
  exact ⟨fun _ => ⟨_, List.forall_mem_map.mpr h.1, rfl, meaning_plains macStr⟩,
    hother (by decide), hother (by decide), hother (by decide), hother (by decide),
    hother (by decide), hother (by decide), hother (by decide), List.forall_mem_nil _⟩

/-- The body is an object whose `mac` is this text. -/
def Echoes (body queried : List UInt8) : Prop :=
  ∃ ms, IsObject body ms ∧ Names ms (ascii "mac") queried

theorem strlcpy_length (size : Nat) (text : List UInt8) :
    (strlcpy size text).length ≤ size - 1 ∧ (strlcpy size text).length ≤ text.length := by
  have hstring := (List.takeWhile_prefix (l := text) (· ≠ 0)).length_le
  unfold strlcpy cString
  rw [List.length_take]
  omega

/-- A body that reads as the text was written with that text, and it stands there as it is. -/
theorem verbatim_of_echoes {queried : List UInt8} (hle : macStr.length ≤ queried.length)
    (h : Echoes (historyText macStr hist) queried) : macStr = queried ∧ Verbatim macStr := by
  obtain ⟨ms, hobject, hnames⟩ := h
  obtain ⟨ps, after, c, rest, hps, hmeaning, hafter, hc, htext⟩ :=
    isObject_first (by simp [ascii]) hobject hnames
  have hshort := meaning_le_text hps
  rw [hmeaning] at hshort
  rcases inString_past (inString_stringText hps) htext with hlt | ⟨hmac, -⟩ | hrest
  · omega
  · -- the string ends where the text does, so none of it is escaped
    have hplain := plains_of_length hps (by rw [hmeaning, hmac]; exact hle)
    rw [hmac] at hplain
    rw [hplain, meaning_plains] at hmeaning
    refine ⟨hmeaning, fun c hc => ?_, historyText_utf8.mp hobject.utf8⟩
    exact hps _ (hplain ▸ List.mem_map_of_mem hc)
  · -- behind the next string stands no comma and no brace
    have hp := (ws_front hafter rfl hrest.symm).1
    rcases hc with rfl | rfl <;> exact absurd hp (by decide)

theorem echoes_iff {queried : List UInt8} :
    Echoes (historyText (strlcpy macStrSize queried) hist) queried ↔
      queried.length < macStrSize ∧ Verbatim queried := by
  obtain ⟨hsize, hle⟩ := strlcpy_length macStrSize queried
  constructor
  · intro h
    obtain ⟨heq, hverbatim⟩ := verbatim_of_echoes hle h
    rw [heq] at hsize hverbatim
    exact ⟨Nat.lt_of_le_of_lt hsize (by decide), hverbatim⟩
  · rintro ⟨hlt, hverbatim⟩
    have hnul : 0 ∉ queried := fun hmem => absurd (hverbatim.1 0 hmem).1 (by decide)
    have heq : strlcpy macStrSize queried = queried := by
      unfold strlcpy
      rw [cString_eq_self hnul, List.take_of_length_le (Nat.le_sub_one_of_lt hlt)]
    rw [heq]
    exact ⟨_, historyText_isObject hverbatim, historyMembers_mac hverbatim⟩

/-! ## The handler -/

/-- What is sent was asked for with a text, and has of it what fits the buffer. -/
theorem clientHistoryGet_sent {keyValue : List UInt8 → List UInt8 → Option (List UInt8)}
    {s : Tracked} {authorized passwordIsDefault : Bool} {url : UrlQuery} {body : List UInt8}
    (h : clientHistoryGet keyValue s authorized passwordIsDefault url = .sent body) :
    ∃ query queried hist, url = .ok query ∧ keyValue query (ascii "mac") = some queried ∧
      body = historyText (strlcpy macStrSize queried) hist := by
  unfold clientHistoryGet at h
  split at h
  · cases h
  split at h
  · cases h
  split at h
  · cases h
  dsimp only at h
  split at h
  · cases h
  rename_i mac hmac
  split at h
  · cases h
  rename_i hist hhist
  split at h
  · cases h
  rename_i body' hbody
  obtain rfl := HistoryAnswer.sent.inj h
  -- nothing found is an empty text, in which the scan finds no number
  have hfound : urlValue keyValue url "mac" macStrSize ≠ [] := fun hnil =>
    absurd (hmac.symm.trans (congrArg parseMac hnil)) (by simp [show parseMac [] = none from rfl])
  have hcount : hist.samples.length ≤ historyLen := by
    obtain ⟨i, -, rfl⟩ := Option.map_eq_some_iff.mp hhist
    exact (s.hist i).get_length _
  cases url with
  | truncated => exact absurd rfl hfound
  | notFound => exact absurd rfl hfound
  | ok query =>
    cases hvalue : keyValue query (ascii "mac") with
    | none => exact absurd (by rw [urlValue, hvalue]; rfl) hfound
    | some queried =>
      refine ⟨query, queried, hist, rfl, hvalue, ?_⟩
      have hmacStr : urlValue keyValue (.ok query) "mac" macStrSize =
          strlcpy macStrSize queried := by
        rw [urlValue, hvalue]
        rfl
      have hshort : (strlcpy macStrSize queried).length < macStrSize :=
        Nat.lt_of_le_of_lt (strlcpy_length _ _).1 (by decide)
      obtain ⟨hresp, hlength⟩ := historyResp_some hshort hcount
      rw [hmacStr, hresp, respSendJson_some hlength] at hbody
      exact (Option.some.inj hbody).symm

/-- **What is sent reads as the text of the query** exactly where that is shorter than the buffer
    and could stand in a JSON string as it is. -/
theorem client_history_json (keyValue : List UInt8 → List UInt8 → Option (List UInt8))
    (s : Tracked) (authorized passwordIsDefault : Bool) (url : UrlQuery) (body : List UInt8)
    (h : clientHistoryGet keyValue s authorized passwordIsDefault url = .sent body) :
    ∃ query queried, url = .ok query ∧ keyValue query (ascii "mac") = some queried ∧
      (Echoes body queried ↔ queried.length < macStrSize ∧ Verbatim queried) := by
  obtain ⟨query, queried, hist, hurl, hvalue, rfl⟩ := clientHistoryGet_sent h
  exact ⟨query, queried, hurl, hvalue, echoes_iff⟩

/-- The value of `mac` in a query of nothing else. -/
def macOnly (query key : List UInt8) : Option (List UInt8) :=
  if key = ascii "mac" then some (query.drop 4) else none

/-- The client 02:00:00:00:00:aa has been heard, and not yet sampled. -/
def oneClient : Tracked :=
  let s := Tracked.boot (Dhcp.powerOn Dhcp.shipped none 0)
  s.carry (s.bridge.step (.account 1000 ⟨0x0200000000aa, true, 60, true, 0⟩))

theorem client_history_json_canonical :
    ∃ query queried, UrlQuery.ok (ascii "mac=02:00:00:00:00:aa") = .ok query ∧
      macOnly query (ascii "mac") = some queried ∧
      (Echoes (historyText (ascii "02:00:00:00:00:aa") ⟨0, false, []⟩) queried ↔
        queried.length < macStrSize ∧ Verbatim queried) :=
  client_history_json macOnly oneClient true false (.ok (ascii "mac=02:00:00:00:00:aa")) _
    (by decide +kernel)

/-- The scan has its six numbers, and takes no notice of the quotation mark behind them. -/
theorem client_history_json_fails :
    ¬ ∀ (keyValue : List UInt8 → List UInt8 → Option (List UInt8)) (s : Tracked)
      (authorized passwordIsDefault : Bool) (url : UrlQuery) (body : List UInt8),
      clientHistoryGet keyValue s authorized passwordIsDefault url = .sent body →
      ∃ query queried, url = .ok query ∧ keyValue query (ascii "mac") = some queried ∧
        Echoes body queried := by
  intro h
  have hsent : clientHistoryGet macOnly oneClient true false
      (.ok (ascii "mac=02:00:00:00:00:aa\"")) =
        .sent (historyText (strlcpy macStrSize (ascii "02:00:00:00:00:aa\"")) ⟨0, false, []⟩) := by
    decide +kernel
  obtain ⟨_, queried, ⟨rfl⟩, hvalue, hechoes⟩ := h _ _ _ _ _ _ hsent
  have hqueried : some (ascii "02:00:00:00:00:aa\"") = some queried := hvalue
  obtain rfl := Option.some.inj hqueried
  have hquote := (echoes_iff.mp hechoes).2.1 34 (by decide +kernel)
  exact hquote.2.1 rfl

end

end Web
end Wt32Router
