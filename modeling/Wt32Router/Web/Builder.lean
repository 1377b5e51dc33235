import Wt32Router.Lib.Memory
import Wt32Router.Web.Resp

/-!
# The response buffer in memory

`resp_append_at`, `json_append_escaped` and `resp_send_json` of `main/web_server.c` as they work on
the bytes of a buffer and an offset. `Web.Resp` has the same functions over the text alone. Each
append here keeps to its append there (`Holds.call`), so after any run of appends the buffer holds
the text of all of them, or the offset stands at the buffer's end and nothing is sent.

`int` and `size_t` are 32 bits wide, and a conversion between them keeps the bits.
-/

namespace Wt32Router
namespace Web

open Lib (ascii cString Formatted Memory load store vsnprintf)

/-- `resp_append_at`: the buffer after it, and what it returns. -/
def respAppendAt (m : Memory) (bufsz off : BitVec 32) (f : Formatted) : Memory × BitVec 32 :=
  if off.toInt < 0 ∨ bufsz < off then (m, bufsz)
  else
    let buf := vsnprintf m off.toNat (bufsz - off).toNat f
    let n := f.result
    if n.toInt < 0 then (buf, off)
    else if bufsz < off + n then (buf, bufsz)
    else (buf, off + n)

/-- What `"\\u%04x"` makes of a control character. -/
def controlText (p : UInt8) : Formatted :=
  .text (ascii "\\u00" ++ [hexDigit (p.toNat / 16), hexDigit (p.toNat % 16)])
    (show 6 < 2 ^ 31 by decide)

/-- The `switch` of `json_append_escaped`, at offset `o`. -/
def escapeAt (m : Memory) (bufsz o : BitVec 32) (p : UInt8) : Memory × BitVec 32 :=
  if p = 34 then (store m o.toNat [92, 34], o + 2)
  else if p = 92 then (store m o.toNat [92, 92], o + 2)
  else if p = 10 then (store m o.toNat (ascii "\\n"), o + 2)
  else if p = 13 then (store m o.toNat (ascii "\\r"), o + 2)
  else if p = 9 then (store m o.toNat (ascii "\\t"), o + 2)
  else if p < 0x20 then
    (vsnprintf m o.toNat (bufsz - o).toNat (controlText p), o + (controlText p).result)
  else (store m o.toNat [p], o + 1)

/-- The loop of `json_append_escaped`: the bytes still to come, the buffer and `o`. -/
def escapeLoopAt (bufsz : BitVec 32) : List UInt8 → Memory → BitVec 32 → Memory × BitVec 32
  | [], m, o => (store m o.toNat [0], o)
  | p :: src, m, o =>
      if p = 0 then (store m o.toNat [0], o)
      else if bufsz < o + 7 then (m, bufsz)
      else escapeLoopAt bufsz src (escapeAt m bufsz o p).1 (escapeAt m bufsz o p).2

def jsonAppendEscapedAt (m : Memory) (bufsz off : BitVec 32) (src : List UInt8) :
    Memory × BitVec 32 :=
  if off.toInt < 0 ∨ bufsz ≤ off then (m, bufsz) else escapeLoopAt bufsz src m off

/-- `resp_send_json`: what is sent, or nothing where the caller is answered 500. -/
def respSendJsonAt (m : Memory) (bufsz off : BitVec 32) : Option (List UInt8) :=
  if off.toInt < 0 ∨ bufsz ≤ off then none else some (load m off.toNat)

/-! ## Runs of appends -/

inductive Call where
  | append (f : Formatted)
  | appendEscaped (src : List UInt8)

namespace Call

/-- The call on a buffer and its offset. -/
def run (bufsz : BitVec 32) (s : Memory × BitVec 32) : Call → Memory × BitVec 32
  | append f => respAppendAt s.1 bufsz s.2 f
  | appendEscaped src => jsonAppendEscapedAt s.1 bufsz s.2 src

/-- What the call appends. A format that `vsnprintf` can make no text of appends nothing. -/
def text : Call → List UInt8
  | append (.text s _) => s
  | append (.error _) => []
  | appendEscaped src => escaped src

/-- The call on the text alone. -/
def resp (bufsz : Nat) (r : Resp) : Call → Resp
  | append (.text s _) => respAppend bufsz r s
  | append (.error _) => r
  | appendEscaped src => jsonAppendEscaped bufsz r src

end Call

/-- A buffer with nothing in it. One of no bytes has its offset at its end. -/
def Resp.start (bufsz : Nat) : Resp := if 0 < bufsz then some [] else none

/-- The buffer holds the text, and nothing has been written behind it. -/
structure Holds (bufsz : BitVec 32) (before : Memory) (s : Memory × BitVec 32) (r : Resp) :
    Prop where
  off : s.2.toNat = r.off bufsz.toNat
  bytes : ∀ text ∈ r, text.length < bufsz.toNat ∧ load s.1 text.length = text
  beyond : ∀ i, bufsz.toNat ≤ i → s.1 i = before i

section

variable {bufsz o off : BitVec 32} {m before : Memory} {text src : List UInt8} {p : UInt8}
  {s : Memory × BitVec 32} {r : Resp} {f : Formatted}

theorem toInt_nonneg (h : o.toNat < 2 ^ 31) : ¬ o.toInt < 0 := by
  rw [BitVec.toInt_eq_toNat_of_lt (by omega)]
  omega

theorem result_text {h : text.length < 2 ^ 31} :
    (Formatted.text text h).result.toNat = text.length := by
  unfold Formatted.result
  rw [BitVec.toNat_ofNat, Nat.mod_eq_of_lt (by omega)]

theorem Holds.full (hoff : s.2 = bufsz) (h : ∀ i, bufsz.toNat ≤ i → s.1 i = before i) :
    Holds bufsz before s none :=
  ⟨by rw [hoff]; rfl, fun _ h => absurd h (by simp), h⟩

/-- Of a text the offset is its length. -/
theorem Holds.short (hlt : text.length < bufsz.toNat) (hoff : s.2.toNat = text.length)
    (htext : load s.1 text.length = text) (h : ∀ i, bufsz.toNat ≤ i → s.1 i = before i) :
    Holds bufsz before s (some text) := by
  refine ⟨hoff, fun text' h' => ?_, h⟩
  obtain rfl := Option.some.inj h'
  exact ⟨hlt, htext⟩

theorem Holds.off_le (h : Holds bufsz before s r) : s.2.toNat ≤ bufsz.toNat := by
  rw [h.off]
  cases r with
  | none => exact Nat.le_refl _
  | some text => exact Nat.le_of_lt (h.bytes text rfl).1

/-! ## `resp_append_at` -/

/-- A format written at the offset stays inside the buffer. -/
theorem vsnprintf_inside (hoff : off.toNat ≤ bufsz.toNat) {i : Nat} (hi : bufsz.toNat ≤ i) :
    vsnprintf m off.toNat (bufsz - off).toNat f i = m i := by
  refine Lib.vsnprintf_frame (.inr ?_)
  rw [BitVec.toNat_sub_of_le (BitVec.le_def.mpr hoff)]
  omega

theorem guard_inside (hsize : bufsz.toNat < 2 ^ 31) (hoff : off.toNat ≤ bufsz.toNat) :
    ¬(off.toInt < 0 ∨ bufsz < off) := by
  rw [BitVec.lt_def]
  exact not_or.mpr ⟨toInt_nonneg (by omega), by omega⟩

/-- A text is written as far as there is room, and the offset moves past it or to the end. -/
theorem respAppendAt_text (hsize : bufsz.toNat < 2 ^ 31) (hoff : off.toNat ≤ bufsz.toNat)
    (hlen : text.length < 2 ^ 31) :
    (respAppendAt m bufsz off (.text text hlen)).1 =
        vsnprintf m off.toNat (bufsz - off).toNat (.text text hlen) ∧
      (respAppendAt m bufsz off (.text text hlen)).2.toNat =
        min bufsz.toNat (off.toNat + text.length) := by
  have hn := result_text (h := hlen)
  have hsum : (off + (Formatted.text text hlen).result).toNat = off.toNat + text.length := by
    rw [BitVec.toNat_add, hn, Nat.mod_eq_of_lt (by omega)]
  unfold respAppendAt
  dsimp only
  rw [if_neg (guard_inside hsize hoff), if_neg (toInt_nonneg (by omega))]
  split
  · rename_i hlt
    rw [BitVec.lt_def] at hlt
    exact ⟨rfl, by dsimp only; omega⟩
  · rename_i hle
    rw [BitVec.lt_def] at hle
    exact ⟨rfl, by dsimp only; omega⟩

theorem Holds.append_text (h : Holds bufsz before s r) (hsize : bufsz.toNat < 2 ^ 31)
    (hlen : text.length < 2 ^ 31) :
    Holds bufsz before (respAppendAt s.1 bufsz s.2 (.text text hlen))
      (respAppend bufsz.toNat r text) := by
  obtain ⟨m, off⟩ := s
  dsimp only
  have hoff : off.toNat ≤ bufsz.toNat := h.off_le
  obtain ⟨hbuf, hnext⟩ := respAppendAt_text (m := m) hsize hoff hlen
  have hbeyond : ∀ i, bufsz.toNat ≤ i →
      (respAppendAt m bufsz off (.text text hlen)).1 i = before i := by
    rw [hbuf]
    exact fun i hi => (vsnprintf_inside hoff hi).trans (h.beyond i hi)
  by_cases hfits : off.toNat + text.length < bufsz.toNat
  · cases r with
    | none =>
      have hfull : off.toNat = bufsz.toNat := h.off
      omega
    | some buf =>
      have hlength : off.toNat = buf.length := h.off
      obtain ⟨-, hload⟩ := h.bytes buf rfl
      rw [respAppend_some (by omega)]
      refine .short ?_ ?_ ?_ hbeyond
      · rw [List.length_append]
        omega
      · rw [hnext, List.length_append]
        omega
      · rw [hbuf, List.length_append, ← hlength, Lib.load_vsnprintf hlen ?_, hlength, hload]
        rw [BitVec.toNat_sub_of_le (BitVec.le_def.mpr hoff)]
        omega
  · have hnone : respAppend bufsz.toNat r text = none := by
      cases r with
      | none => rfl
      | some buf =>
        have hlength : off.toNat = buf.length := h.off
        exact if_neg (by omega)
    rw [hnone]
    exact .full (BitVec.eq_of_toNat_eq (by omega)) hbeyond

theorem Holds.append_error (h : Holds bufsz before s r) (hsize : bufsz.toNat < 2 ^ 31)
    (part : List UInt8) :
    Holds bufsz before (respAppendAt s.1 bufsz s.2 (.error part)) r := by
  obtain ⟨m, off⟩ := s
  have hoff : off.toNat ≤ bufsz.toNat := h.off_le
  unfold respAppendAt
  dsimp only
  have hnegative : (Formatted.error part).result.toInt < 0 := of_decide_eq_true rfl
  rw [if_neg (guard_inside hsize hoff), if_pos hnegative]
  refine ⟨h.off, fun text htext => ?_, fun i hi =>
    (vsnprintf_inside hoff hi).trans (h.beyond i hi)⟩
  obtain ⟨hlt, hload⟩ := h.bytes text htext
  have hlen : off.toNat = text.length := by
    rw [show off.toNat = _ from h.off, htext]
    rfl
  exact ⟨hlt, (Lib.load_congr fun j hj => Lib.vsnprintf_frame (.inl (by omega))).trans hload⟩

/-! ## `json_append_escaped` -/

theorem store_inside (m : Memory) (bs : List UInt8) (hroom : o.toNat + bs.length ≤ bufsz.toNat) :
    (o + BitVec.ofNat 32 bs.length).toNat = o.toNat + bs.length ∧
      load (store m o.toNat bs) (o.toNat + bs.length) = load m o.toNat ++ bs ∧
      ∀ i, bufsz.toNat ≤ i → store m o.toNat bs i = m i := by
  have hlt := bufsz.isLt
  refine ⟨?_, Lib.load_store m o.toNat bs, fun i hi => Lib.store_frame (.inr (by omega))⟩
  rw [BitVec.toNat_add, BitVec.toNat_ofNat, Nat.mod_eq_of_lt (show bs.length < 2 ^ 32 by omega),
    Nat.mod_eq_of_lt (by omega)]

/-- One byte of the string, with room for it. -/
theorem escapeAt_spec (hroom : o.toNat + 7 ≤ bufsz.toNat) :
    (escapeAt m bufsz o p).2.toNat = o.toNat + (escapeByte p).length ∧
      load (escapeAt m bufsz o p).1 (o.toNat + (escapeByte p).length) =
        load m o.toNat ++ escapeByte p ∧
      ∀ i, bufsz.toNat ≤ i → (escapeAt m bufsz o p).1 i = m i := by
  have htwo : o.toNat + 2 ≤ bufsz.toNat := by omega
  unfold escapeAt escapeByte
  split
  · exact store_inside m [92, 34] htwo
  split
  · exact store_inside m [92, 92] htwo
  split
  · exact store_inside m (ascii "\\n") htwo
  split
  · exact store_inside m (ascii "\\r") htwo
  split
  · exact store_inside m (ascii "\\t") htwo
  split
  · have hle : o ≤ bufsz := BitVec.le_def.mpr (by omega)
    have hn : (controlText p).result.toNat = 6 := result_text
    refine ⟨?_, Lib.load_vsnprintf _ ?_, fun i hi => vsnprintf_inside (by omega) hi⟩
    · have hlt := bufsz.isLt
      rw [BitVec.toNat_add, hn, Nat.mod_eq_of_lt (by omega)]
      rfl
    · rw [BitVec.toNat_sub_of_le hle]
      exact Nat.lt_sub_of_add_lt (show 6 + o.toNat < bufsz.toNat by omega)
  · exact store_inside m [p] (show o.toNat + 1 ≤ bufsz.toNat by omega)

/-- The NUL behind the text, which is none of it. -/
theorem Holds.terminated (h : Holds bufsz before (m, o) (some text)) :
    Holds bufsz before (store m o.toNat [0], o) (some text) := by
  have hoff : o.toNat = text.length := h.off
  obtain ⟨hlt, hload⟩ := h.bytes text rfl
  refine .short hlt hoff ?_ fun i hi => ?_
  · exact (Lib.load_store_of_le (by omega)).trans hload
  · exact (Lib.store_frame (.inr (show o.toNat + 1 ≤ i by omega))).trans (h.beyond i hi)

theorem Holds.escapeLoop (h : Holds bufsz before (m, o) (some text))
    (hsize : bufsz.toNat < 2 ^ 31) :
    Holds bufsz before (escapeLoopAt bufsz src m o) (escapeLoop bufsz.toNat src text) := by
  induction src generalizing m o text with
  | nil => exact h.terminated
  | cons p src ih =>
    have hoff : o.toNat = text.length := h.off
    obtain ⟨hlt, hload⟩ := h.bytes text rfl
    have hseven : (o + 7).toNat = o.toNat + 7 := by
      rw [BitVec.toNat_add]
      exact Nat.mod_eq_of_lt (show o.toNat + 7 < 2 ^ 32 by omega)
    unfold escapeLoopAt Web.escapeLoop
    by_cases hp : p = 0
    · rw [if_pos hp, if_pos hp]
      exact h.terminated
    rw [if_neg hp, if_neg hp]
    by_cases hroom : bufsz.toNat < text.length + 7
    · rw [if_pos hroom, if_pos (by rw [BitVec.lt_def]; omega)]
      exact .full rfl h.beyond
    · obtain ⟨hoff', hload', hbeyond⟩ := escapeAt_spec (m := m) (p := p)
        (show o.toNat + 7 ≤ bufsz.toNat by omega)
      have hlen := (escapeByte_length p).2
      rw [if_neg hroom, if_neg (by rw [BitVec.lt_def]; omega)]
      refine ih (.short ?_ ?_ ?_ fun i hi => (hbeyond i hi).trans (h.beyond i hi))
      · rw [List.length_append]
        omega
      · rw [List.length_append, hoff', hoff]
      · rw [List.length_append, ← hoff, hload', hoff, hload]

theorem Holds.appendEscaped (h : Holds bufsz before s r) (hsize : bufsz.toNat < 2 ^ 31)
    (src : List UInt8) :
    Holds bufsz before (jsonAppendEscapedAt s.1 bufsz s.2 src)
      (jsonAppendEscaped bufsz.toNat r src) := by
  obtain ⟨m, off⟩ := s
  have hnonneg : ¬off.toInt < 0 := toInt_nonneg (Nat.lt_of_le_of_lt h.off_le hsize)
  unfold jsonAppendEscapedAt
  cases r with
  | none =>
    have hoff : off.toNat = bufsz.toNat := h.off
    rw [if_pos (.inr (BitVec.le_def.mpr (Nat.le_of_eq hoff.symm)))]
    exact .full rfl h.beyond
  | some text =>
    have hoff : off.toNat = text.length := h.off
    obtain ⟨hlt, -⟩ := h.bytes text rfl
    rw [if_neg (not_or.mpr ⟨hnonneg, by rw [BitVec.le_def, hoff]; omega⟩)]
    exact h.escapeLoop hsize

/-! ## Runs -/

theorem Holds.call (h : Holds bufsz before s r) (hsize : bufsz.toNat < 2 ^ 31) (c : Call) :
    Holds bufsz before (c.run bufsz s) (c.resp bufsz.toNat r) := by
  cases c with
  | append f =>
    cases f with
    | text text hlen => exact h.append_text hsize hlen
    | error part => exact h.append_error hsize part
  | appendEscaped src => exact h.appendEscaped hsize src

theorem Holds.calls (h : Holds bufsz before s r) (hsize : bufsz.toNat < 2 ^ 31)
    (calls : List Call) :
    Holds bufsz before (calls.foldl (Call.run bufsz) s)
      (calls.foldl (Call.resp bufsz.toNat) r) := by
  induction calls generalizing s r with
  | nil => exact h
  | cons c calls ih => exact ih (h.call hsize c)

theorem Holds.start (bufsz : BitVec 32) (m : Memory) :
    Holds bufsz m (m, 0) (Resp.start bufsz.toNat) := by
  unfold Resp.start
  split
  · rename_i hpos
    exact .short hpos rfl rfl fun _ _ => rfl
  · exact .full (BitVec.eq_of_toNat_eq (by simp; omega)) fun _ _ => rfl

/-- The loop puts the string's escapes behind the text. -/
theorem escapeLoop_text {size : Nat} {buf : List UInt8} (h : escapeLoop size src buf = some text) :
    text = buf ++ escaped src := by
  induction src generalizing buf with
  | nil =>
    obtain rfl := Option.some.inj h
    exact (List.append_nil _).symm
  | cons p src ih =>
    unfold escapeLoop at h
    split at h
    · rename_i hp
      obtain rfl := Option.some.inj h
      simp [escaped, cString, hp]
    split at h
    · exact absurd h (by simp)
    · rename_i hp _
      rw [ih h]
      simp [escaped, cString, hp]

/-- What a call leaves is the text before it with its own behind. -/
theorem Call.resp_text {size : Nat} {c : Call} (h : c.resp size r = some text) :
    ∃ buf, r = some buf ∧ text = buf ++ c.text := by
  cases c with
  | append f =>
    cases f with
    | text new hlen =>
      obtain ⟨buf, rfl, hthis⟩ := Option.bind_eq_some_iff.mp h
      split at hthis
      · exact ⟨buf, rfl, (Option.some.inj hthis).symm⟩
      · exact absurd hthis (by simp)
    | error part => exact ⟨text, h, (List.append_nil _).symm⟩
  | appendEscaped src =>
    obtain ⟨buf, rfl, hthis⟩ := Option.bind_eq_some_iff.mp h
    exact ⟨buf, rfl, escapeLoop_text hthis⟩

theorem calls_text {size : Nat} {calls : List Call}
    (h : calls.foldl (Call.resp size) r = some text) :
    ∃ buf, r = some buf ∧ text = buf ++ calls.flatMap Call.text := by
  induction calls generalizing r with
  | nil => exact ⟨text, h, (List.append_nil _).symm⟩
  | cons c calls ih =>
    obtain ⟨mid, hmid, rfl⟩ := ih h
    obtain ⟨buf, rfl, rfl⟩ := c.resp_text hmid
    exact ⟨buf, rfl, List.append_assoc _ _ _⟩

/-- After any run of appends the offset is inside the buffer or at its end, and nothing has been
    written behind the buffer. Short of the end, the buffer holds the text of all the appends and
    that is sent; at the end nothing is. No array of C is as long as `2 ^ 31` bytes where
    `size_t` has 32 bits. -/
theorem never_sends_truncated (bufsz : BitVec 32) (hsize : bufsz.toNat < 2 ^ 31) (m : Memory)
    (calls : List Call) :
    let s := calls.foldl (Call.run bufsz) (m, 0)
    (0 ≤ s.2.toInt ∧ s.2 ≤ bufsz) ∧ (∀ i, bufsz.toNat ≤ i → s.1 i = m i) ∧
      (s.2 < bufsz → load s.1 s.2.toNat = calls.flatMap Call.text ∧
        respSendJsonAt s.1 bufsz s.2 = some (calls.flatMap Call.text)) ∧
      (¬s.2 < bufsz → respSendJsonAt s.1 bufsz s.2 = none) := by
  intro s
  have h : Holds bufsz m s (calls.foldl (Call.resp bufsz.toNat) (Resp.start bufsz.toNat)) :=
    (Holds.start bufsz m).calls hsize calls
  have hnonneg : ¬s.2.toInt < 0 := toInt_nonneg (Nat.lt_of_le_of_lt h.off_le hsize)
  refine ⟨⟨Int.not_lt.mp hnonneg, BitVec.le_def.mpr h.off_le⟩, h.beyond, fun hlt => ?_,
    fun hge => if_pos (.inr (BitVec.not_lt.mp hge))⟩
  have hload : load s.1 s.2.toNat = calls.flatMap Call.text := by
    have hoff := h.off
    rw [BitVec.lt_def] at hlt
    cases hresp : calls.foldl (Call.resp bufsz.toNat) (Resp.start bufsz.toNat) with
    | none =>
      rw [hresp] at hoff
      exact absurd hoff (Nat.ne_of_lt hlt)
    | some text =>
      rw [hresp] at hoff
      obtain ⟨buf, hstart, rfl⟩ := calls_text hresp
      unfold Resp.start at hstart
      split at hstart
      · obtain rfl := Option.some.inj hstart
        rw [show s.2.toNat = _ from hoff]
        exact (h.bytes _ hresp).2
      · exact absurd hstart (by simp)
  exact ⟨hload, (if_neg (not_or.mpr ⟨hnonneg, BitVec.not_le.mpr hlt⟩)).trans
    (congrArg some hload)⟩

end

/-- A buffer of eight bytes. -/
theorem never_sends_truncated_eight :
    let s := [Call.append (.text (ascii "\"") (by decide)), .appendEscaped [10],
      .append (.text (ascii "\"") (by decide))].foldl (Call.run 8) (fun _ => 0, 0)
    (0 ≤ s.2.toInt ∧ s.2 ≤ 8) ∧ (∀ i, 8 ≤ i → s.1 i = 0) ∧
      (s.2 < 8 → load s.1 s.2.toNat = ascii "\"\\n\"" ∧
        respSendJsonAt s.1 8 s.2 = some (ascii "\"\\n\"")) ∧
      (¬s.2 < 8 → respSendJsonAt s.1 8 s.2 = none) :=
  never_sends_truncated 8 (by decide) (fun _ => 0) _

end Web
end Wt32Router
