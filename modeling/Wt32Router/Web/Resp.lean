import Mathlib.Algebra.GroupWithZero.Nat
import Wt32Router.Lib.Ascii

/-!
# The response buffer of the web server

`main/web_server.c` puts every JSON body together in a buffer of fixed size, with an offset
that each append moves and none moves past the end. An offset at the end says that something
did not fit, and stays there.

The offset and the text are one value here, `Resp`: the text so far, which is shorter than
the buffer, or nothing once the offset stands at the end.
-/

namespace Wt32Router
namespace Web

open Lib (ascii)

/-- The text in a buffer of `bufsz` bytes, `none` once `off` is `bufsz`. -/
abbrev Resp := Option (List UInt8)

/-- `off`. -/
def Resp.off (bufsz : Nat) : Resp → Nat
  | none => bufsz
  | some text => text.length

/-- `resp_append`, of the text `vsnprintf` makes of its arguments. -/
def respAppend (bufsz : Nat) (resp : Resp) (text : List UInt8) : Resp :=
  resp.bind fun buf => if buf.length + text.length < bufsz then some (buf ++ text) else none

def hexDigit (n : Nat) : UInt8 := if n < 10 then UInt8.ofNat (48 + n) else UInt8.ofNat (87 + n)

/-- The text of one byte inside a JSON string. -/
def escapeByte (p : UInt8) : List UInt8 :=
  if p = 34 then [92, 34]
  else if p = 92 then [92, 92]
  else if p = 10 then ascii "\\n"
  else if p = 13 then ascii "\\r"
  else if p = 9 then ascii "\\t"
  else if p < 0x20 then ascii "\\u00" ++ [hexDigit (p.toNat / 16), hexDigit (p.toNat % 16)]
  else [p]

/-- The loop of `json_append_escaped`: the bytes still to come, and the text so far. -/
def escapeLoop (bufsz : Nat) : List UInt8 → List UInt8 → Resp
  | [], buf => some buf
  | p :: src, buf =>
      if p = 0 then some buf
      else if bufsz < buf.length + 7 then none
      else escapeLoop bufsz src (buf ++ escapeByte p)

def jsonAppendEscaped (bufsz : Nat) (resp : Resp) (src : List UInt8) : Resp :=
  resp.bind (escapeLoop bufsz src)

/-- `resp_send_json`: what is sent, or nothing where the caller is answered 500. -/
def respSendJson (bufsz : Nat) (resp : Resp) : Option (List UInt8) :=
  if bufsz ≤ resp.off bufsz then none else resp

/-- A loop over the elements of a list, from the `i`th on, which stops where the buffer is full. -/
def respEach {α : Type} (bufsz : Nat) (turn : Resp → Nat → α → Resp) : Resp → Nat → List α → Resp
  | resp, _, [] => resp
  | resp, i, a :: as =>
      if resp.off bufsz < bufsz then respEach bufsz turn (turn resp i a) (i + 1) as else resp

/-- What the loop writes where there is room for all of it. -/
def escaped (src : List UInt8) : List UInt8 := (Lib.cString src).flatMap escapeByte

section

variable {bufsz : Nat} {buf text src : List UInt8}

theorem respAppend_some (h : buf.length + text.length < bufsz) :
    respAppend bufsz (some buf) text = some (buf ++ text) := if_pos h

/-- An append never leaves a text as long as the buffer. -/
theorem respAppend_length {resp : Resp} (h : respAppend bufsz resp text = some buf) :
    buf.length < bufsz := by
  obtain ⟨b, -, hb⟩ := Option.bind_eq_some_iff.mp h
  split at hb
  · rename_i hlt
    obtain rfl := Option.some.inj hb
    simpa using hlt
  · exact absurd hb (by simp)

theorem respSendJson_some (h : buf.length < bufsz) : respSendJson bufsz (some buf) = some buf :=
  if_neg (Nat.not_le.mpr h)

theorem escapeByte_length (p : UInt8) :
    1 ≤ (escapeByte p).length ∧ (escapeByte p).length ≤ 6 := by
  unfold escapeByte
  split_ifs <;> simp [ascii]

theorem escaped_length (src : List UInt8) : (escaped src).length ≤ 6 * src.length := by
  have hpre : (Lib.cString src).length ≤ src.length := (List.takeWhile_prefix _).length_le
  have hflat : ∀ cs : List UInt8, (cs.flatMap escapeByte).length ≤ 6 * cs.length := by
    intro cs
    induction cs with
    | nil => simp
    | cons p cs ih =>
      have := (escapeByte_length p).2
      simp only [List.flatMap_cons, List.length_append, List.length_cons]
      omega
  exact Nat.le_trans (hflat _) (by omega)

/-- Six bytes for each byte are enough room for the escapes. -/
theorem jsonAppendEscaped_some (h : buf.length + 6 * src.length < bufsz) :
    jsonAppendEscaped bufsz (some buf) src = some (buf ++ escaped src) := by
  change escapeLoop bufsz src buf = _
  induction src generalizing buf with
  | nil => simp [escapeLoop, escaped, Lib.cString]
  | cons p src ih =>
    simp only [List.length_cons] at h
    unfold escapeLoop
    by_cases hp : p = 0
    · simp [hp, escaped, Lib.cString]
    · have hlen := (escapeByte_length p).2
      rw [if_neg hp, if_neg (by omega), ih (by rw [List.length_append]; omega)]
      simp [escaped, Lib.cString, hp]

/-! ## Lists -/

variable {α : Type} {turn : Resp → Nat → α → Resp} {itemText : α → List UInt8} {room : α → Nat}
  {as : List α}

/-- A list in a buffer that has room for each of its elements, and the comma before it. -/
theorem respEach_some (buf : List UInt8) (as : List α) (room : α → Nat)
    (hturn : ∀ buf i, ∀ a ∈ as, buf.length + room a < bufsz →
      turn (some buf) i a = some (buf ++ ((if i = 0 then [] else [44]) ++ itemText a)))
    (hroom : ∀ a ∈ as, (itemText a).length + 1 ≤ room a)
    (h : buf.length + (as.map room).sum < bufsz) :
    respEach bufsz turn (some buf) 0 as = some (buf ++ Lib.commaSeparated (as.map itemText)) ∧
      (Lib.commaSeparated (as.map itemText)).length ≤ (as.map room).sum := by
  -- behind the first turn
  have hmore : ∀ (as : List α) (buf : List UInt8) (i : Nat),
      (∀ buf i, ∀ a ∈ as, buf.length + room a < bufsz →
        turn (some buf) i a = some (buf ++ ((if i = 0 then [] else [44]) ++ itemText a))) →
      (∀ a ∈ as, (itemText a).length + 1 ≤ room a) → buf.length + (as.map room).sum < bufsz →
      respEach bufsz turn (some buf) (i + 1) as =
          some (buf ++ (as.map itemText).flatMap (List.cons 44)) ∧
        ((as.map itemText).flatMap (List.cons 44)).length ≤ (as.map room).sum := by
    intro as
    induction as with
    | nil => exact fun buf _ _ _ _ => ⟨by simp [respEach], Nat.le_refl _⟩
    | cons a as ih =>
      intro buf i hturn hroom h
      have hlen := hroom a List.mem_cons_self
      rw [List.map_cons, List.sum_cons] at h
      have hoff : Resp.off bufsz (some buf) < bufsz := Nat.lt_of_le_of_lt (Nat.le_add_right _ _) h
      obtain ⟨hrest, hsum⟩ := ih (buf ++ ((if i + 1 = 0 then [] else [44]) ++ itemText a)) (i + 1)
        (fun buf i b hb => hturn buf i b (List.mem_cons_of_mem _ hb))
        (fun b hb => hroom b (List.mem_cons_of_mem _ hb))
        (by
          rw [if_neg (Nat.succ_ne_zero i)]
          simp only [List.length_append, List.length_cons, List.length_nil]
          omega)
      rw [respEach, if_pos hoff, hturn buf (i + 1) a List.mem_cons_self (by omega), hrest,
        if_neg (Nat.succ_ne_zero i)]
      refine ⟨by simp, ?_⟩
      simp only [List.map_cons, List.flatMap_cons, List.length_append, List.length_cons,
        List.sum_cons]
      omega
  cases as with
  | nil => exact ⟨by simp [respEach, Lib.commaSeparated], Nat.le_refl _⟩
  | cons a as =>
    have hlen := hroom a List.mem_cons_self
    rw [List.map_cons, List.sum_cons] at h
    have hoff : Resp.off bufsz (some buf) < bufsz := Nat.lt_of_le_of_lt (Nat.le_add_right _ _) h
    obtain ⟨hrest, hsum⟩ := hmore as (buf ++ itemText a) 0
      (fun buf i b hb => hturn buf i b (List.mem_cons_of_mem _ hb))
      (fun b hb => hroom b (List.mem_cons_of_mem _ hb))
      (by
        rw [List.length_append]
        omega)
    rw [List.map_cons, Lib.commaSeparated_cons, respEach, if_pos hoff,
      hturn buf 0 a List.mem_cons_self (by omega), if_pos rfl, List.nil_append, hrest]
    refine ⟨by rw [List.append_assoc], ?_⟩
    rw [List.length_append, List.map_cons, List.sum_cons]
    omega

end

end Web
end Wt32Router
