import Wt32Router.Web.JsonKeys

/-!
# A string written and read back

`json_append_escaped` puts a string into a body, and `json_get_string` takes one out. Each byte
is written as one piece of a string, and read as what is kept of the piece: the byte itself, as
long as it is no control character.
-/

namespace Wt32Router
namespace Web

open Lib (ascii cString strstr)

/-- The piece that a byte is written as. -/
def pieceOf (c : UInt8) : Piece :=
  if c = 34 then .escape .quote
  else if c = 92 then .escape .backslash
  else if c = 10 then .escape .newline
  else if c = 13 then .escape .carriageReturn
  else if c = 9 then .escape .tab
  else if c < 0x20 then .unicode [48, 48, hexDigit (c.toNat / 16), hexDigit (c.toNat % 16)]
  else .plain c

section

variable {json buf s w rest : List UInt8} {key : String} {bufsz outLen n : Nat} {c : UInt8}

theorem pieceOf_text (c : UInt8) : (pieceOf c).text = escapeByte c := by
  unfold pieceOf escapeByte
  split_ifs <;> rfl

theorem hexValue_hexDigit (h : n < 16) : hexValue (hexDigit n) ≠ none := by
  have hall : ∀ n < 16, hexValue (hexDigit n) ≠ none := by decide
  exact hall n h

theorem pieceOf_valid (c : UInt8) : (pieceOf c).Valid := by
  unfold pieceOf
  split_ifs with h₁ h₂ h₃ h₄ h₅ h₆
  iterate 5 exact trivial
  · have hlt := c.toNat_lt
    have hzero : hexValue 48 ≠ none := by decide
    have hhigh := hexValue_hexDigit (show c.toNat / 16 < 16 by omega)
    have hlow := hexValue_hexDigit (show c.toNat % 16 < 16 by omega)
    refine ⟨rfl, ?_⟩
    simp only [List.forall_mem_cons]
    exact ⟨hzero, hzero, hhigh, hlow, fun d hd => absurd hd List.not_mem_nil⟩
  · exact ⟨UInt8.not_lt.mp h₆, h₁, h₂⟩

/-- A byte that is no control character comes back. -/
theorem pieceOf_kept (h : 32 ≤ c) : (pieceOf c).kept = [c] := by
  have hne : ∀ d : UInt8, d < 32 → c ≠ d := by
    rintro d hd rfl
    exact absurd h (UInt8.not_le.mpr hd)
  unfold pieceOf
  rw [if_neg (hne 10 (by decide)), if_neg (hne 13 (by decide)), if_neg (hne 9 (by decide)),
    if_neg (UInt8.not_lt.mpr h)]
  split_ifs with h₁ h₂
  · rw [h₁]
    rfl
  · rw [h₂]
    rfl
  · rfl

/-- What comes back of a control character begins with a letter. -/
theorem pieceOf_control (h : c < 32) : ∃ d t, (pieceOf c).kept = d :: t ∧ d ≠ c := by
  have hne : ∀ d : UInt8, 32 ≤ d → d ≠ c := by
    rintro d hd rfl
    exact absurd hd (UInt8.not_le.mpr h)
  unfold pieceOf
  rw [if_neg fun hc => hne 34 (by decide) hc.symm, if_neg fun hc => hne 92 (by decide) hc.symm,
    if_pos h]
  split_ifs
  · exact ⟨110, _, rfl, hne 110 (by decide)⟩
  · exact ⟨114, _, rfl, hne 114 (by decide)⟩
  · exact ⟨116, _, rfl, hne 116 (by decide)⟩
  · exact ⟨117, _, rfl, hne 117 (by decide)⟩

/-- What comes back of a string, cut where the buffer ends, is the string only without them. -/
theorem kept_eq_iff (h : s.length ≤ n) :
    ((s.map pieceOf).flatMap Piece.kept).take n = s ↔ ∀ c ∈ s, 32 ≤ c := by
  induction s generalizing n with
  | nil => simp
  | cons c s ih =>
    rw [List.length_cons] at h
    obtain ⟨n, rfl⟩ := Nat.exists_eq_add_of_le' (show 1 ≤ n by omega)
    rw [List.map_cons, List.flatMap_cons, List.forall_mem_cons]
    by_cases hc : 32 ≤ c
    · rw [pieceOf_kept hc, List.singleton_append, List.take_succ_cons, List.cons.injEq,
        ih (by omega)]
      exact and_congr_left' (iff_of_true rfl hc)
    · obtain ⟨d, t, hkept, hd⟩ := pieceOf_control (UInt8.not_le.mp hc)
      rw [hkept, List.cons_append, List.take_succ_cons, List.cons.injEq]
      exact iff_of_false (fun h => hd h.1) fun h => hc h.1

/-- What `json_append_escaped` has written, where it has. -/
theorem jsonAppendEscaped_written (h : jsonAppendEscaped bufsz (some buf) s = some w) :
    w = buf ++ escaped s := by
  change escapeLoop bufsz s buf = some w at h
  induction s generalizing buf with
  | nil =>
    obtain rfl := Option.some.inj h
    simp [escaped, cString]
  | cons c s ih =>
    unfold escapeLoop at h
    split at h
    · rename_i hc
      obtain rfl := Option.some.inj h
      simp [escaped, cString, hc]
    · rename_i hc
      split at h
      · exact absurd h (by simp)
      · rw [ih h]
        simp [escaped, cString, hc]

theorem escaped_eq (hnul : 0 ∉ s) : escaped s = stringText (s.map pieceOf) := by
  have htext : Piece.text ∘ pieceOf = escapeByte := funext pieceOf_text
  rw [escaped, Lib.cString_eq_self hnul, stringText, List.flatMap_map]
  exact congrArg (fun f => s.flatMap f) htext.symm

/-- A string that is written into a member and read back is the same exactly where it has no
    control character. -/
theorem escaped_read_back_iff (hnul : 0 ∉ s)
    (hwritten : jsonAppendEscaped bufsz (some buf) s = some (buf ++ w))
    (hmember : strstr (jsonPattern key) json =
      some (jsonPattern key ++ 58 :: 34 :: (w ++ 34 :: rest)))
    (hroom : s.length < outLen) :
    jsonGetString json key outLen = some s ↔ ∀ c ∈ s, 32 ≤ c := by
  have hw : w = stringText (s.map pieceOf) := by
    rw [← escaped_eq hnul]
    exact List.append_cancel_left (jsonAppendEscaped_written hwritten)
  have hvalid : ∀ p ∈ s.map pieceOf, p.Valid := by
    intro p hp
    obtain ⟨c, -, rfl⟩ := List.mem_map.mp hp
    exact pieceOf_valid c
  have hfind : jsonFind json key =
      some ([] ++ ((34 :: (stringText (s.map pieceOf) ++ [34])) ++ rest)) := by
    rw [jsonFind_field hmember, hw]
    simp
  rw [jsonGetString_str hvalid (fun c hc => absurd hc List.not_mem_nil) hfind, Option.some_inj]
  exact kept_eq_iff (by omega)

theorem escaped_read_back_quote :
    jsonGetString (ascii "\x7b\"ssid\":\"a\\\"b\"\x7d") "ssid" 33 = some (ascii "a\"b") := by
  have hwritten : jsonAppendEscaped 64 (some (ascii "\x7b\"ssid\":\"")) (ascii "a\"b") =
      some (ascii "\x7b\"ssid\":\"" ++ ascii "a\\\"b") := by
    decide
  have hmember : strstr (jsonPattern "ssid") (ascii "\x7b\"ssid\":\"a\\\"b\"\x7d") =
      some (jsonPattern "ssid" ++ 58 :: 34 :: (ascii "a\\\"b" ++ 34 :: ascii "\x7d")) := by
    decide +kernel
  exact (escaped_read_back_iff (by decide) hwritten hmember (by decide)).mpr
    (by decide +kernel)

/-- A name of two lines is written with an `n` behind the backslash, and read with an `n`. -/
theorem escaped_read_back_fails :
    ¬ ∀ json buf s w rest key bufsz outLen, 0 ∉ s →
      jsonAppendEscaped bufsz (some buf) s = some (buf ++ w) →
      strstr (jsonPattern key) json =
        some (jsonPattern key ++ 58 :: 34 :: (w ++ 34 :: rest)) →
      s.length < outLen → jsonGetString json key outLen = some s := by
  intro h
  have hback := h (ascii "\x7b\"ssid\":\"a\\nb\"\x7d") (ascii "\x7b\"ssid\":\"") (ascii "a\nb")
    (ascii "a\\nb") (ascii "\x7d") "ssid" 64 33 (by decide) (by decide) (by decide +kernel)
    (by decide)
  exact absurd hback (by decide +kernel)

end

end Web
end Wt32Router
