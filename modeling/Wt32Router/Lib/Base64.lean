import Mathlib.Data.List.Basic

/-!
# Base64

Three bytes are four digits of six bits, and a last group of one or two bytes is filled up with
`=`. The bits of its last digit that no byte takes are zero in the text an encoder writes, and
most decoders do not look at them: `Encodes` leaves them open.
-/

namespace Wt32Router
namespace Lib
namespace Base64

/-- The character of a digit. -/
def digit (v : Nat) : UInt8 :=
  if v < 26 then UInt8.ofNat (65 + v)
  else if v < 52 then UInt8.ofNat (71 + v)
  else if v < 62 then UInt8.ofNat (v - 4)
  else if v = 62 then 43
  else 47

/-- The padding. -/
def pad : UInt8 := 61

/-- `text` stands for `bytes`. -/
inductive Encodes : List UInt8 → List UInt8 → Prop where
  | nil : Encodes [] []
  | three {text bytes : List UInt8} (a b c : UInt8) : Encodes text bytes →
      Encodes (digit (a.toNat / 4) :: digit (a.toNat % 4 * 16 + b.toNat / 16) ::
        digit (b.toNat % 16 * 4 + c.toNat / 64) :: digit (c.toNat % 64) :: text)
        (a :: b :: c :: bytes)
  | two (a b : UInt8) (x : Nat) : x < 4 →
      Encodes [digit (a.toNat / 4), digit (a.toNat % 4 * 16 + b.toNat / 16),
        digit (b.toNat % 16 * 4 + x), pad] [a, b]
  | one (a : UInt8) (x : Nat) : x < 16 →
      Encodes [digit (a.toNat / 4), digit (a.toNat % 4 * 16 + x), pad, pad] [a]

def encode : List UInt8 → List UInt8
  | a :: b :: c :: bytes =>
      digit (a.toNat / 4) :: digit (a.toNat % 4 * 16 + b.toNat / 16) ::
        digit (b.toNat % 16 * 4 + c.toNat / 64) :: digit (c.toNat % 64) :: encode bytes
  | [a, b] =>
      [digit (a.toNat / 4), digit (a.toNat % 4 * 16 + b.toNat / 16), digit (b.toNat % 16 * 4), pad]
  | [a] => [digit (a.toNat / 4), digit (a.toNat % 4 * 16), pad, pad]
  | [] => []

section

variable {text bytes : List UInt8}

theorem encode_encodes (bytes : List UInt8) : Encodes (encode bytes) bytes := by
  induction bytes using encode.induct with
  | case1 a b c bytes ih => exact .three a b c ih
  | case2 a b => exact .two a b 0 (by decide)
  | case3 a => exact .one a 0 (by decide)
  | case4 => exact .nil

/-- Four characters for each three bytes, or part of three. -/
theorem Encodes.length (h : Encodes text bytes) : text.length = 4 * ((bytes.length + 2) / 3) := by
  induction h with
  | nil => rfl
  | three a b c _ ih =>
    simp only [List.length_cons]
    omega
  | two => simp
  | one => simp

end

end Base64
end Lib
end Wt32Router
