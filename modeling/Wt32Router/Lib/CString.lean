import Wt32Router.Lib.Ascii

/-!
# Strings behind a pointer

A pointer into a string of C is the bytes from it on, the NUL the last of them: `text ++ [0]`. What
lies behind is nobody's, and a read of it is `none`, with nothing after it. So a function that
returns has read no byte past the NUL.

The functions of `string.h` and `stdlib.h` are here as they read: each has a rule that says it
returns, and what, in terms of the text.
-/

namespace Wt32Router
namespace Lib

/-- A loop that steps over the characters of a class. -/
def skipWhile (p : UInt8 → Bool) : List UInt8 → Option (List UInt8)
  | [] => none
  | c :: s => if p c then skipWhile p s else some (c :: s)

/-- `strchr`, of a character that is not the NUL: `some none` is a null pointer. -/
def strchrAt (c : UInt8) : List UInt8 → Option (Option (List UInt8))
  | [] => none
  | d :: s => if d = c then some (some (d :: s)) else if d = 0 then some none else strchrAt c s

/-- `strlcpy`, which reads on to the NUL to tell its length. -/
def strlcpyAt (size : Nat) (s : List UInt8) : Option (List UInt8) := do
  let e ← skipWhile (· ≠ 0) s
  some ((s.take (s.length - e.length)).take (size - 1))

/-- `strtoul` with its end pointer, which is `s` itself where there is no digit. -/
def strtoulAt (s : List UInt8) : Option (BitVec 32 × List UInt8) := do
  let q ← skipWhile isSpace s
  let sign ← q.head?
  let digits := if sign == 45 || sign == 43 then q.tail else q
  let e ← skipWhile isDigit digits
  let v := digitsValue (digits.take (digits.length - e.length))
  if e.length = digits.length then some (0, s)
  else some (if 2 ^ 32 ≤ v then BitVec.allOnes 32
    else if sign == 45 then -BitVec.ofNat 32 v else BitVec.ofNat 32 v, e)

section

variable {p : UInt8 → Bool} {text : List UInt8} {c : UInt8} {size : Nat}

/-- The NUL is of no class that is stepped over. -/
theorem skipWhile_text (hp : p 0 = false) :
    skipWhile p (text ++ [0]) = some (text.dropWhile p ++ [0]) := by
  induction text with
  | nil => simp [skipWhile, hp]
  | cons d text ih =>
    rw [List.cons_append, skipWhile]
    split
    · rename_i hd
      rw [ih, List.dropWhile_cons_of_pos hd]
    · rename_i hd
      rw [List.dropWhile_cons_of_neg hd, List.cons_append]

/-- What has been stepped over. -/
theorem take_skipped (text : List UInt8) :
    (text ++ [0]).take ((text ++ [0]).length - (text.dropWhile p ++ [0]).length) =
      text.takeWhile p := by
  have hlen : (text ++ [0]).length - (text.dropWhile p ++ [0]).length =
      (text.takeWhile p).length := by
    have hsplit := congrArg List.length (List.takeWhile_append_dropWhile (p := p) (l := text))
    rw [List.length_append] at hsplit
    simp only [List.length_append, List.length_singleton]
    omega
  have hfront : text ++ [0] = text.takeWhile p ++ (text.dropWhile p ++ [0]) := by
    rw [← List.append_assoc, List.takeWhile_append_dropWhile]
  rw [hlen, hfront]
  exact List.take_left

theorem strchrAt_text (hc : c ≠ 0) (htext : 0 ∉ text) :
    strchrAt c (text ++ [0]) = some ((strchr c text).map (· ++ [0])) := by
  induction text with
  | nil => simp [strchrAt, strchr, hc.symm]
  | cons d text ih =>
    obtain ⟨hd, htext⟩ := not_or.mp (List.mem_cons.not.mp htext)
    rw [List.cons_append, strchrAt]
    split
    · rename_i hdc
      subst hdc
      simp [strchr]
    · rename_i hdc
      rw [if_neg (Ne.symm hd), ih htext]
      simp [strchr, hdc]

theorem strlcpyAt_text (htext : 0 ∉ text) :
    strlcpyAt size (text ++ [0]) = some (text.take (size - 1)) := by
  unfold strlcpyAt
  rw [skipWhile_text (by simp), Option.bind_eq_bind, Option.bind_some, take_skipped]
  exact congrArg (fun s => some (s.take (size - 1))) (cString_eq_self htext)

/-- Nothing has been stepped over. -/
theorem skipped_nil_iff (text : List UInt8) :
    (text.dropWhile p ++ [0]).length = (text ++ [0]).length ↔ text.takeWhile p = [] := by
  have hsplit := congrArg List.length (List.takeWhile_append_dropWhile (p := p) (l := text))
  rw [List.length_append] at hsplit
  rw [List.length_append, List.length_append, ← List.length_eq_zero_iff]
  omega

theorem strtoulAt_text : strtoulAt (text ++ [0]) = some (strtoul text,
    (match scanNumber text with | some (_, _, tail) => tail | none => text) ++ [0]) := by
  unfold strtoulAt strtoul scanNumber
  rw [skipWhile_text (by decide), Option.bind_eq_bind, Option.bind_some]
  generalize text.dropWhile isSpace = rest
  -- where the digits would begin, the NUL behind them or not
  have hsign : ∃ sign, (rest ++ [0]).head? = some sign ∧ (rest.head? == some 45) = (sign == 45) ∧
      (rest.head? == some 43) = (sign == 43) ∧
      (if sign == 45 || sign == 43 then (rest ++ [0]).tail else rest ++ [0]) =
        (if sign == 45 || sign == 43 then rest.tail else rest) ++ [0] := by
    cases rest with
    | nil => exact ⟨0, rfl, rfl, rfl, rfl⟩
    | cons d rest =>
      refine ⟨d, rfl, by simp, by simp, ?_⟩
      split <;> rfl
  obtain ⟨sign, hhead, hminus, hplus, hdigits⟩ := hsign
  rw [hhead, Option.bind_eq_bind, Option.bind_some, hdigits]
  dsimp only
  rw [hminus, hplus]
  generalize (if (sign == 45 || sign == 43) = true then rest.tail else rest) = digits
  rw [skipWhile_text (by decide), Option.bind_some, take_skipped]
  by_cases hnone : digits.takeWhile isDigit = []
  · rw [if_pos ((skipped_nil_iff digits).mpr hnone), if_pos hnone]
  · rw [if_neg ((skipped_nil_iff digits).not.mpr hnone), if_neg hnone]

end

end Lib
end Wt32Router
