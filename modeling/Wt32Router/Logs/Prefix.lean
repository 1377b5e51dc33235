import Wt32Router.Lib.CString
import Wt32Router.Lib.Checked
import Wt32Router.Logs.Hook

/-!
# Lines as `parse_line` reads them

A line is text that other code wrote: a prefix of the level's letter and the time, a tag, and the
message; or anything. `parse_line` looks at it a byte at a time, and each test is only made where
the one before it held. "The explicit empty-string test is load-bearing", says the source:
`strchr` finds the NUL in "EWIDV".

> **`line_parsing`**: a line put together from a level, a time, a tag and a message is taken apart
> into them, a line without the prefix is kept whole, and no line makes it read past its NUL.

The tests are here in the order of the source, each behind the read it needs. `Logs/Hook.lean` has
the function on values, and they are the same (`parseLineAt_eq`).
-/

namespace Wt32Router
namespace Logs

open Lib

/-- `match_prefix` from the end of the number on. -/
def matchCloseAt (letter : UInt8) (ts : BitVec 32) (stop : List UInt8) :
    Option (Option (UInt8 × BitVec 32 × List UInt8)) := do
  let close ← stop[0]?
  if close ≠ 41 then some none
  else
    let space ← stop[1]?
    if space ≠ 32 then some none else some (some (letter, ts, stop.drop 2))

/-- `match_prefix`: a null answer, or the letter, the time and the pointer behind. -/
def matchPrefixAt (text : List UInt8) : Option (Option (UInt8 × BitVec 32 × List UInt8)) := do
  let letter ← text[0]?
  if letter = 0 ∨ letter ∉ ascii "EWIDV" ++ [0] then some none
  else
    let space ← text[1]?
    if space ≠ 32 then some none
    else
      let paren ← text[2]?
      if paren ≠ 40 then some none
      else
        let (ts, stop) ← strtoulAt (text.drop 3)
        matchCloseAt letter ts stop

/-- The part of `parse_line` behind the prefix: the tag, and the pointer to the message. -/
def splitTagAt (rest : List UInt8) : Option (List UInt8 × List UInt8) := do
  match ← strchrAt 58 rest with
  | none => some ([], rest)
  | some sep =>
    let taglen := rest.length - sep.length
    if taglen < logBufTagMax then
      let tag ← copyIn rest 0 taglen
      let space ← sep[1]?
      some (tag, if space = 32 then sep.drop 2 else sep.drop 1)
    else some ([], rest)

/-- `parse_line`. -/
def parseLineAt (line : List UInt8) : Option LogLine := do
  match ← matchPrefixAt line with
  | none =>
    let msg ← strlcpyAt logBufMsgMax line
    some { level := '?', tsMs := 0, tag := [], msg := msg }
  | some (letter, ts, rest) =>
    let (tag, rest) ← splitTagAt rest
    let msg ← strlcpyAt logBufMsgMax rest
    some { level := Char.ofNat letter.toNat, tsMs := ts, tag := tag, msg := msg }

/-- `"L (ts) "`. -/
def linePrefix (letter : UInt8) (ts : BitVec 32) : List UInt8 :=
  [letter, 32, 40] ++ decimal ts.toNat ++ [41, 32]

section

variable {line rest tag msg : List UInt8} {letter : UInt8} {ts : BitVec 32}

/-! ## The reads -/

/-- The rest of a line as a pointer. -/
def toPointer (r : UInt8 × BitVec 32 × List UInt8) : UInt8 × BitVec 32 × List UInt8 :=
  (r.1, r.2.1, r.2.2 ++ [0])

theorem matchCloseAt_eq (text : List UInt8) :
    matchCloseAt letter ts (text ++ [0]) = some ((match text with
      | 41 :: 32 :: tail => some (letter, ts, tail)
      | _ => none).map toPointer) := by
  match text with
  | [] => rfl
  | [c] =>
    by_cases hc : c = 41
    · subst hc
      rfl
    · simp [matchCloseAt]
  | c :: d :: tail =>
    by_cases hc : c = 41
    · by_cases hd : d = 32
      · subst hc hd
        rfl
      · simp [matchCloseAt, hc, hd]
    · simp [matchCloseAt, hc]

theorem matchPrefixAt_eq {line : List UInt8} (hline : 0 ∉ line) :
    matchPrefixAt (line ++ [0]) = some ((matchPrefix line).map toPointer) := by
  match line with
  | [] => rfl
  | letter :: line =>
    have hletter : letter ≠ 0 := fun h => hline (h ▸ List.mem_cons_self)
    by_cases hmem : letter ∈ ascii "EWIDV"
    · match line with
      | [] => simp [matchPrefixAt, matchPrefix]
      | [space] => by_cases hspace : space = 32 <;> simp [matchPrefixAt, matchPrefix, hspace]
      | space :: paren :: rest =>
        by_cases hspace : space = 32
        · by_cases hparen : paren = 40
          · subst hspace hparen
            have hread : matchPrefixAt (letter :: 32 :: 40 :: rest ++ [0]) =
                (strtoulAt (rest ++ [0])).bind fun r => matchCloseAt letter r.1 r.2 := by
              simp [matchPrefixAt, hletter, hmem]
            rw [hread, strtoulAt_text, Option.bind_some, matchCloseAt_eq]
            exact congrArg (some ∘ Option.map toPointer) (if_pos hmem).symm
          · simp [matchPrefixAt, matchPrefix, hspace, hparen]
        · simp [matchPrefixAt, matchPrefix, hspace]
    · have hno : matchPrefix (letter :: line) = none := by
        unfold matchPrefix
        split
        · rename_i heq
          obtain ⟨rfl, -⟩ := List.cons.inj heq
          exact if_neg hmem
        · rfl
      simp [matchPrefixAt, hletter, hmem, hno]

theorem splitTagAt_eq {rest : List UInt8} (hrest : 0 ∉ rest) :
    splitTagAt (rest ++ [0]) = some ((splitTag rest).1, (splitTag rest).2 ++ [0]) := by
  unfold splitTagAt splitTag
  rw [strchrAt_text (by decide) hrest]
  rcases strchr_cases 58 rest with ⟨-, hnone⟩ | ⟨behind, hsep, hsplit⟩
  · rw [hnone]
    rfl
  · rw [hsep]
    have hlen : (rest ++ [0]).length - (58 :: behind ++ [0]).length =
        (rest.takeWhile (· ≠ 58)).length := by
      conv_lhs => rw [hsplit]
      simp only [List.length_append, List.length_cons]
      omega
    simp only [Option.map_some, Option.bind_eq_bind, Option.bind_some, hlen]
    split
    · have htag : copyIn (rest ++ [0]) 0 (rest.takeWhile (· ≠ 58)).length =
          some (rest.takeWhile (· ≠ 58)) := by
        have hle : (rest.takeWhile (· ≠ 58)).length ≤ rest.length :=
          (List.takeWhile_prefix _).length_le
        rw [ copyIn_prefix (by rw [List.length_append]; omega),
          List.take_append_of_le_length hle]
        exact congrArg some (List.prefix_iff_eq_take.mp (List.takeWhile_prefix _)).symm
      rw [htag, Option.bind_some]
      cases behind with
      | nil => rfl
      | cons c tail =>
        by_cases hc : c = 32
        · subst hc
          rfl
        · simp [hc]
    · rfl

theorem matchPrefix_suffix {line rest : List UInt8}
    (h : matchPrefix line = some (letter, ts, rest)) :
    rest <:+ line := by
  unfold matchPrefix at h
  split at h
  · rename_i letter text
    split at h
    · split at h
      · rename_i tail htail
        simp only [Option.some.injEq, Prod.mk.injEq] at h
        obtain ⟨-, -, rfl⟩ := h
        have hnumber : 41 :: 32 :: tail <:+ text := by
          rw [← htail]
          split
          · exact scanNumber_suffix (by assumption)
          · exact List.suffix_refl _
        exact ((List.drop_suffix 2 _).trans hnumber).trans (List.suffix_append [_, 32, 40] text)
      · exact absurd h (by simp)
    · exact absurd h (by simp)
  · exact absurd h (by simp)

theorem splitTag_suffix (rest : List UInt8) : (splitTag rest).2 <:+ rest := by
  unfold splitTag
  rcases strchr_cases 58 rest with ⟨-, hnone⟩ | ⟨behind, hsep, hsplit⟩
  · simp only [hnone]
    exact List.suffix_refl _
  · rw [hsep]
    have hbehind : behind <:+ rest := by
      rw [hsplit]
      exact (List.suffix_cons 58 behind).trans (List.suffix_append _ _)
    dsimp only
    split
    · refine List.IsSuffix.trans ?_ hbehind
      dsimp only
      split
      · exact List.suffix_cons _ _
      · exact List.suffix_refl _
    · exact List.suffix_refl _

/-- **`parse_line` reads nothing behind the NUL**, and what it makes is that of `parseLine`. -/
theorem parseLineAt_eq {line : List UInt8} (hline : 0 ∉ line) :
    parseLineAt (line ++ [0]) = some (parseLine line) := by
  have hcopy : ∀ text : List UInt8, 0 ∉ text →
      strlcpyAt logBufMsgMax (text ++ [0]) = some (strlcpy logBufMsgMax text) := by
    intro text htext
    rw [strlcpyAt_text htext, strlcpy, cString_eq_self htext]
  unfold parseLineAt parseLine
  rw [matchPrefixAt_eq hline, Option.bind_eq_bind, Option.bind_some]
  cases hprefix : matchPrefix line with
  | none =>
    simp only [Option.map_none]
    rw [hcopy line hline]
    rfl
  | some r =>
    obtain ⟨letter, ts, rest⟩ := r
    have hrest : 0 ∉ rest := fun h0 => hline ((matchPrefix_suffix hprefix).mem h0)
    have hmsg : 0 ∉ (splitTag rest).2 := fun h0 => hrest ((splitTag_suffix rest).mem h0)
    simp only [Option.map_some, toPointer]
    rw [splitTagAt_eq hrest, Option.bind_eq_bind, Option.bind_some]
    dsimp only
    rw [hcopy _ hmsg]
    rfl

/-! ## A line that was put together -/

/-- The prefix of a line is read back, and what follows it is left. -/
theorem matchPrefix_linePrefix (hletter : letter ∈ ascii "EWIDV") (ts : BitVec 32)
    (rest : List UInt8) : matchPrefix (linePrefix letter ts ++ rest) = some (letter, ts, rest) := by
  have hline : linePrefix letter ts ++ rest =
      letter :: 32 :: 40 :: (decimal ts.toNat ++ 41 :: 32 :: rest) := by
    simp [linePrefix]
  have hclose : (41 :: 32 :: rest : List UInt8).head?.any isDigit = false := rfl
  have hdigits : ∀ c ∈ decimal ts.toNat, isDigit c = true := fun c hc => digit_of_mem_decimal hc
  have hlt : ¬ 2 ^ 32 ≤ ts.toNat := Nat.not_le.mpr ts.isLt
  rw [hline, matchPrefix, if_pos hletter, scanNumber_digits decimal_ne_nil hdigits hclose,
    strtoul_digits decimal_ne_nil hdigits hclose, digitsValue_decimal, if_neg hlt,
    BitVec.ofNat_toNat, BitVec.setWidth_eq]
  rfl

/-- What is behind the colon of a tag, less a blank. -/
def behindColon : List UInt8 → List UInt8
  | 32 :: tail => tail
  | tail => tail

/-- A tag with its colon is split off, and a blank behind the colon with it. -/
theorem splitTag_tag (hlen : tag.length < logBufTagMax) (htag : 58 ∉ tag) (behind : List UInt8) :
    splitTag (tag ++ 58 :: behind) = (tag, behindColon behind) := by
  have hrun : (tag ++ 58 :: behind).takeWhile (· ≠ 58) = tag :=
    takeWhile_run (fun c hc => decide_eq_true fun h => htag (h ▸ hc)) rfl
  unfold splitTag
  rw [strchr_append htag]
  dsimp only
  rw [hrun, if_pos hlen]
  rfl

/-- What `parse_line` makes of a line with that prefix, tag and message. -/
theorem parseLine_tagged (hletter : letter ∈ ascii "EWIDV") (ts : BitVec 32)
    (hlen : tag.length < logBufTagMax) (htag : 58 ∉ tag) (behind : List UInt8) :
    parseLine (linePrefix letter ts ++ (tag ++ 58 :: behind)) =
      { level := Char.ofNat letter.toNat, tsMs := ts, tag := tag
        msg := strlcpy logBufMsgMax (behindColon behind) } := by
  rw [parseLine, matchPrefix_linePrefix hletter]
  dsimp only
  rw [splitTag_tag hlen htag]

end

/-- What `parse_line` is to make of a line with a prefix. -/
def taggedLine (letter : UInt8) (ts : BitVec 32) (tag msg : List UInt8) : LogLine where
  level := Char.ofNat letter.toNat
  tsMs := ts
  tag := tag
  msg := msg.take (logBufMsgMax - 1)

/-- **Lines are taken apart as they were put together**, with a blank behind the colon or without;
    a line without the prefix is kept whole; and no line is read past its NUL. -/
theorem line_parsing :
    (∀ letter ∈ ascii "EWIDV", ∀ (ts : BitVec 32) (tag msg : List UInt8),
      tag.length < logBufTagMax → 58 ∉ tag → 0 ∉ msg →
        parseLine (linePrefix letter ts ++ tag ++ [58, 32] ++ msg) = taggedLine letter ts tag msg ∧
        (msg.head? ≠ some 32 →
          parseLine (linePrefix letter ts ++ tag ++ [58] ++ msg) = taggedLine letter ts tag msg)) ∧
    (∀ line, 0 ∉ line → matchPrefix line = none →
      parseLine line =
        { level := '?', tsMs := 0, tag := [], msg := line.take (logBufMsgMax - 1) }) ∧
    ∀ line, 0 ∉ line → parseLineAt (line ++ [0]) = some (parseLine line) := by
  have hcopy : ∀ text : List UInt8, 0 ∉ text →
      strlcpy logBufMsgMax text = text.take (logBufMsgMax - 1) := fun text htext => by
    rw [strlcpy, cString_eq_self htext]
  refine ⟨fun letter hletter ts tag msg hlen htag hmsg => ⟨?_, fun hblank => ?_⟩,
    fun line hline hno => ?_, fun line hline => parseLineAt_eq hline⟩
  · have happ : linePrefix letter ts ++ tag ++ [58, 32] ++ msg =
        linePrefix letter ts ++ (tag ++ 58 :: 32 :: msg) := by simp
    rw [happ, parseLine_tagged hletter ts hlen htag, behindColon, hcopy msg hmsg]
    rfl
  · have happ : linePrefix letter ts ++ tag ++ [58] ++ msg =
        linePrefix letter ts ++ (tag ++ 58 :: msg) := by simp
    have hsame : behindColon msg = msg := by
      unfold behindColon
      split
      · exact absurd rfl hblank
      · rfl
    rw [happ, parseLine_tagged hletter ts hlen htag, hsame, hcopy msg hmsg]
    rfl
  · rw [parseLine, hno]
    dsimp only
    rw [hcopy line hline]

end Logs
end Wt32Router
