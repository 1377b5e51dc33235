import Mathlib.Algebra.Group.Int.Defs
import Mathlib.Algebra.Group.Nat.Defs
import Mathlib.Data.List.TakeWhile

/-!
# Text as bytes, and decimal numbers in it

Text is a list of bytes here, as C has it. `decimal` is what `printf` writes for `%u`;
`scanNumber` is what `strtol` and `strtoul` read, with the rest of the text they hand back;
and the second undoes the first.
-/

namespace Wt32Router
namespace Lib

def ascii (s : String) : List UInt8 := s.toList.map fun c => UInt8.ofNat c.toNat

/-- The string that C sees in these bytes. -/
def cString (text : List UInt8) : List UInt8 := text.takeWhile (· ≠ 0)

/-- `strlcpy` into an array of `size` bytes. -/
def strlcpy (size : Nat) (src : List UInt8) : List UInt8 := (cString src).take (size - 1)

/-- `strchr`: the text from the first `c` on. -/
def strchr (c : UInt8) (text : List UInt8) : Option (List UInt8) :=
  match text.dropWhile (· ≠ c) with
  | [] => none
  | p => some p

/-- `strstr`: the text from the first `pattern` on. -/
def strstr (pattern : List UInt8) : List UInt8 → Option (List UInt8)
  | [] => if pattern = [] then some [] else none
  | c :: text => if pattern.isPrefixOf (c :: text) then some (c :: text) else strstr pattern text

/-- Text without a NUL is a string as it stands. -/
theorem cString_eq_self {text : List UInt8} (h : 0 ∉ text) : cString text = text :=
  List.takeWhile_eq_self_iff.mpr fun _ hc => decide_eq_true fun h0 => h (h0 ▸ hc)

/-- What stands behind a NUL is no part of a string. -/
theorem cString_append_nul (text behind : List UInt8) :
    cString (text ++ 0 :: behind) = cString text := by
  unfold cString
  induction text with
  | nil => rfl
  | cons c text ih => rw [List.cons_append, List.takeWhile_cons, List.takeWhile_cons, ih]

/-! ## The length of a literal

A literal is `String.ofList` of its characters, which is far less work than to decode it. -/

theorem ascii_ofList_length (chars : List Char) :
    (ascii (String.ofList chars)).length = chars.length := by
  unfold ascii
  rw [List.length_map, String.toList_ofList]

theorem append_ascii_length {text : List UInt8} {n : Nat} (h : text.length = n)
    (chars : List Char) : (text ++ ascii (String.ofList chars)).length = n + chars.length := by
  rw [List.length_append, h, ascii_ofList_length]

/-! ## Runs of characters -/

section

variable {p : UInt8 → Bool} {run rest : List UInt8}

theorem takeWhile_run (hrun : ∀ c ∈ run, p c = true) (hrest : rest.head?.any p = false) :
    (run ++ rest).takeWhile p = run := by
  rw [List.takeWhile_append_of_pos hrun]
  cases rest with
  | nil => simp
  | cons c rest => simp_all

theorem dropWhile_run (hrun : ∀ c ∈ run, p c = true) (hrest : rest.head?.any p = false) :
    (run ++ rest).dropWhile p = rest := by
  rw [List.dropWhile_append_of_pos hrun]
  cases rest with
  | nil => rfl
  | cons c rest => simp_all

theorem run_unique {run' rest' : List UInt8} (hrun : ∀ c ∈ run, p c = true)
    (hrun' : ∀ c ∈ run', p c = true) (hrest : rest.head?.any p = false)
    (hrest' : rest'.head?.any p = false) (h : run ++ rest = run' ++ rest') :
    run = run' ∧ rest = rest' :=
  ⟨by rw [← takeWhile_run hrun hrest, h, takeWhile_run hrun' hrest'],
    by rw [← dropWhile_run hrun hrest, h, dropWhile_run hrun' hrest']⟩

/-- Behind a run comes something else. -/
theorem head_dropWhile (text : List UInt8) : (text.dropWhile p).head?.any p = false := by
  induction text with
  | nil => rfl
  | cons c text ih =>
    cases hc : p c with
    | true => rw [List.dropWhile_cons_of_pos hc, ih]
    | false => rw [List.dropWhile_cons_of_neg (by rw [hc]; decide), List.head?_cons,
        Option.any_some, hc]

end

/-! ## Searching -/

section

variable {pattern text front rest : List UInt8} {c : UInt8} {i : Nat}

/-- `pattern` stands in `text`, `i` bytes in. -/
def OccursAt (pattern text : List UInt8) (i : Nat) : Prop :=
  pattern.isPrefixOf (text.drop i) = true

instance (pattern text : List UInt8) (i : Nat) : Decidable (OccursAt pattern text i) :=
  inferInstanceAs (Decidable (_ = true))

theorem strchr_append (h : c ∉ front) : strchr c (front ++ c :: rest) = some (c :: rest) := by
  have hfront : ∀ d ∈ front, decide (d ≠ c) = true := fun d hd => decide_eq_true fun hdc =>
    h (hdc ▸ hd)
  unfold strchr
  rw [List.dropWhile_append_of_pos hfront, List.dropWhile_cons_of_neg (by simp)]

theorem strchr_none (h : c ∉ text) : strchr c text = none := by
  have hall : ∀ d ∈ text, decide (d ≠ c) = true := fun d hd =>
    decide_eq_true fun hdc => h (hdc ▸ hd)
  unfold strchr
  rw [List.dropWhile_eq_nil_iff.mpr hall]

/-- Either there is no `c`, or there is a first one. -/
theorem strchr_cases (c : UInt8) (text : List UInt8) :
    c ∉ text ∧ strchr c text = none ∨
      ∃ behind, strchr c text = some (c :: behind) ∧
        text = text.takeWhile (· ≠ c) ++ c :: behind := by
  unfold strchr
  rcases hrest : text.dropWhile (· ≠ c) with _ | ⟨d, behind⟩
  · refine .inl ⟨fun hmem => ?_, rfl⟩
    exact absurd rfl (of_decide_eq_true (List.dropWhile_eq_nil_iff.mp hrest c hmem))
  · have hhead := head_dropWhile (p := (· ≠ c)) text
    rw [hrest] at hhead
    obtain rfl : d = c := by simpa using hhead
    exact .inr ⟨behind, rfl, by rw [← hrest, List.takeWhile_append_dropWhile]⟩

theorem strstr_some {q : List UInt8} (h : strstr pattern text = some q) :
    ∃ j ≤ text.length, OccursAt pattern text j ∧ q = text.drop j := by
  induction text with
  | nil =>
    unfold strstr at h
    split at h
    · rename_i hnil
      exact ⟨0, Nat.le_refl _, by rw [hnil]; rfl, (Option.some.inj h).symm⟩
    · exact absurd h (by simp)
  | cons d text ih =>
    unfold strstr at h
    split at h
    · rename_i hpre
      exact ⟨0, Nat.zero_le _, hpre, (Option.some.inj h).symm⟩
    · obtain ⟨j, hj, hocc, rfl⟩ := ih h
      exact ⟨j + 1, Nat.succ_le_succ hj, hocc, rfl⟩

/-- A pattern that stands somewhere is found there, or before. -/
theorem strstr_of_occursAt (h : OccursAt pattern text i) (hi : i ≤ text.length) :
    ∃ j ≤ i, OccursAt pattern text j ∧ strstr pattern text = some (text.drop j) := by
  induction text generalizing i with
  | nil =>
    have hnil : pattern = [] := by
      unfold OccursAt at h
      rw [List.drop_nil] at h
      exact List.prefix_nil.mp (List.isPrefixOf_iff_prefix.mp h)
    exact ⟨0, Nat.zero_le _, by rw [hnil]; rfl, by rw [strstr, if_pos hnil]; rfl⟩
  | cons d text ih =>
    unfold strstr
    by_cases hpre : pattern.isPrefixOf (d :: text) = true
    · exact ⟨0, Nat.zero_le _, hpre, by rw [if_pos hpre]; rfl⟩
    · rw [if_neg hpre]
      cases i with
      | zero => exact absurd h hpre
      | succ i =>
        obtain ⟨j, hj, hocc, heq⟩ := ih h (Nat.le_of_succ_le_succ hi)
        exact ⟨j + 1, Nat.succ_le_succ hj, hocc, heq⟩

end

/-! ## Writing -/

/-- `%u`. -/
def decimal (n : Nat) : List UInt8 := (Nat.toDigits 10 n).map fun c => UInt8.ofNat c.toNat

/-- `%d`. -/
def signedDecimal (n : Int) : List UInt8 :=
  if n < 0 then 45 :: decimal n.natAbs else decimal n.natAbs

/-- The elements of an array, with a comma between each two. -/
def commaSeparated : List (List UInt8) → List UInt8
  | [] => []
  | x :: xs => xs.foldl (fun text y => text ++ 44 :: y) x

/-- `%6s` and its like. -/
def padLeft (n : Nat) (text : List UInt8) : List UInt8 :=
  List.replicate (n - text.length) 32 ++ text

/-- `%-24s` and its like. -/
def padRight (n : Nat) (text : List UInt8) : List UInt8 :=
  text ++ List.replicate (n - text.length) 32

theorem padLeft_length (n : Nat) (text : List UInt8) :
    (padLeft n text).length = max n text.length := by
  unfold padLeft
  rw [List.length_append, List.length_replicate]
  omega

theorem padRight_length (n : Nat) (text : List UInt8) :
    (padRight n text).length = max n text.length := by
  unfold padRight
  rw [List.length_append, List.length_replicate]
  omega

theorem decimal_length {n k : Nat} (hk : 0 < k) (h : n < 10 ^ k) : (decimal n).length ≤ k := by
  unfold decimal
  rw [List.length_map]
  exact (Nat.length_toDigits_le_iff (by decide) hk).mpr h

theorem decimal_length_u32 (n : BitVec 32) : (decimal n.toNat).length ≤ 10 :=
  decimal_length (by decide) (Nat.lt_trans n.isLt (by decide))

theorem signedDecimal_length_i32 (n : BitVec 32) : (signedDecimal n.toInt).length ≤ 11 := by
  have hlt : n.toInt.natAbs < 10 ^ 10 := by
    have := BitVec.two_mul_toInt_lt (x := n)
    have := BitVec.le_two_mul_toInt (x := n)
    omega
  have hlen := decimal_length (by decide) hlt
  unfold signedDecimal
  split
  · rw [List.length_cons]
    omega
  · omega

theorem commaSeparated_cons (x : List UInt8) (xs : List (List UInt8)) :
    commaSeparated (x :: xs) = x ++ xs.flatMap (List.cons 44) := by
  unfold commaSeparated
  dsimp only
  induction xs generalizing x with
  | nil => simp
  | cons y xs ih => simp [ih]

theorem commaSeparated_concat (xs : List (List UInt8)) (y : List UInt8) :
    commaSeparated (xs ++ [y]) = commaSeparated xs ++ (if xs = [] then y else 44 :: y) := by
  cases xs with
  | nil => rfl
  | cons x xs => simp [commaSeparated]

/-! ## Reading -/

/-- `isspace`. -/
def isSpace (c : UInt8) : Bool := c == 32 || (9 ≤ c && c ≤ 13)

def isDigit (c : UInt8) : Bool := 48 ≤ c && c ≤ 57

def digitsValue (cs : List UInt8) : Nat := cs.foldl (fun v c => 10 * v + (c.toNat - 48)) 0

/-- What `strtol` and `strtoul` find: whether there is a minus, the digits' value, and the
    text after them. Without a digit they find nothing. -/
def scanNumber (text : List UInt8) : Option (Bool × Nat × List UInt8) :=
  let text := text.dropWhile isSpace
  let minus := text.head? == some 45
  let digits := if minus || text.head? == some 43 then text.tail else text
  if digits.takeWhile isDigit = [] then none
  else some (minus, digitsValue (digits.takeWhile isDigit), digits.dropWhile isDigit)

/-- `strtoul` of 32 bits: a value too large is the largest. -/
def strtoul (text : List UInt8) : BitVec 32 :=
  match scanNumber text with
  | none => 0
  | some (minus, v, _) =>
      if 2 ^ 32 ≤ v then BitVec.allOnes 32
      else if minus then -BitVec.ofNat 32 v else BitVec.ofNat 32 v

/-- `strtol` of 32 bits, and nothing where it finds no digit. -/
def strtol (text : List UInt8) : Option Int :=
  (scanNumber text).map fun (minus, v, _) =>
    if minus then max (-(v : Int)) (-(2 ^ 31)) else min (v : Int) (2 ^ 31 - 1)

theorem range_of_mem_toDigits {n : Nat} {c : Char} (hc : c ∈ Nat.toDigits 10 n) :
    48 ≤ c.toNat ∧ c.toNat ≤ 57 := by
  have hdig := Nat.isDigit_of_mem_toDigits (by decide) (by decide) hc
  simp only [Char.isDigit, Bool.and_eq_true, decide_eq_true_eq] at hdig
  exact hdig

theorem digit_of_mem_decimal {n : Nat} {c : UInt8} (hc : c ∈ decimal n) : isDigit c = true := by
  obtain ⟨d, hd, rfl⟩ := List.mem_map.mp hc
  obtain ⟨hlo, hhi⟩ := range_of_mem_toDigits hd
  have hnat : (UInt8.ofNat d.toNat).toNat = d.toNat := by
    simp [Nat.mod_eq_of_lt (show d.toNat < 256 by omega)]
  simp [isDigit, UInt8.le_iff_toNat_le, hnat, hlo, hhi]

theorem decimal_ne_nil {n : Nat} : decimal n ≠ [] := by
  simp [decimal, Nat.toDigits_ne_nil]

theorem digitsValue_decimal (n : Nat) : digitsValue (decimal n) = n := by
  have hstep : ∀ cs : List Char, (∀ c ∈ cs, c.toNat < 256) → ∀ v,
      (cs.map fun c => UInt8.ofNat c.toNat).foldl (fun v c => 10 * v + (c.toNat - 48)) v
        = Nat.ofDigitChars 10 cs v := by
    intro cs hcs
    induction cs with
    | nil => simp
    | cons c cs ih =>
      intro v
      have hc : (UInt8.ofNat c.toNat).toNat = c.toNat := by
        simp [Nat.mod_eq_of_lt (hcs c (by simp))]
      rw [List.map_cons, List.foldl_cons, hc, ih fun d hd => hcs d (List.mem_cons_of_mem _ hd)]
      rw [Nat.ofDigitChars_cons]
      rfl
  unfold digitsValue decimal
  rw [hstep _ fun c hc => Nat.lt_of_le_of_lt (range_of_mem_toDigits hc).2 (by decide),
    Nat.ofDigitChars_ten_toDigits]

/-- A digit is neither a blank nor a sign. -/
theorem digit_ne {c : UInt8} (hc : isDigit c = true) : isSpace c = false ∧ c ≠ 45 ∧ c ≠ 43 := by
  simp only [isDigit, Bool.and_eq_true, decide_eq_true_eq, UInt8.le_iff_toNat_le] at hc
  have hlo : 48 ≤ c.toNat := hc.1
  refine ⟨?_, ?_, ?_⟩
  · have hblank : c ≠ 32 := by
      rintro rfl
      exact absurd hlo (by decide)
    have hctl : ¬ c ≤ 13 := by
      rw [UInt8.le_iff_toNat_le]
      exact fun h13 => absurd (Nat.le_trans hlo h13) (by decide)
    simp [isSpace, hblank, hctl]
  · rintro rfl
    exact absurd hlo (by decide)
  · rintro rfl
    exact absurd hlo (by decide)

/-- A number that begins with its first digit: the digits are taken as far as they go. -/
theorem scanNumber_digits {digits rest : List UInt8} (hne : digits ≠ [])
    (hdigits : ∀ c ∈ digits, isDigit c = true) (hrest : rest.head?.any isDigit = false) :
    scanNumber (digits ++ rest) = some (false, digitsValue digits, rest) := by
  obtain ⟨d, ds, rfl⟩ := List.exists_cons_of_ne_nil hne
  obtain ⟨hspace, hminus, hplus⟩ := digit_ne (hdigits d List.mem_cons_self)
  have hstart : (d :: ds ++ rest).dropWhile isSpace = d :: ds ++ rest :=
    List.dropWhile_cons_of_neg (by rw [hspace]; decide)
  have hnotMinus : ((d :: ds ++ rest).head? == some 45) = false := by
    simpa using hminus
  have hnotPlus : ((d :: ds ++ rest).head? == some 43) = false := by
    simpa using hplus
  unfold scanNumber
  simp only [hstart, hnotMinus, hnotPlus, Bool.or_self, Bool.false_eq_true, if_false,
    takeWhile_run hdigits hrest, dropWhile_run hdigits hrest]
  rw [if_neg (List.cons_ne_nil d ds)]

/-- White space in front of a number, or of anything else, is skipped. -/
theorem scanNumber_spaces {spaces text : List UInt8} (hspaces : ∀ c ∈ spaces, isSpace c = true) :
    scanNumber (spaces ++ text) = scanNumber text := by
  unfold scanNumber
  rw [List.dropWhile_append_of_pos hspaces]

theorem scanNumber_minus {digits rest : List UInt8} (hne : digits ≠ [])
    (hdigits : ∀ c ∈ digits, isDigit c = true) (hrest : rest.head?.any isDigit = false) :
    scanNumber (45 :: (digits ++ rest)) = some (true, digitsValue digits, rest) := by
  have hstart : (45 :: (digits ++ rest)).dropWhile isSpace = 45 :: (digits ++ rest) := rfl
  unfold scanNumber
  simp only [hstart, List.head?_cons, BEq.rfl, Bool.true_or, if_true, List.tail_cons,
    takeWhile_run hdigits hrest, dropWhile_run hdigits hrest]
  rw [if_neg hne]

/-- What begins with neither a digit nor a sign is no number. -/
theorem scanNumber_none {c : UInt8} {text : List UInt8} (hspace : isSpace c = false)
    (hminus : c ≠ 45) (hplus : c ≠ 43) (hdigit : isDigit c = false) :
    scanNumber (c :: text) = none := by
  have hstart : (c :: text).dropWhile isSpace = c :: text :=
    List.dropWhile_cons_of_neg (by rw [hspace]; decide)
  have hdigits : (c :: text).takeWhile isDigit = [] :=
    List.takeWhile_cons_of_neg (by rw [hdigit]; decide)
  unfold scanNumber
  simp [hstart, hminus, hplus, hdigits]

/-- What is left behind a number is the end of the text. -/
theorem scanNumber_suffix {text tail : List UInt8} {minus : Bool} {v : Nat}
    (h : scanNumber text = some (minus, v, tail)) : tail <:+ text := by
  have hdigits : ∀ sign : Bool,
      (if sign then (text.dropWhile isSpace).tail else text.dropWhile isSpace) <:+ text := by
    intro sign
    cases sign with
    | true => exact (List.tail_suffix _).trans (List.dropWhile_suffix isSpace)
    | false => exact List.dropWhile_suffix isSpace
  unfold scanNumber at h
  dsimp only at h
  generalize ((text.dropWhile isSpace).head? == some 45 ||
    (text.dropWhile isSpace).head? == some 43) = sign at h
  have hsign := hdigits sign
  generalize (if sign = true then (text.dropWhile isSpace).tail else text.dropWhile isSpace) =
    digits at h hsign
  split at h
  · exact absurd h (by simp)
  · simp only [Option.some.injEq, Prod.mk.injEq] at h
    obtain ⟨-, -, rfl⟩ := h
    exact (List.dropWhile_suffix _).trans hsign

theorem scanNumber_decimal (n : Nat) : scanNumber (decimal n) = some (false, n, []) := by
  have h : scanNumber (decimal n ++ []) = some (false, digitsValue (decimal n), []) :=
    scanNumber_digits decimal_ne_nil (fun c hc => digit_of_mem_decimal hc) rfl
  rw [List.append_nil, digitsValue_decimal] at h
  exact h

/-- `strtoul` of such a number. -/
theorem strtoul_digits {digits rest : List UInt8} (hne : digits ≠ [])
    (hdigits : ∀ c ∈ digits, isDigit c = true) (hrest : rest.head?.any isDigit = false) :
    strtoul (digits ++ rest) =
      if 2 ^ 32 ≤ digitsValue digits then BitVec.allOnes 32
      else BitVec.ofNat 32 (digitsValue digits) := by
  unfold strtoul
  rw [scanNumber_digits hne hdigits hrest]
  rfl

/-- A count read back is the count that was written. -/
theorem strtoul_decimal (n : BitVec 32) : strtoul (decimal n.toNat) = n := by
  have hlt := n.isLt
  unfold strtoul
  rw [scanNumber_decimal]
  dsimp only
  rw [if_neg (by omega), if_neg (by decide), BitVec.ofNat_toNat, BitVec.setWidth_eq]

end Lib
end Wt32Router
