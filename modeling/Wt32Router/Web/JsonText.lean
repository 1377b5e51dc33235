import Wt32Router.Web.JsonGet

/-!
# The text of a flat JSON object

What a sender may write for an object of strings, integers and booleans: white space wherever
JSON has it, and any of the escapes of a string. A string is a list of pieces here, as it is
written, and `meaning` is what it stands for.

The handlers do not parse such a text, and what they take for the value of a key may be
something else in it (`Web/JsonKeys.lean`).
-/

namespace Wt32Router
namespace Web

open Lib (ascii decimal)

/-! ## Strings -/

/-- The escapes of one letter. -/
inductive Escape where
  | quote
  | backslash
  | slash
  | backspace
  | formFeed
  | newline
  | carriageReturn
  | tab
deriving DecidableEq, Repr

/-- The letter behind the backslash. -/
def Escape.letter : Escape → UInt8
  | .quote => 34
  | .backslash => 92
  | .slash => 47
  | .backspace => 98
  | .formFeed => 102
  | .newline => 110
  | .carriageReturn => 114
  | .tab => 116

def Escape.value : Escape → UInt8
  | .quote => 34
  | .backslash => 92
  | .slash => 47
  | .backspace => 8
  | .formFeed => 12
  | .newline => 10
  | .carriageReturn => 13
  | .tab => 9

/-- One character of a string, as it is written. `unicode` has the four digits behind the `u`. -/
inductive Piece where
  | plain (c : UInt8)
  | escape (e : Escape)
  | unicode (digits : List UInt8)
deriving DecidableEq, Repr

def hexValue (c : UInt8) : Option Nat :=
  if 48 ≤ c ∧ c ≤ 57 then some (c.toNat - 48)
  else if 65 ≤ c ∧ c ≤ 70 then some (c.toNat - 55)
  else if 97 ≤ c ∧ c ≤ 102 then some (c.toNat - 87)
  else none

def Piece.Valid : Piece → Prop
  | .plain c => 32 ≤ c ∧ c ≠ 34 ∧ c ≠ 92
  | .escape _ => True
  | .unicode digits => digits.length = 4 ∧ ∀ c ∈ digits, hexValue c ≠ none

instance : DecidablePred Piece.Valid
  | .plain c => inferInstanceAs (Decidable (32 ≤ c ∧ c ≠ 34 ∧ c ≠ 92))
  | .escape _ => isTrue trivial
  | .unicode digits =>
      decidable_of_iff (digits.length = 4 ∧ digits.all fun c => hexValue c ≠ none)
        (and_congr_right' (by simp only [List.all_eq_true, decide_eq_true_eq]))

def Piece.text : Piece → List UInt8
  | .plain c => [c]
  | .escape e => [92, e.letter]
  | .unicode digits => 92 :: 117 :: digits

/-- The code unit of four digits. -/
def codeUnit (digits : List UInt8) : Nat :=
  digits.foldl (fun v c => 16 * v + (hexValue c).getD 0) 0

/-- A code unit by itself. One of a pair stands for nothing alone. -/
def unitChar (n : Nat) : Char := if 0xD800 ≤ n ∧ n < 0xE000 then '\uFFFD' else Char.ofNat n

def Piece.bytes : Piece → List UInt8
  | .plain c => [c]
  | .escape e => [e.value]
  | .unicode digits => String.utf8EncodeChar (unitChar (codeUnit digits))

/-- The character of two code units that belong together. -/
def surrogates : Piece → Piece → Option Char
  | .unicode hi, .unicode lo =>
      if (0xD800 ≤ codeUnit hi ∧ codeUnit hi < 0xDC00) ∧
          0xDC00 ≤ codeUnit lo ∧ codeUnit lo < 0xE000 then
        some (Char.ofNat (0x10000 + (codeUnit hi - 0xD800) * 0x400 + (codeUnit lo - 0xDC00)))
      else none
  | _, _ => none

/-- The string that is written so. -/
def meaning : List Piece → List UInt8
  | [] => []
  | [p] => p.bytes
  | p :: q :: ps =>
      match surrogates p q with
      | some c => String.utf8EncodeChar c ++ meaning ps
      | none => p.bytes ++ meaning (q :: ps)

def stringText (ps : List Piece) : List UInt8 := ps.flatMap Piece.text

/-! ## Objects -/

inductive Value where
  | str (ps : List Piece)
  | int (minus : Bool) (n : Nat)
  | bool (b : Bool)
deriving DecidableEq, Repr

def Value.text : Value → List UInt8
  | .str ps => 34 :: (stringText ps ++ [34])
  | .int minus n => (if minus then [45] else []) ++ decimal n
  | .bool b => ascii (if b then "true" else "false")

def Value.string? : Value → Option (List UInt8)
  | .str ps => some (meaning ps)
  | _ => none

def Value.int? : Value → Option Int
  | .int minus n => some (if minus then -(n : Int) else n)
  | _ => none

/-- The pieces of a string value. -/
def Value.pieces : Value → List Piece
  | .str ps => ps
  | _ => []

/-- JSON's white space. -/
def isWs (c : UInt8) : Bool := c == 32 || c == 9 || c == 10 || c == 13

/-- A member, with the white space around its parts. -/
structure Member where
  before : List UInt8 := []
  name : List Piece
  afterName : List UInt8 := []
  beforeValue : List UInt8 := []
  value : Value
  after : List UInt8 := []
deriving DecidableEq, Repr

structure Member.Valid (m : Member) : Prop where
  before : ∀ c ∈ m.before, isWs c = true
  afterName : ∀ c ∈ m.afterName, isWs c = true
  beforeValue : ∀ c ∈ m.beforeValue, isWs c = true
  after : ∀ c ∈ m.after, isWs c = true
  name : ∀ p ∈ m.name, p.Valid
  value : ∀ p ∈ m.value.pieces, p.Valid

instance : DecidablePred Member.Valid := fun m =>
  decidable_of_iff
    ((m.before.all isWs ∧ m.afterName.all isWs) ∧ (m.beforeValue.all isWs ∧ m.after.all isWs) ∧
      (∀ p ∈ m.name, p.Valid) ∧ ∀ p ∈ m.value.pieces, p.Valid)
    (by
      simp only [List.all_eq_true]
      exact ⟨fun h => ⟨h.1.1, h.1.2, h.2.1.1, h.2.1.2, h.2.2.1, h.2.2.2⟩,
        fun h => ⟨⟨h.before, h.afterName⟩, ⟨h.beforeValue, h.after⟩, h.name, h.value⟩⟩)

/-- A member up to its colon. -/
def Member.front (m : Member) : List UInt8 :=
  m.before ++ (34 :: (stringText m.name ++ (34 :: m.afterName)))

/-- A member behind its colon. -/
def Member.back (m : Member) : List UInt8 := m.beforeValue ++ (m.value.text ++ m.after)

def Member.text (m : Member) : List UInt8 := m.front ++ 58 :: m.back

/-- An object. `inner` is the white space of one without members. -/
structure FlatObject where
  lead : List UInt8 := []
  inner : List UInt8 := []
  members : List Member
  trail : List UInt8 := []
  valid : ∀ m ∈ members, m.Valid
  white : ∀ c ∈ lead ++ inner ++ trail, isWs c = true
  once : (members.map fun m => meaning m.name).Nodup

/-- The text in front of a member, behind the members `ms`. -/
def FlatObject.upTo (o : FlatObject) (ms : List Member) : List UInt8 :=
  o.lead ++ (123 :: ms.flatMap fun m => m.text ++ [44])

/-- The text behind a member, in front of the members `ms`. -/
def FlatObject.behind (o : FlatObject) (ms : List Member) : List UInt8 :=
  (ms.flatMap fun m => 44 :: m.text) ++ 125 :: o.trail

def FlatObject.text (o : FlatObject) : List UInt8 :=
  match o.members with
  | [] => o.lead ++ 123 :: (o.inner ++ 125 :: o.trail)
  | m :: ms => o.lead ++ 123 :: (m.text ++ o.behind ms)

/-- The member of a name. -/
def FlatObject.member? (o : FlatObject) (key : String) : Option Member :=
  o.members.find? fun m => meaning m.name == ascii key

section

variable {o : FlatObject} {m : Member} {ms ms' : List Member} {ps : List Piece} {p : Piece}
  {rest : List UInt8}

theorem commas_shift (ms : List Member) (rest : List UInt8) :
    (ms.flatMap fun m => 44 :: m.text) ++ 44 :: rest =
      44 :: ((ms.flatMap fun m => m.text ++ [44]) ++ rest) := by
  induction ms with
  | nil => rfl
  | cons m ms ih => simp [ih]

/-- The text around a member. -/
theorem FlatObject.text_eq (h : o.members = ms ++ m :: ms') :
    o.text = o.upTo ms ++ (m.text ++ o.behind ms') := by
  unfold FlatObject.text FlatObject.upTo FlatObject.behind
  rw [h]
  cases ms with
  | nil => simp
  | cons m₀ ms => simp [commas_shift]

/-! ## What the scanner keeps of a string -/

/-- It drops the backslash, and takes what follows as it is. -/
def Piece.kept : Piece → List UInt8
  | .plain c => [c]
  | .escape e => [e.letter]
  | .unicode digits => 117 :: digits

theorem hexValue_plain {c : UInt8} (h : hexValue c ≠ none) : c ≠ 34 ∧ c ≠ 92 := by
  constructor <;> (rintro rfl; exact h (by decide))

theorem decoded_plain {c : UInt8} (h₁ : c ≠ 34) (h₂ : c ≠ 92) (hrest : rest ≠ []) :
    decoded (c :: rest) = c :: decoded rest := by
  obtain ⟨d, t, rfl⟩ := List.exists_cons_of_ne_nil hrest
  rw [decoded, if_neg h₁, if_neg h₂]

theorem decoded_plains {cs : List UInt8} (h : ∀ c ∈ cs, c ≠ 34 ∧ c ≠ 92) (hrest : rest ≠ []) :
    decoded (cs ++ rest) = cs ++ decoded rest := by
  induction cs with
  | nil => rfl
  | cons c cs ih =>
    obtain ⟨h₁, h₂⟩ := h c List.mem_cons_self
    rw [List.cons_append, decoded_plain h₁ h₂ (by simp [hrest]),
      ih fun d hd => h d (List.mem_cons_of_mem _ hd)]
    rfl

theorem decoded_escape (d : UInt8) (rest : List UInt8) :
    decoded (92 :: d :: rest) = d :: decoded rest := by
  rw [decoded, if_neg (by decide), if_pos rfl]

theorem decoded_piece (hp : p.Valid) (hrest : rest ≠ []) :
    decoded (p.text ++ rest) = p.kept ++ decoded rest := by
  cases p with
  | plain c => exact decoded_plain hp.2.1 hp.2.2 hrest
  | escape e => exact decoded_escape e.letter rest
  | unicode digits =>
    have hdigits := decoded_plains (fun c hc => hexValue_plain (hp.2 c hc)) hrest
    exact (decoded_escape 117 (digits ++ rest)).trans (congrArg (List.cons 117) hdigits)

/-- What is read of a string in a text. -/
theorem decoded_stringText (hps : ∀ p ∈ ps, p.Valid) (rest : List UInt8) :
    decoded (stringText ps ++ 34 :: rest) = ps.flatMap Piece.kept := by
  induction ps with
  | nil => cases rest <;> simp [stringText, decoded]
  | cons p ps ih =>
    have hhead := decoded_piece (hps p List.mem_cons_self)
      (show stringText ps ++ 34 :: rest ≠ [] by simp)
    rw [ih fun q hq => hps q (List.mem_cons_of_mem _ hq)] at hhead
    simpa [stringText] using hhead

theorem Piece.kept_length (p : Piece) : p.kept.length ≤ p.text.length := by
  cases p <;> simp [Piece.kept, Piece.text]

theorem kept_length (ps : List Piece) :
    (ps.flatMap Piece.kept).length ≤ (stringText ps).length := by
  induction ps with
  | nil => exact Nat.le_refl _
  | cons p ps ih =>
    have := p.kept_length
    simp only [stringText, List.flatMap_cons, List.length_append] at ih ⊢
    omega

/-! ## Where that is the string -/

/-- A character that stands for itself, or an escape whose letter does. -/
def Piece.Simple : Piece → Prop
  | .plain _ => True
  | .escape e => e.letter = e.value
  | .unicode _ => False

instance : DecidablePred Piece.Simple
  | .plain _ => isTrue trivial
  | .escape e => inferInstanceAs (Decidable (e.letter = e.value))
  | .unicode _ => isFalse id

theorem Piece.kept_of_simple (h : p.Simple) : p.kept = p.bytes := by
  cases p with
  | plain c => rfl
  | escape e => exact congrArg (fun c => [c]) h
  | unicode digits => exact absurd h id

theorem surrogates_of_simple (h : p.Simple) (q : Piece) : surrogates p q = none := by
  cases p with
  | plain c => rfl
  | escape e => rfl
  | unicode digits => exact absurd h id

/-- A piece that is no code unit stands by itself. -/
theorem meaning_cons (h : ∀ q, surrogates p q = none) :
    meaning (p :: ps) = p.bytes ++ meaning ps := by
  cases ps with
  | nil => simp [meaning]
  | cons q ps => rw [meaning, h q]

theorem unicode_shorter {digits : List UInt8} (h : (Piece.unicode digits).Valid) (c : Char) :
    (String.utf8EncodeChar c).length < (Piece.unicode digits).kept.length := by
  have hkept : (Piece.unicode digits).kept.length = 5 := congrArg Nat.succ h.1
  rw [String.length_utf8EncodeChar, hkept]
  exact Nat.lt_succ_of_le c.utf8Size_le_four

theorem Piece.bytes_length (h : p.Valid) : p.bytes.length ≤ p.kept.length := by
  cases p with
  | plain c => exact Nat.le_refl _
  | escape e => exact Nat.le_refl _
  | unicode digits => exact Nat.le_of_lt (unicode_shorter h _)

theorem surrogates_shorter {q : Piece} {c : Char} (hp : p.Valid) (h : surrogates p q = some c) :
    (String.utf8EncodeChar c).length < p.kept.length + q.kept.length := by
  cases p with
  | plain d => exact absurd h (by simp [surrogates])
  | escape e => exact absurd h (by simp [surrogates])
  | unicode digits => exact Nat.lt_of_lt_of_le (unicode_shorter hp c) (Nat.le_add_right _ _)

theorem meaning_length (hps : ∀ p ∈ ps, p.Valid) :
    (meaning ps).length ≤ (ps.flatMap Piece.kept).length := by
  induction ps using meaning.induct with
  | case1 => exact Nat.le_refl _
  | case2 p => simpa [meaning] using Piece.bytes_length (hps p List.mem_cons_self)
  | case3 p q ps c hc ih =>
    have hpair := surrogates_shorter (hps p (by simp)) hc
    have htail := ih fun r hr => hps r (by simp [hr])
    rw [meaning, hc]
    simp only [List.flatMap_cons, List.length_append]
    omega
  | case4 p q ps hc ih =>
    have hhead := Piece.bytes_length (hps p (by simp))
    have htail := ih fun r hr => hps r (List.mem_cons_of_mem _ hr)
    rw [meaning, hc, List.flatMap_cons, List.length_append, List.length_append]
    exact Nat.add_le_add hhead htail

/-- What is kept of a piece is longer than its meaning, or different, unless it is simple. -/
theorem Piece.simple_of_append {x y : List UInt8} (hp : p.Valid) (hlen : x.length ≤ y.length)
    (h : p.bytes ++ x = p.kept ++ y) : p.Simple ∧ x = y := by
  cases p with
  | plain c => exact ⟨trivial, (List.cons.inj h).2⟩
  | escape e => exact ⟨(List.cons.inj h).1.symm, (List.cons.inj h).2⟩
  | unicode digits =>
    have hshort := unicode_shorter hp (unitChar (codeUnit digits))
    have hsame := congrArg List.length h
    rw [List.length_append, List.length_append, Piece.bytes] at hsame
    omega

/-- **The string comes through exactly where it is written with simple pieces.** -/
theorem meaning_eq_kept_iff (hps : ∀ p ∈ ps, p.Valid) :
    meaning ps = ps.flatMap Piece.kept ↔ ∀ p ∈ ps, p.Simple := by
  constructor
  · intro h
    induction ps using meaning.induct with
    | case1 => exact fun p hp => absurd hp List.not_mem_nil
    | case2 p =>
      have hsimple := Piece.simple_of_append (x := []) (y := []) (hps p (by simp)) (Nat.le_refl _)
        (by simpa [meaning] using h)
      exact fun q hq => List.mem_singleton.mp hq ▸ hsimple.1
    | case3 p q ps c hc ih =>
      have hpair := surrogates_shorter (hps p (by simp)) hc
      have htail := meaning_length fun r hr => hps r (List.mem_cons_of_mem p
        (List.mem_cons_of_mem q hr))
      have hsame := congrArg List.length h
      rw [meaning, hc] at hsame
      simp only [List.flatMap_cons, List.length_append] at hsame
      omega
    | case4 p q ps hc ih =>
      have hrest : ∀ r ∈ q :: ps, r.Valid := fun r hr => hps r (List.mem_cons_of_mem _ hr)
      rw [meaning, hc, List.flatMap_cons] at h
      obtain ⟨hp, htail⟩ := Piece.simple_of_append (hps p (by simp)) (meaning_length hrest) h
      exact List.forall_mem_cons.mpr ⟨hp, ih hrest htail⟩
  · intro h
    clear hps
    induction ps with
    | nil => rfl
    | cons p ps ih =>
      have hp := h p List.mem_cons_self
      rw [meaning_cons (surrogates_of_simple hp), List.flatMap_cons, p.kept_of_simple hp,
        ih fun q hq => h q (List.mem_cons_of_mem _ hq)]

end

end Web
end Wt32Router
