import Wt32Router.Web.JsonText
import Wt32Router.Web.Resp

/-!
# Reading the value of a key

`json_get_string` and `json_get_int` of `main/web_server.c` against the object that a sender
means. They look for the key in quotes in the whole text, and read behind the next colon, so
what they read belongs to the key only where that colon does (`Placed`). There the value is
right exactly where it is written in the way they read (`Readable`).

A string that `json_append_escaped` writes is read back by the same rule.
-/

namespace Wt32Router
namespace Web

open Lib (ascii decimal isDigit OccursAt scanNumber strchr strstr strtol)

/-- What the object says of a key: its string, or none, and its integer, or none. -/
def FlatObject.string? (o : FlatObject) (key : String) : Option (List UInt8) :=
  (o.member? key).bind fun m => m.value.string?

def FlatObject.int? (o : FlatObject) (key : String) : Option Int :=
  (o.member? key).bind fun m => m.value.int?

/-- The two functions answer what the object says. -/
def Keyed (o : FlatObject) (key : String) (outLen : Nat) : Prop :=
  jsonGetString o.text key outLen = o.string? key ∧ jsonGetInt o.text key = o.int? key

/-- The `i`-th member is written under the key itself, and wherever the key in quotes stands in
    the text up to there, no colon comes before the colon of this member. -/
def PlacedAt (o : FlatObject) (key : String) (i : Fin o.members.length) : Prop :=
  stringText o.members[i].name = ascii key ∧
    ∀ j ≤ (o.upTo (o.members.take i) ++ o.members[i].before).length,
      OccursAt (jsonPattern key) o.text j →
        58 ∉ (o.upTo (o.members.take i) ++ o.members[i].front).drop (j + (jsonPattern key).length)

instance (o : FlatObject) (key : String) (i : Fin o.members.length) :
    Decidable (PlacedAt o key i) := inferInstanceAs (Decidable (_ ∧ _))

/-- The first colon behind the first place of the key in quotes is the colon of the key; and of
    a key that the object does not have, no colon comes behind any such place. -/
def Placed (o : FlatObject) (key : String) : Prop :=
  (∀ i : Fin o.members.length, meaning o.members[i].name = ascii key → PlacedAt o key i) ∧
    ((∀ m ∈ o.members, meaning m.name ≠ ascii key) →
      ∀ j ≤ o.text.length, OccursAt (jsonPattern key) o.text j →
        58 ∉ o.text.drop (j + (jsonPattern key).length))

instance (o : FlatObject) (key : String) : Decidable (Placed o key) :=
  inferInstanceAs (Decidable (_ ∧ _))

/-- What the value of a member has to be like: a string with blanks before it, and only simple
    pieces in it; an integer of 32 bits; or neither of the two. -/
def Member.Readable (m : Member) : Prop :=
  match m.value with
  | .str ps => (∀ c ∈ m.beforeValue, isBlank c = true) ∧ ∀ p ∈ ps, p.Simple
  | .int minus n => if minus then n ≤ 2 ^ 31 else n < 2 ^ 31
  | .bool _ => True

def Readable (o : FlatObject) (key : String) : Prop := ∀ m, o.member? key = some m → m.Readable

/-- The buffer takes the value of the key. -/
def Takes (o : FlatObject) (key : String) (outLen : Nat) : Prop :=
  ∀ v, o.string? key = some v → v.length < outLen

/-- The buffer would take it as it is written, escapes and all. -/
def Roomy (o : FlatObject) (key : String) (outLen : Nat) : Prop :=
  ∀ m, o.member? key = some m → (stringText m.value.pieces).length < outLen

section

variable {o : FlatObject} {m : Member} {key : String} {outLen : Nat} {ps : List Piece}
  {json rest spaces : List UInt8}

/-! ## The place -/

theorem jsonPattern_prefix (key : String) (rest : List UInt8) :
    (jsonPattern key).isPrefixOf (34 :: (ascii key ++ 34 :: rest)) = true := by
  have hquoted : 34 :: (ascii key ++ 34 :: rest) =
      (ascii "\"" ++ ascii key ++ ascii "\"") ++ rest := by
    simp [ascii]
  rw [List.isPrefixOf_iff_prefix, hquoted]
  exact (List.take_prefix _ _).trans (List.prefix_append _ _)

theorem jsonPattern_length (key : String) :
    (jsonPattern key).length ≤ (ascii key).length + 2 := by
  unfold jsonPattern
  rw [List.length_take]
  have hquotes : (ascii "\"" ++ ascii key ++ ascii "\"").length = (ascii key).length + 2 := by
    simp [ascii]
  omega

/-- The scanner comes to the value of the member. -/
theorem jsonFind_placed {i : Fin o.members.length} (h : PlacedAt o key i) :
    jsonFind o.text key =
      some (o.members[i].back ++ o.behind (o.members.drop (i + 1))) := by
  obtain ⟨hname, hcolon⟩ := h
  have hsplit : o.members = o.members.take i ++ o.members[i] :: o.members.drop (i + 1) := by
    have hparts := List.take_append_drop i.val o.members
    rw [List.drop_eq_getElem_cons i.isLt] at hparts
    exact hparts.symm
  have htext := o.text_eq hsplit
  generalize o.upTo (o.members.take i) = pre at hcolon htext
  generalize o.members[i] = m at hname hcolon htext ⊢
  generalize o.behind (o.members.drop (i + 1)) = rest at htext ⊢
  have hwhole : o.text = (pre ++ m.front) ++ 58 :: (m.back ++ rest) := by
    rw [htext, Member.text]
    simp
  have hfront : pre ++ m.front =
      (pre ++ m.before) ++ (34 :: (ascii key ++ (34 :: m.afterName))) := by
    rw [Member.front, hname]
    simp
  have hlen : (pre ++ m.front).length =
      (pre ++ m.before).length + (ascii key).length + 2 + m.afterName.length := by
    rw [hfront]
    simp only [List.length_append, List.length_cons]
    omega
  have hocc : OccursAt (jsonPattern key) o.text (pre ++ m.before).length := by
    unfold OccursAt
    rw [hwhole, hfront, List.append_assoc, List.drop_left, List.cons_append, List.append_assoc,
      List.cons_append]
    exact jsonPattern_prefix key _
  have hin : (pre ++ m.before).length ≤ o.text.length := by
    have htotal := congrArg List.length hwhole
    rw [List.length_append, List.length_cons] at htotal
    omega
  obtain ⟨j, hj, hoccj, hfound⟩ := Lib.strstr_of_occursAt hocc hin
  have hpattern := jsonPattern_length key
  have hrest : (o.text.drop j).drop (jsonPattern key).length =
      (pre ++ m.front).drop (j + (jsonPattern key).length) ++ 58 :: (m.back ++ rest) := by
    rw [List.drop_drop, hwhole, List.drop_append_of_le_length (by omega)]
  unfold jsonFind
  rw [hfound, Option.bind_some, hrest, Lib.strchr_append (hcolon j hj hoccj)]
  rfl

/-- It comes to nothing, where there is nothing. -/
theorem jsonFind_none
    (h : ∀ j ≤ o.text.length, OccursAt (jsonPattern key) o.text j →
      58 ∉ o.text.drop (j + (jsonPattern key).length)) : jsonFind o.text key = none := by
  unfold jsonFind
  cases hfound : strstr (jsonPattern key) o.text with
  | none => rfl
  | some q =>
    obtain ⟨j, hj, hocc, rfl⟩ := Lib.strstr_some hfound
    rw [Option.bind_some, List.drop_drop, Lib.strchr_none (h j hj hocc)]
    rfl

/-! ## The value -/

theorem isSpace_of_isWs {c : UInt8} (h : isWs c = true) : Lib.isSpace c = true := by
  simp only [isWs, Bool.or_eq_true, beq_iff_eq] at h
  obtain ((rfl | rfl) | rfl) | rfl := h <;> decide

/-- Behind white space that is not all blanks, and before what is no string, no quote is found. -/
theorem head_not_quote {c : UInt8} (hspaces : ∀ d ∈ spaces, isWs d = true)
    (hblank : isBlank c = false) (hquote : c = 34 → ∃ d ∈ spaces, isBlank d = false) :
    ((spaces ++ c :: rest).dropWhile isBlank).head? ≠ some 34 := by
  induction spaces with
  | nil =>
    rw [List.nil_append, List.dropWhile_cons_of_neg (by rw [hblank]; decide), List.head?_cons]
    intro hc
    obtain ⟨d, hd, -⟩ := hquote (Option.some.inj hc)
    exact absurd hd List.not_mem_nil
  | cons d spaces ih =>
    have hd := hspaces d List.mem_cons_self
    rw [List.cons_append]
    by_cases hb : isBlank d = true
    · rw [List.dropWhile_cons_of_pos hb]
      refine ih (fun e he => hspaces e (List.mem_cons_of_mem _ he)) fun hc => ?_
      obtain ⟨e, he, hnot⟩ := hquote hc
      obtain rfl | he := List.mem_cons.mp he
      · exact absurd (hb.symm.trans hnot) (by decide)
      · exact ⟨e, he, hnot⟩
    · rw [List.dropWhile_cons_of_neg hb, List.head?_cons]
      rintro ⟨rfl⟩
      exact absurd hd (by decide)

/-- Of a string with blanks before it, what the scanner keeps of it is read. -/
theorem jsonGetString_str (hps : ∀ p ∈ ps, p.Valid) (hspaces : ∀ c ∈ spaces, isBlank c = true)
    (hfind : jsonFind json key = some (spaces ++ ((34 :: (stringText ps ++ [34])) ++ rest))) :
    jsonGetString json key outLen = some ((ps.flatMap Piece.kept).take (outLen - 1)) := by
  have hskip : (spaces ++ ((34 :: (stringText ps ++ [34])) ++ rest)).dropWhile isBlank =
      34 :: (stringText ps ++ 34 :: rest) := by
    rw [Lib.dropWhile_run hspaces (by rfl)]
    simp
  unfold jsonGetString jsonString
  rw [hfind, Option.bind_some]
  dsimp only
  rw [hskip, List.head?_cons, if_pos rfl, List.tail_cons, Option.map_some, decodeLoop_eq_take,
    decoded_stringText hps]

/-- Of anything else nothing is. -/
theorem jsonGetString_none {c : UInt8} (hspaces : ∀ d ∈ spaces, isWs d = true)
    (hblank : isBlank c = false) (hquote : c = 34 → ∃ d ∈ spaces, isBlank d = false)
    (hfind : jsonFind json key = some (spaces ++ c :: rest)) :
    jsonGetString json key outLen = none := by
  unfold jsonGetString jsonString
  rw [hfind, Option.bind_some]
  dsimp only
  rw [if_neg (head_not_quote hspaces hblank hquote)]
  rfl

/-- The scan of an integer: too large a one is cut to the largest. -/
theorem strtol_int {minus : Bool} {n : Nat} (hspaces : ∀ c ∈ spaces, isWs c = true)
    (hrest : rest.head?.any isDigit = false) :
    strtol (spaces ++ ((Value.int minus n).text ++ rest)) =
      some (if minus then max (-(n : Int)) (-(2 ^ 31)) else min (n : Int) (2 ^ 31 - 1)) := by
  have hdigits : ∀ c ∈ decimal n, isDigit c = true := fun c hc => Lib.digit_of_mem_decimal hc
  unfold strtol
  rw [Lib.scanNumber_spaces fun c hc => isSpace_of_isWs (hspaces c hc)]
  cases minus with
  | true =>
    have hscan := Lib.scanNumber_minus Lib.decimal_ne_nil hdigits hrest
    rw [Lib.digitsValue_decimal] at hscan
    exact congrArg (Option.map _) hscan
  | false =>
    have hscan := Lib.scanNumber_digits Lib.decimal_ne_nil hdigits hrest
    rw [Lib.digitsValue_decimal] at hscan
    exact congrArg (Option.map _) hscan

theorem strtol_none {c : UInt8} (hspaces : ∀ d ∈ spaces, isWs d = true)
    (hc : c = 34 ∨ c = 116 ∨ c = 102) : strtol (spaces ++ c :: rest) = none := by
  have hscan : scanNumber (c :: rest) = none := by
    obtain rfl | rfl | rfl := hc <;>
      exact Lib.scanNumber_none (by decide) (by decide) (by decide) (by decide)
  unfold strtol
  rw [Lib.scanNumber_spaces fun c hc => isSpace_of_isWs (hspaces c hc), hscan]
  rfl

/-- What stands behind a value does not go on with its digits. -/
theorem after_not_digit (hm : m.Valid) (ms : List Member) :
    (m.after ++ o.behind ms).head?.any isDigit = false := by
  cases hafter : m.after with
  | nil => cases ms <;> rfl
  | cons c after =>
    have hc := hm.after c (by rw [hafter]; exact List.mem_cons_self)
    simp only [isWs, Bool.or_eq_true, beq_iff_eq] at hc
    obtain ((rfl | rfl) | rfl) | rfl := hc <;> rfl

/-- When the string of a member comes through. -/
theorem jsonGetString_str_iff (hm : m.Valid) (hvalue : m.value = .str ps)
    (hfind : jsonFind o.text key = some (m.beforeValue ++ (m.value.text ++ rest))) :
    jsonGetString o.text key outLen = some (meaning ps) ↔
      (∀ c ∈ m.beforeValue, isBlank c = true) ∧
        (ps.flatMap Piece.kept).take (outLen - 1) = meaning ps := by
  have hps : ∀ p ∈ ps, p.Valid := fun p hp => hm.value p (by rw [hvalue]; exact hp)
  rw [hvalue] at hfind
  by_cases hblank : ∀ c ∈ m.beforeValue, isBlank c = true
  · rw [jsonGetString_str hps hblank hfind, Option.some_inj]
    exact (and_iff_right hblank).symm
  · have hsome : ∃ d ∈ m.beforeValue, isBlank d = false := by
      simpa using hblank
    rw [jsonGetString_none hm.beforeValue (by rfl) (fun _ => hsome) hfind]
    exact iff_of_false (by simp) fun h => hblank h.1

/-- The first byte of a value that is no string. -/
theorem Value.text_head {v : Value} (h : v.string? = none) :
    ∃ c t, v.text = c :: t ∧ isBlank c = false ∧ c ≠ 34 := by
  cases v with
  | str ps => exact absurd h (by simp [Value.string?])
  | int minus n =>
    cases minus with
    | true => exact ⟨45, _, rfl, rfl, by decide⟩
    | false =>
      obtain ⟨d, ds, hcons⟩ := List.exists_cons_of_ne_nil (Lib.decimal_ne_nil (n := n))
      have hd : isDigit d = true :=
        Lib.digit_of_mem_decimal (by rw [hcons]; exact List.mem_cons_self)
      refine ⟨d, ds, hcons, isBlank_of_digit hd, ?_⟩
      rintro rfl
      exact absurd hd (by decide)
  | bool b => cases b <;> exact ⟨_, _, rfl, rfl, by decide⟩

/-- A member whose place is found: the two values, and when they are the member's. -/
theorem keyed_at (outLen : Nat) {i : Fin o.members.length} (hplace : PlacedAt o key i)
    (hi : o.members[i] = m) :
    (jsonGetString o.text key outLen = m.value.string? ∧ jsonGetInt o.text key = m.value.int?) ↔
      match m.value with
      | .str ps => (∀ c ∈ m.beforeValue, isBlank c = true) ∧
          (ps.flatMap Piece.kept).take (outLen - 1) = meaning ps
      | .int minus n => if minus then n ≤ 2 ^ 31 else n < 2 ^ 31
      | .bool _ => True := by
  have hfind := jsonFind_placed hplace
  have hm : m.Valid := hi ▸ o.valid _ (List.getElem_mem i.isLt)
  have hdigit := after_not_digit hm (o := o) (o.members.drop (i + 1))
  rw [hi] at hfind
  generalize o.behind (o.members.drop (i + 1)) = rest at hfind hdigit
  rw [Member.back, List.append_assoc, List.append_assoc] at hfind
  have hint : jsonGetInt o.text key =
      strtol (m.beforeValue ++ (m.value.text ++ (m.after ++ rest))) := by
    unfold jsonGetInt
    rw [hfind, Option.bind_some]
  have hother : m.value.string? = none → jsonGetString o.text key outLen = none := by
    intro hnone
    obtain ⟨c, t, htext, hblank, hquote⟩ := Value.text_head hnone
    rw [htext] at hfind
    exact jsonGetString_none hm.beforeValue hblank (fun h => absurd h hquote) hfind
  cases hvalue : m.value with
  | str ps =>
    rw [hvalue] at hint
    have hnone : jsonGetInt o.text key = none := hint.trans (strtol_none hm.beforeValue (.inl rfl))
    rw [hnone]
    exact (and_iff_left rfl).trans (jsonGetString_str_iff hm hvalue hfind)
  | int minus n =>
    rw [hvalue] at hint hother
    rw [hother rfl, hint, strtol_int hm.beforeValue hdigit]
    refine (and_iff_right rfl).trans ?_
    simp only [Value.int?, Option.some_inj]
    cases minus with
    | true =>
      simp only [↓reduceIte]
      omega
    | false =>
      simp only [Bool.false_eq_true, ↓reduceIte]
      omega
  | bool b =>
    rw [hvalue] at hint hother
    have hnone : jsonGetInt o.text key = none := by
      rw [hint]
      cases b
      · exact strtol_none hm.beforeValue (.inr (.inr rfl))
      · exact strtol_none hm.beforeValue (.inr (.inl rfl))
    rw [hother rfl, hnone]
    exact iff_of_true ⟨rfl, rfl⟩ trivial

theorem member?_some (h : o.member? key = some m) :
    ∃ i : Fin o.members.length, o.members[i] = m ∧ meaning m.name = ascii key := by
  obtain ⟨i, hi, heq⟩ := List.getElem_of_mem (List.mem_of_find?_eq_some h)
  exact ⟨⟨i, hi⟩, heq, by simpa using List.find?_some h⟩

/-- A key that the object does not have. -/
theorem keyed_of_none (hplace : Placed o key) (h : o.member? key = none) : Keyed o key outLen := by
  have hnone : jsonFind o.text key = none := by
    refine jsonFind_none (hplace.2 fun m hm => ?_)
    simpa using List.find?_eq_none.mp h m hm
  unfold Keyed FlatObject.string? FlatObject.int? jsonGetString jsonString jsonGetInt
  rw [h, hnone]
  exact ⟨rfl, rfl⟩

/-- Where the scanner comes to the colon of the key, it answers what the object says if the value
    is written as it reads it, and only then, as far as the buffer does not cut it. -/
theorem jsonGet_keyed (hplace : Placed o key) :
    (Readable o key → Takes o key outLen → Keyed o key outLen) ∧
      (Roomy o key outLen → Keyed o key outLen → Readable o key) := by
  cases hmember : o.member? key with
  | none =>
    exact ⟨fun _ _ => keyed_of_none hplace hmember,
      fun _ _ m hm => absurd (hmember.symm.trans hm) (by simp)⟩
  | some m =>
    obtain ⟨i, hi, hname⟩ := member?_some hmember
    have hat := keyed_at outLen (hplace.1 i (by rw [hi]; exact hname)) hi
    have hvalid : m.Valid := hi ▸ o.valid _ (List.getElem_mem i.isLt)
    have hps : ∀ ps, m.value = .str ps → ∀ p ∈ ps, p.Valid := by
      intro ps hvalue p hp
      exact hvalid.value p (by rw [hvalue]; exact hp)
    unfold Keyed FlatObject.string? FlatObject.int?
    rw [hmember, Option.bind_some, Option.bind_some]
    refine ⟨fun hread htakes => hat.mpr ?_, fun hroomy hkeyed n hn => ?_⟩
    · have hthis := hread _ hmember
      unfold Member.Readable at hthis
      cases hvalue : m.value with
      | str ps =>
        rw [hvalue] at hthis
        have hkept := (meaning_eq_kept_iff (hps ps hvalue)).mpr hthis.2
        have hlen := htakes (meaning ps) (by
          unfold FlatObject.string?
          rw [hmember, Option.bind_some, hvalue]
          rfl)
        refine ⟨hthis.1, ?_⟩
        rw [← hkept]
        exact List.take_of_length_le (by omega)
      | int minus n =>
        rw [hvalue] at hthis
        exact hthis
      | bool b => trivial
    · obtain rfl := Option.some.inj (hmember.symm.trans hn)
      have hthis := hat.mp hkeyed
      have hroom := hroomy _ hmember
      unfold Member.Readable
      cases hvalue : m.value with
      | str ps =>
        rw [hvalue] at hthis hroom
        have hlen := kept_length ps
        change (stringText ps).length < outLen at hroom
        refine ⟨hthis.1, (meaning_eq_kept_iff (hps ps hvalue)).mp ?_⟩
        rw [← hthis.2]
        exact List.take_of_length_le (by omega)
      | int minus n =>
        rw [hvalue] at hthis
        exact hthis
      | bool b => trivial

end

/-- A string without escapes. -/
def plains (s : String) : List Piece := (ascii s).map Piece.plain

/-- What the uplink page sends. -/
def wanMembers (ssid password : String) : List Member :=
  [⟨[], plains "enabled", [], [], .int false 1, []⟩,
    ⟨[], plains "ssid", [], [], .str (plains ssid), []⟩,
    ⟨[], plains "password", [], [], .str (plains password), []⟩]

def wanBody (ssid password : String) (hvalid : ∀ m ∈ wanMembers ssid password, m.Valid) :
    FlatObject where
  members := wanMembers ssid password
  valid := hvalid
  white := fun c hc => absurd hc (by simp)
  once := by
    show [meaning (plains "enabled"), meaning (plains "ssid"), meaning (plains "password")].Nodup
    decide

def fieldBody : FlatObject := wanBody "field" "hunter22" (by decide +kernel)

/-- A network by the name of `ports`: the page sends no port list. -/
def portsBody : FlatObject := wanBody "ports" "hunter22" (by decide +kernel)

theorem jsonGet_keyed_ssid : Keyed fieldBody "ssid" 33 :=
  (jsonGet_keyed (by decide +kernel)).1
    (fun _ hm => Option.some.inj hm ▸ ⟨by decide +kernel, by decide +kernel⟩)
    (fun _ hv => Option.some.inj hv ▸ by decide +kernel)

/-- The password is read as the port list. -/
theorem jsonGet_keyed_fails :
    ¬ ∀ o key outLen, Takes o key outLen → Keyed o key outLen := by
  intro h
  have habsent : portsBody.string? "ports" = none := by decide +kernel
  have hkeyed := h portsBody "ports" 121 (fun v hv => absurd (habsent.symm.trans hv) (by simp))
  exact absurd hkeyed.1 (by decide +kernel)

end Web
end Wt32Router
