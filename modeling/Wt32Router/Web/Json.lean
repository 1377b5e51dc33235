import Wt32Router.Lib.Utf8
import Wt32Router.Web.JsonText

/-!
# The grammar of JSON

RFC 8259, rule by rule, over bytes: a text is UTF-8 and derives a value. What stands in the place
of a value is its text; of an object the members are kept, since a reader looks for one of them.

> **`IsObject text ms`**: the text is an object of these members and nothing else.

A string ends at the first quotation mark that no backslash takes with it (`InString`), so the
front of an object can be read off its text: `isObject_first` finds the first member where its
name and its value are strings, and `inString_past` says where a string can end whose text was
copied in without a look at it.
-/

namespace Wt32Router
namespace Web

open Lib (IsUtf8 ascii commaSeparated decimal isDigit)

/-! ## Values -/

def Ws (text : List UInt8) : Prop := ∀ c ∈ text, isWs c = true

/-- A string between its quotation marks. -/
def quotedPieces (ps : List Piece) : List UInt8 := 34 :: (stringText ps ++ [34])

/-- `1*DIGIT`. -/
def IsDigits (text : List UInt8) : Prop := text ≠ [] ∧ ∀ c ∈ text, isDigit c = true

/-- A zero stands alone or behind another digit. -/
def IsInt (text : List UInt8) : Prop :=
  text = [48] ∨ IsDigits text ∧ text.head? ≠ some 48

def IsFrac (text : List UInt8) : Prop :=
  text = [] ∨ ∃ ds, text = 46 :: ds ∧ IsDigits ds

def IsExp (text : List UInt8) : Prop :=
  text = [] ∨ ∃ e sign ds, text = e :: (sign ++ ds) ∧ (e = 101 ∨ e = 69) ∧
    (sign = [] ∨ sign = [43] ∨ sign = [45]) ∧ IsDigits ds

def IsNumber (text : List UInt8) : Prop :=
  ∃ minus int frac exp, text = minus ++ (int ++ (frac ++ exp)) ∧ (minus = [] ∨ minus = [45]) ∧
    IsInt int ∧ IsFrac frac ∧ IsExp exp

/-- An element of an array, with the white space around it. -/
structure JsonElement where
  before : List UInt8 := []
  value : List UInt8
  after : List UInt8 := []

def JsonElement.text (e : JsonElement) : List UInt8 := e.before ++ (e.value ++ e.after)

def JsonElement.Ok (e : JsonElement) : Prop := Ws e.before ∧ Ws e.after

/-- A member of an object, with the white space around its parts. -/
structure JsonMember where
  before : List UInt8 := []
  name : List Piece
  afterName : List UInt8 := []
  beforeValue : List UInt8 := []
  value : List UInt8
  after : List UInt8 := []

def JsonMember.text (m : JsonMember) : List UInt8 :=
  m.before ++
    (quotedPieces m.name ++ (m.afterName ++ 58 :: (m.beforeValue ++ (m.value ++ m.after))))

structure JsonMember.Ok (m : JsonMember) : Prop where
  before : Ws m.before
  name : ∀ p ∈ m.name, p.Valid
  afterName : Ws m.afterName
  beforeValue : Ws m.beforeValue
  after : Ws m.after

/-- An array between its brackets; `inner` is the white space of an empty one. -/
def arrayText (inner : List UInt8) : List JsonElement → List UInt8
  | [] => inner
  | es => commaSeparated (es.map JsonElement.text)

def objectText (inner : List UInt8) : List JsonMember → List UInt8
  | [] => inner
  | ms => commaSeparated (ms.map JsonMember.text)

inductive IsValue : List UInt8 → Prop
  | word {text : List UInt8} :
      text = ascii "false" ∨ text = ascii "null" ∨ text = ascii "true" → IsValue text
  | number {text : List UInt8} : IsNumber text → IsValue text
  | string {ps : List Piece} : (∀ p ∈ ps, p.Valid) → IsValue (quotedPieces ps)
  | array {inner : List UInt8} {es : List JsonElement} : Ws inner → (∀ e ∈ es, e.Ok) →
      (∀ e ∈ es, IsValue e.value) → IsValue (91 :: (arrayText inner es ++ [93]))
  | object {inner : List UInt8} {ms : List JsonMember} : Ws inner → (∀ m ∈ ms, m.Ok) →
      (∀ m ∈ ms, IsValue m.value) → IsValue (123 :: (objectText inner ms ++ [125]))

/-! ## Texts -/

/-- A JSON text. -/
def IsJson (text : List UInt8) : Prop :=
  IsUtf8 text ∧ ∃ lead value trail, Ws lead ∧ IsValue value ∧ Ws trail ∧
    text = lead ++ (value ++ trail)

/-- A JSON text that is an object of these members. -/
structure IsObject (text : List UInt8) (ms : List JsonMember) : Prop where
  utf8 : IsUtf8 text
  members : ∀ m ∈ ms, m.Ok
  values : ∀ m ∈ ms, IsValue m.value
  text_eq : ∃ lead inner trail, Ws lead ∧ Ws inner ∧ Ws trail ∧
    text = lead ++ (123 :: (objectText inner ms ++ 125 :: trail))

theorem IsObject.isJson {text : List UInt8} {ms : List JsonMember} (h : IsObject text ms) :
    IsJson text := by
  obtain ⟨lead, inner, trail, hlead, hinner, htrail, heq⟩ := h.text_eq
  exact ⟨h.utf8, lead, _, trail, hlead, .object hinner h.members h.values, htrail, by simp [heq]⟩

/-- Whatever has that name in the object, and something has, is a string that stands for this. -/
def Names (ms : List JsonMember) (name value : List UInt8) : Prop :=
  (∃ m ∈ ms, meaning m.name = name) ∧
    ∀ m ∈ ms, meaning m.name = name →
      ∃ ps, (∀ p ∈ ps, p.Valid) ∧ m.value = quotedPieces ps ∧ meaning ps = value

section

variable {text w rest rest' more : List UInt8} {ps : List Piece} {p : Piece} {c d : UInt8}
  {ms : List JsonMember}

/-! ## Strings -/

/-- The inside of a string: characters, and pairs of a backslash and what it takes with it. -/
inductive InString : List UInt8 → Prop
  | nil : InString []
  | plain {c : UInt8} {text : List UInt8} : c ≠ 34 → c ≠ 92 → InString text →
      InString (c :: text)
  | pair {c : UInt8} {text : List UInt8} : InString text → InString (92 :: c :: text)

theorem InString.plains {cs : List UInt8} (h : ∀ c ∈ cs, c ≠ 34 ∧ c ≠ 92) (ht : InString text) :
    InString (cs ++ text) := by
  induction cs with
  | nil => exact ht
  | cons c cs ih =>
    obtain ⟨hc, hcs⟩ := List.forall_mem_cons.mp h
    exact .plain hc.1 hc.2 (ih hcs)

theorem inString_stringText (hps : ∀ p ∈ ps, p.Valid) : InString (stringText ps) := by
  induction ps with
  | nil => exact .nil
  | cons p ps ih =>
    obtain ⟨hp, hps⟩ := List.forall_mem_cons.mp hps
    have htail := ih hps
    cases p with
    | plain c => exact .plain hp.2.1 hp.2.2 htail
    | escape e => exact .pair htail
    | unicode digits =>
      exact .pair (.plains (fun c hc => hexValue_plain (hp.2 c hc)) htail)

/-- **Where a string can end** whose text begins with `text` and goes on with a quotation mark, a
    comma and another: inside, at the first of them, or, where the first is escaped, at the
    second. -/
theorem inString_past {body : List UInt8} (hbody : InString body)
    (h : body ++ 34 :: rest = text ++ 34 :: 44 :: 34 :: more) :
    body.length < text.length ∨ body = text ∧ rest = 44 :: 34 :: more ∨ rest = more := by
  induction hbody generalizing text with
  | nil =>
    cases text with
    | nil => exact .inr (.inl ⟨rfl, (List.cons.inj h).2⟩)
    | cons c text => exact .inl (Nat.succ_pos _)
  | @plain c body hquote hslash hbody ih =>
    cases text with
    | nil => exact absurd (List.cons.inj h).1 hquote
    | cons d text =>
      obtain ⟨rfl, htail⟩ := List.cons.inj h
      rcases ih htail with hlt | ⟨rfl, hrest⟩ | hrest
      · exact .inl (Nat.succ_lt_succ hlt)
      · exact .inr (.inl ⟨rfl, hrest⟩)
      · exact .inr (.inr hrest)
  | @pair c body hbody ih =>
    cases text with
    | nil => exact absurd (List.cons.inj h).1 (by decide)
    | cons d text =>
      obtain rfl := (List.cons.inj h).1
      cases text with
      | nil =>
        -- the quotation mark is escaped, and the comma stands in the string
        obtain ⟨rfl, htail⟩ := List.cons.inj (List.cons.inj h).2
        cases hbody with
        | nil => exact absurd (List.cons.inj htail).1 (by decide)
        | pair _ => exact absurd (List.cons.inj htail).1 (by decide)
        | plain _ _ hbody =>
          have hmark := (List.cons.inj htail).2
          cases hbody with
          | nil => exact .inr (.inr (List.cons.inj hmark).2)
          | pair _ => exact absurd (List.cons.inj hmark).1 (by decide)
          | plain hquote _ _ => exact absurd (List.cons.inj hmark).1 hquote
      | cons d' text =>
        obtain ⟨rfl, htail⟩ := List.cons.inj (List.cons.inj h).2
        rcases ih htail with hlt | ⟨rfl, hrest⟩ | hrest
        · exact .inl (Nat.succ_lt_succ (Nat.succ_lt_succ hlt))
        · exact .inr (.inl ⟨rfl, hrest⟩)
        · exact .inr (.inr hrest)

/-- A string whose inside begins with characters and the mark ends there. -/
theorem inString_plain {body cs : List UInt8} (hbody : InString body)
    (hcs : ∀ c ∈ cs, c ≠ 34 ∧ c ≠ 92) (h : body ++ 34 :: rest = cs ++ 34 :: rest') :
    body = cs ∧ rest = rest' := by
  induction hbody generalizing cs with
  | nil =>
    cases cs with
    | nil => exact ⟨rfl, (List.cons.inj h).2⟩
    | cons c cs => exact absurd (List.cons.inj h).1.symm (hcs c List.mem_cons_self).1
  | plain hquote _ _ ih =>
    cases cs with
    | nil => exact absurd (List.cons.inj h).1 hquote
    | cons c cs =>
      obtain ⟨rfl, htail⟩ := List.cons.inj h
      obtain ⟨rfl, hrest⟩ := ih (List.forall_mem_cons.mp hcs).2 htail
      exact ⟨rfl, hrest⟩
  | pair _ _ =>
    cases cs with
    | nil => exact absurd (List.cons.inj h).1 (by decide)
    | cons c cs => exact absurd (List.cons.inj h).1.symm (hcs c List.mem_cons_self).2

/-! ## Strings that stand for what they are written as -/

theorem stringText_plains (cs : List UInt8) : stringText (cs.map Piece.plain) = cs := by
  unfold stringText
  rw [List.flatMap_map]
  exact List.flatMap_singleton' cs

theorem meaning_plains (cs : List UInt8) : meaning (cs.map Piece.plain) = cs := by
  induction cs with
  | nil => rfl
  | cons c cs ih =>
    rw [List.map_cons, meaning_cons fun q => surrogates_of_simple (p := .plain c) trivial q, ih]
    rfl

/-- A string is no longer than it is written. -/
theorem meaning_le_text (hps : ∀ p ∈ ps, p.Valid) : (meaning ps).length ≤ (stringText ps).length :=
  Nat.le_trans (meaning_length hps) (kept_length ps)

/-- A string as long as it is written has no escape. -/
theorem plains_of_length (hps : ∀ p ∈ ps, p.Valid)
    (h : (stringText ps).length ≤ (meaning ps).length) :
    ps = (stringText ps).map Piece.plain := by
  have hkept := Nat.le_trans h (meaning_length hps)
  clear h hps
  induction ps with
  | nil => rfl
  | cons p ps ih =>
    have hrest := kept_length ps
    simp only [stringText, List.flatMap_cons, List.length_append] at hkept hrest ih ⊢
    cases p with
    | plain c =>
      have htail := ih (by simpa [Piece.text, Piece.kept] using hkept)
      exact congrArg (List.cons (Piece.plain c)) htail
    | escape e =>
      simp only [Piece.text, Piece.kept, List.length_cons, List.length_nil] at hkept
      omega
    | unicode digits =>
      simp only [Piece.text, Piece.kept, List.length_cons] at hkept
      omega

/-- A string without a backslash in it is the characters it is written in. -/
theorem plains_of_inside (h : 92 ∉ stringText ps) : ps = (stringText ps).map Piece.plain := by
  induction ps with
  | nil => rfl
  | cons p ps ih =>
    rw [stringText, List.flatMap_cons, List.mem_append, not_or] at h
    cases p with
    | plain c => exact congrArg (List.cons (Piece.plain c)) (ih h.2)
    | escape e => exact absurd List.mem_cons_self h.1
    | unicode digits => exact absurd List.mem_cons_self h.1

/-! ## Numbers -/

theorem decimal_head {n : Nat} (hn : 0 < n) : (decimal n).head? ≠ some 48 := by
  have hdigit : ∀ d : Fin 10, d ≠ 0 → UInt8.ofNat (Nat.digitChar d).toNat ≠ 48 := by decide
  induction n using Nat.strongRecOn with
  | ind n ih =>
    unfold decimal
    rw [Nat.toDigits_eq_if (by decide)]
    split
    · rename_i hlt
      intro heq
      exact hdigit ⟨n, hlt⟩ (by simp [Fin.ext_iff]; omega) (Option.some.inj heq)
    · rename_i hge
      have hhigh := ih (n / 10) (by omega) (by omega)
      obtain ⟨d, ds, hds⟩ := List.exists_cons_of_ne_nil (Lib.decimal_ne_nil (n := n / 10))
      rw [hds] at hhigh
      rw [List.map_append, show (Nat.toDigits 10 (n / 10)).map _ = d :: ds from hds]
      exact hhigh

theorem isNumber_decimal (n : Nat) : IsNumber (decimal n) := by
  refine ⟨[], decimal n, [], [], by simp, .inl rfl, ?_, .inl rfl, .inl rfl⟩
  rcases Nat.eq_zero_or_pos n with rfl | hn
  · exact .inl (by decide)
  · exact .inr ⟨⟨Lib.decimal_ne_nil, fun _ => Lib.digit_of_mem_decimal⟩, decimal_head hn⟩

/-! ## The first member -/

theorem ws_front (hw : Ws w) (hc : isWs c = false) (h : c :: rest = w ++ d :: rest') :
    c = d ∧ rest = rest' := by
  cases w with
  | nil => exact List.cons.inj h
  | cons e w =>
    have hspace := hw e List.mem_cons_self
    rw [← (List.cons.inj h).1, hc] at hspace
    exact absurd hspace (by decide)

/-- **The first member of an object**, where the text begins with its name and a string: the value
    is read up to a quotation mark behind which the member ends. -/
theorem isObject_first {name value behind : List UInt8} (hname : ∀ c ∈ name, c ≠ 34 ∧ c ≠ 92)
    (h : IsObject (123 :: 34 :: (name ++ 34 :: 58 :: 34 :: behind)) ms)
    (hnames : Names ms name value) :
    ∃ ps after c rest, (∀ p ∈ ps, p.Valid) ∧ meaning ps = value ∧ Ws after ∧ (c = 44 ∨ c = 125) ∧
      stringText ps ++ 34 :: (after ++ c :: rest) = behind := by
  obtain ⟨lead, inner, trail, hlead, hinner, -, htext⟩ := h.text_eq
  have htext := (ws_front hlead rfl htext).2
  cases ms with
  | nil => exact absurd (ws_front hinner rfl htext).1 (by decide)
  | cons m ms =>
    have hm := h.members m List.mem_cons_self
    simp only [objectText, List.map_cons, Lib.commaSeparated_cons, JsonMember.text, quotedPieces,
      List.append_assoc, List.cons_append, List.nil_append] at htext
    obtain ⟨hinside, htext⟩ := inString_plain (inString_stringText hm.name) hname
      (ws_front hm.before rfl htext).2.symm
    have hslash : 92 ∉ stringText m.name := fun hmem => (hname 92 (hinside ▸ hmem)).2 rfl
    have hmeaning : meaning m.name = name := by
      rw [plains_of_inside hslash, meaning_plains, hinside]
    obtain ⟨ps, hps, hvalue, hvalueMeaning⟩ := hnames.2 m List.mem_cons_self hmeaning
    have htext := (ws_front hm.afterName rfl htext.symm).2
    rw [hvalue, quotedPieces, List.cons_append, List.append_assoc] at htext
    have htext := (ws_front hm.beforeValue rfl htext).2
    have hend : ∃ c rest, (c = 44 ∨ c = 125) ∧
        (ms.map JsonMember.text).flatMap (List.cons 44) ++ 125 :: trail = c :: rest := by
      cases ms with
      | nil => exact ⟨125, trail, .inr rfl, rfl⟩
      | cons m' ms => exact ⟨44, _, .inl rfl, rfl⟩
    obtain ⟨c, rest, hc, hend⟩ := hend
    refine ⟨ps, m.after, c, rest, hps, hvalueMeaning, hm.after, hc, ?_⟩
    rw [htext, hend]
    rfl

end

end Web
end Wt32Router
