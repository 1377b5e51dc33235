import Wt32Router.Lib.Utf8

/-!
# The grammar of a syslog message

RFC 5424 section 6, rule by rule. A `SyslogMsg` is what the grammar's derivations tell apart:
PRIVAL and VERSION are numbers, the other fields of the header are the texts that stand there
(`-` is both NILVALUE and a name of one character), a PARAM-VALUE is the text behind its escapes.

> **`SyslogMsg.render_inj`**: two messages of the same text are one message.

Every field ends where something stands that cannot be in it, so the proof reads both texts from
the front; what MSG may be does not come in.
-/

namespace Wt32Router
namespace Lib

/-- PRINTUSASCII. -/
def isPrintUsAscii (b : UInt8) : Bool := 33 ≤ b && b ≤ 126

/-- What an SD-NAME is made of. -/
def isSdNameByte (b : UInt8) : Bool :=
  isPrintUsAscii b && b != 61 && b != 93 && b != 34

/-- `1*max PRINTUSASCII`, which NILVALUE is one of. -/
def IsHeaderField (max : Nat) (text : List UInt8) : Prop :=
  text ≠ [] ∧ text.length ≤ max ∧ ∀ b ∈ text, isPrintUsAscii b = true

def IsSdName (text : List UInt8) : Prop :=
  text ≠ [] ∧ text.length ≤ 32 ∧ ∀ b ∈ text, isSdNameByte b = true

instance (max : Nat) (text : List UInt8) : Decidable (IsHeaderField max text) :=
  decidable_of_iff (text ≠ [] ∧ text.length ≤ max ∧ text.all isPrintUsAscii = true)
    (by rw [List.all_eq_true]; rfl)

instance (text : List UInt8) : Decidable (IsSdName text) :=
  decidable_of_iff (text ≠ [] ∧ text.length ≤ 32 ∧ text.all isSdNameByte = true)
    (by rw [List.all_eq_true]; rfl)

/-! ## TIMESTAMP -/

/-- `k` digits. -/
def fixedDigits : Nat → Nat → List UInt8
  | 0, _ => []
  | k + 1, n => fixedDigits k (n / 10) ++ [UInt8.ofNat (48 + n % 10)]

def daysInMonth (year month : Nat) : Nat :=
  if month = 2 then if year % 4 = 0 ∧ (year % 100 ≠ 0 ∨ year % 400 = 0) then 29 else 28
  else if month = 4 ∨ month = 6 ∨ month = 9 ∨ month = 11 then 30
  else 31

/-- FULL-DATE and FULL-TIME. No `offset` is `Z`, and one of minus sign is west. -/
structure DateTime where
  year : Nat
  month : Nat
  day : Nat
  hour : Nat
  minute : Nat
  second : Nat
  /-- TIME-SECFRAC: how many digits, and their value -/
  fraction : Option (Nat × Nat)
  offset : Option (Bool × Nat × Nat)

def DateTime.Ok (d : DateTime) : Prop :=
  d.year < 10000 ∧ (1 ≤ d.month ∧ d.month ≤ 12) ∧ (1 ≤ d.day ∧ d.day ≤ daysInMonth d.year d.month)
    ∧ d.hour < 24 ∧ d.minute < 60 ∧ d.second < 60
    ∧ (∀ f ∈ d.fraction, 1 ≤ f.1 ∧ f.1 ≤ 6) ∧ ∀ o ∈ d.offset, o.2.1 < 24 ∧ o.2.2 < 60

def DateTime.text (d : DateTime) : List UInt8 :=
  fixedDigits 4 d.year ++ [45] ++ fixedDigits 2 d.month ++ [45] ++ fixedDigits 2 d.day ++ [84]
    ++ fixedDigits 2 d.hour ++ [58] ++ fixedDigits 2 d.minute ++ [58] ++ fixedDigits 2 d.second
    ++ (match d.fraction with
        | none => []
        | some (k, n) => 46 :: fixedDigits k n)
    ++ (match d.offset with
        | none => [90]
        | some (west, hour, minute) =>
          (if west then 45 else 43) :: (fixedDigits 2 hour ++ 58 :: fixedDigits 2 minute))

def IsTimestamp (text : List UInt8) : Prop := text = [45] ∨ ∃ d : DateTime, d.Ok ∧ text = d.text

/-! ## STRUCTURED-DATA and MSG -/

/-- SD-PARAM, with the value that its text stands for. -/
structure SdParam where
  name : List UInt8
  value : List UInt8
deriving DecidableEq, Repr

structure SdElement where
  id : List UInt8
  params : List SdParam
deriving DecidableEq, Repr

def SdParam.Ok (p : SdParam) : Prop := IsSdName p.name ∧ IsUtf8 p.value

def SdElement.Ok (e : SdElement) : Prop := IsSdName e.id ∧ ∀ p ∈ e.params, p.Ok

/-- A quotation mark, a backslash and a closing bracket stand behind a backslash. -/
def escapeByte (b : UInt8) : List UInt8 := if b = 34 ∨ b = 92 ∨ b = 93 then [92, b] else [b]

def SdParam.text (p : SdParam) : List UInt8 :=
  32 :: (p.name ++ 61 :: 34 :: (p.value.flatMap escapeByte ++ [34]))

def SdElement.text (e : SdElement) : List UInt8 :=
  91 :: (e.id ++ (e.params.flatMap SdParam.text ++ [93]))

def structuredData : List SdElement → List UInt8
  | [] => [45]
  | es => es.flatMap SdElement.text

def bom : List UInt8 := [0xef, 0xbb, 0xbf]

/-- MSG-ANY, which does not start with BOM, or MSG-UTF8, which does. -/
def IsMsg (msg : List UInt8) : Prop := bom <+: msg → IsUtf8 (msg.drop 3)

/-- What follows STRUCTURED-DATA: nothing, or a space and MSG. -/
def msgTail : Option (List UInt8) → List UInt8
  | none => []
  | some msg => 32 :: msg

/-! ## SYSLOG-MSG -/

structure SyslogMsg where
  pri : Nat
  version : Nat
  timestamp : List UInt8
  hostname : List UInt8
  appName : List UInt8
  procid : List UInt8
  msgid : List UInt8
  elements : List SdElement
  msg : Option (List UInt8)
deriving DecidableEq, Repr

/-- Everything but MSG is as the grammar has it. -/
structure SyslogMsg.HeaderOk (m : SyslogMsg) : Prop where
  pri : m.pri ≤ 191
  version : 1 ≤ m.version ∧ m.version ≤ 999
  timestamp : IsTimestamp m.timestamp
  hostname : IsHeaderField 255 m.hostname
  appName : IsHeaderField 48 m.appName
  procid : IsHeaderField 128 m.procid
  msgid : IsHeaderField 32 m.msgid
  elements : ∀ e ∈ m.elements, e.Ok

def SyslogMsg.Ok (m : SyslogMsg) : Prop := m.HeaderOk ∧ ∀ msg ∈ m.msg, IsMsg msg

def SyslogMsg.render (m : SyslogMsg) : List UInt8 :=
  60 :: (decimal m.pri ++ 62 :: (decimal m.version ++ 32 :: (m.timestamp ++ 32 :: (m.hostname
    ++ 32 :: (m.appName ++ 32 :: (m.procid ++ 32 :: (m.msgid ++ 32 :: (structuredData m.elements
    ++ msgTail m.msg))))))))

/-- `text` derives `m`. -/
def Rfc5424 (text : List UInt8) (m : SyslogMsg) : Prop := m.Ok ∧ text = m.render

section

variable {text text' rest rest' : List UInt8} {es es' : List SdElement} {ps ps' : List SdParam}
  {m m' : SyslogMsg} {b b' : UInt8} {max n k : Nat}

/-! ## No field has a space -/

/-- A field of the header ends at its space. -/
theorem field_unique (ht : 32 ∉ text) (ht' : 32 ∉ text')
    (h : text ++ 32 :: rest = text' ++ 32 :: rest') : text = text' ∧ rest = rest' := by
  have hrun : ∀ {t : List UInt8}, 32 ∉ t → ∀ c ∈ t, (c != 32) = true := fun hsp c hc =>
    bne_iff_ne.mpr fun heq => hsp (heq ▸ hc)
  obtain ⟨htext, hrest⟩ := run_unique (hrun ht) (hrun ht') rfl rfl h
  exact ⟨htext, (List.cons.inj hrest).2⟩

theorem IsHeaderField.no_space (h : IsHeaderField max text) : 32 ∉ text := fun hmem =>
  absurd (h.2.2 32 hmem) (by decide)

theorem IsHeaderField.mono {max' : Nat} (h : IsHeaderField max text) (hle : max ≤ max') :
    IsHeaderField max' text :=
  ⟨h.1, Nat.le_trans h.2.1 hle, h.2.2⟩

theorem fixedDigits_no_space : 32 ∉ fixedDigits k n := by
  induction k generalizing n with
  | zero => exact List.not_mem_nil
  | succ k ih =>
    intro hmem
    rcases List.mem_append.mp hmem with hmem | hmem
    · exact ih hmem
    · have hval := congrArg UInt8.toNat (List.mem_singleton.mp hmem)
      rw [UInt8.toNat_ofNat', Nat.mod_eq_of_lt (by omega)] at hval
      exact absurd hval (by simp; omega)

theorem DateTime.no_space (d : DateTime) : 32 ∉ d.text := by
  have hfraction : 32 ∉ (match d.fraction with
      | none => []
      | some (k, n) => 46 :: fixedDigits k n) := by
    split
    · exact List.not_mem_nil
    · rw [List.mem_cons, not_or]
      exact ⟨by decide, fixedDigits_no_space⟩
  have hoffset : 32 ∉ (match d.offset with
      | none => [90]
      | some (west, hour, minute) =>
        (if west then 45 else 43) :: (fixedDigits 2 hour ++ 58 :: fixedDigits 2 minute)) := by
    split
    · decide
    · rename_i west _ _ _
      simp only [List.mem_cons, List.mem_append, fixedDigits_no_space, or_false, false_or]
      cases west <;> decide
  simp only [DateTime.text, List.mem_append, List.mem_singleton, fixedDigits_no_space, hfraction,
    hoffset, or_false]
  decide

theorem IsTimestamp.no_space (h : IsTimestamp text) : 32 ∉ text := by
  rcases h with rfl | ⟨d, -, rfl⟩
  · decide
  · exact d.no_space

/-! ## The texts are read from the front -/

theorem decimal_unique {n' : Nat} (hrest : rest.head?.any isDigit = false)
    (hrest' : rest'.head?.any isDigit = false) (h : decimal n ++ rest = decimal n' ++ rest') :
    n = n' ∧ rest = rest' := by
  obtain ⟨hdec, hrest⟩ := run_unique (fun _ => digit_of_mem_decimal)
    (fun _ => digit_of_mem_decimal) hrest hrest' h
  refine ⟨?_, hrest⟩
  rw [← digitsValue_decimal n, hdec, digitsValue_decimal]

theorem escapeByte_unique (h : escapeByte b ++ rest = escapeByte b' ++ rest') :
    b = b' ∧ rest = rest' := by
  unfold escapeByte at h
  split at h <;> split at h <;> simp_all

/-- A quotation mark begins the text of no byte of a value. -/
theorem escapeByte_quote : escapeByte b ++ rest ≠ 34 :: rest' := by
  unfold escapeByte
  split <;> simp_all

/-- A value ends at the quotation mark that no backslash stands in front of. -/
theorem value_unique {v v' : List UInt8}
    (h : v.flatMap escapeByte ++ 34 :: rest = v'.flatMap escapeByte ++ 34 :: rest') :
    v = v' ∧ rest = rest' := by
  induction v generalizing v' with
  | nil =>
    cases v' with
    | nil => exact ⟨rfl, (List.cons.inj h).2⟩
    | cons b' v' =>
      rw [List.flatMap_cons, List.append_assoc] at h
      exact absurd h.symm escapeByte_quote
  | cons b v ih =>
    rw [List.flatMap_cons, List.append_assoc] at h
    cases v' with
    | nil => exact absurd h escapeByte_quote
    | cons b' v' =>
      rw [List.flatMap_cons, List.append_assoc] at h
      obtain ⟨rfl, htail⟩ := escapeByte_unique h
      obtain ⟨rfl, hrest⟩ := ih htail
      exact ⟨rfl, hrest⟩

/-- The parameters of an element end at its bracket. -/
theorem params_unique (hps : ∀ p ∈ ps, p.Ok) (hps' : ∀ p ∈ ps', p.Ok)
    (h : ps.flatMap SdParam.text ++ 93 :: rest = ps'.flatMap SdParam.text ++ 93 :: rest') :
    ps = ps' ∧ rest = rest' := by
  induction ps generalizing ps' with
  | nil =>
    cases ps' with
    | nil => exact ⟨rfl, (List.cons.inj h).2⟩
    | cons p' ps' => exact absurd (List.cons.inj h).1 (by decide)
  | cons p ps ih =>
    cases ps' with
    | nil => exact absurd (List.cons.inj h).1 (by decide)
    | cons p' ps' =>
      obtain ⟨⟨hname, -⟩, hps⟩ := List.forall_mem_cons.mp hps
      obtain ⟨⟨hname', -⟩, hps'⟩ := List.forall_mem_cons.mp hps'
      simp only [List.flatMap_cons, SdParam.text, List.cons_append, List.append_assoc,
        List.nil_append, List.cons.injEq, true_and] at h
      obtain ⟨hn, htail⟩ := run_unique hname.2.2 hname'.2.2 rfl rfl h
      simp only [List.cons.injEq, true_and] at htail
      obtain ⟨hv, htail⟩ := value_unique htail
      obtain ⟨rfl, hrest⟩ := ih hps hps' htail
      cases p
      cases p'
      simp_all only [true_and]

theorem element_unique {e e' : SdElement} (he : e.Ok) (he' : e'.Ok)
    (h : e.text ++ rest = e'.text ++ rest') : e = e' ∧ rest = rest' := by
  -- behind the name stands a space or the closing bracket
  have hnext : ∀ (ps : List SdParam) (r : List UInt8),
      (ps.flatMap SdParam.text ++ 93 :: r).head?.any isSdNameByte = false := by
    intro ps r
    cases ps <;> rfl
  simp only [SdElement.text, List.cons_append, List.append_assoc, List.nil_append,
    List.cons.injEq, true_and] at h
  obtain ⟨hid, htail⟩ := run_unique he.1.2.2 he'.1.2.2 (hnext _ _) (hnext _ _) h
  obtain ⟨hps, hrest⟩ := params_unique he.2 he'.2 htail
  cases e
  cases e'
  simp_all only [true_and]

theorem elements_unique (hes : ∀ e ∈ es, e.Ok) (hes' : ∀ e ∈ es', e.Ok)
    (hrest : rest.head? ≠ some 91) (hrest' : rest'.head? ≠ some 91)
    (h : es.flatMap SdElement.text ++ rest = es'.flatMap SdElement.text ++ rest') :
    es = es' ∧ rest = rest' := by
  induction es generalizing es' with
  | nil =>
    cases es' with
    | nil => exact ⟨rfl, h⟩
    | cons e' es' => exact absurd (congrArg List.head? h) hrest
  | cons e es ih =>
    cases es' with
    | nil => exact absurd (congrArg List.head? h).symm hrest'
    | cons e' es' =>
      obtain ⟨he, hmore⟩ := List.forall_mem_cons.mp hes
      obtain ⟨he', hmore'⟩ := List.forall_mem_cons.mp hes'
      rw [List.flatMap_cons, List.append_assoc, List.flatMap_cons, List.append_assoc] at h
      obtain ⟨rfl, htail⟩ := element_unique he he' h
      obtain ⟨rfl, hrest⟩ := ih hmore hmore' htail
      exact ⟨rfl, hrest⟩

theorem structuredData_unique (hes : ∀ e ∈ es, e.Ok) (hes' : ∀ e ∈ es', e.Ok)
    (hrest : rest.head? ≠ some 91) (hrest' : rest'.head? ≠ some 91)
    (h : structuredData es ++ rest = structuredData es' ++ rest') : es = es' ∧ rest = rest' := by
  cases es with
  | nil =>
    cases es' with
    | nil => exact ⟨rfl, (List.cons.inj h).2⟩
    | cons e' es' => exact absurd (List.cons.inj h).1 (by decide)
  | cons e es =>
    cases es' with
    | nil => exact absurd (List.cons.inj h).1 (by decide)
    | cons e' es' => exact elements_unique hes hes' hrest hrest' h

theorem msgTail_head (msg : Option (List UInt8)) : (msgTail msg).head? ≠ some 91 := by
  cases msg <;> simp [msgTail]

theorem msgTail_inj {msg msg' : Option (List UInt8)} (h : msgTail msg = msgTail msg') :
    msg = msg' := by
  cases msg <;> cases msg' <;> simp_all [msgTail]

theorem bom_high : ∀ b ∈ bom, 128 ≤ b := by simp [bom]

/-- Bytes below 128 that are replaced among themselves are no matter to MSG. -/
theorem isMsg_map {f : UInt8 → UInt8} (hlow : ∀ b < 128, f b < 128)
    (hhigh : ∀ b, 128 ≤ b → f b = b) : IsMsg (text.map f) ↔ IsMsg text := by
  have hbom : bom <+: text.map f ↔ bom <+: text := by
    constructor
    · intro h
      obtain ⟨front, hfront, heq⟩ := List.prefix_map_iff.mp h
      have hsame : front.map f = front := map_high hlow hhigh (heq ▸ bom_high)
      rwa [heq, hsame]
    · intro h
      have hsame : bom.map f = bom := map_fixed fun b hb => hhigh b (bom_high b hb)
      exact hsame ▸ h.map f
  unfold IsMsg
  rw [hbom, ← List.map_drop, isUtf8_map hlow hhigh]

/-- **A text is that of one message.** -/
theorem SyslogMsg.render_inj (hm : m.HeaderOk) (hm' : m'.HeaderOk) (h : m.render = m'.render) :
    m = m' := by
  obtain ⟨hpri, h⟩ := decimal_unique rfl rfl (List.cons.inj h).2
  obtain ⟨hversion, h⟩ := decimal_unique rfl rfl (List.cons.inj h).2
  obtain ⟨htimestamp, h⟩ :=
    field_unique hm.timestamp.no_space hm'.timestamp.no_space (List.cons.inj h).2
  obtain ⟨hhostname, h⟩ := field_unique hm.hostname.no_space hm'.hostname.no_space h
  obtain ⟨happName, h⟩ := field_unique hm.appName.no_space hm'.appName.no_space h
  obtain ⟨hprocid, h⟩ := field_unique hm.procid.no_space hm'.procid.no_space h
  obtain ⟨hmsgid, h⟩ := field_unique hm.msgid.no_space hm'.msgid.no_space h
  obtain ⟨helements, h⟩ := structuredData_unique hm.elements hm'.elements (msgTail_head _)
    (msgTail_head _) h
  have hmsg := msgTail_inj h
  cases m
  cases m'
  simp_all only

/-- **A text that a message was written as** derives that message and no other, or nothing at all
    where MSG says falsely that it is UTF-8. -/
theorem SyslogMsg.derives_iff (hm : m.HeaderOk) :
    (∀ m', Rfc5424 m.render m' ↔ m' = m) ↔ ∀ msg ∈ m.msg, IsMsg msg := by
  constructor
  · intro h
    exact ((h m).mpr rfl).1.2
  · intro hmsg m'
    constructor
    · rintro ⟨hok, htext⟩
      exact render_inj hok.1 hm htext.symm
    · rintro rfl
      exact ⟨⟨hm, hmsg⟩, rfl⟩

end

end Lib
end Wt32Router
