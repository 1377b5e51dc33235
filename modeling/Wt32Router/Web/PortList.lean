import Wt32Router.Web.Settings

/-!
# The grammar of a port list

`wan_cfg_parse_ports` and `wan_cfg_format_ports` of `main/wan_cfg.c`. The grammar is stated
without the scanner: an entry is blanks, digits, perhaps a protocol, and blanks again, and a
list is entries with commas between them. The scanner accepts what the grammar has, with the
rules it says, and reads back what the printer writes.
-/

namespace Wt32Router
namespace Web

open Lib (ascii decimal digitsValue isDigit strtoul)
open Wan (PortRule WanCfg maxPorts wanProtoTcp wanProtoUdp)

/-! ## The grammar -/

def Blank (text : List UInt8) : Prop := ∀ c ∈ text, isBlank c = true

/-- What may stand behind a port. -/
inductive ProtoText : UInt8 → List UInt8 → Prop where
  | bare : ProtoText wanProtoTcp []
  | tcp : ProtoText wanProtoTcp (ascii "/tcp")
  | udp : ProtoText wanProtoUdp (ascii "/udp")

/-- `digits` and `suffix` say `rule`, whose port is one of 1 to 65535. -/
structure RuleText (rule : PortRule) (digits suffix : List UInt8) : Prop where
  present : digits ≠ []
  decimal : ∀ c ∈ digits, isDigit c = true
  value : digitsValue digits = rule.port.toNat
  nonzero : rule.port ≠ 0
  proto : ProtoText rule.proto suffix

/-- The text of one entry. -/
def PortItem (rule : PortRule) (text : List UInt8) : Prop :=
  ∃ before digits suffix after, text = before ++ (digits ++ (suffix ++ after)) ∧
    Blank before ∧ RuleText rule digits suffix ∧ Blank after

/-- Entries with commas between them, one at least. -/
inductive PortItems : List PortRule → List UInt8 → Prop where
  | last {rule : PortRule} {text : List UInt8} : PortItem rule text → PortItems [rule] text
  | more {rule : PortRule} {rules : List PortRule} {text more : List UInt8} :
      PortItem rule text → PortItems rules more →
      PortItems (rule :: rules) (text ++ 44 :: more)

/-- A port list that says `rules`. -/
structure PortList (rules : List PortRule) (text : List UInt8) : Prop where
  items : PortItems rules text
  count : rules.length ≤ maxPorts
  once : rules.Nodup

/-! ## The array -/

/-- The loop again, with `out` as the code has it: an address, and a store to `out + n` goes
    there whatever `n` is. What is left of the memory is part of the outcome, and so is it where
    the list is refused. -/
def parsePortsLoopAt : Nat → List UInt8 → (Nat → PortRule) → Nat →
    (Nat → PortRule) × Except String Nat
  | 0, _, out, _ => (out, .error portsNotNumbers)
  | fuel + 1, p, out, n =>
      match parsePort p with
      | .error msg => (out, .error msg)
      | .ok (rule, p) =>
          if maxPorts ≤ n then (out, .error portsTooMany)
          else if ∃ i < n, out i = rule then (out, .error portsTwice)
          else
            let out := Function.update out n rule
            match p.dropWhile isBlank with
            | [] => (out, .ok (n + 1))
            | c :: p =>
                if c = 44 then parsePortsLoopAt fuel p out (n + 1)
                else (out, .error portsNotNumbers)

def wanCfgParsePortsAt (csv : List UInt8) (out : Nat → PortRule) :
    (Nat → PortRule) × Except String Nat :=
  if csv.dropWhile isBlank = [] then (out, .ok 0)
  else parsePortsLoopAt (csv.length + 1) csv out 0

/-- The array of the rules, and what is counted of it. -/
def inArray (r : (Nat → PortRule) × Except String Nat) :
    Except String ((Fin maxPorts → PortRule) × BitVec 8) :=
  r.2.map fun n => (fun i => r.1 i, BitVec.ofNat 8 n)

/-! ## The printer -/

/-- The rules of a configuration. -/
def portRules (cfg : WanCfg) : List PortRule := (List.ofFn cfg.ports).take cfg.nports.toNat

def protoSuffix (proto : UInt8) : List UInt8 := if proto = wanProtoUdp then ascii "/udp" else []

def portText (rule : PortRule) : List UInt8 :=
  decimal rule.port.toNat ++ protoSuffix rule.proto

/-- The rules as a list, with nothing cut off. -/
def portsText : List PortRule → List UInt8
  | [] => []
  | rule :: rules => portText rule ++ rules.flatMap fun rule => 44 :: portText rule

/-- The loop of `wan_cfg_format_ports`, from rule `i` on: `text` is what stands in `out`, and
    `len` what would stand there if it had the room. -/
def formatPortsLoop (outsz : Nat) : Nat → List PortRule → List UInt8 → Nat → List UInt8 × Nat
  | _, [], text, len => (text, len)
  | i, rule :: rules, text, len =>
      let wrote := (if i = 0 then [] else [44]) ++ portText rule
      formatPortsLoop outsz (i + 1) rules
        (if len < outsz then text ++ wrote.take (outsz - len - 1) else text)
        (len + wrote.length)

def wanCfgFormatPorts (cfg : WanCfg) (outsz : Nat) : List UInt8 × Nat :=
  let (text, len) := formatPortsLoop outsz 0 (portRules cfg) [] 0
  (text, if 0 < outsz ∧ outsz ≤ len then outsz - 1 else len)

/-- What `wan_cfg_validate` asks of the rules. -/
structure ValidRules (cfg : WanCfg) : Prop where
  count : cfg.nports.toNat ≤ maxPorts
  rules : ∀ i, ruleError cfg i = none

/-- `out` with `rules` at its start. -/
def listed (out : Fin maxPorts → PortRule) (rules : List PortRule) : Fin maxPorts → PortRule :=
  fun i => (rules[i.val]?).getD (out i)

section

variable {p text rest suffix digits : List UInt8} {rule : PortRule} {rules done : List PortRule}
  {out : Fin maxPorts → PortRule} {n fuel : Nat} {proto : UInt8}

/-! ## One entry -/

theorem portProto_ok_iff :
    portProto text = .ok (proto, rest) ↔
      ∃ suffix, text = suffix ++ rest ∧ ProtoText proto suffix ∧
        (suffix = [] → rest.head? ≠ some 47) := by
  constructor
  · intro h
    unfold portProto at h
    split at h
    · obtain ⟨rfl, rfl⟩ := Prod.mk.inj (Except.ok.inj h)
      exact ⟨[], rfl, .bare, fun _ => by simp⟩
    · rename_i c p
      split at h
      · rename_i hc
        have hslash : ∀ name : List UInt8, name.length = 3 → name.isPrefixOf p = true →
            c :: p = 47 :: name ++ p.drop 3 := by
          intro name hlen hname
          obtain ⟨tail, rfl⟩ := List.isPrefixOf_iff_prefix.mp hname
          rw [← hlen, List.drop_left, hc]
          rfl
        split at h
        · rename_i htcp
          obtain ⟨rfl, rfl⟩ := Prod.mk.inj (Except.ok.inj h)
          exact ⟨_, hslash _ rfl htcp, .tcp, by simp⟩
        · split at h
          · rename_i hudp
            obtain ⟨rfl, rfl⟩ := Prod.mk.inj (Except.ok.inj h)
            exact ⟨_, hslash _ rfl hudp, .udp, by simp⟩
          · exact absurd h (by simp)
      · rename_i hc
        obtain ⟨rfl, rfl⟩ := Prod.mk.inj (Except.ok.inj h)
        exact ⟨[], rfl, .bare, fun _ => by simpa using hc⟩
  · rintro ⟨suffix, rfl, hproto, hslash⟩
    cases hproto with
    | bare =>
      cases rest with
      | nil => rfl
      | cons c rest =>
        have hc : c ≠ 47 := by simpa using hslash rfl
        exact if_neg hc
    | tcp => rfl
    | udp => rfl

/-- The suffix of a port does not go on with its digits. -/
theorem ProtoText.head (h : ProtoText proto suffix) (hrest : rest.head?.any isDigit = false) :
    (suffix ++ rest).head?.any isDigit = false := by
  cases h with
  | bare => exact hrest
  | tcp => rfl
  | udp => rfl

/-- The number the scanner finds, as far as the test behind it can tell. -/
theorem strtoul_toNat (hne : digits ≠ []) (hdigits : ∀ c ∈ digits, isDigit c = true)
    (hrest : rest.head?.any isDigit = false) :
    (strtoul (digits ++ rest)).toNat = min (digitsValue digits) (2 ^ 32 - 1) := by
  rw [Lib.strtoul_digits hne hdigits hrest]
  split
  · rw [BitVec.toNat_allOnes]
    omega
  · rw [BitVec.toNat_ofNat]
    omega

theorem strtoul_eq_zero_iff (p : List UInt8) : strtoul p = 0 ↔ (strtoul p).toNat = 0 :=
  ⟨fun h => by rw [h]; rfl, fun h => BitVec.eq_of_toNat_eq h⟩

/-- The number that is put into a rule is the one that stands in the text. -/
theorem port_of_digits {v : BitVec 32} (hv : v.toNat = min (digitsValue digits) (2 ^ 32 - 1))
    (hrange : ¬ (v = 0 ∨ 65535 < v.toNat)) :
    digitsValue digits = (v.setWidth 16).toNat ∧ v.setWidth 16 ≠ 0 := by
  rw [not_or] at hrange
  have hle : v.toNat ≤ 65535 := Nat.le_of_not_lt hrange.2
  have hset : (v.setWidth 16).toNat = v.toNat := by
    rw [BitVec.toNat_setWidth]
    omega
  refine ⟨by omega, fun hz => hrange.1 (BitVec.eq_of_toNat_eq ?_)⟩
  rw [← hset, hz]
  rfl

theorem RuleText.strtoul (h : RuleText rule digits suffix)
    (hrest : (suffix ++ rest).head?.any isDigit = false) :
    (strtoul (digits ++ (suffix ++ rest))).toNat = rule.port.toNat := by
  rw [strtoul_toNat h.present h.decimal hrest, h.value]
  have := rule.port.isLt
  omega

theorem parsePort_ok_iff :
    parsePort p = .ok (rule, rest) ↔
      ∃ before digits suffix, p = before ++ (digits ++ (suffix ++ rest)) ∧ Blank before ∧
        RuleText rule digits suffix ∧ (suffix ++ rest).head?.any isDigit = false ∧
        (suffix = [] → rest.head? ≠ some 47) := by
  constructor
  · intro h
    unfold parsePort at h
    simp only [bind, Except.bind, pure, Except.pure, throw, throwThe,
      MonadExceptOf.throw] at h
    split at h
    · exact absurd h (by simp)
    · rename_i hdigit
      split at h
      · exact absurd h (by simp)
      · rename_i hrange
        cases hproto : portProto ((p.dropWhile isBlank).dropWhile isDigit) with
        | error msg =>
          rw [hproto] at h
          exact absurd h (by simp)
        | ok v =>
          obtain ⟨proto, text⟩ := v
          rw [hproto] at h
          obtain ⟨rfl, rfl⟩ := Prod.mk.inj (Except.ok.inj h)
          obtain ⟨suffix, htext, hsuffix, hslash⟩ := portProto_ok_iff.mp hproto
          have hhead := Lib.head_dropWhile (p := isDigit) (p.dropWhile isBlank)
          have hsplit := List.takeWhile_append_dropWhile (p := isDigit) (l := p.dropWhile isBlank)
          have hall : ∀ c ∈ (p.dropWhile isBlank).takeWhile isDigit, isDigit c = true :=
            fun c hc => List.mem_takeWhile_imp hc
          have hne : (p.dropWhile isBlank).takeWhile isDigit ≠ [] := by
            cases hp : p.dropWhile isBlank with
            | nil => simp [hp] at hdigit
            | cons c q =>
              rw [hp] at hdigit
              rw [List.takeWhile_cons_of_pos (by simpa using hdigit)]
              exact List.cons_ne_nil _ _
          have hval := strtoul_toNat hne hall hhead
          rw [hsplit] at hval
          obtain ⟨hvalue, hnonzero⟩ := port_of_digits hval hrange
          refine ⟨p.takeWhile isBlank, _, suffix, ?_, fun c hc => List.mem_takeWhile_imp hc,
            ⟨hne, hall, hvalue, hnonzero, hsuffix⟩, htext ▸ hhead, hslash⟩
          rw [← htext, hsplit, List.takeWhile_append_dropWhile]
  · rintro ⟨before, digits, suffix, rfl, hbefore, hrule, hhead, hslash⟩
    obtain ⟨d, ds, rfl⟩ := List.exists_cons_of_ne_nil hrule.present
    have hd := hrule.decimal d List.mem_cons_self
    have hblanks : (before ++ (d :: ds ++ (suffix ++ rest))).dropWhile isBlank =
        d :: ds ++ (suffix ++ rest) :=
      Lib.dropWhile_run hbefore (by simpa using isBlank_of_digit hd)
    have hnat := hrule.strtoul hhead
    have hrange : ¬ (strtoul (d :: ds ++ (suffix ++ rest)) = 0 ∨
        65535 < (strtoul (d :: ds ++ (suffix ++ rest))).toNat) := by
      have hlt := rule.port.isLt
      have hne : rule.port.toNat ≠ 0 := fun hz => hrule.nonzero (BitVec.eq_of_toNat_eq hz)
      rw [strtoul_eq_zero_iff, hnat]
      omega
    have hset : (strtoul (d :: ds ++ (suffix ++ rest))).setWidth 16 = rule.port := by
      refine BitVec.eq_of_toNat_eq ?_
      rw [BitVec.toNat_setWidth, hnat]
      exact Nat.mod_eq_of_lt rule.port.isLt
    have hproto := portProto_ok_iff.mpr ⟨suffix, rfl, hrule.proto, hslash⟩
    unfold parsePort
    simp only [hblanks, Lib.dropWhile_run hrule.decimal hhead]
    rw [hproto, if_neg (by simpa using hd), if_neg hrange]
    simp only [bind, Except.bind, pure, Except.pure, hset]

/-- An entry in front of a comma or of the end: what `parsePort` leaves of it are its blanks. -/
theorem portItem_iff {tail : List UInt8} (htail : tail = [] ∨ ∃ more, tail = 44 :: more) :
    (∃ text, p = text ++ tail ∧ PortItem rule text) ↔
      ∃ rest, parsePort p = .ok (rule, rest) ∧ rest.dropWhile isBlank = tail := by
  have hblank : tail.head?.any isBlank = false := by
    obtain rfl | ⟨more, rfl⟩ := htail <;> rfl
  constructor
  · rintro ⟨_, rfl, before, digits, suffix, after, rfl, hbefore, hrule, hafter⟩
    have hnext : (after ++ tail).head?.any isDigit = false ∧ (after ++ tail).head? ≠ some 47 := by
      cases after with
      | nil => obtain rfl | ⟨more, rfl⟩ := htail <;> simp [isDigit]
      | cons c after =>
        have hc := hafter c List.mem_cons_self
        simp only [isBlank, Bool.or_eq_true, beq_iff_eq] at hc
        obtain rfl | rfl := hc <;> simp [isDigit]
    refine ⟨after ++ tail, parsePort_ok_iff.mpr ⟨before, digits, suffix, by simp, hbefore, hrule,
      hrule.proto.head hnext.1, fun _ => hnext.2⟩, Lib.dropWhile_run hafter hblank⟩
  · rintro ⟨rest, hparse, rfl⟩
    obtain ⟨before, digits, suffix, rfl, hbefore, hrule, -, -⟩ := parsePort_ok_iff.mp hparse
    refine ⟨before ++ (digits ++ (suffix ++ rest.takeWhile isBlank)), ?_, before, digits, suffix,
      _, rfl, hbefore, hrule, fun c hc => List.mem_takeWhile_imp hc⟩
    simp only [List.append_assoc, List.takeWhile_append_dropWhile]

/-! ## The list -/

/-- A list, as the scanner takes it apart. -/
theorem portItems_iff :
    PortItems rules p ↔
      ∃ rule rest, parsePort p = .ok (rule, rest) ∧
        ((rest.dropWhile isBlank = [] ∧ rules = [rule]) ∨
          ∃ more rules', rest.dropWhile isBlank = 44 :: more ∧ PortItems rules' more ∧
            rules = rule :: rules') := by
  constructor
  · intro h
    cases h with
    | last hitem =>
      obtain ⟨rest, hparse, hrest⟩ :=
        (portItem_iff (.inl rfl)).mp ⟨_, (List.append_nil _).symm, hitem⟩
      exact ⟨_, rest, hparse, .inl ⟨hrest, rfl⟩⟩
    | more hitem hitems =>
      obtain ⟨rest, hparse, hrest⟩ := (portItem_iff (.inr ⟨_, rfl⟩)).mp ⟨_, rfl, hitem⟩
      exact ⟨_, rest, hparse, .inr ⟨_, _, hrest, hitems, rfl⟩⟩
  · rintro ⟨rule, rest, hparse, ⟨hrest, rfl⟩ | ⟨more, rules', hrest, hitems, rfl⟩⟩
    · obtain ⟨text, rfl, hitem⟩ := (portItem_iff (.inl rfl)).mpr ⟨rest, hparse, hrest⟩
      rw [List.append_nil]
      exact .last hitem
    · obtain ⟨text, rfl, hitem⟩ := (portItem_iff (.inr ⟨_, rfl⟩)).mpr ⟨rest, hparse, hrest⟩
      exact .more hitem hitems

/-- What one pass of the loop comes to, where it comes to a list. -/
theorem parsePortsLoop_step {r : (Fin maxPorts → PortRule) × BitVec 8} :
    parsePortsLoop (fuel + 1) p out n = .ok r ↔
      ∃ rule rest, parsePort p = .ok (rule, rest) ∧
        ∃ h : n < maxPorts, (¬ ∃ i : Fin maxPorts, i < n ∧ out i = rule) ∧
          ((rest.dropWhile isBlank = [] ∧
              r = (Function.update out ⟨n, h⟩ rule, BitVec.ofNat 8 (n + 1))) ∨
            ∃ more, rest.dropWhile isBlank = 44 :: more ∧
              parsePortsLoop fuel more (Function.update out ⟨n, h⟩ rule) (n + 1) = .ok r) := by
  conv_lhs => unfold parsePortsLoop
  cases hparse : parsePort p with
  | error msg => simp [bind, Except.bind]
  | ok v =>
    obtain ⟨rule, rest⟩ := v
    simp only [bind, Except.bind, pure, Except.pure, throw, throwThe, MonadExceptOf.throw]
    by_cases hn : n < maxPorts
    · by_cases htwice : ∃ i : Fin maxPorts, i < n ∧ out i = rule
      · rw [dif_pos hn, if_pos htwice]
        constructor
        · exact fun h => absurd h (by simp)
        · rintro ⟨rule', rest', heq, -, hnot, -⟩
          obtain ⟨rfl, rfl⟩ := Prod.mk.inj (Except.ok.inj heq)
          exact absurd htwice hnot
      · rw [dif_pos hn, if_neg htwice]
        constructor
        · intro h
          refine ⟨rule, rest, rfl, hn, htwice, ?_⟩
          cases hrest : rest.dropWhile isBlank with
          | nil =>
            rw [hrest] at h
            exact .inl ⟨rfl, (Except.ok.inj h).symm⟩
          | cons c more =>
            simp only [hrest] at h
            split at h
            · rename_i hc
              exact .inr ⟨more, hc ▸ rfl, h⟩
            · exact absurd h (by simp)
        · rintro ⟨rule', rest', heq, _, -, hend⟩
          obtain ⟨rfl, rfl⟩ := Prod.mk.inj (Except.ok.inj heq)
          obtain ⟨hrest, rfl⟩ | ⟨more, hrest, hloop⟩ := hend
          · simp only [hrest]
          · simp only [hrest]
            exact hloop
    · rw [dif_neg hn]
      constructor
      · exact fun h => absurd h (by simp)
      · rintro ⟨_, _, -, h, -⟩
        exact absurd h hn

/-- A list without repetitions takes one more. -/
theorem nodup_concat (honce : done.Nodup) (hnew : rule ∉ done) : (done ++ [rule]).Nodup := by
  refine List.nodup_append.mpr ⟨honce, by simp, fun a ha b hb hab => hnew ?_⟩
  rw [← List.mem_singleton.mp hb, ← hab]
  exact ha

theorem listed_concat (h : done.length < maxPorts) :
    Function.update (listed out done) ⟨done.length, h⟩ rule = listed out (done ++ [rule]) := by
  funext i
  unfold listed
  by_cases hi : i = ⟨done.length, h⟩
  · subst hi
    simp
  · have hne : i.val ≠ done.length := fun heq => hi (Fin.ext heq)
    rw [Function.update_of_ne hi, List.getElem?_append]
    split
    · rfl
    · have hnone : done[i.val]? = none := List.getElem?_eq_none (by omega)
      rw [hnone, List.getElem?_eq_none (by simp; omega)]

theorem mem_listed (h : done.length ≤ maxPorts) :
    (∃ i : Fin maxPorts, i < done.length ∧ listed out done i = rule) ↔ rule ∈ done := by
  constructor
  · rintro ⟨i, hi, rfl⟩
    simp only [listed, List.getElem?_eq_getElem hi, Option.getD_some]
    exact List.getElem_mem hi
  · intro hmem
    obtain ⟨i, hi, rfl⟩ := List.getElem_of_mem hmem
    exact ⟨⟨i, Nat.lt_of_lt_of_le hi h⟩, hi, by simp [listed, hi]⟩

/-- **The loop reads exactly the lists that may follow what it has read.** -/
theorem parsePortsLoop_ok_iff {r : (Fin maxPorts → PortRule) × BitVec 8} (hfuel : p.length < fuel)
    (hcount : done.length ≤ maxPorts) (honce : done.Nodup) :
    parsePortsLoop fuel p (listed out done) done.length = .ok r ↔
      ∃ rules, PortItems rules p ∧ (done ++ rules).length ≤ maxPorts ∧ (done ++ rules).Nodup ∧
        r = (listed out (done ++ rules), BitVec.ofNat 8 (done ++ rules).length) := by
  induction fuel generalizing p done with
  | zero => exact absurd hfuel (Nat.not_lt_zero _)
  | succ fuel ih =>
    have hnext : ∀ {rule rest more}, parsePort p = .ok (rule, rest) →
        rest.dropWhile isBlank = 44 :: more → ∀ h : done.length < maxPorts, rule ∉ done →
        (parsePortsLoop fuel more (Function.update (listed out done) ⟨done.length, h⟩ rule)
            (done.length + 1) = .ok r ↔
          ∃ rules, PortItems rules more ∧ (done ++ rule :: rules).length ≤ maxPorts ∧
            (done ++ rule :: rules).Nodup ∧
            r = (listed out (done ++ rule :: rules),
              BitVec.ofNat 8 (done ++ rule :: rules).length)) := by
      intro rule rest more hparse hrest h hnew
      have hshort := parsePort_length hparse
      have hblanks := (List.dropWhile_suffix (l := rest) isBlank).length_le
      rw [hrest, List.length_cons] at hblanks
      have hloop := ih (p := more) (by omega)
        (by rw [List.length_append]; exact h)
        (nodup_concat honce hnew)
      rw [listed_concat h]
      simpa using hloop
    rw [parsePortsLoop_step]
    constructor
    · rintro ⟨rule, rest, hparse, h, htwice, hend⟩
      rw [mem_listed hcount] at htwice
      obtain ⟨hrest, rfl⟩ | ⟨more, hrest, hloop⟩ := hend
      · refine ⟨[rule], portItems_iff.mpr ⟨rule, rest, hparse, .inl ⟨hrest, rfl⟩⟩, ?_, ?_, ?_⟩
        · rw [List.length_append]
          exact h
        · exact nodup_concat honce htwice
        · rw [listed_concat h, List.length_append]
          rfl
      · obtain ⟨rules, hitems, hlen, hnodup, rfl⟩ := (hnext hparse hrest h htwice).mp hloop
        exact ⟨rule :: rules, portItems_iff.mpr ⟨rule, rest, hparse,
          .inr ⟨more, rules, hrest, hitems, rfl⟩⟩, hlen, hnodup, rfl⟩
    · rintro ⟨rules, hitems, hlen, hnodup, rfl⟩
      obtain ⟨rule, rest, hparse, hend⟩ := portItems_iff.mp hitems
      have hmem : rule ∈ rules := by
        obtain ⟨-, rfl⟩ | ⟨more, rules', -, -, rfl⟩ := hend <;> simp
      have h : done.length < maxPorts := by
        have := List.length_pos_of_mem hmem
        rw [List.length_append] at hlen
        omega
      have hnew : rule ∉ done := fun hold =>
        (List.nodup_append.mp hnodup).2.2 rule hold rule hmem rfl
      refine ⟨rule, rest, hparse, h, fun htwice => hnew ((mem_listed hcount).mp htwice), ?_⟩
      obtain ⟨hrest, rfl⟩ | ⟨more, rules', hrest, hitems', rfl⟩ := hend
      · refine .inl ⟨hrest, ?_⟩
        rw [listed_concat h, List.length_append]
        rfl
      · exact .inr ⟨more, hrest,
          (hnext hparse hrest h hnew).mpr ⟨rules', hitems', hlen, hnodup, rfl⟩⟩

theorem parsePort_some (h : parsePort p = .ok (rule, rest)) : p.dropWhile isBlank ≠ [] := by
  intro hblank
  obtain ⟨before, digits, suffix, rfl, -, hrule, -⟩ := parsePort_ok_iff.mp h
  obtain ⟨d, ds, rfl⟩ := List.exists_cons_of_ne_nil hrule.present
  have hd := List.dropWhile_eq_nil_iff.mp hblank d (by simp)
  rw [isBlank_of_digit (hrule.decimal d List.mem_cons_self)] at hd
  exact absurd hd (by decide)

@[simp] theorem listed_nil (out : Fin maxPorts → PortRule) : listed out [] = out := rfl

/-- What the parser accepts, and what it makes of it. -/
theorem wanCfgParsePorts_ok_iff {csv : List UInt8} {r : (Fin maxPorts → PortRule) × BitVec 8} :
    wanCfgParsePorts csv out = .ok r ↔
      (Blank csv ∧ r = (out, 0)) ∨
        ∃ rules, PortList rules csv ∧ r = (listed out rules, BitVec.ofNat 8 rules.length) := by
  unfold wanCfgParsePorts
  split
  · rename_i hblank
    constructor
    · intro h
      exact .inl ⟨List.dropWhile_eq_nil_iff.mp hblank, (Except.ok.inj h).symm⟩
    · rintro (⟨-, rfl⟩ | ⟨rules, hlist, -⟩)
      · rfl
      · obtain ⟨rule, rest, hparse, -⟩ := portItems_iff.mp hlist.items
        exact absurd hblank (parsePort_some hparse)
  · rename_i hblank
    have hloop : parsePortsLoop (csv.length + 1) csv (listed out []) [].length = .ok r ↔ _ :=
      parsePortsLoop_ok_iff (Nat.lt_succ_self _) (Nat.zero_le _) List.nodup_nil
    simp only [listed_nil, List.length_nil, List.nil_append] at hloop
    rw [hloop]
    constructor
    · rintro ⟨rules, hitems, hlen, hnodup, rfl⟩
      exact .inr ⟨rules, ⟨hitems, hlen, hnodup⟩, rfl⟩
    · rintro (⟨h, -⟩ | ⟨rules, hlist, rfl⟩)
      · exact absurd (List.dropWhile_eq_nil_iff.mpr h) hblank
      · exact ⟨rules, hlist.items, hlist.count, hlist.once, rfl⟩

/-! ## No store behind the array -/

theorem inArray_update {mem : Nat → PortRule} (h : n < maxPorts) :
    (fun i : Fin maxPorts => Function.update mem n rule i) =
      Function.update (fun i : Fin maxPorts => mem i) ⟨n, h⟩ rule := by
  funext i
  by_cases hi : i = ⟨n, h⟩
  · subst hi
    simp
  · have hne : i.val ≠ n := fun heq => hi (Fin.ext heq)
    rw [Function.update_of_ne hne, Function.update_of_ne hi]

theorem parsePortsLoopAt_eq {mem : Nat → PortRule} (hn : n ≤ maxPorts) :
    parsePortsLoop fuel p (fun i => mem i) n = inArray (parsePortsLoopAt fuel p mem n) ∧
      ∀ i, maxPorts ≤ i → (parsePortsLoopAt fuel p mem n).1 i = mem i := by
  induction fuel generalizing p mem n with
  | zero => exact ⟨rfl, fun _ _ => rfl⟩
  | succ fuel ih =>
    unfold parsePortsLoop parsePortsLoopAt
    cases hparse : parsePort p with
    | error msg => exact ⟨rfl, fun _ _ => rfl⟩
    | ok v =>
      obtain ⟨rule, rest⟩ := v
      simp only [bind, Except.bind, pure, Except.pure, throw, throwThe, MonadExceptOf.throw]
      by_cases hlt : n < maxPorts
      · have hsame : (∃ i : Fin maxPorts, i < n ∧ mem i = rule) ↔ ∃ i < n, mem i = rule :=
          ⟨fun ⟨i, hi⟩ => ⟨i, hi⟩, fun ⟨i, hi⟩ => ⟨⟨i, Nat.lt_trans hi.1 hlt⟩, hi⟩⟩
        rw [dif_pos hlt, if_neg (Nat.not_le.mpr hlt)]
        by_cases htwice : ∃ i < n, mem i = rule
        · rw [if_pos htwice, if_pos (hsame.mpr htwice)]
          exact ⟨rfl, fun _ _ => rfl⟩
        · rw [if_neg htwice, if_neg fun h => htwice (hsame.mp h)]
          have hafar : ∀ i, maxPorts ≤ i → Function.update mem n rule i = mem i := by
            intro i hi
            exact Function.update_of_ne (by omega) _ _
          cases hrest : rest.dropWhile isBlank with
          | nil =>
            refine ⟨?_, hafar⟩
            rw [← inArray_update hlt]
            rfl
          | cons c more =>
            dsimp only
            split
            · rw [← inArray_update hlt]
              obtain ⟨heq, hkeep⟩ := ih (p := more) hlt
              exact ⟨heq, fun i hi => (hkeep i hi).trans (hafar i hi)⟩
            · exact ⟨rfl, hafar⟩
      · rw [dif_neg hlt, if_pos (Nat.le_of_not_lt hlt)]
        exact ⟨rfl, fun _ _ => rfl⟩

/-- The parser is the same in memory, and leaves what is behind its twelve rules alone. -/
theorem wanCfgParsePortsAt_eq (csv : List UInt8) (mem : Nat → PortRule) :
    wanCfgParsePorts csv (fun i => mem i) = inArray (wanCfgParsePortsAt csv mem) ∧
      ∀ i, maxPorts ≤ i → (wanCfgParsePortsAt csv mem).1 i = mem i := by
  unfold wanCfgParsePorts wanCfgParsePortsAt
  split
  · exact ⟨rfl, fun _ _ => rfl⟩
  · exact parsePortsLoopAt_eq (Nat.zero_le _)

/-! ## Printing -/

theorem portText_length (rule : PortRule) : (portText rule).length ≤ 9 := by
  have hport : (decimal rule.port.toNat).length ≤ 5 :=
    Lib.decimal_length (by decide) (Nat.lt_trans rule.port.isLt (by decide))
  have hproto : (protoSuffix rule.proto).length ≤ 4 := by
    unfold protoSuffix
    split <;> decide
  unfold portText
  rw [List.length_append]
  omega

theorem portsText_length (rules : List PortRule) :
    (portsText rules).length ≤ 10 * rules.length := by
  have htail : ∀ rules : List PortRule,
      (rules.flatMap fun rule => 44 :: portText rule).length ≤ 10 * rules.length := by
    intro rules
    induction rules with
    | nil => exact Nat.le_refl _
    | cons rule rules ih =>
      have := portText_length rule
      simp only [List.flatMap_cons, List.length_append, List.length_cons]
      omega
  cases rules with
  | nil => exact Nat.le_refl _
  | cons rule rules =>
    have := portText_length rule
    have := htail rules
    unfold portsText
    simp only [List.length_append, List.length_cons]
    omega

/-- One more `snprintf` into a buffer that holds as much of `whole` as it has room for. -/
theorem take_printed {outsz : Nat} (whole wrote : List UInt8) :
    (if whole.length < outsz then whole.take (outsz - 1) ++ wrote.take (outsz - whole.length - 1)
      else whole.take (outsz - 1)) = (whole ++ wrote).take (outsz - 1) := by
  rw [List.take_append]
  split
  · congr 2
    omega
  · rw [Nat.sub_eq_zero_of_le (show outsz - 1 ≤ whole.length by omega), List.take_zero,
      List.append_nil]

theorem formatPortsLoop_later {outsz i : Nat} (whole : List UInt8) :
    formatPortsLoop outsz (i + 1) rules (whole.take (outsz - 1)) whole.length =
      ((whole ++ rules.flatMap fun rule => 44 :: portText rule).take (outsz - 1),
        (whole ++ rules.flatMap fun rule => 44 :: portText rule).length) := by
  induction rules generalizing whole i with
  | nil => simp [formatPortsLoop]
  | cons rule rules ih =>
    unfold formatPortsLoop
    simp only [Nat.succ_ne_zero, if_false]
    rw [take_printed, ← List.length_append, ih]
    simp [List.append_assoc]

theorem formatPortsLoop_eq (outsz : Nat) :
    formatPortsLoop outsz 0 rules [] 0 =
      ((portsText rules).take (outsz - 1), (portsText rules).length) := by
  cases rules with
  | nil => simp [formatPortsLoop, portsText]
  | cons rule rules =>
    have hlater : formatPortsLoop outsz 1 rules ((portText rule).take (outsz - 1)) _ = _ :=
      formatPortsLoop_later (portText rule)
    have hfirst : (if 0 < outsz then _ else _) = ([] ++ portText rule).take (outsz - 1) :=
      take_printed [] (portText rule)
    simp only [List.take_nil, List.nil_append, List.length_nil] at hfirst
    unfold formatPortsLoop portsText
    simp only [if_true, List.nil_append, Nat.zero_add]
    rw [hfirst, hlater]

/-- A buffer that takes the text takes it whole, with its terminator. -/
theorem wanCfgFormatPorts_eq {cfg : WanCfg} {outsz : Nat}
    (h : (portsText (portRules cfg)).length < outsz) :
    wanCfgFormatPorts cfg outsz =
      (portsText (portRules cfg), (portsText (portRules cfg)).length) := by
  unfold wanCfgFormatPorts
  rw [formatPortsLoop_eq]
  dsimp only
  rw [List.take_of_length_le (by omega), if_neg (by omega)]

/-! ## Reading back -/

/-- A rule that may be in a list. -/
def RuleValid (rule : PortRule) : Prop :=
  rule.port ≠ 0 ∧ (rule.proto = wanProtoTcp ∨ rule.proto = wanProtoUdp)

theorem portItem_portText (h : RuleValid rule) : PortItem rule (portText rule) := by
  have hblank : Blank [] := fun c hc => absurd hc List.not_mem_nil
  have hproto : ProtoText rule.proto (protoSuffix rule.proto) := by
    obtain htcp | hudp := h.2
    · rw [htcp]
      exact .bare
    · rw [hudp]
      exact .udp
  refine ⟨[], decimal rule.port.toNat, protoSuffix rule.proto, [], ?_, hblank, ⟨Lib.decimal_ne_nil,
    fun c hc => Lib.digit_of_mem_decimal hc, Lib.digitsValue_decimal _, h.1, hproto⟩, hblank⟩
  rw [List.append_nil]
  rfl

theorem portItems_portsText (h : ∀ rule ∈ rules, RuleValid rule) (hne : rules ≠ []) :
    PortItems rules (portsText rules) := by
  induction rules with
  | nil => exact absurd rfl hne
  | cons rule rules ih =>
    have hitem := portItem_portText (h rule List.mem_cons_self)
    cases rules with
    | nil =>
      have hone : portsText [rule] = portText rule := List.append_nil _
      rw [hone]
      exact .last hitem
    | cons next rules =>
      have hmore := ih (fun r hr => h r (List.mem_cons_of_mem _ hr)) (List.cons_ne_nil _ _)
      exact .more hitem hmore

theorem ruleError_none {cfg : WanCfg} {i : Fin maxPorts} (h : ruleError cfg i = none)
    (hi : i < cfg.nports.toNat) :
    RuleValid (cfg.ports i) ∧ ∀ j < i, cfg.ports i ≠ cfg.ports j := by
  unfold ruleError at h
  rw [if_neg (Nat.not_le.mpr hi)] at h
  split at h
  · exact absurd h (by simp)
  · rename_i hport
    split at h
    · exact absurd h (by simp)
    · rename_i hproto
      split at h
      · exact absurd h (by simp)
      · rename_i htwice
        refine ⟨⟨hport, ?_⟩, fun j hj heq => htwice ⟨j, hj, heq⟩⟩
        rw [not_and_or, not_not, not_not] at hproto
        exact hproto

section

variable {cfg : WanCfg}

theorem portRules_length (h : cfg.nports.toNat ≤ maxPorts) :
    (portRules cfg).length = cfg.nports.toNat := by
  unfold portRules
  rw [List.length_take, List.length_ofFn]
  omega

theorem portRules_get {i : Nat} (hi : i < (portRules cfg).length) :
    ∃ h : i < maxPorts, (portRules cfg)[i] = cfg.ports ⟨i, h⟩ := by
  have hlt : i < maxPorts := by
    unfold portRules at hi
    rw [List.length_take, List.length_ofFn] at hi
    omega
  exact ⟨hlt, by simp [portRules]⟩

theorem ValidRules.each (h : ValidRules cfg) : ∀ rule ∈ portRules cfg, RuleValid rule := by
  intro rule hmem
  obtain ⟨i, hi, rfl⟩ := List.getElem_of_mem hmem
  obtain ⟨hlt, heq⟩ := portRules_get hi
  rw [portRules_length h.count] at hi
  rw [heq]
  exact (ruleError_none (h.rules ⟨i, hlt⟩) hi).1

theorem ValidRules.once (h : ValidRules cfg) : (portRules cfg).Nodup := by
  refine List.pairwise_iff_getElem.mpr fun i j hi hj hij => ?_
  obtain ⟨hilt, hieq⟩ := portRules_get hi
  obtain ⟨hjlt, hjeq⟩ := portRules_get hj
  rw [portRules_length h.count] at hj
  rw [hieq, hjeq]
  exact fun heq => (ruleError_none (h.rules ⟨j, hjlt⟩) hj).2 ⟨i, hilt⟩ hij heq.symm

/-- What is accepted for a WAN that is on has valid rules. -/
theorem validRules_of_validate (h : wanCfgValidate cfg = none) (hon : cfg.enabled = true) :
    ValidRules cfg := by
  unfold wanCfgValidate at h
  rw [if_neg (by simp [hon])] at h
  split at h
  · exact absurd h (by simp)
  · split at h
    · exact absurd h (by simp)
    · split at h
      · exact absurd h (by simp)
      · split at h
        · exact absurd h (by simp)
        · rename_i hcount
          exact ⟨Nat.le_of_not_lt hcount,
            fun i => List.findSome?_eq_none_iff.mp h i (List.mem_finRange i)⟩

/-- What is printed is a list of the rules, or blank where there are none. -/
theorem wanCfgParsePorts_portsText (h : ValidRules cfg) (out : Fin maxPorts → PortRule) :
    wanCfgParsePorts (portsText (portRules cfg)) out =
      .ok (listed out (portRules cfg), cfg.nports) := by
  have hlen := portRules_length h.count
  rw [wanCfgParsePorts_ok_iff]
  by_cases hne : portRules cfg = []
  · rw [hne]
    rw [hne, List.length_nil] at hlen
    have hzero : cfg.nports = 0 := BitVec.eq_of_toNat_eq hlen.symm
    exact .inl ⟨fun c hc => absurd hc List.not_mem_nil, by rw [hzero]; rfl⟩
  · refine .inr ⟨portRules cfg, ⟨portItems_portsText h.each hne, hlen ▸ h.count, h.once⟩, ?_⟩
    rw [hlen, BitVec.ofNat_toNat, BitVec.setWidth_eq]

/-- The parser takes the grammar and nothing else, stores into its array and nowhere else, and
    takes back what the printer writes, for which there is always room. -/
theorem portList_laws :
    (∀ csv out r, wanCfgParsePorts csv out = .ok r ↔
      (Blank csv ∧ r = (out, 0)) ∨
        ∃ rules, PortList rules csv ∧ r = (listed out rules, BitVec.ofNat 8 rules.length)) ∧
    (∀ csv (mem : Nat → PortRule),
      wanCfgParsePorts csv (fun i => mem i) = inArray (wanCfgParsePortsAt csv mem) ∧
        ∀ i, maxPorts ≤ i → (wanCfgParsePortsAt csv mem).1 i = mem i) ∧
    (∀ cfg, ValidRules cfg → ∃ text, text.length < wanCfgPortsStrMax ∧
      (∀ outsz, wanCfgPortsStrMax ≤ outsz → wanCfgFormatPorts cfg outsz = (text, text.length)) ∧
      ∀ out, wanCfgParsePorts text out = .ok (listed out (portRules cfg), cfg.nports)) := by
  refine ⟨fun csv out r => wanCfgParsePorts_ok_iff, wanCfgParsePortsAt_eq, fun cfg h => ?_⟩
  have hlen := portsText_length (portRules cfg)
  have hcount := h.count
  rw [portRules_length h.count] at hlen
  have hfits : (portsText (portRules cfg)).length < wanCfgPortsStrMax := by
    unfold wanCfgPortsStrMax
    omega
  exact ⟨_, hfits, fun outsz hsz => wanCfgFormatPorts_eq (Nat.lt_of_lt_of_le hfits hsz),
    wanCfgParsePorts_portsText h⟩

end

end

end Web
end Wt32Router
