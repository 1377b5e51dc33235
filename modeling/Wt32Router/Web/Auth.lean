import Wt32Router.Lib.Base64
import Wt32Router.Web.Settings

/-!
# The credentials of a request

`base64_decode` and `check_admin_auth` of `main/web_server.c`. The decoder reads exactly the
base64 texts that fit its buffer (`base64Decode_iff`), so a request passes where its header is
such a text of the credentials; what comes behind a NUL in it is not looked at.
-/

namespace Wt32Router
namespace Web

open Lib (ascii cString strchr)
open Lib.Base64 (Encodes digit encode pad)

def base64DecodeChar (c : UInt8) : Option Nat :=
  if 65 ≤ c ∧ c ≤ 90 then some (c.toNat - 65)
  else if 97 ≤ c ∧ c ≤ 122 then some (c.toNat - 97 + 26)
  else if 48 ≤ c ∧ c ≤ 57 then some (c.toNat - 48 + 52)
  else if c = 43 then some 62
  else if c = 47 then some 63
  else none

/-- The loop over the characters of a group, with `n` of them padding so far: the values, and how
    many are padding. Nothing may follow padding but padding. -/
def groupVals : List UInt8 → Nat → Option (List Nat × Nat)
  | [], n => some ([], n)
  | c :: cs, n =>
      if c = 61 then (groupVals cs (n + 1)).map fun (vals, n) => (0 :: vals, n)
      else if 0 < n then none
      else (base64DecodeChar c).bind fun v =>
        (groupVals cs n).map fun (vals, n) => (v :: vals, n)

/-- The three bytes of four values. -/
def groupBytes : List Nat → List UInt8
  | [v₀, v₁, v₂, v₃] =>
      [UInt8.ofNat (v₀ <<< 2 ||| v₁ >>> 4), UInt8.ofNat (v₁ <<< 4 ||| v₂ >>> 2),
        UInt8.ofNat (v₂ <<< 6 ||| v₃)]
  | _ => []

/-- One group: its bytes, if it is one. Padding stands only in the last. -/
def decodeGroup (group : List UInt8) (last : Bool) : Option (List UInt8) :=
  (groupVals group 0).bind fun (vals, n) =>
    if 2 < n ∨ (0 < n ∧ !last) then none else some ((groupBytes vals).take (3 - n))

/-- The loop over the groups, with room for `room` more bytes. -/
def decodeGroups : Nat → List UInt8 → Option (List UInt8)
  | room, c₀ :: c₁ :: c₂ :: c₃ :: rest =>
      (decodeGroup [c₀, c₁, c₂, c₃] rest.isEmpty).bind fun out =>
        if room < out.length then none
        else (decodeGroups (room - out.length) rest).map (out ++ ·)
  | _, _ => some []

def base64Decode (input : List UInt8) (outCap : Nat) : Option (List UInt8) :=
  if input.length = 0 ∨ input.length % 4 ≠ 0 then none else decodeGroups outCap input

/-- `sizeof(hdr)`. -/
def authHeaderSize : Nat := 160

/-- `sizeof(decoded) - 1`. -/
def authDecodedCap : Nat := authCfgUsernameMaxLen + authCfgPasswordMaxLen - 1

/-- `check_admin_auth`, of the request's `Authorization` header, if it has one. `auth` is what
    `auth_cfg_load` returns. -/
def checkAdminAuth (auth : AuthCfg) (header : Option (List UInt8)) : Bool :=
  match header with
  | none => false
  | some hdr =>
      if hdr.length = 0 ∨ authHeaderSize ≤ hdr.length then false
      else if !(ascii "Basic ").isPrefixOf hdr then false
      else match base64Decode (hdr.drop (ascii "Basic ").length) authDecodedCap with
      | none => false
      | some decoded =>
          match strchr 58 (cString decoded) with
          | none => false
          | some colon =>
              (cString decoded).takeWhile (· ≠ 58) == auth.username &&
                colon.tail == auth.password

/-- The user, a colon and the password. -/
def AuthCfg.credentials (auth : AuthCfg) : List UInt8 := auth.username ++ 58 :: auth.password

section

variable {text bytes out : List UInt8} {c c₀ c₁ c₂ c₃ : UInt8} {v v₀ v₁ v₂ v₃ room : Nat}
  {last : Bool}

/-! ## Digits -/

theorem base64DecodeChar_digit (h : v < 64) : base64DecodeChar (digit v) = some v := by
  have hall : ∀ v < 64, base64DecodeChar (digit v) = some v := by decide +kernel
  exact hall v h

theorem base64DecodeChar_some (h : base64DecodeChar c = some v) : v < 64 ∧ digit v = c := by
  have hall : ∀ n : Fin 256, ∀ v ∈ base64DecodeChar (UInt8.ofNat n), v < 64 ∧
      digit v = UInt8.ofNat n := by
    decide +kernel
  have hc : UInt8.ofNat c.toNat = c := UInt8.ofNat_toNat
  have hthis := hall ⟨c.toNat, c.toNat_lt⟩ v
  rw [hc] at hthis
  exact hthis h

theorem digit_ne_pad (h : v < 64) : digit v ≠ 61 := by
  have hall : ∀ v < 64, digit v ≠ 61 := by decide +kernel
  exact hall v h

/-! ## Groups -/

/-- The first character of a group is padding, or a digit with no padding before it. -/
theorem groupVals_cons {cs : List UInt8} {n m : Nat} {vals : List Nat}
    (h : groupVals (c :: cs) n = some (vals, m)) :
    (c = 61 ∧ ∃ vals', groupVals cs (n + 1) = some (vals', m) ∧ vals = 0 :: vals') ∨
      (n = 0 ∧ ∃ v vals', base64DecodeChar c = some v ∧ groupVals cs 0 = some (vals', m) ∧
        vals = v :: vals') := by
  unfold groupVals at h
  split at h
  · rename_i hc
    obtain ⟨⟨vals', m'⟩, hcs, heq⟩ := Option.map_eq_some_iff.mp h
    obtain ⟨rfl, rfl⟩ := Prod.mk.inj heq
    exact .inl ⟨hc, vals', hcs, rfl⟩
  · split at h
    · exact absurd h (by simp)
    · rename_i hn
      obtain rfl : n = 0 := by omega
      obtain ⟨v, hv, hmap⟩ := Option.bind_eq_some_iff.mp h
      obtain ⟨⟨vals', m'⟩, hcs, heq⟩ := Option.map_eq_some_iff.mp hmap
      obtain ⟨rfl, rfl⟩ := Prod.mk.inj heq
      exact .inr ⟨rfl, v, vals', hv, hcs, rfl⟩

theorem groupVals_padding {cs : List UInt8} {n m : Nat} {vals : List Nat} (hn : 0 < n)
    (h : groupVals cs n = some (vals, m)) :
    m = n + cs.length ∧ (∀ c ∈ cs, c = 61) ∧ vals = List.replicate cs.length 0 := by
  induction cs generalizing n m vals with
  | nil =>
    obtain ⟨rfl, rfl⟩ := Prod.mk.inj (Option.some.inj h)
    exact ⟨rfl, fun c hc => absurd hc List.not_mem_nil, rfl⟩
  | cons c cs ih =>
    obtain ⟨hc, vals', hcs, rfl⟩ | ⟨rfl, -⟩ := groupVals_cons h
    · obtain ⟨rfl, hall, rfl⟩ := ih (Nat.succ_pos n) hcs
      exact ⟨by rw [List.length_cons]; omega, List.forall_mem_cons.mpr ⟨hc, hall⟩, rfl⟩
    · exact absurd hn (Nat.lt_irrefl 0)

/-- A character of a group that has no padding yet is padding, with all that follow it, or a
    digit. -/
theorem groupVals_cases {cs : List UInt8} {m : Nat} {vals : List Nat}
    (h : groupVals (c :: cs) 0 = some (vals, m)) :
    (m = cs.length + 1 ∧ (∀ d ∈ c :: cs, d = 61) ∧ vals = List.replicate (cs.length + 1) 0) ∨
      ∃ v vals', v < 64 ∧ c = digit v ∧ groupVals cs 0 = some (vals', m) ∧ vals = v :: vals' := by
  obtain ⟨hc, vals', hcs, rfl⟩ | ⟨-, v, vals', hv, hcs, rfl⟩ := groupVals_cons h
  · obtain ⟨rfl, hall, rfl⟩ := groupVals_padding Nat.one_pos hcs
    exact .inl ⟨Nat.add_comm _ _, List.forall_mem_cons.mpr ⟨hc, hall⟩, rfl⟩
  · obtain ⟨hlt, hdigit⟩ := base64DecodeChar_some hv
    exact .inr ⟨v, vals', hlt, hdigit.symm, hcs, rfl⟩

theorem groupVals_digit (h : v < 64) (cs : List UInt8) :
    groupVals (digit v :: cs) 0 = (groupVals cs 0).map fun r => (v :: r.1, r.2) := by
  rw [groupVals, if_neg (digit_ne_pad h), if_neg (by decide), base64DecodeChar_digit h]
  rfl

/-- The values of a group with one or two characters of padding, or none. -/
theorem groupVals_some {vals : List Nat} {n : Nat}
    (h : groupVals [c₀, c₁, c₂, c₃] 0 = some (vals, n)) (hn : n ≤ 2) :
    ∃ v₀ v₁ v₂ v₃, vals = [v₀, v₁, v₂, v₃] ∧ (v₀ < 64 ∧ v₁ < 64 ∧ v₂ < 64 ∧ v₃ < 64) ∧
      c₀ = digit v₀ ∧ c₁ = digit v₁ ∧
      ((n = 0 ∧ c₂ = digit v₂ ∧ c₃ = digit v₃) ∨ (n = 1 ∧ c₂ = digit v₂ ∧ c₃ = pad ∧ v₃ = 0) ∨
        (n = 2 ∧ c₂ = pad ∧ c₃ = pad ∧ v₂ = 0 ∧ v₃ = 0)) := by
  obtain ⟨hm, -⟩ | ⟨v₀, vals₀, h₀, rfl, hrest₀, rfl⟩ := groupVals_cases h
  · simp only [List.length_cons] at hm
    omega
  obtain ⟨hm, -⟩ | ⟨v₁, vals₁, h₁, rfl, hrest₁, rfl⟩ := groupVals_cases hrest₀
  · simp only [List.length_cons] at hm
    omega
  obtain ⟨hm, hall, rfl⟩ | ⟨v₂, vals₂, h₂, rfl, hrest₂, rfl⟩ := groupVals_cases hrest₁
  · exact ⟨v₀, v₁, 0, 0, rfl, ⟨h₀, h₁, by decide, by decide⟩, rfl, rfl,
      .inr (.inr ⟨hm, hall c₂ (by simp), hall c₃ (by simp), rfl, rfl⟩)⟩
  obtain ⟨hm, hall, rfl⟩ | ⟨v₃, vals₃, h₃, rfl, hrest₃, rfl⟩ := groupVals_cases hrest₂
  · exact ⟨v₀, v₁, v₂, 0, rfl, ⟨h₀, h₁, h₂, by decide⟩, rfl, rfl,
      .inr (.inl ⟨hm, rfl, hall c₃ (by simp), rfl⟩)⟩
  obtain ⟨rfl, hm⟩ := Prod.mk.inj (Option.some.inj hrest₃)
  exact ⟨v₀, v₁, v₂, v₃, rfl, ⟨h₀, h₁, h₂, h₃⟩, rfl, rfl, .inl ⟨hm.symm, rfl, rfl⟩⟩

/-- A shift up and one down do not overlap. -/
theorem groupByte_toNat {x y i : Nat} (h : y < 2 ^ i) :
    (UInt8.ofNat (x <<< i ||| y)).toNat = (x * 2 ^ i + y) % 256 := by
  rw [← Nat.shiftLeft_add_eq_or_of_lt h, Nat.shiftLeft_eq, UInt8.toNat_ofNat']

/-- The digits of the bytes of a group are the digits of the group. -/
theorem groupBytes_digits (h₀ : v₀ < 64) (h₁ : v₁ < 64) (h₂ : v₂ < 64) (h₃ : v₃ < 64) :
    ∃ a b c, groupBytes [v₀, v₁, v₂, v₃] = [a, b, c] ∧ a.toNat / 4 = v₀ ∧
      a.toNat % 4 = v₁ / 16 ∧ b.toNat / 16 = v₁ % 16 ∧ b.toNat % 16 = v₂ / 4 ∧
      c.toNat / 64 = v₂ % 4 ∧ c.toNat % 64 = v₃ := by
  have ha : (UInt8.ofNat (v₀ <<< 2 ||| v₁ >>> 4)).toNat = (v₀ * 2 ^ 2 + v₁ / 2 ^ 4) % 256 := by
    rw [Nat.shiftRight_eq_div_pow v₁]
    exact groupByte_toNat (by omega)
  have hb : (UInt8.ofNat (v₁ <<< 4 ||| v₂ >>> 2)).toNat = (v₁ * 2 ^ 4 + v₂ / 2 ^ 2) % 256 := by
    rw [Nat.shiftRight_eq_div_pow v₂]
    exact groupByte_toNat (by omega)
  have hc : (UInt8.ofNat (v₂ <<< 6 ||| v₃)).toNat = (v₂ * 2 ^ 6 + v₃) % 256 :=
    groupByte_toNat h₃
  exact ⟨_, _, _, rfl, by omega, by omega, by omega, by omega, by omega, by omega⟩

theorem groupBytes_eq (a b c : UInt8) :
    groupBytes [a.toNat / 4, a.toNat % 4 * 16 + b.toNat / 16, b.toNat % 16 * 4 + c.toNat / 64,
      c.toNat % 64] = [a, b, c] := by
  have ha := a.toNat_lt
  have hb := b.toNat_lt
  have hc := c.toNat_lt
  obtain ⟨a', b', c', hbytes, h₁, h₂, h₃, h₄, h₅, h₆⟩ := groupBytes_digits
    (show a.toNat / 4 < 64 by omega) (show a.toNat % 4 * 16 + b.toNat / 16 < 64 by omega)
    (show b.toNat % 16 * 4 + c.toNat / 64 < 64 by omega) (show c.toNat % 64 < 64 by omega)
  have hab : a' = a := UInt8.toNat_inj.mp (by omega)
  have hbb : b' = b := UInt8.toNat_inj.mp (by omega)
  have hcc : c' = c := UInt8.toNat_inj.mp (by omega)
  rw [hbytes, hab, hbb, hcc]

/-- A group that encodes what it decodes to. -/
theorem decodeGroup_three (a b c : UInt8) :
    decodeGroup [digit (a.toNat / 4), digit (a.toNat % 4 * 16 + b.toNat / 16),
      digit (b.toNat % 16 * 4 + c.toNat / 64), digit (c.toNat % 64)] last = some [a, b, c] := by
  have ha := a.toNat_lt
  have hb := b.toNat_lt
  have hc := c.toNat_lt
  have hvals : groupVals [digit (a.toNat / 4), digit (a.toNat % 4 * 16 + b.toNat / 16),
      digit (b.toNat % 16 * 4 + c.toNat / 64), digit (c.toNat % 64)] 0 =
      some ([a.toNat / 4, a.toNat % 4 * 16 + b.toNat / 16, b.toNat % 16 * 4 + c.toNat / 64,
        c.toNat % 64], 0) := by
    rw [groupVals_digit (by omega), groupVals_digit (by omega), groupVals_digit (by omega),
      groupVals_digit (by omega)]
    rfl
  unfold decodeGroup
  rw [hvals, Option.bind_some]
  simp [groupBytes_eq]

theorem decodeGroup_two (a b : UInt8) {x : Nat} (hx : x < 4) :
    decodeGroup [digit (a.toNat / 4), digit (a.toNat % 4 * 16 + b.toNat / 16),
      digit (b.toNat % 16 * 4 + x), pad] true = some [a, b] := by
  have ha := a.toNat_lt
  have hb := b.toNat_lt
  have hlow : (UInt8.ofNat (x * 64)).toNat = x * 64 := by
    rw [UInt8.toNat_ofNat']
    omega
  have hvals : groupVals [digit (a.toNat / 4), digit (a.toNat % 4 * 16 + b.toNat / 16),
      digit (b.toNat % 16 * 4 + x), pad] 0 =
      some ([a.toNat / 4, a.toNat % 4 * 16 + b.toNat / 16, b.toNat % 16 * 4 + x, 0], 1) := by
    rw [groupVals_digit (by omega), groupVals_digit (by omega), groupVals_digit (by omega)]
    rfl
  have hbytes := groupBytes_eq a b (UInt8.ofNat (x * 64))
  rw [hlow, Nat.mul_div_cancel x (by decide), Nat.mul_mod_left] at hbytes
  unfold decodeGroup
  rw [hvals, Option.bind_some]
  simp [hbytes]

theorem decodeGroup_one (a : UInt8) {x : Nat} (hx : x < 16) :
    decodeGroup [digit (a.toNat / 4), digit (a.toNat % 4 * 16 + x), pad, pad] true =
      some [a] := by
  have ha := a.toNat_lt
  have hlow : (UInt8.ofNat (x * 16)).toNat = x * 16 := by
    rw [UInt8.toNat_ofNat']
    omega
  have hvals : groupVals [digit (a.toNat / 4), digit (a.toNat % 4 * 16 + x), pad, pad] 0 =
      some ([a.toNat / 4, a.toNat % 4 * 16 + x, 0, 0], 2) := by
    rw [groupVals_digit (by omega), groupVals_digit (by omega)]
    rfl
  have hbytes := groupBytes_eq a (UInt8.ofNat (x * 16)) 0
  rw [hlow, Nat.mul_div_cancel x (by decide), Nat.mul_mod_left] at hbytes
  unfold decodeGroup
  rw [hvals, Option.bind_some]
  simpa using congrArg (List.take 1) hbytes

/-- One group of a text, the last or another. -/
theorem decodeGroup_iff :
    decodeGroup [c₀, c₁, c₂, c₃] last = some out ↔
      Encodes [c₀, c₁, c₂, c₃] out ∧ (out.length = 3 ∨ last = true) := by
  constructor
  · intro h
    obtain ⟨⟨vals, n⟩, hvals, hout⟩ := Option.bind_eq_some_iff.mp h
    dsimp only at hout
    split at hout
    · exact absurd hout (by simp)
    · rename_i hpad
      obtain rfl := Option.some.inj hout
      rw [not_or] at hpad
      obtain ⟨v₀, v₁, v₂, v₃, rfl, ⟨h₀, h₁, h₂, h₃⟩, rfl, rfl, hrest⟩ :=
        groupVals_some hvals (Nat.le_of_not_lt hpad.1)
      obtain ⟨a, b, c, hbytes, ha, ha', hb, hb', hc, hc'⟩ := groupBytes_digits h₀ h₁ h₂ h₃
      rw [hbytes]
      have hv₁ : a.toNat % 4 * 16 + b.toNat / 16 = v₁ := by omega
      have hv₂ : b.toNat % 16 * 4 + c.toNat / 64 = v₂ := by omega
      obtain ⟨rfl, rfl, rfl⟩ | ⟨rfl, rfl, rfl, -⟩ | ⟨rfl, rfl, rfl, -, -⟩ := hrest
      · refine ⟨?_, .inl rfl⟩
        rw [← ha, ← hv₁, ← hv₂, ← hc']
        exact .three a b c .nil
      · refine ⟨?_, .inr (by simpa using hpad.2)⟩
        rw [← ha, ← hv₁, ← hv₂]
        exact .two a b _ (by have := c.toNat_lt; omega)
      · refine ⟨?_, .inr (by simpa using hpad.2)⟩
        rw [← ha, ← hv₁]
        exact .one a _ (by have := b.toNat_lt; omega)
  · rintro ⟨henc, hlast⟩
    cases henc with
    | three a b c hrest =>
      cases hrest
      exact decodeGroup_three a b c
    | two a b x hx =>
      obtain rfl : last = true := hlast.resolve_left (by simp)
      exact decodeGroup_two a b hx
    | one a x hx =>
      obtain rfl : last = true := hlast.resolve_left (by simp)
      exact decodeGroup_one a hx

/-! ## Texts -/

/-- A group of three bytes in front of a text. -/
theorem encodes_append {more : List UInt8} (h : Encodes [c₀, c₁, c₂, c₃] out)
    (hthree : out.length = 3) (htext : Encodes text more) :
    Encodes (c₀ :: c₁ :: c₂ :: c₃ :: text) (out ++ more) := by
  cases h with
  | three a b c hrest =>
    cases hrest
    exact .three a b c htext
  | two a b x hx => exact absurd hthree (by simp)
  | one a x hx => exact absurd hthree (by simp)

/-- The first group of a text, and the rest. -/
theorem encodes_group (h : Encodes (c₀ :: c₁ :: c₂ :: c₃ :: text) bytes) :
    ∃ out more, bytes = out ++ more ∧ Encodes [c₀, c₁, c₂, c₃] out ∧
      (out.length = 3 ∨ text = []) ∧ Encodes text more := by
  cases h with
  | three a b c hrest => exact ⟨[a, b, c], _, rfl, .three a b c .nil, .inl rfl, hrest⟩
  | two a b x hx => exact ⟨[a, b], [], rfl, .two a b x hx, .inr rfl, .nil⟩
  | one a x hx => exact ⟨[a], [], rfl, .one a x hx, .inr rfl, .nil⟩

theorem decodeGroups_iff (h : text.length % 4 = 0) :
    decodeGroups room text = some bytes ↔ Encodes text bytes ∧ bytes.length ≤ room := by
  induction room, text using decodeGroups.induct generalizing bytes with
  | case1 room c₀ c₁ c₂ c₃ rest ih =>
    have hrest : rest.length % 4 = 0 := by
      simp only [List.length_cons] at h
      omega
    unfold decodeGroups
    constructor
    · intro hdecode
      obtain ⟨out, hout, hmore⟩ := Option.bind_eq_some_iff.mp hdecode
      split at hmore
      · exact absurd hmore (by simp)
      · rename_i hroom
        obtain ⟨more, hdecode', rfl⟩ := Option.map_eq_some_iff.mp hmore
        obtain ⟨hencodes, hlast⟩ := decodeGroup_iff.mp hout
        obtain ⟨hthis, hlen⟩ := (ih out hrest).mp hdecode'
        rw [List.length_append]
        refine ⟨?_, by omega⟩
        obtain hthree | hlast := hlast
        · exact encodes_append hencodes hthree hthis
        · obtain rfl := List.isEmpty_iff.mp hlast
          cases hthis
          rw [List.append_nil]
          exact hencodes
    · rintro ⟨hencodes, hlen⟩
      obtain ⟨out, more, rfl, hgroup, hlast, hthis⟩ := encodes_group hencodes
      rw [List.length_append] at hlen
      rw [decodeGroup_iff.mpr ⟨hgroup, hlast.imp_right fun hnil => by rw [hnil]; rfl⟩,
        Option.bind_some, if_neg (by omega), (ih out hrest).mpr ⟨hthis, by omega⟩]
      rfl
  | case2 text room hshort =>
    obtain rfl : text = [] := by
      match text, h with
      | [], _ => rfl
      | c₀ :: c₁ :: c₂ :: c₃ :: rest, _ => exact (hshort c₀ c₁ c₂ c₃ rest rfl).elim
    constructor
    · intro hdecode
      obtain rfl := Option.some.inj hdecode
      exact ⟨.nil, Nat.zero_le room⟩
    · rintro ⟨hencodes, -⟩
      cases hencodes
      rfl

/-- A text stands for one text only. -/
theorem encodes_unique {more : List UInt8} (h : Encodes text bytes) (hmore : Encodes text more) :
    more = bytes := by
  have hlen : text.length % 4 = 0 := by
    have hthis := h.length
    omega
  have hdecode := (decodeGroups_iff hlen).mpr ⟨h, Nat.le_max_left _ more.length⟩
  have hdecode' := (decodeGroups_iff hlen).mpr ⟨hmore, Nat.le_max_right bytes.length _⟩
  exact Option.some.inj (hdecode'.symm.trans hdecode)

theorem base64Decode_iff {cap : Nat} (hne : bytes ≠ []) :
    base64Decode text cap = some bytes ↔ Encodes text bytes ∧ bytes.length ≤ cap := by
  unfold base64Decode
  by_cases hlen : text.length = 0 ∨ text.length % 4 ≠ 0
  · rw [if_pos hlen]
    refine ⟨fun h => absurd h (by simp), ?_⟩
    rintro ⟨hencodes, -⟩
    have hthis := hencodes.length
    have hpos := List.length_pos_iff.mpr hne
    omega
  · rw [if_neg hlen]
    rw [not_or, not_ne_iff] at hlen
    exact decodeGroups_iff hlen.2

end

/-! ## The header -/

section

variable {auth : AuthCfg} {hdr bytes : List UInt8}

/-- The header of a text. -/
def basicHeader (text : List UInt8) : List UInt8 := ascii "Basic " ++ text

/-- A text is its run of characters other than `c`, with nothing behind it or `c` and more. -/
theorem run_or_found (c : UInt8) (text : List UInt8) :
    (text.takeWhile (· ≠ c) = text ∧ c ∉ text) ∨
      ∃ rest, text = text.takeWhile (· ≠ c) ++ c :: rest ∧ strchr c text = some (c :: rest) := by
  rcases Lib.strchr_cases c text with ⟨hno, -⟩ | ⟨rest, hfound, hsplit⟩
  · refine .inl ⟨List.takeWhile_eq_self_iff.mpr fun d hd => ?_, hno⟩
    exact decide_eq_true fun h => hno (h ▸ hd)
  · exact .inr ⟨rest, hsplit, hfound⟩

/-- The string in `bytes` is what stands before the first NUL. -/
theorem cString_eq_iff {text : List UInt8} (h : 0 ∉ text) :
    cString bytes = text ↔ bytes = text ∨ ∃ junk, bytes = text ++ 0 :: junk := by
  have hrun : ∀ c ∈ text, decide (c ≠ 0) = true := fun c hc =>
    decide_eq_true fun h0 => h (h0 ▸ hc)
  constructor
  · rintro rfl
    exact (run_or_found 0 bytes).imp (fun hall => hall.1.symm) fun ⟨rest, hrest, _⟩ =>
      ⟨rest, hrest⟩
  · rintro (rfl | ⟨junk, rfl⟩)
    · exact List.takeWhile_eq_self_iff.mpr hrun
    · exact Lib.takeWhile_run hrun rfl

/-- The text splits into the user and the password at its first colon. -/
theorem userAndPassword_iff {text : List UInt8} :
    (match strchr 58 text with
      | none => false
      | some colon => text.takeWhile (· ≠ 58) == auth.username &&
          colon.tail == auth.password) = true ↔
      58 ∉ auth.username ∧ text = auth.credentials := by
  constructor
  · intro h
    obtain ⟨-, hnone⟩ | ⟨rest, htext, hfound⟩ := run_or_found 58 text
    · rw [Lib.strchr_none hnone] at h
      exact absurd h (by simp)
    · rw [hfound] at h
      simp only [List.tail_cons, Bool.and_eq_true, beq_iff_eq] at h
      obtain ⟨huser, rfl⟩ := h
      rw [huser] at htext
      refine ⟨fun hcolon => ?_, htext⟩
      rw [← huser] at hcolon
      simpa using List.mem_takeWhile_imp hcolon
  · rintro ⟨hcolon, rfl⟩
    have hrun : ∀ c ∈ auth.username, decide (c ≠ 58) = true := fun c hc =>
      decide_eq_true fun h => hcolon (h ▸ hc)
    have htake : auth.credentials.takeWhile (· ≠ 58) = auth.username :=
      Lib.takeWhile_run hrun rfl
    have hfound : strchr 58 auth.credentials = some (58 :: auth.password) :=
      Lib.strchr_append hcolon
    rw [hfound]
    dsimp only
    rw [htake]
    simp

theorem AuthCfg.credentials_ne_nil : auth.credentials ≠ [] :=
  List.append_ne_nil_of_right_ne_nil _ (List.cons_ne_nil _ _)

/-- What a request shows to pass: a base64 text that fits the buffer and is the string of the
    credentials. -/
theorem checkAdminAuth_iff : checkAdminAuth auth (some hdr) = true ↔ 58 ∉ auth.username ∧
    ∃ text bytes, hdr = basicHeader text ∧ Encodes text bytes ∧ bytes.length ≤ authDecodedCap ∧
      cString bytes = auth.credentials := by
  have hne : ∀ {bytes}, cString bytes = auth.credentials → bytes ≠ [] := by
    rintro bytes hstring rfl
    exact auth.credentials_ne_nil hstring.symm
  constructor
  · intro h
    unfold checkAdminAuth at h
    dsimp only at h
    split at h
    · exact absurd h (by simp)
    split at h
    · exact absurd h (by simp)
    rename_i hlen hmatch
    split at h
    · exact absurd h (by simp)
    rename_i decoded hdecoded
    obtain ⟨hcolon, hstring⟩ := userAndPassword_iff.mp h
    obtain ⟨hencodes, hcap⟩ := (base64Decode_iff (hne hstring)).mp hdecoded
    obtain ⟨text, rfl⟩ : ascii "Basic " <+: hdr := by simpa using hmatch
    rw [List.drop_left] at hencodes
    exact ⟨hcolon, text, decoded, rfl, hencodes, hcap, hstring⟩
  · rintro ⟨hcolon, text, bytes, rfl, hencodes, hcap, hstring⟩
    have hlen := hencodes.length
    have hsize : (basicHeader text).length = 6 + text.length := List.length_append
    have hcap' : bytes.length ≤ 95 := hcap
    unfold checkAdminAuth
    dsimp only
    rw [if_neg (by rw [hsize]; unfold authHeaderSize; omega),
      if_neg (by simp [basicHeader, List.isPrefixOf_iff_prefix]),
      show (basicHeader text).drop (ascii "Basic ").length = text from List.drop_left,
      (base64Decode_iff (hne hstring)).mpr ⟨hencodes, hcap⟩]
    exact userAndPassword_iff.mpr ⟨hcolon, hstring⟩

/-- A header that shows the credentials, with a NUL and more behind them. -/
def Trailing (auth : AuthCfg) (hdr : List UInt8) : Prop :=
  ∃ text junk, hdr = basicHeader text ∧ Encodes text (auth.credentials ++ 0 :: junk) ∧
    (auth.credentials ++ 0 :: junk).length ≤ authDecodedCap

theorem credentials_fit (h : authCfgValidate auth.username auth.password = none) :
    auth.credentials.length ≤ authDecodedCap := by
  unfold authCfgValidate at h
  split at h
  · exact absurd h (by simp)
  split at h
  · exact absurd h (by simp)
  rename_i huser hpassword
  unfold AuthCfg.credentials authDecodedCap
  rw [List.length_append, List.length_cons]
  unfold authCfgUsernameMaxLen at huser ⊢
  unfold authCfgPasswordMaxLen at hpassword ⊢
  omega

/-- A header that shows the credentials passes, as does one that has a NUL and more behind them. -/
theorem trailing_passes (hcolon : 58 ∉ auth.username) (hstring : 0 ∉ auth.credentials)
    (h : Trailing auth hdr) : checkAdminAuth auth (some hdr) = true := by
  obtain ⟨text, junk, rfl, hencodes, hcap⟩ := h
  exact checkAdminAuth_iff.mpr ⟨hcolon, text, _, rfl, hencodes, hcap,
    (cString_eq_iff hstring).mpr (.inr ⟨junk, rfl⟩)⟩

/-- The credentials that the check of the settings accepts are the ones that work, where the user
    has no colon; and what passes is their text, where nothing stands behind a NUL in it. -/
theorem credentials_work_iff (auth : AuthCfg) (hdr : List UInt8)
    (hvalid : authCfgValidate auth.username auth.password = none)
    (hstring : 0 ∉ auth.credentials) :
    ((checkAdminAuth auth (some (basicHeader (encode auth.credentials))) = true ∧
      (checkAdminAuth auth (some hdr) = true →
        ∃ text, hdr = basicHeader text ∧ Encodes text auth.credentials)) ↔
      58 ∉ auth.username ∧ ¬Trailing auth hdr) ∧
    (checkAdminAuth auth (some hdr) = true →
      ∃ text bytes, hdr = basicHeader text ∧ Encodes text bytes ∧
        cString bytes = auth.credentials) := by
  refine ⟨⟨?_, ?_⟩, ?_⟩
  · rintro ⟨hworks, hexact⟩
    obtain ⟨hcolon, -⟩ := checkAdminAuth_iff.mp hworks
    refine ⟨hcolon, fun htrailing => ?_⟩
    obtain ⟨text, heq, hencodes⟩ := hexact (trailing_passes hcolon hstring htrailing)
    obtain ⟨text', junk, heq', hencodes', -⟩ := htrailing
    obtain rfl : text = text' := List.append_cancel_left (heq.symm.trans heq')
    exact absurd (encodes_unique hencodes hencodes') (by simp)
  · rintro ⟨hcolon, htrailing⟩
    refine ⟨checkAdminAuth_iff.mpr ⟨hcolon, _, _, rfl, Lib.Base64.encode_encodes _,
      credentials_fit hvalid, (cString_eq_iff hstring).mpr (.inl rfl)⟩, fun hpass => ?_⟩
    obtain ⟨-, text, bytes, rfl, hencodes, hcap, hbytes⟩ := checkAdminAuth_iff.mp hpass
    obtain rfl | ⟨junk, rfl⟩ := (cString_eq_iff hstring).mp hbytes
    · exact ⟨text, rfl, hencodes⟩
    · exact absurd ⟨text, junk, rfl, hencodes, hcap⟩ htrailing
  · intro hpass
    obtain ⟨-, text, bytes, rfl, hencodes, -, hbytes⟩ := checkAdminAuth_iff.mp hpass
    exact ⟨text, bytes, rfl, hencodes, hbytes⟩

end

/-- A user and a password as someone may choose them. -/
def someAuth : AuthCfg := ⟨ascii "farm", ascii "tractor"⟩

theorem credentials_work_farm :
    (checkAdminAuth someAuth (some (basicHeader (encode someAuth.credentials))) = true ∧
      (checkAdminAuth someAuth (some (ascii "Basic ZmFybTp0cmFjdG9y")) = true →
        ∃ text, ascii "Basic ZmFybTp0cmFjdG9y" = basicHeader text ∧
          Encodes text someAuth.credentials)) ↔
      58 ∉ someAuth.username ∧ ¬Trailing someAuth (ascii "Basic ZmFybTp0cmFjdG9y") :=
  (credentials_work_iff someAuth (ascii "Basic ZmFybTp0cmFjdG9y") (by decide) (by decide)).1

example : encode someAuth.credentials = ascii "ZmFybTp0cmFjdG9y" := by decide +kernel

/-- A user with a colon is saved, and locked out. -/
theorem credentials_work_fails : ∃ auth : AuthCfg,
    authCfgValidate auth.username auth.password = none ∧ 0 ∉ auth.credentials ∧
      checkAdminAuth auth (some (basicHeader (encode auth.credentials))) = false :=
  ⟨⟨ascii "farm:1", ascii "tractor"⟩, by decide, by decide, by decide +kernel⟩

end Web
end Wt32Router
