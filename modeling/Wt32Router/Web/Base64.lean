import Wt32Router.Lib.Memory
import Wt32Router.Web.Auth

/-!
# `base64_decode` in memory

`Web/Auth.lean` has the decoder on values: the bytes, or nothing. The function writes them into a
buffer as it goes, with a test of the room before each byte, and where it fails it leaves what it
has written. Here the buffer is memory, and what lies behind its end is memory too.

> **`base64_decode_ok`**: the encoding of what fits is decoded to it; a text of the wrong length,
> with a character of no digit or with padding elsewhere than at its end is refused; and no text
> makes the function write behind the buffer.
-/

namespace Wt32Router
namespace Web

open Lib (Memory load store store_append store_frame load_store)
open Lib.Base64 (Encodes digit encode encode_encodes pad)

/-- The three `if`s at the end of a group: each byte where there is room for it. The answer is
    `written`, if none was refused. -/
def writeOut (outCap : Nat) : Memory → Nat → List UInt8 → Memory × Option Nat
  | out, written, [] => (out, some written)
  | out, written, b :: bs =>
      if outCap ≤ written then (out, none)
      else writeOut outCap (Function.update out written b) (written + 1) bs

/-- The loop over the groups. -/
def decodeInto (outCap : Nat) : Memory → Nat → List UInt8 → Memory × Option Nat
  | out, written, c₀ :: c₁ :: c₂ :: c₃ :: rest =>
      match decodeGroup [c₀, c₁, c₂, c₃] rest.isEmpty with
      | none => (out, none)
      | some bytes =>
          match writeOut outCap out written bytes with
          | (out, none) => (out, none)
          | (out, some written) => decodeInto outCap out written rest
  | out, written, _ => (out, some written)

/-- `base64_decode`: what it leaves in memory, and `*out_len` where it answers true. -/
def base64DecodeInto (input : List UInt8) (outCap : Nat) (out : Memory) : Memory × Option Nat :=
  if input.length = 0 ∨ input.length % 4 ≠ 0 then (out, none) else decodeInto outCap out 0 input

/-- Padding stands at the end only, and is two characters at most. -/
def PaddedAtEnd (text : List UInt8) : Prop :=
  ∃ body n, n ≤ 2 ∧ pad ∉ body ∧ text = body ++ List.replicate n pad

section

variable {text bytes bs : List UInt8} {out : Memory} {written cap j : Nat}

/-! ## Memory -/

/-- Bytes that fit are written, and the others are not looked at. -/
theorem writeOut_eq (hfits : written + bs.length ≤ cap) :
    writeOut cap out written bs = (store out written bs, some (written + bs.length)) := by
  induction bs generalizing out written with
  | nil => rfl
  | cons b bs ih =>
    rw [List.length_cons] at hfits
    rw [writeOut, if_neg (by omega), ih (by omega), List.length_cons, store, Nat.add_assoc,
      Nat.add_comm 1]

theorem writeOut_none (hover : cap < written + bs.length) (hle : written ≤ cap) :
    (writeOut cap out written bs).2 = none := by
  induction bs generalizing out written with
  | nil => exact absurd hover (by simpa using hle)
  | cons b bs ih =>
    rw [List.length_cons] at hover
    unfold writeOut
    split
    · rfl
    · exact ih (by omega) (by omega)

theorem writeOut_frame (hj : cap ≤ j) : (writeOut cap out written bs).1 j = out j := by
  induction bs generalizing out written with
  | nil => rfl
  | cons b bs ih =>
    unfold writeOut
    split
    · rfl
    · rename_i hroom
      rw [ih, Function.update_of_ne (by omega)]

/-- A turn of the loop, once the group is decoded. -/
theorem decodeInto_group {c₀ c₁ c₂ c₃ : UInt8} {rest : List UInt8}
    (hgroup : decodeGroup [c₀, c₁, c₂, c₃] rest.isEmpty = some bytes) :
    decodeInto cap out written (c₀ :: c₁ :: c₂ :: c₃ :: rest) =
      match writeOut cap out written bytes with
      | (out, none) => (out, none)
      | (out, some written) => decodeInto cap out written rest := by
  rw [decodeInto, hgroup]

/-- **Nothing is written behind the buffer.** -/
theorem decodeInto_frame (hj : cap ≤ j) : (decodeInto cap out written text).1 j = out j := by
  induction out, written, text using decodeInto.induct cap with
  | case1 out written c₀ c₁ c₂ c₃ rest hgroup =>
    rw [decodeInto, hgroup]
  | case2 out written c₀ c₁ c₂ c₃ rest bytes hgroup out' hwrite =>
    have hframe : (writeOut cap out written bytes).1 j = out j := writeOut_frame hj
    rw [hwrite] at hframe
    rw [decodeInto_group hgroup, hwrite]
    exact hframe
  | case3 out written c₀ c₁ c₂ c₃ rest bytes hgroup out' written' hwrite ih =>
    have hframe : (writeOut cap out written bytes).1 j = out j := writeOut_frame hj
    rw [hwrite] at hframe
    rw [decodeInto_group hgroup, hwrite]
    exact ih.trans hframe
  | case4 out written text hshort =>
    rw [decodeInto]
    exact hshort

/-- The loop in memory is the loop on values. -/
theorem decodeInto_eq (text : List UInt8) (out : Memory) (hle : written ≤ cap) :
    match decodeGroups (cap - written) text with
    | none => (decodeInto cap out written text).2 = none
    | some bytes =>
      decodeInto cap out written text =
        (store out written bytes, some (written + bytes.length)) := by
  induction out, written, text using decodeInto.induct cap with
  | case1 out written c₀ c₁ c₂ c₃ rest hgroup =>
    rw [decodeGroups, hgroup, decodeInto, hgroup]
    rfl
  | case2 out written c₀ c₁ c₂ c₃ rest bytes hgroup out' hwrite =>
    have hover : cap - written < bytes.length := by
      by_contra hfits
      have hroom : written + bytes.length ≤ cap := by omega
      have hyes := hwrite.symm.trans (writeOut_eq hroom)
      exact absurd (congrArg Prod.snd hyes) (by simp)
    rw [decodeGroups, hgroup, Option.bind_some, if_pos hover, decodeInto_group hgroup, hwrite]
  | case3 out written c₀ c₁ c₂ c₃ rest bytes hgroup out' written' hwrite ih =>
    have hfits : written + bytes.length ≤ cap := by
      by_contra hover
      have hno : (writeOut cap out written bytes).2 = none :=
        writeOut_none (Nat.not_le.mp hover) hle
      exact absurd ((congrArg Prod.snd hwrite).symm.trans hno) (by simp)
    obtain ⟨rfl, hlen⟩ := Prod.mk.inj (hwrite.symm.trans (writeOut_eq hfits))
    obtain rfl := Option.some.inj hlen
    have hroom : cap - written - bytes.length = cap - (written + bytes.length) := by omega
    have hthis := ih hfits
    rw [decodeGroups, hgroup, Option.bind_some, if_neg (by omega), hroom, decodeInto_group hgroup,
      hwrite]
    cases hrest : decodeGroups (cap - (written + bytes.length)) rest with
    | none =>
      rw [hrest] at hthis
      exact hthis
    | some more =>
      rw [hrest] at hthis
      rw [Option.map_some]
      dsimp only at hthis ⊢
      rw [hthis, store_append, List.length_append, Nat.add_assoc]
  | case4 out written text hshort =>
    rw [decodeGroups, decodeInto]
    · rfl
    · exact hshort
    · exact hshort

/-- What `base64_decode` answers is what it answers on values, and what it leaves is that. -/
theorem base64DecodeInto_eq (text : List UInt8) (cap : Nat) (out : Memory) :
    match base64Decode text cap with
    | none => (base64DecodeInto text cap out).2 = none
    | some bytes => base64DecodeInto text cap out = (store out 0 bytes, some bytes.length) := by
  unfold base64Decode base64DecodeInto
  by_cases hlen : text.length = 0 ∨ text.length % 4 ≠ 0
  · rw [if_pos hlen, if_pos hlen]
  · rw [if_neg hlen, if_neg hlen]
    have hthis := decodeInto_eq text out (Nat.zero_le cap)
    rw [Nat.sub_zero] at hthis
    cases hdecode : decodeGroups cap text with
    | none =>
      rw [hdecode] at hthis
      exact hthis
    | some bytes =>
      rw [hdecode] at hthis
      dsimp only at hthis ⊢
      rw [hthis, Nat.zero_add]

/-! ## What is refused -/

/-- A text that stands for bytes is made of digits, and padding at its end. -/
theorem encodes_shape (h : Encodes text bytes) :
    ∃ body n, n ≤ 2 ∧ (∀ c ∈ body, ∃ v < 64, c = digit v) ∧
      text = body ++ List.replicate n pad := by
  induction h with
  | nil => exact ⟨[], 0, by decide, by simp, rfl⟩
  | three a b c _ ih =>
    obtain ⟨body, n, hn, hbody, rfl⟩ := ih
    have ha := a.toNat_lt
    have hb := b.toNat_lt
    have hc := c.toNat_lt
    refine ⟨_ :: _ :: _ :: _ :: body, n, hn, ?_, rfl⟩
    simp only [List.forall_mem_cons]
    exact ⟨⟨_, by omega, rfl⟩, ⟨_, by omega, rfl⟩, ⟨_, by omega, rfl⟩, ⟨_, by omega, rfl⟩, hbody⟩
  | two a b x hx =>
    have ha := a.toNat_lt
    have hb := b.toNat_lt
    refine ⟨[_, _, _], 1, by decide, ?_, rfl⟩
    simp only [List.forall_mem_cons]
    exact ⟨⟨_, by omega, rfl⟩, ⟨_, by omega, rfl⟩, ⟨_, by omega, rfl⟩, by simp⟩
  | one a x hx =>
    have ha := a.toNat_lt
    refine ⟨[_, _], 2, by decide, ?_, rfl⟩
    simp only [List.forall_mem_cons]
    exact ⟨⟨_, by omega, rfl⟩, ⟨_, by omega, rfl⟩, by simp⟩

/-- A text that is decoded to something has a length, characters and padding as they should be. -/
theorem base64Decode_shape (h : base64Decode text cap = some bytes) :
    text.length % 4 = 0 ∧ (∀ c ∈ text, c = pad ∨ ∃ v < 64, c = digit v) ∧ PaddedAtEnd text := by
  unfold base64Decode at h
  split at h
  · exact absurd h (by simp)
  · rename_i hlen
    rw [not_or, not_ne_iff] at hlen
    obtain ⟨body, n, hn, hbody, rfl⟩ := encodes_shape ((decodeGroups_iff hlen.2).mp h).1
    refine ⟨hlen.2, fun c hc => ?_, body, n, hn, fun hpad => ?_, rfl⟩
    · rcases List.mem_append.mp hc with hc | hc
      · exact .inr (hbody c hc)
      · exact .inl (List.eq_of_mem_replicate hc)
    · obtain ⟨v, hv, hdigit⟩ := hbody pad hpad
      exact digit_ne_pad hv hdigit.symm

end

/-- **`base64_decode`** undoes the encoding where the buffer has room, refuses what is none, and
    writes nothing behind the buffer. -/
theorem base64_decode_ok :
    (∀ (b : List UInt8) (cap : Nat) (out : Memory), b ≠ [] → b.length ≤ cap →
      (base64DecodeInto (encode b) cap out).2 = some b.length ∧
        load (base64DecodeInto (encode b) cap out).1 b.length = b) ∧
    (∀ (text : List UInt8) (cap : Nat) (out : Memory),
      text.length % 4 ≠ 0 ∨ (∃ c ∈ text, c ≠ pad ∧ ∀ v < 64, c ≠ digit v) ∨ ¬ PaddedAtEnd text →
        (base64DecodeInto text cap out).2 = none) ∧
    ∀ (text : List UInt8) (cap : Nat) (out : Memory), ∀ j ≥ cap,
      (base64DecodeInto text cap out).1 j = out j := by
  refine ⟨fun b cap out hne hfits => ?_, fun text cap out hbad => ?_, fun text cap out j hj => ?_⟩
  · have hdecode := (base64Decode_iff hne).mpr ⟨encode_encodes b, hfits⟩
    have hthis := base64DecodeInto_eq (encode b) cap out
    rw [hdecode] at hthis
    dsimp only at hthis
    rw [hthis]
    refine ⟨rfl, ?_⟩
    have hload := load_store out 0 b
    rwa [Nat.zero_add] at hload
  · have hthis := base64DecodeInto_eq text cap out
    cases hdecode : base64Decode text cap with
    | none =>
      rw [hdecode] at hthis
      exact hthis
    | some bytes =>
      obtain ⟨hlen, hchars, hpadded⟩ := base64Decode_shape hdecode
      rcases hbad with hlen' | ⟨c, hc, hpad, hdigit⟩ | hmisplaced
      · exact absurd hlen hlen'
      · obtain heq | ⟨v, hv, heq⟩ := hchars c hc
        · exact absurd heq hpad
        · exact absurd heq (hdigit v hv)
      · exact absurd hpadded hmisplaced
  · unfold base64DecodeInto
    split
    · rfl
    · exact decodeInto_frame hj

end Web
end Wt32Router
