import Wt32Router.Wan.Filter

/-!
# What the filter takes a frame for

`egress_allowed` and `ingress_allowed` are two chains of early returns that ask the same
questions in the same order: is it ARP, is it IPv4 without options, which protocol, which
ports. Only what they make of the answers differs. Here the answers are a type, `Kind`, and
the two functions are two policies over it.

> **`egressAllowed_kind`**, **`ingressAllowed_kind`**: each verdict is the policy's verdict on
> the frame's kind.

`frame_window` is the other half. Of the frame it shows a prefix, and which one depends on the
first segment alone (`Pbuf.readable`); the rest of the function reads that prefix as it would
read a whole frame (`frameWindow_eq`).
-/

namespace Wt32Router
namespace Wan

open Lib

/-! ## Kinds of frames -/

/-- A UDP or TCP packet, as the port rules see it. -/
structure Segment where
  proto : Nat
  src : Ip
  dest : Ip
  sport : Nat
  dport : Nat
deriving DecidableEq, Repr

/-- What the filter takes a frame for; `other` is what no rule admits. -/
inductive Kind where
  | arp
  | icmp (type : Nat)
  | segment (s : Segment)
  | other
deriving DecidableEq, Repr

def WanFrame.kind (f : WanFrame) : Kind :=
  if f.ethType = ethtypeArp then .arp
  else match f.ip with
  | none => .other
  | some ip =>
    if f.ethType ≠ ethtypeIp ∨ iphHl ip ≠ 5 then .other
    else if iphProto ip = ipProtoIcmp then .icmp (icmpType f)
    else if iphProto ip = ipProtoUdp ∨ iphProto ip = ipProtoTcp then
      match l4Ports f with
      | none => .other
      | some (sport, dport) => .segment ⟨iphProto ip, ipSrc ip, ipDest ip, sport, dport⟩
    else .other

/-! ## The two policies -/

/-- A request of this device's own DHCP client. -/
def Segment.isDhcpRequest (s : Segment) : Bool :=
  s.proto == ipProtoUdp && s.sport == 68 && s.dport == 67

def Kind.egress (r : Rules) : Kind → Bool
  | .arp => true
  | .icmp type => r.up && type == icmpEcho
  | .segment s => s.isDhcpRequest || (r.up && egressPorts r s.proto s.dest s.dport)
  | .other => false

def Kind.ingress (r : Rules) : Kind → Bool
  | .arp => true
  | .icmp type => type == icmpEr || type == icmpDur || type == icmpTe
  | .segment s => ingressPorts r s.proto s.src s.sport s.dport
  | .other => false

section

variable {f : WanFrame} {r : Rules}

theorem l4_ne_icmp {proto : Nat} (h : proto = ipProtoUdp ∨ proto = ipProtoTcp) :
    proto ≠ ipProtoIcmp := by
  rcases h with rfl | rfl
  · decide
  · decide

theorem egressAllowed_kind : egressAllowed f r = f.kind.egress r := by
  unfold egressAllowed WanFrame.kind
  split
  · rfl
  · cases hip : f.ip with
    | none => rfl
    | some ip =>
      dsimp only
      split
      · rfl
      · by_cases hicmp : iphProto ip = ipProtoIcmp
        · -- the DHCP rule comes first in the code, and is about UDP
          have hudp : ¬ (iphProto ip = ipProtoUdp ∧ l4Ports f = some (68, 67)) :=
            fun h => l4_ne_icmp (.inl h.1) hicmp
          rw [if_neg hudp, if_pos hicmp, if_pos hicmp]
          dsimp only [Kind.egress]
          cases r.up <;> rfl
        · rw [if_neg hicmp, if_neg hicmp]
          by_cases hl4 : iphProto ip = ipProtoUdp ∨ iphProto ip = ipProtoTcp
          · rw [if_pos hl4, if_pos hl4]
            cases hports : l4Ports f with
            | none => cases r.up <;> simp [Kind.egress]
            | some ports =>
              obtain ⟨sport, dport⟩ := ports
              by_cases hdhcp : iphProto ip = ipProtoUdp ∧ sport = 68 ∧ dport = 67
              · obtain ⟨hudp, rfl, rfl⟩ := hdhcp
                simp [Kind.egress, Segment.isDhcpRequest, hudp]
              · have hno : ¬ (iphProto ip = ipProtoUdp ∧ some (sport, dport) = some (68, 67)) := by
                  simpa using hdhcp
                have hreq : Segment.isDhcpRequest
                    ⟨iphProto ip, ipSrc ip, ipDest ip, sport, dport⟩ = false := by
                  simpa [Segment.isDhcpRequest, and_assoc] using hdhcp
                rw [if_neg hno]
                dsimp only [Kind.egress]
                rw [hreq, Bool.false_or]
                cases r.up <;> rfl
          · have hudp : ¬ (iphProto ip = ipProtoUdp ∧ l4Ports f = some (68, 67)) :=
              fun h => hl4 (.inl h.1)
            rw [if_neg hudp, if_neg hl4, if_neg hl4]
            dsimp only [Kind.egress]
            cases r.up <;> rfl

theorem ingressAllowed_kind : ingressAllowed f r = f.kind.ingress r := by
  unfold ingressAllowed WanFrame.kind
  split
  · rfl
  · cases hip : f.ip with
    | none => rfl
    | some ip =>
      dsimp only
      split
      · rfl
      · split
        · rfl
        · split
          · cases l4Ports f with
            | none => rfl
            | some ports => rfl
          · rfl

end

/-! ## Kinds of bytes -/

/-- What the filter takes a frame for that it can read `len` bytes of. -/
def kindOf (bs : List UInt8) (len : Nat) : Kind :=
  let ip := bs.drop ethHdrLen
  if beNat 2 (bs.drop 12) = ethtypeArp then .arp
  else if len < ethHdrLen + ipHlen ∨ beNat 2 (bs.drop 12) ≠ ethtypeIp ∨ iphHl ip ≠ 5 then .other
  else if iphProto ip = ipProtoIcmp then
    .icmp (if len < ethHdrLen + ipHlen + 1 then 0xff else (ip.getD ipHlen 0).toNat)
  else if iphProto ip = ipProtoUdp ∨ iphProto ip = ipProtoTcp then
    if len < wanHdrWindow then .other
    else .segment ⟨iphProto ip, ipSrc ip, ipDest ip, beNat 2 (ip.drop ipHlen),
      beNat 2 (ip.drop (ipHlen + 2))⟩
  else .other

/-! ## The window -/

/-- The frame `frame_window` makes of a readable prefix. -/
def viewOf (bs : List UInt8) : WanFrame :=
  if ethHdrLen + ipHlen ≤ bs.length then withIp bs bs.length else ⟨bs, none, 0⟩

theorem kind_noIp (bs : List UInt8) : WanFrame.kind ⟨bs, none, 0⟩ =
    if beNat 2 (bs.drop 12) = ethtypeArp then .arp else .other := rfl

theorem viewOf_kind (bs : List UInt8) : (viewOf bs).kind = kindOf bs bs.length := by
  unfold viewOf kindOf
  dsimp only
  by_cases hshort : bs.length < ethHdrLen + ipHlen
  · rw [if_neg (Nat.not_le.mpr hshort), if_pos (Or.inl hshort), kind_noIp]
  · rw [if_pos (Nat.not_lt.mp hshort)]
    unfold withIp
    by_cases hip : beNat 2 (bs.drop 12) = ethtypeIp
    · have havail : ∀ n, bs.length - ethHdrLen < n ↔ bs.length < ethHdrLen + n := fun n => by
        unfold ethHdrLen ipHlen at *
        omega
      rw [if_pos hip]
      unfold WanFrame.kind icmpType l4Ports
      dsimp only [WanFrame.ethType]
      simp only [hshort, false_or, havail]
      split
      · rfl
      · split
        · rfl
        · rename_i hhl
          have h5 : iphHl (bs.drop ethHdrLen) = 5 := by
            by_contra hne
            exact hhl (.inr hne)
          simp only [h5, ne_eq, not_true_eq_false, false_or]
          split
          · rfl
          · split
            · by_cases hports : bs.length < wanHdrWindow
              · rw [if_pos hports, if_pos (show bs.length < ethHdrLen + (ipHlen + 4) from hports)]
              · rw [if_neg hports,
                  if_neg (show ¬ bs.length < ethHdrLen + (ipHlen + 4) from hports)]
            · rfl
    · rw [if_neg hip]
      rw [kind_noIp]
      by_cases harp : beNat 2 (bs.drop 12) = ethtypeArp
      · rw [if_pos harp, if_pos harp]
      · rw [if_neg harp, if_neg harp, if_pos (Or.inr (Or.inl hip))]

/-- How many bytes of a frame `frame_window` makes readable. -/
def Pbuf.readable (p : Pbuf) : Nat :=
  if ethHdrLen + ipHlen ≤ p.len then p.len
  else if ethHdrLen + ipHlen ≤ p.totLen then min p.totLen wanHdrWindow
  else if ethHdrLen ≤ p.len then p.len
  else ethHdrLen

/-- The same frame in one segment. -/
def Pbuf.flat (p : Pbuf) : Pbuf := ⟨p.bytes, []⟩

section

variable {p : Pbuf}

theorem Pbuf.len_le : p.len ≤ p.totLen := by
  unfold Pbuf.totLen Pbuf.len Pbuf.bytes
  rw [List.length_append]
  exact Nat.le_add_right _ _

theorem Pbuf.take_len : p.bytes.take p.len = p.payload := List.take_left

@[simp] theorem Pbuf.flat_bytes : p.flat.bytes = p.bytes := by
  simp [Pbuf.flat, Pbuf.bytes]

@[simp] theorem Pbuf.flat_len : p.flat.len = p.totLen := rfl

@[simp] theorem Pbuf.flat_totLen : p.flat.totLen = p.totLen := by
  unfold Pbuf.totLen
  rw [Pbuf.flat_bytes]

/-- **The window is a prefix of the frame**, and there is one wherever there is an Ethernet
    header. -/
theorem frameWindow_eq (h : ethHdrLen ≤ p.totLen) :
    frameWindow (some p) = some (viewOf (p.bytes.take p.readable)) := by
  have hle : p.len ≤ p.totLen := Pbuf.len_le
  have hlen : p.payload.length = p.len := rfl
  have htake : ∀ n, n ≤ p.totLen → (p.bytes.take n).length = n := fun n hn => by
    rw [List.length_take]
    exact Nat.min_eq_left hn
  have heth : ethHdrLen < ethHdrLen + ipHlen := by decide
  unfold frameWindow Pbuf.readable viewOf
  dsimp only
  by_cases h₁ : ethHdrLen + ipHlen ≤ p.len
  · rw [if_pos h₁, if_pos h₁, Pbuf.take_len, hlen, if_pos h₁]
  · rw [if_neg h₁, if_neg h₁]
    by_cases h₂ : ethHdrLen + ipHlen ≤ p.totLen
    · have hhave : (if p.totLen < wanHdrWindow then p.totLen else wanHdrWindow) =
          min p.totLen wanHdrWindow := by
        split <;> omega
      have hmin : min p.totLen wanHdrWindow ≤ p.totLen := Nat.min_le_left _ _
      have hlong : ethHdrLen + ipHlen ≤ min p.totLen wanHdrWindow :=
        Nat.le_min.mpr ⟨h₂, by decide⟩
      rw [if_pos h₂, if_pos h₂, hhave, htake _ hmin, if_pos hlong]
    · rw [if_neg h₂, if_neg h₂]
      by_cases h₃ : ethHdrLen ≤ p.len
      · rw [if_pos h₃, if_pos h₃, Pbuf.take_len, hlen, if_neg h₁]
      · rw [if_neg h₃, if_neg h₃, if_pos h, htake _ h, if_neg (Nat.not_le.mpr heth)]

theorem frameWindow_short (h : p.totLen < ethHdrLen) : frameWindow (some p) = none := by
  have hle : p.len ≤ p.totLen := Pbuf.len_le
  unfold ethHdrLen at h
  unfold frameWindow ethHdrLen ipHlen
  dsimp only
  rw [if_neg (by omega), if_neg (by omega), if_neg (by omega), if_neg (by omega)]

theorem Pbuf.le_readable (h : ethHdrLen ≤ p.totLen) : ethHdrLen ≤ p.readable := by
  unfold Pbuf.readable
  split
  · exact le_trans (Nat.le_add_right _ _) ‹_›
  · split
    · exact Nat.le_min.mpr ⟨h, by decide⟩
    · split
      · assumption
      · exact le_refl _

theorem Pbuf.flat_readable (h : ethHdrLen ≤ p.totLen) : p.flat.readable = p.totLen := by
  unfold Pbuf.readable
  rw [Pbuf.flat_len, Pbuf.flat_totLen]
  split
  · rfl
  · rfl

/-! ## What a frame's first segment makes of it -/

theorem iphHl_take (bs : List UInt8) {n : Nat} (h : 15 ≤ n) :
    iphHl ((bs.take n).drop ethHdrLen) = iphHl (bs.drop ethHdrLen) := by
  unfold iphHl
  rw [List.drop_take, getD_take _ (by unfold ethHdrLen; omega)]

theorem iphProto_take (bs : List UInt8) {n : Nat} (h : 24 ≤ n) :
    iphProto ((bs.take n).drop ethHdrLen) = iphProto (bs.drop ethHdrLen) := by
  unfold iphProto
  rw [List.drop_take, getD_take _ (by unfold ethHdrLen; omega)]

/-- What the filter takes a prefix for does not depend on what lies past it. -/
theorem kindOf_take (bs : List UInt8) {n len : Nat} (hn : ethHdrLen ≤ n) (h : len ≤ n) :
    kindOf (bs.take n) len = kindOf bs len := by
  unfold ethHdrLen at hn
  have htype : beNat 2 ((bs.take n).drop 12) = beNat 2 (bs.drop 12) :=
    beNat_drop_take bs 2 (by omega)
  unfold kindOf
  dsimp only
  rw [htype]
  by_cases hshort : len < ethHdrLen + ipHlen
  · rw [if_pos (Or.inl hshort), if_pos (Or.inl hshort)]
  · have h34 : 34 ≤ n := by unfold ethHdrLen ipHlen at hshort; omega
    rw [iphHl_take bs (by omega), iphProto_take bs (by omega)]
    have hicmp : ¬ len < ethHdrLen + ipHlen + 1 →
        (((bs.take n).drop ethHdrLen).getD ipHlen 0).toNat =
          ((bs.drop ethHdrLen).getD ipHlen 0).toNat := fun hlong => by
      rw [List.drop_take, getD_take _ (by unfold ethHdrLen ipHlen at *; omega)]
    have hports : ¬ len < wanHdrWindow →
        (⟨iphProto (bs.drop ethHdrLen), ipSrc ((bs.take n).drop ethHdrLen),
          ipDest ((bs.take n).drop ethHdrLen), beNat 2 (((bs.take n).drop ethHdrLen).drop ipHlen),
          beNat 2 (((bs.take n).drop ethHdrLen).drop (ipHlen + 2))⟩ : Segment) =
        ⟨iphProto (bs.drop ethHdrLen), ipSrc (bs.drop ethHdrLen), ipDest (bs.drop ethHdrLen),
          beNat 2 ((bs.drop ethHdrLen).drop ipHlen),
          beNat 2 ((bs.drop ethHdrLen).drop (ipHlen + 2))⟩ := fun hlong => by
      unfold ipSrc ipDest
      unfold wanHdrWindow ethHdrLen ipHlen at *
      rw [List.drop_take, beNat_drop_take _ 4 (by omega), beNat_drop_take _ 4 (by omega),
        beNat_drop_take _ 2 (by omega), beNat_drop_take _ 2 (by omega)]
    split
    · rfl
    · split
      · rfl
      · split
        · split
          · rfl
          · rename_i hlong
            rw [hicmp hlong]
        · split
          · split
            · rfl
            · rename_i hlong
              rw [hports hlong]
          · rfl

theorem Pbuf.readable_le (h : ethHdrLen ≤ p.totLen) : p.readable ≤ p.totLen := by
  have hle : p.len ≤ p.totLen := Pbuf.len_le
  unfold Pbuf.readable
  split
  · exact hle
  · split
    · exact Nat.min_le_left _ _
    · split
      · exact hle
      · exact h

/-- **What `frame_window` makes of a frame**: what its readable bytes are. -/
theorem frameWindow_kind (h : ethHdrLen ≤ p.totLen) :
    (frameWindow (some p)).map WanFrame.kind = some (kindOf p.bytes p.readable) := by
  have hlen : (p.bytes.take p.readable).length = p.readable := by
    rw [List.length_take]
    exact Nat.min_eq_left (Pbuf.readable_le h)
  rw [frameWindow_eq h, Option.map_some, viewOf_kind, hlen,
    kindOf_take _ (Pbuf.le_readable h) (le_refl _)]

/-- There is a window exactly where there is an Ethernet header. -/
theorem frameWindow_some {f : WanFrame} (h : frameWindow (some p) = some f) :
    ethHdrLen ≤ p.totLen := by
  by_contra hshort
  rw [frameWindow_short (Nat.not_le.mp hshort)] at h
  exact absurd h (by simp)

/-- What holds of a window's kind is what holds of the readable bytes'. -/
theorem frameWindow_holds {P : Kind → Prop} :
    (∃ f, frameWindow (some p) = some f ∧ P f.kind) ↔
      ethHdrLen ≤ p.totLen ∧ P (kindOf p.bytes p.readable) := by
  constructor
  · rintro ⟨f, hf, hP⟩
    have hk := frameWindow_kind (frameWindow_some hf)
    rw [hf, Option.map_some] at hk
    rw [Option.some.inj hk] at hP
    exact ⟨frameWindow_some hf, hP⟩
  · rintro ⟨hlen, hP⟩
    obtain ⟨f, hf, hkind⟩ := Option.map_eq_some_iff.mp (frameWindow_kind hlen)
    exact ⟨f, hf, hkind ▸ hP⟩

theorem staInput_kind (r : Rules) (h : ethHdrLen ≤ p.totLen) :
    staInput (some p) r = (kindOf p.bytes p.readable).ingress r := by
  obtain ⟨f, hf, hkind⟩ := Option.map_eq_some_iff.mp (frameWindow_kind h)
  unfold staInput
  rw [hf, ← hkind]
  exact ingressAllowed_kind

end

end Wan
end Wt32Router
