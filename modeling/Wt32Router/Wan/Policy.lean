import Wt32Router.Wan.Segments

/-!
# What the filter is for

Its two halves are written apart from each other, one keyed on destinations and one on source
and local ports. They are meant to fit:

> **`admitsIn_reply`**: the reply to a question the filter lets out is let in.

And they are meant to judge real ports only, and to add nothing that can be reached from
outside. Neither is quite so. A later fragment of a datagram carries payload where the rules
read ports (`portsReal_iff`), and the NTP rule goes by a source port, which the sender chooses
(`servicesClosed_iff`).
-/

namespace Wt32Router
namespace Wan

open Lib

/-! ## Fields -/

section

variable (bs : List UInt8)

def srcPort : Nat := beNat 2 (l4Of bs)

def destPort : Nat := beNat 2 ((l4Of bs).drop 2)

/-- The fragment offset, in units of eight bytes. -/
def fragOffset : Nat := beNat 2 (bs.drop (ethHdrLen + 6)) % 0x2000

/-- An IPv4 packet of a protocol. -/
structure IsIp (proto : Nat) : Prop where
  ethType : beNat 2 (bs.drop 12) = ethtypeIp
  proto : iphProto (bs.drop ethHdrLen) = proto

end

section

variable {bs : List UInt8}

theorem kindOf_segment {proto len : Nat} (h : IsIp bs proto)
    (hproto : proto = ipProtoUdp ∨ proto = ipProtoTcp) (h5 : iphHl (bs.drop ethHdrLen) = 5)
    (hlen : wanHdrWindow ≤ len) :
    kindOf bs len = .segment ⟨proto, ipSrc (bs.drop ethHdrLen), ipDest (bs.drop ethHdrLen),
      srcPort bs, destPort bs⟩ := by
  have hheader : ethHdrLen + ipHlen ≤ len := le_trans (Nat.le_add_right _ _) hlen
  rw [kindOf_ip h.ethType h5 hheader, h.proto, if_neg (l4_ne_icmp hproto), if_pos hproto,
    if_neg (Nat.not_lt.mpr hlen), srcPort, destPort, l4Of_eq h5, List.drop_drop (i := 2)]

/-- A UDP or TCP packet with options, or with its ports out of reach, is nothing to the rules. -/
theorem kindOf_no_segment {proto len : Nat} (h : IsIp bs proto)
    (hproto : proto = ipProtoUdp ∨ proto = ipProtoTcp)
    (hno : iphHl (bs.drop ethHdrLen) ≠ 5 ∨ len < wanHdrWindow) : kindOf bs len = .other := by
  by_cases hdropped : len < ethHdrLen + ipHlen ∨ iphHl (bs.drop ethHdrLen) ≠ 5
  · exact kindOf_other (not_arp h.ethType) (hdropped.imp_right .inr)
  · obtain ⟨hlen, h5⟩ := not_or.mp hdropped
    have h5 := not_not.mp h5
    rw [kindOf_ip h.ethType h5 (Nat.not_lt.mp hlen), h.proto, if_neg (l4_ne_icmp hproto), if_pos hproto,
      if_pos (hno.resolve_left (not_not.mpr h5))]

theorem kindOf_icmp {len : Nat} (h : IsIp bs ipProtoIcmp) (h5 : iphHl (bs.drop ethHdrLen) = 5)
    (hlen : ethHdrLen + ipHlen + 1 ≤ len) :
    kindOf bs len = .icmp ((l4Of bs).getD 0 0).toNat := by
  rw [kindOf_ip h.ethType h5 (Nat.le_of_succ_le hlen), h.proto, if_pos rfl,
    if_neg (Nat.not_lt.mpr hlen), l4Of_eq h5, List.getD_eq_getElem?_getD,
    List.getD_eq_getElem?_getD, List.getElem?_drop (i := ipHlen)]
  rfl

end

/-! ## What is admitted -/

/-- `egress_allowed` admits the frame that `frame_window` finds. -/
def AdmitsOut (r : Rules) (p : Pbuf) : Prop :=
  ∃ f, frameWindow (some p) = some f ∧ egressAllowed f r = true

/-- `ingress_allowed` admits the frame that `frame_window` finds. -/
def AdmitsIn (r : Rules) (p : Pbuf) : Prop :=
  ∃ f, frameWindow (some p) = some f ∧ ingressAllowed f r = true

section

variable {r : Rules} {p : Pbuf}

theorem admitsOut_iff : AdmitsOut r p ↔
    ethHdrLen ≤ p.totLen ∧ (kindOf p.bytes p.readable).egress r = true := by
  unfold AdmitsOut
  simp only [egressAllowed_kind]
  exact frameWindow_holds (P := fun k => k.egress r = true)

theorem admitsIn_iff : AdmitsIn r p ↔
    ethHdrLen ≤ p.totLen ∧ (kindOf p.bytes p.readable).ingress r = true := by
  unfold AdmitsIn
  simp only [ingressAllowed_kind]
  exact frameWindow_holds (P := fun k => k.ingress r = true)

/-- A frame in one buffer is readable to its end. -/
theorem contiguous_readable {bs : List UInt8} (h : ethHdrLen ≤ bs.length) :
    (⟨bs, []⟩ : Pbuf).bytes = bs ∧ (⟨bs, []⟩ : Pbuf).readable = bs.length := by
  have hp : (⟨bs, []⟩ : Pbuf).bytes = bs := by simp [Pbuf.bytes]
  have hlen : (⟨bs, []⟩ : Pbuf).totLen = bs.length := by rw [Pbuf.totLen, hp]
  have hread := Pbuf.flat_readable (p := ⟨bs, []⟩) (by rw [hlen]; exact h)
  rw [show (⟨bs, []⟩ : Pbuf).flat = ⟨bs, []⟩ by rw [Pbuf.flat, hp], hlen] at hread
  exact ⟨hp, hread⟩

end

/-! ## Questions and replies -/

/-- The rules of `egress_allowed` whose replies come back to this device or through it. -/
inductive Question (r : Rules) (bs : List UInt8) : Prop where
  | dhcp (h : IsIp bs ipProtoUdp) (hports : srcPort bs = 68 ∧ destPort bs = 67)
  | dns (h : IsIp bs ipProtoUdp) (hport : destPort bs = 53)
      (hresolver : r.dnsIp ≠ 0 ∧ ipDest (bs.drop ethHdrLen) = r.dnsIp)
  | ntp (h : IsIp bs ipProtoUdp) (hport : destPort bs = 123)
  | listed (proto : Nat) (want : UInt8) (i : Fin maxPorts) (h : IsIp bs proto)
      (hproto : (proto = ipProtoUdp ∧ want = wanProtoUdp) ∨
        (proto = ipProtoTcp ∧ want = wanProtoTcp))
      (hlisted : i.val < r.nports.toNat ∧ (r.ports i).port.toNat = destPort bs ∧
        (r.ports i).proto = want)
      (hnapt : ipNaptPortRangeStart ≤ srcPort bs ∧ srcPort bs ≤ ipNaptPortRangeEnd)
  | ping (h : IsIp bs ipProtoIcmp) (htype : (l4Of bs).head? = some (UInt8.ofNat icmpEcho))

/-- A frame in one buffer that goes out by one of these rules. -/
structure Asked (r : Rules) (q : List UInt8) : Prop where
  admitted : AdmitsOut r ⟨q, []⟩
  question : Question r q

/-- A reply: the addresses and the ports swapped, or an echo reply for an echo request. -/
structure Reply (q a : List UInt8) : Prop where
  ethType : beNat 2 (a.drop 12) = beNat 2 (q.drop 12)
  header : iphHl (a.drop ethHdrLen) = iphHl (q.drop ethHdrLen)
  proto : iphProto (a.drop ethHdrLen) = iphProto (q.drop ethHdrLen)
  src : ipSrc (a.drop ethHdrLen) = ipDest (q.drop ethHdrLen)
  dest : ipDest (a.drop ethHdrLen) = ipSrc (q.drop ethHdrLen)
  rest : if iphProto (q.drop ethHdrLen) = ipProtoIcmp then
      (l4Of a).head? = some (UInt8.ofNat icmpEr)
    else 4 ≤ (l4Of a).length ∧ srcPort a = destPort q ∧ destPort a = srcPort q

section

variable {r : Rules} {q a : List UInt8}

/-- What is admitted has no options. -/
theorem Asked.noOptions (h : Asked r q) {proto : Nat} (hip : IsIp q proto) :
    iphHl (q.drop ethHdrLen) = 5 := by
  by_contra hhl
  obtain ⟨-, hout⟩ := admitsOut_iff.mp h.admitted
  have hbytes : (⟨q, []⟩ : Pbuf).bytes = q := by simp [Pbuf.bytes]
  rw [hbytes, kindOf_other (not_arp hip.ethType) (.inr (.inr hhl))] at hout
  exact absurd hout (by simp [Kind.egress])

theorem Reply.isIp (ha : Reply q a) {proto : Nat} (hip : IsIp q proto) : IsIp a proto :=
  ⟨ha.ethType.trans hip.ethType, ha.proto.trans hip.proto⟩

/-- What a UDP or TCP reply is taken for. -/
theorem Reply.admitted (ha : Reply q a) (h : Asked r q) {proto : Nat} (hip : IsIp q proto)
    (hproto : proto = ipProtoUdp ∨ proto = ipProtoTcp)
    (hports : ingressPorts r proto (ipDest (q.drop ethHdrLen)) (destPort q) (srcPort q) = true) :
    AdmitsIn r ⟨a, []⟩ := by
  have h5 : iphHl (a.drop ethHdrLen) = 5 := ha.header.trans (h.noOptions hip)
  have hicmp : iphProto (q.drop ethHdrLen) ≠ ipProtoIcmp := by
    rw [hip.proto]
    exact l4_ne_icmp hproto
  have hrest := ha.rest
  rw [if_neg hicmp, l4Of_length h5] at hrest
  obtain ⟨hlong, hs, hd⟩ := hrest
  have hwindow : wanHdrWindow ≤ a.length := by unfold wanHdrWindow; omega
  have heth : ethHdrLen ≤ a.length := le_trans (by decide) hwindow
  obtain ⟨hbytes, hread⟩ := contiguous_readable heth
  rw [admitsIn_iff, hbytes, hread, kindOf_segment (ha.isIp hip) hproto h5 hwindow]
  refine ⟨by rw [Pbuf.totLen, hbytes]; exact heth, ?_⟩
  rw [Kind.ingress, ha.src, hs, hd]
  exact hports

/-- **The reply to a question the filter lets out is let in**, under the same rule set. -/
theorem admitsIn_reply (h : Asked r q) (ha : Reply q a) : AdmitsIn r ⟨a, []⟩ := by
  cases h.question with
  | dhcp hip hports =>
    refine ha.admitted h hip (.inl rfl) ?_
    rw [hports.1]
    rfl
  | dns hip hport hresolver =>
    refine ha.admitted h hip (.inl rfl) ?_
    rw [hport, hresolver.2, ingressPorts]
    split
    · rfl
    · rw [if_pos ⟨rfl, rfl, hresolver.1, rfl⟩]
  | ntp hip hport =>
    refine ha.admitted h hip (.inl rfl) ?_
    rw [hport, ingressPorts]
    split
    · rfl
    · rw [if_neg (fun hdns => absurd hdns.2.1 (by decide)), if_pos ⟨rfl, rfl⟩]
  | listed proto want i hip hproto hlisted hnapt =>
    refine ha.admitted h hip (hproto.imp And.left And.left) ?_
    unfold ingressPorts
    split
    · rfl
    · split
      · rfl
      · split
        · rfl
        · exact decide_eq_true hnapt
  | ping hip htype =>
    have h5 : iphHl (a.drop ethHdrLen) = 5 := ha.header.trans (h.noOptions hip)
    have hrest := ha.rest
    rw [if_pos hip.proto] at hrest
    have hsome : 0 < (l4Of a).length := by
      cases hl : l4Of a with
      | nil => rw [hl] at hrest; exact absurd hrest (by simp)
      | cons b l => exact Nat.succ_pos _
    rw [l4Of_length h5] at hsome
    have hlong : ethHdrLen + ipHlen + 1 ≤ a.length := by omega
    have heth : ethHdrLen ≤ a.length := le_trans (by decide) hlong
    obtain ⟨hbytes, hread⟩ := contiguous_readable heth
    rw [admitsIn_iff, hbytes, hread, kindOf_icmp (ha.isIp hip) h5 hlong,
      List.getD_eq_getElem?_getD, ← List.head?_eq_getElem?, hrest]
    exact ⟨by rw [Pbuf.totLen, hbytes]; exact heth, rfl⟩

/-- A resolver's question and its answer. -/
theorem admitsIn_reply_dns :
    AdmitsIn ⟨fun _ => {}, 0, 0x08080808, true⟩
      ⟨ipFrame 0 ipProtoUdp 0x08080808 0x0a000002 [0, 53, 0x4a, 0xd1], []⟩ :=
  admitsIn_reply
    (q := ipFrame 0 ipProtoUdp 0x0a000002 0x08080808 [0x4a, 0xd1, 0, 53])
    ⟨⟨_, rfl, by decide⟩, .dns ⟨by decide, by decide⟩ (by decide) ⟨by decide, by decide⟩⟩
    ⟨by decide, by decide, by decide, by decide, by decide, by decide⟩

end

/-! ## Whose ports they are -/

/-- Every UDP or TCP frame admitted either way, by whatever rule set, is one whose transport
    header is where the rules read it. -/
def PortsReal (p : Pbuf) : Prop :=
  ∀ r, AdmitsOut r p ∨ AdmitsIn r p → ∀ proto, proto = ipProtoUdp ∨ proto = ipProtoTcp →
    IsIp p.bytes proto → iphHl (p.bytes.drop ethHdrLen) = 5 ∧ fragOffset p.bytes = 0

/-- A UDP or TCP packet without options that is not its datagram's first fragment, with the
    bytes behind its header in the window. -/
structure LateFragment (p : Pbuf) : Prop where
  proto : IsIp p.bytes ipProtoUdp ∨ IsIp p.bytes ipProtoTcp
  noOptions : iphHl (p.bytes.drop ethHdrLen) = 5
  reach : wanHdrWindow ≤ p.readable
  offset : fragOffset p.bytes ≠ 0

section

variable {r : Rules} {p : Pbuf}

theorem wanHdrWindow_le_totLen (h : wanHdrWindow ≤ p.readable) : ethHdrLen ≤ p.totLen := by
  have hle : p.len ≤ p.totLen := Pbuf.len_le
  unfold Pbuf.readable at h
  unfold wanHdrWindow ethHdrLen ipHlen at *
  split at h <;> [skip; split at h <;> [skip; split at h]] <;> omega

/-- What an admitted UDP or TCP frame is. -/
theorem admitted_segment (h : AdmitsOut r p ∨ AdmitsIn r p) {proto : Nat}
    (hproto : proto = ipProtoUdp ∨ proto = ipProtoTcp) (hip : IsIp p.bytes proto) :
    iphHl (p.bytes.drop ethHdrLen) = 5 ∧ wanHdrWindow ≤ p.readable := by
  by_contra hno
  have hother : kindOf p.bytes p.readable = .other :=
    kindOf_no_segment hip hproto ((not_and_or.mp hno).imp_right Nat.not_le.mp)
  rw [admitsOut_iff, admitsIn_iff, hother] at h
  rcases h with ⟨-, h⟩ | ⟨-, h⟩
  · exact absurd h (by simp [Kind.egress])
  · exact absurd h (by simp [Kind.ingress])

/-- **The ports are real except in a later fragment.** Options are refused, and so is a packet
    cut off before its ports. A fragment that starts in the middle of its datagram is not: some
    rule set admits it for the bytes that stand where the ports would. -/
theorem portsReal_iff : PortsReal p ↔ ¬ LateFragment p := by
  constructor
  · intro hreal hlate
    obtain ⟨proto, hproto, hip⟩ : ∃ proto, (proto = ipProtoUdp ∨ proto = ipProtoTcp) ∧
        IsIp p.bytes proto := by
      rcases hlate.proto with hip | hip
      · exact ⟨_, .inl rfl, hip⟩
      · exact ⟨_, .inr rfl, hip⟩
    have hout : AdmitsOut (listing proto (destPort p.bytes)) p := by
      rw [admitsOut_iff, kindOf_segment hip hproto hlate.noOptions hlate.reach]
      exact ⟨wanHdrWindow_le_totLen hlate.reach, egress_listing (beNat_lt 2 _)⟩
    exact hlate.offset (hreal _ (.inl hout) proto hproto hip).2
  · intro hfirst r h proto hproto hip
    obtain ⟨h5, hreach⟩ := admitted_segment h hproto hip
    refine ⟨h5, ?_⟩
    by_contra hoffset
    refine hfirst ⟨?_, h5, hreach, hoffset⟩
    rcases hproto with rfl | rfl
    · exact .inl hip
    · exact .inr hip

/-- The second fragment of a datagram, whose payload reads as port 53760. -/
theorem portsReal_lateFragment :
    ¬ PortsReal ⟨ipFrame 185 ipProtoTcp 0x08080808 0x0a000002 [0x48, 0x54, 0xd2, 0x00], []⟩ := by
  intro hreal
  have hin : AdmitsIn .zero
      ⟨ipFrame 185 ipProtoTcp 0x08080808 0x0a000002 [0x48, 0x54, 0xd2, 0x00], []⟩ :=
    ⟨_, rfl, by decide⟩
  exact absurd (hreal _ (.inr hin) ipProtoTcp (.inr rfl) ⟨by decide, by decide⟩).2 (by decide)

/-! ## What can be reached from outside -/

/-- Of a UDP frame that is let in: it is from the resolver, or for a port no service has. -/
def ServicesClosed (r : Rules) (p : Pbuf) : Prop :=
  AdmitsIn r p → IsIp p.bytes ipProtoUdp →
    ¬ (srcPort p.bytes = 53 ∧ r.dnsIp ≠ 0 ∧ ipSrc (p.bytes.drop ethHdrLen) = r.dnsIp) →
    destPort p.bytes = 68 ∨ 1024 ≤ destPort p.bytes

/-- A UDP frame from somebody's NTP port for a well-known port of this device. -/
structure NtpToService (p : Pbuf) : Prop where
  udp : IsIp p.bytes ipProtoUdp
  noOptions : iphHl (p.bytes.drop ethHdrLen) = 5
  reach : wanHdrWindow ≤ p.readable
  ntp : srcPort p.bytes = 123
  dest : destPort p.bytes ≠ 68 ∧ destPort p.bytes < 1024

/-- **Well-known ports are closed except to a sender that uses port 123**, under every rule set. -/
theorem servicesClosed_iff (r : Rules) (p : Pbuf) : ServicesClosed r p ↔ ¬ NtpToService p := by
  constructor
  · intro hclosed hntp
    have hin : AdmitsIn r p := by
      rw [admitsIn_iff, kindOf_segment hntp.udp (.inl rfl) hntp.noOptions hntp.reach, hntp.ntp]
      refine ⟨wanHdrWindow_le_totLen hntp.reach, ?_⟩
      dsimp only [Kind.ingress]
      rw [ingressPorts, if_neg hntp.dest.1, if_neg (fun hdns => absurd hdns.2.1 (by decide)),
        if_pos ⟨rfl, rfl⟩]
    have hno : ¬ (srcPort p.bytes = 53 ∧ r.dnsIp ≠ 0 ∧
        ipSrc (p.bytes.drop ethHdrLen) = r.dnsIp) := by
      rw [hntp.ntp]
      exact fun hdns => absurd hdns.1 (by decide)
    rcases hclosed hin hntp.udp hno with h68 | hhigh
    · exact hntp.dest.1 h68
    · exact absurd hntp.dest.2 (Nat.not_lt.mpr hhigh)
  · intro hno hin hudp hresolver
    obtain ⟨h5, hreach⟩ := admitted_segment (.inr hin) (.inl rfl) hudp
    rw [admitsIn_iff, kindOf_segment hudp (.inl rfl) h5 hreach] at hin
    have hports := hin.2
    dsimp only [Kind.ingress] at hports
    by_contra hdest
    obtain ⟨h68, hlow⟩ := not_or.mp hdest
    have hntp : srcPort p.bytes ≠ 123 := fun hntp =>
      hno ⟨hudp, h5, hreach, hntp, h68, Nat.not_le.mp hlow⟩
    rw [ingressPorts, if_neg h68, if_neg (fun hdns => hresolver hdns.2),
      if_neg (fun h => hntp h.2)] at hports
    have hnapt := of_decide_eq_true hports
    unfold ipNaptPortRangeStart at hnapt
    omega

/-- The DHCP server's own port, from a sender on port 123. -/
theorem servicesClosed_dhcpServer :
    ¬ ServicesClosed .zero
      ⟨ipFrame 0 ipProtoUdp 0x08080808 0x0a000002 [0, 123, 0, 67], []⟩ := by
  intro hclosed
  have hin : AdmitsIn .zero ⟨ipFrame 0 ipProtoUdp 0x08080808 0x0a000002 [0, 123, 0, 67], []⟩ :=
    ⟨_, rfl, by decide⟩
  exact absurd (hclosed hin ⟨by decide, by decide⟩ (by decide)) (by decide)

end

end Wan
end Wt32Router
