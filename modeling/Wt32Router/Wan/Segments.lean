import Wt32Router.Wan.Kinds

/-!
# Frames cut into segments

A received frame is a chain of buffers, and `frame_window` reads past the first of them only
where that one ends inside the IP header. Where it ends later, what lies beyond is not read.

So a verdict can come out of less than the whole frame. It then errs on one side:

> **`Cut.ingress`**, **`Cut.egress`**: what is admitted cut is admitted whole.

The inbound half of the policy therefore holds of every frame however it is cut
(`staInput_forbidden`), but the verdict depends on the cut. A first segment of 34 to 37 bytes
holds an IP header and not the ports behind it, and `verdicts_flat` is where that shows.
-/

namespace Wt32Router
namespace Wan

open Lib

/-! ## A cut admits nothing -/

/-- What a frame is taken for, and what it is once more of it can be read. -/
inductive Cut : Kind → Kind → Prop where
  | whole (k : Kind) : Cut k k
  | other (k : Kind) : Cut .other k
  | icmp (k : Kind) : Cut (.icmp 0xff) k

theorem kindOf_cut (bs : List UInt8) {len len' : Nat} (h : len ≤ len') :
    Cut (kindOf bs len) (kindOf bs len') := by
  unfold kindOf
  dsimp only
  by_cases harp : beNat 2 (bs.drop 12) = ethtypeArp
  · rw [if_pos harp, if_pos harp]
    exact .whole _
  · rw [if_neg harp, if_neg harp]
    split
    · exact .other _
    · rename_i hip
      have hip' : ¬ (len' < ethHdrLen + ipHlen ∨ beNat 2 (bs.drop 12) ≠ ethtypeIp ∨
          iphHl (bs.drop ethHdrLen) ≠ 5) :=
        fun h' => hip (h'.imp_left (Nat.lt_of_le_of_lt h))
      rw [if_neg hip']
      split
      · by_cases htype : len < ethHdrLen + ipHlen + 1
        · rw [if_pos htype]
          exact .icmp _
        · rw [if_neg htype, if_neg (fun h' => htype (Nat.lt_of_le_of_lt h h'))]
          exact .whole _
      · split
        · by_cases hports : len < wanHdrWindow
          · rw [if_pos hports]
            exact .other _
          · rw [if_neg hports, if_neg (fun h' => hports (Nat.lt_of_le_of_lt h h'))]
            exact .whole _
        · exact .whole _

theorem Cut.egress {k k' : Kind} {r : Rules} (h : Cut k k') (hk : k.egress r = true) :
    k'.egress r = true := by
  cases h with
  | whole => exact hk
  | other => exact absurd hk (by simp [Kind.egress])
  | icmp => exact absurd hk (by simp [Kind.egress, icmpEcho])

theorem Cut.ingress {k k' : Kind} {r : Rules} (h : Cut k k') (hk : k.ingress r = true) :
    k'.ingress r = true := by
  cases h with
  | whole => exact hk
  | other => exact absurd hk (by simp [Kind.ingress])
  | icmp => exact absurd hk (by simp [Kind.ingress, icmpEr, icmpDur, icmpTe])

/-! ## What nothing upstream gets in -/

/-- What follows the IP header, options included. -/
def l4Of (bs : List UInt8) : List UInt8 :=
  bs.drop (ethHdrLen + 4 * iphHl (bs.drop ethHdrLen))

/-- The frames the inbound policy is there to keep out. -/
inductive Forbidden (bs : List UInt8) : Prop where
  | tcp (hip : beNat 2 (bs.drop 12) = ethtypeIp)
      (hproto : iphProto (bs.drop ethHdrLen) = ipProtoTcp) (hlen : 4 ≤ (l4Of bs).length)
      (hdhcp : beNat 2 ((l4Of bs).drop 2) ≠ 68)
      (hnapt : beNat 2 ((l4Of bs).drop 2) < ipNaptPortRangeStart ∨
        ipNaptPortRangeEnd < beNat 2 ((l4Of bs).drop 2))
  | echo (hip : beNat 2 (bs.drop 12) = ethtypeIp)
      (hproto : iphProto (bs.drop ethHdrLen) = ipProtoIcmp)
      (htype : (l4Of bs).head? = some (UInt8.ofNat icmpEcho))
  | options (hip : beNat 2 (bs.drop 12) = ethtypeIp) (hhl : iphHl (bs.drop ethHdrLen) ≠ 5)
  | cutHeader (hip : beNat 2 (bs.drop 12) = ethtypeIp) (hlen : bs.length < ethHdrLen + ipHlen)
  | cutPorts (hip : beNat 2 (bs.drop 12) = ethtypeIp)
      (hproto : iphProto (bs.drop ethHdrLen) = ipProtoUdp ∨
        iphProto (bs.drop ethHdrLen) = ipProtoTcp) (hlen : (l4Of bs).length < 4)
  | ethertype (hip : beNat 2 (bs.drop 12) ≠ ethtypeIp) (harp : beNat 2 (bs.drop 12) ≠ ethtypeArp)

section

variable {bs : List UInt8}

theorem not_arp (hip : beNat 2 (bs.drop 12) = ethtypeIp) : beNat 2 (bs.drop 12) ≠ ethtypeArp := by
  rw [hip]
  decide

theorem l4Of_eq (h5 : iphHl (bs.drop ethHdrLen) = 5) : l4Of bs = (bs.drop ethHdrLen).drop ipHlen := by
  unfold l4Of
  rw [h5, List.drop_drop]
  rfl

theorem l4Of_length (h5 : iphHl (bs.drop ethHdrLen) = 5) :
    (l4Of bs).length = bs.length - (ethHdrLen + ipHlen) := by
  rw [l4Of_eq h5, List.drop_drop, List.length_drop]

/-- What an IPv4 packet without options is taken for. -/
theorem kindOf_ip {len : Nat} (hip : beNat 2 (bs.drop 12) = ethtypeIp)
    (h5 : iphHl (bs.drop ethHdrLen) = 5) (hlen : ethHdrLen + ipHlen ≤ len) :
    kindOf bs len =
      if iphProto (bs.drop ethHdrLen) = ipProtoIcmp then
        .icmp (if len < ethHdrLen + ipHlen + 1 then 0xff
          else ((bs.drop ethHdrLen).getD ipHlen 0).toNat)
      else if iphProto (bs.drop ethHdrLen) = ipProtoUdp ∨
          iphProto (bs.drop ethHdrLen) = ipProtoTcp then
        if len < wanHdrWindow then .other
        else .segment ⟨iphProto (bs.drop ethHdrLen), ipSrc (bs.drop ethHdrLen),
          ipDest (bs.drop ethHdrLen), beNat 2 ((bs.drop ethHdrLen).drop ipHlen),
          beNat 2 ((bs.drop ethHdrLen).drop (ipHlen + 2))⟩
      else .other := by
  unfold kindOf
  dsimp only
  rw [if_neg (not_arp hip), if_neg]
  rintro (hshort | hno | hopt)
  · exact absurd hshort (Nat.not_lt.mpr hlen)
  · exact hno hip
  · exact hopt h5

theorem kindOf_other {len : Nat} (harp : beNat 2 (bs.drop 12) ≠ ethtypeArp)
    (h : len < ethHdrLen + ipHlen ∨ beNat 2 (bs.drop 12) ≠ ethtypeIp ∨
      iphHl (bs.drop ethHdrLen) ≠ 5) : kindOf bs len = .other := by
  unfold kindOf
  dsimp only
  rw [if_neg harp, if_pos h]

/-- In one piece, none of them is admitted. -/
theorem Forbidden.refused (h : Forbidden bs) (r : Rules) :
    (kindOf bs bs.length).ingress r = false := by
  -- with options, or short of a header, the frame is dropped unread
  have hdropped : beNat 2 (bs.drop 12) = ethtypeIp →
      (bs.length < ethHdrLen + ipHlen ∨ iphHl (bs.drop ethHdrLen) ≠ 5) →
      (kindOf bs bs.length).ingress r = false := fun hip hbad => by
    rw [kindOf_other (not_arp hip) (hbad.imp_right .inr)]
    rfl
  cases h with
  | tcp hip hproto hlen hdhcp hnapt =>
    by_cases h5 : iphHl (bs.drop ethHdrLen) = 5
    · rw [l4Of_length h5] at hlen
      have hlong : wanHdrWindow ≤ bs.length := by unfold wanHdrWindow; omega
      have hheader : ethHdrLen + ipHlen ≤ bs.length := by omega
      rw [l4Of_eq h5, List.drop_drop (i := 2)] at hdhcp hnapt
      rw [kindOf_ip hip h5 hheader, hproto, if_neg (by decide), if_pos (by decide),
        if_neg (Nat.not_lt.mpr hlong)]
      simp only [Kind.ingress, ingressPorts]
      rw [if_neg hdhcp, if_neg (fun hu => absurd hu.1 (by decide)),
        if_neg (fun hu => absurd hu.1 (by decide))]
      exact decide_eq_false (by omega)
    · exact hdropped hip (.inr h5)
  | echo hip hproto htype =>
    by_cases h5 : iphHl (bs.drop ethHdrLen) = 5
    · have hsome : 0 < (l4Of bs).length := by
        cases hl : l4Of bs with
        | nil => rw [hl] at htype; exact absurd htype (by simp)
        | cons b l => exact Nat.succ_pos _
      rw [l4Of_length h5] at hsome
      rw [l4Of_eq h5, List.head?_drop] at htype
      rw [kindOf_ip hip h5 (by omega), hproto, if_pos rfl, if_neg (by omega),
        List.getD_eq_getElem?_getD, htype]
      rfl
    · exact hdropped hip (.inr h5)
  | options hip hhl => exact hdropped hip (.inr hhl)
  | cutHeader hip hlen => exact hdropped hip (.inl hlen)
  | cutPorts hip hproto hlen =>
    by_cases h5 : iphHl (bs.drop ethHdrLen) = 5
    · by_cases hshort : bs.length < ethHdrLen + ipHlen
      · exact hdropped hip (.inl hshort)
      · rw [l4Of_length h5] at hlen
        rw [kindOf_ip hip h5 (Nat.not_lt.mp hshort), if_neg (l4_ne_icmp hproto), if_pos hproto,
          if_pos (by unfold wanHdrWindow; omega)]
        rfl
    · exact hdropped hip (.inr h5)
  | ethertype hip harp =>
    rw [kindOf_other harp (.inr (.inl hip))]
    rfl

/-- **The inbound policy holds of every frame, however it is cut**: none of the frames it is
    there to keep out is passed on to the stack. -/
theorem staInput_forbidden (p : Pbuf) (r : Rules) (hlen : ethHdrLen ≤ p.totLen)
    (h : Forbidden p.bytes) : staInput (some p) r = false := by
  rw [staInput_kind r hlen]
  by_contra hne
  have hin : (kindOf p.bytes p.readable).ingress r = true := by simpa using hne
  have hwhole := (kindOf_cut p.bytes (Pbuf.readable_le hlen)).ingress hin
  rw [show p.totLen = p.bytes.length from rfl, h.refused r] at hwhole
  exact absurd hwhole (by decide)

end

/-- A frame of an IPv4 packet without options, in the fields the filter looks at; `frag` is
    the word of the flags and the fragment offset. -/
def ipFrame (frag : Nat) (proto : Nat) (src dest : Ip) (l4 : List UInt8) : List UInt8 :=
  List.replicate 12 0 ++ beBytes 2 ethtypeIp ++ [0x45, 0, 0, 40, 0, 0] ++ beBytes 2 frag ++
    [64, UInt8.ofNat proto, 0, 0] ++ beBytes 4 src.toNat ++ beBytes 4 dest.toNat ++ l4

/-- A segment to port 80, its ports in a second buffer. -/
theorem staInput_forbidden_web :
    staInput (some ⟨(ipFrame 0 ipProtoTcp 0x08080808 0x0a000002 []), [[0xc0, 0, 0, 80]]⟩)
      .zero = false :=
  staInput_forbidden _ _ (by decide)
    (.tcp (by decide) (by decide) (by decide) (by decide) (by decide))

/-! ## The verdict on a frame in one piece -/

/-- What `egress_allowed` and `ingress_allowed` say of the window on a frame. -/
def verdicts (p : Pbuf) (r : Rules) : Option (Bool × Bool) :=
  (frameWindow (some p)).map fun f => (egressAllowed f r, ingressAllowed f r)

/-- The first segment ends behind the IP header and before what the rules read of the packet:
    the type of an ICMP message some rule admits, or the ports of a UDP or TCP packet. -/
structure CutShort (p : Pbuf) : Prop where
  ethType : beNat 2 (p.bytes.drop 12) = ethtypeIp
  noOptions : iphHl (p.bytes.drop ethHdrLen) = 5
  header : ethHdrLen + ipHlen ≤ p.len
  rest : (iphProto (p.bytes.drop ethHdrLen) = ipProtoIcmp ∧ p.len < ethHdrLen + ipHlen + 1 ∧
      ethHdrLen + ipHlen + 1 ≤ p.totLen ∧
      ((p.bytes.drop ethHdrLen).getD ipHlen 0).toNat ∈ [icmpEr, icmpDur, icmpEcho, icmpTe]) ∨
    ((iphProto (p.bytes.drop ethHdrLen) = ipProtoUdp ∨
      iphProto (p.bytes.drop ethHdrLen) = ipProtoTcp) ∧ p.len < wanHdrWindow ∧
      wanHdrWindow ≤ p.totLen)

/-- Two kinds no rule set tells apart. -/
def Kind.Alike (k k' : Kind) : Prop :=
  ∀ r, k.egress r = k'.egress r ∧ k.ingress r = k'.ingress r

section

variable {p : Pbuf}

theorem verdicts_kind (r : Rules) (h : ethHdrLen ≤ p.totLen) :
    verdicts p r =
      some ((kindOf p.bytes p.readable).egress r, (kindOf p.bytes p.readable).ingress r) := by
  obtain ⟨f, hf, hkind⟩ := Option.map_eq_some_iff.mp (frameWindow_kind h)
  unfold verdicts
  rw [hf, Option.map_some, egressAllowed_kind, ingressAllowed_kind, hkind]

theorem verdicts_short (r : Rules) (h : p.totLen < ethHdrLen) : verdicts p r = none := by
  unfold verdicts
  rw [frameWindow_short h, Option.map_none]

/-- Verdicts agree where the kinds do. -/
theorem verdicts_flat_iff :
    (∀ r, verdicts p r = verdicts p.flat r) ↔
      (ethHdrLen ≤ p.totLen → (kindOf p.bytes p.readable).Alike (kindOf p.bytes p.totLen)) := by
  constructor
  · intro hsame hlen r
    have hr := hsame r
    rw [verdicts_kind r hlen, verdicts_kind r (by rw [Pbuf.flat_totLen]; exact hlen),
      Pbuf.flat_bytes, Pbuf.flat_readable hlen] at hr
    simpa using hr
  · intro halike r
    by_cases hlen : ethHdrLen ≤ p.totLen
    · obtain ⟨heg, hin⟩ := halike hlen r
      rw [verdicts_kind r hlen, verdicts_kind r (by rw [Pbuf.flat_totLen]; exact hlen),
        Pbuf.flat_bytes, Pbuf.flat_readable hlen, heg, hin]
    · have hshort : p.totLen < ethHdrLen := Nat.not_le.mp hlen
      rw [verdicts_short r hshort, verdicts_short r (by rw [Pbuf.flat_totLen]; exact hshort)]

/-! ### Rule sets that tell kinds apart -/

/-- The port list, as the loop over it finds it. -/
theorem portListed_iff {r : Rules} {dport : Nat} {want : UInt8} {is : List (Fin maxPorts)}
    (hsorted : is.Pairwise (· < ·)) :
    portListed r dport want is = true ↔ ∃ i ∈ is, i.val < r.nports.toNat ∧
      (r.ports i).port.toNat = dport ∧ (r.ports i).proto = want := by
  induction is with
  | nil => simp [portListed]
  | cons i is ih =>
    obtain ⟨hfirst, hrest⟩ := List.pairwise_cons.mp hsorted
    rw [portListed, List.exists_mem_cons_iff]
    split
    · by_cases hrule : (r.ports i).port.toNat = dport ∧ (r.ports i).proto = want
      · rw [if_pos hrule.1, if_pos hrule.2]
        exact iff_of_true rfl (.inl ⟨‹_›, hrule⟩)
      · have hskip : (if (r.ports i).port.toNat = dport then
              if (r.ports i).proto = want then true else portListed r dport want is
            else portListed r dport want is) = portListed r dport want is := by
          split
          · rw [if_neg (fun hproto => hrule ⟨‹_›, hproto⟩)]
          · rfl
        rw [hskip, ih hrest]
        exact (or_iff_right (fun h => hrule h.2)).symm
    · -- the loop ends at the number of rules, and no later slot is below it
      rename_i hend
      refine iff_of_false (by simp) ?_
      rintro (⟨hlt, -⟩ | ⟨j, hj, hlt, -⟩)
      · exact hend hlt
      · exact hend (lt_trans (hfirst j hj) hlt)

/-- A rule set that lists one port, for one protocol. -/
def listing (proto dport : Nat) : Rules where
  ports := fun _ => ⟨BitVec.ofNat 16 dport, if proto = ipProtoUdp then wanProtoUdp else wanProtoTcp⟩
  nports := 1
  dnsIp := 0
  up := true

theorem egressPorts_listing {proto dport : Nat} (dest : Ip) (h : dport < 2 ^ 16) :
    egressPorts (listing proto dport) proto dest dport = true := by
  have hlisted : portListed (listing proto dport) dport
      (if proto = ipProtoUdp then wanProtoUdp else wanProtoTcp) (List.finRange maxPorts) = true := by
    rw [portListed_iff (List.pairwise_lt_finRange maxPorts)]
    refine ⟨⟨0, by decide⟩, List.mem_finRange _, (by decide : 0 < 1), ?_, rfl⟩
    simp only [listing, BitVec.toNat_ofNat]
    exact Nat.mod_eq_of_lt h
  unfold egressPorts
  split
  · rfl
  · split
    · rfl
    · exact hlisted

theorem egress_listing {s : Segment} (h : s.dport < 2 ^ 16) :
    Kind.egress (listing s.proto s.dport) (.segment s) = true := by
  rw [Kind.egress, egressPorts_listing s.dest h]
  simp [listing]

theorem Kind.other_alike_segment {s : Segment} (h : s.dport < 2 ^ 16) :
    ¬ Kind.other.Alike (.segment s) := fun halike => by
  have hout := egress_listing h
  rw [← (halike _).1] at hout
  exact absurd hout (by simp [Kind.egress])

theorem Kind.unknown_alike_icmp {type : Nat} :
    (Kind.icmp 0xff).Alike (.icmp type) ↔ type ∉ [icmpEr, icmpDur, icmpEcho, icmpTe] := by
  constructor
  · intro halike hmem
    obtain ⟨hout, hin⟩ := halike (listing 0 0)
    simp only [List.mem_cons, List.not_mem_nil, or_false] at hmem
    rcases hmem with rfl | rfl | rfl | rfl
    · exact absurd hin (by decide)
    · exact absurd hin (by decide)
    · exact absurd hout (by decide)
    · exact absurd hin (by decide)
  · intro hno r
    simp only [List.mem_cons, List.not_mem_nil, or_false, not_or] at hno
    simp [Kind.egress, Kind.ingress, icmpEcho, icmpEr, icmpDur, icmpTe] at hno ⊢
    simp [hno]

/-! ### What a cut changes -/

theorem Kind.Alike.refl (k : Kind) : k.Alike k := fun _ => ⟨rfl, rfl⟩

/-- Three lengths matter: the header's, the ICMP type's and the window's. -/
theorem kindOf_congr (bs : List UInt8) {len len' : Nat}
    (hheader : len < ethHdrLen + ipHlen ↔ len' < ethHdrLen + ipHlen)
    (htype : len < ethHdrLen + ipHlen + 1 ↔ len' < ethHdrLen + ipHlen + 1)
    (hports : len < wanHdrWindow ↔ len' < wanHdrWindow) : kindOf bs len = kindOf bs len' := by
  unfold kindOf
  simp only [hheader, htype, hports]

/-- The copied window is as good as the frame. -/
theorem kindOf_copied (h : p.len < ethHdrLen + ipHlen) (hlen : ethHdrLen ≤ p.totLen) :
    kindOf p.bytes p.readable = kindOf p.bytes p.totLen := by
  have hle : p.len ≤ p.totLen := Pbuf.len_le
  have hwindow : ethHdrLen + ipHlen + 4 = wanHdrWindow := rfl
  have hip : 0 < ipHlen := by decide
  unfold Pbuf.readable
  rw [if_neg (Nat.not_le.mpr h)]
  split
  · exact kindOf_congr _ (by omega) (by omega) (by omega)
  · split
    · exact kindOf_congr _ (by omega) (by omega) (by omega)
    · exact kindOf_congr _ (by omega) (by omega) (by omega)

/-- **The verdict depends on the cut exactly where the first segment ends between the IP header
    and what the rules read behind it.** Everywhere else a frame is judged, in both directions
    and under every rule set, as it is in one piece. -/
theorem verdicts_flat : (∀ r, verdicts p r = verdicts p.flat r) ↔ ¬ CutShort p := by
  rw [verdicts_flat_iff]
  have hle : p.len ≤ p.totLen := Pbuf.len_le
  have hport : beNat 2 (((p.bytes.drop ethHdrLen).drop (ipHlen + 2))) < 2 ^ 16 := beNat_lt 2 _
  by_cases hheader : p.len < ethHdrLen + ipHlen
  · refine iff_of_true (fun hlen => ?_) (fun hcut => absurd hcut.header (Nat.not_le.mpr hheader))
    rw [kindOf_copied hheader hlen]
    exact .refl _
  have hlong : ethHdrLen + ipHlen ≤ p.len := Nat.not_lt.mp hheader
  have hread : p.readable = p.len := if_pos hlong
  have heth : ethHdrLen ≤ p.totLen := le_trans (le_trans (Nat.le_add_right _ _) hlong) hle
  rw [forall_prop_of_true heth, hread]
  by_cases hip : beNat 2 (p.bytes.drop 12) = ethtypeIp ∧ iphHl (p.bytes.drop ethHdrLen) = 5
  · obtain ⟨hip, h5⟩ := hip
    rw [kindOf_ip hip h5 hlong, kindOf_ip hip h5 (le_trans hlong hle)]
    split
    · rename_i hicmp
      have hproto : ¬ (iphProto (p.bytes.drop ethHdrLen) = ipProtoUdp ∨
          iphProto (p.bytes.drop ethHdrLen) = ipProtoTcp) := by
        rw [hicmp]
        decide
      by_cases hcut : p.len < ethHdrLen + ipHlen + 1 ∧ ethHdrLen + ipHlen + 1 ≤ p.totLen
      · rw [if_pos hcut.1, if_neg (Nat.not_lt.mpr hcut.2), Kind.unknown_alike_icmp, not_iff_not]
        exact ⟨fun hmem => ⟨hip, h5, hlong, .inl ⟨hicmp, hcut.1, hcut.2, hmem⟩⟩,
          fun hshort => (hshort.rest.resolve_right fun h => hproto h.1).2.2.2⟩
      · have hsame : p.len < ethHdrLen + ipHlen + 1 ↔ p.totLen < ethHdrLen + ipHlen + 1 := by
          omega
        simp only [hsame]
        refine iff_of_true (.refl _) fun hshort => ?_
        have htype := hshort.rest.resolve_right fun h => hproto h.1
        exact hcut ⟨htype.2.1, htype.2.2.1⟩
    · rename_i hicmp
      split
      · rename_i hproto
        by_cases hcut : p.len < wanHdrWindow ∧ wanHdrWindow ≤ p.totLen
        · rw [if_pos hcut.1, if_neg (Nat.not_lt.mpr hcut.2)]
          exact iff_of_false (Kind.other_alike_segment hport)
            (not_not.mpr ⟨hip, h5, hlong, .inr ⟨hproto, hcut⟩⟩)
        · have hsame : p.len < wanHdrWindow ↔ p.totLen < wanHdrWindow := by omega
          simp only [hsame]
          exact iff_of_true (.refl _) fun hshort =>
            hcut (hshort.rest.resolve_left fun h => hicmp h.1).2
      · rename_i hproto
        refine iff_of_true (.refl _) fun hshort => ?_
        rcases hshort.rest with h | h
        · exact hicmp h.1
        · exact hproto h.1
  · -- neither cut nor whole does such a frame have anything behind a header
    refine iff_of_true ?_ fun hcut => hip ⟨hcut.ethType, hcut.noOptions⟩
    by_cases harp : beNat 2 (p.bytes.drop 12) = ethtypeArp
    · rw [kindOf, if_pos harp, kindOf, if_pos harp]
      exact .refl _
    · have hno := Or.inr (a := p.len < ethHdrLen + ipHlen) (not_and_or.mp hip)
      have hno' := Or.inr (a := p.totLen < ethHdrLen + ipHlen) (not_and_or.mp hip)
      rw [kindOf_other harp hno, kindOf_other harp hno']
      exact .refl _

/-- An outgoing segment to a listed port, cut behind its IP header. -/
def cutSegment : Pbuf :=
  ⟨ipFrame 0 ipProtoTcp 0x0a000002 0x08080808 [], [[0xc0, 0, 0x08, 0x35]]⟩

/-- In one piece it leaves; cut, it is refused. -/
theorem verdicts_cutSegment :
    verdicts cutSegment (listing ipProtoTcp 2101) ≠
      verdicts cutSegment.flat (listing ipProtoTcp 2101) := by
  have hcut : verdicts cutSegment (listing ipProtoTcp 2101) = some (false, false) := by decide
  have hflat : verdicts cutSegment.flat (listing ipProtoTcp 2101) = some (true, false) := by decide
  rw [hcut, hflat]
  decide

end

end Wan
end Wt32Router
