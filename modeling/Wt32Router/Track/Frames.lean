import Wt32Router.Wan.Kinds
import Wt32Router.Track.Clients

/-!
# Which frames are DHCP

A device that is cut off may still do DHCP, or it could not be brought back. So both wrappers
of `main/client_track.c` ask of its frames whether they are: `traffic_input_wrapper` of those
that come from it, `frame_is_dhcp` of those that go to it. The first reads the frame in place
if its first segment holds the IP header, the second copies the first 38 bytes of the chain.

> **`dhcp_recognised_alike_iff`**: the two agree with each other, and with the frame in one
> piece, on every frame but one kind: a client's DHCP whose first segment ends within the four
> bytes of ports behind the IP header.

The 34 bytes that satisfy the wrapper are four too few for `is_dhcp_packet`, which then says
no. The frame is dropped with the rest of what a cut-off device sends, its port is not noted,
and its source address is taken for the one the client is using.
-/

namespace Wt32Router
namespace Track

open Lib
open Wan hiding Ip
open Dhcp (Ip Mac)

/-! ## What both wrappers ask -/

/-- `is_dhcp_packet`, of the bytes from the IP header on. -/
def isDhcpPacket (iph : List UInt8) (avail : Nat) : Bool :=
  if iphProto iph ≠ ipProtoUdp ∨ iphHl iph ≠ 5 ∨ avail < ipHlen + 4 then false
  else
    let sport := beNat 2 (iph.drop ipHlen)
    let dport := beNat 2 (iph.drop (ipHlen + 2))
    sport == 67 || sport == 68 || dport == 67 || dport == 68

/-- `hdr->type`. -/
def etherType (hdr : List UInt8) : Nat := beNat 2 (hdr.drop 12)

/-- `hdr->src.addr`. -/
def srcAddr (hdr : List UInt8) : Mac := BitVec.ofNat 48 (beNat 6 (hdr.drop 6))

/-- `mac_is_client`. The group bit is the lowest of the first octet. -/
def macIsClient (bridgeMac mac : Mac) : Bool :=
  if mac.getLsbD 40 then false
  else if mac = 0 then false
  else decide (mac ≠ bridgeMac)

/-- The size of the buffer each copies a chained frame to. -/
def hdrBufLen : Nat := ethHdrLen + ipHlen + 4

/-! ## The way in -/

/-- What `traffic_input_wrapper` reads of a frame before it looks at it. -/
structure RxHeader where
  hdr : List UInt8
  haveIpHdr : Bool
  haveLen : Nat
deriving DecidableEq

def rxHeader (p : Pbuf) : Option RxHeader :=
  if ethHdrLen + ipHlen ≤ p.len then some ⟨p.payload, true, p.len⟩
  else if ethHdrLen + ipHlen ≤ p.totLen then
    let haveLen := if p.totLen < hdrBufLen then p.totLen else hdrBufLen
    some ⟨p.bytes.take haveLen, true, haveLen⟩
  else if 12 ≤ p.len then some ⟨p.payload, false, 0⟩
  else none

/-- `is_dhcp` of a client's frame. -/
def RxHeader.isDhcp (h : RxHeader) : Bool :=
  if h.haveIpHdr = true ∧ etherType h.hdr = ethtypeIp then
    isDhcpPacket (h.hdr.drop ethHdrLen) (h.haveLen - ethHdrLen)
  else false

/-- The source address of a client's packet, where it is believed. -/
def RxHeader.srcIp (h : RxHeader) : Ip :=
  if h.haveIpHdr = true ∧ etherType h.hdr = ethtypeIp ∧ h.isDhcp = false then
    ipSrc (h.hdr.drop ethHdrLen)
  else 0

/-- What becomes of a frame a port has received. -/
structure Received where
  /-- `is_dhcp`, if the frame is one the wrapper classifies -/
  isDhcp : Option Bool := none
  /-- the arguments of `note_dhcp_port` -/
  noted : Option (Mac × Bool) := none
  /-- the event for the queue -/
  event : Option TrafficEvent := none
  /-- the frame goes on to the bridge's input -/
  chained : Bool := true
deriving DecidableEq

/-- `traffic_input_wrapper`, with what `mac_is_quarantined` answers. -/
def trafficInputWrapper (bridgeMac : Mac) (quarantined : Mac → Bool) (p : Option Pbuf)
    (isWifi : Bool) : Received :=
  match p with
  | none => {}
  | some p =>
    match rxHeader p with
    | none => {}
    | some h =>
      let src := srcAddr h.hdr
      if macIsClient bridgeMac src then
        { isDhcp := some h.isDhcp
          noted := if h.isDhcp then some (src, isWifi) else none
          event := some
            { mac := src, isWifi := isWifi, bytes := BitVec.ofNat 16 p.totLen, isUplink := true
              observedIp := h.srcIp }
          chained := h.isDhcp || !quarantined src }
      else {}

/-! ## The way out -/

def frameIsDhcp (p : Option Pbuf) : Bool :=
  match p with
  | none => false
  | some p =>
    if p.totLen < ethHdrLen + ipHlen then false
    else
      let len := if p.totLen < hdrBufLen then p.totLen else hdrBufLen
      let buf := p.bytes.take len
      if buf.length ≠ len then false
      else if etherType buf ≠ ethtypeIp then false
      else isDhcpPacket (buf.drop ethHdrLen) (len - ethHdrLen)

/-! ## The frame in one piece -/

/-- The test of both, of all the bytes of a frame. -/
def bytesAreDhcp (bs : List UInt8) : Bool :=
  if etherType bs ≠ ethtypeIp then false
  else isDhcpPacket (bs.drop ethHdrLen) (bs.length - ethHdrLen)

/-- Where the wrapper classifies the frame it does so as `frame_is_dhcp` does, and that is how
    the bytes are classified in one piece. -/
structure RecognisedAlike (bridgeMac : Mac) (quarantined : Mac → Bool) (p : Pbuf)
    (isWifi : Bool) : Prop where
  wayIn : ∀ b, (trafficInputWrapper bridgeMac quarantined (some p) isWifi).isDhcp = some b →
    b = frameIsDhcp (some p)
  wayOut : frameIsDhcp (some p) = bytesAreDhcp p.bytes

/-- A client's DHCP whose first segment holds the IP header and not the ports behind it. -/
def PortsCutOff (bridgeMac : Mac) (p : Pbuf) : Prop :=
  macIsClient bridgeMac (srcAddr p.bytes) = true ∧ ethHdrLen + ipHlen ≤ p.len ∧
    p.len < hdrBufLen ∧ bytesAreDhcp p.bytes = true

section

variable {p : Pbuf} {bs : List UInt8} {bridgeMac : Mac} {quarantined : Mac → Bool}
  {isWifi : Bool} {n avail : Nat}

/-! ## Reading a prefix -/

theorem isDhcpPacket_short {iph : List UInt8} (h : avail < ipHlen + 4) :
    isDhcpPacket iph avail = false :=
  if_pos (.inr (.inr h))

/-- The ports are the last bytes the test looks at. -/
theorem isDhcpPacket_of_ports {iph iph' : List UInt8} {avail' : Nat} (h : ipHlen + 4 ≤ avail)
    (h' : ipHlen + 4 ≤ avail') (hhl : iphHl iph = iphHl iph') (hproto : iphProto iph = iphProto iph')
    (hsport : beNat 2 (iph.drop ipHlen) = beNat 2 (iph'.drop ipHlen))
    (hdport : beNat 2 (iph.drop (ipHlen + 2)) = beNat 2 (iph'.drop (ipHlen + 2))) :
    isDhcpPacket iph avail = isDhcpPacket iph' avail' := by
  unfold isDhcpPacket
  simp only [hhl, hproto, hsport, hdport, Nat.not_lt.mpr h, Nat.not_lt.mpr h']

theorem etherType_take (bs : List UInt8) (h : ethHdrLen ≤ n) :
    etherType (bs.take n) = etherType bs := by
  unfold ethHdrLen at h
  exact beNat_drop_take bs 2 (by omega)

theorem srcAddr_take (bs : List UInt8) (h : 12 ≤ n) : srcAddr (bs.take n) = srcAddr bs := by
  unfold srcAddr
  rw [beNat_drop_take bs 6 (by omega)]

/-- A prefix that reaches the ports is classified as the whole is. -/
theorem isDhcpPacket_take (bs : List UInt8) (h : hdrBufLen ≤ n) (hav : hdrBufLen ≤ avail) :
    isDhcpPacket ((bs.take n).drop ethHdrLen) (n - ethHdrLen) =
      isDhcpPacket (bs.drop ethHdrLen) (avail - ethHdrLen) := by
  have h38 : 38 ≤ n := h
  have hav38 : 38 ≤ avail := hav
  apply isDhcpPacket_of_ports
  · unfold ipHlen ethHdrLen
    omega
  · unfold ipHlen ethHdrLen
    omega
  · exact iphHl_take bs (by omega)
  · exact iphProto_take bs (by omega)
  · rw [List.drop_take]
    exact beNat_drop_take _ 2 (by unfold ipHlen ethHdrLen; omega)
  · rw [List.drop_take]
    exact beNat_drop_take _ 2 (by unfold ipHlen ethHdrLen; omega)

/-- A frame with no room for the ports is not DHCP. -/
theorem bytesAreDhcp_short (h : bs.length < hdrBufLen) : bytesAreDhcp bs = false := by
  have h38 : bs.length < 38 := h
  unfold bytesAreDhcp
  split
  · rfl
  · exact isDhcpPacket_short (by unfold ipHlen ethHdrLen; omega)

/-- The first bytes of a frame classify it, if they reach the ports or are all there is. -/
theorem bytesAreDhcp_take (h : n ≤ bs.length) (hn : n = bs.length ∨ hdrBufLen ≤ n) :
    bytesAreDhcp (bs.take n) = bytesAreDhcp bs := by
  rcases hn with rfl | hn
  · rw [List.take_length]
  · have heth : ethHdrLen ≤ n := le_trans (by decide) hn
    unfold bytesAreDhcp
    rw [etherType_take bs heth, List.length_take, Nat.min_eq_left h,
      isDhcpPacket_take bs hn (le_trans hn h)]

/-- How many bytes are copied: all of a short frame, and enough of a long one. -/
theorem copyLen_cases (p : Pbuf) :
    (if p.totLen < hdrBufLen then p.totLen else hdrBufLen) ≤ p.bytes.length ∧
      ((if p.totLen < hdrBufLen then p.totLen else hdrBufLen) = p.bytes.length ∨
        hdrBufLen ≤ if p.totLen < hdrBufLen then p.totLen else hdrBufLen) := by
  have htot : p.totLen = p.bytes.length := rfl
  split
  · exact ⟨le_refl _, .inl rfl⟩
  · rename_i hlong
    exact ⟨htot ▸ Nat.not_lt.mp hlong, .inr (le_refl _)⟩

/-! ## The way out copies, and sees what there is -/

theorem frameIsDhcp_eq (p : Pbuf) : frameIsDhcp (some p) = bytesAreDhcp p.bytes := by
  obtain ⟨hle, hreach⟩ := copyLen_cases p
  have hcopy := bytesAreDhcp_take hle hreach
  unfold frameIsDhcp
  dsimp only
  generalize (if p.totLen < hdrBufLen then p.totLen else hdrBufLen) = len at *
  have hlen : (p.bytes.take len).length = len := List.length_take_of_le hle
  split
  · rename_i hshort
    have htot : p.bytes.length < hdrBufLen := lt_trans hshort (by decide)
    exact (bytesAreDhcp_short htot).symm
  · rw [if_neg (not_not.mpr hlen), ← hcopy]
    unfold bytesAreDhcp
    rw [hlen]

/-! ## The way in -/

/-- The three ways a header is had: in place, by a copy, or the MACs alone. -/
theorem rxHeader_cases {h : RxHeader} (hrx : rxHeader p = some h) :
    (ethHdrLen + ipHlen ≤ p.len ∧ h = ⟨p.bytes.take p.len, true, p.len⟩) ∨
      (p.len < ethHdrLen + ipHlen ∧ ethHdrLen + ipHlen ≤ p.totLen ∧
        h = ⟨p.bytes.take (if p.totLen < hdrBufLen then p.totLen else hdrBufLen), true,
          if p.totLen < hdrBufLen then p.totLen else hdrBufLen⟩) ∨
      (p.totLen < ethHdrLen + ipHlen ∧ 12 ≤ p.len ∧ h = ⟨p.bytes.take p.len, false, 0⟩) := by
  have hpay : p.bytes.take p.len = p.payload := Pbuf.take_len
  rw [hpay]
  unfold rxHeader at hrx
  split at hrx
  · rename_i hlen
    exact .inl ⟨hlen, (Option.some.inj hrx).symm⟩
  · rename_i hlen
    split at hrx
    · rename_i htot
      exact .inr (.inl ⟨Nat.not_le.mp hlen, htot, (Option.some.inj hrx).symm⟩)
    · rename_i htot
      split at hrx
      · rename_i hmacs
        exact .inr (.inr ⟨Nat.not_le.mp htot, hmacs, (Option.some.inj hrx).symm⟩)
      · exact absurd hrx (by simp)

/-- A header that was read reaches past the source address, and is a prefix of the frame. -/
theorem rxHeader_src {h : RxHeader} (hrx : rxHeader p = some h) :
    srcAddr h.hdr = srcAddr p.bytes := by
  rcases rxHeader_cases hrx with ⟨hlen, rfl⟩ | ⟨-, htot, rfl⟩ | ⟨-, hmacs, rfl⟩
  · exact srcAddr_take _ (le_trans (by decide) hlen)
  · apply srcAddr_take
    split
    · exact le_trans (by decide) htot
    · decide
  · exact srcAddr_take _ hmacs

/-- **What the wrapper makes of a header**: what the whole frame is, unless the first segment
    was enough for it and ends before the ports do. -/
theorem rxHeader_isDhcp {h : RxHeader} (hrx : rxHeader p = some h) :
    h.isDhcp = if ethHdrLen + ipHlen ≤ p.len ∧ p.len < hdrBufLen then false
      else bytesAreDhcp p.bytes := by
  have hle : p.len ≤ p.bytes.length := Pbuf.len_le
  rcases rxHeader_cases hrx with ⟨hlen, rfl⟩ | ⟨hlen, -, rfl⟩ | ⟨htot, -, rfl⟩
  · by_cases hcut : p.len < hdrBufLen
    · rw [if_pos ⟨hlen, hcut⟩]
      have h38 : p.len < 38 := hcut
      unfold RxHeader.isDhcp
      dsimp only
      split
      · exact isDhcpPacket_short (by unfold ipHlen ethHdrLen; omega)
      · rfl
    · rw [if_neg fun h => hcut h.2, ← bytesAreDhcp_take hle (.inr (Nat.not_lt.mp hcut))]
      unfold RxHeader.isDhcp bytesAreDhcp
      simp [List.length_take_of_le hle]
  · obtain ⟨hcopy, hreach⟩ := copyLen_cases p
    have hno : ¬ (ethHdrLen + ipHlen ≤ p.len ∧ p.len < hdrBufLen) :=
      fun h => Nat.not_le.mpr hlen h.1
    rw [if_neg hno, ← bytesAreDhcp_take hcopy hreach]
    unfold RxHeader.isDhcp bytesAreDhcp
    simp [List.length_take_of_le hcopy]
  · have hshort : p.bytes.length < hdrBufLen := lt_trans htot (by decide)
    rw [bytesAreDhcp_short hshort, ite_self]
    rfl

/-- The wrapper classifies the frames of clients it can read a MAC from. -/
theorem trafficInputWrapper_isDhcp {b : Bool} :
    (trafficInputWrapper bridgeMac quarantined (some p) isWifi).isDhcp = some b ↔
      ∃ h, rxHeader p = some h ∧ macIsClient bridgeMac (srcAddr p.bytes) = true ∧
        h.isDhcp = b := by
  unfold trafficInputWrapper
  dsimp only
  cases hrx : rxHeader p with
  | none => simp
  | some h =>
    dsimp only
    rw [rxHeader_src hrx]
    split
    · rename_i hclient
      simp [hclient]
    · rename_i hother
      simp [hother]

/-- What hangs on the classification: where the port is noted, whether a device that is cut
    off gets through, and whether its source address is believed. -/
theorem trafficInputWrapper_decides {b : Bool}
    (h : (trafficInputWrapper bridgeMac quarantined (some p) isWifi).isDhcp = some b) :
    (trafficInputWrapper bridgeMac quarantined (some p) isWifi).noted =
        (if b then some (srcAddr p.bytes, isWifi) else none) ∧
      (trafficInputWrapper bridgeMac quarantined (some p) isWifi).chained =
        (b || !quarantined (srcAddr p.bytes)) := by
  obtain ⟨hdr, hrx, hclient, rfl⟩ := trafficInputWrapper_isDhcp.mp h
  unfold trafficInputWrapper
  dsimp only
  rw [hrx]
  dsimp only
  rw [rxHeader_src hrx, if_pos hclient]
  exact ⟨rfl, rfl⟩

/-- **DHCP is recognised alike on both ways**, however a frame is cut, unless it is a client's
    and cut between its IP header and the end of its ports. -/
theorem dhcp_recognised_alike_iff (bridgeMac : Mac) (quarantined : Mac → Bool) (p : Pbuf)
    (isWifi : Bool) :
    RecognisedAlike bridgeMac quarantined p isWifi ↔ ¬ PortsCutOff bridgeMac p := by
  constructor
  · rintro halike ⟨hclient, hlen, hcut, hdhcp⟩
    have hrx : rxHeader p = some ⟨p.payload, true, p.len⟩ := if_pos hlen
    have hno := rxHeader_isDhcp hrx
    rw [if_pos ⟨hlen, hcut⟩] at hno
    have hsays := halike.wayIn _ (trafficInputWrapper_isDhcp.mpr ⟨_, hrx, hclient, hno⟩)
    rw [frameIsDhcp_eq, hdhcp] at hsays
    exact Bool.false_ne_true hsays
  · intro hwhole
    refine ⟨fun b hb => ?_, frameIsDhcp_eq p⟩
    obtain ⟨h, hrx, hclient, rfl⟩ := trafficInputWrapper_isDhcp.mp hb
    rw [rxHeader_isDhcp hrx, frameIsDhcp_eq]
    split
    · rename_i hcut
      -- cut off like this, the frame was none of DHCP
      cases hdhcp : bytesAreDhcp p.bytes with
      | false => rfl
      | true => exact absurd ⟨hclient, hcut.1, hcut.2, hdhcp⟩ hwhole
    · rfl

/-- A DHCP request of 02:00:00:00:00:01 whose ports are in a segment of their own. -/
def portsApart : Pbuf where
  payload := [0xff, 0xff, 0xff, 0xff, 0xff, 0xff, 2, 0, 0, 0, 0, 1, 8, 0] ++
    [0x45, 0, 1, 0x48, 0, 0, 0, 0, 64, 17, 0, 0, 0, 0, 0, 0, 0xff, 0xff, 0xff, 0xff]
  next := [[0, 68, 0, 67, 1, 0x34, 0, 0]]

/-- Nobody is cut off, and the bridge is 02:00:00:00:00:fe. -/
theorem dhcp_recognised_alike_fails :
    ¬ ∀ (bridgeMac : Mac) (quarantined : Mac → Bool) (p : Pbuf) (isWifi : Bool),
      RecognisedAlike bridgeMac quarantined p isWifi := by
  intro h
  have hin := (h 0x0200000000fe (fun _ => false) portsApart false).wayIn false (by decide)
  exact absurd hin (by decide)

end

end Track
end Wt32Router
