import Wt32Router.Lib.Bytes
import Wt32Router.Wan.Rules
import Mathlib.Data.List.FinRange

/-!
# The packet filter

`egress_allowed` and `ingress_allowed` judge a frame against a rule set, and see of it what
`frame_window` shows them: the Ethernet header, and as much of what follows as the first
segment of the buffer chain holds, or a copy of the first 38 bytes where that is too short.

A wrapper asks for a verdict only where `frame_window` succeeds, and lets everything else
through (`staInput`, `staOutput`). Its counters and its log line are not here.
-/

namespace Wt32Router
namespace Wan

open Lib

/-! ## Frames -/

/-- `struct pbuf`: the first segment and the ones chained to it. -/
structure Pbuf where
  payload : List UInt8
  next : List (List UInt8) := []
deriving DecidableEq, Repr

def Pbuf.bytes (p : Pbuf) : List UInt8 := p.payload ++ p.next.flatten

/-- `p->len`. -/
def Pbuf.len (p : Pbuf) : Nat := p.payload.length

/-- `p->tot_len`. -/
def Pbuf.totLen (p : Pbuf) : Nat := p.bytes.length

/-- `sizeof(struct eth_hdr)`. -/
def ethHdrLen : Nat := 14

def ipHlen : Nat := 20

def wanHdrWindow : Nat := ethHdrLen + ipHlen + 4

def ethtypeIp : Nat := 0x0800
def ethtypeArp : Nat := 0x0806
def ipProtoIcmp : Nat := 1
def ipProtoTcp : Nat := 6
def ipProtoUdp : Nat := 17
def icmpEr : Nat := 0
def icmpDur : Nat := 3
def icmpEcho : Nat := 8
def icmpTe : Nat := 11

def ipNaptPortRangeStart : Nat := 49152

def ipNaptPortRangeEnd : Nat := 61439

/-- `wan_frame_t`: the bytes that can be read from each pointer on. -/
structure WanFrame where
  eth : List UInt8
  ip : Option (List UInt8)
  ipAvail : Nat
deriving DecidableEq, Repr

/-- `eth->type`. -/
def WanFrame.ethType (f : WanFrame) : Nat := beNat 2 (f.eth.drop 12)

/-- `IPH_HL`, `IPH_PROTO`, `ip->src.addr` and `ip->dest.addr`. -/
def iphHl (ip : List UInt8) : Nat := (ip.getD 0 0).toNat % 16
def iphProto (ip : List UInt8) : Nat := (ip.getD 9 0).toNat
def ipSrc (ip : List UInt8) : Ip := BitVec.ofNat 32 (beNat 4 (ip.drop 12))
def ipDest (ip : List UInt8) : Ip := BitVec.ofNat 32 (beNat 4 (ip.drop 16))

/-- The end of `frame_window`: the IP header of `have_len` readable bytes. -/
def withIp (eth : List UInt8) (haveLen : Nat) : WanFrame :=
  if beNat 2 (eth.drop 12) = ethtypeIp then
    ⟨eth, some (eth.drop ethHdrLen), haveLen - ethHdrLen⟩
  else ⟨eth, none, 0⟩

/-- `frame_window`, with the frame it returns or nothing. -/
def frameWindow (p : Option Pbuf) : Option WanFrame :=
  match p with
  | none => none
  | some p =>
    if ethHdrLen + ipHlen ≤ p.len then some (withIp p.payload p.len)
    else if ethHdrLen + ipHlen ≤ p.totLen then
      let haveLen := if p.totLen < wanHdrWindow then p.totLen else wanHdrWindow
      some (withIp (p.bytes.take haveLen) haveLen)
    else if ethHdrLen ≤ p.len then some ⟨p.payload, none, 0⟩
    else if ethHdrLen ≤ p.totLen then some ⟨p.bytes.take ethHdrLen, none, 0⟩
    else none

/-- `l4_ports`: source and destination. -/
def l4Ports (f : WanFrame) : Option (Nat × Nat) :=
  match f.ip with
  | none => none
  | some ip =>
    if iphHl ip ≠ 5 ∨ f.ipAvail < ipHlen + 4 then none
    else some (beNat 2 (ip.drop ipHlen), beNat 2 (ip.drop (ipHlen + 2)))

def icmpType (f : WanFrame) : Nat :=
  match f.ip with
  | none => 0xff
  | some ip => if iphHl ip ≠ 5 ∨ f.ipAvail < ipHlen + 1 then 0xff else (ip.getD ipHlen 0).toNat

/-! ## Verdicts -/

/-- The loop over the port list, over the slots from some slot on. -/
def portListed (r : Rules) (dport : Nat) (want : UInt8) : List (Fin maxPorts) → Bool
  | [] => false
  | i :: is =>
    if i.val < r.nports.toNat then
      if (r.ports i).port.toNat = dport then
        if (r.ports i).proto = want then true else portListed r dport want is
      else portListed r dport want is
    else false

/-- `egress_allowed`, from the ports of a UDP or TCP frame on. -/
def egressPorts (r : Rules) (proto : Nat) (dest : Ip) (dport : Nat) : Bool :=
  if dport = 53 ∧ r.dnsIp ≠ 0 ∧ dest = r.dnsIp then true
  else if proto = ipProtoUdp ∧ dport = 123 then true
  else
    portListed r dport (if proto = ipProtoUdp then wanProtoUdp else wanProtoTcp)
      (List.finRange maxPorts)

def egressAllowed (f : WanFrame) (r : Rules) : Bool :=
  if f.ethType = ethtypeArp then true
  else match f.ip with
  | none => false
  | some ip =>
    if f.ethType ≠ ethtypeIp ∨ iphHl ip ≠ 5 then false
    else if iphProto ip = ipProtoUdp ∧ l4Ports f = some (68, 67) then true
    else if !r.up then false
    else if iphProto ip = ipProtoIcmp then icmpType f == icmpEcho
    else if iphProto ip = ipProtoUdp ∨ iphProto ip = ipProtoTcp then
      match l4Ports f with
      | none => false
      | some (_, dport) => egressPorts r (iphProto ip) (ipDest ip) dport
    else false

/-- `ingress_allowed`, from the ports of a UDP or TCP frame on. -/
def ingressPorts (r : Rules) (proto : Nat) (src : Ip) (sport dport : Nat) : Bool :=
  if dport = 68 then true
  else if proto = ipProtoUdp ∧ sport = 53 ∧ r.dnsIp ≠ 0 ∧ src = r.dnsIp then true
  else if proto = ipProtoUdp ∧ sport = 123 then true
  else decide (ipNaptPortRangeStart ≤ dport ∧ dport ≤ ipNaptPortRangeEnd)

def ingressAllowed (f : WanFrame) (r : Rules) : Bool :=
  if f.ethType = ethtypeArp then true
  else match f.ip with
  | none => false
  | some ip =>
    if f.ethType ≠ ethtypeIp ∨ iphHl ip ≠ 5 then false
    else if iphProto ip = ipProtoIcmp then
      icmpType f == icmpEr || icmpType f == icmpDur || icmpType f == icmpTe
    else if iphProto ip = ipProtoUdp ∨ iphProto ip = ipProtoTcp then
      match l4Ports f with
      | none => false
      | some (sport, dport) => ingressPorts r (iphProto ip) (ipSrc ip) sport dport
    else false

/-- `sta_output_wrapper` and `sta_input_wrapper`: whether the frame goes on. -/
def staOutput (p : Option Pbuf) (r : Rules) : Bool :=
  match frameWindow p with
  | none => true
  | some f => egressAllowed f r

def staInput (p : Option Pbuf) (r : Rules) : Bool :=
  match frameWindow p with
  | none => true
  | some f => ingressAllowed f r

end Wan
end Wt32Router
