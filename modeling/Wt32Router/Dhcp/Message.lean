import Wt32Router.Lib.Bytes
import Wt32Router.Dhcp.Commit

/-!
# DHCP messages: what is read out of one, and what is sent back

The request side of `handle_message`: the checks before its `switch`, `find_option`, and
the four values the branches work from. The reply side: `send_reply` with the options it
writes. Fields of the BOOTP header that no function of the file reads (`hops`, `secs`,
`yiaddr` and `siaddr` of a request, `sname`, `file`) are left out.
-/

namespace Wt32Router
namespace Dhcp

/-! ## Constants of the protocol -/

def bootRequest : UInt8 := 1
def bootReply : UInt8 := 2

def dhcpDiscover : UInt8 := 1
def dhcpOffer : UInt8 := 2
def dhcpRequest : UInt8 := 3
def dhcpDecline : UInt8 := 4
def dhcpAck : UInt8 := 5
def dhcpNak : UInt8 := 6
def dhcpRelease : UInt8 := 7
def dhcpInform : UInt8 := 8

def optSubnetMask : UInt8 := 1
def optRouter : UInt8 := 3
def optDnsServer : UInt8 := 6
def optHostname : UInt8 := 12
def optInterfaceMtu : UInt8 := 26
def optBroadcast : UInt8 := 28
def optRouterDisc : UInt8 := 31
def optRequestedIp : UInt8 := 50
def optLeaseTime : UInt8 := 51
def optMsgType : UInt8 := 53
def optServerId : UInt8 := 54
def optEnd : UInt8 := 255

/-- `DHCP_FIXED_LEN`: everything above the options. -/
def dhcpFixedLen : Nat := 236

def dhcpMinReply : Nat := 300

/-- `sizeof(((dhcp_msg_t *)0)->options)`. -/
def optionsLen : Nat := 312

def dhcpCookie : Nat := 0x63825363

/-- `dhcp_msg_t` as it came off the wire. `chaddr` is its first six octets, the MAC, and
    `chaddrPad` the other ten; `options` is the options area, 0 past its end. -/
structure DhcpMsg where
  op : UInt8
  htype : UInt8 := 1
  hlen : UInt8
  xid : BitVec 32 := 0
  flags : BitVec 16 := 0
  ciaddr : Ip := 0
  giaddr : Ip := 0
  chaddr : Mac
  chaddrPad : BitVec 80 := 0
  options : List UInt8
deriving DecidableEq

/-! ## Options -/

/-- The loop of `find_option` from offset `i`, for at most `fuel` rounds: the offset and
    length of the value. Every round moves `i` forward, so `optsLen` rounds are enough. -/
def findOptionFrom (options : List UInt8) (optsLen : Nat) (want : UInt8) :
    Nat → Nat → Option (Nat × Nat)
  | 0, _ => none
  | fuel + 1, i =>
    if i + 1 < optsLen then
      let code := options.getD i 0
      if code = optEnd then none
      else if code = 0 then findOptionFrom options optsLen want fuel (i + 1)
      else
        let len := (options.getD (i + 1) 0).toNat
        if optsLen < i + 2 + len then none
        else if code = want then some (i + 2, len)
        else findOptionFrom options optsLen want fuel (i + 2 + len)
    else none

/-- `find_option`: the first four option bytes are the cookie, already checked. -/
def findOption (m : DhcpMsg) (optsLen : Nat) (want : UInt8) : Option (Nat × Nat) :=
  findOptionFrom m.options optsLen want optsLen 4

/-- The four bytes at an offset of the options area, as an address. -/
def optionIp (m : DhcpMsg) (off : Nat) : Ip :=
  BitVec.ofNat 32 (Lib.beNat 4 (m.options.drop off))

/-- `copy_hostname`: cut to the 64-byte buffer, and every character outside the allowed
    set replaced by `-`. -/
def copyHostname (m : DhcpMsg) (off len : Nat) : List UInt8 :=
  (List.range (min len 63)).map fun i =>
    let c := m.options.getD (off + i) 0
    if (97 ≤ c ∧ c ≤ 122) ∨ (65 ≤ c ∧ c ≤ 90) ∨ (48 ≤ c ∧ c ≤ 57) ∨
        c = 46 ∨ c = 45 ∨ c = 95 then c
    else 45

/-- What `handle_message` has read out of a message when it reaches its `switch`. -/
structure Request where
  type : UInt8
  mac : Mac
  requested : Ip
  serverId : Ip
  ciaddr : Ip
  hostname : List UInt8
deriving DecidableEq

/-- The part of `handle_message` before its `switch`. `none` is a silent return. -/
def readRequest (m : DhcpMsg) (len : Nat) : Option Request :=
  if len < dhcpFixedLen + 4 ∨ m.op ≠ bootRequest ∨ m.hlen ≠ 6 then none
  else if Lib.beNat 4 m.options ≠ dhcpCookie then none
  else if m.giaddr ≠ 0 then none
  else
    let optsLen := min (len - dhcpFixedLen) optionsLen
    match findOption m optsLen optMsgType with
    | none => none
    | some (off, olen) =>
      if olen < 1 then none
      else some {
        type := m.options.getD off 0
        mac := m.chaddr
        requested := match findOption m optsLen optRequestedIp with
          | some (off, olen) => if 4 ≤ olen then optionIp m off else m.ciaddr
          | none => m.ciaddr
        serverId := match findOption m optsLen optServerId with
          | some (off, olen) => if 4 ≤ olen then optionIp m off else 0
          | none => 0
        ciaddr := m.ciaddr
        hostname := match findOption m optsLen optHostname with
          | some (off, olen) => if 0 < olen then copyHostname m off olen else []
          | none => [] }

def putOptIp (code : UInt8) (ip : Ip) : List UInt8 := code :: 4 :: Lib.beBytes 4 ip.toNat

/-- A message as a client on this bridge sends it: its type, and the address it requests
    and the server it names where these are not 0. -/
def clientMsg (type : UInt8) (mac : Mac) (requested serverId : Ip) : DhcpMsg where
  op := bootRequest
  hlen := 6
  chaddr := mac
  options := Lib.beBytes 4 dhcpCookie ++ [optMsgType, 1, type] ++
    (if requested ≠ 0 then putOptIp optRequestedIp requested else []) ++
    (if serverId ≠ 0 then putOptIp optServerId serverId else []) ++ [optEnd]

theorem readRequest_mac {m : DhcpMsg} {len : Nat} {q : Request}
    (h : readRequest m len = some q) : q.mac = m.chaddr := by
  unfold readRequest at h
  split_ifs at h
  dsimp only at h
  split at h
  · exact absurd h (by simp)
  · split_ifs at h
    simp only [Option.some.injEq] at h
    rw [← h]

/-! ## Replies -/

/-- `put_offer_options`. The lease is in seconds, and 0 leaves its option out. `wanDns` is
    what `wan_get_dns` answers here. -/
def putOfferOptions (cfg : Config) (wanDns : Ip) (leaseS : Nat) : List UInt8 :=
  putOptIp optSubnetMask cfg.netmask ++
    (if leaseS ≠ 0 then optLeaseTime :: 4 :: Lib.beBytes 4 leaseS else []) ++
    putOptIp optServerId cfg.serverIp ++ putOptIp optRouter cfg.serverIp ++
    putOptIp optDnsServer (if wanDns ≠ 0 then wanDns else cfg.serverIp) ++
    putOptIp optBroadcast ((cfg.serverIp &&& cfg.netmask) ||| ~~~cfg.netmask) ++
    [optInterfaceMtu, 2, 0x05, 0xdc] ++ [optRouterDisc, 1, 0x00]

/-- What `send_reply` puts on the wire: the header fields it fills in, the options, how
    many bytes of it are sent and where to. `type` and `leaseS` are its own arguments,
    which the options carry as well. -/
structure Reply where
  type : UInt8
  leaseS : Nat
  op : UInt8
  htype : UInt8
  hlen : UInt8
  xid : BitVec 32
  flags : BitVec 16
  ciaddr : Ip
  yiaddr : Ip
  giaddr : Ip
  chaddr : Mac
  chaddrPad : BitVec 80
  options : List UInt8
  len : Nat
  dst : Ip
deriving DecidableEq

def inaddrBroadcast : Ip := 0xFFFFFFFF

def sendReply (cfg : Config) (wanDns : Ip) (req : DhcpMsg) (type : UInt8) (yiaddr : Ip)
    (leaseS : Nat) : Reply :=
  let options := Lib.beBytes 4 dhcpCookie ++ [optMsgType, 1, type] ++
    (if type = dhcpNak then putOptIp optServerId cfg.serverIp
      else putOfferOptions cfg wanDns leaseS) ++ [optEnd]
  { type := type
    leaseS := leaseS
    op := bootReply
    htype := req.htype
    hlen := req.hlen
    xid := req.xid
    flags := req.flags
    ciaddr := if type = dhcpAck then req.ciaddr else 0
    yiaddr := yiaddr
    giaddr := req.giaddr
    chaddr := req.chaddr
    chaddrPad := req.chaddrPad
    options := options
    len := max (dhcpFixedLen + options.length) dhcpMinReply
    dst := if req.ciaddr ≠ 0 ∧ type ≠ dhcpNak then req.ciaddr else inaddrBroadcast }

@[simp] theorem sendReply_type (cfg : Config) (d : Ip) (m : DhcpMsg) (t : UInt8) (y : Ip)
    (l : Nat) : (sendReply cfg d m t y l).type = t := rfl

@[simp] theorem sendReply_yiaddr (cfg : Config) (d : Ip) (m : DhcpMsg) (t : UInt8) (y : Ip)
    (l : Nat) : (sendReply cfg d m t y l).yiaddr = y := rfl

@[simp] theorem sendReply_chaddr (cfg : Config) (d : Ip) (m : DhcpMsg) (t : UInt8) (y : Ip)
    (l : Nat) : (sendReply cfg d m t y l).chaddr = m.chaddr := rfl

@[simp] theorem sendReply_leaseS (cfg : Config) (d : Ip) (m : DhcpMsg) (t : UInt8) (y : Ip)
    (l : Nat) : (sendReply cfg d m t y l).leaseS = l := rfl

end Dhcp
end Wt32Router
