import Wt32Router.Lib.Memory
import Wt32Router.Lib.Tlv
import Wt32Router.Dhcp.Message

/-!
# The options of a DHCP message

`find_option` walks an area that anybody may have sent, and `send_reply` fills one through a raw
pointer. Both are here as they touch memory: each read says whether it was inside the length, each
write whether it was inside the area, and a walk that takes more turns than there are bytes is
told from one that ends.

> **`option_codec`**: `find_option` finds the first complete option of the code, ahead of an
> `OPT_END` and of anything that is not complete; and in what `send_reply` writes it finds
> everything that was written.

`Dhcp/Message.lean` has both as values. They are the same (`findInside_eq`, `putReply_eq`).
-/

namespace Wt32Router
namespace Dhcp

open Lib

/-! ## Reading -/

/-- The loop of `find_option` over the bytes inside the length, for at most `fuel` turns. `none` is
    a read of another byte, or a turn it does not have. -/
def findInsideFrom (area : List UInt8) (want : UInt8) : Nat → Nat → Option (Option (Nat × Nat))
  | 0, _ => none
  | fuel + 1, i =>
    if i + 1 < area.length then do
      let code ← area[i]?
      if code = optEnd then some none
      else if code = 0 then findInsideFrom area want fuel (i + 1)
      else
        let len ← area[i + 1]?
        if area.length < i + 2 + len.toNat then some none
        else if code = want then some (some (i + 2, len.toNat))
        else findInsideFrom area want fuel (i + 2 + len.toNat)
    else some none

/-- `find_option`, of an area of that length. -/
def findInside (area : List UInt8) (want : UInt8) : Option (Option (Nat × Nat)) :=
  findInsideFrom area want (area.length + 1) 4

/-- The first option of that code behind the cookie. -/
def FirstOption (area : List UInt8) (want : UInt8) (off len : Nat) : Prop :=
  ∃ o val, off = 4 + o ∧ len = val.length ∧ First 0 optEnd want (area.drop 4) o val

/-! ## Writing -/

/-- The pointer `p` into the options area, and memory from the area's first byte. -/
structure OptWriter where
  mem : Memory
  p : Nat

/-- `*p++ = b` for each of the bytes, or `memcpy`. `none` is a write past the area. -/
def OptWriter.put (w : OptWriter) (bytes : List UInt8) : Option OptWriter :=
  if w.p + bytes.length ≤ optionsLen then some ⟨store w.mem w.p bytes, w.p + bytes.length⟩
  else none

/-- `put_opt_ip`. -/
def OptWriter.putOptIp (w : OptWriter) (code : UInt8) (ip : Ip) : Option OptWriter := do
  let w ← w.put [code]
  let w ← w.put [4]
  w.put (beBytes 4 ip.toNat)

/-- `put_offer_options`. -/
def OptWriter.putOfferOptions (w : OptWriter) (cfg : Config) (wanDns : Ip) (leaseS : Nat) :
    Option OptWriter := do
  let w ← w.putOptIp optSubnetMask cfg.netmask
  let w ← if leaseS ≠ 0 then do
      let w ← w.put [optLeaseTime]
      let w ← w.put [4]
      w.put (beBytes 4 leaseS)
    else some w
  let w ← w.putOptIp optServerId cfg.serverIp
  let w ← w.putOptIp optRouter cfg.serverIp
  let w ← w.putOptIp optDnsServer (if wanDns ≠ 0 then wanDns else cfg.serverIp)
  let w ← w.putOptIp optBroadcast ((cfg.serverIp &&& cfg.netmask) ||| ~~~cfg.netmask)
  let w ← w.put [optInterfaceMtu]
  let w ← w.put [2]
  let w ← w.put [0x05]
  let w ← w.put [0xdc]
  let w ← w.put [optRouterDisc]
  let w ← w.put [1]
  w.put [0x00]

/-- The options area of `send_reply`, which starts as zeros. -/
def putReply (cfg : Config) (wanDns : Ip) (type : UInt8) (leaseS : Nat) : Option OptWriter := do
  let w : OptWriter := ⟨fun _ => 0, 0⟩
  let w ← w.put (beBytes 4 dhcpCookie)
  let w ← w.put [optMsgType]
  let w ← w.put [1]
  let w ← w.put [type]
  let w ← if type = dhcpNak then w.putOptIp optServerId cfg.serverIp
    else w.putOfferOptions cfg wanDns leaseS
  w.put [optEnd]

/-- The options of a reply, each with its value. -/
def replyOptions (cfg : Config) (wanDns : Ip) (type : UInt8) (leaseS : Nat) : List Tlv :=
  .opt optMsgType [type] ::
    if type = dhcpNak then [.opt optServerId (beBytes 4 cfg.serverIp.toNat)]
    else
      .opt optSubnetMask (beBytes 4 cfg.netmask.toNat) ::
      (if leaseS ≠ 0 then [.opt optLeaseTime (beBytes 4 leaseS)] else []) ++
      [.opt optServerId (beBytes 4 cfg.serverIp.toNat),
        .opt optRouter (beBytes 4 cfg.serverIp.toNat),
        .opt optDnsServer (beBytes 4 (if wanDns ≠ 0 then wanDns else cfg.serverIp).toNat),
        .opt optBroadcast
          (beBytes 4 ((cfg.serverIp &&& cfg.netmask) ||| ~~~cfg.netmask).toNat),
        .opt optInterfaceMtu [0x05, 0xdc], .opt optRouterDisc [0x00]]

section

variable {m : DhcpMsg} {area tail rest : List UInt8} {want : UInt8} {i fuel off len : Nat}
  {w w' : OptWriter} {as bs : List UInt8}

/-! ## The walk -/

/-- What one turn finds, by what stands at the offset. -/
theorem findInsideFrom_step {code n : UInt8} (h : area.drop i = code :: n :: rest) :
    findInsideFrom area want (fuel + 1) i =
      if code = optEnd then some none
      else if code = 0 then findInsideFrom area want fuel (i + 1)
      else if rest.length < n.toNat then some none
      else if code = want then some (some (i + 2, n.toNat))
      else findInsideFrom area want fuel (i + 2 + n.toNat) := by
  have hlen : area.length - i = rest.length + 2 := by
    rw [← List.length_drop, h, List.length_cons, List.length_cons]
  have hcode : area[i]? = some code := by
    rw [← List.head?_drop, h, List.head?_cons]
  have hn : area[i + 1]? = some n := by
    rw [← List.head?_drop, ← List.drop_drop, h]
    rfl
  have hover : area.length < i + 2 + n.toNat ↔ rest.length < n.toNat := by omega
  rw [findInsideFrom, if_pos (by omega), hcode, hn]
  simp only [Option.bind_eq_bind, Option.bind_some, hover]

theorem findInsideFrom_end (h : area.length ≤ i + 1) :
    findInsideFrom area want (fuel + 1) i = some none := by
  rw [findInsideFrom, if_neg (Nat.not_lt.mpr h)]

/-- **The walk from an offset** ends, reads nothing but the bytes inside the length, and finds
    the first option of the code in what is left. -/
theorem findInsideFrom_spec (hfuel : area.length < i + fuel) (hi : i ≤ area.length) :
    ∃ found, findInsideFrom area want fuel i = some found ∧
      ∀ off len, found = some (off, len) ↔
        ∃ o val, off = i + o ∧ len = val.length ∧ First 0 optEnd want (area.drop i) o val := by
  induction fuel generalizing i with
  | zero => exact absurd hi (by omega)
  | succ fuel ih =>
    -- nothing is found where there is no first option
    have hnone : (∀ o val, ¬ First 0 optEnd want (area.drop i) o val) →
        ∀ off len, none = some (off, len) ↔
          ∃ o val, off = i + o ∧ len = val.length ∧ First 0 optEnd want (area.drop i) o val :=
      fun hno off len => ⟨fun h => absurd h (by simp), fun ⟨o, val, _, _, hfirst⟩ =>
        absurd hfirst (hno o val)⟩
    rcases harea : area.drop i with _ | ⟨code, _ | ⟨n, rest⟩⟩
    · have hlen := congrArg List.length harea
      rw [List.length_drop, List.length_nil] at hlen
      rw [harea] at hnone
      exact ⟨none, findInsideFrom_end (by omega),
        hnone fun _ _ => First.not_short (Nat.zero_le 1)⟩
    · have hlen := congrArg List.length harea
      rw [List.length_drop, List.length_singleton] at hlen
      rw [harea] at hnone
      exact ⟨none, findInsideFrom_end (by omega),
        hnone fun _ _ => First.not_short (Nat.le_refl 1)⟩
    have hlen := congrArg List.length harea
    rw [List.length_drop, List.length_cons, List.length_cons] at hlen
    rw [harea] at hnone
    rw [findInsideFrom_step harea]
    split
    · rename_i hend
      subst hend
      exact ⟨none, rfl, hnone fun _ _ => First.not_stop (by decide)⟩
    rename_i hend
    split
    · rename_i hpad
      subst hpad
      have hdrop : area.drop (i + 1) = n :: rest := by rw [← List.drop_drop, harea]; rfl
      obtain ⟨found, hrun, hfound⟩ := ih (i := i + 1) (by omega) (by omega)
      refine ⟨found, hrun, fun off len => ?_⟩
      rw [hfound, hdrop]
      constructor
      · rintro ⟨o, val, rfl, hval, hfirst⟩
        exact ⟨1 + o, val, Nat.add_assoc i 1 o, hval, First.pad_iff.mpr ⟨o, rfl, hfirst⟩⟩
      · rintro ⟨o, val, rfl, hval, hfirst⟩
        obtain ⟨o', rfl, hrest⟩ := First.pad_iff.mp hfirst
        exact ⟨o', val, (Nat.add_assoc i 1 o').symm, hval, hrest⟩
    rename_i hpad
    split
    · rename_i hover
      refine ⟨none, rfl, hnone fun o val hfirst => ?_⟩
      exact Nat.not_le.mpr hover ((First.opt_iff hpad hend).mp hfirst).1
    rename_i hfits
    rw [Nat.not_lt] at hfits
    split
    · rename_i hwant
      refine ⟨_, rfl, fun off len => ?_⟩
      simp only [First.opt_iff hpad hend, if_pos hwant, Option.some.injEq, Prod.mk.injEq]
      constructor
      · rintro ⟨rfl, rfl⟩
        exact ⟨2, rest.take n.toNat, rfl, (List.length_take_of_le hfits).symm, hfits, rfl, rfl⟩
      · rintro ⟨o, val, rfl, rfl, _, rfl, rfl⟩
        exact ⟨rfl, (List.length_take_of_le hfits).symm⟩
    · rename_i hwant
      have hdrop : area.drop (i + 2 + n.toNat) = rest.drop n.toNat := by
        rw [← List.drop_drop, ← List.drop_drop, harea]
        rfl
      obtain ⟨found, hrun, hfound⟩ := ih (i := i + 2 + n.toNat) (by omega) (by omega)
      refine ⟨found, hrun, fun off len => ?_⟩
      rw [hfound, hdrop]
      simp only [First.opt_iff hpad hend, if_neg hwant]
      constructor
      · rintro ⟨o, val, rfl, hval, hfirst⟩
        exact ⟨2 + n.toNat + o, val, by omega, hval, hfits, o, rfl, hfirst⟩
      · rintro ⟨o, val, rfl, hval, _, o', rfl, hfirst⟩
        exact ⟨o', val, by omega, hval, hfirst⟩

/-- **`find_option` finds the first option of the code**, and reads nothing but the bytes inside
    the length. -/
theorem findInside_spec (area : List UInt8) (want : UInt8) :
    ∃ found, findInside area want = some found ∧
      ∀ off len, found = some (off, len) ↔ FirstOption area want off len := by
  rcases Nat.lt_or_ge area.length 4 with hshort | hlong
  · -- the cookie is all there is
    refine ⟨none, findInsideFrom_end (by omega), fun off len => ⟨fun h => absurd h (by simp), ?_⟩⟩
    rintro ⟨o, val, _, _, hfirst⟩
    refine absurd hfirst (First.not_short ?_)
    rw [List.length_drop]
    omega
  · exact findInsideFrom_spec (by omega) hlong

theorem findOptionFrom_step {code n : UInt8} (h : area.drop i = code :: n :: rest) :
    findOptionFrom (area ++ tail) area.length want (fuel + 1) i =
      if code = optEnd then none
      else if code = 0 then findOptionFrom (area ++ tail) area.length want fuel (i + 1)
      else if rest.length < n.toNat then none
      else if code = want then some (i + 2, n.toNat)
      else findOptionFrom (area ++ tail) area.length want fuel (i + 2 + n.toNat) := by
  have hlen : area.length - i = rest.length + 2 := by
    rw [← List.length_drop, h, List.length_cons, List.length_cons]
  have hdrop : (area ++ tail).drop i = code :: n :: (rest ++ tail) := by
    rw [List.drop_append_of_le_length (by omega), h]
    rfl
  have hcode : (area ++ tail).getD i 0 = code := by
    rw [List.getD_eq_getElem?_getD, ← List.head?_drop, hdrop]
    rfl
  have hn : (area ++ tail).getD (i + 1) 0 = n := by
    rw [List.getD_eq_getElem?_getD, ← List.head?_drop, ← List.drop_drop, hdrop]
    rfl
  have hover : area.length < i + 2 + n.toNat ↔ rest.length < n.toNat := by omega
  rw [findOptionFrom, if_pos (by omega), hcode, hn]
  simp only [hover]

theorem findInsideFrom_eq (hfuel : area.length ≤ i + fuel) :
    findInsideFrom area want (fuel + 1) i =
      some (findOptionFrom (area ++ tail) area.length want fuel i) := by
  induction fuel generalizing i with
  | zero => rw [findInsideFrom_end (by omega), findOptionFrom]
  | succ fuel ih =>
    rcases Nat.lt_or_ge (i + 1) area.length with hlt | hge
    · obtain ⟨code, n, rest, harea⟩ : ∃ code n rest, area.drop i = code :: n :: rest :=
        ⟨_, _, _, by rw [List.drop_eq_getElem_cons (by omega), List.drop_eq_getElem_cons hlt]⟩
      rw [findInsideFrom_step harea, findOptionFrom_step harea, ih (by omega), ih (by omega)]
      split
      · rfl
      · split
        · rfl
        · split
          · rfl
          · split <;> rfl
    · rw [findInsideFrom_end hge, findOptionFrom, if_neg (Nat.not_lt.mpr hge)]

/-- What `handle_message` is given is what the walk finds, whatever lies behind the length. -/
theorem findInside_eq (m : DhcpMsg) (area tail : List UInt8) (want : UInt8) :
    findInside area want = some (findOption { m with options := area ++ tail } area.length want) :=
  findInsideFrom_eq (Nat.le_add_left _ _)

/-! ## The writer -/

theorem put_append : (w.put as).bind (OptWriter.put · bs) = w.put (as ++ bs) := by
  unfold OptWriter.put
  rw [List.length_append, ← Nat.add_assoc]
  by_cases hfits : w.p + as.length + bs.length ≤ optionsLen
  · rw [if_pos (Nat.le_of_add_right_le hfits), if_pos hfits, Option.bind_some, if_pos hfits,
      ← store_append]
  · rw [if_neg hfits]
    split
    · rw [Option.bind_some, if_neg hfits]
    · rfl

theorem writer_putOptIp (w : OptWriter) (code : UInt8) (ip : Ip) :
    w.putOptIp code ip = w.put (putOptIp code ip) := by
  unfold OptWriter.putOptIp
  simp only [Option.bind_eq_bind, put_append]
  rfl

theorem writer_putOfferOptions (w : OptWriter) (cfg : Config) (wanDns : Ip) (leaseS : Nat) :
    w.putOfferOptions cfg wanDns leaseS = w.put (putOfferOptions cfg wanDns leaseS) := by
  unfold OptWriter.putOfferOptions putOfferOptions
  by_cases hlease : leaseS = 0
  · simp [hlease, writer_putOptIp, put_append]
  · simp [hlease, writer_putOptIp, put_append]

theorem sendReply_options_length {cfg : Config} {wanDns : Ip} {req : DhcpMsg} {type : UInt8}
    {yiaddr : Ip} {leaseS : Nat} :
    (sendReply cfg wanDns req type yiaddr leaseS).options.length ≤ optionsLen := by
  unfold sendReply putOfferOptions putOptIp
  by_cases hnak : type = dhcpNak <;> by_cases hlease : leaseS = 0 <;>
    simp [hnak, hlease, optionsLen]

/-- **`send_reply` writes inside the options area**, and what it writes is the options. -/
theorem putReply_eq (cfg : Config) (wanDns : Ip) (req : DhcpMsg) (type : UInt8) (yiaddr : Ip)
    (leaseS : Nat) :
    putReply cfg wanDns type leaseS =
      some ⟨store (fun _ => 0) 0 (sendReply cfg wanDns req type yiaddr leaseS).options,
        (sendReply cfg wanDns req type yiaddr leaseS).options.length⟩ := by
  have hput : putReply cfg wanDns type leaseS = OptWriter.put ⟨fun _ => 0, 0⟩
      (sendReply cfg wanDns req type yiaddr leaseS).options := by
    unfold putReply sendReply
    by_cases hnak : type = dhcpNak
    · simp [hnak, writer_putOptIp, put_append]
    · simp [hnak, writer_putOfferOptions, put_append]
  rw [hput, OptWriter.put, if_pos (by simpa using sendReply_options_length)]
  simp

/-! ## What was written is found -/

theorem sendReply_options {cfg : Config} {wanDns : Ip} {req : DhcpMsg} {type : UInt8} {yiaddr : Ip}
    {leaseS : Nat} :
    (sendReply cfg wanDns req type yiaddr leaseS).options =
      beBytes 4 dhcpCookie ++
        ((replyOptions cfg wanDns type leaseS).flatMap (Tlv.bytes 0) ++ [optEnd]) := by
  unfold sendReply replyOptions putOfferOptions putOptIp
  by_cases hnak : type = dhcpNak <;> by_cases hlease : leaseS = 0 <;>
    simp [hnak, hlease, Tlv.bytes]

theorem replyOptions_ok {cfg : Config} {wanDns : Ip} {type : UInt8} {leaseS : Nat} :
    ∀ item ∈ replyOptions cfg wanDns type leaseS, item.Ok 0 optEnd := by
  unfold replyOptions
  by_cases hnak : type = dhcpNak <;> by_cases hlease : leaseS = 0 <;>
    simp [hnak, hlease, Tlv.Ok] <;> decide

/-- No two options of a reply have one code. -/
theorem replyOptions_fresh {cfg : Config} {wanDns : Ip} {type : UInt8} {leaseS : Nat} :
    (replyOptions cfg wanDns type leaseS).Pairwise
      fun a b => ∀ c v, b = .opt c v → ¬ a.Has c := by
  unfold replyOptions
  by_cases hnak : type = dhcpNak <;> by_cases hlease : leaseS = 0 <;>
    simp [hnak, hlease, Tlv.Has] <;> decide

/-- **`find_option` over what `send_reply` wrote recovers every option with its value**, whatever
    follows it inside the length. -/
theorem sendReply_found {cfg : Config} {wanDns : Ip} {req : DhcpMsg} {type : UInt8} {yiaddr : Ip}
    {leaseS : Nat} {code : UInt8} {val : List UInt8}
    (hmem : .opt code val ∈ replyOptions cfg wanDns type leaseS) :
    let area := (sendReply cfg wanDns req type yiaddr leaseS).options ++ tail
    ∃ off, findInside area code = some (some (off, val.length)) ∧
      (area.drop off).take val.length = val := by
  intro area
  have hdrop : area.drop 4 = (replyOptions cfg wanDns type leaseS).flatMap (Tlv.bytes 0) ++
      (optEnd :: tail) := by
    show ((sendReply cfg wanDns req type yiaddr leaseS).options ++ tail).drop 4 = _
    rw [sendReply_options, List.append_assoc, List.append_assoc,
      List.drop_left' (beBytes_length 4 dhcpCookie)]
    rfl
  have hsome : ∃ o, First 0 optEnd code
      ((replyOptions cfg wanDns type leaseS).flatMap (Tlv.bytes 0) ++ (optEnd :: tail)) o val :=
    First.of_mem replyOptions_ok replyOptions_fresh hmem
  rw [← hdrop] at hsome
  obtain ⟨o, hfirst⟩ := hsome
  obtain ⟨found, hrun, hfound⟩ := findInside_spec area code
  refine ⟨4 + o, ?_, ?_⟩
  · rw [hrun, (hfound (4 + o) val.length).mpr ⟨o, val, rfl, rfl, hfirst⟩]
  · rw [← List.drop_drop]
    exact hfirst.value.2

end

/-- **The option codec**: what is read of any area is its first option of the code and nothing
    past the length, and what is written of any reply fits the area and is read back. -/
theorem option_codec :
    (∀ (m : DhcpMsg) (area tail : List UInt8) (want : UInt8),
      findInside area want =
          some (findOption { m with options := area ++ tail } area.length want) ∧
        ∀ off len, findOption { m with options := area ++ tail } area.length want =
          some (off, len) ↔ FirstOption area want off len) ∧
    ∀ (cfg : Config) (wanDns : Ip) (req : DhcpMsg) (type : UInt8) (yiaddr : Ip) (leaseS : Nat),
      (sendReply cfg wanDns req type yiaddr leaseS).options.length ≤ optionsLen ∧
      putReply cfg wanDns type leaseS =
        some ⟨store (fun _ => 0) 0 (sendReply cfg wanDns req type yiaddr leaseS).options,
          (sendReply cfg wanDns req type yiaddr leaseS).options.length⟩ ∧
      ∀ tail code val, .opt code val ∈ replyOptions cfg wanDns type leaseS →
        let area := (sendReply cfg wanDns req type yiaddr leaseS).options ++ tail
        ∃ off, findInside area code = some (some (off, val.length)) ∧
          (area.drop off).take val.length = val := by
  refine ⟨fun m area tail want => ⟨findInside_eq m area tail want, ?_⟩, fun cfg wanDns req type
    yiaddr leaseS => ⟨sendReply_options_length, putReply_eq cfg wanDns req type yiaddr leaseS,
    fun tail code val hmem => sendReply_found hmem⟩⟩
  obtain ⟨found, hrun, hfound⟩ := findInside_spec area want
  rw [Option.some.inj ((findInside_eq m area tail want).symm.trans hrun)]
  exact hfound

end Dhcp
end Wt32Router
