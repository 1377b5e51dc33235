import Wt32Router.Dhcp.System
import Wt32Router.Lib.Joins
import Wt32Router.Track.Quarantine
import Wt32Router.Web.DownloadText
import Wt32Router.Web.Resp

/-!
# The page of leases

`leases_get_handler` of `main/web_server.c` writes the lease table into one buffer, with the name of
each client and the conflict it is part of joined on by MAC. The buffer is not as large as an entry
with all of that times the entries: "that allowance is sized to CLIENT_TRACK_MAX_CLIENTS rather than
to the lease count", and "a conflict has two ends", says the source.

> **`leases_sent`**: it is large enough. In every state of the server, with any table of clients and
> any conflicts, the page is sent, and sent whole.

No two entries are of one MAC, so no name and no end of a conflict is written twice.
-/

namespace Wt32Router
namespace Web

open Dhcp (Ip LeaseInfo Mac maxLeases)
open Lib
open Track (ClientSlot ClientTable ConflictSlot Conflicts macByte maxClients maxConflicts nameMaxLen)

/-! ## What is asked of the other modules -/

/-- What the page reads of `client_info_t`. -/
structure ClientInfo where
  mac : Mac
  name : List UInt8
deriving DecidableEq, Repr

/-- `client_track_get_snapshot`, into an array that has room for every client. -/
def getSnapshot (t : ClientTable) : List ClientInfo :=
  ((List.finRange maxClients).filter fun i => (t.clients i).active).map fun i =>
    ⟨(t.clients i).mac, strlcpy nameMaxLen (t.clients i).name⟩

/-- What the page reads of `client_track_conflict_t`. -/
structure ConflictInfo where
  /-- the one that is cut off -/
  mac : Mac
  /-- the one that keeps the address -/
  peerMac : Mac
  armed : Bool
deriving DecidableEq, Repr

/-- `client_track_get_conflicts`, into an array that has room for every record. -/
def getConflicts (t : Conflicts) : List ConflictInfo :=
  ((List.finRange maxConflicts).filter fun i => (t i).used).map fun i =>
    ⟨(t i).mac, (t i).peer, (t i).armed⟩

/-! ## The texts -/

def leasesRespSize : Nat :=
  maxLeases * 240 + maxClients * 6 * nameMaxLen + maxConflicts * 2 * 64 + 64

/-- `%02x`. -/
def hexByte (b : BitVec 8) : List UInt8 := [hexDigit (b.toNat / 16), hexDigit (b.toNat % 16)]

/-- `%02x:%02x:%02x:%02x:%02x:%02x`. -/
def macText (mac : Mac) : List UInt8 :=
  hexByte (macByte mac 0) ++ 58 :: (hexByte (macByte mac 1) ++ 58 :: (hexByte (macByte mac 2) ++
    58 :: (hexByte (macByte mac 3) ++ 58 :: (hexByte (macByte mac 4) ++
      58 :: hexByte (macByte mac 5)))))

def lwipHtonl (ip : BitVec 32) : BitVec 32 :=
  ip.extractLsb' 0 8 ++ ip.extractLsb' 8 8 ++ ip.extractLsb' 16 8 ++ ip.extractLsb' 24 8

/-- `ip_or_empty`. -/
def ipOrEmpty (ip : Ip) : List UInt8 := if ip = 0 then [] else ip4addrText (lwipHtonl ip)

example : ipOrEmpty (Dhcp.ip4 192 168 5 1) = ascii "192.168.5.1" := by decide

def leasesHead (restored : BitVec 32) : List UInt8 :=
  ascii "\x7b\"max\":" ++ decimal maxLeases ++ ascii ",\"restored\":" ++
    signedDecimal restored.toInt ++ ascii ",\"leases\":["

/-- An entry up to the name. -/
def leaseHead (l : LeaseInfo) : List UInt8 :=
  ascii "\x7b\"mac\":\"" ++ macText l.mac ++ ascii "\",\"ip\":\"" ++ ipOrEmpty l.ip ++
    ascii "\",\"observed_ip\":\"" ++ ipOrEmpty l.observedIp ++ ascii "\",\"expires_in_s\":" ++
    decimal l.expiresInS.toNat ++ ascii ",\"boots_since_seen\":" ++
    decimal l.bootsSinceSeen.toNat ++ ascii ",\"stored\":" ++
    ascii (if l.stored then "true" else "false") ++ ascii ",\"saved_ip\":\"" ++
    ipOrEmpty l.savedIp ++ ascii "\",\"saved_observed_ip\":\"" ++ ipOrEmpty l.savedObservedIp ++
    ascii "\",\"name\":\""

/-- The name of the first client that has this MAC. -/
def leaseName (clients : List ClientInfo) (mac : Mac) : List UInt8 :=
  ((clients.find? fun c => c.mac == mac).map ClientInfo.name).getD []

/-- The first live conflict that this MAC is an end of. -/
def leaseConflict (conflicts : List ConflictInfo) (mac : Mac) : Option ConflictInfo :=
  conflicts.find? fun c => c.armed && (c.mac == mac || c.peerMac == mac)

def conflictText (mac : Mac) (c : ConflictInfo) : List UInt8 :=
  ascii ",\"conflict\":\"" ++ ascii (if c.mac = mac then "blocked" else "holder") ++
    ascii "\",\"conflict_with\":\"" ++ macText (if c.mac = mac then c.peerMac else c.mac) ++
    ascii "\""

/-! ## The handler -/

/-- One turn of the loop over the entries. -/
def appendLease (clients : List ClientInfo) (conflicts : List ConflictInfo) (resp : Resp) (i : Nat)
    (l : LeaseInfo) : Resp :=
  let resp := respAppend leasesRespSize resp ((if i = 0 then [] else [44]) ++ leaseHead l)
  let resp := jsonAppendEscaped leasesRespSize resp (leaseName clients l.mac)
  let resp := respAppend leasesRespSize resp (ascii "\"")
  let resp := match leaseConflict conflicts l.mac with
    | none => resp
    | some c => respAppend leasesRespSize resp (conflictText l.mac c)
  respAppend leasesRespSize resp (ascii "\x7d")

/-- The loop, from the `i`th entry on. -/
def appendLeases (clients : List ClientInfo) (conflicts : List ConflictInfo) :
    Resp → Nat → List LeaseInfo → Resp
  | resp, _, [] => resp
  | resp, i, l :: ls =>
      if resp.off leasesRespSize < leasesRespSize then
        appendLeases clients conflicts (appendLease clients conflicts resp i l) (i + 1) ls
      else resp

inductive PageAnswer where
  | authError
  | setupRequired
  | error (status : Nat) (msg : String)
  | sent (body : List UInt8)
deriving DecidableEq, Repr

/-- `leases_get_handler`, with what the other modules have told it. -/
def leasesGet (authorized passwordIsDefault : Bool) (leases : List LeaseInfo)
    (clients : List ClientInfo) (conflicts : List ConflictInfo) (restored : BitVec 32) :
    PageAnswer :=
  if !authorized then .authError
  else if passwordIsDefault then .setupRequired
  else
    let resp := respAppend leasesRespSize (some []) (leasesHead restored)
    let resp := appendLeases clients conflicts resp 0 leases
    let resp := respAppend leasesRespSize resp (ascii "]\x7d")
    match respSendJson leasesRespSize resp with
    | none => .error 500 "Response buffer overflow"
    | some body => .sent body

/-! ## The whole text -/

def leaseText (clients : List ClientInfo) (conflicts : List ConflictInfo) (l : LeaseInfo) :
    List UInt8 :=
  leaseHead l ++ escaped (leaseName clients l.mac) ++ ascii "\"" ++
    ((leaseConflict conflicts l.mac).map (conflictText l.mac)).getD [] ++ ascii "\x7d"

def leasesText (leases : List LeaseInfo) (clients : List ClientInfo)
    (conflicts : List ConflictInfo) (restored : BitVec 32) : List UInt8 :=
  leasesHead restored ++ commaSeparated (leases.map (leaseText clients conflicts)) ++ ascii "]\x7d"

section

variable {buf : List UInt8} {clients : List ClientInfo} {conflicts : List ConflictInfo}
  {l : LeaseInfo} {ls : List LeaseInfo} {mac : Mac} {i n : Nat}

/-! ## How long the texts are -/

theorem macText_length (mac : Mac) : (macText mac).length = 17 := rfl

theorem ipOrEmpty_length (ip : Ip) : (ipOrEmpty ip).length ≤ 15 := by
  unfold ipOrEmpty
  split
  · exact Nat.zero_le _
  · exact ip4addrText_length _

theorem leasesHead_length (restored : BitVec 32) : (leasesHead restored).length ≤ 43 := by
  have hrestored := signedDecimal_length_i32 restored
  have hmax : (decimal maxLeases).length = 2 := by decide
  have h₁ : (ascii "\x7b\"max\":").length = 7 := ascii_ofList_length _
  have h₂ : (ascii ",\"restored\":").length = 12 := ascii_ofList_length _
  have h₃ : (ascii ",\"leases\":[").length = 11 := ascii_ofList_length _
  unfold leasesHead
  simp only [List.length_append]
  omega

theorem leaseHead_length (l : LeaseInfo) : (leaseHead l).length ≤ 228 := by
  have hmac := macText_length l.mac
  have hip := ipOrEmpty_length l.ip
  have hobserved := ipOrEmpty_length l.observedIp
  have hsaved := ipOrEmpty_length l.savedIp
  have hsavedObserved := ipOrEmpty_length l.savedObservedIp
  have hexpires := decimal_length_u32 l.expiresInS
  have hboots := decimal_length_u32 l.bootsSinceSeen
  have hstored : (ascii (if l.stored then "true" else "false")).length ≤ 5 := by
    cases l.stored <;> decide
  have h₁ : (ascii "\x7b\"mac\":\"").length = 8 := ascii_ofList_length _
  have h₂ : (ascii "\",\"ip\":\"").length = 8 := ascii_ofList_length _
  have h₃ : (ascii "\",\"observed_ip\":\"").length = 17 := ascii_ofList_length _
  have h₄ : (ascii "\",\"expires_in_s\":").length = 17 := ascii_ofList_length _
  have h₅ : (ascii ",\"boots_since_seen\":").length = 20 := ascii_ofList_length _
  have h₆ : (ascii ",\"stored\":").length = 10 := ascii_ofList_length _
  have h₇ : (ascii ",\"saved_ip\":\"").length = 13 := ascii_ofList_length _
  have h₈ : (ascii "\",\"saved_observed_ip\":\"").length = 23 := ascii_ofList_length _
  have h₉ : (ascii "\",\"name\":\"").length = 10 := ascii_ofList_length _
  unfold leaseHead
  simp only [List.length_append]
  omega

theorem conflictText_length (mac : Mac) (c : ConflictInfo) : (conflictText mac c).length ≤ 57 := by
  have hend : (ascii (if c.mac = mac then "blocked" else "holder")).length ≤ 7 := by
    split <;> decide
  have hmac := macText_length (if c.mac = mac then c.peerMac else c.mac)
  have h₁ : (ascii ",\"conflict\":\"").length = 13 := ascii_ofList_length _
  have h₂ : (ascii "\",\"conflict_with\":\"").length = 19 := ascii_ofList_length _
  have h₃ : (ascii "\"").length = 1 := ascii_ofList_length _
  unfold conflictText
  simp only [List.length_append]
  omega

/-- What an entry may take, with the comma in front of it. -/
def leaseRoom (clients : List ClientInfo) (conflicts : List ConflictInfo) (l : LeaseInfo) : Nat :=
  231 + 6 * (leaseName clients l.mac).length +
    if (leaseConflict conflicts l.mac).isSome then 57 else 0

theorem leaseText_length (clients : List ClientInfo) (conflicts : List ConflictInfo)
    (l : LeaseInfo) :
    (leaseText clients conflicts l).length + 1 ≤ leaseRoom clients conflicts l := by
  have hhead := leaseHead_length l
  have hname := escaped_length (leaseName clients l.mac)
  have hquote : (ascii "\"").length = 1 := ascii_ofList_length _
  have hclose : (ascii "\x7d").length = 1 := ascii_ofList_length _
  unfold leaseText leaseRoom
  cases leaseConflict conflicts l.mac with
  | none =>
    simp only [List.length_append, Option.map_none, Option.getD_none, List.length_nil,
      Option.isSome_none, Bool.false_eq_true, if_false]
    omega
  | some c =>
    have hconflict := conflictText_length l.mac c
    simp only [List.length_append, Option.map_some, Option.getD_some, Option.isSome_some, if_true]
    omega

/-! ## There is room for an entry -/

theorem appendLease_some (h : buf.length + leaseRoom clients conflicts l < leasesRespSize) :
    appendLease clients conflicts (some buf) i l =
      some (buf ++ ((if i = 0 then [] else [44]) ++ leaseText clients conflicts l)) := by
  have hhead := leaseHead_length l
  have hname := escaped_length (leaseName clients l.mac)
  have hcomma : (if i = 0 then [] else [44] : List UInt8).length ≤ 1 := by
    split <;> decide
  have hquote : (ascii "\"").length = 1 := ascii_ofList_length _
  have hclose : (ascii "\x7d").length = 1 := ascii_ofList_length _
  unfold leaseRoom at h
  unfold appendLease leaseText
  dsimp only
  rw [respAppend_some (by rw [List.length_append]; omega),
    jsonAppendEscaped_some (by simp only [List.length_append]; omega),
    respAppend_some (by simp only [List.length_append]; omega)]
  cases hc : leaseConflict conflicts l.mac with
  | none =>
    rw [respAppend_some (by simp only [List.length_append]; omega)]
    simp only [Option.map_none, Option.getD_none, List.append_assoc, List.nil_append]
  | some c =>
    have hconflict := conflictText_length l.mac c
    rw [hc, Option.isSome_some, if_pos rfl] at h
    dsimp only
    rw [respAppend_some (by simp only [List.length_append]; omega),
      respAppend_some (by simp only [List.length_append]; omega)]
    simp only [Option.map_some, Option.getD_some, List.append_assoc]

theorem appendLeases_each (resp : Resp) (i : Nat) (ls : List LeaseInfo) :
    appendLeases clients conflicts resp i ls =
      respEach leasesRespSize (appendLease clients conflicts) resp i ls := by
  induction ls generalizing resp i with
  | nil => rfl
  | cons l ls ih => rw [appendLeases, respEach, ih]

/-- **The loop writes every entry**, if there is room for each. -/
theorem appendLeases_some
    (h : buf.length + (ls.map (leaseRoom clients conflicts)).sum < leasesRespSize) :
    appendLeases clients conflicts (some buf) 0 ls =
        some (buf ++ commaSeparated (ls.map (leaseText clients conflicts))) ∧
      (commaSeparated (ls.map (leaseText clients conflicts))).length ≤
        (ls.map (leaseRoom clients conflicts)).sum := by
  rw [appendLeases_each]
  exact respEach_some _ _ _ (fun _ _ _ _ => appendLease_some)
    (fun l _ => leaseText_length clients conflicts l) h

/-! ## There is room for all of them -/

/-- No client's name is written twice. -/
theorem names_sum_le {macs : List Mac} (h : macs.Nodup) (clients : List ClientInfo) :
    (macs.map fun mac => (leaseName clients mac).length).sum ≤
      (clients.map fun c => c.name.length).sum := by
  have hname : ∀ mac, (leaseName clients mac).length =
      ((clients.find? fun c => c.mac == mac).map fun c => c.name.length).getD 0 := by
    intro mac
    unfold leaseName
    cases clients.find? fun c => c.mac == mac <;> rfl
  have hsum := sum_find_le ClientInfo.mac (fun c => c.name.length) clients h
  rw [List.map_congr_left fun mac _ => hname mac]
  exact hsum

/-- No end of a conflict is. -/
theorem conflicts_sum_le {macs : List Mac} (h : macs.Nodup) (conflicts : List ConflictInfo) :
    (macs.map fun mac => if (leaseConflict conflicts mac).isSome then 57 else 0).sum ≤
      114 * conflicts.length := by
  let ends := conflicts.flatMap fun c => [c.mac, c.peerMac]
  have hend : ∀ mac, (if (leaseConflict conflicts mac).isSome then 57 else 0) ≤
      ((ends.find? fun m => m == mac).map fun _ => 57).getD 0 := by
    intro mac
    split
    · rename_i hsome
      obtain ⟨c, hc⟩ := Option.isSome_iff_exists.mp hsome
      have hmatch := List.find?_some hc
      simp only [Bool.and_eq_true, Bool.or_eq_true, beq_iff_eq] at hmatch
      have hmem : mac ∈ ends :=
        List.mem_flatMap.mpr ⟨c, List.mem_of_find?_eq_some hc, by
          rcases hmatch.2 with heq | heq <;> simp [heq]⟩
      have hfound : (ends.find? fun m => m == mac).isSome :=
        List.find?_isSome.mpr ⟨mac, hmem, beq_self_eq_true mac⟩
      obtain ⟨m, hm⟩ := Option.isSome_iff_exists.mp hfound
      rw [hm]
      exact Nat.le_refl _
    · exact Nat.zero_le _
  have hlength : ends.length = 2 * conflicts.length := by
    rw [List.length_flatMap]
    simp [Nat.mul_comm]
  calc
    _ ≤ (macs.map fun mac => ((ends.find? fun m => m == mac).map fun _ => 57).getD 0).sum :=
      List.sum_le_sum fun mac _ => hend mac
    _ ≤ (ends.map fun _ => 57).sum := sum_find_le id (fun _ => 57) ends h
    _ = 114 * conflicts.length := by
      rw [List.map_const', List.sum_replicate, hlength, smul_eq_mul]
      omega

theorem rooms_sum_le (h : (ls.map LeaseInfo.mac).Nodup) (clients : List ClientInfo)
    (conflicts : List ConflictInfo) :
    (ls.map (leaseRoom clients conflicts)).sum ≤
      231 * ls.length + 6 * (clients.map fun c => c.name.length).sum + 114 * conflicts.length := by
  have hnames := names_sum_le h clients
  have hconflicts := conflicts_sum_le h conflicts
  rw [List.map_map] at hnames hconflicts
  have hsplit : (ls.map (leaseRoom clients conflicts)).sum = 231 * ls.length +
      6 * (ls.map ((fun mac => (leaseName clients mac).length) ∘ LeaseInfo.mac)).sum +
      (ls.map ((fun mac => if (leaseConflict conflicts mac).isSome then 57 else 0) ∘
        LeaseInfo.mac)).sum := by
    clear h hnames hconflicts
    induction ls with
    | nil => rfl
    | cons l ls ih =>
      simp only [List.map_cons, List.sum_cons, List.length_cons, Function.comp_apply, leaseRoom,
        ih]
      omega
  omega

theorem getSnapshot_names (t : ClientTable) :
    ((getSnapshot t).map fun c => c.name.length).sum ≤ 31 * maxClients := by
  have hlen : (getSnapshot t).length ≤ maxClients := by
    unfold getSnapshot
    rw [List.length_map]
    exact Nat.le_trans (List.length_filter_le _ _) (Nat.le_of_eq (List.length_finRange))
  have hname : ∀ n ∈ (getSnapshot t).map fun c => c.name.length, n ≤ 31 := by
    unfold getSnapshot
    rw [List.map_map]
    intro n hn
    obtain ⟨i, -, rfl⟩ := List.mem_map.mp hn
    exact Nat.le_trans (List.length_take_le _ _) (Nat.le_refl 31)
  have hsum := List.sum_le_card_nsmul _ 31 hname
  rw [List.length_map, smul_eq_mul] at hsum
  exact Nat.le_trans hsum (by rw [Nat.mul_comm]; exact Nat.mul_le_mul_left 31 hlen)

theorem getConflicts_length (t : Conflicts) : (getConflicts t).length ≤ maxConflicts := by
  unfold getConflicts
  rw [List.length_map]
  exact Nat.le_trans (List.length_filter_le _ _) (Nat.le_of_eq (List.length_finRange))

theorem getLeases_length (st : Dhcp.Server) (now : Nat) :
    (Dhcp.getLeases st now).length ≤ maxLeases := by
  unfold Dhcp.getLeases
  rw [List.length_map]
  exact Nat.le_trans (List.length_filter_le _ _) (Nat.le_of_eq (List.length_finRange))

/-- The page of distinct entries, where each table is no larger than the device's. -/
theorem leasesGet_fits (hmac : (ls.map LeaseInfo.mac).Nodup) (hls : ls.length ≤ maxLeases)
    (hclients : (clients.map fun c => c.name.length).sum ≤ 31 * maxClients)
    (hconflicts : conflicts.length ≤ maxConflicts) (restored : BitVec 32) :
    leasesGet true false ls clients conflicts restored =
      .sent (leasesText ls clients conflicts restored) := by
  have hls : ls.length ≤ 32 := hls
  have hclients : (clients.map fun c => c.name.length).sum ≤ 496 := hclients
  have hconflicts : conflicts.length ≤ 4 := hconflicts
  have hsize : leasesRespSize = 11328 := rfl
  have hhead := leasesHead_length restored
  have hrooms := rooms_sum_le hmac clients conflicts
  have hclose : (ascii "]\x7d").length = 2 := ascii_ofList_length _
  have hroom : (leasesHead restored).length + (ls.map (leaseRoom clients conflicts)).sum + 2 <
      leasesRespSize := by
    omega
  obtain ⟨hloop, hentries⟩ := appendLeases_some (Nat.lt_of_succ_lt (Nat.lt_of_succ_lt hroom))
  have hstart : respAppend leasesRespSize (some []) (leasesHead restored) =
      some (leasesHead restored) :=
    respAppend_some (show 0 + _ < _ by omega)
  unfold leasesGet leasesText
  dsimp only
  rw [hstart, hloop, respAppend_some (by rw [List.length_append]; omega),
    respSendJson_some (by simp only [List.length_append]; omega)]
  rfl

end

/-- **The page is sent whole**, from every state of the server, whatever the others have told it. -/
theorem leases_sent {dhcp : Dhcp.System} (h : dhcp.Reachable) (now : Nat) (clients : ClientTable)
    (conflicts : Conflicts) :
    let leases := Dhcp.getLeases dhcp.srv now
    let restored := BitVec.ofNat 32 dhcp.srv.restoredCount
    leasesGet true false leases (getSnapshot clients) (getConflicts conflicts) restored =
      .sent (leasesText leases (getSnapshot clients) (getConflicts conflicts) restored) :=
  leasesGet_fits (Dhcp.getLeases_nodup h.inv.table.mac) (getLeases_length _ now)
    (getSnapshot_names clients) (getConflicts_length conflicts) _

/-- A client that was seen on an address, and nothing else. -/
theorem leases_sent_observed :
    let dhcp := (Dhcp.powerOn Dhcp.shipped none 1).step
      (.noteObserved 2 0x020000000001 (Dhcp.ip4 192 168 5 20))
    let leases := Dhcp.getLeases dhcp.srv 3
    leases.length = 1 ∧
      leasesGet true false leases (getSnapshot .empty) (getConflicts fun _ => {})
          (BitVec.ofNat 32 dhcp.srv.restoredCount) =
        .sent (leasesText leases (getSnapshot .empty) (getConflicts fun _ => {})
          (BitVec.ofNat 32 dhcp.srv.restoredCount)) := by
  have hreach : ((Dhcp.powerOn Dhcp.shipped none 1).step
      (.noteObserved 2 0x020000000001 (Dhcp.ip4 192 168 5 20))).Reachable :=
    .step _ (Dhcp.System.Reachable.switchedOn Dhcp.shipped 1) (by decide)
  exact ⟨by decide +kernel, leases_sent hreach 3 .empty fun _ => {}⟩

end Web
end Wt32Router
