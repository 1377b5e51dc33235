import Wt32Router.Dhcp.Api

/-!
# The table of clients

`main/client_track.c` keeps sixteen entries, one for each device it can show: what it has
carried for it, when it last heard from it, and the address it believes it is on. An entry
is made the first time a MAC turns up from anywhere, and dropped after five minutes of
silence.

The address is *believed*, and there are four things to believe: the client's own traffic,
the lease table, the ARP cache, and the event the DHCP server posts when it tells a client
its address. Only the first replaces what is believed already (`accountClient`); the other
three fill in an entry that has none (`resolveClient`, `onClientIpAssigned`).

The fine-grained history of `client_track_fast_sample` is left out.
-/

namespace Wt32Router
namespace Track

open Dhcp (Ip Mac Server lookupIp)

/-! ## Constants -/

/-- `CLIENT_TRACK_MAX_CLIENTS`. -/
def maxClients : Nat := 16

/-- `CLIENT_TRACK_NAME_MAX_LEN`, with the NUL. -/
def nameMaxLen : Nat := 32

def clientAgeOutUs : Nat := 5 * 60 * 1000000

/-! ## The table -/

abbrev ClientSlot := Fin maxClients

/-- `client_entry_t`. A slot `find_or_create_locked` has just cleared is `{}`. -/
structure Client where
  active : Bool := false
  mac : Mac := 0
  ip : Ip := 0
  isWifi : Bool := false
  rssi : Int := 0
  rxBytes : BitVec 32 := 0
  txBytes : BitVec 32 := 0
  rxBytesPrev : BitVec 32 := 0
  txBytesPrev : BitVec 32 := 0
  rxBps : BitVec 32 := 0
  txBps : BitVec 32 := 0
  rxPkts : BitVec 32 := 0
  txPkts : BitVec 32 := 0
  rxPktsPrev : BitVec 32 := 0
  txPktsPrev : BitVec 32 := 0
  rxPps : BitVec 32 := 0
  txPps : BitVec 32 := 0
  lastSeenUs : Nat := 0
  /-- when its own traffic first confirmed the address it holds, 0 if it never has -/
  ipSinceUs : Nat := 0
  name : List UInt8 := []
deriving DecidableEq

/-- `s_clients`, and the two sums over it that a tick leaves. -/
structure ClientTable where
  clients : ClientSlot → Client
  netRxPps : BitVec 32
  netTxPps : BitVec 32

def ClientTable.empty : ClientTable := ⟨fun _ => {}, 0, 0⟩

def ClientTable.set (t : ClientTable) (i : ClientSlot) (e : Client) : ClientTable :=
  { t with clients := Function.update t.clients i e }

def findLocked (t : ClientTable) (mac : Mac) : Option ClientSlot :=
  Fin.find? fun i => (t.clients i).active && (t.clients i).mac == mac

/-- `find_or_create_locked`. `none` is a full table. -/
def findOrCreateLocked (t : ClientTable) (mac : Mac) (now : Nat) :
    Option (ClientTable × ClientSlot) :=
  match findLocked t mac with
  | some i => some (t, i)
  | none =>
    match Fin.find? fun i => !(t.clients i).active with
    | none => none
    | some i => some (t.set i { mac := mac, active := true, lastSeenUs := now }, i)

/-- `update_client_ip_locked`: a new address starts unconfirmed whatever it came from. -/
def updateClientIpLocked (e : Client) (newIp : Ip) : Client :=
  if newIp = 0 ∨ newIp = e.ip then e else { e with ip := newIp, ipSinceUs := 0 }

/-! ## Traffic -/

/-- `traffic_event_t`: what a port's wrapper queues of a frame. The address is the source
    of an uplink IPv4 packet that is not DHCP, and 0 for every other frame. -/
structure TrafficEvent where
  mac : Mac
  isWifi : Bool
  bytes : BitVec 16
  isUplink : Bool
  observedIp : Ip
deriving DecidableEq

/-- What `account_traffic` leaves in the client's entry. -/
def accountClient (ev : TrafficEvent) (now : Nat) (e : Client) : Client :=
  let e := if ev.isUplink then
      { e with
        isWifi := ev.isWifi, txBytes := e.txBytes + ev.bytes.setWidth 32
        txPkts := e.txPkts + 1, lastSeenUs := now }
    else
      { e with
        isWifi := ev.isWifi, rxBytes := e.rxBytes + ev.bytes.setWidth 32
        rxPkts := e.rxPkts + 1, lastSeenUs := now }
  if ev.observedIp ≠ 0 then
    let e := updateClientIpLocked e ev.observedIp
    if e.ipSinceUs = 0 ∧ e.ip = ev.observedIp then { e with ipSinceUs := now } else e
  else e

/-! ## What the DHCP server says -/

/-- `on_client_ip_assigned`, for an event of the bridge's own netif or of another. -/
def onClientIpAssigned (t : ClientTable) (now : Nat) (ofBridge : Bool) (mac : Mac) (ip : Ip)
    (hostname : List UInt8) : ClientTable :=
  if ofBridge then
    match findOrCreateLocked t mac now with
    | none => t
    | some (t, i) =>
      let e := t.clients i
      let e := if e.ip = 0 then updateClientIpLocked e ip else e
      t.set i (if hostname ≠ [] then { e with name := hostname.take (nameMaxLen - 1) } else e)
  else t

/-! ## The tick -/

/-- An entry at the first half of a tick: dropped if it has been silent too long, else its
    rates worked out. -/
def sweepClient (now : Nat) (e : Client) : Client :=
  if e.active then
    if clientAgeOutUs < now - e.lastSeenUs then { e with active := false }
    else
      { e with
        rxBps := e.rxBytes - e.rxBytesPrev, txBps := e.txBytes - e.txBytesPrev
        rxBytesPrev := e.rxBytes, txBytesPrev := e.txBytes
        rxPps := e.rxPkts - e.rxPktsPrev, txPps := e.txPkts - e.txPktsPrev
        rxPktsPrev := e.rxPkts, txPktsPrev := e.txPkts }
  else e

/-- The first half of `client_track_tick`, under the lock: the table, and the MACs whose
    addresses it then looks up. -/
def sweep (t : ClientTable) (now : Nat) : ClientTable × List Mac :=
  let clients := fun i => sweepClient now (t.clients i)
  let live := (List.finRange maxClients).filter fun i => (clients i).active
  (⟨clients, live.foldl (fun sum i => sum + (clients i).rxPps) 0,
      live.foldl (fun sum i => sum + (clients i).txPps) 0⟩,
    live.map fun i => (clients i).mac)

/-- What a tick makes of the address it was answered for a MAC. -/
def resolveClient (now : Nat) (t : ClientTable) (answer : Mac × Ip) : ClientTable :=
  match findOrCreateLocked t answer.1 now with
  | none => t
  | some (t, i) =>
    if (t.clients i).ip = 0 then t.set i (updateClientIpLocked (t.clients i) answer.2) else t

/-- What a tick makes of a station the radio lists, with its signal strength. -/
def stationListed (now : Nat) (t : ClientTable) (sta : Mac × Int) : ClientTable :=
  match findOrCreateLocked t sta.1 now with
  | none => t
  | some (t, i) => t.set i { t.clients i with isWifi := true, rssi := sta.2 }

/-- The second half of `client_track_tick`, under the lock again, with the addresses it was
    answered in between. No list of stations is an empty one. -/
def resolve (t : ClientTable) (now : Nat) (answers : List (Mac × Ip)) (stas : List (Mac × Int)) :
    ClientTable :=
  stas.foldl (stationListed now) (answers.foldl (resolveClient now) t)

/-- The address a tick is answered for a MAC: the lease table's, else the ARP cache's. -/
def tickAnswer (st : Server) (arp : Mac → Ip) (mac : Mac) : Mac × Ip :=
  (mac, (lookupIp st mac).getD (arp mac))

/-- `client_track_tick` up to `quarantine_rebuild`, with nothing in between its halves. -/
def clientTrackTick (t : ClientTable) (st : Server) (arp : Mac → Ip) (stas : List (Mac × Int))
    (now : Nat) : ClientTable :=
  let (t, macs) := sweep t now
  resolve t now (macs.map (tickAnswer st arp)) stas

/-! ## What they do to one entry -/

section

variable {t t' : ClientTable} {mac : Mac} {now : Nat} {i : ClientSlot}

@[simp] theorem ClientTable.set_same (t : ClientTable) (i : ClientSlot) (e : Client) :
    (t.set i e).clients i = e := by simp [ClientTable.set]

theorem ClientTable.set_other {j : ClientSlot} (t : ClientTable) (e : Client) (h : j ≠ i) :
    (t.set i e).clients j = t.clients j := Function.update_of_ne h ..

theorem findLocked_some (h : findLocked t mac = some i) :
    (t.clients i).active = true ∧ (t.clients i).mac = mac := by
  have hp := Fin.eq_true_of_find?_eq_some h
  simpa using hp

theorem findLocked_none (h : findLocked t mac = none) (hi : (t.clients i).active = true) :
    (t.clients i).mac ≠ mac := by
  have hp := Fin.find?_eq_none_iff.mp h i
  simpa [hi] using hp

theorem findOrCreateLocked_cases (h : findOrCreateLocked t mac now = some (t', i)) :
    (findLocked t mac = some i ∧ t' = t) ∨
      (findLocked t mac = none ∧ (t.clients i).active = false ∧
        t' = t.set i { mac := mac, active := true, lastSeenUs := now }) := by
  unfold findOrCreateLocked at h
  split at h
  · rename_i hf
    simp only [Option.some.injEq, Prod.mk.injEq] at h
    exact .inl ⟨h.2 ▸ hf, h.1.symm⟩
  · rename_i hf
    split at h
    · exact absurd h (by simp)
    · rename_i hfree
      simp only [Option.some.injEq, Prod.mk.injEq] at h
      obtain ⟨rfl, rfl⟩ := h
      have hp := Fin.eq_true_of_find?_eq_some hfree
      exact .inr ⟨hf, by simpa using hp, rfl⟩

theorem findOrCreateLocked_entry (h : findOrCreateLocked t mac now = some (t', i)) :
    (t'.clients i).active = true ∧ (t'.clients i).mac = mac := by
  rcases findOrCreateLocked_cases h with ⟨hf, rfl⟩ | ⟨-, -, rfl⟩
  · exact findLocked_some hf
  · simp

theorem findOrCreateLocked_found (h : findOrCreateLocked t mac now = some (t', i))
    (h0 : (t'.clients i).ip ≠ 0) : findLocked t mac = some i ∧ t' = t := by
  rcases findOrCreateLocked_cases h with hf | ⟨-, -, rfl⟩
  · exact hf
  · exact absurd (by simp) h0

end

end Track
end Wt32Router
