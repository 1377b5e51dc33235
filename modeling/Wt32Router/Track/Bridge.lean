import Wt32Router.Dhcp.Bystander
import Wt32Router.Track.Clients

/-!
# The two tables together

`client_track.c` tells the DHCP server two things: an address a client was seen using
(`accountTraffic`), and the set of clients that are cut off. Nothing goes the other way but
answers. The machine here is the server's own with the table of clients beside it, and takes
the steps of both, one critical section at a time.

A tick is three of them, and anything may happen in between: `sweep` lists the clients, the
lease table and the ARP cache are asked about each with no lock held, and `resolve` takes
whatever they answered. Which clients `quarantine_rebuild` then cuts off is left open: the
set it pushes is any.
-/

namespace Wt32Router
namespace Track

open Dhcp (Ip Mac Server System notable slotForLocked readRequest)

/-- The clients, and the server with its flash. -/
structure Bridge where
  table : ClientTable
  dhcp : System

inductive Event where
  /-- `traffic_account_task` takes an event off its queue -/
  | account (now : Nat) (ev : TrafficEvent)
  /-- the event that a client has been told its address -/
  | assigned (now : Nat) (ofBridge : Bool) (mac : Mac) (ip : Ip) (hostname : List UInt8)
  /-- the first half of a tick -/
  | sweep (now : Nat)
  /-- the second half -/
  | resolve (now : Nat) (answers : List (Mac × Ip)) (stas : List (Mac × Int))
  /-- anything that happens to the server: a datagram, a save, a push of the cut-off set -/
  | server (e : Dhcp.Event)

/-- `account_traffic`: the server is told only if the address is not the one believed. -/
def accountTraffic (b : Bridge) (now : Nat) (ev : TrafficEvent) : Bridge :=
  match findOrCreateLocked b.table ev.mac now with
  | none => b
  | some (t, i) =>
    let e := t.clients i
    { table := t.set i (accountClient ev now e)
      dhcp := if ev.observedIp ≠ 0 ∧ e.ip ≠ ev.observedIp then
          b.dhcp.step (.noteObserved now e.mac ev.observedIp)
        else b.dhcp }

def Bridge.step (b : Bridge) : Event → Bridge
  | .account now ev => accountTraffic b now ev
  | .assigned now ofBridge mac ip hostname =>
    { b with table := onClientIpAssigned b.table now ofBridge mac ip hostname }
  | .sweep now => { b with table := (Track.sweep b.table now).1 }
  | .resolve now answers stas => { b with table := Track.resolve b.table now answers stas }
  | .server e => { b with dhcp := b.dhcp.step e }

/-- A tick with nothing in between its parts, cutting off these clients. -/
def tickEvents (b : Bridge) (now : Nat) (arp : Mac → Ip) (stas : List (Mac × Int))
    (cutOff : List Mac) : List Event :=
  [.sweep now,
    .resolve now ((Track.sweep b.table now).2.map (tickAnswer b.dhcp.srv arp)) stas,
    .server (.setQuarantined now cutOff)]

theorem tickEvents_table (b : Bridge) (now : Nat) (arp : Mac → Ip) (stas : List (Mac × Int))
    (cutOff : List Mac) : ((tickEvents b now arp stas cutOff).foldl Bridge.step b).table =
      clientTrackTick b.table b.dhcp.srv arp stas now := rfl

section

variable {b : Bridge} {now : Nat} {ev : TrafficEvent} {t : ClientTable} {i : ClientSlot}

theorem accountTraffic_dhcp (b : Bridge) (now : Nat) (ev : TrafficEvent) :
    (accountTraffic b now ev).dhcp = b.dhcp ∨
      (accountTraffic b now ev).dhcp = b.dhcp.step (.noteObserved now ev.mac ev.observedIp) := by
  unfold accountTraffic
  split
  · exact .inl rfl
  · rename_i t i hf
    dsimp only
    split
    · rw [(findOrCreateLocked_entry hf).2]
      exact .inr rfl
    · exact .inl rfl

theorem accountTraffic_told (hf : findOrCreateLocked b.table ev.mac now = some (t, i))
    (h0 : ev.observedIp ≠ 0) (hne : (t.clients i).ip ≠ ev.observedIp) :
    (accountTraffic b now ev).dhcp =
      b.dhcp.step (.noteObserved now ev.mac ev.observedIp) := by
  unfold accountTraffic
  rw [hf]
  dsimp only
  rw [if_pos ⟨h0, hne⟩, (findOrCreateLocked_entry hf).2]

theorem accountTraffic_believed (hf : findOrCreateLocked b.table ev.mac now = some (t, i))
    (heq : (t.clients i).ip = ev.observedIp) : (accountTraffic b now ev).dhcp = b.dhcp := by
  unfold accountTraffic
  rw [hf]
  dsimp only
  rw [if_neg fun h => h.2 heq]

theorem Bridge.step_inv (h : b.dhcp.Inv) (e : Event) : (b.step e).dhcp.Inv := by
  cases e with
  | account now ev =>
    show (accountTraffic b now ev).dhcp.Inv
    rcases accountTraffic_dhcp b now ev with heq | heq
    · rw [heq]; exact h
    · rw [heq]; exact h.step
  | assigned _ _ _ _ _ => exact h
  | sweep _ => exact h
  | resolve _ _ _ => exact h
  | server e => exact h.step

end

end Track
end Wt32Router
