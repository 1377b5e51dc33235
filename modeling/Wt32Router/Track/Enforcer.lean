import Wt32Router.Track.Bridge
import Wt32Router.Track.Conflicts

/-!
# The two tables and the quarantine

The machine of both tables, with what `quarantine_rebuild` keeps beside them and a clock. A
rebuild is four steps, as it takes and leaves locks: the lease table is read, then the clock,
then the records are decided on and the wrappers' set published under the lock, and last the
set is handed to the DHCP server. Anything may happen in between, and a tick's other two halves
(`sweep`, `resolve`) come when they come.

The clock is what `esp_timer_get_time` returns; it goes on by a step of its own, `wait`.
-/

namespace Wt32Router
namespace Track

open Lib
open Dhcp (Ip Mac LeaseInfo System getLeases)

/-- Where `client_track_task` stands in `quarantine_rebuild`. -/
inductive Rebuild where
  | idle
  | listed (leases : List LeaseInfo)
  | timed (leases : List LeaseInfo) (now : Nat)
  /-- the set for the DHCP server -/
  | decided (enforced : List Mac)

structure Enforcer where
  bridge : Bridge
  q : Quarantine
  rebuild : Rebuild
  clock : Nat

inductive EnforcerStep where
  | wait (now : Nat)
  | account (ev : TrafficEvent)
  | assigned (ofBridge : Bool) (mac : Mac) (ip : Ip) (hostname : List UInt8)
  | sweep
  | resolve (answers : List (Mac × Ip)) (stas : List (Mac × Int))
  /-- a datagram, or the save check -/
  | server (e : Dhcp.Event)
  | list
  | readClock
  | decide
  | push
  | clear (mac : Option Mac)
  | enforce (enforce : Bool)

/-! The four parts of `quarantine_rebuild`. -/

def Enforcer.list (s : Enforcer) : Enforcer :=
  match s.rebuild with
  | .idle => { s with rebuild := .listed (getLeases s.bridge.dhcp.srv s.clock) }
  | _ => s

def Enforcer.readClock (s : Enforcer) : Enforcer :=
  match s.rebuild with
  | .listed leases => { s with rebuild := .timed leases s.clock }
  | _ => s

def Enforcer.decide (s : Enforcer) : Enforcer :=
  match s.rebuild with
  | .timed leases now =>
    let r := quarantineRebuild s.q s.bridge.table leases now
    { s with q := r.1, rebuild := .decided r.2 }
  | _ => s

def Enforcer.push (s : Enforcer) : Enforcer :=
  match s.rebuild with
  | .decided enforced =>
    { s with
      bridge := s.bridge.step (.server (.setQuarantined s.clock enforced)), rebuild := .idle }
  | _ => s

def Enforcer.step (s : Enforcer) : EnforcerStep → Enforcer
  | .wait now => { s with clock := now }
  | .account ev => { s with bridge := s.bridge.step (.account s.clock ev) }
  | .assigned ofBridge mac ip hostname =>
    { s with bridge := s.bridge.step (.assigned s.clock ofBridge mac ip hostname) }
  | .sweep => { s with bridge := s.bridge.step (.sweep s.clock) }
  | .resolve answers stas => { s with bridge := s.bridge.step (.resolve s.clock answers stas) }
  | .server e => { s with bridge := s.bridge.step (.server e) }
  | .list => s.list
  | .readClock => s.readClock
  | .decide => s.decide
  | .push => s.push
  | .clear mac => { s with q := (quarantineClear s.q mac).1 }
  | .enforce enforce => { s with q := quarantineEnforce s.q enforce }

/-- The clock does not go back, and the server sees no pushes but the rebuild's and no
    restart. -/
def Enforcer.ok (s : Enforcer) : EnforcerStep → Prop
  | .wait now => s.clock ≤ now
  | .server (.setQuarantined ..) => False
  | .server (.reboot ..) => False
  | .server e => e.time = s.clock
  | _ => True

instance Enforcer.ok.decidable (s : Enforcer) (e : EnforcerStep) : Decidable (s.ok e) := by
  unfold Enforcer.ok
  split <;> infer_instance

/-- A boot, with whatever the server restored. -/
def Enforcer.boot (dhcp : System) (now : Nat) : Enforcer := ⟨⟨.empty, dhcp⟩, .start, .idle, now⟩

def Rebuild.leases : Rebuild → List LeaseInfo
  | .listed leases => leases
  | .timed leases _ => leases
  | _ => []

def Enforcer.record (s : Enforcer) (i : ConflictSlot) : Conflict := s.q.conflicts i

def Enforcer.entry (s : Enforcer) (mac : Mac) : Option Client := entryOf s.bridge.table mac

section

variable {s : Enforcer} {e : EnforcerStep} {b : Bridge} {now : Nat} {ev : TrafficEvent}

/-! ## What each step leaves alone -/

theorem accountTraffic_entry (now : Nat) (ev : TrafficEvent) (hu : ClientUnique b.table) :
    ClientUnique (accountTraffic b now ev).table ∧
      (∀ m, m ≠ ev.mac → entryOf (accountTraffic b now ev).table m = entryOf b.table m) ∧
      (entryOf (accountTraffic b now ev).table ev.mac = none ∨
        ∃ e, (entryOf b.table ev.mac = some e ∨
            entryOf b.table ev.mac = none ∧ e.ip = 0 ∧ e.ipSinceUs = 0) ∧
          entryOf (accountTraffic b now ev).table ev.mac = some (accountClient ev now e)) := by
  unfold accountTraffic
  cases hfc : findOrCreateLocked b.table ev.mac now with
  | none =>
    refine ⟨hu, fun _ _ => rfl, .inl ?_⟩
    have hnone : findLocked b.table ev.mac = none := by
      unfold findOrCreateLocked at hfc
      split at hfc
      · exact absurd hfc (by simp)
      · assumption
    show (findLocked b.table ev.mac).map _ = none
    rw [hnone]
    rfl
  | some r =>
    obtain ⟨t, i⟩ := r
    obtain ⟨hi, himac⟩ := findOrCreateLocked_entry hfc
    obtain ⟨hu', hself, hothers⟩ := entryOf_created_set hu hfc
      (e := accountClient ev now (t.clients i)) (by simp [hi]) (by simp [himac])
    refine ⟨hu', hothers, .inr ⟨t.clients i, ?_, hself⟩⟩
    exact (entryOf_findOrCreate hfc).1

/-! Of the four parts only `decide` touches the records, and only `push` the server. -/

theorem Enforcer.list_frame (s : Enforcer) :
    s.list.bridge = s.bridge ∧ s.list.q = s.q ∧ s.list.clock = s.clock := by
  unfold Enforcer.list
  split <;> exact ⟨rfl, rfl, rfl⟩

theorem Enforcer.readClock_frame (s : Enforcer) :
    s.readClock.bridge = s.bridge ∧ s.readClock.q = s.q ∧ s.readClock.clock = s.clock := by
  unfold Enforcer.readClock
  split <;> exact ⟨rfl, rfl, rfl⟩

theorem Enforcer.decide_frame (s : Enforcer) :
    s.decide.bridge = s.bridge ∧ s.decide.clock = s.clock := by
  unfold Enforcer.decide
  split <;> exact ⟨rfl, rfl⟩

theorem Enforcer.push_frame (s : Enforcer) : s.push.q = s.q ∧ s.push.clock = s.clock := by
  unfold Enforcer.push
  split <;> exact ⟨rfl, rfl⟩

theorem Enforcer.decide_timed {leases : List LeaseInfo} (hr : s.rebuild = .timed leases now) :
    s.step .decide = { s with
      q := (quarantineRebuild s.q s.bridge.table leases now).1
      rebuild := .decided (quarantineRebuild s.q s.bridge.table leases now).2 } := by
  show s.decide = _
  unfold Enforcer.decide
  rw [hr]

theorem Enforcer.step_tables (hc : ClientUnique s.bridge.table) (hd : s.bridge.dhcp.Inv) :
    ClientUnique (s.step e).bridge.table ∧ (s.step e).bridge.dhcp.Inv := by
  cases e with
  | wait now => exact ⟨hc, hd⟩
  | account ev => exact ⟨(accountTraffic_entry s.clock ev hc).1, Bridge.step_inv hd _⟩
  | assigned ofBridge mac ip hostname => exact ⟨(fills_assigned hc).1, hd⟩
  | sweep => exact ⟨hc.sweep, hd⟩
  | resolve answers stas => exact ⟨(fills_resolve hc).1, hd⟩
  | server e => exact ⟨hc, Bridge.step_inv hd _⟩
  | list =>
    show ClientUnique s.list.bridge.table ∧ s.list.bridge.dhcp.Inv
    rw [s.list_frame.1]
    exact ⟨hc, hd⟩
  | readClock =>
    show ClientUnique s.readClock.bridge.table ∧ s.readClock.bridge.dhcp.Inv
    rw [s.readClock_frame.1]
    exact ⟨hc, hd⟩
  | decide =>
    show ClientUnique s.decide.bridge.table ∧ s.decide.bridge.dhcp.Inv
    rw [s.decide_frame.1]
    exact ⟨hc, hd⟩
  | push =>
    show ClientUnique s.push.bridge.table ∧ s.push.bridge.dhcp.Inv
    unfold Enforcer.push
    split
    · exact ⟨hc, Bridge.step_inv hd (.server _)⟩
    · exact ⟨hc, hd⟩
  | clear mac => exact ⟨hc, hd⟩
  | enforce enforce => exact ⟨hc, hd⟩

/-- Only three kinds of step touch the records, the pardons and the published set. -/
theorem Enforcer.step_q : (s.step e).q = s.q ∨
    (∃ leases now, s.rebuild = .timed leases now ∧ e = .decide ∧
      (s.step e).q = (quarantineRebuild s.q s.bridge.table leases now).1) ∨
    (∃ mac, e = .clear mac ∧ (s.step e).q = (quarantineClear s.q mac).1) ∨
    (∃ enforce, e = .enforce enforce ∧ (s.step e).q = quarantineEnforce s.q enforce) := by
  cases e with
  | list => exact .inl s.list_frame.2.1
  | readClock => exact .inl s.readClock_frame.2.1
  | push => exact .inl s.push_frame.1
  | decide =>
    cases hr : s.rebuild with
    | timed leases now =>
      refine .inr (.inl ⟨leases, now, rfl, rfl, ?_⟩)
      rw [s.decide_timed hr]
    | _ =>
      -- out of turn, it does nothing
      left
      show s.decide.q = s.q
      unfold Enforcer.decide
      rw [hr]
  | clear mac => exact .inr (.inr (.inl ⟨mac, rfl, rfl⟩))
  | enforce enforce => exact .inr (.inr (.inr ⟨enforce, rfl, rfl⟩))
  | _ => exact .inl rfl

theorem Enforcer.clock_mono (hok : s.ok e) : s.clock ≤ (s.step e).clock := by
  cases e with
  | wait now => exact hok
  | list => exact Nat.le_of_eq s.list_frame.2.2.symm
  | readClock => exact Nat.le_of_eq s.readClock_frame.2.2.symm
  | decide => exact Nat.le_of_eq s.decide_frame.2.symm
  | push => exact Nat.le_of_eq s.push_frame.2.symm
  | _ => exact Nat.le_refl _

/-- The lease table under way is the one it was, none, or the server's of now. -/
theorem Enforcer.step_listed : (s.step e).rebuild.leases = s.rebuild.leases ∨
    (s.step e).rebuild.leases = [] ∨
    (s.step e).rebuild.leases = getLeases s.bridge.dhcp.srv s.clock := by
  cases e with
  | list =>
    show s.list.rebuild.leases = _ ∨ s.list.rebuild.leases = _ ∨ s.list.rebuild.leases = _
    unfold Enforcer.list
    split
    · exact .inr (.inr rfl)
    · exact .inl rfl
  | readClock =>
    show s.readClock.rebuild.leases = _ ∨ _
    unfold Enforcer.readClock
    split
    · rename_i leases hr
      rw [hr]
      exact .inl rfl
    · exact .inl rfl
  | decide =>
    show s.decide.rebuild.leases = _ ∨ s.decide.rebuild.leases = _ ∨ _
    unfold Enforcer.decide
    split
    · exact .inr (.inl rfl)
    · exact .inl rfl
  | push =>
    show s.push.rebuild.leases = _ ∨ s.push.rebuild.leases = _ ∨ _
    unfold Enforcer.push
    split
    · exact .inr (.inl rfl)
    · exact .inl rfl
  | _ => exact .inl rfl

end

end Track
end Wt32Router
