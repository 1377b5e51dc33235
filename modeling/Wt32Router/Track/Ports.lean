import Wt32Router.Lib.Lru
import Wt32Router.Track.Clients

/-!
# Which port a DHCP message came in on

A request that has reached the DHCP server "no longer says which side it arrived from", so the
receive wrappers leave the answer in four slots: `note_dhcp_port` writes it, and
`client_track_mac_on_wired_port` reads it back a moment later. One pass over the slots looks
for the client's own and, at the same time, for the oldest, which is taken where it has none.

> **`macOnWiredPort_latest`**: a "yes" is the client's last message come in over the cable at
> most five seconds ago, and that is answered "yes" unless four other clients have sent one
> since. No two slots are ever one client's.

The clock is a number of microseconds and 0 is a slot never written, so a message at time 0
would not be there. The lock is taken around each pass and is not in the model: a call is one
step.
-/

namespace Wt32Router
namespace Track

open Lib
open Dhcp (Mac)

def dhcpPortSlots : Nat := 4

def dhcpPortWindowUs : Nat := 5 * 1000000

/-- `dhcp_port_t`. -/
structure DhcpPort where
  mac : Mac := 0
  isWifi : Bool := false
  /-- 0 for a slot that has never been written -/
  seenUs : Nat := 0
deriving DecidableEq, Repr

abbrev PortSlot := Fin dhcpPortSlots

def PortSlot.first : PortSlot := ⟨0, Nat.succ_pos 3⟩

/-- `s_dhcp_port`. -/
abbrev PortTable := PortSlot → DhcpPort

def PortTable.empty : PortTable := fun _ => {}

/-- The loop of `note_dhcp_port` over the slots that are left: the slot it breaks off at, or
    the oldest it has come by. -/
def noteLoop (t : PortTable) (mac : Mac) : List PortSlot → PortSlot → PortSlot
  | [], oldest => oldest
  | i :: is, oldest =>
    if (t i).seenUs ≠ 0 ∧ (t i).mac = mac then i
    else if (t i).seenUs < (t oldest).seenUs then noteLoop t mac is i
    else noteLoop t mac is oldest

/-- `note_dhcp_port` at time `now`, the record it writes being the argument. -/
def noteDhcpPort (t : PortTable) (note : DhcpPort) : PortTable :=
  Function.update t (noteLoop t note.mac (List.finRange dhcpPortSlots) .first) note

/-- `client_track_mac_on_wired_port` at time `now`. -/
def macOnWiredPort (t : PortTable) (mac : Mac) (now : Nat) : Bool :=
  match Fin.find? fun i => (t i).seenUs != 0 && (t i).mac == mac with
  | none => false
  | some i => !(t i).isWifi && decide (now - (t i).seenUs ≤ dhcpPortWindowUs)

/-! ## What was noted -/

/-- The calls come at times that go up, and none at 0. -/
def InOrder (notes : List DhcpPort) : Prop :=
  notes.Pairwise (fun a b => a.seenUs < b.seenUs) ∧ ∀ a ∈ notes, a.seenUs ≠ 0

instance (notes : List DhcpPort) : Decidable (InOrder notes) :=
  inferInstanceAs (Decidable (_ ∧ _))

/-- The last message of `mac`, and whether it came over the cable and lately. -/
def lastOverWire (notes : List DhcpPort) (mac : Mac) (now : Nat) : Bool :=
  match latest DhcpPort.mac mac notes.reverse with
  | none => false
  | some a => !a.isWifi && decide (now - a.seenUs ≤ dhcpPortWindowUs)

section

variable {t : PortTable} {mac : Mac} {now : Nat} {notes : List DhcpPort} {note : DhcpPort}

/-! ## One pass -/

/-- What the loop returns: a slot of the client's among those that were left, or one no
    younger than any of them. -/
theorem noteLoop_cases (t : PortTable) (mac : Mac) :
    ∀ (is : List PortSlot) (old : PortSlot),
      ((t (noteLoop t mac is old)).seenUs ≠ 0 ∧ (t (noteLoop t mac is old)).mac = mac) ∨
        ((∀ i ∈ is, (t i).seenUs ≠ 0 → (t i).mac ≠ mac) ∧
          (∀ i ∈ is, (t (noteLoop t mac is old)).seenUs ≤ (t i).seenUs) ∧
          (t (noteLoop t mac is old)).seenUs ≤ (t old).seenUs) := by
  intro is
  induction is with
  | nil =>
    intro old
    refine .inr ⟨?_, ?_, le_refl _⟩
    · intro i hi
      exact absurd hi List.not_mem_nil
    · intro i hi
      exact absurd hi List.not_mem_nil
  | cons i is ih =>
    intro old
    unfold noteLoop
    split
    · rename_i hfound
      exact .inl hfound
    · rename_i hother
      have hhere : (t i).seenUs ≠ 0 → (t i).mac ≠ mac := fun hlive hmac => hother ⟨hlive, hmac⟩
      split
      · rename_i hlt
        rcases ih i with hhit | ⟨habsent, hleast, hle⟩
        · exact .inl hhit
        · refine .inr ⟨List.forall_mem_cons.mpr ⟨hhere, habsent⟩,
            List.forall_mem_cons.mpr ⟨hle, hleast⟩, ?_⟩
          exact le_trans hle (Nat.le_of_lt hlt)
      · rename_i hge
        rcases ih old with hhit | ⟨habsent, hleast, hle⟩
        · exact .inl hhit
        · refine .inr ⟨List.forall_mem_cons.mpr ⟨hhere, habsent⟩,
            List.forall_mem_cons.mpr ⟨?_, hleast⟩, hle⟩
          exact le_trans hle (Nat.not_lt.mp hge)

theorem noteLoop_chosen (t : PortTable) (mac : Mac) :
    Chosen DhcpPort.mac DhcpPort.seenUs t mac
      (noteLoop t mac (List.finRange dhcpPortSlots) .first) := by
  rcases noteLoop_cases t mac (List.finRange dhcpPortSlots) .first with
    ⟨hlive, hmac⟩ | ⟨habsent, hleast, -⟩
  · exact .hit (Nat.pos_of_ne_zero hlive) hmac
  · apply Chosen.miss
    · intro i hi
      exact habsent i (List.mem_finRange i) (Nat.ne_of_gt hi)
    · intro i
      exact hleast i (List.mem_finRange i)

/-! ## All calls so far -/

/-- The table against the calls it has seen, the last one first. -/
abbrev PortsRecent (t : PortTable) (hist : List DhcpPort) : Prop :=
  Recent DhcpPort.mac DhcpPort.seenUs t hist

theorem PortsRecent.step {hist : List DhcpPort} (h : PortsRecent t hist) (hpos : note.seenUs ≠ 0)
    (hnew : ∀ b ∈ hist, b.seenUs < note.seenUs) :
    PortsRecent (noteDhcpPort t note) (note :: hist) :=
  Recent.note h (noteLoop_chosen t note.mac) (Nat.pos_of_ne_zero hpos) hnew

theorem InOrder.run : ∀ {notes hist : List DhcpPort} {t : PortTable},
    PortsRecent t hist → InOrder notes → (∀ a ∈ notes, ∀ b ∈ hist, b.seenUs < a.seenUs) →
    PortsRecent (notes.foldl noteDhcpPort t) (notes.reverse ++ hist) := by
  intro notes
  induction notes with
  | nil =>
    intro hist t h _ _
    exact h
  | cons a as ih =>
    intro hist t h hord hafter
    obtain ⟨hsorted, hnonzero⟩ := hord
    obtain ⟨ha, has⟩ := List.pairwise_cons.mp hsorted
    obtain ⟨hpos, hrest⟩ := List.forall_mem_cons.mp hnonzero
    obtain ⟨hnew, hlater⟩ := List.forall_mem_cons.mp hafter
    rw [List.reverse_cons, List.append_assoc]
    apply ih (h.step hpos hnew) ⟨has, hrest⟩
    intro b hb
    exact List.forall_mem_cons.mpr ⟨ha b hb, hlater b hb⟩

theorem InOrder.recent (h : InOrder notes) :
    PortsRecent (notes.foldl noteDhcpPort PortTable.empty) notes.reverse := by
  have hempty : PortsRecent PortTable.empty [] := Recent.start fun _ => rfl
  have hrun := InOrder.run hempty h fun _ _ b hb => absurd hb List.not_mem_nil
  rwa [List.append_nil] at hrun

/-! ## The answer -/

theorem PortsRecent.answer_sound (h : PortsRecent t notes.reverse)
    (hyes : macOnWiredPort t mac now = true) : lastOverWire notes mac now = true := by
  unfold macOnWiredPort at hyes
  split at hyes
  · exact absurd hyes Bool.false_ne_true
  · rename_i i hfind
    have hfound := Fin.eq_true_of_find?_eq_some hfind
    obtain ⟨hlive, hmac⟩ := Bool.and_eq_true_iff.mp hfound
    have hkept := h.kept i (Nat.pos_of_ne_zero (bne_iff_ne.mp hlive))
    rw [beq_iff_eq.mp hmac] at hkept
    unfold lastOverWire
    rw [hkept]
    exact hyes

/-- A client that is in the table is answered for as its last message says. -/
theorem PortsRecent.answer_complete (h : PortsRecent t notes.reverse)
    (hfew : (othersSince DhcpPort.mac mac notes.reverse).length < dhcpPortSlots)
    (hyes : lastOverWire notes mac now = true) : macOnWiredPort t mac now = true := by
  unfold lastOverWire at hyes
  split at hyes
  · exact absurd hyes Bool.false_ne_true
  · rename_i a hlast
    obtain ⟨j, hj, hja⟩ := h.present hlast (by rw [Fintype.card_fin]; exact hfew)
    have hjmac : (t j).mac = mac := hja ▸ latest_key hlast
    unfold macOnWiredPort
    cases hfind : Fin.find? fun i => (t i).seenUs != 0 && (t i).mac == mac with
    | none =>
      have hno := Fin.eq_false_of_find?_eq_none hfind j
      rw [bne_iff_ne.mpr (Nat.ne_of_gt hj), beq_iff_eq.mpr hjmac] at hno
      exact absurd hno.symm Bool.false_ne_true
    | some i =>
      -- the slot found is the one the last message is in
      obtain ⟨hlive, hmac⟩ := Bool.and_eq_true_iff.mp (Fin.eq_true_of_find?_eq_some hfind)
      have hij : i = j := h.unique i j (Nat.pos_of_ne_zero (bne_iff_ne.mp hlive)) hj
        ((beq_iff_eq.mp hmac).trans hjmac.symm)
      dsimp only
      rw [hij, hja]
      exact hyes

/-- **The port of a client's last message.** After any calls in order: a "yes" means that the
    last message came over the cable in the last five seconds; it is the answer exactly then,
    if fewer than four other clients have been noted since; and no client has two slots. -/
theorem macOnWiredPort_latest (notes : List DhcpPort) (h : InOrder notes) (mac : Mac) (now : Nat) :
    (macOnWiredPort (notes.foldl noteDhcpPort PortTable.empty) mac now = true →
        lastOverWire notes mac now = true) ∧
      ((othersSince DhcpPort.mac mac notes.reverse).length < dhcpPortSlots →
        macOnWiredPort (notes.foldl noteDhcpPort PortTable.empty) mac now =
          lastOverWire notes mac now) ∧
      ∀ i j : PortSlot, (notes.foldl noteDhcpPort PortTable.empty i).seenUs ≠ 0 →
        (notes.foldl noteDhcpPort PortTable.empty j).seenUs ≠ 0 →
        (notes.foldl noteDhcpPort PortTable.empty i).mac =
          (notes.foldl noteDhcpPort PortTable.empty j).mac → i = j := by
  have hrec := h.recent
  refine ⟨PortsRecent.answer_sound hrec, fun hfew => ?_, fun i j hi hj hmac => ?_⟩
  · apply Bool.eq_iff_iff.mpr
    exact ⟨PortsRecent.answer_sound hrec, PortsRecent.answer_complete hrec hfew⟩
  · exact hrec.unique i j (Nat.pos_of_ne_zero hi) (Nat.pos_of_ne_zero hj) hmac

/-- A client on the cable, and four on WiFi after it: the fourth takes its slot. -/
def fourAfter : List DhcpPort :=
  [⟨1, false, 10⟩, ⟨2, true, 20⟩, ⟨3, true, 30⟩, ⟨4, true, 40⟩, ⟨5, true, 50⟩]

theorem macOnWiredPort_latest_three :
    macOnWiredPort ((fourAfter.take 4).foldl noteDhcpPort PortTable.empty) 1 60 =
      lastOverWire (fourAfter.take 4) 1 60 :=
  (macOnWiredPort_latest (fourAfter.take 4) (by decide) 1 60).2.1 (by decide)

/-- With the fourth, the answer is "no" though the last message was on the cable. -/
example : macOnWiredPort (fourAfter.foldl noteDhcpPort PortTable.empty) 1 60 = false ∧
    lastOverWire fourAfter 1 60 = true := by
  decide

end

end Track
end Wt32Router
