import Mathlib.Data.Fintype.EquivFin
import Wt32Router.Track.Justified

/-!
# One device keeps the address

"The one that got there first keeps it, and the other has its traffic dropped", says the
README of two devices. Of three, every pair has a record of its own, settled at a time of its
own and then left alone, and the order of arrival it was settled by is forgotten when a device
moves or is silent for five minutes. So a device that keeps an address from a second can come
back to it after a third, lose it to the third, and the third lose it to the second: all three
are cut off, each in favour of the next.

> **`Enforcer.keeps_one`**: if no keeper is cut off after it has come back to the address it
> keeps, and nobody who is cut off is left on a contested address without one it was cut off
> for, then on every contested address somebody is not cut off.

Along the records that cut somebody off, from a device to the one keeping the address from it,
the arrivals the records were settled by go back in time (`Ordered.chain`). So there is no ring.
-/

namespace Wt32Router
namespace Track

open Lib
open Dhcp (Ip Mac LeaseInfo System Server getLeases setQuarantined leaseInfo)

/-! ## What is claimed of a state -/

def Enforcer.leases (s : Enforcer) : List LeaseInfo := getLeases s.bridge.dhcp.srv s.clock

/-- The lease entries of two devices name the address. -/
def Contested (leases : List LeaseInfo) (ip : Ip) : Prop :=
  ip ≠ 0 ∧ ∃ l ∈ leases, ∃ l' ∈ leases,
    l.mac ≠ l'.mac ∧ leaseEffectiveIp l = ip ∧ leaseEffectiveIp l' = ip

instance (leases : List LeaseInfo) (ip : Ip) : Decidable (Contested leases ip) :=
  inferInstanceAs (Decidable (_ ∧ _))

/-- On every contested address somebody is carried. -/
def Enforcer.KeepsOne (s : Enforcer) : Prop :=
  ∀ ip, Contested s.leases ip → ∃ mac, Names s.leases mac ip ∧ mac ∉ s.q.published

/-! ## When it holds -/

/-- For each armed record, when its keeper had first been seen on the address. -/
abbrev Arrivals := ConflictSlot → Nat

def arrivals (s : Enforcer) (e : EnforcerStep) (a : Arrivals) : Arrivals := fun i =>
  if (s.record i).isArmed = false ∧ ((s.step e).record i).isArmed = true then
    ((s.entry ((s.step e).record i).peer).map Client.ipSinceUs).getD 0
  else a i

/-- The keeper has been first seen on the address again since: it moved or was silent for five
    minutes, and came back. -/
def Enforcer.Returned (s : Enforcer) (a : Arrivals) (i : ConflictSlot) : Bool :=
  (s.entry (s.record i).peer).any fun e =>
    e.ip == (s.record i).ip && e.ipSinceUs != 0 && e.ipSinceUs != a i

/-- Of the pairs that have no armed record, none is to be settled against a device that has
    come back to keep the address from another. -/
def Enforcer.Unreturned (s : Enforcer) (a : Arrivals) (leases : List LeaseInfo) : Prop :=
  ∀ pair ∈ collisions leases,
    (∀ i, (s.record i).isArmed = true → (s.record i).key ≠ pairKey pair) →
    ∀ i, (s.record i).isArmed = true → (s.record i).ip = leaseEffectiveIp pair.1 →
      (s.record i).peer = loserOf s.bridge.table pair → s.Returned a i = false

/-- The pairs a rebuild has read, and those of the armed records, are on their addresses in the
    lease table of now as in the one it has read. -/
def Enforcer.Current (s : Enforcer) (leases : List LeaseInfo) : Prop :=
  (∀ pair ∈ collisions leases, Names s.leases pair.1.mac (leaseEffectiveIp pair.1) ∧
    Names s.leases pair.2.mac (leaseEffectiveIp pair.1)) ∧
  ∀ i, (s.record i).isArmed = true → Names s.leases (s.record i).mac (s.record i).ip →
    Names s.leases (s.record i).peer (s.record i).ip →
    Names leases (s.record i).mac (s.record i).ip ∧ Names leases (s.record i).peer (s.record i).ip

/-- Whoever is cut off and on a contested address is there with a device it was cut off for. -/
def Enforcer.Backed (s : Enforcer) : Prop :=
  ∀ i, (s.record i).isArmed = true → ∀ l ∈ s.leases, l.mac = (s.record i).mac →
    Contested s.leases (leaseEffectiveIp l) →
    ∃ j, (s.record j).isArmed = true ∧ (s.record j).mac = (s.record i).mac ∧
      (s.record j).ip = leaseEffectiveIp l ∧ Names s.leases (s.record j).peer (leaseEffectiveIp l)

instance (s : Enforcer) (a : Arrivals) (leases : List LeaseInfo) :
    Decidable (s.Unreturned a leases) := by
  unfold Enforcer.Unreturned
  infer_instance

instance (s : Enforcer) (leases : List LeaseInfo) : Decidable (s.Current leases) := by
  unfold Enforcer.Current
  infer_instance

instance (s : Enforcer) : Decidable s.Backed := by
  unfold Enforcer.Backed
  infer_instance

def Enforcer.Settles (s : Enforcer) (a : Arrivals) : Rebuild → Prop
  | .timed leases _ => s.Unreturned a leases ∧ s.Current leases
  | _ => True

instance (s : Enforcer) (a : Arrivals) : ∀ r, Decidable (s.Settles a r)
  | .timed _ _ => inferInstanceAs (Decidable (_ ∧ _))
  | .idle | .listed _ | .decided _ => isTrue trivial

/-- The guard: of a rebuild's decision, and of whatever changes the lease table or the time. -/
def Stands (s : Enforcer × Arrivals) : EnforcerStep → Prop
  | .decide => s.1.Settles s.2 s.1.rebuild
  | .wait now => (s.1.step (.wait now)).Backed
  | .account ev => (s.1.step (.account ev)).Backed
  | .server ev => (s.1.step (.server ev)).Backed
  | _ => True

instance (s : Enforcer × Arrivals) : ∀ e, Decidable (Stands s e)
  | .decide => inferInstanceAs (Decidable (s.1.Settles s.2 s.1.rebuild))
  | .wait now => inferInstanceAs (Decidable (s.1.step (.wait now)).Backed)
  | .account ev => inferInstanceAs (Decidable (s.1.step (.account ev)).Backed)
  | .server ev => inferInstanceAs (Decidable (s.1.step (.server ev)).Backed)
  | .assigned .. | .sweep | .resolve .. | .list | .readClock | .push | .clear _ | .enforce _ =>
    isTrue trivial

/-! ## The invariant -/

structure Ordered (s : Enforcer × Arrivals) : Prop where
  /-- no entry's time stamp is of the future -/
  past : ∀ mac ent, s.1.entry mac = some ent → ent.ipSinceUs ≤ s.1.clock
  backed : s.1.Backed
  /-- whoever is cut off came after its keeper, and will have if it comes again -/
  after : ∀ i, (s.1.record i).isArmed = true →
    Earlier (s.2 i, (s.1.record i).peer) (s.1.clock, (s.1.record i).mac) ∧
    ∀ ent, s.1.entry (s.1.record i).mac = some ent → ent.ip = (s.1.record i).ip →
      ent.ipSinceUs ≠ 0 →
      Earlier (s.2 i, (s.1.record i).peer) (ent.ipSinceUs, (s.1.record i).mac)
  /-- and so on, from keeper to keeper -/
  chain : ∀ i j, (s.1.record i).isArmed = true → (s.1.record j).isArmed = true →
    (s.1.record i).ip = (s.1.record j).ip → (s.1.record i).peer = (s.1.record j).mac →
    Earlier (s.2 j, (s.1.record j).peer) (s.2 i, (s.1.record i).peer)

section

variable {s s' : Enforcer} {a : Arrivals} {h : History} {e : EnforcerStep} {mac : Mac} {ip : Ip}
  {leases leases' : List LeaseInfo} {i j : ConflictSlot} {now : Nat} {st : Server}
  {macs : List Mac}

/-! ## Who is where -/

theorem contested_iff : Contested leases ip ↔
    ip ≠ 0 ∧ ∃ m m', m ≠ m' ∧ Names leases m ip ∧ Names leases m' ip := by
  constructor
  · rintro ⟨h0, l, hl, l', hl', hne, hip, hip'⟩
    exact ⟨h0, l.mac, l'.mac, hne, ⟨l, hl, rfl, hip⟩, ⟨l', hl', rfl, hip'⟩⟩
  · rintro ⟨h0, m, m', hne, ⟨l, hl, rfl, hip⟩, ⟨l', hl', rfl, hip'⟩⟩
    exact ⟨h0, l, hl, l', hl', hne, hip, hip'⟩

theorem backed_iff : s.Backed ↔ ∀ i, (s.record i).isArmed = true → ∀ ip,
    Names s.leases (s.record i).mac ip → Contested s.leases ip →
    ∃ j, (s.record j).isArmed = true ∧ (s.record j).mac = (s.record i).mac ∧
      (s.record j).ip = ip ∧ Names s.leases (s.record j).peer ip := by
  constructor
  · rintro hb i hi ip ⟨l, hl, hmac, rfl⟩ hcon
    exact hb i hi l hl hmac hcon
  · rintro hb i hi l hl hmac hcon
    exact hb i hi _ ⟨l, hl, hmac, rfl⟩ hcon

theorem names_unique (hl : (leases.map LeaseInfo.mac).Nodup) {ip' : Ip} (h : Names leases mac ip)
    (h' : Names leases mac ip') : ip = ip' := by
  obtain ⟨l, hmem, hmac, rfl⟩ := h
  obtain ⟨l', hmem', hmac', rfl⟩ := h'
  rw [List.inj_on_of_nodup_map hl hmem hmem' (hmac.trans hmac'.symm)]

theorem leases_nodup (ht : Tables s) : (s.leases.map LeaseInfo.mac).Nodup :=
  Dhcp.getLeases_nodup ht.dhcp.table.mac

theorem names_getLeases {t : Nat} : Names (getLeases st t) mac ip ↔
    ∃ i, ((st.leases i).inUse && !((st.leases i).ip == 0 && (st.leases i).observedIp == 0)) = true ∧
      (st.leases i).mac = mac ∧ leaseEffectiveIp (leaseInfo st t (st.leases i)) = ip := by
  constructor
  · rintro ⟨l, hl, hmac, hip⟩
    obtain ⟨i, hi, rfl⟩ := List.mem_map.mp hl
    exact ⟨i, (List.mem_filter.mp hi).2, hmac, hip⟩
  · rintro ⟨i, hi, hmac, hip⟩
    exact ⟨_, List.mem_map_of_mem (List.mem_filter.mpr ⟨List.mem_finRange i, hi⟩), hmac, hip⟩

theorem names_setQuarantined {t : Nat} :
    Names (getLeases (setQuarantined st macs now) t) mac ip ↔ Names (getLeases st t) mac ip := by
  have hset : ∀ i, ((setQuarantined st macs now).leases i) =
      Dhcp.quarantineLease macs (st.leases i) := fun i => by
    unfold setQuarantined
    dsimp only
    split
    · rw [Dhcp.Server.markDirty_leases]
    · rfl
  rw [names_getLeases, names_getLeases]
  refine exists_congr fun i => ?_
  rw [hset i]
  exact Iff.rfl

/-- Records that are only disarmed, all of a device's at once, over a table that says the
    same. -/
theorem Enforcer.Backed.mono (hb : s.Backed)
    (hnames : ∀ mac ip, Names s'.leases mac ip ↔ Names s.leases mac ip)
    (hsub : ∀ i, (s'.record i).isArmed = true → s'.record i = s.record i)
    (hkeep : ∀ i j, (s'.record i).isArmed = true → (s.record j).isArmed = true →
      (s.record j).mac = (s.record i).mac → s'.record j = s.record j) : s'.Backed := by
  have hcon : ∀ ip, Contested s'.leases ip ↔ Contested s.leases ip := fun ip => by
    rw [contested_iff, contested_iff]
    exact and_congr_right fun _ => exists_congr fun m => exists_congr fun m' => by
      rw [hnames, hnames]
  rw [backed_iff] at hb ⊢
  intro i hi ip hn hc
  have hsame := hsub i hi
  rw [hsame] at hn ⊢
  obtain ⟨j, hj, hjmac, hjip, hjn⟩ := hb i (hsame ▸ hi) ip ((hnames _ _).mp hn) ((hcon ip).mp hc)
  have hjsame := hkeep i j hi hj hjmac
  refine ⟨j, ?_, ?_, ?_, ?_⟩
  · rw [hjsame]
    exact hj
  · rw [hjsame]
    exact hjmac
  · rw [hjsame]
    exact hjip
  · rw [hjsame]
    exact (hnames _ _).mpr hjn

/-! ## Time stamps -/

/-- An entry has the address and the time stamp it had, or the time stamp is of now. -/
theorem Watched.stamp (hw : Watched (s, h)) {ent' : Client}
    (he : (s.step e).entry mac = some ent') (h0 : ent'.ipSinceUs ≠ 0) :
    (∃ ent, s.entry mac = some ent ∧ ent.ip = ent'.ip ∧ ent.ipSinceUs = ent'.ipSinceUs) ∨
      ent'.ipSinceUs = s.clock := by
  have hsight := (sighted_step (e := e) hw.tables (hw.sighted mac) he).on h0
  have hkept : keep s.bridge.table (s.step e).bridge.table h.sighted mac =
        some (ent'.ip, ent'.ipSinceUs) →
      ∃ ent, s.entry mac = some ent ∧ ent.ip = ent'.ip ∧ ent.ipSinceUs = ent'.ipSinceUs := by
    intro hk
    unfold keep at hk
    rw [show entryOf (s.step e).bridge.table mac = some ent' from he] at hk
    split at hk
    · rename_i hheld
      obtain ⟨ent, hent, hip⟩ := Option.map_eq_some_iff.mp hheld.symm
      have hs : ent.Sighted (h.sighted mac) := hw.sighted mac ent hent
      rw [hk] at hs
      exact ⟨ent, hent, hip, hs.2.1⟩
    · exact absurd hk (by simp)
  by_cases hacc : ∃ ev, e = .account ev
  · obtain ⟨ev, rfl⟩ := hacc
    have hsight : (if ev.mac = mac ∧ ev.observedIp ≠ 0 ∧
        (s.step (.account ev)).held mac = some ev.observedIp ∧
        keep s.bridge.table (s.step (.account ev)).bridge.table h.sighted mac = none then
      some (ev.observedIp, s.clock)
      else keep s.bridge.table (s.step (.account ev)).bridge.table h.sighted mac) =
        some (ent'.ip, ent'.ipSinceUs) := hsight
    split at hsight
    · exact .inr (congrArg Prod.snd (Option.some.inj hsight)).symm
    · exact .inl (hkept hsight)
  · rw [sight_keep fun ev heq => hacc ⟨ev, heq⟩] at hsight
    exact .inl (hkept hsight)

theorem Earlier.mono_right {b : Nat × Mac} {t t' : Nat} (h : Earlier b (t, mac)) (hle : t ≤ t') :
    Earlier b (t', mac) := by
  rcases h with hlt | ⟨heq, hm⟩
  · exact .inl (Nat.lt_of_lt_of_le hlt hle)
  · rcases Nat.lt_or_eq_of_le hle with hlt | heq'
    · exact .inl (heq ▸ hlt)
    · exact .inr ⟨heq.trans heq', hm⟩

/-! ## Steps that decide nothing -/

theorem Watched.quiet (hw : Watched (s, h))
    (he : ∀ leases now, s.rebuild = .timed leases now → e ≠ .decide)
    (hi : ((s.step e).record i).isArmed = true) :
    (s.record i).isArmed = true ∧ ((s.step e).record i).mac = (s.record i).mac ∧
      ((s.step e).record i).peer = (s.record i).peer ∧
      ((s.step e).record i).ip = (s.record i).ip ∧ arrivals s e a i = a i := by
  have hjust := (hw.stepped (e := e)).justified
  have hbefore : (s.record i).isArmed = true := by
    rw [← Bool.not_eq_false]
    intro hno
    obtain ⟨leases, now, hr, heq, -⟩ := hjust.becomes i hno hi
    exact he leases now hr heq
  refine ⟨hbefore, ?_⟩
  obtain ⟨hmac, hpeer, hip⟩ := hjust.stays i hbefore hi
  exact ⟨hmac, hpeer, hip, if_neg fun hc => absurd (hc.1.symm.trans hbefore) (by simp)⟩

theorem Ordered.past_step (hw : Watched (s, h)) (ho : Ordered (s, a)) (hok : s.ok e) {ent' : Client}
    (he : (s.step e).entry mac = some ent') : ent'.ipSinceUs ≤ (s.step e).clock := by
  -- 0 is no time stamp
  by_cases h0 : ent'.ipSinceUs = 0
  · rw [h0]
    exact Nat.zero_le _
  · have hmono := Enforcer.clock_mono hok
    rcases hw.stamp he h0 with ⟨ent, hent, -, hsince⟩ | hnow
    · exact Nat.le_trans (hsince ▸ ho.past mac ent hent) hmono
    · exact Nat.le_trans (Nat.le_of_eq hnow) hmono

/-- A record that is about the same still has its device after its keeper. -/
theorem Ordered.after_step (hw : Watched (s, h)) (ho : Ordered (s, a)) (hok : s.ok e)
    (hi : (s.record i).isArmed = true) :
    Earlier (a i, (s.record i).peer) ((s.step e).clock, (s.record i).mac) ∧
    ∀ ent, (s.step e).entry (s.record i).mac = some ent → ent.ip = (s.record i).ip →
      ent.ipSinceUs ≠ 0 → Earlier (a i, (s.record i).peer) (ent.ipSinceUs, (s.record i).mac) := by
  obtain ⟨hclock, hstamp⟩ := ho.after i hi
  refine ⟨hclock.mono_right (Enforcer.clock_mono hok), fun ent' hent' hip h0 => ?_⟩
  rcases hw.stamp hent' h0 with ⟨ent, hent, hsame, hsince⟩ | hnow
  · rw [← hsince]
    exact hstamp ent hent (hsame.trans hip) (hsince ▸ h0)
  · rw [hnow]
    exact hclock

theorem Ordered.quiet (hw : Watched (s, h)) (ho : Ordered (s, a)) (hok : s.ok e)
    (he : ∀ leases now, s.rebuild = .timed leases now → e ≠ .decide)
    (hb : (s.step e).Backed) : Ordered (s.step e, arrivals s e a) := by
  have hquiet := fun i hi => hw.quiet (a := a) he (i := i) hi
  refine ⟨fun mac ent hent => ho.past_step hw hok hent, hb, fun i hi => ?_, fun i j hi hj => ?_⟩
  · obtain ⟨hbefore, hmac, hpeer, hip, harr⟩ := hquiet i hi
    dsimp only
    rw [harr, hmac, hpeer, hip]
    exact ho.after_step hw hok hbefore
  · obtain ⟨hib, -, hipeer, hiip, hiarr⟩ := hquiet i hi
    obtain ⟨hjb, hjmac, hjpeer, hjip, hjarr⟩ := hquiet j hj
    dsimp only
    rw [hiarr, hjarr, hipeer, hiip, hjmac, hjpeer, hjip]
    exact ho.chain i j hib hjb

theorem Ordered.backed_step (hw : Watched (s, h)) (ho : Ordered (s, a))
    (he : ∀ leases now, s.rebuild = .timed leases now → e ≠ .decide)
    (hs : Stands (s, a) e) : (s.step e).Backed := by
  have hb : s.Backed := ho.backed
  cases e with
  | wait now => exact hs
  | account ev => exact hs
  | server ev => exact hs
  | decide =>
    show s.decide.Backed
    unfold Enforcer.decide
    split
    · rename_i leases now hr
      exact absurd rfl (he leases now hr)
    · exact hb
  | assigned ofBridge m ip hostname =>
    exact hb.mono (fun _ _ => Iff.rfl) (fun _ _ => rfl) (fun _ _ _ _ _ => rfl)
  | sweep => exact hb.mono (fun _ _ => Iff.rfl) (fun _ _ => rfl) (fun _ _ _ _ _ => rfl)
  | resolve answers stas =>
    exact hb.mono (fun _ _ => Iff.rfl) (fun _ _ => rfl) (fun _ _ _ _ _ => rfl)
  | enforce enforce =>
    exact hb.mono (fun _ _ => Iff.rfl) (fun _ _ => rfl) (fun _ _ _ _ _ => rfl)
  | list =>
    show s.list.Backed
    unfold Enforcer.list
    split
    · exact hb.mono (fun _ _ => Iff.rfl) (fun _ _ => rfl) (fun _ _ _ _ _ => rfl)
    · exact hb
  | readClock =>
    show s.readClock.Backed
    unfold Enforcer.readClock
    split
    · exact hb.mono (fun _ _ => Iff.rfl) (fun _ _ => rfl) (fun _ _ _ _ _ => rfl)
    · exact hb
  | push =>
    show s.push.Backed
    unfold Enforcer.push
    split
    · exact hb.mono (fun _ _ => names_setQuarantined) (fun _ _ => rfl) (fun _ _ _ _ _ => rfl)
    · exact hb
  | clear m =>
    -- of the records of one device, either all are disarmed or none
    have hrec : ∀ i, (s.step (.clear m)).record i =
        if (s.record i).isArmed && pardoned s.q m (s.record i).mac then
          { s.record i with armed := false }
        else s.record i := fun i => quarantineClear_record
    have hstays : ∀ i, ((s.step (.clear m)).record i).isArmed = true →
        ¬ ((s.record i).isArmed && pardoned s.q m (s.record i).mac) = true := by
      intro i hi hc
      rw [hrec i, if_pos hc] at hi
      exact absurd (isArmed_iff.mp hi).2 (by simp)
    refine hb.mono (fun _ _ => Iff.rfl) (fun i hi => (hrec i).trans (if_neg (hstays i hi)))
      (fun i j hi hj hmac => (hrec j).trans (if_neg fun hc => hstays i hi ?_))
    obtain ⟨hib, -⟩ := hw.quiet (a := a) he hi
    rw [hib, ← hmac]
    exact (Bool.and_eq_true _ _ |>.mp hc).2

/-! ## Decisions -/

/-- The entries of both that a record just armed was settled by. -/
structure JustArmed (s : Enforcer) (leases : List LeaseInfo) (c : Conflict) (arrived : Nat) :
    Prop where
  fresh : ∃ pair ∈ collisions leases, c.key = pairKey pair ∧ c.mac = loserOf s.bridge.table pair ∧
    ∀ j, (s.record j).isArmed = true → (s.record j).key ≠ pairKey pair
  keeper : ∃ ent, s.entry c.peer = some ent ∧ ent.ip = c.ip ∧ ent.ipSinceUs = arrived ∧
    ent.ipSinceUs ≠ 0
  loser : ∃ ent, s.entry c.mac = some ent ∧ ent.ip = c.ip ∧ ent.ipSinceUs ≠ 0 ∧
    Earlier (arrived, c.peer) (ent.ipSinceUs, c.mac)

theorem Watched.decided (hw : Watched (s, h)) (hr : s.rebuild = .timed leases now)
    (hi : ((s.step .decide).record i).isArmed = true) :
    ((s.record i).isArmed = true ∧ ((s.step .decide).record i).mac = (s.record i).mac ∧
        ((s.step .decide).record i).peer = (s.record i).peer ∧
        ((s.step .decide).record i).ip = (s.record i).ip ∧ arrivals s .decide a i = a i) ∨
      JustArmed s leases ((s.step .decide).record i) (arrivals s .decide a i) := by
  have hu : PairUnique s.q.conflicts := hw.tables.unique
  have hl : (leases.map LeaseInfo.mac).Nodup := hw.tables.listed_timed hr
  have hrec : (quarantineRebuild s.q s.bridge.table leases now).1.conflicts i =
      (s.step .decide).record i := by
    rw [s.decide_timed hr]
    rfl
  rcases (rebuild_armed hu hl hrec hi).2 with
    ⟨hbefore, hmac, hpeer, hip⟩ | ⟨hno, pair, hpair, hkey, hmac, -, hboth, -⟩
  · exact .inl ⟨hbefore, hmac, hpeer, hip,
      if_neg fun hc => absurd (hc.1.symm.trans hbefore) (by simp)⟩
  · obtain ⟨loser, keeper, hloser, hkeeper, -, -, hl0, hk0, hlip, hkip⟩ :=
      bothConfirmed_iff.mp hboth
    have harr : arrivals s .decide a i = keeper.ipSinceUs := by
      unfold arrivals
      rw [if_pos ⟨hno, hi⟩,
        show s.entry ((s.step .decide).record i).peer = some keeper from hkeeper]
      rfl
    refine .inr ⟨⟨pair, hpair, hkey, hmac, fun j hj hjkey => ?_⟩, ⟨keeper, hkeeper, hkip, harr.symm,
      hk0⟩, ⟨loser, hloser, hlip, hl0, ?_⟩⟩
    · -- the pair's record before is the one it has now, and that was not armed
      have hsame : j = i := rebuild_same hu hl (hrec ▸ (isArmed_iff.mp hi).1) (hrec ▸ hkey) hpair
        (isArmed_iff.mp hj).1 hjkey
      rw [hsame] at hj
      exact absurd (hno.symm.trans hj) (by simp)
    · rw [harr]
      exact loserOf_later (collisions_ne hl hpair) hkey hmac hloser hkeeper hl0 hk0

/-- **The four ways two records follow each other.** -/
theorem Ordered.chain_decide (hw : Watched (s, h)) (ho : Ordered (s, a))
    (hr : s.rebuild = .timed leases now) (hun : s.Unreturned a leases)
    (hi : ((s.step .decide).record i).isArmed = true)
    (hj : ((s.step .decide).record j).isArmed = true)
    (hip : ((s.step .decide).record i).ip = ((s.step .decide).record j).ip)
    (hpeer : ((s.step .decide).record i).peer = ((s.step .decide).record j).mac) :
    Earlier (arrivals s .decide a j, ((s.step .decide).record j).peer)
      (arrivals s .decide a i, ((s.step .decide).record i).peer) := by
  rcases hw.decided (a := a) hr hi with ⟨hib, -, hip', hiip, hia⟩ | hinew
  · rcases hw.decided (a := a) hr hj with ⟨hjb, hjm, hjp, hjip, hja⟩ | hjnew
    · rw [hip', hjm] at hpeer
      rw [hiip, hjip] at hip
      rw [hia, hja, hip', hjp]
      exact ho.chain i j hib hjb hip hpeer
    · -- the keeper has just lost the address itself, and had not come back to it
      obtain ⟨pair, hpair, hkey, hmac, hnone⟩ := hjnew.fresh
      obtain ⟨ent, hent, hentip, hent0, hearlier⟩ := hjnew.loser
      rw [hiip] at hip
      rw [hip'] at hpeer
      have hback := hun pair hpair hnone i hib (hip.trans (congrArg Prod.fst hkey))
        (hpeer.trans hmac)
      have hsince : ent.ipSinceUs = a i := by
        unfold Enforcer.Returned at hback
        rw [hpeer, show s.entry ((s.step .decide).record j).mac = some ent from hent] at hback
        by_contra hne
        simp [hentip.trans hip.symm, hent0, hne] at hback
      rw [hia, hip', hpeer, ← hsince]
      exact hearlier
  -- the keeper's entry is the one this record was settled by
  · obtain ⟨ent, hent, hentip, hsince, hent0⟩ := hinew.keeper
    rw [hpeer] at hent ⊢
    rw [← hsince]
    rcases hw.decided (a := a) hr hj with ⟨hjb, hjm, hjp, hjip, hja⟩ | hjnew
    · rw [hjm] at hent ⊢
      rw [hja, hjp]
      exact (ho.after j hjb).2 ent hent (hentip.trans (hip.trans hjip)) hent0
    · obtain ⟨ent', hent', -, -, hearlier⟩ := hjnew.loser
      obtain rfl := Option.some.inj (hent.symm.trans hent')
      exact hearlier


theorem Ordered.ne (ho : Ordered (s, a)) (hi : (s.record i).isArmed = true) :
    (s.record i).mac ≠ (s.record i).peer := fun heq =>
  Earlier.irrefl (ho.chain i i hi hi rfl heq.symm)

theorem Ordered.found (ho : Ordered (s, a)) (hcur : s.Current leases)
    (hi : (s.record i).isArmed = true) (h0 : (s.record i).ip ≠ 0)
    (hm : Names s.leases (s.record i).mac (s.record i).ip)
    (hp : Names s.leases (s.record i).peer (s.record i).ip) :
    ∃ pair ∈ collisions leases, (s.record i).key = pairKey pair := by
  obtain ⟨⟨l, hl, hlm, hlip⟩, l', hl', hlp, hlip'⟩ := hcur.2 i hi hm hp
  have hne : l.mac ≠ l'.mac := by
    rw [hlm, hlp]
    exact ho.ne hi
  rcases collisions_complete hl hl' hne (hlip ▸ h0) (hlip'.trans hlip.symm) with hpair | hpair
  · refine ⟨_, hpair, ?_⟩
    unfold Conflict.key pairKey
    rw [hlm, hlp, hlip]
  · refine ⟨_, hpair, ?_⟩
    unfold Conflict.key pairKey
    rw [hlm, hlp, hlip', Sym2.eq_swap]

theorem Ordered.backed_decide (hw : Watched (s, h)) (ho : Ordered (s, a))
    (hr : s.rebuild = .timed leases now) (hcur : s.Current leases) : (s.step .decide).Backed := by
  have hu : PairUnique s.q.conflicts := hw.tables.unique
  have hl : (leases.map LeaseInfo.mac).Nodup := hw.tables.listed_timed hr
  have hleases : (s.step .decide).leases = s.leases := by
    rw [s.decide_timed hr]
    rfl
  have hrec : ∀ j, (s.step .decide).record j =
      (quarantineRebuild s.q s.bridge.table leases now).1.conflicts j := fun j => by
    rw [s.decide_timed hr]
    rfl
  rw [backed_iff]
  intro i hi ip hn hc
  rw [hleases] at hn hc ⊢
  -- by `Backed` for a device cut off before, and by its own record for one that is new
  rcases hw.decided (a := a) hr hi with ⟨hib, him, -⟩ | hnew
  · -- a record it had before is found, and so kept
    rw [him] at hn ⊢
    obtain ⟨j, hj, hjm, rfl, hjn⟩ := backed_iff.mp ho.backed i hib ip hn hc
    obtain ⟨pair, hpair, hkey⟩ := ho.found hcur hj hc.1 (hjm ▸ hn) hjn
    obtain ⟨hj', hjm', hjp', hjip'⟩ := rebuild_keeps s.bridge.table now hu hl hj hpair hkey
    rw [← hrec j] at hj' hjm' hjp' hjip'
    exact ⟨j, hj', hjm'.trans hjm, hjip', hjp' ▸ hjn⟩
  · obtain ⟨pair, hpair, hkey, -⟩ := hnew.fresh
    have hboth : ∀ m ∈ s(((s.step .decide).record i).mac, ((s.step .decide).record i).peer),
        Names s.leases m ((s.step .decide).record i).ip := fun m hm => by
      rw [show ((s.step .decide).record i).ip = _ from congrArg Prod.fst hkey]
      rw [show s(((s.step .decide).record i).mac, ((s.step .decide).record i).peer) = _ from
        congrArg Prod.snd hkey] at hm
      rcases mem_pair.mp hm with rfl | rfl
      · exact (hcur.1 pair hpair).1
      · exact (hcur.1 pair hpair).2
    obtain rfl := names_unique (leases_nodup hw.tables) hn (hboth _ (mem_pair.mpr (.inl rfl)))
    exact ⟨i, hi, rfl, rfl, hboth _ (mem_pair.mpr (.inr rfl))⟩

theorem Ordered.decide (hw : Watched (s, h)) (ho : Ordered (s, a))
    (hr : s.rebuild = .timed leases now) (hun : s.Unreturned a leases) (hcur : s.Current leases) :
    Ordered (s.step .decide, arrivals s .decide a) := by
  have hok : s.ok .decide := trivial
  have hsame : ∀ m, (s.step .decide).entry m = s.entry m := fun m => by
    rw [s.decide_timed hr]
    rfl
  have hclock : (s.step .decide).clock = s.clock := by
    rw [s.decide_timed hr]
  refine ⟨fun mac ent hent => ho.past_step hw hok hent, ho.backed_decide hw hr hcur,
    fun i hi => ?_, fun i j hi hj => ho.chain_decide hw hr hun hi hj⟩
  dsimp only at hi ⊢
  rcases hw.decided (a := a) hr hi with ⟨hib, hmac, hpeer, hip, harr⟩ | hnew
  · rw [harr, hmac, hpeer, hip]
    exact ho.after_step hw hok hib
  · obtain ⟨ent, hent, -, -, hearlier⟩ := hnew.loser
    rw [hclock, hsame]
    refine ⟨hearlier.mono_right (ho.past _ ent hent), fun ent' hent' _ _ => ?_⟩
    obtain rfl := Option.some.inj (hent.symm.trans hent')
    exact hearlier

/-- **The step lemma.** -/
theorem Ordered.step (hw : Watched (s, h)) (ho : Ordered (s, a)) (hok : s.ok e)
    (hs : Stands (s, a) e) : Ordered (s.step e, arrivals s e a) := by
  by_cases he : ∀ leases now, s.rebuild = .timed leases now → e ≠ .decide
  · exact ho.quiet hw hok he (ho.backed_step hw he hs)
  · push Not at he
    obtain ⟨leases, now, hr, rfl⟩ := he
    have hguard : s.Settles a s.rebuild := hs
    rw [hr] at hguard
    exact ho.decide hw hr hguard.1 hguard.2

theorem ordered_boot {dhcp : System} : Ordered (Enforcer.boot dhcp now, a) :=
  ⟨fun mac ent hent => absurd ((entry_boot mac).symm.trans hent) (by simp),
    fun i hi => absurd hi (by simp [Enforcer.record, Enforcer.boot, Quarantine.start,
      Conflict.isArmed]),
    fun i hi => absurd hi (by simp [Enforcer.record, Enforcer.boot, Quarantine.start,
      Conflict.isArmed]),
    fun i j hi => absurd hi (by simp [Enforcer.record, Enforcer.boot, Quarantine.start,
      Conflict.isArmed])⟩

/-! ## No ring -/

/-- From keeper to keeper, there is always one that is not cut off. -/
theorem Ordered.keepsOne (hw : Watched (s, h)) (ho : Ordered (s, a)) : s.KeepsOne := by
  intro ip hc
  by_contra hall
  push Not at hall
  -- suppose everybody there is cut off
  -- the records whose two devices are both on the address
  let here (i : ConflictSlot) : Prop :=
    (s.record i).isArmed = true ∧ (s.record i).ip = ip ∧ Names s.leases (s.record i).peer ip
  have hcut : ∀ mac, Names s.leases mac ip → ∃ i, here i ∧ (s.record i).mac = mac := by
    intro mac hmac
    obtain ⟨i, hi, rfl⟩ := hw.published mac (hall mac hmac)
    obtain ⟨j, hj, hjm, hjip, hjn⟩ := backed_iff.mp ho.backed i hi ip hmac hc
    exact ⟨j, ⟨hj, hjip, hjn⟩, hjm⟩
  let before (i j : ConflictSlot) : Prop :=
    Earlier (a i, (s.record i).peer) (a j, (s.record j).peer)
  have : IsTrans ConflictSlot before := ⟨fun _ _ _ => Earlier.trans⟩
  have : Std.Irrefl before := ⟨fun _ => Earlier.irrefl⟩
  have hwf : WellFounded before := Finite.wellFounded_of_trans_of_irrefl before
  obtain ⟨-, m, -, -, hm, -⟩ := contested_iff.mp hc
  obtain ⟨i₀, hi₀, -⟩ := hcut m hm
  -- the record with the earliest keeper: the keeper is on the address, so it is cut off too
  obtain ⟨i, hi, hfirst⟩ := hwf.has_min {i | here i} ⟨i₀, hi₀⟩
  obtain ⟨j, hj, hjm⟩ := hcut _ hi.2.2
  exact hfirst j hj (ho.chain i j hi.1 hj.1 (hi.2.1.trans hj.2.1.symm) hjm.symm)

end

/-! ## The theorem -/

theorem Enforcer.keeps_one {dhcp : System} {now : Nat} {es : List EnforcerStep}
    (hd : dhcp.Reachable) (hnow : 0 < now)
    (h : Along (watch Enforcer.step arrivals) (fun s e => s.1.ok e ∧ Stands s e)
      (.boot dhcp now, fun _ => 0) es) :
    (es.foldl Enforcer.step (.boot dhcp now)).KeepsOne := by
  obtain ⟨⟨_, hw⟩, ho⟩ := h.invariant (I := fun s => (∃ h, Watched (s.1, h)) ∧ Ordered s)
    ⟨⟨_, watched_boot hd.inv hnow⟩, ordered_boot⟩
    fun _ _ hinv hstep => by
      obtain ⟨⟨_, hw⟩, ho⟩ := hinv
      exact ⟨⟨_, (hw.step hstep.1).2⟩, ho.step hw hstep.1 hstep.2⟩
  have hkeeps := ho.keepsOne hw
  rwa [watch_run_fst] at hkeeps

theorem keeps_one_second :
    (twoOnOne.foldl Enforcer.step (.boot (Dhcp.powerOn Dhcp.shipped none 1) 1)).KeepsOne :=
  Enforcer.keeps_one (.switchedOn Dhcp.shipped 1) (by decide) (by decide +kernel)

def deviceC : Mac := 0x020000000003

/-- Of three, the first leaves for another address and comes back after the third. -/
def threeOnOne : List EnforcerStep :=
  twoOnOne ++
    [.wait 3100000, frameFrom deviceA (Dhcp.ip4 192 168 5 60),
      .wait 3200000, frameFrom deviceC (Dhcp.ip4 192 168 5 50),
      .wait 3300000, frameFrom deviceA (Dhcp.ip4 192 168 5 50)] ++
    rebuildAt 4000000 ++ rebuildAt 5000000 ++ rebuildAt 6000000

/-- The operator has done nothing. -/
def Untouched (e : EnforcerStep) : Prop :=
  match e with
  | .clear _ => False
  | .enforce _ => False
  | _ => True

instance (e : EnforcerStep) : Decidable (Untouched e) := by
  unfold Untouched
  split <;> infer_instance

/-- All three are cut off, with a record to spare. -/
theorem keeps_one_fails : ¬ ∀ (dhcp : System) (now : Nat) (es : List EnforcerStep),
    dhcp.Reachable → 0 < now →
    Along Enforcer.step (fun s e => s.ok e ∧ Untouched e ∧
      (collisions s.leases).length < maxConflicts) (.boot dhcp now) es →
    (es.foldl Enforcer.step (.boot dhcp now)).KeepsOne := by
  intro hall
  have hkeeps := hall (Dhcp.powerOn Dhcp.shipped none 1) 1 threeOnOne (.switchedOn Dhcp.shipped 1)
    (by decide) (by decide +kernel)
  obtain ⟨mac, ⟨l, hl, rfl, hip⟩, hmac⟩ := hkeeps (Dhcp.ip4 192 168 5 50) (by decide +kernel)
  have hcut : ∀ l ∈ (threeOnOne.foldl Enforcer.step
      (.boot (Dhcp.powerOn Dhcp.shipped none 1) 1)).leases,
      leaseEffectiveIp l = Dhcp.ip4 192 168 5 50 → l.mac ∈ (threeOnOne.foldl Enforcer.step
        (.boot (Dhcp.powerOn Dhcp.shipped none 1) 1)).q.published := by decide +kernel
  exact hmac (hcut l hl hip)

end Track
end Wt32Router
