import Wt32Router.Track.Enforcer

/-!
# Nobody is cut off without a reason

Cutting a device off is the worst this firmware can do to it, and `quarantine_rebuild` is
guarded accordingly: the pair must have been on one address for three rebuilds, both must be
alive and have been seen on the address by their own traffic, and it is the later one that
goes. What the guards read are counters and time stamps that several tasks reset.

> **`Enforcer.cut_off_justified`**: when a record becomes armed, what those stand for has
> happened; while it is armed it is about the same pair, neither pardoned nor long unseen; and
> only such a record's device is published.

What has happened is kept by a monitor (`History`): the lease tables the rebuilds worked from,
and for every client since when its own traffic comes from the address it holds.
-/

namespace Wt32Router
namespace Track

open Lib
open Dhcp (Ip Mac LeaseInfo System)

def Names (leases : List LeaseInfo) (mac : Mac) (ip : Ip) : Prop :=
  ∃ l ∈ leases, l.mac = mac ∧ leaseEffectiveIp l = ip

instance (leases : List LeaseInfo) (mac : Mac) (ip : Ip) : Decidable (Names leases mac ip) :=
  inferInstanceAs (Decidable (∃ l ∈ leases, _))

/-! ## The history -/

/-- The lease tables decided on, the last first; and the address and the time of the first frame
    of each client since its address last changed. -/
structure History where
  tables : List (List LeaseInfo)
  sighted : Mac → Option (Ip × Nat)

def History.start : History := ⟨[], fun _ => none⟩

def Enforcer.held (s : Enforcer) (mac : Mac) : Option Ip := (s.entry mac).map Client.ip

/-- A change of address forgets the frame, and a frame from the address held is the first. -/
def sight (s : Enforcer) (e : EnforcerStep) (sighted : Mac → Option (Ip × Nat)) (mac : Mac) :
    Option (Ip × Nat) :=
  let kept := if (s.step e).held mac = s.held mac then sighted mac else none
  match e with
  | .account ev =>
    if ev.mac = mac ∧ ev.observedIp ≠ 0 ∧ (s.step e).held mac = some ev.observedIp ∧
        kept = none then
      some (ev.observedIp, s.clock)
    else kept
  | _ => kept

def history (s : Enforcer) (e : EnforcerStep) (h : History) : History where
  tables := match e, s.rebuild with
    | .decide, .timed leases _ => leases :: h.tables
    | _, _ => h.tables
  sighted := sight s e h.sighted

/-! ## What is claimed of a step -/

/-- The grounds for cutting one device off in favour of another, at a rebuild that read the
    clock at `now`. -/
structure Grounds (s : Enforcer) (h : History) (now : Nat) (c : Conflict) : Prop where
  together : qArmTicks ≤ h.tables.length ∧
    ∀ leases ∈ h.tables.take qArmTicks, Names leases c.mac c.ip ∧ Names leases c.peer c.ip
  alive : ∃ loser winner, s.entry c.mac = some loser ∧ s.entry c.peer = some winner ∧
    now < loser.lastSeenUs + qLivenessUs ∧ now < winner.lastSeenUs + qLivenessUs
  later : ∃ first second, h.sighted c.peer = some (c.ip, first) ∧
    h.sighted c.mac = some (c.ip, second) ∧ Earlier (first, c.peer) (second, c.mac)

/-- An armed record has just been armed, on good grounds, or was about the same before; its
    device is not pardoned and the pair has not been missing for long; and the devices published
    are those of armed records. -/
structure Justified (s : Enforcer × History) (e : EnforcerStep) : Prop where
  becomes : ∀ i, (s.1.record i).isArmed = false → ((s.1.step e).record i).isArmed = true →
    ∃ leases now, s.1.rebuild = .timed leases now ∧ e = .decide ∧
      Grounds s.1 (history s.1 e s.2) now ((s.1.step e).record i)
  stays : ∀ i, (s.1.record i).isArmed = true → ((s.1.step e).record i).isArmed = true →
    ((s.1.step e).record i).mac = (s.1.record i).mac ∧
    ((s.1.step e).record i).peer = (s.1.record i).peer ∧
    ((s.1.step e).record i).ip = (s.1.record i).ip
  armed : ∀ i, ((s.1.step e).record i).isArmed = true →
    macIsExemptLocked (s.1.step e).q ((s.1.step e).record i).mac = false ∧
    ((s.1.step e).record i).miss < qDisarmTicks
  published : ∀ mac ∈ (s.1.step e).q.published,
    ∃ i, ((s.1.step e).record i).isArmed = true ∧ ((s.1.step e).record i).mac = mac

/-! ## The invariant -/

/-- The entry's time stamp is the monitor's. -/
def Client.Sighted (e : Client) : Option (Ip × Nat) → Prop
  | none => e.ipSinceUs = 0
  | some (ip, since) => e.ip = ip ∧ e.ipSinceUs = since ∧ ip ≠ 0 ∧ since ≠ 0

/-- The tables as the counters are to be believed. -/
structure Tables (s : Enforcer) : Prop where
  clients : ClientUnique s.bridge.table
  dhcp : s.bridge.dhcp.Inv
  clock : 0 < s.clock
  unique : PairUnique s.q.conflicts
  listed : (s.rebuild.leases.map LeaseInfo.mac).Nodup

/-- The counter of a record is no more than the rebuilds in a row that found its pair. -/
def Conflict.Confirmed (h : History) (c : Conflict) : Prop :=
  c.confirm ≤ h.tables.length ∧
    ∀ leases ∈ h.tables.take c.confirm, ∀ m ∈ s(c.mac, c.peer), Names leases m c.ip

structure Watched (s : Enforcer × History) : Prop where
  tables : Tables s.1
  sighted : ∀ mac e, s.1.entry mac = some e → e.Sighted (s.2.sighted mac)
  confirmed : ∀ i, (s.1.record i).used = true → (s.1.record i).Confirmed s.2
  armed : ∀ i, (s.1.record i).isArmed = true →
    macIsExemptLocked s.1.q (s.1.record i).mac = false ∧ (s.1.record i).miss < qDisarmTicks
  published : ∀ mac ∈ s.1.q.published,
    ∃ i, (s.1.record i).isArmed = true ∧ (s.1.record i).mac = mac

section

variable {s : Enforcer} {h : History} {e : EnforcerStep} {mac : Mac} {c : Conflict}
  {t t' : ClientTable} {g : Option (Ip × Nat)} {now : Nat} {ent ent' : Client}

/-! ## Sightings -/

theorem Client.Sighted.kept (h : ent.Sighted g) (hip : ent'.ip = ent.ip)
    (hsince : ent'.ipSinceUs = ent.ipSinceUs) : ent'.Sighted g := by
  cases g with
  | none => exact hsince.trans h
  | some r => exact ⟨hip.trans h.1, hsince.trans h.2.1, h.2.2⟩

theorem Client.Sighted.of_zero (h : ent.Sighted g) (h0 : ent.ip = 0) : g = none := by
  cases g with
  | none => rfl
  | some r => exact absurd (h.1.symm.trans h0) h.2.2.1

theorem Client.Sighted.since_eq_zero (h : ent.Sighted g) : ent.ipSinceUs = 0 ↔ g = none := by
  cases g with
  | none => exact ⟨fun _ => rfl, fun _ => h⟩
  | some r =>
    exact ⟨fun h0 => absurd (h.2.1.symm.trans h0) h.2.2.2, fun hno => absurd hno (by simp)⟩

/-- What the monitor keeps across a step. -/
def keep (t t' : ClientTable) (sighted : Mac → Option (Ip × Nat)) (mac : Mac) :
    Option (Ip × Nat) :=
  if (entryOf t' mac).map Client.ip = (entryOf t mac).map Client.ip then sighted mac else none

theorem sighted_fills {sighted : Mac → Option (Ip × Nat)} (hfill : Fills t t')
    (hs : ∀ e, entryOf t mac = some e → e.Sighted (sighted mac))
    (he : entryOf t' mac = some ent') : ent'.Sighted (keep t t' sighted mac) := by
  have hfill := hfill mac
  unfold keep
  rw [he]
  cases hbefore : entryOf t mac with
  | none =>
    rw [hbefore] at hfill
    rw [if_neg (by simp)]
    exact hfill ent' he
  | some ent =>
    rw [hbefore] at hfill
    obtain ⟨e, he', hcase⟩ := hfill
    obtain rfl : e = ent' := Option.some.inj (he'.symm.trans he)
    have hsent := hs ent hbefore
    rcases hcase with ⟨hip, hsince⟩ | ⟨hzero, hsince⟩
    · rw [if_pos (by simp [hip])]
      exact hsent.kept hip hsince
    · split
      · rw [hsent.of_zero hzero]
        exact hsince
      · exact hsince

theorem sighted_sweep {sighted : Mac → Option (Ip × Nat)} (hu : ClientUnique t)
    (hs : ∀ e, entryOf t mac = some e → e.Sighted (sighted mac))
    (he : entryOf (sweep t now).1 mac = some ent') :
    ent'.Sighted (keep t (sweep t now).1 sighted mac) := by
  obtain ⟨ent, hbefore, hip, hsince⟩ := entryOf_sweep hu he
  unfold keep
  rw [he, hbefore, if_pos (by simp [hip])]
  exact (hs ent hbefore).kept hip hsince

theorem sight_keep {sighted : Mac → Option (Ip × Nat)} (he : ∀ ev, e ≠ .account ev) :
    sight s e sighted mac = keep s.bridge.table (s.step e).bridge.table sighted mac := by
  cases e with
  | account ev => exact absurd rfl (he ev)
  | _ => rfl

theorem sighted_account {ev : TrafficEvent} {sighted : Mac → Option (Ip × Nat)}
    (hu : ClientUnique s.bridge.table) (hclock : 0 < s.clock)
    (hs : ∀ e, s.entry mac = some e → e.Sighted (sighted mac))
    (he : (s.step (.account ev)).entry mac = some ent') :
    ent'.Sighted (sight s (.account ev) sighted mac) := by
  have hsight : sight s (.account ev) sighted mac =
      if ev.mac = mac ∧ ev.observedIp ≠ 0 ∧ (s.step (.account ev)).held mac = some ev.observedIp ∧
          keep s.bridge.table (s.step (.account ev)).bridge.table sighted mac = none then
        some (ev.observedIp, s.clock)
      else keep s.bridge.table (s.step (.account ev)).bridge.table sighted mac := rfl
  obtain ⟨-, hothers, hself⟩ := accountTraffic_entry s.clock ev hu
  have hheld : (s.step (.account ev)).held mac = some ent'.ip := congrArg (Option.map _) he
  rw [hsight, hheld]
  by_cases hmac : mac = ev.mac
  · subst hmac
    -- the sender's entry: there or made, and then accounted on
    obtain ⟨ent, hbefore, hafter⟩ := hself.resolve_left fun hno =>
      absurd (hno.symm.trans he) (by simp)
    obtain rfl : accountClient ev s.clock ent = ent' := Option.some.inj (hafter.symm.trans he)
    have hkeep : keep s.bridge.table (s.step (.account ev)).bridge.table sighted ev.mac =
        if (entryOf s.bridge.table ev.mac).map Client.ip =
            some (accountClient ev s.clock ent).ip then sighted ev.mac else none := by
      unfold keep
      rw [show entryOf (s.step (.account ev)).bridge.table ev.mac = _ from hafter]
      exact if_congr eq_comm rfl rfl
    rw [hkeep]
    by_cases h0 : ev.observedIp = 0
    · obtain ⟨hip, hsince⟩ := accountClient_silent ent s.clock h0
      rw [if_neg fun hc => hc.2.1 h0]
      rcases hbefore with hsome | ⟨hnone, -, hzero⟩
      · rw [hsome, if_pos (by simp [hip])]
        exact (hs ent hsome).kept hip hsince
      · rw [hnone, if_neg (by simp)]
        exact hsince.trans hzero
    · obtain ⟨hip, hsince⟩ := accountClient_sighted ent s.clock h0
      have hstamped : ∀ hno : ¬ (ent.ip = ev.observedIp ∧ ent.ipSinceUs ≠ 0),
          (accountClient ev s.clock ent).Sighted (some (ev.observedIp, s.clock)) :=
        fun hno => ⟨hip, by rw [hsince, if_neg hno], h0, Nat.pos_iff_ne_zero.mp hclock⟩
      rw [hip]
      rcases hbefore with hsome | ⟨hnone, -, hzero⟩
      · rw [hsome, Option.map_some]
        have hsent := hs ent hsome
        by_cases hsame : ent.ip = ev.observedIp
        · rw [if_pos (congrArg some hsame)]
          by_cases hunseen : ent.ipSinceUs = 0
          · rw [if_pos ⟨rfl, h0, rfl, hsent.since_eq_zero.mp hunseen⟩]
            exact hstamped fun hc => hc.2 hunseen
          · rw [if_neg fun hc => hunseen (hsent.since_eq_zero.mpr hc.2.2.2)]
            exact hsent.kept (hip.trans hsame.symm) (by rw [hsince, if_pos ⟨hsame, hunseen⟩])
        · rw [if_neg (fun hc => hsame (Option.some.inj hc)), if_pos ⟨rfl, h0, rfl, rfl⟩]
          exact hstamped fun hc => hsame hc.1
      · have hnew : (none : Option Ip) ≠ some ev.observedIp := by simp
        rw [hnone, Option.map_none, if_neg hnew, if_pos ⟨rfl, h0, rfl, rfl⟩]
        exact hstamped fun hc => hc.2 hzero
  · have hsame := hothers mac hmac
    rw [if_neg fun hc => hmac hc.1.symm]
    unfold keep
    rw [show entryOf (s.step (.account ev)).bridge.table mac = _ from hsame, if_pos rfl]
    exact hs ent' (hsame.symm.trans he)

/-- **The time stamps are the monitor's**, whatever happens. -/
theorem sighted_step {sighted : Mac → Option (Ip × Nat)} (ht : Tables s)
    (hs : ∀ e, s.entry mac = some e → e.Sighted (sighted mac))
    (he : (s.step e).entry mac = some ent') : ent'.Sighted (sight s e sighted mac) := by
  have hfills : Fills s.bridge.table (s.step e).bridge.table → (∀ ev, e ≠ .account ev) →
      ent'.Sighted (sight s e sighted mac) := fun hfill hne => by
    rw [sight_keep hne]
    exact sighted_fills hfill hs he
  cases e with
  | account ev => exact sighted_account ht.clients ht.clock hs he
  | sweep =>
    rw [sight_keep (by simp)]
    exact sighted_sweep ht.clients hs he
  | assigned ofBridge m ip hostname => exact hfills (fills_assigned ht.clients).2 (by simp)
  | resolve answers stas => exact hfills (fills_resolve ht.clients).2 (by simp)
  | list =>
    refine hfills ?_ (by simp)
    show Fills _ s.list.bridge.table
    unfold Enforcer.list
    split <;> exact .refl
  | readClock =>
    refine hfills ?_ (by simp)
    show Fills _ s.readClock.bridge.table
    unfold Enforcer.readClock
    split <;> exact .refl
  | decide =>
    refine hfills ?_ (by simp)
    show Fills _ s.decide.bridge.table
    unfold Enforcer.decide
    split <;> exact .refl
  | push =>
    refine hfills ?_ (by simp)
    show Fills _ s.push.bridge.table
    unfold Enforcer.push
    split <;> exact .refl
  | _ => exact hfills .refl (by simp)

/-! ## A rebuild -/

theorem mem_pair {m m1 m2 : Mac} : m ∈ s(m1, m2) ↔ m = m1 ∨ m = m2 := Sym2.mem_iff

theorem names_of_collision {leases : List LeaseInfo} {pair : LeaseInfo × LeaseInfo}
    (hpair : pair ∈ collisions leases) {m : Mac} (hm : m ∈ (pairKey pair).2) :
    Names leases m (pairKey pair).1 := by
  obtain ⟨h1, h2, -, heq⟩ := mem_collisions hpair
  rcases mem_pair.mp hm with rfl | rfl
  · exact ⟨pair.1, h1, rfl, rfl⟩
  · exact ⟨pair.2, h2, rfl, heq⟩

theorem Conflict.Confirmed.noteSeen {clients : ClientTable} {leases : List LeaseInfo}
    {pair : LeaseInfo × LeaseInfo} (hpair : pair ∈ collisions leases)
    (hkey : (noteSeen clients pair.1 pair.2 c).key = pairKey pair)
    (hc : c.confirm = 0 ∨ c.key = pairKey pair ∧ c.Confirmed h) :
    (Track.noteSeen clients pair.1 pair.2 c).Confirmed { h with tables := leases :: h.tables } := by
  have hle : (Track.noteSeen clients pair.1 pair.2 c).confirm ≤ c.confirm + 1 := by
    rw [noteSeen_confirm]
    split
    · exact Nat.le_refl _
    · exact Nat.le_succ _
  have hip : (Track.noteSeen clients pair.1 pair.2 c).ip = (pairKey pair).1 :=
    congrArg Prod.fst hkey
  have hmacs : s((Track.noteSeen clients pair.1 pair.2 c).mac,
      (Track.noteSeen clients pair.1 pair.2 c).peer) = (pairKey pair).2 := congrArg Prod.snd hkey
  have hbefore : c.confirm ≤ h.tables.length ∧
      ∀ leases ∈ h.tables.take c.confirm,
        ∀ m ∈ (pairKey pair).2, Names leases m (pairKey pair).1 := by
    rcases hc with hzero | ⟨hkey', hconf⟩
    · rw [hzero]
      exact ⟨Nat.zero_le _, fun _ hl => absurd hl (by simp)⟩
    · rw [← hkey']
      exact hconf
  refine ⟨Nat.le_trans hle (Nat.succ_le_succ hbefore.1), fun ls hls m hm => ?_⟩
  rw [hmacs] at hm
  rw [hip]
  have hls := List.take_subset_take_left _ hle hls
  rcases List.mem_cons.mp hls with rfl | hls
  · exact names_of_collision hpair hm
  · exact hbefore.2 ls hls m hm

theorem Client.Sighted.on (h : ent.Sighted g) (hsince : ent.ipSinceUs ≠ 0) :
    g = some (ent.ip, ent.ipSinceUs) := by
  cases g with
  | none => exact absurd h hsince
  | some r =>
    obtain ⟨hip, hs, -⟩ := h
    rw [hip, hs]

/-- What the second loop leaves of a record is as confirmed as it was, or not at all. -/
theorem Conflict.Confirmed.settle {clients : ClientTable} {q : Quarantine} {b : Bool}
    (hused : c.used = true) (hc : c.Confirmed h) :
    (Track.settle q clients now b c).Confirmed h := by
  obtain ⟨hmac, hpeer, hip⟩ := settle_about q clients now b c
  unfold Conflict.Confirmed
  rw [hmac, hpeer, hip, settle_confirm hused]
  cases b with
  | true => exact hc
  | false => exact ⟨Nat.zero_le _, fun _ hl => absurd hl (by simp)⟩

theorem Tables.listed_timed {leases : List LeaseInfo} (ht : Tables s)
    (hr : s.rebuild = .timed leases now) : (leases.map LeaseInfo.mac).Nodup := by
  have hlisted := ht.listed
  rwa [hr] at hlisted

/-- A rebuild counts itself for the pairs it has found, and starts the others again. -/
theorem rebuild_confirmed {leases : List LeaseInfo} {clients : ClientTable} {q : Quarantine}
    {i : ConflictSlot} (hu : PairUnique q.conflicts) (hl : (leases.map LeaseInfo.mac).Nodup)
    (hconf : (q.conflicts i).used = true → (q.conflicts i).Confirmed h)
    (hused : ((quarantineRebuild q clients leases now).1.conflicts i).used = true) :
    ((quarantineRebuild q clients leases now).1.conflicts i).Confirmed
      { h with tables := leases :: h.tables } := by
  rcases rebuild_cases clients now hu hl i with
    ⟨hfree, heq⟩ | ⟨hbefore, -, heq⟩ | ⟨pair, hpair, c₀, hc₀, hkey, heq⟩
  · rw [heq] at hused
    exact absurd (hfree.symm.trans hused) (by simp)
  · rw [heq]
    refine ⟨?_, fun ls hls => ?_⟩
    · rw [settle_confirm hbefore]
      exact Nat.zero_le _
    · rw [settle_confirm hbefore] at hls
      exact absurd hls (by simp)
  · rw [heq] at hused ⊢
    refine Conflict.Confirmed.settle (settle_used hused) (.noteSeen hpair hkey ?_)
    rcases hc₀ with ⟨rfl, hbefore, hk⟩ | ⟨-, rfl⟩
    · exact .inr ⟨hk, hconf hbefore⟩
    · exact .inl rfl

/-- **An arming is on good grounds.** -/
theorem grounds_of_armed {pair : LeaseInfo × LeaseInfo} (hne : pair.1.mac ≠ pair.2.mac)
    (hs : ∀ mac e, s.entry mac = some e → e.Sighted (h.sighted mac))
    (hkey : c.key = pairKey pair) (hmac : c.mac = loserOf s.bridge.table pair)
    (hticks : qArmTicks ≤ c.confirm) (hconf : c.Confirmed h)
    (hboth : bothConfirmed s.bridge.table now c = true) : Grounds s h now c := by
  obtain ⟨loser, winner, hl, hw, hlive, hwlive, hls, hws, hlip, hwip⟩ := bothConfirmed_iff.mp hboth
  refine ⟨⟨Nat.le_trans hticks hconf.1, fun leases hleases => ?_⟩,
    ⟨loser, winner, hl, hw, hlive, hwlive⟩, ⟨winner.ipSinceUs, loser.ipSinceUs, ?_, ?_,
      loserOf_later hne hkey hmac hl hw hls hws⟩⟩
  · have hleases := List.take_subset_take_left _ hticks hleases
    exact ⟨hconf.2 leases hleases _ (mem_pair.mpr (.inl rfl)),
      hconf.2 leases hleases _ (mem_pair.mpr (.inr rfl))⟩
  · rw [(hs _ winner hw).on hws, hwip]
  · rw [(hs _ loser hl).on hls, hlip]

/-! ## The step lemma -/

/-- What a step does to the records: one of the three kinds, or nothing. -/
structure Stepped (s : Enforcer × History) (e : EnforcerStep) : Prop where
  justified : Justified s e
  confirmed : ∀ i, ((s.1.step e).record i).used = true →
    ((s.1.step e).record i).Confirmed (history s.1 e s.2)

theorem Watched.rebuild {leases : List LeaseInfo} (hw : Watched (s, h))
    (hr : s.rebuild = .timed leases now) : Stepped (s, h) .decide := by
  have ht : Tables s := hw.tables
  have hl : (leases.map LeaseInfo.mac).Nodup := ht.listed_timed hr
  have hq : (s.step .decide).q = (quarantineRebuild s.q s.bridge.table leases now).1 := by
    rw [s.decide_timed hr]
  have hsame : (s.step .decide).bridge = s.bridge := by
    rw [s.decide_timed hr]
  have hhist : history s .decide h = { h with tables := leases :: h.tables } := by
    unfold history
    rw [hr]
    congr
    funext mac
    rw [sight_keep (by simp), hsame]
    exact if_pos rfl
  have hrec : ∀ i, (quarantineRebuild s.q s.bridge.table leases now).1.conflicts i =
      (s.step .decide).record i := fun i => by
    unfold Enforcer.record
    rw [hq]
  have hconf : ∀ i, ((s.step .decide).record i).used = true →
      ((s.step .decide).record i).Confirmed (history s .decide h) := fun i hused => by
    rw [hhist]
    rw [← hrec i] at hused ⊢
    exact rebuild_confirmed ht.unique hl (hw.confirmed i) hused
  have harmed := fun i ha => rebuild_armed ht.unique hl (hrec i) ha
  have hexempt : (s.step .decide).q.exempt = s.q.exempt := by rw [hq]; rfl
  refine ⟨⟨fun i hno ha => ?_, fun i hyes ha => ?_, fun i ha => ?_, fun mac hmac => ?_⟩, hconf⟩
  -- one that was not armed has met all the guards of the second loop
  · rcases (harmed i ha).2 with ⟨hyes, -⟩ | ⟨-, pair, hpair, hkey, hmac, hticks, hboth, -⟩
    · exact absurd (hno.symm.trans hyes) (by simp)
    · refine ⟨leases, now, hr, rfl, ?_⟩
      refine grounds_of_armed (collisions_ne hl hpair) (fun mac e he => ?_) hkey hmac hticks
        (hconf i (isArmed_iff.mp ha).1) hboth
      rw [hhist]
      exact hw.sighted mac e he
  · rcases (harmed i ha).2 with ⟨-, hsame⟩ | ⟨hno, -⟩
    · exact hsame
    · exact absurd (hno.symm.trans hyes) (by simp)
  -- pardons do not change here, so it is enough to look at who is armed
  · obtain ⟨hmiss, hcase⟩ := harmed i ha
    refine ⟨?_, hmiss⟩
    show (s.step .decide).q.exempt.contains _ = false
    rw [hexempt]
    rcases hcase with ⟨hyes, hmac, -⟩ | ⟨-, _, -, -, -, -, -, hno⟩
    · rw [hmac]
      exact (hw.armed i hyes).1
    · exact hno
  · rw [hq] at hmac
    have hmac : mac ∈ (if s.q.enforce then
        armedMacs (quarantineRebuild s.q s.bridge.table leases now).1.conflicts else []) := hmac
    split at hmac
    · unfold Enforcer.record
      rw [hq]
      exact mem_armedMacs.mp hmac
    · exact absurd hmac (by simp)

/-- Records that are left alone, or disarmed, and a set published from them. -/
theorem Watched.disarm {q' : Quarantine} (hw : Watched (s, h)) (hq : (s.step e).q = q')
    (hsub : ∀ i, q'.conflicts i = s.q.conflicts i ∨
      q'.conflicts i = { s.q.conflicts i with armed := false })
    (hexempt : ∀ i, (q'.conflicts i).isArmed = true →
      macIsExemptLocked q' (q'.conflicts i).mac = false)
    (hpub : ∀ mac ∈ q'.published, ∃ i, (q'.conflicts i).isArmed = true ∧
      (q'.conflicts i).mac = mac)
    (htables : (history s e h).tables = h.tables) : Stepped (s, h) e := by
  have hrec : ∀ i, (s.step e).record i = q'.conflicts i := fun i => by
    unfold Enforcer.record
    rw [hq]
  have hsame : ∀ i, (q'.conflicts i).isArmed = true → q'.conflicts i = s.record i := by
    intro i ha
    rcases hsub i with heq | heq
    · exact heq
    · rw [heq] at ha
      exact absurd (isArmed_iff.mp ha).2 (by simp)
  refine ⟨⟨fun i hno ha => ?_, fun i _ ha => ?_, fun i ha => ?_, fun mac hmac => ?_⟩,
    fun i hused => ?_⟩
  · rw [hrec] at ha
    rw [hsame i ha] at ha
    exact absurd (hno.symm.trans ha) (by simp)
  · rw [hrec] at ha ⊢
    rw [hsame i ha]
    exact ⟨rfl, rfl, rfl⟩
  · rw [hrec] at ha ⊢
    show macIsExemptLocked (s.step e).q _ = false ∧ _
    rw [hq]
    have heq := hsame i ha
    refine ⟨hexempt i ha, ?_⟩
    rw [heq] at ha ⊢
    exact (hw.armed i ha).2
  · have hmac : mac ∈ (s.step e).q.published := hmac
    rw [hq] at hmac
    obtain ⟨i, ha, hm⟩ := hpub mac hmac
    exact ⟨i, by rw [hrec]; exact ha, by rw [hrec]; exact hm⟩
  · rw [hrec] at hused ⊢
    have hconf : (s.record i).used = true → (s.record i).Confirmed h := hw.confirmed i
    unfold Conflict.Confirmed
    rw [htables]
    rcases hsub i with heq | heq
    · rw [heq] at hused ⊢
      exact hconf hused
    · rw [heq] at hused ⊢
      exact hconf hused

theorem Watched.clear {mac : Option Mac} (hw : Watched (s, h)) : Stepped (s, h) (.clear mac) := by
  have hrec : ∀ i, (s.step (.clear mac)).q.conflicts i =
      if (s.record i).isArmed && pardoned s.q mac (s.record i).mac then
        { s.record i with armed := false }
      else s.record i := fun i => quarantineClear_record
  refine hw.disarm rfl (fun i => ?_) (fun i ha => ?_) (fun m hm => ?_) rfl
  · rw [hrec]
    split
    · exact .inr rfl
    · exact .inl rfl
  · rw [hrec] at ha ⊢
    split at ha
    · exact absurd (isArmed_iff.mp ha).2 (by simp)
    · rename_i hno
      rw [if_neg hno]
      refine quarantineClear_exempt (hw.armed i ha).1 ?_
      rw [ha, Bool.true_and] at hno
      exact Bool.eq_false_of_not_eq_true hno
  · exact mem_armedMacs.mp (quarantineClear_published (fun m hm =>
      mem_armedMacs.mpr (hw.published m hm)) m hm)

theorem Watched.enforce {enforce : Bool} (hw : Watched (s, h)) :
    Stepped (s, h) (.enforce enforce) := by
  refine hw.disarm rfl (fun _ => .inl rfl) (fun i ha => (hw.armed i ha).1) (fun m hm => ?_) rfl
  have hm : m ∈ (if enforce then armedMacs s.q.conflicts else []) := hm
  split at hm
  · exact mem_armedMacs.mp hm
  · exact absurd hm (by simp)

theorem Tables.step (ht : Tables s) (hok : s.ok e) (hu : PairUnique (s.step e).q.conflicts) :
    Tables (s.step e) := by
  obtain ⟨hclients, hdhcp⟩ := Enforcer.step_tables (e := e) ht.clients ht.dhcp
  refine ⟨hclients, hdhcp, Nat.lt_of_lt_of_le ht.clock (Enforcer.clock_mono hok), hu, ?_⟩
  -- the snapshot taken lists every client once, as the table does
  rcases Enforcer.step_listed (s := s) (e := e) with heq | heq | heq
  · exact heq ▸ ht.listed
  · exact heq ▸ .nil
  · exact heq ▸ Dhcp.getLeases_nodup ht.dhcp.table.mac

theorem Watched.stepped (hw : Watched (s, h)) : Stepped (s, h) e := by
  have hquiet : (s.step e).q = s.q → (history s e h).tables = h.tables → Stepped (s, h) e :=
    fun hq htables => hw.disarm hq (fun _ => .inl rfl) (fun i ha => (hw.armed i ha).1)
      hw.published htables
  rcases Enforcer.step_q (s := s) (e := e) with hq | ⟨leases, now, hr, rfl, -⟩ | ⟨mac, rfl, -⟩ |
    ⟨enforce, rfl, -⟩
  · cases e with
    | decide =>
      cases hr : s.rebuild with
      | timed leases now => exact hw.rebuild hr
      | _ => exact hquiet hq (by unfold history; rw [hr])
    | _ => exact hquiet hq rfl
  · exact hw.rebuild hr
  · exact hw.clear
  · exact hw.enforce

theorem Watched.unique (hw : Watched (s, h)) : PairUnique (s.step e).q.conflicts := by
  have hu : PairUnique s.q.conflicts := hw.tables.unique
  rcases Enforcer.step_q (s := s) (e := e) with hq | ⟨leases, now, hr, rfl, hq⟩ | ⟨mac, rfl, hq⟩ |
    ⟨enforce, rfl, hq⟩
  · rw [hq]
    exact hu
  · rw [hq]
    exact rebuild_unique hu (hw.tables.listed_timed hr)
  · rw [hq]
    cases mac with
    | none => exact hu
    | some mac =>
      unfold quarantineClear
      dsimp only
      split
      · refine hu.weaken fun i hi => ?_
        show (s.q.conflicts i).used = true ∧ _
        dsimp only [Quarantine.publish] at hi ⊢
        split at hi
        · rename_i hc
          rw [if_pos hc]
          exact ⟨hi, rfl⟩
        · rename_i hc
          rw [if_neg hc]
          exact ⟨hi, rfl⟩
      · exact hu
  · rw [hq]
    exact hu

/-- **The step lemma.** -/
theorem Watched.step (hw : Watched (s, h)) (hok : s.ok e) :
    Justified (s, h) e ∧ Watched (s.step e, history s e h) := by
  obtain ⟨hjust, hconf⟩ := hw.stepped (e := e)
  refine ⟨hjust, hw.tables.step hok hw.unique, fun mac ent hent => ?_, hconf, hjust.armed,
    hjust.published⟩
  exact sighted_step hw.tables (hw.sighted mac) hent

theorem entry_boot {dhcp : System} (mac : Mac) : (Enforcer.boot dhcp now).entry mac = none := by
  have hfind : findLocked .empty mac = none := Fin.find?_eq_none_iff.mpr fun i => by
    simp [ClientTable.empty]
  show (findLocked .empty mac).map ClientTable.empty.clients = none
  rw [hfind]
  rfl

theorem watched_boot {dhcp : System} (hd : dhcp.Inv) (hnow : 0 < now) :
    Watched (Enforcer.boot dhcp now, History.start) := by
  refine ⟨⟨fun i j hi => absurd hi (by simp [Enforcer.boot, ClientTable.empty]), hd, hnow,
    fun i j hi => absurd hi (by simp [Enforcer.boot, Quarantine.start]), .nil⟩,
    fun mac e he => absurd ((entry_boot mac).symm.trans he) (by simp),
    fun i hi => absurd hi (by simp [Enforcer.record, Enforcer.boot, Quarantine.start]),
    fun i hi => absurd hi (by simp [Enforcer.record, Enforcer.boot, Quarantine.start,
      Conflict.isArmed]),
    fun mac hmac => absurd hmac (by simp [Enforcer.boot, Quarantine.start])⟩

end

/-! ## The theorem -/

theorem Enforcer.cut_off_justified {dhcp : System} {now : Nat} {es : List EnforcerStep}
    (hd : dhcp.Reachable) (hnow : 0 < now)
    (h : Along Enforcer.step Enforcer.ok (.boot dhcp now) es) :
    Along (watch Enforcer.step history) Justified (.boot dhcp now, .start) es :=
  ((along_watch history (.boot dhcp now, .start)).mpr h).of_invariant
    (watched_boot hd.inv hnow) fun _ _ hw hok => hw.step hok

def frameFrom (mac : Mac) (ip : Ip) : EnforcerStep := .account ⟨mac, true, 100, true, ip⟩

/-- A second goes by, and the rebuild runs. -/
def rebuildAt (now : Nat) : List EnforcerStep := [.wait now, .list, .readClock, .decide, .push]

def deviceA : Mac := 0x020000000001

def deviceB : Mac := 0x020000000002

/-- Two devices on one address, and three rebuilds. -/
def twoOnOne : List EnforcerStep :=
  [frameFrom deviceA (Dhcp.ip4 192 168 5 50), .wait 2, frameFrom deviceB (Dhcp.ip4 192 168 5 50)] ++
    rebuildAt 1000000 ++ rebuildAt 2000000 ++ rebuildAt 3000000

theorem cut_off_justified_second :
    Along (watch Enforcer.step history) Justified
        (.boot (Dhcp.powerOn Dhcp.shipped none 1) 1, .start) twoOnOne ∧
      (twoOnOne.foldl Enforcer.step (.boot (Dhcp.powerOn Dhcp.shipped none 1) 1)).q.published =
        [deviceB] :=
  ⟨Enforcer.cut_off_justified (.switchedOn Dhcp.shipped 1) (by decide) (by decide +kernel),
    by decide +kernel⟩

end Track
end Wt32Router
