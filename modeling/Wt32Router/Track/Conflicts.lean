import Mathlib.Data.Sym.Sym2
import Wt32Router.Track.Entries

/-!
# Two devices on one address

`quarantine_rebuild` reads the lease table once a second, and every pair of devices whose
entries name one address is a conflict. A conflict that has been seen for three rebuilds in a
row, and whose two devices have both been heard from on the address lately, is *armed*: the one
that came second is cut off until the pair has not been seen for ten.

Here are the records and what one rebuild makes of them. A record is about an address and an
unordered pair of devices (`Conflict.key`), and no two are about the same (`PairUnique`), so a
rebuild visits each once: a pair that was seen puts the record it finds or makes through
`noteSeen` (`scan_seen`), and a record nobody saw is as it was (`scan_missed`).
-/

namespace Wt32Router
namespace Track

open Function
open Dhcp (Ip Mac LeaseInfo)

/-! ## Constants -/

/-- `CLIENT_TRACK_MAX_CONFLICTS`. -/
def maxConflicts : Nat := 4

def qArmTicks : Nat := 3

def qDisarmTicks : Nat := 10

def qForgetTicks : Nat := 30

def qLivenessUs : Nat := 30 * 1000000

def qLogRepeatUs : Nat := 5 * 60 * 1000000

/-! ## The records -/

abbrev ConflictSlot := Fin maxConflicts

/-- `conflict_t`. One `memset` leaves is `{}`. -/
structure Conflict where
  used : Bool := false
  /-- the one being cut off -/
  mac : Mac := 0
  /-- the one keeping the address -/
  peer : Mac := 0
  ip : Ip := 0
  confirm : Nat := 0
  miss : Nat := 0
  armed : Bool := false
  armedUs : Nat := 0
  loggedUs : Nat := 0
deriving DecidableEq, Repr

abbrev Conflicts := ConflictSlot → Conflict

/-- The record cuts somebody off. -/
def Conflict.isArmed (c : Conflict) : Bool := c.used && c.armed

/-- `s_conflicts`, the pardons, the switch, and the MACs in the table the wrappers check. -/
structure Quarantine where
  conflicts : Conflicts
  exempt : List Mac
  enforce : Bool
  published : List Mac

def Quarantine.start : Quarantine := ⟨fun _ => {}, [], true, []⟩

def leaseEffectiveIp (l : LeaseInfo) : Ip :=
  if l.observedIp ≠ 0 then l.observedIp
  else if 0 < l.expiresInS then l.ip
  else 0

/-- First seen on an address at an earlier time; or at the same, with a lower MAC. -/
def Earlier (a b : Nat × Mac) : Prop := a.1 < b.1 ∨ a.1 = b.1 ∧ a.2 < b.2

instance (a b : Nat × Mac) : Decidable (Earlier a b) := inferInstanceAs (Decidable (_ ∨ _))

def loserIsB (ea eb : Option Client) (ma mb : Mac) : Bool :=
  let ta := (ea.map Client.ipSinceUs).getD 0
  let tb := (eb.map Client.ipSinceUs).getD 0
  if ta ≠ tb then
    if ta = 0 then false
    else if tb = 0 then true
    else ta < tb
  else ma < mb

def macIsExemptLocked (q : Quarantine) (mac : Mac) : Bool := q.exempt.contains mac

def conflictFindLocked (t : Conflicts) (ip : Ip) (m1 m2 : Mac) : Option ConflictSlot :=
  Fin.find? fun i => (t i).used && (t i).ip == ip &&
    ((t i).mac == m1 && (t i).peer == m2 || (t i).mac == m2 && (t i).peer == m1)

def conflictAllocLocked (t : Conflicts) : Option ConflictSlot := Fin.find? fun i => !(t i).used

/-! ## The first loop -/

/-- The pairs the two nested loops over the leases stop at. -/
def collisions : List LeaseInfo → List (LeaseInfo × LeaseInfo)
  | [] => []
  | l :: ls =>
    (if leaseEffectiveIp l = 0 then []
      else (ls.filter fun l' => leaseEffectiveIp l' == leaseEffectiveIp l).map (l, ·)) ++
      collisions ls

/-- What the loop's body does to the record of a pair. Who loses is settled while it is not
    armed, and then left alone. -/
def noteSeen (clients : ClientTable) (li lj : LeaseInfo) (c : Conflict) : Conflict :=
  let c :=
    if c.armed then c
    else if loserIsB (entryOf clients li.mac) (entryOf clients lj.mac) li.mac lj.mac then
      { c with mac := lj.mac, peer := li.mac }
    else { c with mac := li.mac, peer := lj.mac }
  { c with miss := 0, confirm := if c.confirm < qArmTicks then c.confirm + 1 else c.confirm }

/-- The records, and which of them have been seen by this rebuild. -/
structure Scan where
  conflicts : Conflicts
  seen : ConflictSlot → Bool

def Scan.note (clients : ClientTable) (s : Scan) (i : ConflictSlot) (c : Conflict)
    (pair : LeaseInfo × LeaseInfo) : Scan :=
  ⟨update s.conflicts i (noteSeen clients pair.1 pair.2 c), update s.seen i true⟩

/-- The loop's body. With no slot free the pair is passed over. -/
def scanPair (clients : ClientTable) (s : Scan) (pair : LeaseInfo × LeaseInfo) : Scan :=
  let addr := leaseEffectiveIp pair.1
  match conflictFindLocked s.conflicts addr pair.1.mac pair.2.mac with
  | some i => s.note clients i (s.conflicts i) pair
  | none =>
    match conflictAllocLocked s.conflicts with
    | some i => s.note clients i { used := true, ip := addr } pair
    | none => s

def scan (clients : ClientTable) (t : Conflicts) (leases : List LeaseInfo) : Scan :=
  (collisions leases).foldl (scanPair clients) ⟨t, fun _ => false⟩

/-! ## The second loop -/

/-- Both have been heard from lately, and seen by their own traffic on the address. -/
def bothConfirmed (clients : ClientTable) (now : Nat) (c : Conflict) : Bool :=
  match entryOf clients c.mac, entryOf clients c.peer with
  | some loser, some winner =>
    decide (now < loser.lastSeenUs + qLivenessUs) &&
      decide (now < winner.lastSeenUs + qLivenessUs) &&
      loser.ipSinceUs != 0 && winner.ipSinceUs != 0 && loser.ip == c.ip && winner.ip == c.ip
  | _, _ => false

/-- A pair that this rebuild has not seen. -/
def missed (c : Conflict) : Conflict :=
  let miss := if c.miss < 255 then c.miss + 1 else c.miss
  { c with
    confirm := 0, miss
    armed := if c.armed ∧ qDisarmTicks ≤ miss then false else c.armed
    used := if qForgetTicks ≤ miss then false else c.used }

/-- A pair that has been seen for long enough, one of which is to be cut off. -/
def arms (q : Quarantine) (clients : ClientTable) (now : Nat) (c : Conflict) : Bool :=
  !c.armed && decide (qArmTicks ≤ c.confirm) && bothConfirmed clients now c &&
    !macIsExemptLocked q c.mac

/-- What the loop does to a record. -/
def settle (q : Quarantine) (clients : ClientTable) (now : Nat) (seen : Bool) (c : Conflict) :
    Conflict :=
  if !c.used then c
  else if !seen then missed c
  else if arms q clients now c then
    { c with
      armed := true, armedUs := now
      loggedUs := if c.loggedUs = 0 ∨ qLogRepeatUs < now - c.loggedUs then now else c.loggedUs }
  else c

def armedMacs (t : Conflicts) : List Mac :=
  ((List.finRange maxConflicts).filter fun i => (t i).isArmed).map fun i => (t i).mac

/-- `quarantine_publish`, as the wrappers find the table after it. -/
def Quarantine.publish (q : Quarantine) (macs : List Mac) : Quarantine :=
  { q with published := macs }

/-- The locked part of `quarantine_rebuild`, and the set it then hands the DHCP server. -/
def quarantineRebuild (q : Quarantine) (clients : ClientTable) (leases : List LeaseInfo)
    (now : Nat) : Quarantine × List Mac :=
  let s := scan clients q.conflicts leases
  let t := fun i => settle q clients now (s.seen i) (s.conflicts i)
  let enforced := if q.enforce then armedMacs t else []
  ({ q with conflicts := t }.publish enforced, enforced)

/-! ## The operator's commands -/

/-- `client_track_quarantine_clear`: `none` is all of them. -/
def quarantineClear (q : Quarantine) : Option Mac → Quarantine × Bool
  | none => ({ q with exempt := [] }, true)
  | some mac =>
    if !macIsExemptLocked q mac && decide (q.exempt.length < maxConflicts) then
      let t := fun i =>
        if (q.conflicts i).isArmed && (q.conflicts i).mac == mac then
          { q.conflicts i with armed := false }
        else q.conflicts i
      ({ q with conflicts := t, exempt := q.exempt ++ [mac] }.publish
        (if q.enforce then armedMacs t else []), true)
    else (q, false)

/-- `client_track_quarantine_enforce`. -/
def quarantineEnforce (q : Quarantine) (enforce : Bool) : Quarantine :=
  { q with enforce }.publish (if enforce then armedMacs q.conflicts else [])

/-! ## What the first loop does to one record -/

def Conflict.key (c : Conflict) : Ip × Sym2 Mac := (c.ip, s(c.mac, c.peer))

def pairKey (pair : LeaseInfo × LeaseInfo) : Ip × Sym2 Mac :=
  (leaseEffectiveIp pair.1, s(pair.1.mac, pair.2.mac))

/-- No two records are about the same. -/
def PairUnique (t : Conflicts) : Prop :=
  Lib.KeyUnique (fun c : Conflict => c.used = true) Conflict.key t

section

variable {clients : ClientTable} {t : Conflicts} {s : Scan} {c : Conflict} {li lj : LeaseInfo}
  {pair : LeaseInfo × LeaseInfo} {leases : List LeaseInfo} {done : List (LeaseInfo × LeaseInfo)}
  {ip : Ip} {m1 m2 mac : Mac} {i : ConflictSlot} {q : Quarantine} {now : Nat} {b : Bool}

theorem isArmed_iff : c.isArmed = true ↔ c.used = true ∧ c.armed = true := Bool.and_eq_true_iff

theorem mem_armedMacs : mac ∈ armedMacs t ↔ ∃ i, (t i).isArmed = true ∧ (t i).mac = mac := by
  unfold armedMacs
  simp [List.mem_map]

@[simp] theorem noteSeen_used : (noteSeen clients li lj c).used = c.used := by
  unfold noteSeen
  split
  · rfl
  · split <;> rfl

@[simp] theorem noteSeen_ip : (noteSeen clients li lj c).ip = c.ip := by
  unfold noteSeen
  split
  · rfl
  · split <;> rfl

@[simp] theorem noteSeen_armed : (noteSeen clients li lj c).armed = c.armed := by
  unfold noteSeen
  split
  · rfl
  · split <;> rfl

@[simp] theorem noteSeen_miss : (noteSeen clients li lj c).miss = 0 := rfl

@[simp] theorem noteSeen_confirm : (noteSeen clients li lj c).confirm =
    if c.confirm < qArmTicks then c.confirm + 1 else c.confirm := by
  unfold noteSeen
  split
  · rfl
  · split <;> rfl

theorem noteSeen_frozen (clients : ClientTable) (li lj : LeaseInfo) (h : c.armed = true) :
    (noteSeen clients li lj c).mac = c.mac ∧ (noteSeen clients li lj c).peer = c.peer := by
  unfold noteSeen
  rw [if_pos h]
  exact ⟨rfl, rfl⟩

theorem noteSeen_settled (clients : ClientTable) (li lj : LeaseInfo) (h : c.armed = false) :
    (loserIsB (entryOf clients li.mac) (entryOf clients lj.mac) li.mac lj.mac = true ∧
        (noteSeen clients li lj c).mac = lj.mac ∧ (noteSeen clients li lj c).peer = li.mac) ∨
      (loserIsB (entryOf clients li.mac) (entryOf clients lj.mac) li.mac lj.mac = false ∧
        (noteSeen clients li lj c).mac = li.mac ∧ (noteSeen clients li lj c).peer = lj.mac) := by
  unfold noteSeen
  rw [if_neg (by simp [h])]
  cases loserIsB (entryOf clients li.mac) (entryOf clients lj.mac) li.mac lj.mac with
  | true => exact .inl ⟨rfl, rfl, rfl⟩
  | false => exact .inr ⟨rfl, rfl, rfl⟩

/-- The record of a pair stays the record of that pair, and a fresh one becomes it. -/
theorem noteSeen_key (h : c.key = pairKey pair ∨ c.armed = false ∧ c.ip = leaseEffectiveIp pair.1) :
    (noteSeen clients pair.1 pair.2 c).key = pairKey pair := by
  unfold Conflict.key
  rw [noteSeen_ip]
  cases harmed : c.armed with
  | true =>
    -- a fresh record is not armed
    obtain hkey := h.resolve_right fun hno => absurd (hno.1.symm.trans harmed) (by simp)
    obtain ⟨hmac, hpeer⟩ := noteSeen_frozen clients pair.1 pair.2 harmed
    rw [hmac, hpeer]
    exact hkey
  | false =>
    have hip : c.ip = leaseEffectiveIp pair.1 := by
      rcases h with hkey | ⟨-, hip⟩
      · exact congrArg Prod.fst hkey
      · exact hip
    rw [hip]
    rcases noteSeen_settled clients pair.1 pair.2 harmed with
      ⟨-, hmac, hpeer⟩ | ⟨-, hmac, hpeer⟩
    · rw [hmac, hpeer, Sym2.eq_swap]
      rfl
    · rw [hmac, hpeer]
      rfl

theorem conflictFindLocked_some (h : conflictFindLocked t ip m1 m2 = some i) :
    (t i).used = true ∧ (t i).key = (ip, s(m1, m2)) := by
  have hp := Fin.eq_true_of_find?_eq_some h
  simp only [Bool.and_eq_true, Bool.or_eq_true, beq_iff_eq] at hp
  exact ⟨hp.1.1, Prod.ext hp.1.2 (Sym2.eq_iff.mpr hp.2)⟩

theorem conflictFindLocked_none (h : conflictFindLocked t ip m1 m2 = none)
    (hi : (t i).used = true) : (t i).key ≠ (ip, s(m1, m2)) := by
  intro hkey
  have hp := Fin.find?_eq_none_iff.mp h i
  have hip : (t i).ip = ip := congrArg Prod.fst hkey
  have hmacs := Sym2.eq_iff.mp (congrArg Prod.snd hkey)
  simp only [hi, hip, Bool.true_and, beq_self_eq_true, Bool.or_eq_false_iff,
    Bool.and_eq_false_iff, beq_eq_false_iff_ne] at hp
  rcases hmacs with ⟨h1, h2⟩ | ⟨h1, h2⟩
  · exact hp.1.elim (absurd h1) (absurd h2)
  · exact hp.2.elim (absurd h1) (absurd h2)

theorem conflictAllocLocked_some (h : conflictAllocLocked t = some i) : (t i).used = false := by
  simpa using Fin.eq_true_of_find?_eq_some h

/-! ### The order -/

theorem Earlier.trans {a b c : Nat × Mac} (h : Earlier a b) (h' : Earlier b c) : Earlier a c := by
  rcases h with h | ⟨h, hm⟩ <;> rcases h' with h' | ⟨h', hm'⟩
  · exact .inl (Nat.lt_trans h h')
  · exact .inl (h' ▸ h)
  · exact .inl (h ▸ h')
  · exact .inr ⟨h.trans h', BitVec.lt_trans hm hm'⟩

theorem Earlier.irrefl {a : Nat × Mac} : ¬ Earlier a a := by
  rintro (h | ⟨-, h⟩)
  · exact Nat.lt_irrefl _ h
  · exact BitVec.lt_irrefl _ h

theorem earlier_of_not {a b : Nat × Mac} (h : ¬ Earlier a b) (hne : a.2 ≠ b.2) : Earlier b a := by
  rcases Nat.lt_trichotomy a.1 b.1 with hlt | heq | hlt
  · exact absurd (.inl hlt) h
  · refine .inr ⟨heq.symm, ?_⟩
    have hle : b.2 ≤ a.2 := BitVec.not_lt.mp fun hm => h (.inr ⟨heq, hm⟩)
    exact BitVec.lt_of_le_ne hle (Ne.symm hne)
  · exact .inl hlt

/-! ### The pairs -/

theorem mem_collisions (h : pair ∈ collisions leases) :
    pair.1 ∈ leases ∧ pair.2 ∈ leases ∧ leaseEffectiveIp pair.1 ≠ 0 ∧
      leaseEffectiveIp pair.2 = leaseEffectiveIp pair.1 := by
  induction leases with
  | nil => exact absurd h (by simp [collisions])
  | cons l ls ih =>
    rcases List.mem_append.mp h with h | h
    · split at h
      · exact absurd h (by simp)
      · rename_i hne
        obtain ⟨l', hl', rfl⟩ := List.mem_map.mp h
        obtain ⟨hmem, heq⟩ := List.mem_filter.mp hl'
        exact ⟨by simp, List.mem_cons_of_mem _ hmem, hne, eq_of_beq heq⟩
    · obtain ⟨h1, h2, hrest⟩ := ih h
      exact ⟨List.mem_cons_of_mem _ h1, List.mem_cons_of_mem _ h2, hrest⟩

/-- Any two entries that name one address are a pair, in one order or the other. -/
theorem collisions_complete (hi : li ∈ leases) (hj : lj ∈ leases) (hne : li.mac ≠ lj.mac)
    (h0 : leaseEffectiveIp li ≠ 0) (heq : leaseEffectiveIp lj = leaseEffectiveIp li) :
    (li, lj) ∈ collisions leases ∨ (lj, li) ∈ collisions leases := by
  induction leases with
  | nil => exact absurd hi (by simp)
  | cons l ls ih =>
    unfold collisions
    -- whichever of the two comes first in the list stops at the other
    rcases List.mem_cons.mp hi with rfl | hi
    · rcases List.mem_cons.mp hj with rfl | hj
      · exact absurd rfl hne
      · refine .inl (List.mem_append_left _ ?_)
        rw [if_neg h0]
        exact List.mem_map_of_mem (List.mem_filter.mpr ⟨hj, by simpa using heq⟩)
    · rcases List.mem_cons.mp hj with rfl | hj
      · refine .inr (List.mem_append_left _ ?_)
        rw [if_neg (heq ▸ h0)]
        exact List.mem_map_of_mem (List.mem_filter.mpr ⟨‹li ∈ ls›, by simpa using heq.symm⟩)
      · exact (ih hi hj).imp (List.mem_append_right _) (List.mem_append_right _)

theorem collisions_ne (h : (leases.map LeaseInfo.mac).Nodup) (hpair : pair ∈ collisions leases) :
    pair.1.mac ≠ pair.2.mac := by
  induction leases with
  | nil => exact absurd hpair (by simp [collisions])
  | cons l ls ih =>
    obtain ⟨hl, hls⟩ := List.nodup_cons.mp h
    rcases List.mem_append.mp hpair with hpair | hpair
    · split at hpair
      · exact absurd hpair (by simp)
      · obtain ⟨l', hl', rfl⟩ := List.mem_map.mp hpair
        exact fun heq => hl (heq ▸ List.mem_map_of_mem (List.mem_of_mem_filter hl'))
    · exact ih hls hpair

theorem collisions_nodup (h : (leases.map LeaseInfo.mac).Nodup) :
    ((collisions leases).map pairKey).Nodup := by
  induction leases with
  | nil => exact .nil
  | cons l ls ih =>
    obtain ⟨hl, hls⟩ := List.nodup_cons.mp h
    unfold collisions
    rw [List.map_append]
    -- the pairs that begin with this entry differ in their second, and no later pair has it
    refine List.Nodup.append ?_ (ih hls) ?_
    · split
      · exact .nil
      · rw [List.map_map]
        refine List.Nodup.map_on (fun a ha b hb hkey => ?_) ((hls.of_map _).filter _)
        have hmacs : s(l.mac, a.mac) = s(l.mac, b.mac) := congrArg Prod.snd hkey
        exact List.inj_on_of_nodup_map hls (List.mem_of_mem_filter ha) (List.mem_of_mem_filter hb)
          (Sym2.congr_right.mp hmacs)
    · intro k hk hk'
      obtain ⟨pair, hpair, rfl⟩ := List.mem_map.mp hk
      obtain ⟨pair', hpair', hkey⟩ := List.mem_map.mp hk'
      obtain ⟨h1, h2, -⟩ := mem_collisions hpair'
      have hfst : pair.1 = l := by
        split at hpair
        · exact absurd hpair (by simp)
        · obtain ⟨l', -, rfl⟩ := List.mem_map.mp hpair
          rfl
      have hmacs : s(pair'.1.mac, pair'.2.mac) = s(pair.1.mac, pair.2.mac) :=
        congrArg Prod.snd hkey
      have hmem : l.mac ∈ s(pair'.1.mac, pair'.2.mac) := by
        rw [hmacs, hfst]
        exact Sym2.mem_mk_left _ _
      rcases Sym2.mem_iff.mp hmem with heq | heq
      · exact hl (heq ▸ List.mem_map_of_mem h1)
      · exact hl (heq ▸ List.mem_map_of_mem h2)

/-! ### The loop -/

/-- Where the loop stands after some of the pairs: each record seen has been through
    `noteSeen` once, and the others are not about any of those pairs. -/
structure Scanned (clients : ClientTable) (t : Conflicts) (done : List (LeaseInfo × LeaseInfo))
    (s : Scan) : Prop where
  unique : PairUnique s.conflicts
  seen : ∀ i, s.seen i = true → ∃ pair ∈ done, ∃ c,
    s.conflicts i = noteSeen clients pair.1 pair.2 c ∧ (s.conflicts i).key = pairKey pair ∧
    (c = t i ∧ (t i).used = true ∧ (t i).key = pairKey pair ∨
      (t i).used = false ∧ c = { used := true, ip := leaseEffectiveIp pair.1 })
  missed : ∀ i, s.seen i = false →
    s.conflicts i = t i ∧ ((t i).used = true → ∀ pair ∈ done, (t i).key ≠ pairKey pair)

theorem Scanned.seen_used (h : Scanned clients t done s) (hi : s.seen i = true) :
    (s.conflicts i).used = true := by
  obtain ⟨pair, -, c, heq, -, hc⟩ := h.seen i hi
  rw [heq, noteSeen_used]
  rcases hc with ⟨rfl, hused, -⟩ | ⟨-, rfl⟩
  · exact hused
  · rfl

theorem Scan.note_same (clients : ClientTable) (s : Scan) (i : ConflictSlot) (c : Conflict)
    (pair : LeaseInfo × LeaseInfo) :
    (s.note clients i c pair).conflicts i = noteSeen clients pair.1 pair.2 c ∧
      (s.note clients i c pair).seen i = true :=
  ⟨update_self .., update_self ..⟩

theorem Scan.note_other {j : ConflictSlot} (h : j ≠ i) :
    (s.note clients i c pair).conflicts j = s.conflicts j ∧
      (s.note clients i c pair).seen j = s.seen j :=
  ⟨update_of_ne h .., update_of_ne h ..⟩

/-- One more record written, for a pair nobody's record was about but its own. -/
theorem Scanned.note (h : Scanned clients t done s) (hi : s.seen i = false)
    (hother : ∀ j, j ≠ i → (s.conflicts j).used = true → (s.conflicts j).key ≠ pairKey pair)
    (hc : c = t i ∧ (t i).used = true ∧ (t i).key = pairKey pair ∨
      (t i).used = false ∧ c = { used := true, ip := leaseEffectiveIp pair.1 }) :
    Scanned clients t (done ++ [pair]) (s.note clients i c pair) := by
  have hkey : (noteSeen clients pair.1 pair.2 c).key = pairKey pair := by
    apply noteSeen_key
    rcases hc with ⟨rfl, -, hkey⟩ | ⟨-, rfl⟩
    · exact .inl hkey
    · exact .inr ⟨rfl, rfl⟩
  obtain ⟨hself, hmark⟩ := Scan.note_same clients s i c pair
  refine ⟨?_, fun j hj => ?_, fun j hj => ?_⟩
  · refine Lib.KeyUnique.write h.unique i (fun j hj hused => ?_) (fun _ j hj hused => ?_)
    · rw [(Scan.note_other hj).1] at hused ⊢
      exact ⟨hused, rfl⟩
    · rw [(Scan.note_other hj).1] at hused ⊢
      rw [hself, hkey]
      exact hother j hj hused
  · by_cases hji : j = i
    · subst hji
      refine ⟨pair, by simp, c, hself, ?_, hc⟩
      rw [hself, hkey]
    · rw [(Scan.note_other hji).1]
      rw [(Scan.note_other hji).2] at hj
      obtain ⟨p, hp, hrest⟩ := h.seen j hj
      exact ⟨p, List.mem_append_left _ hp, hrest⟩
  · have hji : j ≠ i := by
      rintro rfl
      exact absurd (hmark.symm.trans hj) (by simp)
    rw [(Scan.note_other hji).1]
    rw [(Scan.note_other hji).2] at hj
    obtain ⟨heq, hmissed⟩ := h.missed j hj
    refine ⟨heq, fun hused p hp => ?_⟩
    rcases List.mem_append.mp hp with hp | hp
    · exact hmissed hused p hp
    · rw [List.mem_singleton.mp hp, ← heq]
      exact hother j hji (heq ▸ hused)

theorem Scanned.step (h : Scanned clients t done s) (hnew : pairKey pair ∉ done.map pairKey) :
    Scanned clients t (done ++ [pair]) (scanPair clients s pair) := by
  unfold scanPair
  dsimp only
  cases hfind : conflictFindLocked s.conflicts (leaseEffectiveIp pair.1) pair.1.mac pair.2.mac with
  | some i =>
    obtain ⟨hused, hkey⟩ := conflictFindLocked_some hfind
    -- a record that was seen is about a pair that was, and this one is new
    have hseen : s.seen i = false := by
      rw [← Bool.not_eq_true]
      intro hseen
      obtain ⟨p, hp, -, -, hpkey, -⟩ := h.seen i hseen
      exact hnew (List.mem_map.mpr ⟨p, hp, hpkey.symm.trans hkey⟩)
    have heq := (h.missed i hseen).1
    refine h.note hseen (fun j hj hjused hjkey => hj ?_) (.inl ⟨heq, heq ▸ hused, heq ▸ hkey⟩)
    exact h.unique j i hjused hused (hjkey.trans hkey.symm)
  | none =>
    have hnone := fun j hj => conflictFindLocked_none hfind (i := j) hj
    dsimp only
    cases halloc : conflictAllocLocked s.conflicts with
    | some i =>
      have hfree := conflictAllocLocked_some halloc
      have hseen : s.seen i = false := by
        rw [← Bool.not_eq_true]
        intro hseen
        exact absurd ((h.seen_used hseen).symm.trans hfree) (by simp)
      exact h.note hseen (fun j _ hj => hnone j hj) (.inr ⟨(h.missed i hseen).1 ▸ hfree, rfl⟩)
    | none =>
      -- no slot left: nobody's record is about this pair, so nothing is owed to it
      refine ⟨h.unique, fun j hj => ?_, fun j hj => ?_⟩
      · obtain ⟨p, hp, hrest⟩ := h.seen j hj
        exact ⟨p, List.mem_append_left _ hp, hrest⟩
      · obtain ⟨heq, hmissed⟩ := h.missed j hj
        refine ⟨heq, fun hused p hp => ?_⟩
        rcases List.mem_append.mp hp with hp | hp
        · exact hmissed hused p hp
        · rw [List.mem_singleton.mp hp, ← heq]
          exact hnone j (heq ▸ hused)

/-- **The first loop**, over a table that lists every client once. -/
theorem scan_scanned (clients : ClientTable) (hu : PairUnique t)
    (hl : (leases.map LeaseInfo.mac).Nodup) :
    Scanned clients t (collisions leases) (scan clients t leases) := by
  have key : ∀ (ps done : List (LeaseInfo × LeaseInfo)) (s : Scan), Scanned clients t done s →
      ((done ++ ps).map pairKey).Nodup →
      Scanned clients t (done ++ ps) (ps.foldl (scanPair clients) s) := by
    intro ps
    -- on the pairs still to come, whatever is done already
    induction ps with
    | nil =>
      intro done s h _
      rwa [List.append_nil]
    | cons p ps ih =>
      intro done s h hnodup
      rw [List.append_cons] at hnodup ⊢
      refine ih _ _ (h.step ?_) hnodup
      rw [List.map_append, List.map_append] at hnodup
      have hdisj := (List.nodup_append.mp (List.nodup_append.mp hnodup).1).2.2
      intro hmem
      exact hdisj _ hmem _ (by simp) rfl
  refine key (collisions leases) [] _ ⟨hu, fun i hi => absurd hi (by simp), fun i _ => ⟨rfl, ?_⟩⟩
    (collisions_nodup hl)
  exact fun _ _ hp => absurd hp (by simp)

/-! ## What the second loop does to one record -/

theorem settle_about (q : Quarantine) (clients : ClientTable) (now : Nat) (b : Bool)
    (c : Conflict) : (settle q clients now b c).mac = c.mac ∧
    (settle q clients now b c).peer = c.peer ∧ (settle q clients now b c).ip = c.ip := by
  unfold settle
  split
  · exact ⟨rfl, rfl, rfl⟩
  · split
    · exact ⟨rfl, rfl, rfl⟩
    · split <;> exact ⟨rfl, rfl, rfl⟩

theorem settle_key : (settle q clients now b c).key = c.key := by
  obtain ⟨hmac, hpeer, hip⟩ := settle_about q clients now b c
  unfold Conflict.key
  rw [hmac, hpeer, hip]

theorem settle_used (h : (settle q clients now b c).used = true) : c.used = true := by
  unfold settle at h
  split at h
  · exact h
  · rename_i hused
    simpa using hused

theorem settle_confirm (h : c.used = true) :
    (settle q clients now b c).confirm = if b then c.confirm else 0 := by
  unfold settle
  rw [if_neg (by simp [h])]
  cases b with
  | true =>
    rw [if_neg (by simp)]
    split <;> rfl
  | false => rfl

/-- A record that is armed when a rebuild has seen to it was armed before and has not been
    missed ten times, or has just been armed. -/
theorem settle_armed (hused : (settle q clients now b c).used = true)
    (harmed : (settle q clients now b c).armed = true) :
    (c.armed = true ∧
        ((settle q clients now b c).miss = c.miss ∧ b = true ∨
          (settle q clients now b c).miss < qDisarmTicks)) ∨
      (b = true ∧ arms q clients now c = true ∧ (settle q clients now b c).miss = c.miss) := by
  have hc := settle_used hused
  unfold settle at *
  rw [if_neg (by simp [hc])] at *
  cases b with
  | true =>
    rw [if_neg (by simp)] at *
    by_cases harms : arms q clients now c = true
    · rw [if_pos harms]
      exact .inr ⟨rfl, harms, rfl⟩
    · rw [if_neg harms] at *
      exact .inl ⟨harmed, .inl ⟨rfl, rfl⟩⟩
  | false =>
    rw [if_pos (by simp)] at *
    have harmed : (if c.armed ∧ qDisarmTicks ≤ (missed c).miss then false else c.armed) = true :=
      harmed
    split at harmed
    · exact absurd harmed (by simp)
    · rename_i hdis
      exact .inl ⟨harmed, .inr (Nat.lt_of_not_le fun hle => hdis ⟨harmed, hle⟩)⟩

theorem settle_stays (hused : c.used = true) (harmed : c.armed = true) :
    settle q clients now true c = c := by
  unfold settle
  rw [if_neg (by simp [hused]), if_neg (by simp), if_neg (by simp [arms, harmed])]

/-! ## A rebuild, record by record -/

theorem loserIsB_iff {ea eb : Client} (ha : ea.ipSinceUs ≠ 0) (hb : eb.ipSinceUs ≠ 0) :
    loserIsB (some ea) (some eb) m1 m2 = true ↔ Earlier (ea.ipSinceUs, m1) (eb.ipSinceUs, m2) := by
  unfold loserIsB Earlier
  dsimp only [Option.map_some, Option.getD_some]
  by_cases heq : ea.ipSinceUs = eb.ipSinceUs
  · rw [if_neg (not_not.mpr heq), decide_eq_true_iff]
    simp [heq]
  · rw [if_pos heq, if_neg ha, if_neg hb, decide_eq_true_iff]
    simp [heq]

theorem bothConfirmed_iff :
    bothConfirmed clients now c = true ↔ ∃ loser winner,
      entryOf clients c.mac = some loser ∧ entryOf clients c.peer = some winner ∧
      now < loser.lastSeenUs + qLivenessUs ∧ now < winner.lastSeenUs + qLivenessUs ∧
      loser.ipSinceUs ≠ 0 ∧ winner.ipSinceUs ≠ 0 ∧ loser.ip = c.ip ∧ winner.ip = c.ip := by
  unfold bothConfirmed
  constructor
  · intro hc
    split at hc
    · rename_i loser winner hl hw
      simp only [Bool.and_eq_true, decide_eq_true_eq, bne_iff_ne, beq_iff_eq] at hc
      obtain ⟨⟨⟨⟨⟨h1, h2⟩, h3⟩, h4⟩, h5⟩, h6⟩ := hc
      exact ⟨loser, winner, hl, hw, h1, h2, h3, h4, h5, h6⟩
    · exact absurd hc (by simp)
  · rintro ⟨loser, winner, hl, hw, h1, h2, h3, h4, h5, h6⟩
    rw [hl, hw]
    simp [h1, h2, h3, h4, h5, h6]

/-- The one of a pair that `loser_is_b` says loses. -/
def loserOf (clients : ClientTable) (pair : LeaseInfo × LeaseInfo) : Mac :=
  if loserIsB (entryOf clients pair.1.mac) (entryOf clients pair.2.mac) pair.1.mac pair.2.mac then
    pair.2.mac
  else pair.1.mac

theorem noteSeen_mac (h : c.armed = false) :
    (noteSeen clients pair.1 pair.2 c).mac = loserOf clients pair := by
  unfold loserOf
  rcases noteSeen_settled clients pair.1 pair.2 h with
    ⟨hb, hmac, -⟩ | ⟨hb, hmac, -⟩
  · rw [hmac, if_pos hb]
  · rw [hmac, if_neg (by simp [hb])]

/-- **The later of two confirmed ones is cut off.** -/
theorem loserOf_later {loser winner : Client} (hne : pair.1.mac ≠ pair.2.mac)
    (hkey : c.key = pairKey pair) (hmac : c.mac = loserOf clients pair)
    (hl : entryOf clients c.mac = some loser) (hw : entryOf clients c.peer = some winner)
    (hls : loser.ipSinceUs ≠ 0) (hws : winner.ipSinceUs ≠ 0) :
    Earlier (winner.ipSinceUs, c.peer) (loser.ipSinceUs, c.mac) := by
  have hpair := Sym2.eq_iff.mp (congrArg Prod.snd hkey)
  unfold loserOf at hmac
  split at hmac
  · rename_i hb
    have hpeer : c.peer = pair.1.mac := by
      rcases hpair with ⟨h1, -⟩ | ⟨-, h2⟩
      · exact absurd (h1.symm.trans hmac) hne
      · exact h2
    rw [hmac] at hl ⊢
    rw [hpeer] at hw ⊢
    rw [hl, hw] at hb
    exact (loserIsB_iff hws hls).mp hb
  · rename_i hb
    have hpeer : c.peer = pair.2.mac := by
      rcases hpair with ⟨-, h2⟩ | ⟨h1, -⟩
      · exact h2
      · exact absurd (hmac.symm.trans h1) hne
    rw [hmac] at hl ⊢
    rw [hpeer] at hw ⊢
    rw [hl, hw] at hb
    exact earlier_of_not (fun hearlier => hb ((loserIsB_iff hls hws).mpr hearlier)) hne

/-- **What a rebuild makes of a record**: nothing of a free one, and else what the second loop
    makes of it, unseen if the first has not come across its pair. -/
theorem rebuild_cases (clients : ClientTable) (now : Nat) (hu : PairUnique q.conflicts)
    (hl : (leases.map LeaseInfo.mac).Nodup) (i : ConflictSlot) :
    ((q.conflicts i).used = false ∧
        (quarantineRebuild q clients leases now).1.conflicts i = q.conflicts i) ∨
      ((q.conflicts i).used = true ∧
        (∀ pair ∈ collisions leases, (q.conflicts i).key ≠ pairKey pair) ∧
        (quarantineRebuild q clients leases now).1.conflicts i =
          settle q clients now false (q.conflicts i)) ∨
      ∃ pair ∈ collisions leases, ∃ c,
        (c = q.conflicts i ∧ (q.conflicts i).used = true ∧ (q.conflicts i).key = pairKey pair ∨
          (q.conflicts i).used = false ∧ c = { used := true, ip := leaseEffectiveIp pair.1 }) ∧
        (noteSeen clients pair.1 pair.2 c).key = pairKey pair ∧
        (quarantineRebuild q clients leases now).1.conflicts i =
          settle q clients now true (noteSeen clients pair.1 pair.2 c) := by
  have hs := scan_scanned clients hu hl
  have hi : (quarantineRebuild q clients leases now).1.conflicts i =
      settle q clients now ((scan clients q.conflicts leases).seen i)
        ((scan clients q.conflicts leases).conflicts i) := rfl
  -- the second loop reads of the first only whether it has been here
  cases hseen : (scan clients q.conflicts leases).seen i with
  | true =>
    obtain ⟨pair, hpair, c, heq, hkey, hc⟩ := hs.seen i hseen
    rw [heq] at hkey
    rw [hseen, heq] at hi
    exact .inr (.inr ⟨pair, hpair, c, hc, hkey, hi⟩)
  | false =>
    obtain ⟨heq, hmissed⟩ := hs.missed i hseen
    rw [hseen, heq] at hi
    cases hused : (q.conflicts i).used with
    | false =>
      refine .inl ⟨rfl, hi.trans ?_⟩
      unfold settle
      rw [if_pos (by simp [hused])]
    | true => exact .inr (.inl ⟨rfl, hmissed hused, hi⟩)

/-- A free slot is taken only for a pair that has no record. -/
theorem rebuild_unique (hu : PairUnique q.conflicts) (hl : (leases.map LeaseInfo.mac).Nodup) :
    PairUnique (quarantineRebuild q clients leases now).1.conflicts :=
  (scan_scanned clients hu hl).unique.weaken fun _ hj =>
    ⟨settle_used hj, settle_key.symm⟩

/-- **Armed records after a rebuild**: armed before and about the same, or just armed. -/
theorem rebuild_armed (hu : PairUnique q.conflicts) (hl : (leases.map LeaseInfo.mac).Nodup)
    {c' : Conflict} (hc' : (quarantineRebuild q clients leases now).1.conflicts i = c')
    (ha : c'.isArmed = true) :
    c'.miss < qDisarmTicks ∧
      (((q.conflicts i).isArmed = true ∧ c'.mac = (q.conflicts i).mac ∧
          c'.peer = (q.conflicts i).peer ∧ c'.ip = (q.conflicts i).ip) ∨
        ((q.conflicts i).isArmed = false ∧ ∃ pair ∈ collisions leases,
          c'.key = pairKey pair ∧ c'.mac = loserOf clients pair ∧ qArmTicks ≤ c'.confirm ∧
          bothConfirmed clients now c' = true ∧ macIsExemptLocked q c'.mac = false)) := by
  obtain ⟨hused, harmed⟩ := isArmed_iff.mp ha
  rcases rebuild_cases clients now hu hl i with
    ⟨hfree, heq⟩ | ⟨hu₀, -, heq⟩ | ⟨pair, hpair, c, hc, hkey, heq⟩
  · rw [← hc', heq] at hused
    exact absurd (hfree.symm.trans hused) (by simp)
  · obtain rfl := hc'.symm.trans heq
    obtain ⟨hmac, hpeer, hip⟩ := settle_about q clients now false (q.conflicts i)
    rcases settle_armed hused harmed with ⟨ha₀, hmiss⟩ | ⟨hno, -, -⟩
    · exact ⟨hmiss.resolve_left fun hno => absurd hno.2 (by simp),
        .inl ⟨isArmed_iff.mpr ⟨hu₀, ha₀⟩, hmac, hpeer, hip⟩⟩
    · exact absurd hno (by simp)
  · obtain rfl := hc'.symm.trans heq
    obtain ⟨hmac, hpeer, hip⟩ := settle_about q clients now true
      (noteSeen clients pair.1 pair.2 c)
    have hu₁ := settle_used hused
    rcases settle_armed hused harmed with ⟨ha₁, -⟩ | ⟨-, harms, hmiss⟩
    · -- armed already, so not a fresh record
      rw [settle_stays hu₁ ha₁]
      rw [noteSeen_armed] at ha₁
      rcases hc with ⟨rfl, hu₀, -⟩ | ⟨-, rfl⟩
      · obtain ⟨hm, hp⟩ := noteSeen_frozen clients pair.1 pair.2 ha₁
        exact ⟨show 0 < qDisarmTicks by decide,
          .inl ⟨isArmed_iff.mpr ⟨hu₀, ha₁⟩, hm, hp, noteSeen_ip⟩⟩
      · exact absurd ha₁ (by simp)
    · unfold arms at harms
      simp only [Bool.and_eq_true, decide_eq_true_eq, Bool.not_eq_true'] at harms
      obtain ⟨⟨⟨hunarmed, hticks⟩, hboth⟩, hexempt⟩ := harms
      rw [noteSeen_armed] at hunarmed
      refine ⟨hmiss ▸ (show 0 < qDisarmTicks by decide), .inr ⟨?_, pair, hpair,
        settle_key.trans hkey, hmac.trans (noteSeen_mac hunarmed), ?_, ?_, hmac ▸ hexempt⟩⟩
      · rcases hc with ⟨rfl, -, -⟩ | ⟨hfree, -⟩
        · simp [Conflict.isArmed, hunarmed]
        · simp [Conflict.isArmed, hfree]
      · rw [settle_confirm hu₁]
        exact hticks
      · unfold bothConfirmed at hboth ⊢
        rw [hmac, hpeer, hip]
        exact hboth

theorem rebuild_keeps (clients : ClientTable) (now : Nat) (hu : PairUnique q.conflicts)
    (hl : (leases.map LeaseInfo.mac).Nodup) (ha : (q.conflicts i).isArmed = true)
    (hpair : pair ∈ collisions leases) (hkey : (q.conflicts i).key = pairKey pair) :
    ((quarantineRebuild q clients leases now).1.conflicts i).isArmed = true ∧
      ((quarantineRebuild q clients leases now).1.conflicts i).mac = (q.conflicts i).mac ∧
      ((quarantineRebuild q clients leases now).1.conflicts i).peer = (q.conflicts i).peer ∧
      ((quarantineRebuild q clients leases now).1.conflicts i).ip = (q.conflicts i).ip := by
  obtain ⟨hused, harmed⟩ := isArmed_iff.mp ha
  rcases rebuild_cases clients now hu hl i with
    ⟨hfree, -⟩ | ⟨-, hmissed, -⟩ | ⟨pair', -, c, hc, -, heq⟩
  · exact absurd (hfree.symm.trans hused) (by simp)
  · exact absurd hkey (hmissed pair hpair)
  · rcases hc with ⟨rfl, -, -⟩ | ⟨hfree, -⟩
    · obtain ⟨hm, hp⟩ := noteSeen_frozen clients pair'.1 pair'.2 harmed
      rw [heq, settle_stays (noteSeen_used.trans hused) (noteSeen_armed.trans harmed)]
      exact ⟨isArmed_iff.mpr ⟨noteSeen_used.trans hused, noteSeen_armed.trans harmed⟩, hm, hp,
        noteSeen_ip⟩
    · exact absurd (hfree.symm.trans hused) (by simp)

/-- The record of a pair that is found after a rebuild is the one it had before. -/
theorem rebuild_same (hu : PairUnique q.conflicts) (hl : (leases.map LeaseInfo.mac).Nodup)
    {j : ConflictSlot} (hi : ((quarantineRebuild q clients leases now).1.conflicts i).used = true)
    (hkey : ((quarantineRebuild q clients leases now).1.conflicts i).key = pairKey pair)
    (hpair : pair ∈ collisions leases) (hj : (q.conflicts j).used = true)
    (hjkey : (q.conflicts j).key = pairKey pair) : j = i := by
  rcases rebuild_cases clients now hu hl j with
    ⟨hfree, -⟩ | ⟨-, hmissed, -⟩ | ⟨pair', -, c, hc, hkey', heq⟩
  · exact absurd (hfree.symm.trans hj) (by simp)
  · exact absurd hjkey (hmissed pair hpair)
  · rcases hc with ⟨rfl, -, hjkey'⟩ | ⟨hfree, -⟩
    · refine rebuild_unique hu hl j i ?_ hi ?_
      · show ((quarantineRebuild q clients leases now).1.conflicts j).used = true
        rw [heq]
        unfold settle
        rw [if_neg (by simp [hj]), if_neg (by simp)]
        split <;> exact noteSeen_used.trans hj
      · rw [heq, settle_key, hkey', hkey]
        exact hjkey'.symm.trans hjkey
    · exact absurd (hfree.symm.trans hj) (by simp)

/-! ## A pardon, record by record -/

/-- The device this call pardons, if it does. -/
def pardoned (q : Quarantine) (cleared : Option Mac) (mac : Mac) : Bool :=
  cleared == some mac && !macIsExemptLocked q mac && decide (q.exempt.length < maxConflicts)

variable {cleared : Option Mac}

theorem quarantineClear_record : (quarantineClear q cleared).1.conflicts i =
    if (q.conflicts i).isArmed && pardoned q cleared (q.conflicts i).mac then
      { q.conflicts i with armed := false }
    else q.conflicts i := by
  cases cleared with
  | none => simp [quarantineClear, pardoned]
  | some m =>
    by_cases hdone : (!macIsExemptLocked q m && decide (q.exempt.length < maxConflicts)) = true
    · have hp : pardoned q (some m) (q.conflicts i).mac = ((q.conflicts i).mac == m) := by
        unfold pardoned
        by_cases heq : (q.conflicts i).mac = m
        · rw [heq, Bool.and_assoc, hdone]
          simp
        · have hne : (some m == some (q.conflicts i).mac) = false :=
            beq_false_of_ne fun h => heq (Option.some.inj h).symm
          rw [hne, beq_false_of_ne heq]
          rfl
      unfold quarantineClear
      dsimp only
      rw [if_pos hdone, hp]
      rfl
    · have hp : pardoned q (some m) (q.conflicts i).mac = false := by
        unfold pardoned
        by_cases heq : (q.conflicts i).mac = m
        · have hno : (!macIsExemptLocked q m && decide (q.exempt.length < maxConflicts)) = false :=
            Bool.eq_false_of_not_eq_true hdone
          rw [heq, Bool.and_assoc, hno]
          simp
        · have hne : (some m == some (q.conflicts i).mac) = false :=
            beq_false_of_ne fun h => heq (Option.some.inj h).symm
          rw [hne]
          rfl
      unfold quarantineClear
      dsimp only
      rw [if_neg hdone, hp]
      simp

theorem quarantineClear_exempt (h : macIsExemptLocked q mac = false)
    (hp : pardoned q cleared mac = false) :
    macIsExemptLocked (quarantineClear q cleared).1 mac = false := by
  cases cleared with
  | none => rfl
  | some m =>
    unfold quarantineClear
    dsimp only
    split
    · rename_i hdone
      have hne : m ≠ mac := by
        rintro rfl
        rw [pardoned, Bool.and_assoc, hdone] at hp
        simp at hp
      show (q.exempt ++ [m]).contains mac = false
      rw [List.contains_append]
      unfold macIsExemptLocked at h
      rw [h]
      simpa using hne.symm
    · exact h

theorem quarantineClear_published (hq : ∀ m ∈ q.published, m ∈ armedMacs q.conflicts) :
    ∀ m ∈ (quarantineClear q cleared).1.published,
      m ∈ armedMacs (quarantineClear q cleared).1.conflicts := by
  cases cleared with
  | none => exact hq
  | some mac =>
    unfold quarantineClear
    dsimp only
    split
    · intro m hm
      dsimp only [Quarantine.publish] at hm ⊢
      split at hm
      · exact hm
      · exact absurd hm (by simp)
    · exact hq

end

end Track
end Wt32Router
