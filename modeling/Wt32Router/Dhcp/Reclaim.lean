import Mathlib.Data.Prod.Lex
import Wt32Router.Dhcp.Lookup

/-!
# Giving up an entry when something else needs the room

`pick_victim_locked` chooses, `reclaim_locked` drops. Choosing is two passes over the
table, each a scan for the oldest *eligible* entry, so it is `Lib.oldest` of a
predicate, tried twice.

> **`pickVictimLocked_spec`**: it returns nothing exactly if there is nobody to give up, and
> otherwise the one of a kind that has been silent longest: of the plain leases that have lapsed,
> or, if there is none, of the self-addressed.

What the rest of the development uses of a victim is `pickVictimLocked_some`: it is
live, it has not been heard from this boot, and with `needAddress` it releases an
address of the range that nobody declined. What it does **not** say is that nobody else
is on that address — nothing here looks.
-/

namespace Wt32Router
namespace Dhcp

/-- `older_than`: older generation first, then the one heard from longest ago. -/
def olderThan (a b : Lease) : Bool :=
  if a.lastSeenSeq != b.lastSeenSeq then decide (a.lastSeenSeq < b.lastSeenSeq)
  else decide (a.lastSeenUs < b.lastSeenUs)

/-- `reclaimable_address`: the address of the range that giving up this entry would
    release, or 0. -/
def reclaimableAddress (e : Lease) (r : ServedRange) : Ip :=
  if ipInRange e.ip r then e.ip
  else if ipInRange e.observedIp r then e.observedIp
  else 0

/-- Whether the body of `pick_victim_locked`'s inner loop considers an entry in a pass:
    pass `false` takes plain leases that have lapsed, pass `true` the self-addressed. -/
def victimEligible (st : Server) (needAddress : Bool) (r : ServedRange) (now : Nat)
    (manualPass : Bool) (i : Slot) : Bool :=
  let e := st.leases i
  let manual := e.observedIp != 0
  let ip := reclaimableAddress e r
  e.inUse && !seenThisBoot st e && manual == manualPass &&
    !(!manual && decide (now ≤ e.expiresUs)) &&
    !(needAddress && (ip == 0 || ipDeclined st ip))

/-- One pass of `pick_victim_locked`. -/
def pickVictimPass (st : Server) (needAddress : Bool) (r : ServedRange) (now : Nat)
    (manualPass : Bool) : Option Slot :=
  Lib.oldest olderThan (victimEligible st needAddress r now manualPass) st.leases

/-- `pick_victim_locked`, with the address it stores through `out_ip`. -/
def pickVictimLocked (st : Server) (needAddress : Bool) (r : ServedRange) (now : Nat) :
    Option (Slot × Ip) :=
  ((pickVictimPass st needAddress r now false).or
    (pickVictimPass st needAddress r now true)).map
      fun v => (v, reclaimableAddress (st.leases v) r)

def reclaimLocked (st : Server) (v : Slot) (now : Nat) : Server :=
  let e := st.leases v
  let st := st.dropLease v
  if e.savedIp != 0 || e.savedObservedIp != 0 then st.markDirty now else st

section

variable {st : Server} {need pass : Bool} {r : ServedRange} {now : Nat} {v i j : Slot} {ip : Ip}

theorem victimEligible_iff : victimEligible st need r now pass i = true ↔
    st.live i ∧ seenThisBoot st (st.leases i) = false ∧
      ((st.leases i).observedIp ≠ 0 ↔ pass = true) ∧
      ((st.leases i).observedIp = 0 → (st.leases i).expiresUs < now) ∧
      (need = true → reclaimableAddress (st.leases i) r ≠ 0 ∧
        ipDeclined st (reclaimableAddress (st.leases i) r) = false) := by
  cases pass <;> cases need <;>
    simp [victimEligible, Server.live, and_assoc] <;> tauto

/-- An entry either pass would take. -/
def Eligible (st : Server) (need : Bool) (r : ServedRange) (now : Nat) (i : Slot) : Prop :=
  victimEligible st need r now false i = true ∨ victimEligible st need r now true i = true

theorem Eligible.live (h : Eligible st need r now i) : st.live i := by
  rcases h with h | h <;> exact (victimEligible_iff.mp h).1

theorem Eligible.unseen (h : Eligible st need r now i) :
    seenThisBoot st (st.leases i) = false := by
  rcases h with h | h <;> exact (victimEligible_iff.mp h).2.1

theorem pickVictimLocked_some (h : pickVictimLocked st need r now = some (v, ip)) :
    Eligible st need r now v ∧ ip = reclaimableAddress (st.leases v) r := by
  unfold pickVictimLocked at h
  obtain ⟨w, hw, hpair⟩ := Option.map_eq_some_iff.mp h
  simp only [Prod.mk.injEq] at hpair
  obtain ⟨rfl, rfl⟩ := hpair
  refine ⟨?_, rfl⟩
  rcases Option.or_eq_some_iff.mp hw with hw | ⟨-, hw⟩
  · exact .inl (Lib.oldest_sat hw)
  · exact .inr (Lib.oldest_sat hw)

theorem pickVictimLocked_none (h : pickVictimLocked st need r now = none) :
    ¬ Eligible st need r now i := by
  unfold pickVictimLocked at h
  obtain ⟨h₀, h₁⟩ := Option.or_eq_none_iff.mp (Option.map_eq_none_iff.mp h)
  rintro (he | he)
  · rw [Lib.oldest_eq_none h₀] at he; exact absurd he (by simp)
  · rw [Lib.oldest_eq_none h₁] at he; exact absurd he (by simp)

theorem Eligible.address (h : Eligible st true r now v) :
    reclaimableAddress (st.leases v) r ≠ 0 ∧
      ipDeclined st (reclaimableAddress (st.leases v) r) = false := by
  rcases h with h | h <;> exact (victimEligible_iff.mp h).2.2.2.2 rfl

theorem reclaimableAddress_eq (h : reclaimableAddress (st.leases i) r ≠ 0) :
    ipInRange (reclaimableAddress (st.leases i) r) r = true ∧
      (reclaimableAddress (st.leases i) r = (st.leases i).ip ∨
        reclaimableAddress (st.leases i) r = (st.leases i).observedIp) := by
  unfold reclaimableAddress at h ⊢
  split
  · exact ⟨by assumption, .inl rfl⟩
  · split
    · exact ⟨by assumption, .inr rfl⟩
    · simp_all

/-! ### Who is given up -/

/-- The order of `older_than`. -/
def Lease.lastSeen (e : Lease) : Nat ×ₗ Nat := toLex (e.lastSeenSeq.toNat, e.lastSeenUs)

theorem olderThan_iff (a b : Lease) : olderThan a b = true ↔ a.lastSeen < b.lastSeen := by
  rw [Lease.lastSeen, Lease.lastSeen, Prod.Lex.toLex_lt_toLex, ← BitVec.lt_def, BitVec.toNat_inj]
  unfold olderThan
  split
  · rename_i hne
    simp [bne_iff_ne.mp hne]
  · rename_i heq
    simp [show a.lastSeenSeq = b.lastSeenSeq by simpa using heq]

/-- An entry that may be given up: not heard from this boot, its lease lapsed if it is a plain
    one, and with an address to release where one is needed. -/
structure Reclaimable (st : Server) (needAddress : Bool) (r : ServedRange) (now : Nat) (i : Slot) :
    Prop where
  live : st.live i
  unseen : seenThisBoot st (st.leases i) = false
  lapsed : (st.leases i).observedIp = 0 → (st.leases i).expiresUs < now
  address : needAddress = true → reclaimableAddress (st.leases i) r ≠ 0 ∧
    ipDeclined st (reclaimableAddress (st.leases i) r) = false

theorem reclaimable_iff : Reclaimable st need r now i ↔
    victimEligible st need r now (decide ((st.leases i).observedIp ≠ 0)) i = true := by
  rw [victimEligible_iff, decide_eq_true_iff]
  exact ⟨fun h => ⟨h.live, h.unseen, Iff.rfl, h.lapsed, h.address⟩,
    fun ⟨hlive, hunseen, _, hlapsed, haddress⟩ => ⟨hlive, hunseen, hlapsed, haddress⟩⟩

/-- What a victim is, and the address that comes with it. -/
structure Victim (st : Server) (needAddress : Bool) (r : ServedRange) (now : Nat) (v : Slot)
    (ip : Ip) : Prop where
  reclaimable : Reclaimable st needAddress r now v
  plainFirst : (st.leases v).observedIp ≠ 0 →
    ∀ i, Reclaimable st needAddress r now i → (st.leases i).observedIp ≠ 0
  /-- nobody else of its kind has been silent longer -/
  silent : ∀ i, Reclaimable st needAddress r now i →
    ((st.leases i).observedIp = 0 ↔ (st.leases v).observedIp = 0) →
    (st.leases v).lastSeen ≤ (st.leases i).lastSeen
  released : needAddress = true → ipInRange ip r = true ∧
    (ip = (st.leases v).ip ∨ ip = (st.leases v).observedIp) ∧ ipDeclined st ip = false

theorem pickVictimPass_spec (h : pickVictimPass st need r now pass = some v) :
    Reclaimable st need r now v ∧ ((st.leases v).observedIp ≠ 0 ↔ pass = true) ∧
      ∀ i, Reclaimable st need r now i → ((st.leases i).observedIp ≠ 0 ↔ pass = true) →
        (st.leases v).lastSeen ≤ (st.leases i).lastSeen := by
  have hkind : ∀ i, ((st.leases i).observedIp ≠ 0 ↔ pass = true) →
      decide ((st.leases i).observedIp ≠ 0) = pass := by
    intro i hi
    rw [Bool.eq_iff_iff, decide_eq_true_iff]
    exact hi
  have hsat := Lib.oldest_sat h
  have hmanual := (victimEligible_iff.mp hsat).2.2.1
  refine ⟨reclaimable_iff.mpr (by rwa [hkind v hmanual]), hmanual, fun i hi hpass => ?_⟩
  exact Lib.oldest_le olderThan_iff h (by rw [← hkind i hpass]; exact reclaimable_iff.mp hi)

theorem pickVictimPass_none (h : pickVictimPass st need r now pass = none)
    (hi : Reclaimable st need r now i) : ¬ ((st.leases i).observedIp ≠ 0 ↔ pass = true) := by
  intro hpass
  have hkind : decide ((st.leases i).observedIp ≠ 0) = pass := by
    rw [Bool.eq_iff_iff, decide_eq_true_iff]
    exact hpass
  have hyes := reclaimable_iff.mp hi
  rw [hkind, Lib.oldest_eq_none h] at hyes
  exact Bool.false_ne_true hyes

/-- **Who `pick_victim_locked` returns**: somebody who may be given up, the longest silent of his
    kind and a plain lease if there is one; and nobody exactly if there is nobody. -/
theorem pickVictimLocked_spec (st : Server) (needAddress : Bool) (r : ServedRange) (now : Nat) :
    match pickVictimLocked st needAddress r now with
    | none => ∀ i, ¬ Reclaimable st needAddress r now i
    | some (v, ip) => Victim st needAddress r now v ip := by
  have hreleased : ∀ v, Reclaimable st needAddress r now v → needAddress = true →
      ipInRange (reclaimableAddress (st.leases v) r) r = true ∧
        (reclaimableAddress (st.leases v) r = (st.leases v).ip ∨
          reclaimableAddress (st.leases v) r = (st.leases v).observedIp) ∧
        ipDeclined st (reclaimableAddress (st.leases v) r) = false := by
    intro v hv hneed
    obtain ⟨hne, hdeclined⟩ := hv.address hneed
    exact ⟨(reclaimableAddress_eq hne).1, (reclaimableAddress_eq hne).2, hdeclined⟩
  unfold pickVictimLocked
  cases hplain : pickVictimPass st needAddress r now false with
  | some v =>
    obtain ⟨hv, hkind, hsilent⟩ := pickVictimPass_spec hplain
    have hzero : (st.leases v).observedIp = 0 := by simpa using hkind
    exact ⟨hv, fun hne => absurd hzero hne,
      fun i hi hsame => hsilent i hi (by simpa using hsame.mpr hzero), hreleased v hv⟩
  | none =>
    cases hmanual : pickVictimPass st needAddress r now true with
    | some v =>
      obtain ⟨hv, hkind, hsilent⟩ := pickVictimPass_spec hmanual
      have hne : (st.leases v).observedIp ≠ 0 := by simpa using hkind
      refine ⟨hv, fun _ i hi => ?_, fun i hi hsame => hsilent i hi ?_, hreleased v hv⟩
      · simpa using pickVictimPass_none hplain hi
      · exact ⟨fun _ => rfl, fun _ hzero => hne (hsame.mp hzero)⟩
    | none =>
      intro i hi
      have hne := pickVictimPass_none hplain hi
      have hzero := pickVictimPass_none hmanual hi
      simp only [Bool.false_eq_true, iff_false, not_not, iff_true] at hne hzero
      exact hne hzero

/-! ### What a reclaim changes -/

@[simp] theorem reclaimLocked_leases :
    (reclaimLocked st v now).leases = (st.dropLease v).leases := by
  unfold reclaimLocked; dsimp only; split <;> simp

@[simp] theorem reclaimLocked_cfg : (reclaimLocked st v now).cfg = st.cfg := by
  unfold reclaimLocked; dsimp only; split <;> simp

@[simp] theorem reclaimLocked_declined :
    (reclaimLocked st v now).declined = st.declined := by
  unfold reclaimLocked; dsimp only; split <;> simp

@[simp] theorem reclaimLocked_bootSeq : (reclaimLocked st v now).bootSeq = st.bootSeq := by
  unfold reclaimLocked; dsimp only; split <;> simp

/-- A reclaim marks the table dirty exactly when flash remembers the entry. -/
theorem reclaimLocked_dirty : (reclaimLocked st v now).dirty = true ↔
    st.dirty = true ∨ (st.leases v).savedIp ≠ 0 ∨ (st.leases v).savedObservedIp ≠ 0 := by
  unfold reclaimLocked
  dsimp only
  split
  · rename_i h
    have hs : (st.leases v).savedIp ≠ 0 ∨ (st.leases v).savedObservedIp ≠ 0 := by
      simpa using h
    simpa using .inr hs
  · rename_i h
    simp only [Bool.or_eq_true, bne_iff_ne, ne_eq, not_or, not_not] at h
    simp [h.1, h.2]

end

end Dhcp
end Wt32Router
