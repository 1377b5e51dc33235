import Wt32Router.Dhcp.Reclaim

/-!
# `select_address_locked`

Four steps, tried in order against one served range, and one fallback from the wired
range to the general pool. The first three steps decide without touching the table, so
each is a function of its own; only the fourth writes, by reclaiming.

The file ends with the inversion lemma the rest of the development uses instead of
unfolding the allocator (`selectAddressLocked_cases`): an address that comes back was
*confirmed*, *asked for*, *free*, or *taken off a victim*, each with the guard that step
checked and the failures of the steps before it.
-/

namespace Wt32Router
namespace Dhcp

/-- Step 1: this MAC's reservation, if it is still a usable address. -/
def confirmsOwn (st : Server) (mine : Option Slot) (r : ServedRange) (now : Nat) : Option Ip :=
  mine.bind fun i =>
    let e := st.leases i
    if !e.quarantined && ipInRange e.ip r && !ipDeclined st e.ip &&
        !ipInUseLocked st e.ip mine now then
      some e.ip
    else none

/-- Step 2: what the client asked for, if nobody else is on it. -/
def grantsAsked (st : Server) (mine : Option Slot) (requested : Ip) (r : ServedRange)
    (now : Nat) : Bool :=
  ipInRange requested r && !ipDeclined st requested && !ipInUseLocked st requested mine now

def isFree (st : Server) (cand : Ip) : Bool :=
  cand != st.cfg.serverIp && !ipDeclined st cand && (findByAnyIpLocked st cand).isNone

/-- The addresses step 3 counts through. -/
def ServedRange.addresses (r : ServedRange) : List Ip :=
  (List.range ((r.last - r.start).toNat + 1)).map (ipOffset r.start)

/-- Step 3: the first address in the range nobody has an entry for at all. -/
def firstFree (st : Server) (r : ServedRange) : Option Ip := r.addresses.find? (isFree st)

/-- The four steps against one range. `none` is falling off the end with nothing left in
    it. -/
def selectInRange (st : Server) (mac : Mac) (requested : Ip) (r : ServedRange) (now : Nat) :
    Option (Server × Ip) :=
  let mine := findByMacLocked st mac
  match confirmsOwn st mine r now with
  | some ip => some (st, ip)
  | none =>
    if grantsAsked st mine requested r now then some (st, requested)
    else
      match firstFree st r with
      | some cand => some (st, cand)
      | none =>
        match pickVictimLocked st true r now with
        | some (v, ip) => some (reclaimLocked st v now, ip)
        | none => none

/-- `select_address_locked`. A wired client whose range is exhausted falls back to the
    general pool, which is the function called again with `wired` false; the table is
    unchanged by then. 0 is "nothing to give". -/
def selectAddressLocked (st : Server) (mac : Mac) (requested : Ip) (wired : Bool) (now : Nat) :
    Server × Ip :=
  match selectInRange st mac requested (servedRange st.cfg wired) now with
  | some res => res
  | none =>
    if wired && st.cfg.wired.start != 0 then
      (selectInRange st mac requested (servedRange st.cfg false) now).getD (st, 0)
    else (st, 0)

/-! ## Which steps a request gets to

Predicates on the state *before* the call, in the vocabulary of the code's own tests.
They name the branch a request takes without saying what comes out of it. -/

/-- Neither the client's own reservation nor the address it asks for can be given in this
    range, and no address of it is free: the request gets to step 4. -/
def Exhausted (st : Server) (mac : Mac) (requested : Ip) (r : ServedRange) (now : Nat) : Prop :=
  confirmsOwn st (findByMacLocked st mac) r now = none ∧
    grantsAsked st (findByMacLocked st mac) requested r now = false ∧ firstFree st r = none

instance (st : Server) (mac : Mac) (requested : Ip) (r : ServedRange) (now : Nat) :
    Decidable (Exhausted st mac requested r now) :=
  inferInstanceAs (Decidable (_ ∧ _ ∧ _))

/-- The ranges a request is tried against: its port's, and the general pool as well if
    that is the wired range and nothing is left in it. -/
def rangesTried (st : Server) (mac : Mac) (requested : Ip) (wired : Bool) (now : Nat) :
    List ServedRange :=
  if wired && st.cfg.wired.start != 0 &&
      decide (Exhausted st mac requested st.cfg.wired now) &&
      (pickVictimLocked st true st.cfg.wired now).isNone then
    [st.cfg.wired, st.cfg.pool]
  else [servedRange st.cfg wired]

/-- The request gets to step 2 in a range and is granted there. -/
def AskedIn (st : Server) (mac : Mac) (requested : Ip) (now : Nat) (r : ServedRange) : Prop :=
  confirmsOwn st (findByMacLocked st mac) r now = none ∧
    grantsAsked st (findByMacLocked st mac) requested r now = true

/-- The request gets to step 4 in a range, where the victim is `v` and its address `ip`. -/
def ReclaimsIn (st : Server) (mac : Mac) (requested : Ip) (now : Nat) (r : ServedRange)
    (v : Slot) (ip : Ip) : Prop :=
  Exhausted st mac requested r now ∧ pickVictimLocked st true r now = some (v, ip)

instance (st : Server) (mac : Mac) (requested : Ip) (now : Nat) (r : ServedRange) :
    Decidable (AskedIn st mac requested now r) :=
  inferInstanceAs (Decidable (_ ∧ _))

instance (st : Server) (mac : Mac) (requested : Ip) (now : Nat) (r : ServedRange)
    (v : Slot) (ip : Ip) : Decidable (ReclaimsIn st mac requested now r v ip) :=
  inferInstanceAs (Decidable (_ ∧ _))

section

variable {st st' : Server} {mac : Mac} {requested ip : Ip} {r : ServedRange} {now : Nat}
  {wired : Bool} {i v : Slot} {mine : Option Slot}

theorem confirmsOwn_some (h : confirmsOwn st mine r now = some ip) :
    ∃ i, mine = some i ∧ ip = (st.leases i).ip ∧ (st.leases i).quarantined = false ∧
      ipInRange ip r = true ∧ ipDeclined st ip = false ∧
      ipInUseLocked st ip mine now = false := by
  unfold confirmsOwn at h
  obtain ⟨i, hi, hif⟩ := Option.bind_eq_some_iff.mp h
  dsimp only at hif
  split at hif
  · rename_i hg
    simp only [Option.some.injEq] at hif
    subst hif
    simp only [Bool.and_eq_true, Bool.not_eq_true'] at hg
    exact ⟨i, hi, rfl, hg.1.1.1, hg.1.1.2, hg.1.2, hg.2⟩
  · exact absurd hif (by simp)

theorem grantsAsked_iff : grantsAsked st mine requested r now = true ↔
    ipInRange requested r = true ∧ ipDeclined st requested = false ∧
      ipInUseLocked st requested mine now = false := by
  simp [grantsAsked, and_assoc]

theorem isFree_iff : isFree st ip = true ↔
    ip ≠ st.cfg.serverIp ∧ ipDeclined st ip = false ∧ findByAnyIpLocked st ip = none := by
  simp [isFree, and_assoc]

theorem firstFree_some (h : firstFree st r = some ip) : isFree st ip = true :=
  List.find?_some h

theorem ipInRange_ne_zero (h : ipInRange ip r = true) : ip ≠ 0 := by
  simp only [ipInRange, Bool.and_eq_true, bne_iff_ne] at h
  exact h.1.1.1

/-! ### The candidates of step 3 are the range -/

/-- Counting up from the start of a range that does not run backwards stays in it and
    reaches all of it. -/
theorem mem_addresses (hs : r.start ≠ 0) (hle : r.start ≤ r.last) :
    ip ∈ r.addresses ↔ ipInRange ip r = true := by
  have hlt := r.last.isLt
  have hs0 : 0 < r.start.toNat := by
    rcases Nat.eq_zero_or_pos r.start.toNat with h0 | h0
    · exact absurd (BitVec.eq_of_toNat_eq (by simpa using h0)) hs
    · exact h0
  have hspan : (r.last - r.start).toNat = r.last.toNat - r.start.toNat :=
    BitVec.toNat_sub_of_le hle
  have hle' : r.start.toNat ≤ r.last.toNat := hle
  constructor
  · intro h
    obtain ⟨k, hk, rfl⟩ := List.mem_map.mp h
    rw [List.mem_range, hspan] at hk
    have hv : (ipOffset r.start k).toNat = r.start.toNat + k := by
      simp only [ipOffset, BitVec.toNat_add, BitVec.toNat_ofNat]
      rw [Nat.mod_eq_of_lt (a := k) (by omega)]
      exact Nat.mod_eq_of_lt (by omega)
    have hne : ipOffset r.start k ≠ 0 := by
      intro h0
      rw [h0] at hv
      simp at hv
      omega
    simp only [ipInRange, Bool.and_eq_true, bne_iff_ne, decide_eq_true_eq]
    refine ⟨⟨⟨hne, hs⟩, ?_⟩, ?_⟩
    · rw [BitVec.le_def, hv]; omega
    · rw [BitVec.le_def, hv]; omega
  · intro h
    simp only [ipInRange, Bool.and_eq_true, bne_iff_ne, decide_eq_true_eq, BitVec.le_def] at h
    refine List.mem_map.mpr ⟨ip.toNat - r.start.toNat, ?_, ?_⟩
    · rw [List.mem_range, hspan]; omega
    · apply BitVec.eq_of_toNat_eq
      have hi := ip.isLt
      simp only [ipOffset, BitVec.toNat_add, BitVec.toNat_ofNat]
      rw [Nat.mod_eq_of_lt (a := ip.toNat - r.start.toNat) (by omega)]
      rw [Nat.mod_eq_of_lt (by omega)]
      omega

theorem Config.wired_le (cfg : Config) (h : cfg.wired.start ≠ 0) :
    cfg.wired.start ≤ cfg.wired.last := by
  have hb := cfg.wired_ok h
  simp only [wiredRangeBad, Bool.or_eq_false_iff, decide_eq_false_iff_not] at hb
  exact BitVec.not_lt.mp hb.1.1.1.1.2

/-- The two ranges have no address in common. -/
theorem Config.disjoint (cfg : Config) (h : ipInRange ip cfg.pool = true) :
    ipInRange ip cfg.wired = false := by
  refine Bool.eq_false_iff.mpr fun hin => ?_
  simp only [ipInRange, Bool.and_eq_true, bne_iff_ne, decide_eq_true_eq] at hin h
  have hok := cfg.wired_ok hin.1.1.2
  simp only [wiredRangeBad, Bool.or_eq_false_iff, Bool.and_eq_false_iff,
    decide_eq_false_iff_not] at hok
  rcases hok.1.1.1.2 with hno | hno
  · exact hno (BitVec.le_trans hin.1.2 h.2)
  · exact hno (BitVec.le_trans h.1.2 hin.2)

theorem servedRange_wired {cfg : Config} (h : (wired && cfg.wired.start != 0) = true) :
    servedRange cfg wired = cfg.wired := if_pos h

theorem servedRange_wf (cfg : Config) (wired : Bool) :
    (servedRange cfg wired).start ≠ 0 ∧
      (servedRange cfg wired).start ≤ (servedRange cfg wired).last := by
  unfold servedRange
  split
  · rename_i h
    simp only [Bool.and_eq_true, bne_iff_ne] at h
    exact ⟨h.2, cfg.wired_le h.2⟩
  · exact ⟨cfg.pool_start_ne, cfg.pool_le⟩

theorem rangesTried_wf (h : r ∈ rangesTried st mac requested wired now) :
    r.start ≠ 0 ∧ r.start ≤ r.last := by
  unfold rangesTried at h
  split at h
  · rename_i hw
    simp only [Bool.and_eq_true, bne_iff_ne] at hw
    simp only [List.mem_cons, List.not_mem_nil, or_false] at h
    rcases h with rfl | rfl
    · exact ⟨hw.1.1.2, st.cfg.wired_le hw.1.1.2⟩
    · exact ⟨st.cfg.pool_start_ne, st.cfg.pool_le⟩
  · simp only [List.mem_singleton] at h
    exact h ▸ servedRange_wf st.cfg wired

theorem firstFree_mem (hs : r.start ≠ 0) (hle : r.start ≤ r.last)
    (h : firstFree st r = some ip) : ipInRange ip r = true :=
  (mem_addresses hs hle).mp (List.mem_of_find?_eq_some h)

/-- Step 3 fails only when every address of the range, the bridge's own and the declined
    ones apart, is one somebody has an entry for. -/
theorem firstFree_none (hs : r.start ≠ 0) (hle : r.start ≤ r.last)
    (h : firstFree st r = none) (hip : ipInRange ip r = true) (hsrv : ip ≠ st.cfg.serverIp)
    (hd : ipDeclined st ip = false) :
    ∃ i, st.live i ∧ (st.leases i).quarantined = false ∧
      ((st.leases i).ip = ip ∨ (st.leases i).observedIp = ip) := by
  have hf := List.find?_eq_none.mp h ip ((mem_addresses hs hle).mpr hip)
  apply findByAnyIpLocked_isSome
  intro hnone
  exact hf (isFree_iff.mpr ⟨hsrv, hd, hnone⟩)

/-! ## The inversion lemma -/

/-- How an address of a range came to be selected, and what that did to the table. -/
inductive Selected (st : Server) (mac : Mac) (requested : Ip) (now : Nat) (r : ServedRange) :
    Server → Ip → Prop
  /-- step 1 confirmed the client's own reservation -/
  | own {ip : Ip} : confirmsOwn st (findByMacLocked st mac) r now = some ip →
      Selected st mac requested now r st ip
  /-- step 2 granted what it asked for -/
  | asked : AskedIn st mac requested now r → Selected st mac requested now r st requested
  /-- step 3 found an address nobody has an entry for -/
  | free {ip : Ip} : isFree st ip = true → ipInRange ip r = true →
      Selected st mac requested now r st ip
  /-- step 4 took it off a victim -/
  | reclaimed {v : Slot} {ip : Ip} : ReclaimsIn st mac requested now r v ip →
      Selected st mac requested now r (reclaimLocked st v now) ip

/-- No step selects 0, so 0 does mean "nothing to give". -/
theorem Selected.ne_zero (h : Selected st mac requested now r st' ip) : ip ≠ 0 := by
  cases h with
  | own h =>
    obtain ⟨i, -, -, -, hin, -⟩ := confirmsOwn_some h
    exact ipInRange_ne_zero hin
  | asked h => exact ipInRange_ne_zero (grantsAsked_iff.mp h.2).1
  | free _ hin => exact ipInRange_ne_zero hin
  | reclaimed h =>
    obtain ⟨he, rfl⟩ := pickVictimLocked_some h.2
    exact he.address.1

theorem selectInRange_some (hs : r.start ≠ 0) (hle : r.start ≤ r.last)
    (h : selectInRange st mac requested r now = some (st', ip)) :
    Selected st mac requested now r st' ip := by
  unfold selectInRange at h
  dsimp only at h
  split at h
  · rename_i hown
    simp only [Option.some.injEq, Prod.mk.injEq] at h
    obtain ⟨rfl, rfl⟩ := h
    exact .own hown
  · rename_i hown
    split at h
    · rename_i hask
      simp only [Option.some.injEq, Prod.mk.injEq] at h
      obtain ⟨rfl, rfl⟩ := h
      exact .asked ⟨hown, hask⟩
    · rename_i hask
      split at h
      · rename_i hfree
        simp only [Option.some.injEq, Prod.mk.injEq] at h
        obtain ⟨rfl, rfl⟩ := h
        exact .free (firstFree_some hfree) (firstFree_mem hs hle hfree)
      · rename_i hfree
        split at h
        · rename_i hv
          simp only [Option.some.injEq, Prod.mk.injEq] at h
          obtain ⟨rfl, rfl⟩ := h
          exact .reclaimed ⟨⟨hown, by simpa using hask, hfree⟩, hv⟩
        · exact absurd h (by simp)

theorem selectInRange_none (h : selectInRange st mac requested r now = none) :
    Exhausted st mac requested r now ∧ pickVictimLocked st true r now = none := by
  unfold selectInRange at h
  dsimp only at h
  split at h
  · exact absurd h (by simp)
  · rename_i hown
    split at h
    · exact absurd h (by simp)
    · rename_i hask
      split at h
      · exact absurd h (by simp)
      · rename_i hfree
        split at h
        · exact absurd h (by simp)
        · rename_i hv
          exact ⟨⟨hown, by simpa using hask, hfree⟩, hv⟩

/-- **What the allocator can have done.** Either nothing, giving 0, or one of the four
    steps in one of the ranges it tried. -/
theorem selectAddressLocked_cases (h : selectAddressLocked st mac requested wired now = (st', ip)) :
    (st' = st ∧ ip = 0) ∨
      ∃ r ∈ rangesTried st mac requested wired now, Selected st mac requested now r st' ip := by
  unfold selectAddressLocked at h
  cases h₁ : selectInRange st mac requested (servedRange st.cfg wired) now with
  | some res =>
    rw [h₁] at h
    subst h
    have hwf := servedRange_wf st.cfg wired
    refine .inr ⟨_, ?_, selectInRange_some hwf.1 hwf.2 h₁⟩
    unfold rangesTried
    split
    · rename_i hw
      simp only [Bool.and_eq_true] at hw
      rw [servedRange_wired (by simp only [Bool.and_eq_true]; exact hw.1.1)]
      exact List.mem_cons_self
    · exact List.mem_singleton_self _
  | none =>
    rw [h₁] at h
    dsimp only at h
    split at h
    · rename_i hw
      have hport : servedRange st.cfg wired = st.cfg.wired := servedRange_wired hw
      obtain ⟨hex, hv⟩ := selectInRange_none (hport ▸ h₁)
      have htried : rangesTried st mac requested wired now = [st.cfg.wired, st.cfg.pool] := by
        unfold rangesTried
        rw [if_pos]
        simp only [Bool.and_eq_true] at hw ⊢
        exact ⟨⟨hw, by simpa using hex⟩, by simp [hv]⟩
      cases h₂ : selectInRange st mac requested (servedRange st.cfg false) now with
      | none =>
        rw [h₂] at h
        simp only [Option.getD_none, Prod.mk.injEq] at h
        exact .inl ⟨h.1.symm, h.2.symm⟩
      | some res =>
        rw [h₂] at h
        simp only [Option.getD_some] at h
        subst h
        have hwf := servedRange_wf st.cfg false
        refine .inr ⟨st.cfg.pool, by simp [htried], ?_⟩
        exact selectInRange_some hwf.1 hwf.2 h₂
    · simp only [Prod.mk.injEq] at h
      exact .inl ⟨h.1.symm, h.2.symm⟩

theorem selectInRange_asked (h : AskedIn st mac requested now r) :
    selectInRange st mac requested r now = some (st, requested) := by
  unfold selectInRange
  dsimp only
  rw [h.1]
  dsimp only
  rw [if_pos h.2]

theorem selectInRange_exhausted (h : Exhausted st mac requested r now) :
    selectInRange st mac requested r now =
      (pickVictimLocked st true r now).map fun p => (reclaimLocked st p.1 now, p.2) := by
  unfold selectInRange
  dsimp only
  rw [h.1]
  dsimp only
  rw [if_neg (by rw [h.2.1]; exact Bool.false_ne_true), h.2.2]
  dsimp only
  cases pickVictimLocked st true r now <;> rfl

/-- The other direction: a range that was tried and yields something decides the call. -/
theorem selectAddressLocked_eq {res : Server × Ip}
    (hr : r ∈ rangesTried st mac requested wired now)
    (h : selectInRange st mac requested r now = some res) :
    selectAddressLocked st mac requested wired now = res := by
  unfold rangesTried at hr
  unfold selectAddressLocked
  split at hr
  · rename_i hw
    simp only [Bool.and_eq_true, decide_eq_true_eq, Option.isNone_iff_eq_none] at hw
    obtain ⟨⟨hport, hex⟩, hv⟩ := hw
    have hwired : (wired && st.cfg.wired.start != 0) = true := by
      simpa only [Bool.and_eq_true] using hport
    have hnone : selectInRange st mac requested st.cfg.wired now = none := by
      rw [selectInRange_exhausted hex, hv, Option.map_none]
    have hpool : servedRange st.cfg false = st.cfg.pool := by simp [servedRange]
    simp only [List.mem_cons, List.not_mem_nil, or_false] at hr
    rcases hr with rfl | rfl
    · exact absurd (hnone.symm.trans h) (by simp)
    · rw [servedRange_wired hwired, hnone]
      dsimp only
      rw [if_pos hwired, hpool, h, Option.getD_some]
  · rw [List.mem_singleton] at hr
    rw [← hr, h]

/-- A reservation that can be confirmed in the port's own range is what is given. -/
theorem selectAddressLocked_of_own
    (h : confirmsOwn st (findByMacLocked st mac) (servedRange st.cfg wired) now = some ip) :
    selectAddressLocked st mac requested wired now = (st, ip) := by
  have hin : selectInRange st mac requested (servedRange st.cfg wired) now = some (st, ip) := by
    unfold selectInRange
    dsimp only
    rw [h]
  unfold selectAddressLocked
  rw [hin]

theorem selectAddressLocked_of_asked (hr : r ∈ rangesTried st mac requested wired now)
    (h : AskedIn st mac requested now r) :
    selectAddressLocked st mac requested wired now = (st, requested) :=
  selectAddressLocked_eq hr (selectInRange_asked h)

theorem selectAddressLocked_of_reclaims (hr : r ∈ rangesTried st mac requested wired now)
    (h : ReclaimsIn st mac requested now r v ip) :
    selectAddressLocked st mac requested wired now = (reclaimLocked st v now, ip) :=
  selectAddressLocked_eq hr (by rw [selectInRange_exhausted h.1, h.2, Option.map_some])

end

end Dhcp
end Wt32Router
