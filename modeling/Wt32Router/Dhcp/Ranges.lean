import Wt32Router.Dhcp.System

/-!
# Which range an address comes from

> **`selectAddressLoop_segregated`**: a WiFi client is given an address of the general pool
> or none, and a wired one an address of the wired range as long as there is one to give.

That there is none takes more than that every address has somebody's entry: the client's own
address is still its own (`NothingLeft`).

Whether the allocator comes back at all is a question to the code's own loop, which counts
with a `uint32_t` up to and including `span`. It would not end if `span` were the largest one;
a range that starts above 0 is not that long (`selectAddressLoop_eq`).
-/

namespace Wt32Router
namespace Dhcp

/-! ## The loop of step 3 -/

/-- The `for` loop of step 3 from a value of its counter on; `none` is not done yet. -/
def freeLoop (st : Server) (r : ServedRange) (span : BitVec 32) :
    Nat → BitVec 32 → Option (Option Ip)
  | 0, _ => none
  | fuel + 1, i =>
    if i ≤ span then
      let cand := ipOffset r.start i.toNat
      if cand = st.cfg.serverIp || ipDeclined st cand then freeLoop st r span fuel (i + 1)
      else if findByAnyIpLocked st cand = none then some (some cand)
      else freeLoop st r span fuel (i + 1)
    else some none

/-- One call of `select_address_locked` as the code runs it, with `fuel` turns of the loop;
    `again` is what the call it may end in returns. -/
def selectAddressCall (fuel : Nat) (again : Option (Server × Ip)) (st : Server) (mac : Mac)
    (requested : Ip) (wired : Bool) (now : Nat) : Option (Server × Ip) :=
  let mine := findByMacLocked st mac
  let r := servedRange st.cfg wired
  match confirmsOwn st mine r now with
  | some ip => some (st, ip)
  | none =>
    if grantsAsked st mine requested r now then some (st, requested)
    else
      match freeLoop st r (r.last - r.start) fuel 0 with
      | none => none
      | some (some cand) => some (st, cand)
      | some none =>
        match pickVictimLocked st true r now with
        | some (v, ip) => some (reclaimLocked st v now, ip)
        | none =>
          if wired && r.start == st.cfg.wired.start && st.cfg.wired.start != 0 then again
          else some (st, 0)

/-- `select_address_locked` with so many calls of itself. -/
def selectAddressLoop (fuel : Nat) : Nat → Server → Mac → Ip → Bool → Nat → Option (Server × Ip)
  | 0, _, _, _, _, _ => none
  | calls + 1, st, mac, requested, wired, now =>
    selectAddressCall fuel (selectAddressLoop fuel calls st mac requested false now) st mac
      requested wired now

section

variable {st : Server} {r : ServedRange} {mac : Mac} {requested : Ip} {wired : Bool} {now : Nat}

/-- The loop finds what a search of the rest of the candidates does. -/
theorem freeLoop_eq {span : BitVec 32} (hspan : span.toNat + 1 < 2 ^ 32) :
    ∀ (fuel k : Nat), k ≤ span.toNat + 1 → span.toNat + 1 < fuel + k →
      freeLoop st r span fuel (BitVec.ofNat 32 k) =
        some (((List.range' k (span.toNat + 1 - k)).map (ipOffset r.start)).find? (isFree st)) := by
  intro fuel
  induction fuel with
  | zero => intro k hk hfuel; exact absurd hfuel (by omega)
  | succ fuel ih =>
    intro k hk hfuel
    have hk' : (BitVec.ofNat 32 k).toNat = k := by
      rw [BitVec.toNat_ofNat]
      exact Nat.mod_eq_of_lt (by omega)
    have hnext : BitVec.ofNat 32 k + 1 = BitVec.ofNat 32 (k + 1) := (BitVec.ofNat_add k 1).symm
    rw [freeLoop]
    by_cases hle : k ≤ span.toNat
    · have hrest := ih (k + 1) (by omega) (by omega)
      rw [if_pos (BitVec.le_def.mpr (by rw [hk']; exact hle)), hk', hnext, hrest,
        show span.toNat + 1 - k = (span.toNat + 1 - (k + 1)) + 1 by omega, List.range'_succ,
        List.map_cons]
      dsimp only
      by_cases hfree : isFree st (ipOffset r.start k) = true
      · obtain ⟨hsrv, hdecl, hnone⟩ := isFree_iff.mp hfree
        rw [List.find?_cons_of_pos hfree, if_neg (by simp [hsrv, hdecl]), if_pos hnone]
      · rw [List.find?_cons_of_neg hfree]
        split
        · rfl
        · rename_i hskip
          have hskip : ipOffset r.start k ≠ st.cfg.serverIp ∧
              ipDeclined st (ipOffset r.start k) = false := by
            simpa using hskip
          rw [if_neg fun hnone => hfree (isFree_iff.mpr ⟨hskip.1, hskip.2, hnone⟩)]
    · have hend : span.toNat + 1 - k = 0 := by omega
      rw [if_neg (by rw [BitVec.le_def, hk']; exact hle), hend]
      rfl

theorem ServedRange.span_lt (hs : r.start ≠ 0) (hle : r.start ≤ r.last) :
    (r.last - r.start).toNat + 1 < 2 ^ 32 := by
  have hlt := r.last.isLt
  have hpos : r.start.toNat ≠ 0 := fun h0 => hs (BitVec.eq_of_toNat_eq (by simpa using h0))
  rw [BitVec.toNat_sub_of_le hle]
  have hle' : r.start.toNat ≤ r.last.toNat := hle
  omega

theorem freeLoop_firstFree (hs : r.start ≠ 0) (hle : r.start ≤ r.last) {fuel : Nat}
    (hfuel : 2 ^ 32 ≤ fuel) :
    freeLoop st r (r.last - r.start) fuel 0 = some (firstFree st r) := by
  have hspan := ServedRange.span_lt hs hle
  have h : freeLoop st r (r.last - r.start) fuel 0 = _ :=
    freeLoop_eq hspan fuel 0 (by omega) (by omega)
  rw [Nat.sub_zero, ← List.range_eq_range'] at h
  exact h

theorem selectAddressCall_eq {fuel : Nat} (hfuel : 2 ^ 32 ≤ fuel)
    (again : Option (Server × Ip)) :
    selectAddressCall fuel again st mac requested wired now =
      match selectInRange st mac requested (servedRange st.cfg wired) now with
      | some res => some res
      | none => if wired && st.cfg.wired.start != 0 then again else some (st, 0) := by
  have hwf := servedRange_wf st.cfg wired
  have hport : (wired && (servedRange st.cfg wired).start == st.cfg.wired.start &&
      st.cfg.wired.start != 0) = (wired && st.cfg.wired.start != 0) := by
    cases hw : (wired && st.cfg.wired.start != 0) with
    | false =>
      rcases Bool.and_eq_false_iff.mp hw with h | h
      · rw [h, Bool.false_and, Bool.false_and]
      · rw [h, Bool.and_false]
    | true =>
      rw [servedRange_wired hw]
      simpa using hw
  unfold selectAddressCall selectInRange
  dsimp only
  rw [freeLoop_firstFree hwf.1 hwf.2 hfuel, hport]
  cases confirmsOwn st (findByMacLocked st mac) (servedRange st.cfg wired) now with
  | some ip => rfl
  | none =>
    dsimp only
    split
    · rfl
    · cases firstFree st (servedRange st.cfg wired) with
      | some cand => rfl
      | none =>
        dsimp only
        cases pickVictimLocked st true (servedRange st.cfg wired) now <;> rfl

/-- **The allocator comes back**, and with what `selectAddressLocked` says: the loop is done
    within as many turns as there are addresses, and the function calls itself once at most. -/
theorem selectAddressLoop_eq {fuel : Nat} (hfuel : 2 ^ 32 ≤ fuel) (st : Server) (mac : Mac)
    (requested : Ip) (wired : Bool) (now : Nat) :
    selectAddressLoop fuel 2 st mac requested wired now =
      some (selectAddressLocked st mac requested wired now) := by
  rw [selectAddressLoop, selectAddressCall_eq hfuel]
  unfold selectAddressLocked
  cases selectInRange st mac requested (servedRange st.cfg wired) now with
  | some res => rfl
  | none =>
    dsimp only
    split
    · rw [selectAddressLoop, selectAddressCall_eq hfuel]
      cases selectInRange st mac requested (servedRange st.cfg false) now with
      | some res => rfl
      | none => simp
    · rfl

end

/-! ## What the ranges give -/

/-- Nobody can be given this address afresh: it was declined, or a client that is not cut off
    has it or uses it. -/
def Taken (st : Server) (a : Ip) : Prop :=
  ipDeclined st a = true ∨ ∃ i, st.live i ∧ (st.leases i).quarantined = false ∧
    ((st.leases i).ip = a ∨ (st.leases i).observedIp = a)

/-- There is nothing in this range for this client: neither its own address nor the one it
    asks for can be confirmed, every other is taken, and there is nobody to take one off. -/
structure NothingLeft (st : Server) (mac : Mac) (requested : Ip) (r : ServedRange)
    (now : Nat) : Prop where
  own : confirmsOwn st (findByMacLocked st mac) r now = none
  asked : grantsAsked st (findByMacLocked st mac) requested r now = false
  taken : ∀ a, ipInRange a r = true → a = st.cfg.serverIp ∨ Taken st a
  noVictim : ∀ i, ¬ Eligible st true r now i

/-- What is given to whom. -/
structure Segregated (st : Server) (mac : Mac) (requested : Ip) (wired : Bool) (now : Nat)
    (res : Server × Ip) : Prop where
  wifi : wired = false ∨ st.cfg.wired.start = 0 →
    res.2 = 0 ∨ (ipInRange res.2 st.cfg.pool = true ∧ ipInRange res.2 st.cfg.wired = false)
  cable : wired = true → st.cfg.wired.start ≠ 0 →
    ¬ NothingLeft st mac requested st.cfg.wired now → ipInRange res.2 st.cfg.wired = true
  fallback : wired = true → st.cfg.wired.start ≠ 0 →
    NothingLeft st mac requested st.cfg.wired now →
    res = selectAddressLocked st mac requested false now
  declined : res.2 ≠ 0 → ipDeclined st res.2 = false
  empty : res.2 = 0 →
    ∀ r ∈ [servedRange st.cfg wired, st.cfg.pool], NothingLeft st mac requested r now

section

variable {st st' : Server} {r : ServedRange} {mac : Mac} {requested ip : Ip} {wired : Bool}
  {now : Nat} {res : Server × Ip}

theorem Selected.inRange (h : Selected st mac requested now r st' ip) : ipInRange ip r = true := by
  cases h with
  | own h =>
    obtain ⟨i, -, -, -, hin, -⟩ := confirmsOwn_some h
    exact hin
  | asked h => exact (grantsAsked_iff.mp h.2).1
  | free _ hin => exact hin
  | reclaimed h =>
    obtain ⟨he, rfl⟩ := pickVictimLocked_some h.2
    exact (reclaimableAddress_eq he.address.1).1

theorem Selected.not_declined (h : Selected st mac requested now r st' ip) :
    ipDeclined st ip = false := by
  cases h with
  | own h =>
    obtain ⟨i, -, -, -, -, hdecl, -⟩ := confirmsOwn_some h
    exact hdecl
  | asked h => exact (grantsAsked_iff.mp h.2).2.1
  | free h _ => exact (isFree_iff.mp h).2.1
  | reclaimed h =>
    obtain ⟨he, rfl⟩ := pickVictimLocked_some h.2
    exact he.address.2

theorem servedRange_cable (hwired : wired = true) (hw : st.cfg.wired.start ≠ 0) :
    servedRange st.cfg wired = st.cfg.wired :=
  servedRange_wired (by rw [hwired, Bool.true_and, bne_iff_ne]; exact hw)

theorem servedRange_wifi (h : wired = false ∨ st.cfg.wired.start = 0) :
    servedRange st.cfg wired = st.cfg.pool := by
  unfold servedRange
  rw [if_neg]
  rcases h with rfl | h0
  · simp
  · simp [h0]

theorem firstFree_eq_none (hs : r.start ≠ 0) (hle : r.start ≤ r.last) :
    firstFree st r = none ↔
      ∀ a, ipInRange a r = true → a = st.cfg.serverIp ∨ Taken st a := by
  constructor
  · intro h a ha
    by_cases hsrv : a = st.cfg.serverIp
    · exact .inl hsrv
    · refine .inr ?_
      cases hdecl : ipDeclined st a with
      | true => exact .inl hdecl
      | false => exact .inr (firstFree_none hs hle h ha hsrv hdecl)
  · intro htaken
    refine List.find?_eq_none.mpr fun a ha hfree => ?_
    obtain ⟨hsrv, hdecl, hnone⟩ := isFree_iff.mp hfree
    rcases htaken a ((mem_addresses hs hle).mp ha) with rfl | hdecl' | ⟨i, hi, hq, hip⟩
    · exact hsrv rfl
    · rw [hdecl] at hdecl'
      exact absurd hdecl' (by decide)
    · obtain ⟨hne, hno⟩ := findByAnyIpLocked_none hnone hi hq
      exact hip.elim hne hno

/-- The four steps fail together exactly when there is nothing left. -/
theorem selectInRange_eq_none (hs : r.start ≠ 0) (hle : r.start ≤ r.last) :
    selectInRange st mac requested r now = none ↔ NothingLeft st mac requested r now := by
  constructor
  · intro h
    obtain ⟨⟨hown, hasked, hfree⟩, hv⟩ := selectInRange_none h
    exact ⟨hown, hasked, (firstFree_eq_none hs hle).mp hfree, fun i => pickVictimLocked_none hv⟩
  · intro h
    have hex : Exhausted st mac requested r now :=
      ⟨h.own, h.asked, (firstFree_eq_none hs hle).mpr h.taken⟩
    rw [selectInRange_exhausted hex, Option.map_eq_none_iff]
    cases hv : pickVictimLocked st true r now with
    | none => rfl
    | some p => exact absurd (pickVictimLocked_some hv).1 (h.noVictim p.1)

theorem selectInRange_selected (h : selectInRange st mac requested (servedRange st.cfg wired) now =
    some res) : Selected st mac requested now (servedRange st.cfg wired) res.1 res.2 :=
  selectInRange_some (servedRange_wf st.cfg wired).1 (servedRange_wf st.cfg wired).2 h

end

section

variable {st : Server} {mac : Mac} {requested : Ip} {wired : Bool} {now : Nat}
  {res : Server × Ip}

/-- A call that is served in its port's own range. -/
theorem Segregated.served
    (h : selectInRange st mac requested (servedRange st.cfg wired) now = some res) :
    Segregated st mac requested wired now res := by
  have hsel := selectInRange_selected h
  have hwf := servedRange_wf st.cfg wired
  have hin := hsel.inRange
  refine ⟨fun hpool => .inr ?_, fun hwired hw _ => ?_, fun hwired hw hno => ?_,
    fun _ => hsel.not_declined, fun h0 => absurd h0 hsel.ne_zero⟩
  · rw [servedRange_wifi hpool] at hin
    exact ⟨hin, st.cfg.disjoint hin⟩
  · rwa [servedRange_cable hwired hw] at hin
  · rw [← servedRange_cable hwired hw, ← selectInRange_eq_none hwf.1 hwf.2, h] at hno
    exact absurd hno (by simp)

/-- A WiFi client's call: its range is the last one. -/
theorem selectAddressLocked_wifi (hpool : wired = false ∨ st.cfg.wired.start = 0) :
    selectAddressLocked st mac requested wired now =
      (selectInRange st mac requested st.cfg.pool now).getD (st, 0) := by
  have hno : ¬ (wired && st.cfg.wired.start != 0) = true := by
    rcases hpool with rfl | h0
    · simp
    · simp [h0]
  unfold selectAddressLocked
  rw [servedRange_wifi hpool, if_neg hno]
  cases selectInRange st mac requested st.cfg.pool now <;> rfl

theorem Segregated.wifi_call (hpool : wired = false ∨ st.cfg.wired.start = 0) :
    Segregated st mac requested wired now (selectAddressLocked st mac requested wired now) := by
  have hrange := servedRange_wifi hpool
  rw [selectAddressLocked_wifi hpool]
  cases h : selectInRange st mac requested st.cfg.pool now with
  | some res => exact .served (by rw [hrange, h]; rfl)
  | none =>
    have hleft := (selectInRange_eq_none st.cfg.pool_start_ne st.cfg.pool_le).mp h
    refine ⟨fun _ => .inl rfl, fun hwired hw => ?_, fun hwired hw => ?_,
      fun h0 => absurd rfl h0, fun _ r hr => ?_⟩
    · exact hpool.elim (fun hwifi => absurd (hwired.symm.trans hwifi) (by decide)) (absurd · hw)
    · exact hpool.elim (fun hwifi => absurd (hwired.symm.trans hwifi) (by decide)) (absurd · hw)
    · rw [hrange] at hr
      simp only [List.mem_cons, List.not_mem_nil, or_false, or_self] at hr
      exact hr ▸ hleft

theorem Segregated.of_select (st : Server) (mac : Mac) (requested : Ip) (wired : Bool)
    (now : Nat) :
    Segregated st mac requested wired now (selectAddressLocked st mac requested wired now) := by
  by_cases hpool : wired = false ∨ st.cfg.wired.start = 0
  · exact .wifi_call hpool
  obtain ⟨hwired, hw⟩ := not_or.mp hpool
  have hwired : wired = true := by simpa using hwired
  have hrange := servedRange_cable hwired hw
  have hwf := servedRange_wf st.cfg wired
  cases h : selectInRange st mac requested (servedRange st.cfg wired) now with
  | some res =>
    have heq : selectAddressLocked st mac requested wired now = res := by
      unfold selectAddressLocked
      rw [h]
    rw [heq]
    exact .served h
  | none =>
    -- the wired range has nothing left, and the call is made again as for WiFi
    have hleft := (selectInRange_eq_none hwf.1 hwf.2).mp h
    have heq : selectAddressLocked st mac requested wired now =
        selectAddressLocked st mac requested false now := by
      rw [selectAddressLocked_wifi (.inl rfl)]
      unfold selectAddressLocked
      rw [h]
      dsimp only
      rw [if_pos (by rw [hwired, Bool.true_and, bne_iff_ne]; exact hw), servedRange_wifi (.inl rfl)]
    have hwifi : Segregated st mac requested false now
        (selectAddressLocked st mac requested false now) := .wifi_call (.inl rfl)
    rw [heq]
    refine ⟨fun h' => absurd h' hpool, fun _ _ hno => ?_, fun _ _ _ => rfl, hwifi.declined,
      fun h0 r hr => ?_⟩
    · exact absurd (hrange ▸ hleft) hno
    · rcases List.mem_cons.mp hr with rfl | hr
      · exact hleft
      · exact hwifi.empty h0 r (List.mem_cons_of_mem _ hr)

/-- **The two ranges are kept apart, and a client goes without only when there is nothing
    left.** The code's loop ends, with a result of which all of `Segregated` holds. -/
theorem selectAddressLoop_segregated (st : Server) (mac : Mac) (requested : Ip) (wired : Bool)
    (now : Nat) :
    ∃ res, (∀ fuel, 2 ^ 32 ≤ fuel →
        selectAddressLoop fuel 2 st mac requested wired now = some res) ∧
      Segregated st mac requested wired now res :=
  ⟨_, fun _ hfuel => selectAddressLoop_eq hfuel st mac requested wired now,
    .of_select st mac requested wired now⟩

/-- A wired range of one address. -/
def oneWired : Config :=
  { shipped with
    wired := ⟨ip4 192 168 5 2, ip4 192 168 5 2⟩
    wired_ok := by decide }

/-- The one wired address is taken, by the client itself, which is still given it: a full
    wired range is not enough for a wired client to be served as a WiFi client is. -/
theorem full_range_not_wifi : ¬ ∀ (s : System) (mac : Mac) (requested : Ip) (now : Nat),
    s.Reachable → s.srv.cfg.wired.start ≠ 0 →
    (∀ a, ipInRange a s.srv.cfg.wired = true → Taken s.srv a) →
    (∀ i, ¬ Eligible s.srv true s.srv.cfg.wired now i) →
    selectAddressLocked s.srv mac requested true now =
      selectAddressLocked s.srv mac requested false now := by
  intro hall
  let s := [Event.sends 10 true dhcpRequest 1 (ip4 192 168 5 2)].foldl System.step
    (powerOn oneWired none 0)
  have hs : s.Reachable := (System.Reachable.switchedOn oneWired 0).run _ (by decide +kernel)
  have hfull : firstFree s.srv s.srv.cfg.wired = none := by decide +kernel
  have htaken := (firstFree_eq_none (by decide +kernel) (by decide +kernel)).mp hfull
  have hsame := hall s 1 (ip4 192 168 5 2) 20 hs (by decide +kernel)
    (fun a ha => (htaken a ha).resolve_left fun hsrv => by
      rw [hsrv] at ha
      exact absurd ha (by decide +kernel))
    (fun i => by
      have hnone : pickVictimLocked s.srv true s.srv.cfg.wired 20 = none := by decide +kernel
      exact pickVictimLocked_none hnone)
  have hip : (selectAddressLocked s.srv 1 (ip4 192 168 5 2) true 20).2 ≠
      (selectAddressLocked s.srv 1 (ip4 192 168 5 2) false 20).2 := by decide +kernel
  exact hip (congrArg Prod.snd hsame)

end

end Dhcp
end Wt32Router
