import Wt32Router.Dhcp.Addresses

/-!
# What an observed address means

`lease_t` says of `observed_ip` that it is the address a client was "actually seen using, when
that isn't ip", and 0 when the two agree. What keeps victims in order, calls a device "manual"
and decides what goes to flash reads it so. `dhcp_server_note_observed_ip` compares when it
writes the one half. `commit_lease_locked` writes the other and does not.

> **`System.deviation_kept_iff`**: in every run, an observed address is one that differs from
> the lease in every state, exactly if no message is answered with the address its own sender
> is on record as using.

Step 1 never does that. Steps 2, 3 and 4 can: when the client asks for it, when it is cut off,
so that the free address looks free, and when another client's entry is reclaimed for it.
-/

namespace Wt32Router
namespace Dhcp

open Lib

/-- An observed address, where there is one, is not the leased one. -/
def Deviates (leased observed : Ip) : Prop := observed ≠ 0 → observed ≠ leased

/-- After this step every entry in use that has an observed address deviates. -/
def System.DeviatesAfter (s : System) (e : Event) : Prop :=
  ∀ i, (s.step e).srv.live i →
    Deviates ((s.step e).srv.leases i).ip ((s.step e).srv.leases i).observedIp

/-- The message gets to step 3, and this is the free address there. -/
def Request.FindsFree (q : Request) (st : Server) (env : Env) (a : Ip) : Prop :=
  q.Asks st ∧ ∃ r ∈ rangesTried st q.mac q.requested env.wired env.now,
    confirmsOwn st (findByMacLocked st q.mac) r env.now = none ∧
      grantsAsked st (findByMacLocked st q.mac) q.requested r env.now = false ∧
      firstFree st r = some a

/-- The message is answered with the address its sender's entry has as observed: it asks for
    it, or the address passes for free, or it is taken off another entry. -/
def GivesObserved (st : Server) (env : Env) (q : Request) : Prop :=
  ∃ i ∈ findByMacLocked st q.mac, q.Accepts (st.leases i).observedIp ∧
    ((q.GrantedAsked st env ∧ q.requested = (st.leases i).observedIp) ∨
      q.FindsFree st env (st.leases i).observedIp ∨
      q.Reclaims st env fun v a => v ≠ i ∧ a = (st.leases i).observedIp)

instance (q : Request) (st : Server) (env : Env) (a : Ip) : Decidable (q.FindsFree st env a) :=
  inferInstanceAs (Decidable (_ ∧ _))

instance (st : Server) (env : Env) (q : Request) : Decidable (GivesObserved st env q) :=
  inferInstanceAs (Decidable (∃ i ∈ findByMacLocked st q.mac, _))

section

variable {st st₁ st' : Server} {env : Env} {m : DhcpMsg} {q : Request} {len : Nat}
  {outs : List Out} {mac : Mac} {a ip requested : Ip} {now holdS : Nat} {persist wired : Bool}
  {r : ServedRange} {s : System} {e : Event}

/-! ## What the allocator did, step by step -/

/-- The four steps again, each with everything it checked. -/
theorem selectInRange_cases (h : selectInRange st mac requested r now = some (st₁, ip)) :
    (st₁ = st ∧ confirmsOwn st (findByMacLocked st mac) r now = some ip) ∨
      (st₁ = st ∧ requested = ip ∧ AskedIn st mac requested now r) ∨
      (st₁ = st ∧ confirmsOwn st (findByMacLocked st mac) r now = none ∧
        grantsAsked st (findByMacLocked st mac) requested r now = false ∧
        firstFree st r = some ip) ∨
      ∃ v, st₁ = reclaimLocked st v now ∧ ReclaimsIn st mac requested now r v ip := by
  unfold selectInRange at h
  dsimp only at h
  cases hown : confirmsOwn st (findByMacLocked st mac) r now with
  | some own =>
    rw [hown] at h
    cases h
    exact .inl ⟨rfl, rfl⟩
  | none =>
    rw [hown] at h
    dsimp only at h
    cases hask : grantsAsked st (findByMacLocked st mac) requested r now with
    | true =>
      rw [hask, if_pos rfl] at h
      cases h
      exact .inr (.inl ⟨rfl, rfl, hown, hask⟩)
    | false =>
      rw [hask, if_neg Bool.false_ne_true] at h
      cases hfree : firstFree st r with
      | some cand =>
        rw [hfree] at h
        cases h
        exact .inr (.inr (.inl ⟨rfl, rfl, rfl, rfl⟩))
      | none =>
        rw [hfree] at h
        dsimp only at h
        cases hv : pickVictimLocked st true r now with
        | none =>
          rw [hv] at h
          exact absurd h (by simp)
        | some p =>
          rw [hv] at h
          cases h
          exact .inr (.inr (.inr ⟨p.1, rfl, ⟨hown, hask, hfree⟩, hv⟩))

/-- An address that was selected came out of a range that was tried. -/
theorem select_inRange (hs : selectAddressLocked st mac requested wired now = (st₁, ip))
    (h0 : ip ≠ 0) : ∃ r ∈ rangesTried st mac requested wired now,
      selectInRange st mac requested r now = some (st₁, ip) := by
  rcases selectAddressLocked_cases hs with ⟨-, h⟩ | ⟨r, hr, hsel⟩
  · exact absurd h h0
  refine ⟨r, hr, ?_⟩
  cases h : selectInRange st mac requested r now with
  | some res =>
    rw [selectAddressLocked_eq hr h] at hs
    rw [hs]
  | none =>
    -- a range with nothing to give is none that this was selected from
    obtain ⟨⟨hown, hask, hfree⟩, hv⟩ := selectInRange_none h
    cases hsel with
    | own h' => exact absurd (hown.symm.trans h') (by simp)
    | asked h' => exact absurd (hask.symm.trans h'.2) Bool.false_ne_true
    | free h' hin =>
      obtain ⟨hs0, hle⟩ := rangesTried_wf hr
      have hmem := (mem_addresses hs0 hle).mpr hin
      exact absurd h' (List.find?_eq_none.mp hfree _ hmem)
    | reclaimed h' => exact absurd (hv.symm.trans h'.2) (by simp)

theorem selectInRange_free (hown : confirmsOwn st (findByMacLocked st mac) r now = none)
    (hask : grantsAsked st (findByMacLocked st mac) requested r now = false)
    (hfree : firstFree st r = some a) :
    selectInRange st mac requested r now = some (st, a) := by
  unfold selectInRange
  dsimp only
  rw [hown]
  dsimp only
  rw [hask, if_neg Bool.false_ne_true, hfree]

/-! ## Recording an address -/

theorem deviates_zero (x : Ip) : Deviates x 0 := fun hne => absurd rfl hne

/-- **A commit breaks the rule for one entry only**, and only if that client is seen on the
    very address. -/
theorem commit_deviates_iff (hu : MacUnique st.leases) (hall : st.AllPairs Deviates)
    (h0 : ip ≠ 0) :
    (commitLeaseLocked st mac ip holdS persist now).1.AllPairs Deviates ↔
      ∀ j, findByMacLocked st mac = some j → (st.leases j).observedIp ≠ ip := by
  constructor
  · intro hafter j hj hobs
    have hcom : (commitLeaseLocked st mac ip holdS persist now).1 =
        commitAt st j ip holdS persist now := by
      unfold commitLeaseLocked
      rw [slotForLocked_own hj]
    rw [hcom] at hafter
    have hdev := hafter j (by
      rw [Server.live, commitAt_same]
      exact (findByMacLocked_some hj).1)
    rw [commitAt_same] at hdev
    exact hdev (hobs ▸ h0) hobs
  · intro hno
    apply hall.commit (deviates_zero ip)
    intro i hi hmac _
    exact hno i (hmac ▸ findByMacLocked_eq hu hi)

/-! ## One message -/

/-- What a message that gets its sender's observed address selects. -/
theorem GivesObserved.selects (hu : MacUnique st.leases) (h : GivesObserved st env q) :
    q.Asks st ∧ ∃ st₁ ip, selectAddressLocked st q.mac q.requested env.wired env.now = (st₁, ip) ∧
      ip ≠ 0 ∧ q.Accepts ip ∧
      ∃ j, findByMacLocked st₁ q.mac = some j ∧ (st₁.leases j).observedIp = ip := by
  obtain ⟨i, hi, hacc, hgets⟩ := h
  have hi : findByMacLocked st q.mac = some i := Option.mem_def.mp hi
  rcases hgets with ⟨⟨ha, r, hr, hask⟩, hreq⟩ | ⟨ha, r, hr, hown, hask, hfree⟩ |
    ⟨ha, r, hr, hex, p, hp, hne, heq⟩
  · have h0 : q.requested ≠ 0 := ipInRange_ne_zero (grantsAsked_iff.mp hask.2).1
    exact ⟨ha, st, q.requested, selectAddressLocked_of_asked hr hask, h0, .inr (.inr rfl), i, hi,
      hreq.symm⟩
  · obtain ⟨hs0, hle⟩ := rangesTried_wf hr
    have hsel := selectInRange_free hown hask hfree
    exact ⟨ha, st, _, selectAddressLocked_eq hr hsel, (selectInRange_some hs0 hle hsel).ne_zero,
      hacc, i, hi, rfl⟩
  · obtain ⟨hel, hip⟩ := pickVictimLocked_some hp
    obtain ⟨hlive, hmac⟩ := findByMacLocked_some hi
    have hsame : (reclaimLocked st p.1 env.now).leases i = st.leases i := by
      rw [reclaimLocked_leases, Server.dropLease, Server.setLease_ne _ _ _ _ hne.symm]
    have hu' : MacUnique (reclaimLocked st p.1 env.now).leases := by
      rw [reclaimLocked_leases]
      exact hu.weaken fun j hj => by
        obtain ⟨-, hj'⟩ := st.dropLease_live p.1 j hj
        rw [hj'] at hj ⊢
        exact ⟨hj, rfl⟩
    have hfind : findByMacLocked (reclaimLocked st p.1 env.now) q.mac = some i := by
      have hlive' : (reclaimLocked st p.1 env.now).live i := by
        rw [Server.live, hsame]
        exact hlive
      have hown := findByMacLocked_eq hu' hlive'
      rwa [hsame, hmac] at hown
    refine ⟨ha, _, p.2, selectAddressLocked_of_reclaims hr ⟨hex, hp⟩, ?_, ?_, i, hfind, ?_⟩
    · rw [hip]
      exact hel.address.1
    · rw [heq]
      exact hacc
    · rw [hsame, heq]

/-- The other direction: an address that is its client's own observed one was selected by one
    of the last three steps. -/
theorem givesObserved_of (hall : st.AllPairs Deviates)
    (hu : MacUnique st.leases) (ha : q.Asks st)
    (hs : selectAddressLocked st q.mac q.requested env.wired env.now = (st₁, ip)) (h0 : ip ≠ 0)
    (hacc : q.Accepts ip) {j : Slot} (hj : findByMacLocked st₁ q.mac = some j)
    (hobs : (st₁.leases j).observedIp = ip) : GivesObserved st env q := by
  obtain ⟨hlive₁, hmac⟩ := findByMacLocked_some hj
  have hsame := select_live hs hlive₁
  rw [hsame] at hmac hobs
  have hlive : st.live j := by
    rw [Server.live, ← hsame]
    exact hlive₁
  have hfind : findByMacLocked st q.mac = some j := hmac ▸ findByMacLocked_eq hu hlive
  obtain ⟨r, hr, hsel⟩ := select_inRange hs h0
  refine ⟨j, Option.mem_def.mpr hfind, hobs.symm ▸ hacc, ?_⟩
  rcases selectInRange_cases hsel with ⟨-, hown⟩ | ⟨-, hreq, hask⟩ | ⟨-, hown, hask, hfree⟩ |
    ⟨v, hst, hre⟩
  · -- a lease that is confirmed is not the address that is observed
    obtain ⟨i, hi, hip, -⟩ := confirmsOwn_some hown
    obtain rfl : j = i := Option.some.inj (hfind.symm.trans hi)
    exact absurd (hobs.trans hip) (hall j hlive (hobs.symm ▸ h0))
  · exact .inl ⟨⟨ha, r, hr, hask⟩, hreq.trans hobs.symm⟩
  · exact .inr (.inl ⟨ha, r, hr, hown, hask, hobs.symm ▸ hfree⟩)
  · refine .inr (.inr (Request.reclaims_of ha hr hre ⟨?_, hobs.symm⟩))
    rintro rfl
    rw [hst, Server.live, reclaimLocked_leases, Server.dropLease_same] at hlive₁
    exact absurd hlive₁ Bool.false_ne_true

/-- A message after which the rule still holds: it does not give the observed address. -/
theorem Handled.deviates (h : TableInv st) (hall : st.AllPairs Deviates)
    (hno : ¬ GivesObserved st env q) (hh : Handled st env m q st' outs) :
    st'.AllPairs Deviates := by
  refine hh.allPairs hall fun st₁ ip holdS persist ha hs h0 hacc => ?_
  refine (commit_deviates_iff (h.select hs).mac (hall.select hs) h0).mpr fun j hj hobs => ?_
  exact hno (givesObserved_of hall h.mac ha hs h0 hacc hj hobs)

theorem message_deviates_iff (h : TableInv s.srv) (hall : s.srv.AllPairs Deviates) (env : Env)
    (m : DhcpMsg) (len : Nat) :
    s.DeviatesAfter (.recv env m len) ↔ ¬ s.Asking (.recv env m len) GivesObserved := by
  constructor
  · rintro hafter ⟨q, hq, hgives⟩
    obtain ⟨ha, st₁, ip, hs, h0, hacc, j, hj, hobs⟩ := hgives.selects h.mac
    obtain ⟨holdS, persist, hans⟩ := handleMessage_accepted hq ha hs h0 hacc
    have hst : (s.step (.recv env m len)).srv =
        (commitLeaseLocked st₁ q.mac ip holdS persist env.now).1 := congrArg Prod.fst hans
    unfold System.DeviatesAfter at hafter
    rw [hst] at hafter
    exact (commit_deviates_iff (h.select hs).mac (hall.select hs) h0).mp hafter j hj hobs
  · intro hno
    unfold System.DeviatesAfter
    rcases s.recv_cases env m len with ⟨hsame, -⟩ | ⟨q, hq, hh⟩
    · rw [hsame]
      exact hall
    · exact hh.deviates h hall fun hg => hno ⟨q, hq, hg⟩

/-! ## One event -/

/-- What a note leaves deviates, whatever there was: the code compares. -/
theorem note_deviates (ip x : Ip) : Deviates x (if ip = x then 0 else ip) := by
  split
  · exact deviates_zero x
  · rename_i hdiff
    exact fun _ => hdiff

theorem System.deviatesAfter_iff (h : s.AllPairs Deviates) (hi : s.Inv) :
    s.DeviatesAfter e ↔ ¬ s.Asking e GivesObserved := by
  cases e with
  | recv env m len => exact message_deviates_iff hi.table h.table env m len
  | noteObserved now mac ip =>
    exact iff_of_true (h.table.note hi.table.mac fun _ x _ => note_deviates ip x) id
  | setQuarantined now macs => exact iff_of_true h.table.quarantine id
  | poll now nvs => exact iff_of_true (h.poll (fun x _ _ => deviates_zero x) nvs).table id
  | reboot now cfg =>
    exact iff_of_true (bootServer_allPairs h.flash fun x _ _ => deviates_zero x) id

theorem System.DeviatesAfter.allPairs (h : s.AllPairs Deviates) (hafter : s.DeviatesAfter e) :
    (s.step e).AllPairs Deviates := by
  refine ⟨hafter, ?_⟩
  cases e with
  | poll now nvs => exact (h.poll (fun x _ _ => deviates_zero x) nvs).flash
  | _ => exact h.flash

/-- **An observed address means a deviation** as long as nobody is leased the address they are
    seen on, and in no other run. -/
theorem System.deviation_kept_iff (cfg : Config) (now : Nat) (es : List Event) :
    Along System.step System.DeviatesAfter (powerOn cfg none now) es ↔
      Along System.step (fun s e => ¬ s.Asking e GivesObserved) (powerOn cfg none now) es := by
  refine along_true.iff_of_invariant (I := fun s => s.Inv ∧ s.AllPairs Deviates)
    ⟨(System.Reachable.switchedOn cfg now).inv, powerOn_allPairs⟩ fun s e h _ => ?_
  exact ⟨System.deviatesAfter_iff h.2 h.1, fun hafter => ⟨h.1.step, hafter.allPairs h.2⟩⟩

/-- A device is seen on 192.168.5.20, and then asks for that address. -/
def observedThenLeased : List Event :=
  [.noteObserved 10 1 (ip4 192 168 5 20), .sends 20 false dhcpDiscover 1 (ip4 192 168 5 20)]

theorem deviation_fails : ¬ ∀ (cfg : Config) (now : Nat) (es : List Event),
    Along System.step System.DeviatesAfter (powerOn cfg none now) es := by
  intro hall
  have hrun := hall shipped 0 observedThenLeased
  have hdev := hrun.2.1 ⟨0, by decide⟩ (by decide +kernel)
  exact hdev (by decide +kernel) (by decide +kernel)

end

end Dhcp
end Wt32Router
