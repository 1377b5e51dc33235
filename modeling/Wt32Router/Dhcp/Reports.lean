import Wt32Router.Dhcp.Bystander

/-!
# An address the server knows a client is on

A client's address is *reported* while the server has an entry of the client that has been
heard from this boot and names the address, as leased or as observed. This file says what
becomes of that.

> **`reports_message`**: a DISCOVER or a REQUEST leaves the address reported, unless it
> *dislodges* the entry: it gives the client another address than the one the entry had
> leased and was known by, or takes the client to another server, or gives the entry's
> leased address to somebody else.

A note on the address reports it (`reports_noted`); a note on anything of anybody else, a
save and a push of the cut-off set leave it reported.
-/

namespace Wt32Router
namespace Dhcp

/-- The server has heard from the client this boot, and its entry names the address. -/
def Server.Reports (st : Server) (mac : Mac) (ip : Ip) : Prop :=
  ∃ i, st.live i ∧ (st.leases i).mac = mac ∧
    ((st.leases i).observedIp = ip ∨ (st.leases i).ip = ip) ∧
    seenThisBoot st (st.leases i) = true

instance (st : Server) (mac : Mac) (ip : Ip) : Decidable (st.Reports mac ip) :=
  inferInstanceAs (Decidable (∃ _, _))

/-- The address a message is answered with, in an OFFER or an ACK, if it is. -/
def Request.granted (q : Request) (st : Server) (env : Env) : Option Ip :=
  let ip := (selectAddressLocked st q.mac q.requested env.wired env.now).2
  if q.Asks st ∧ ip ≠ 0 ∧ (q.type = dhcpRequest → q.requested = 0 ∨ q.requested = ip) then some ip
  else none

/-- The message is a REQUEST to another server, which drops this lease. -/
def Request.Leaves (q : Request) (st : Server) (l : Lease) : Prop :=
  q.type = dhcpRequest ∧ ¬ q.ForUs st ∧ l.expiresUs ≠ 0

/-- The message costs this entry what it says of the address. -/
def Request.Dislodges (q : Request) (st : Server) (env : Env) (l : Lease) (ip : Ip) : Prop :=
  if l.mac = q.mac then
    q.Leaves st l ∨ (l.observedIp ≠ ip ∧ q.granted st env ≠ none ∧ q.granted st env ≠ some ip)
  else q.granted st env = some l.ip

instance (q : Request) (st : Server) (l : Lease) : Decidable (q.Leaves st l) :=
  inferInstanceAs (Decidable (_ ∧ _))

instance (q : Request) (st : Server) (env : Env) (l : Lease) (ip : Ip) :
    Decidable (q.Dislodges st env l ip) := by
  unfold Request.Dislodges
  infer_instance

/-- There is room for the entry of whoever the message is answered. -/
def Request.Recordable (q : Request) (st : Server) (env : Env) : Prop :=
  (q.granted st env).isSome = true →
    slotForLocked (selectAddressLocked st q.mac q.requested env.wired env.now).1 q.mac env.now ≠
      none

instance (q : Request) (st : Server) (env : Env) : Decidable (q.Recordable st env) :=
  inferInstanceAs (Decidable (_ → _))

section

variable {st st' : Server} {env : Env} {m : DhcpMsg} {q : Request} {len : Nat}
  {outs : List Out} {mac mac' : Mac} {ip y : Ip} {now : Nat} {i j : Slot} {macs : List Mac}
  {nvs : NvsResult}

theorem reports_iff (hu : MacUnique st.leases) (hi : st.live i) (ip : Ip) :
    st.Reports (st.leases i).mac ip ↔
      ((st.leases i).observedIp = ip ∨ (st.leases i).ip = ip) ∧
        seenThisBoot st (st.leases i) = true := by
  constructor
  · rintro ⟨j, hj, hjm, hnames⟩
    rw [← hu j i hj hi hjm]
    exact hnames
  · rintro hnames
    exact ⟨i, hi, rfl, hnames⟩

theorem Server.Reports.of_fields (h : st.Reports mac ip) (hseq : st'.bootSeq = st.bootSeq)
    (hent : ∀ i, st.live i → seenThisBoot st (st.leases i) = true →
      (st.leases i).mac = mac → st'.live i ∧ (st'.leases i).mac = (st.leases i).mac ∧
        (st'.leases i).ip = (st.leases i).ip ∧
        (st'.leases i).observedIp = (st.leases i).observedIp ∧
        (st'.leases i).lastSeenSeq = (st.leases i).lastSeenSeq) : st'.Reports mac ip := by
  obtain ⟨i, hi, hm, hnames, hseen⟩ := h
  obtain ⟨hi', hm', hip, hobs, hlast⟩ := hent i hi hseen hm
  refine ⟨i, hi', hm'.trans hm, ?_, ?_⟩
  · rw [hip, hobs]
    exact hnames
  · rw [seenThisBoot_iff, hseq, hlast]
    exact seenThisBoot_iff.mp hseen

/-! ## Notes, saves and the cut-off set -/

theorem reports_noted (hn : notable st.cfg ip = true) (hroom : slotForLocked st mac now ≠ none) :
    (noteObservedIp st mac ip now).Reports mac ip := by
  rcases noteObservedIp_cases st mac ip now with ⟨-, hfull⟩ | ⟨st₁, i, -, -, hs, heq⟩
  · exact absurd (hfull hn) hroom
  have hl : (noteAt st₁ i ip now).leases i = notedLease st₁.bootSeq ip now (st₁.leases i) :=
    noteAt_same
  rw [heq]
  refine ⟨i, ?_, ?_, ?_, ?_⟩
  · rw [Server.live, hl]; exact hs.live_mac.1
  · rw [hl]; exact hs.live_mac.2
  · rw [hl]
    unfold notedLease
    by_cases hip : ip = (st₁.leases i).ip
    · exact .inr hip.symm
    · exact .inl (if_neg hip)
  · rw [seenThisBoot_iff, hl, noteAt_bootSeq]
    exact BitVec.le_refl _

theorem Server.Reports.noted (h : st.Reports mac y) (hne : mac ≠ mac') :
    (noteObservedIp st mac' ip now).Reports mac y := by
  refine h.of_fields noteObservedIp_bootSeq fun i hi hseen hm => ?_
  have hsame : (noteObservedIp st mac' ip now).leases i = st.leases i :=
    note_seen hi hseen (hm ▸ hne)
  rw [Server.live, hsame]
  exact ⟨hi, rfl, rfl, rfl, rfl⟩

theorem Server.Reports.quarantined (h : st.Reports mac y) :
    (setQuarantined st macs now).Reports mac y := by
  refine h.of_fields setQuarantined_bootSeq fun i hi _ _ => ?_
  rw [Server.live, setQuarantined_leases]
  exact ⟨hi, rfl, rfl, rfl, rfl⟩

theorem Server.Reports.saved (h : st.Reports mac y) : (markSaved st).Reports mac y := by
  refine h.of_fields markSaved_bootSeq fun i hi _ _ => ?_
  obtain ⟨huse, hmac, hip, hobs, -, hseen, -⟩ := markSaved_fields st i
  rw [Server.live, huse]
  exact ⟨hi, hmac, hip, hobs, hseen⟩

/-! ## Messages -/

theorem Request.granted_some (h : q.granted st env = some ip) :
    q.Asks st ∧ ip ≠ 0 ∧ (q.type = dhcpRequest → q.requested = 0 ∨ q.requested = ip) ∧
      (selectAddressLocked st q.mac q.requested env.wired env.now).2 = ip := by
  unfold Request.granted at h
  dsimp only at h
  split at h
  · rename_i hc
    simp only [Option.some.injEq] at h
    subst h
    exact ⟨hc.1, hc.2.1, hc.2.2, rfl⟩
  · exact absurd h (by simp)

theorem Request.granted_of {st₁ : Server} (ha : q.Asks st)
    (hs : selectAddressLocked st q.mac q.requested env.wired env.now = (st₁, ip)) (h0 : ip ≠ 0)
    (hr : q.type = dhcpRequest → q.requested = 0 ∨ q.requested = ip) :
    q.granted st env = some ip := by
  unfold Request.granted
  rw [hs]
  exact if_pos ⟨ha, h0, hr⟩

theorem handleMessage_granted (hq : readRequest m len = some q)
    (hg : q.granted st env = some ip) : ∃ holdS persist,
    (handleMessage st env m len).1 = (commitLeaseLocked
      (selectAddressLocked st q.mac q.requested env.wired env.now).1 q.mac ip holdS persist
      env.now).1 := by
  obtain ⟨ha, h0, hr, hs⟩ := Request.granted_some hg
  unfold handleMessage
  rw [hq]
  dsimp only
  rcases ha with ht | ⟨ht, hf⟩
  · refine ⟨offerHoldS, false, ?_⟩
    rw [if_pos ht]
    unfold handleDiscover
    simp only [hs, if_neg h0]
  · refine ⟨leaseTimeSFor env, true, ?_⟩
    have hnd : q.type ≠ dhcpDiscover := by rw [ht]; decide
    rw [if_neg hnd, if_pos ht]
    unfold handleRequest
    rw [if_neg (by simpa [Request.ForUs, or_iff_not_imp_left] using hf)]
    simp only [hs, if_pos (And.intro h0 (hr ht))]

/-- A message that takes the client to another server drops its lease. -/
theorem handleMessage_leaves (hq : readRequest m len = some q)
    (hi : findByMacLocked st q.mac = some i) (hl : q.Leaves st (st.leases i)) :
    (handleMessage st env m len).1 = st.dropLease i := by
  obtain ⟨ht, hf, hx⟩ := hl
  have hnd : q.type ≠ dhcpDiscover := by rw [ht]; decide
  unfold handleMessage
  rw [hq]
  dsimp only
  rw [if_neg hnd, if_pos ht]
  unfold handleRequest
  rw [if_pos (by simpa [Request.ForUs] using hf), hi]
  simp only [if_pos hx]

/-- A message that is not answered with an address keeps every entry that has been heard
    from, but that of a client it takes to another server. -/
theorem Handled.keeps_seen (hh : Handled st env m q st' outs) (hg : q.granted st env = none)
    (hrel : q.type ≠ dhcpRelease) (hdec : q.type ≠ dhcpDecline)
    (hseen : seenThisBoot st (st.leases i) = true)
    (hl : (st.leases i).mac = q.mac → ¬ q.Leaves st (st.leases i)) :
    st'.leases i = st.leases i := by
  cases hh with
  | ignored _ => rfl
  | offered ht hs h0 =>
    have hnr : q.type ≠ dhcpRequest := by rw [ht]; decide
    rw [Request.granted_of (.inl ht) hs h0 fun h => absurd h hnr] at hg
    exact absurd hg (by simp)
  | acked ht hf hs h0 hr =>
    rw [Request.granted_of (.inr ⟨ht, hf⟩) hs h0 fun _ => hr] at hg
    exact absurd hg (by simp)
  | naked _ _ hs _ => exact select_seen hs hseen
  | @elsewhere j ht hf hj hx =>
    by_cases hij : i = j
    · subst hij
      exact absurd ⟨ht, hf, hx⟩ (hl (findByMacLocked_some hj).2)
    · exact st.dropLease_ne j i hij
  | declined ht _ _ => exact absurd ht hdec
  | declinedUnknown ht _ => exact absurd ht hdec
  | released ht _ => exact absurd ht hrel

/-- What a grant leaves of the client's own entry: the address it gave, and the observed one
    as it was. -/
theorem granted_own {st₁ : Server} {holdS : Nat} {persist : Bool} (h : TableInv st₁)
    (hi : st₁.live i) (h0 : ip ≠ 0)
    (hroom : slotForLocked st₁ (st₁.leases i).mac now ≠ none) :
    (commitLeaseLocked st₁ (st₁.leases i).mac ip holdS persist now).1.Reports
      (st₁.leases i).mac y ↔ (st₁.leases i).observedIp = y ∨ ip = y := by
  obtain ⟨j, hj, hjm, hseen, hjip, -⟩ := commit_entry ip holdS persist hroom
  have hu := (h.commit (st₁.leases i).mac holdS persist now h0).mac
  have hobs : ((commitLeaseLocked st₁ (st₁.leases i).mac ip holdS persist now).1.leases
      j).observedIp = (st₁.leases i).observedIp := by
    rcases commit_origin hj with ⟨hlive, heq⟩ | ⟨hnone, -⟩
    · have hji : j = i := by
        refine h.mac j i hlive hi ?_
        rcases heq with heq | ⟨hm, -⟩
        · rw [← heq, hjm]
        · exact hm
      subst hji
      rcases heq with heq | ⟨-, heq⟩
      · rw [heq]
      · rw [heq]
    · exact absurd rfl (findByMacLocked_none hnone hi)
  have hiff := reports_iff hu hj y
  rw [hjm, hobs, hjip] at hiff
  rw [hiff]
  exact and_iff_left hseen

/-- A grant leaves what is reported of another client, unless it gives away the leased
    address of that client's entry. -/
theorem granted_other {st₁ : Server} {holdS : Nat} {persist : Bool} (h : TableInv st₁)
    (hi : st₁.live i) (h0 : ip ≠ 0) (hne : (st₁.leases i).mac ≠ mac)
    (hnames : (st₁.leases i).observedIp = y ∨ (st₁.leases i).ip = y)
    (hseen : seenThisBoot st₁ (st₁.leases i) = true) (hroom : slotForLocked st₁ mac now ≠ none) :
    (commitLeaseLocked st₁ mac ip holdS persist now).1.Reports (st₁.leases i).mac y ↔
      (st₁.leases i).ip ≠ ip := by
  have hpost := h.commit mac holdS persist now h0
  constructor
  · rintro ⟨j, hj, hjm, -⟩ heq
    obtain ⟨hlive, hsame⟩ := commit_other_live hj (by rw [hjm]; exact hne)
    have hji : j = i := by
      refine h.mac j i hlive hi ?_
      rw [← hsame]
      exact hjm
    subst hji
    -- the entry the address went to has it as well
    obtain ⟨k, hk, hkm, -, hkip, -⟩ := commit_entry ip holdS persist hroom
    have hjip : ((commitLeaseLocked st₁ mac ip holdS persist now).1.leases j).ip = ip := by
      rw [hsame]; exact heq
    have hjk := hpost.ip j k ⟨hj, by rw [hjip]; exact h0⟩ ⟨hk, by rw [hkip]; exact h0⟩
      (hjip.trans hkip.symm)
    exact hne (by rw [← hjm, hjk, hkm])
  · intro hip
    rcases commit_keeps ip holdS persist now hi hne with hsame | ⟨hel, -⟩ | heq
    · refine ⟨i, ?_, ?_, ?_, ?_⟩
      · rw [Server.live, hsame]; exact hi
      · rw [hsame]
      · rw [hsame]; exact hnames
      · rw [seenThisBoot_iff, commit_bootSeq, hsame]
        exact seenThisBoot_iff.mp hseen
    · exact absurd (hel.unseen.symm.trans hseen) (by simp)
    · exact absurd heq hip

/-- **One DISCOVER or REQUEST, and an address that is reported**: it stays reported exactly
    if the message does not dislodge the entry that names it. -/
theorem reports_message (h : TableInv st) (hq : readRequest m len = some q)
    (hrel : q.type ≠ dhcpRelease) (hdec : q.type ≠ dhcpDecline) (hroom : q.Recordable st env)
    (hi : st.live i) (hnames : (st.leases i).observedIp = y ∨ (st.leases i).ip = y)
    (hseen : seenThisBoot st (st.leases i) = true) :
    (handleMessage st env m len).1.Reports (st.leases i).mac y ↔
      ¬ q.Dislodges st env (st.leases i) y := by
  unfold Request.Dislodges
  cases hg : q.granted st env with
  | none =>
    have hiff : (if (st.leases i).mac = q.mac then q.Leaves st (st.leases i) ∨
        ((st.leases i).observedIp ≠ y ∧ (none : Option Ip) ≠ none ∧ none ≠ some y)
        else none = some (st.leases i).ip) ↔
        (st.leases i).mac = q.mac ∧ q.Leaves st (st.leases i) := by
      split <;> simp_all
    rw [hiff]
    by_cases hl : (st.leases i).mac = q.mac ∧ q.Leaves st (st.leases i)
    · refine iff_of_false ?_ (not_not.mpr hl)
      have hfind : findByMacLocked st q.mac = some i := hl.1 ▸ findByMacLocked_eq h.mac hi
      rw [handleMessage_leaves hq hfind hl.2]
      rintro ⟨j, hj, hjm, -⟩
      obtain ⟨hji, hsame⟩ := st.dropLease_live i j hj
      rw [Server.live, hsame] at hj
      exact hji (h.mac j i hj hi (hsame ▸ hjm))
    · refine iff_of_true ?_ hl
      cases hm : handleMessage st env m len with
      | mk st' outs =>
        have hrep : st.Reports (st.leases i).mac y := ⟨i, hi, rfl, hnames, hseen⟩
        rcases handleMessage_cases hm with ⟨rfl, -⟩ | ⟨q', hq', hh⟩
        · exact hrep
        · obtain rfl : q = q' := Option.some.inj (hq.symm.trans hq')
          refine hrep.of_fields hh.bootSeq_eq fun k hk hkseen hkm => ?_
          have hsame := hh.keeps_seen hg hrel hdec hkseen fun hm' hleave => by
            obtain rfl : k = i := h.mac k i hk hi hkm
            exact hl ⟨hm', hleave⟩
          rw [Server.live, hsame]
          exact ⟨hk, rfl, rfl, rfl, rfl⟩
  | some ip =>
    obtain ⟨ha, h0, -, hip⟩ := Request.granted_some hg
    obtain ⟨holdS, persist, heq⟩ := handleMessage_granted hq hg
    have hslot := hroom (by rw [hg]; rfl)
    generalize hs : selectAddressLocked st q.mac q.requested env.wired env.now = p at heq hip hslot
    obtain ⟨st₁, ip'⟩ := p
    dsimp only at heq hip hslot
    subst hip
    have hsame := select_seen hs hseen
    have hi₁ : st₁.live i := by rw [Server.live, hsame]; exact hi
    have h₁ := h.select hs
    rw [heq, ← hsame]
    rw [← hsame] at hnames
    by_cases hm : (st₁.leases i).mac = q.mac
    · have hnl : ¬ q.Leaves st (st₁.leases i) := by
        rintro ⟨ht, hf, -⟩
        rcases ha with hd | ⟨-, hf'⟩
        · rw [ht] at hd; exact absurd hd (by decide)
        · exact hf hf'
      rw [if_pos hm, ← hm, granted_own h₁ hi₁ h0 (hm ▸ hslot)]
      simp only [hnl, false_or, ne_eq, reduceCtorEq, not_false_eq_true, true_and,
        Option.some.injEq, not_and_or, not_not]
    · rw [if_neg hm, granted_other h₁ hi₁ h0 hm hnames ?_ hslot, Option.some.injEq]
      · exact ⟨fun hne heq => hne heq.symm, fun hne heq => hne heq.symm⟩
      · rw [seenThisBoot_iff, select_bootSeq hs, hsame]
        exact seenThisBoot_iff.mp hseen

end

end Dhcp
end Wt32Router
