import Wt32Router.Dhcp.FlashSync

/-!
# What a save owes its clients

Two properties of the write-back of the table, in opposite directions.

**Nothing confirmed is lost** (`confirmed_not_lost`): an entry whose lease the client was
told of, and whose observed address changed, is either as flash has it or the table is
marked dirty; a save that fails changes nothing of that.

**Nothing unconfirmed is written** (`written_was_acked`): the leased addresses in a blob are
ones their clients were told they may use. An OFFER does not mark the table dirty, but it
does put its address in the table, and a save writes the whole table; so this holds only of
runs that do not save while an OFFER is waiting to be taken up.

What a client was told is not in the code's state. It is followed beside it, by a monitor
(`Told.next`) that sees the table before a step and what the step sends.
-/

namespace Wt32Router
namespace Dhcp

/-! ## What clients have been told -/

/-- The address a client is told it may use, as `post_assigned_event` reports it. -/
def Out.assigned? : Out → Option (Mac × Ip)
  | .reply _ => none
  | .assigned mac ip _ => some (mac, ip)

def Out.offered? : Out → Option (Mac × Ip)
  | .reply r => if r.type = dhcpOffer then some (r.chaddr, r.yiaddr) else none
  | .assigned .. => none

def System.acks (s : System) (e : Event) : List (Mac × Ip) := (s.outs e).filterMap Out.assigned?

def System.offers (s : System) (e : Event) : List (Mac × Ip) := (s.outs e).filterMap Out.offered?

/-- The address a client has leased, if it has an entry. -/
def Server.leasedTo (st : Server) (mac : Mac) : Option Ip :=
  (findByMacLocked st mac).map fun i => (st.leases i).ip

structure Told where
  /-- the addresses a client was ever told it may use -/
  acked : Mac → Ip → Bool
  /-- the leased address of the client's entry was put there by an OFFER, and the client has
      not been told it may use it since -/
  offered : Mac → Bool

def Told.start : Told := ⟨fun _ _ => false, fun _ => false⟩

/-- How a step adds to what has been said. A boot restores leases and no offers; an OFFER of
    the address the client's entry already has sets nothing. -/
def Told.next (s : System) (e : Event) (g : Told) : Told where
  acked := fun mac ip => g.acked mac ip || (s.acks e).contains (mac, ip)
  offered := fun mac =>
    !e.isReboot && !((s.acks e).map Prod.fst).contains mac &&
      (g.offered mac || (s.offers e).any fun p => p.1 == mac && s.srv.leasedTo mac != some p.2)

abbrev Told.step : System × Told → Event → System × Told := Lib.watch System.step Told.next

abbrev Told.Reachable (p : System × Told) : Prop :=
  Lib.Reachable Told.step (fun p => p.1.init ∧ p.2 = Told.start) (fun p e => p.1.ok e) p

section

variable {st st₁ st' : Server} {env : Env} {m : DhcpMsg} {q : Request} {len : Nat}
  {outs : List Out} {mac : Mac} {ip : Ip} {now : Nat} {i j : Slot} {macs : List Mac}
  {flash : Option (List UInt8)} {g : Told} {s : System} {e : Event} {requested : Ip}
  {wired persist : Bool} {holdS : Nat}

/-! ## Marked dirty, and staying so -/

theorem select_dirty (hs : selectAddressLocked st mac requested wired now = (st₁, ip))
    (hd : st.dirty = true) : st₁.dirty = true := by
  rcases selectAddressLocked_cases hs with ⟨rfl, -⟩ | ⟨r, -, hsel⟩
  · exact hd
  · cases hsel with
    | own _ => exact hd
    | asked _ => exact hd
    | free _ _ => exact hd
    | reclaimed _ => exact reclaimLocked_dirty.mpr (.inl hd)

theorem SlotFor.dirty (h : SlotFor st mac now st₁ i) (hd : st.dirty = true) :
    st₁.dirty = true := by
  cases h with
  | own _ => exact hd
  | free _ _ => exact hd
  | reclaimed _ _ _ => exact reclaimLocked_dirty.mpr (.inl hd)

theorem commit_dirty (hd : st.dirty = true) :
    (commitLeaseLocked st mac ip holdS persist now).1.dirty = true := by
  cases hc : commitLeaseLocked st mac ip holdS persist now with
  | mk st' ok =>
    rcases commitLeaseLocked_cases hc with ⟨-, rfl, -⟩ | ⟨st₁, e, -, -, hs, rfl⟩
    · exact hd
    · exact commitAt_dirty (.inl (hs.dirty hd))

theorem Handled.dirty (hh : Handled st env m q st' outs) (hd : st.dirty = true) :
    st'.dirty = true := by
  cases hh with
  | ignored _ => exact hd
  | offered _ hs _ => exact commit_dirty (select_dirty hs hd)
  | acked _ _ hs _ _ => exact commit_dirty (select_dirty hs hd)
  | naked _ _ hs _ => exact select_dirty hs hd
  | elsewhere _ _ _ _ => exact hd
  | declined _ _ heq =>
    subst heq
    split
    · simp
    · simpa using hd
  | declinedUnknown _ _ => simpa using hd
  | released _ _ => exact hd

/-! ## Where an entry and its address come from -/

/-- What a message has done to an entry in use after it, and what it has said: nothing to
    this client and its entry as it was; or the entry is the sender's, and has the address
    it was offered or told it may use; or it is the sender's, and was given back. -/
inductive Touched (st st' : Server) (env : Env) (q : Request) (acks offers : List (Mac × Ip))
    (j : Slot) : Prop
  | kept : st.live j → st'.leases j = st.leases j →
      (∀ p ∈ acks, p.1 ≠ (st.leases j).mac) → (∀ p ∈ offers, p.1 ≠ (st.leases j).mac) →
      Touched st st' env q acks offers j
  | offered {st₁ : Server} {ip : Ip} :
      selectAddressLocked st q.mac q.requested env.wired env.now = (st₁, ip) → ip ≠ 0 →
      st' = (commitLeaseLocked st₁ q.mac ip offerHoldS false env.now).1 →
      (st'.leases j).mac = q.mac → acks = [] → offers = [(q.mac, ip)] →
      Touched st st' env q acks offers j
  | acked {st₁ : Server} {ip : Ip} :
      selectAddressLocked st q.mac q.requested env.wired env.now = (st₁, ip) → ip ≠ 0 →
      st' = (commitLeaseLocked st₁ q.mac ip (leaseTimeSFor env) true env.now).1 →
      (st'.leases j).mac = q.mac → acks = [(q.mac, ip)] → Touched st st' env q acks offers j
  | released : q.type = dhcpRelease → st.live j → (st.leases j).mac = q.mac →
      st'.leases j = { st.leases j with
        expiresUs := 0
        lastSeenSeq := if 0 < st.bootSeq then st.bootSeq - 1 else (st.leases j).lastSeenSeq } →
      acks = [] → offers = [] → Touched st st' env q acks offers j

theorem Touched.silent (ho : ∀ o ∈ outs, o.assigned? = none ∧ o.offered? = none)
    (hlive : st.live j) (hsame : st'.leases j = st.leases j) :
    Touched st st' env q (outs.filterMap Out.assigned?) (outs.filterMap Out.offered?) j := by
  have hacks : outs.filterMap Out.assigned? = [] :=
    List.filterMap_eq_nil_iff.mpr fun o h => (ho o h).1
  have hoffers : outs.filterMap Out.offered? = [] :=
    List.filterMap_eq_nil_iff.mpr fun o h => (ho o h).2
  rw [hacks, hoffers]
  exact .kept hlive hsame (by simp) (by simp)

/-- **Where the entries of a table come from that a message has left.** -/
theorem Handled.touched (hq : readRequest m len = some q) (hh : Handled st env m q st' outs)
    (hj : st'.live j) :
    Touched st st' env q (outs.filterMap Out.assigned?) (outs.filterMap Out.offered?) j := by
  have hchaddr := readRequest_mac hq
  cases hh with
  | ignored ho =>
    refine .silent (fun o h => ?_) hj rfl
    rw [ho o h]
    exact ⟨rfl, rfl⟩
  | @offered st₁ ip ht hs h0 =>
    have hacks : ([Out.reply (sendReply st₁.cfg env.replyDns m dhcpOffer ip
        (leaseTimeSFor env))].filterMap Out.assigned?) = [] := rfl
    have hoffers : ([Out.reply (sendReply st₁.cfg env.replyDns m dhcpOffer ip
        (leaseTimeSFor env))].filterMap Out.offered?) = [(q.mac, ip)] := by
      rw [hchaddr]
      rfl
    by_cases hm : ((commitLeaseLocked st₁ q.mac ip offerHoldS false env.now).1.leases j).mac =
        q.mac
    · exact .offered hs h0 rfl hm hacks hoffers
    · obtain ⟨hlive, heq⟩ := commit_other_live hj hm
      have hsame := select_live hs hlive
      refine .kept (by rwa [Server.live, ← hsame]) (heq.trans hsame) (by simp [hacks])
        fun p hp => ?_
      rw [hoffers, List.mem_singleton] at hp
      rw [hp, ← hsame, ← heq]
      exact fun hpm => hm hpm.symm
  | @acked st₁ ip ht hf hs h0 _ =>
    have hacks : ([Out.reply (sendReply st₁.cfg env.replyDns m dhcpAck ip (leaseTimeSFor env)),
        .assigned q.mac ip q.hostname].filterMap Out.assigned?) = [(q.mac, ip)] := rfl
    by_cases hm : ((commitLeaseLocked st₁ q.mac ip (leaseTimeSFor env) true env.now).1.leases
        j).mac = q.mac
    · exact .acked hs h0 rfl hm hacks
    · obtain ⟨hlive, heq⟩ := commit_other_live hj hm
      have hsame := select_live hs hlive
      refine .kept (by rwa [Server.live, ← hsame]) (heq.trans hsame) (fun p hp => ?_)
        (by simp [Out.offered?, dhcpAck, dhcpOffer])
      rw [hacks, List.mem_singleton] at hp
      rw [hp, ← hsame, ← heq]
      exact fun hpm => hm hpm.symm
  | naked _ _ hs _ =>
    have hsame := select_live hs hj
    refine .silent ?_ (by rwa [Server.live, ← hsame]) hsame
    simp [Out.assigned?, Out.offered?, dhcpNak, dhcpOffer]
  | elsewhere _ _ _ _ =>
    obtain ⟨-, hsame⟩ := st.dropLease_live _ j hj
    exact .silent (by simp) (by rwa [Server.live, ← hsame]) hsame
  | @declined i _ _ _ heq =>
    rw [Server.live, declined_leases heq] at hj
    obtain ⟨-, hsame⟩ := st.dropLease_live i j hj
    exact .silent (by simp) (by rwa [Server.live, ← hsame]) (by rw [declined_leases heq, hsame])
  | declinedUnknown _ _ =>
    rw [Server.live, declineIp_leases] at hj
    exact .silent (by simp) hj (by rw [declineIp_leases])
  | @released i ht hi =>
    by_cases hji : j = i
    · subst hji
      rw [Server.live, Server.setLease_same] at hj
      exact .released ht hj (findByMacLocked_some hi).2 (Server.setLease_same _ _ _) rfl rfl
    · rw [Server.live, Server.setLease_ne _ _ _ _ hji] at hj
      exact .silent (by simp) hj (Server.setLease_ne _ _ _ _ hji)

/-- The fields of an entry a save reads or writes. -/
def SameStored (l l' : Lease) : Prop :=
  l'.mac = l.mac ∧ l'.ip = l.ip ∧ l'.observedIp = l.observedIp ∧ l'.savedIp = l.savedIp ∧
    l'.savedObservedIp = l.savedObservedIp ∧ l'.quarantined = l.quarantined

theorem SameStored.of_eq {l l' : Lease} (h : l' = l) : SameStored l l' := by
  subst h
  exact ⟨rfl, rfl, rfl, rfl, rfl, rfl⟩

/-- What a message has done to an entry in use after it, beside what it sends: nothing to
    this client and its entry as it was; or it told it of the address its entry now has; or
    offered it that. -/
inductive Recorded (st st' : Server) (acks offers : List (Mac × Ip)) (j : Slot) : Prop
  | kept : st.live j → SameStored (st.leases j) (st'.leases j) →
      (∀ p ∈ acks, p.1 ≠ (st'.leases j).mac) → (∀ p ∈ offers, p.1 ≠ (st'.leases j).mac) →
      Recorded st st' acks offers j
  | acked : acks = [((st'.leases j).mac, (st'.leases j).ip)] →
      (st'.dirty = false → (st'.leases j).savedIp = (st'.leases j).ip) →
      Recorded st st' acks offers j
  | offered : acks = [] → offers = [((st'.leases j).mac, (st'.leases j).ip)] →
      (∀ i, findByMacLocked st (st'.leases j).mac = some i →
        (st.leases i).savedIp = (st'.leases j).ip → st'.dirty = false →
        (st'.leases j).savedIp = (st'.leases j).ip) →
      Recorded st st' acks offers j

/-- The entry of the client a commit was for has its address, as flash has it if the commit
    was to be persisted or was of an address flash had for the client already. -/
theorem commit_own_live (h : TableInv st)
    (hj : (commitLeaseLocked st mac ip holdS persist now).1.live j)
    (hmac : ((commitLeaseLocked st mac ip holdS persist now).1.leases j).mac = mac)
    (h0 : ip ≠ 0) :
    ((commitLeaseLocked st mac ip holdS persist now).1.leases j).ip = ip ∧
      ((commitLeaseLocked st mac ip holdS persist now).1.dirty = false →
        (persist = true ∨ ∃ i, st.live i ∧ (st.leases i).mac = mac ∧ (st.leases i).savedIp = ip) →
        ((commitLeaseLocked st mac ip holdS persist now).1.leases j).savedIp = ip) := by
  obtain ⟨st₁, hs, heq⟩ := commit_own_slot h hj hmac h0
  rw [heq, commitAt_same]
  refine ⟨rfl, fun hd hwhy => ?_⟩
  rcases hwhy with hp | ⟨i, hi, him, hsaved⟩
  · exact (commitAt_clean hd).2.2 hp
  · rcases hs.own_or_fresh with ⟨hfind, rfl⟩ | ⟨hfind, -⟩
    · obtain ⟨hjl, hjm⟩ := findByMacLocked_some hfind
      rw [← h.mac i j hi hjl (him.trans hjm.symm)]
      exact hsaved
    · exact absurd him (findByMacLocked_none hfind hi)

theorem Handled.recorded (h : TableInv st) (hq : readRequest m len = some q)
    (hh : Handled st env m q st' outs) (hj : st'.live j) :
    Recorded st st' (outs.filterMap Out.assigned?) (outs.filterMap Out.offered?) j := by
  cases hh.touched hq hj with
  | kept hlive hsame hacks hoffers =>
    rw [← hsame] at hacks hoffers
    exact .kept hlive (.of_eq hsame) hacks hoffers
  | offered hs h0 heq hm hacks hoffers =>
    subst heq
    obtain ⟨hip, hsaved⟩ := commit_own_live (h.select hs) hj hm h0
    refine .offered hacks ?_ fun i hi hsi hd => ?_
    · rw [hm, hip]
      exact hoffers
    · rw [hm] at hi
      rw [hip] at hsi ⊢
      -- the client's entry survived the selection, or dropping it marked the table dirty
      obtain ⟨hil, him⟩ := findByMacLocked_some hi
      have hd₁ := Bool.eq_false_iff.mpr fun hd₁ =>
        absurd (hd.symm.trans (commit_dirty hd₁)) (by simp)
      obtain ⟨hil', him', hsi', -⟩ := (FlashKept.select hs hd₁).2 i hil (.inl (hsi ▸ h0))
      exact hsaved hd (.inr ⟨i, hil', him'.trans him, hsi'.trans hsi⟩)
  | acked hs h0 heq hm hacks =>
    subst heq
    obtain ⟨hip, hsaved⟩ := commit_own_live (h.select hs) hj hm h0
    refine .acked ?_ fun hd => ?_
    · rw [hm, hip]
      exact hacks
    · rw [hip]
      exact hsaved hd (.inl rfl)
  | released _ hlive _ heq hacks hoffers =>
    refine .kept hlive ?_ (by simp [hacks]) (by simp [hoffers])
    rw [heq]
    exact ⟨rfl, rfl, rfl, rfl, rfl, rfl⟩

/-- The observed half of an entry is as it was in this slot, or empty as in a new one. -/
def ObservedFrom (st : Server) (j : Slot) (l : Lease) : Prop :=
  (st.live j ∧ l.observedIp = (st.leases j).observedIp ∧
    l.savedObservedIp = (st.leases j).savedObservedIp ∧
    l.quarantined = (st.leases j).quarantined) ∨
  (l.observedIp = 0 ∧ l.savedObservedIp = 0)

theorem ObservedFrom.of_eq {l : Lease} (hlive : st.live j) (h : l = st.leases j) :
    ObservedFrom st j l := by
  subst h
  exact .inl ⟨hlive, rfl, rfl, rfl⟩

theorem commit_observed (hs : selectAddressLocked st mac requested wired now = (st₁, ip))
    (hj : (commitLeaseLocked st₁ mac ip holdS persist now).1.live j) :
    ObservedFrom st j ((commitLeaseLocked st₁ mac ip holdS persist now).1.leases j) := by
  rcases commit_origin hj with ⟨hlive, heq⟩ | ⟨-, heq⟩
  · have hsame := select_live hs hlive
    have hlive' : st.live j := by rwa [Server.live, ← hsame]
    rcases heq with heq | ⟨-, heq⟩
    · exact .of_eq hlive' (heq.trans hsame)
    · rw [heq, hsame]
      exact .inl ⟨hlive', rfl, rfl, rfl⟩
  · rw [heq]
    exact .inr ⟨rfl, rfl⟩

/-- No message touches the observed half of an entry but by making the entry. -/
theorem Handled.observed (hq : readRequest m len = some q) (hh : Handled st env m q st' outs)
    (hj : st'.live j) : ObservedFrom st j (st'.leases j) := by
  cases hh.touched hq hj with
  | kept hlive hsame _ _ => exact .of_eq hlive hsame
  | offered hs _ heq _ _ _ => subst heq; exact commit_observed hs hj
  | acked hs _ heq _ _ => subst heq; exact commit_observed hs hj
  | released _ hlive _ heq _ _ =>
    rw [heq]
    exact .inl ⟨hlive, rfl, rfl, rfl⟩

/-! ## The monitor -/

theorem Told.next_offered : (Told.next s e g).offered mac = false ↔
    e.isReboot = true ∨ mac ∈ (s.acks e).map Prod.fst ∨ (g.offered mac = false ∧
      ∀ p ∈ s.offers e, p.1 = mac → s.srv.leasedTo mac = some p.2) := by
  simp only [Told.next, Bool.and_eq_false_iff, Bool.not_eq_false', Bool.or_eq_false_iff,
    List.contains_iff_mem, List.any_eq_false, Bool.and_eq_true, beq_iff_eq, bne_iff_ne, not_and,
    ne_eq, not_not, or_assoc]

theorem Told.next_acked : (Told.next s e g).acked mac ip = true ↔
    g.acked mac ip = true ∨ (mac, ip) ∈ s.acks e := by
  simp only [Told.next, Bool.or_eq_true, List.contains_iff_mem]

theorem Told.next_quiet (ho : s.outs e = []) (hb : e.isReboot = false) :
    (Told.next s e g).offered mac = false ↔ g.offered mac = false := by
  rw [Told.next_offered, System.acks, System.offers, ho, hb]
  simp

theorem Server.leasedTo_some (h : st.leasedTo mac = some ip) :
    ∃ i, findByMacLocked st mac = some i ∧ (st.leases i).ip = ip := by
  unfold Server.leasedTo at h
  exact Option.map_eq_some_iff.mp h

/-! ## Nothing confirmed is lost -/

/-- Entries are as flash has them or the table is marked dirty: the lease, unless it is one
    that was only offered, and the observed address as it should be in flash. -/
structure Server.Settled (offered : Mac → Bool) (st : Server) : Prop where
  lease : ∀ i, st.live i → offered (st.leases i).mac = false →
    (st.leases i).savedIp = (st.leases i).ip ∨ st.dirty = true
  observed : ∀ i, st.live i →
    (st.leases i).savedObservedIp = persistedObservedIp (st.leases i) ∨ st.dirty = true

/-- A table marked dirty owes nothing. -/
theorem Server.Settled.of_clean {offered : Mac → Bool}
    (h : st.dirty = false → ∀ i, st.live i →
      (offered (st.leases i).mac = false → (st.leases i).savedIp = (st.leases i).ip) ∧
        (st.leases i).savedObservedIp = persistedObservedIp (st.leases i)) :
    st.Settled offered := by
  cases hd : st.dirty with
  | true => exact ⟨fun _ _ _ => .inr hd, fun _ _ => .inr hd⟩
  | false => exact ⟨fun i hi ho => .inl ((h hd i hi).1 ho), fun i hi => .inl (h hd i hi).2⟩

theorem Server.Settled.clean {offered : Mac → Bool} (h : st.Settled offered)
    (hd : st.dirty = false) (hi : st.live i) :
    (offered (st.leases i).mac = false → (st.leases i).savedIp = (st.leases i).ip) ∧
      (st.leases i).savedObservedIp = persistedObservedIp (st.leases i) :=
  ⟨fun ho => (h.lease i hi ho).resolve_right (by simp [hd]),
    (h.observed i hi).resolve_right (by simp [hd])⟩

theorem Server.Settled.handled (ht : TableInv s.srv) (h : s.srv.Settled g.offered)
    (he : e = .recv env m len) (hq : readRequest m len = some q)
    (hh : Handled s.srv env m q (s.step e).srv (s.outs e)) :
    (s.step e).srv.Settled (Told.next s e g).offered := by
  have hboot : e.isReboot = false := by rw [he]; rfl
  refine .of_clean fun hd j hj => ?_
  have hd₀ : s.srv.dirty = false := by
    by_contra hne
    rw [hh.dirty (by simpa using hne)] at hd
    exact absurd hd (by simp)
  refine ⟨fun hno => ?_, ?_⟩
  · rw [Told.next_offered, hboot, System.acks, System.offers] at hno
    cases hh.recorded ht hq hj with
    | kept hlive hsame hacks _ =>
      obtain ⟨hmac, hip, -, hsaved, -⟩ := hsame
      rcases hno with hb | hack | ⟨hg, -⟩
      · exact absurd hb (by simp)
      · obtain ⟨p, hp, hpm⟩ := List.mem_map.mp hack
        exact absurd hpm (hacks p hp)
      · rw [hip, hsaved]
        exact (h.clean hd₀ hlive).1 (hmac ▸ hg)
    | acked _ hsaved => exact hsaved hd
    | offered hacks hoffers hsaved =>
      rw [hacks, hoffers] at hno
      rcases hno with hb | hack | ⟨hg, hold⟩
      · exact absurd hb (by simp)
      · exact absurd hack (by simp)
      · obtain ⟨i, hi, hip⟩ := Server.leasedTo_some (hold _ (List.mem_singleton_self _) rfl)
        obtain ⟨hil, him⟩ := findByMacLocked_some hi
        exact hsaved i hi (((h.clean hd₀ hil).1 (him ▸ hg)).trans hip) hd
  · rcases hh.observed hq hj with ⟨hlive, hobs, hsaved, hquar⟩ | ⟨hobs, hsaved⟩
    · rw [hsaved, (h.clean hd₀ hlive).2, persistedObservedIp, persistedObservedIp, hobs, hquar]
    · rw [hsaved, persistedObservedIp, hobs]
      simp

theorem Server.Settled.note {offered : Mac → Bool} (h : st.Settled offered) :
    (noteObservedIp st mac ip now).Settled offered := by
  rcases noteObservedIp_cases st mac ip now with ⟨heq, -⟩ | ⟨st₁, e, -, -, hs, heq⟩
  · rw [heq]; exact h
  rw [heq]
  refine .of_clean fun hd j hj => ?_
  obtain ⟨hd₁, hobs⟩ := noteAt_clean hd
  have hd₀ : st.dirty = false := by
    by_contra hne
    rw [hs.dirty (by simpa using hne)] at hd₁
    exact absurd hd₁ (by simp)
  by_cases hje : j = e
  · subst hje
    refine ⟨fun ho => ?_, hobs⟩
    rw [noteAt_same] at ho ⊢
    rcases hs.own_or_fresh with ⟨hm, rfl⟩ | ⟨-, hfresh⟩
    · exact (h.clean hd₀ (findByMacLocked_some hm).1).1 ho
    · rw [hfresh]; rfl
  · rw [Server.live, noteAt_other hje, hs.other hje] at hj
    rw [noteAt_other hje, hs.other hje]
    exact h.clean hd₀ hj

theorem Server.Settled.quarantine {offered : Mac → Bool} (h : st.Settled offered) :
    (setQuarantined st macs now).Settled offered := by
  refine .of_clean fun hd j hj => ?_
  obtain ⟨hd₀, hobs⟩ := setQuarantined_clean hd
  rw [Server.live, setQuarantined_leases] at hj
  have hj : st.live j := hj
  refine ⟨fun ho => ?_, ?_⟩
  · rw [setQuarantined_leases] at ho ⊢
    exact (h.clean hd₀ hj).1 ho
  · have hs := hobs j hj
    rw [setQuarantined_leases] at hs ⊢
    exact hs

theorem Server.Settled.saved {offered : Mac → Bool} (st : Server) :
    (markSaved st).Settled offered := by
  refine .of_clean fun _ j hj => ?_
  obtain ⟨huse, -⟩ := markSaved_fields st j
  rw [Server.live, huse] at hj
  rw [markSaved_live hj]
  exact ⟨fun _ => rfl, rfl⟩

theorem Server.Settled.boot {cfg : Config} {offered : Mac → Bool} :
    (powerOn cfg flash now).srv.Settled offered := by
  unfold powerOn
  refine .of_clean fun hd j hj => ?_
  dsimp only at hd hj ⊢
  obtain ⟨hdr, recs, t, hp, ht, -, hl⟩ := bootServer_live hj
  rw [bootServer_some hp] at hd
  obtain ⟨hall, hdrop⟩ := loadRecords_clean hd
  rw [hl, hall]
  rw [hall] at ht
  rw [hdrop j.val (List.getElem?_eq_some_iff.mp ht).1]
  exact ⟨fun _ => rfl, rfl⟩

theorem Server.Settled.step (hI : s.Inv) (h : s.srv.Settled g.offered) :
    (s.step e).srv.Settled (Told.next s e g).offered := by
  cases e with
  | recv env m len =>
    rcases s.recv_cases env m len with ⟨hsrv, houts⟩ | ⟨q, hq, hh⟩
    · rw [hsrv]
      exact ⟨fun i hi ho => h.lease i hi ((Told.next_quiet houts rfl).mp ho), h.observed⟩
    · exact h.handled hI.table rfl hq hh
  | noteObserved now mac ip =>
    exact ⟨fun i hi ho => h.note.lease i hi ((Told.next_quiet rfl rfl).mp ho), h.note.observed⟩
  | setQuarantined now macs =>
    exact ⟨fun i hi ho => h.quarantine.lease i hi ((Told.next_quiet rfl rfl).mp ho),
      h.quarantine.observed⟩
  | poll now nvs =>
    have hsettled : (s.step (.poll now nvs)).srv.Settled g.offered :=
      System.poll_srv now nvs h (.saved s.srv)
    exact ⟨fun i hi ho => hsettled.lease i hi ((Told.next_quiet rfl rfl).mp ho),
      hsettled.observed⟩
  | reboot now cfg => exact .boot

/-- **Nothing confirmed is lost to the debounce.** In every state of every run, over any
    number of boots:

    * an entry whose leased address was last set by an ACK or a load is as flash has it, or
      the table is marked dirty;
    * so is the observed address of every entry, as it should be in flash;
    * a blob has no observed address for an entry that is cut off when it is written;
    * a save that fails changes nothing of the server. -/
theorem Told.Reachable.confirmed_not_lost {p : System × Told} (hp : Told.Reachable p) :
    (∀ i, p.1.srv.live i → p.2.offered (p.1.srv.leases i).mac = false →
      (p.1.srv.leases i).savedIp = (p.1.srv.leases i).ip ∨ p.1.srv.dirty = true) ∧
    (∀ i, p.1.srv.live i →
      (p.1.srv.leases i).savedObservedIp = persistedObservedIp (p.1.srv.leases i) ∨
        p.1.srv.dirty = true) ∧
    (∀ e blob, p.1.written e = some blob → ∀ i, p.1.srv.live i →
      (p.1.srv.leases i).quarantined = true → ∀ t ∈ flashRecords (some blob),
        t.mac = (p.1.srv.leases i).mac → t.observedIp = 0) ∧
    (∀ now nvs, nvs ≠ .ok → (p.1.step (.poll now nvs)).srv = p.1.srv) := by
  have hsettled : p.1.Inv ∧ p.1.srv.Settled p.2.offered := by
    refine Lib.Reachable.invariant (I := fun p => p.1.Inv ∧ p.1.srv.Settled p.2.offered) hp
      (fun p h => ?_) fun p e h _ => ⟨h.1.step, h.2.step h.1⟩
    obtain ⟨⟨cfg, now, heq⟩, -⟩ := h
    refine ⟨System.Reachable.inv (.init ⟨cfg, now, heq⟩), ?_⟩
    rw [heq]
    exact .boot
  obtain ⟨hI, hsettled⟩ := hsettled
  refine ⟨hsettled.lease, hsettled.observed, fun e blob hw i hi hq t ht hm => ?_,
    fun now nvs hn => ?_⟩
  · rw [System.written_eq hw, flashRecords_saveBlob] at ht
    obtain ⟨j, hj, rfl⟩ := mem_savedRecords.mp ht
    have hji : j = i := hI.table.mac j i (storable_iff.mp hj).1 hi hm
    subst hji
    simp [storedOf, persistedObservedIp, hq]
  · rw [System.step_poll_srv, if_neg (fun h => hn h.2)]

/-- A client is told its address and seen on another, cut off, and saved; another is offered
    an address and has not taken it up. -/
def confirmedAndOffered : List Event :=
  [.sends 10 false dhcpRequest 1 (ip4 192 168 5 10),
    .noteObserved 20 1 (ip4 192 168 5 60), .setQuarantined 30 [1], .poll 20000000 .ok,
    .sends 30000000 false dhcpDiscover 2 0]

theorem confirmed_not_lost_offered :
    let p := confirmedAndOffered.foldl Told.step (powerOn shipped none 0, Told.start)
    (∀ i, p.1.srv.live i → p.2.offered (p.1.srv.leases i).mac = false →
      (p.1.srv.leases i).savedIp = (p.1.srv.leases i).ip ∨ p.1.srv.dirty = true) ∧
    (∀ i, p.1.srv.live i →
      (p.1.srv.leases i).savedObservedIp = persistedObservedIp (p.1.srv.leases i) ∨
        p.1.srv.dirty = true) ∧
    (∀ e blob, p.1.written e = some blob → ∀ i, p.1.srv.live i →
      (p.1.srv.leases i).quarantined = true → ∀ t ∈ flashRecords (some blob),
        t.mac = (p.1.srv.leases i).mac → t.observedIp = 0) ∧
    (∀ now nvs, nvs ≠ .ok → (p.1.step (.poll now nvs)).srv = p.1.srv) :=
  Told.Reachable.confirmed_not_lost
    (Lib.Reachable.run (.init ⟨⟨shipped, 0, rfl⟩, rfl⟩) confirmedAndOffered (by decide +kernel))

/-! ## Nothing unconfirmed is written -/

/-- An OFFER is waiting to be taken up: some entry's leased address was put there by one,
    and its client has not been told it may use it. -/
def Told.Waiting (s : System) (g : Told) : Prop :=
  ∃ i, s.srv.live i ∧ (s.srv.leases i).ip ≠ 0 ∧ g.offered (s.srv.leases i).mac = true

instance (s : System) (g : Told) : Decidable (Told.Waiting s g) :=
  inferInstanceAs (Decidable (∃ _, _))

/-- What this step writes has only leased addresses their clients were told they may use. -/
def Told.WritesAcked (s : System) (g : Told) (e : Event) : Prop :=
  ∀ blob, s.written e = some blob → ∀ t ∈ flashRecords (some blob), t.ip ≠ 0 →
    g.acked t.mac t.ip = true

/-- Every leased address in the table that was not only offered, and every one in flash, is
    one its client was told it may use. -/
structure Told.AckedOnly (s : System) (g : Told) : Prop where
  inv : s.Inv
  table : ∀ i, s.srv.live i → (s.srv.leases i).ip ≠ 0 →
    g.offered (s.srv.leases i).mac = false →
    g.acked (s.srv.leases i).mac (s.srv.leases i).ip = true
  flash : ∀ t ∈ flashRecords s.flash, t.ip ≠ 0 → g.acked t.mac t.ip = true

theorem Told.AckedOnly.saved (h : Told.AckedOnly s g) (hno : ¬ Told.Waiting s g) :
    ∀ t ∈ savedRecords s.srv, t.ip ≠ 0 → g.acked t.mac t.ip = true := by
  intro t ht h0
  obtain ⟨i, hi, rfl⟩ := mem_savedRecords.mp ht
  have hlive := (storable_iff.mp hi).1
  refine h.table i hlive h0 ?_
  by_contra ho
  exact hno ⟨i, hlive, h0, by simpa using ho⟩

/-- An event that sends nothing leaves every entry the leased address it had, or none. -/
theorem Told.AckedOnly.quiet (h : Told.AckedOnly s g) (ho : s.outs e = [])
    (hb : e.isReboot = false)
    (hent : ∀ i, (s.step e).srv.live i → ((s.step e).srv.leases i).ip ≠ 0 →
      s.srv.live i ∧ ((s.step e).srv.leases i).mac = (s.srv.leases i).mac ∧
        ((s.step e).srv.leases i).ip = (s.srv.leases i).ip)
    (hflash : ∀ t ∈ flashRecords (s.step e).flash, t.ip ≠ 0 → g.acked t.mac t.ip = true) :
    Told.AckedOnly (s.step e) (Told.next s e g) where
  inv := h.inv.step
  table i hi h0 hoff := by
    obtain ⟨hlive, hmac, hip⟩ := hent i hi h0
    have hoff := (Told.next_quiet ho hb).mp hoff
    rw [hmac] at hoff
    rw [hip] at h0
    rw [Told.next_acked, hmac, hip]
    exact .inl (h.table i hlive h0 hoff)
  flash t ht h0 := Told.next_acked.mpr (.inl (hflash t ht h0))

theorem Told.AckedOnly.handled (h : Told.AckedOnly s g) (he : e = .recv env m len)
    (hq : readRequest m len = some q)
    (hh : Handled s.srv env m q (s.step e).srv (s.outs e)) :
    Told.AckedOnly (s.step e) (Told.next s e g) := by
  have hboot : e.isReboot = false := by rw [he]; rfl
  have hflash : (s.step e).flash = s.flash := by rw [he]; rfl
  refine ⟨h.inv.step, fun j hj h0 hno => ?_, fun t ht h0 => ?_⟩
  · rw [Told.next_offered, hboot, System.acks, System.offers] at hno
    rw [Told.next_acked, System.acks]
    cases hh.recorded h.inv.table hq hj with
    | kept hlive hsame hacks _ =>
      obtain ⟨hmac, hip, -⟩ := hsame
      rcases hno with hb | hack | ⟨hg, -⟩
      · exact absurd hb (by simp)
      · obtain ⟨p, hp, hpm⟩ := List.mem_map.mp hack
        exact absurd hpm (hacks p hp)
      · rw [hip] at h0
        rw [hmac] at hg
        rw [hmac, hip]
        exact .inl (h.table j hlive h0 hg)
    | acked hacks _ =>
      rw [hacks]
      exact .inr (List.mem_singleton_self _)
    | offered hacks hoffers _ =>
      rw [hacks, hoffers] at hno
      rcases hno with hb | hack | ⟨hg, hold⟩
      · exact absurd hb (by simp)
      · exact absurd hack (by simp)
      · -- offered the address its entry already had
        obtain ⟨i, hi, hip⟩ := Server.leasedTo_some (hold _ (List.mem_singleton_self _) rfl)
        obtain ⟨hil, him⟩ := findByMacLocked_some hi
        have hack := h.table i hil (hip ▸ h0) (him ▸ hg)
        rw [him, hip] at hack
        exact .inl hack
  · rw [hflash] at ht
    exact Told.next_acked.mpr (.inl (h.flash t ht h0))

theorem Told.AckedOnly.boot {cfg : Config} (h : Told.AckedOnly s g) :
    Told.AckedOnly (s.step (.reboot now cfg)) (Told.next s (.reboot now cfg) g) := by
  refine ⟨h.inv.step, fun i hi h0 _ => ?_, fun t ht h0 =>
    Told.next_acked.mpr (.inl (h.flash t ht h0))⟩
  have hsrv : (s.step (.reboot now cfg)).srv = bootServer cfg s.flash now := rfl
  rw [hsrv] at hi h0 ⊢
  obtain ⟨hdr, recs, t, hp, -, ht, hl⟩ := bootServer_live hi
  rw [hl] at h0 ⊢
  have hmem : t ∈ flashRecords s.flash := by rwa [flashRecords_some hp]
  exact Told.next_acked.mpr (.inl (h.flash t hmem h0))

theorem Told.AckedOnly.step (h : Told.AckedOnly s g)
    (hno : ¬ ((s.written e).isSome = true ∧ Told.Waiting s g)) :
    Told.WritesAcked s g e ∧ Told.AckedOnly (s.step e) (Told.next s e g) := by
  have hwrites : Told.WritesAcked s g e := by
    intro blob hw
    rw [System.written_eq hw, flashRecords_saveBlob]
    exact h.saved fun hwait => hno ⟨by simp [hw], hwait⟩
  refine ⟨hwrites, ?_⟩
  cases e with
  | recv env m len =>
    rcases s.recv_cases env m len with ⟨hsrv, houts⟩ | ⟨q, hq, hh⟩
    · refine h.quiet houts rfl (fun i hi _ => ?_) h.flash
      rw [hsrv] at hi ⊢
      exact ⟨hi, rfl, rfl⟩
    · exact h.handled rfl hq hh
  | noteObserved now mac ip =>
    refine h.quiet rfl rfl (fun i hi h0 => ?_) h.flash
    have hsrv : (s.step (.noteObserved now mac ip)).srv = noteObservedIp s.srv mac ip now := rfl
    rw [hsrv] at hi h0 ⊢
    rcases noteObservedIp_origin h.inv.table.mac hi with ⟨hlive, heq, -⟩ |
      ⟨l, ⟨hlive, rfl⟩ | rfl, heq⟩
    · rw [heq]
      exact ⟨hlive, rfl, rfl⟩
    · rw [heq]
      exact ⟨hlive, rfl, rfl⟩
    · rw [heq] at h0
      exact absurd rfl h0
  | setQuarantined now macs =>
    refine h.quiet rfl rfl (fun i hi _ => ?_) h.flash
    have hsrv : (s.step (.setQuarantined now macs)).srv = setQuarantined s.srv macs now := rfl
    rw [hsrv, Server.live, setQuarantined_leases] at hi
    rw [hsrv, setQuarantined_leases]
    exact ⟨hi, rfl, rfl⟩
  | poll now nvs =>
    refine h.quiet rfl rfl (fun i hi _ => ?_) fun t ht h0 => ?_
    · rw [System.step_poll_srv] at hi ⊢
      split at hi
      · rename_i hsave
        obtain ⟨huse, hmac, hip, -⟩ := markSaved_fields s.srv i
        rw [Server.live, huse] at hi
        rw [if_pos hsave]
        exact ⟨hi, hmac, hip⟩
      · rename_i hsave
        rw [if_neg hsave]
        exact ⟨hi, rfl, rfl⟩
    · rw [System.step_poll_flash] at ht
      cases hw : s.written (.poll now nvs) with
      | some blob =>
        rw [hw, Option.some_or] at ht
        exact hwrites blob hw t ht h0
      | none =>
        rw [hw, Option.none_or] at ht
        exact h.flash t ht h0
  | reboot now cfg => exact h.boot

/-- **A blob has no leased address its client was never told it may use**, in any run over
    any number of boots that writes none while an OFFER is waiting to be taken up. -/
theorem Told.written_was_acked {cfg : Config} {es : List Event}
    (hrun : Lib.Along Told.step
      (fun p e => p.1.ok e ∧ ¬ ((p.1.written e).isSome = true ∧ Told.Waiting p.1 p.2))
      (powerOn cfg none now, Told.start) es) :
    Lib.Along Told.step (fun p e => Told.WritesAcked p.1 p.2 e)
      (powerOn cfg none now, Told.start) es := by
  have hstart : Told.AckedOnly (powerOn cfg none now) Told.start := by
    refine ⟨(System.Reachable.switchedOn cfg now).inv, fun i hi _ => ?_, fun t ht _ => ?_⟩
    · exact absurd hi powerOn_not_live
    · have hnone : flashRecords (powerOn cfg none now).flash = [] := rfl
      rw [hnone] at ht
      exact absurd ht (by simp)
  exact hrun.of_invariant (I := fun p => Told.AckedOnly p.1 p.2) hstart
    fun p e h he => h.step he.2

/-- A client takes up what it was offered before the table is saved; another, offered an
    address after that, has done so by the next save. -/
theorem written_was_acked_taken :
    Lib.Along Told.step (fun p e => Told.WritesAcked p.1 p.2 e)
      (powerOn shipped none 0, Told.start)
      [.sends 10 false dhcpDiscover 1 0, .sends 20 false dhcpRequest 1 (ip4 192 168 5 10),
        .poll 20000000 .ok, .sends 30000000 false dhcpDiscover 2 0,
        .sends 30000001 false dhcpRequest 2 (ip4 192 168 5 11), .poll 50000000 .ok] :=
  Told.written_was_acked (by decide +kernel)

/-- A client is offered 192.168.5.10 and says no more; another is told its address. -/
def offeredAndAcked : List Event :=
  [.sends 10 false dhcpDiscover 1 0, .sends 20 false dhcpRequest 2 (ip4 192 168 5 11)]

/-- The save the second client's ACK brings about writes the first one's OFFER as well. -/
theorem written_not_acked : ¬ ∀ (cfg : Config) (now : Nat) (es : List Event),
    Lib.Along Told.step (fun p e => p.1.ok e) (powerOn cfg none now, Told.start) es →
      Lib.Along Told.step (fun p e => Told.WritesAcked p.1 p.2 e)
        (powerOn cfg none now, Told.start) es := by
  intro hall
  have hrun := hall shipped 0 (offeredAndAcked ++ [.poll 20000000 .ok]) (by decide +kernel)
  have hlast := (Lib.along_append.mp hrun).2.1
  let p := offeredAndAcked.foldl Told.step (powerOn shipped none 0, Told.start)
  have hwritten : p.1.written (.poll 20000000 .ok) = some (saveBlob p.1.srv) := by
    decide +kernel
  have hmem : (⟨1, ip4 192 168 5 10, 0, 1⟩ : StoredLease) ∈ savedRecords p.1.srv := by
    decide +kernel
  have hacked := hlast _ hwritten _ (by rw [flashRecords_saveBlob]; exact hmem) (by decide)
  exact absurd hacked (by decide +kernel)

end

end Dhcp
end Wt32Router
