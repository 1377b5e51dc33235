import Wt32Router.Dhcp.Message

/-!
# `handle_message`

One branch per message type. The state the branches share is the lease table under the
mutex; what they read from elsewhere is gathered in `Env`.

`handleMessage_cases` is the inversion lemma: whatever a message does, it is one of the
eight things `Handled` lists, and each carries what was checked on the way. Every
property of a run is proved from it.
-/

namespace Wt32Router
namespace Dhcp

/-- What `handle_message` reads from outside the file: the clock, the port the message
    came in on (`client_track_mac_on_wired_port`), and the WAN's answers, asked once for
    the lease and once more when the options are written. -/
structure Env where
  now : Nat
  wired : Bool
  wanEnabled : Bool := false
  wanDns : Ip := 0
  replyDns : Ip := 0

/-- `lease_time_s`. -/
def leaseTimeSFor (env : Env) : Nat :=
  if env.wanEnabled && env.wanDns == 0 then leaseTimeNoDnsS else leaseTimeS

/-- What a message makes the server send: a reply on the socket, or the event
    `post_assigned_event` raises for `client_track.c`. -/
inductive Out where
  | reply (r : Reply)
  | assigned (mac : Mac) (ip : Ip) (hostname : List UInt8)
deriving DecidableEq

def handleDiscover (st : Server) (env : Env) (m : DhcpMsg) (q : Request) : Server × List Out :=
  let (st, ip) := selectAddressLocked st q.mac q.requested env.wired env.now
  if ip = 0 then (st, [])
  else
    ((commitLeaseLocked st q.mac ip offerHoldS false env.now).1,
      [.reply (sendReply st.cfg env.replyDns m dhcpOffer ip (leaseTimeSFor env))])

def handleRequest (st : Server) (env : Env) (m : DhcpMsg) (q : Request) : Server × List Out :=
  if q.serverId ≠ 0 ∧ q.serverId ≠ st.cfg.serverIp then
    match findByMacLocked st q.mac with
    | some i => if (st.leases i).expiresUs ≠ 0 then (st.dropLease i, []) else (st, [])
    | none => (st, [])
  else
    let (st, ip) := selectAddressLocked st q.mac q.requested env.wired env.now
    if ip ≠ 0 ∧ (q.requested = 0 ∨ q.requested = ip) then
      ((commitLeaseLocked st q.mac ip (leaseTimeSFor env) true env.now).1,
        [.reply (sendReply st.cfg env.replyDns m dhcpAck ip (leaseTimeSFor env)),
          .assigned q.mac ip q.hostname])
    else (st, [.reply (sendReply st.cfg env.replyDns m dhcpNak 0 0)])

/-- Adds an address to the declined list if there is room and it is not there yet. -/
def declineIp (st : Server) (bad : Ip) : Server :=
  if bad ≠ 0 ∧ ipDeclined st bad = false ∧ st.declined.length < maxDeclined then
    { st with declined := st.declined ++ [bad] }
  else st

def handleDecline (st : Server) (env : Env) (q : Request) : Server × List Out :=
  match findByMacLocked st q.mac with
  | some i =>
    let st := declineIp st (st.leases i).ip
    (if (st.leases i).savedIp ≠ 0 then (st.dropLease i).markDirty env.now else st.dropLease i, [])
  | none => (declineIp st q.requested, [])

/-- DHCPRELEASE: expired, and one generation back. -/
def handleRelease (st : Server) (q : Request) : Server × List Out :=
  match findByMacLocked st q.mac with
  | some i =>
    (st.setLease i { st.leases i with
      expiresUs := 0
      lastSeenSeq := if 0 < st.bootSeq then st.bootSeq - 1 else (st.leases i).lastSeenSeq }, [])
  | none => (st, [])

def handleInform (st : Server) (env : Env) (m : DhcpMsg) : Server × List Out :=
  if m.ciaddr ≠ 0 then (st, [.reply (sendReply st.cfg env.replyDns m dhcpAck 0 0)])
  else (st, [])

def handleMessage (st : Server) (env : Env) (m : DhcpMsg) (len : Nat) : Server × List Out :=
  match readRequest m len with
  | none => (st, [])
  | some q =>
    if q.type = dhcpDiscover then handleDiscover st env m q
    else if q.type = dhcpRequest then handleRequest st env m q
    else if q.type = dhcpDecline then handleDecline st env q
    else if q.type = dhcpRelease then handleRelease st q
    else if q.type = dhcpInform then handleInform st env m
    else (st, [])

/-- An output is an OFFER or ACK carrying an address to a MAC. -/
def Out.Carries (o : Out) (mac : Mac) (ip : Ip) : Prop :=
  match o with
  | .reply r => (r.type = dhcpOffer ∨ r.type = dhcpAck) ∧ r.chaddr = mac ∧ r.yiaddr = ip
  | .assigned .. => False

/-- An output is the ACK of an address to a MAC, with a lease of so many seconds. -/
def Out.Acks (o : Out) (mac : Mac) (ip : Ip) (leaseS : Nat) : Prop :=
  match o with
  | .reply r => r.type = dhcpAck ∧ r.chaddr = mac ∧ r.yiaddr = ip ∧ r.leaseS = leaseS
  | .assigned .. => False

instance (o : Out) (mac : Mac) (ip : Ip) : Decidable (o.Carries mac ip) := by
  cases o <;> unfold Out.Carries <;> infer_instance

instance (o : Out) (mac : Mac) (ip : Ip) (l : Nat) : Decidable (o.Acks mac ip l) := by
  cases o <;> unfold Out.Acks <;> infer_instance

/-! ## What a message can have done -/

/-- A message is addressed to this server: it names no server, or this one. -/
def Request.ForUs (q : Request) (st : Server) : Prop :=
  q.serverId = 0 ∨ q.serverId = st.cfg.serverIp

instance (q : Request) (st : Server) : Decidable (q.ForUs st) :=
  inferInstanceAs (Decidable (_ ∨ _))

/-- A message that asks this server for an address: a DISCOVER, or a REQUEST that is not
    another server's. -/
def Request.Asks (q : Request) (st : Server) : Prop :=
  q.type = dhcpDiscover ∨ (q.type = dhcpRequest ∧ q.ForUs st)

instance (q : Request) (st : Server) : Decidable (q.Asks st) :=
  inferInstanceAs (Decidable (_ ∨ _))

/-- The eight outcomes of a message, with the request that was read out of it. -/
inductive Handled (st : Server) (env : Env) (m : DhcpMsg) (q : Request) : Server → List Out → Prop
  /-- nothing changes, and nothing is sent but an INFORM's ACK, which carries no address -/
  | ignored {outs : List Out} :
      (∀ o ∈ outs, o = .reply (sendReply st.cfg env.replyDns m dhcpAck 0 0)) →
      Handled st env m q st outs
  /-- an OFFER -/
  | offered {st₁ : Server} {ip : Ip} : q.type = dhcpDiscover →
      selectAddressLocked st q.mac q.requested env.wired env.now = (st₁, ip) → ip ≠ 0 →
      Handled st env m q (commitLeaseLocked st₁ q.mac ip offerHoldS false env.now).1
        [.reply (sendReply st₁.cfg env.replyDns m dhcpOffer ip (leaseTimeSFor env))]
  /-- an ACK -/
  | acked {st₁ : Server} {ip : Ip} : q.type = dhcpRequest → q.ForUs st →
      selectAddressLocked st q.mac q.requested env.wired env.now = (st₁, ip) → ip ≠ 0 →
      (q.requested = 0 ∨ q.requested = ip) →
      Handled st env m q (commitLeaseLocked st₁ q.mac ip (leaseTimeSFor env) true env.now).1
        [.reply (sendReply st₁.cfg env.replyDns m dhcpAck ip (leaseTimeSFor env)),
          .assigned q.mac ip q.hostname]
  /-- a NAK, after the allocator has run -/
  | naked {st₁ : Server} {ip : Ip} : q.type = dhcpRequest → q.ForUs st →
      selectAddressLocked st q.mac q.requested env.wired env.now = (st₁, ip) →
      (ip = 0 ∨ q.requested ≠ 0 ∧ q.requested ≠ ip) →
      Handled st env m q st₁ [.reply (sendReply st₁.cfg env.replyDns m dhcpNak 0 0)]
  /-- a REQUEST for another server drops what was held -/
  | elsewhere {i : Slot} : q.type = dhcpRequest → ¬ q.ForUs st →
      findByMacLocked st q.mac = some i → (st.leases i).expiresUs ≠ 0 →
      Handled st env m q (st.dropLease i) []
  /-- a DECLINE from a client with an entry -/
  | declined {i : Slot} {st' : Server} : q.type = dhcpDecline →
      findByMacLocked st q.mac = some i →
      st' = declineIp st (st.leases i).ip →
      Handled st env m q
        (if (st.leases i).savedIp ≠ 0 then (st'.dropLease i).markDirty env.now
          else st'.dropLease i) []
  /-- a DECLINE from one without -/
  | declinedUnknown : q.type = dhcpDecline → findByMacLocked st q.mac = none →
      Handled st env m q (declineIp st q.requested) []
  /-- a RELEASE -/
  | released {i : Slot} : q.type = dhcpRelease → findByMacLocked st q.mac = some i →
      Handled st env m q (st.setLease i { st.leases i with
        expiresUs := 0
        lastSeenSeq := if 0 < st.bootSeq then st.bootSeq - 1
          else (st.leases i).lastSeenSeq }) []

section

variable {st st' : Server} {env : Env} {m : DhcpMsg} {q : Request} {len : Nat}
  {outs : List Out} {bad : Ip} {i : Slot}

@[simp] theorem declineIp_leases : (declineIp st bad).leases = st.leases := by
  unfold declineIp; split <;> rfl

@[simp] theorem declineIp_cfg : (declineIp st bad).cfg = st.cfg := by
  unfold declineIp; split <;> rfl

@[simp] theorem declineIp_bootSeq : (declineIp st bad).bootSeq = st.bootSeq := by
  unfold declineIp; split <;> rfl

@[simp] theorem declineIp_dirty : (declineIp st bad).dirty = st.dirty := by
  unfold declineIp; split <;> rfl

theorem declined_leases (h : st' = declineIp st bad) :
    (if (st.leases i).savedIp ≠ 0 then (st'.dropLease i).markDirty env.now
      else st'.dropLease i).leases = (st.dropLease i).leases := by
  subst h
  split
  · rw [Server.markDirty_leases, Server.dropLease, Server.setLease, declineIp_leases]; rfl
  · rw [Server.dropLease, Server.setLease, declineIp_leases]; rfl

theorem handleDiscover_cases (st : Server) (env : Env) (m : DhcpMsg)
    (ht : q.type = dhcpDiscover) :
    Handled st env m q (handleDiscover st env m q).1 (handleDiscover st env m q).2 := by
  unfold handleDiscover
  cases hs : selectAddressLocked st q.mac q.requested env.wired env.now with
  | mk st₁ ip =>
    dsimp only
    split
    · rename_i h0
      rcases selectAddressLocked_cases hs with ⟨rfl, -⟩ | ⟨r, -, hsel⟩
      · exact .ignored (by simp)
      · exact absurd h0 hsel.ne_zero
    · rename_i h0
      exact .offered ht hs h0

theorem handleRequest_cases (st : Server) (env : Env) (m : DhcpMsg)
    (ht : q.type = dhcpRequest) :
    Handled st env m q (handleRequest st env m q).1 (handleRequest st env m q).2 := by
  unfold handleRequest
  split
  · rename_i hother
    have hfor : ¬ q.ForUs st := by
      rintro (h | h)
      · exact hother.1 h
      · exact hother.2 h
    split
    · rename_i hi
      split
      · rename_i hx
        exact .elsewhere ht hfor hi hx
      · exact .ignored (by simp)
    · exact .ignored (by simp)
  · rename_i hother
    have hfor : q.ForUs st := by
      by_contra hn
      simp only [Request.ForUs, not_or] at hn
      exact hother hn
    cases hs : selectAddressLocked st q.mac q.requested env.wired env.now with
    | mk st₁ ip =>
      dsimp only
      split
      · rename_i hok
        exact .acked ht hfor hs hok.1 hok.2
      · rename_i hok
        refine .naked ht hfor hs ?_
        by_cases h0 : ip = 0
        · exact .inl h0
        · right
          simp only [not_and, not_or] at hok
          exact hok h0

/-- **What a message can have done**: nothing at all, or one of the outcomes of the
    request that was read out of it. -/
theorem handleMessage_cases (h : handleMessage st env m len = (st', outs)) :
    (st' = st ∧ outs = []) ∨
      ∃ q, readRequest m len = some q ∧ Handled st env m q st' outs := by
  unfold handleMessage at h
  cases hq : readRequest m len with
  | none =>
    rw [hq] at h
    simp only [Prod.mk.injEq] at h
    exact .inl ⟨h.1.symm, h.2.symm⟩
  | some q =>
    refine .inr ⟨q, rfl, ?_⟩
    rw [hq] at h
    dsimp only at h
    split at h
    · rename_i ht
      have hc := handleDiscover_cases st env m ht
      rwa [h] at hc
    split at h
    · rename_i ht
      have hc := handleRequest_cases st env m ht
      rwa [h] at hc
    split at h
    · rename_i ht
      unfold handleDecline at h
      split at h <;> simp only [Prod.mk.injEq] at h <;> obtain ⟨rfl, rfl⟩ := h
      · rename_i hi
        simpa using Handled.declined ht hi rfl
      · rename_i hi
        exact .declinedUnknown ht hi
    split at h
    · rename_i ht
      unfold handleRelease at h
      split at h <;> simp only [Prod.mk.injEq] at h <;> obtain ⟨rfl, rfl⟩ := h
      · rename_i hi
        exact .released ht hi
      · exact .ignored (by simp)
    split at h
    · unfold handleInform at h
      split at h <;> simp only [Prod.mk.injEq] at h <;> obtain ⟨rfl, rfl⟩ := h
      · exact .ignored (by simp)
      · exact .ignored (by simp)
    · simp only [Prod.mk.injEq] at h
      obtain ⟨rfl, rfl⟩ := h
      exact .ignored (by simp)

/-- What a message that asks this server leads to, once an address it may be answered with has
    been selected: the address is recorded, and sent. -/
theorem handleMessage_accepted {st₁ : Server} {ip : Ip} (hq : readRequest m len = some q)
    (ha : q.Asks st) (hs : selectAddressLocked st q.mac q.requested env.wired env.now = (st₁, ip))
    (h0 : ip ≠ 0) (hreq : q.type = dhcpDiscover ∨ q.requested = 0 ∨ q.requested = ip) :
    ∃ holdS persist, handleMessage st env m len =
      ((commitLeaseLocked st₁ q.mac ip holdS persist env.now).1,
        if q.type = dhcpDiscover then
          [.reply (sendReply st₁.cfg env.replyDns m dhcpOffer ip (leaseTimeSFor env))]
        else
          [.reply (sendReply st₁.cfg env.replyDns m dhcpAck ip (leaseTimeSFor env)),
            .assigned q.mac ip q.hostname]) := by
  unfold handleMessage
  rw [hq]
  dsimp only
  rcases ha with ht | ⟨ht, hf⟩
  · refine ⟨offerHoldS, false, ?_⟩
    rw [if_pos ht, if_pos ht]
    unfold handleDiscover
    rw [hs]
    dsimp only
    rw [if_neg h0]
  · have hne : q.type ≠ dhcpDiscover := by rw [ht]; decide
    refine ⟨leaseTimeSFor env, true, ?_⟩
    rw [if_neg hne, if_neg hne, if_pos ht]
    unfold handleRequest
    rw [if_neg (by rcases hf with h | h <;> simp [h]), hs]
    dsimp only
    rw [if_pos ⟨h0, hreq.resolve_left hne⟩]

theorem handleMessage_answer {st₁ : Server} {ip : Ip} (hq : readRequest m len = some q)
    (ha : q.Asks st) (hs : selectAddressLocked st q.mac q.requested env.wired env.now = (st₁, ip))
    (h0 : ip ≠ 0) (hreq : q.requested = 0 ∨ q.requested = ip) :
    (handleMessage st env m len).2 =
      if q.type = dhcpDiscover then
        [.reply (sendReply st₁.cfg env.replyDns m dhcpOffer ip (leaseTimeSFor env))]
      else
        [.reply (sendReply st₁.cfg env.replyDns m dhcpAck ip (leaseTimeSFor env)),
          .assigned q.mac ip q.hostname] := by
  obtain ⟨holdS, persist, hans⟩ := handleMessage_accepted hq ha hs h0 (.inr hreq)
  rw [hans]

end

end Dhcp
end Wt32Router
