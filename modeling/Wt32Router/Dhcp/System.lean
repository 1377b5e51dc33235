import Wt32Router.Lib.Runs
import Wt32Router.Dhcp.Handle
import Wt32Router.Dhcp.Persist
import Wt32Router.Dhcp.Api

/-!
# The server as a machine

Everything that ever changes the server's state, as one deterministic machine: a datagram
is received, `client_track.c` notes an address or pushes the cut-off set, the task loop
polls the save debounce, the device restarts. The state is the server, what NVS holds, and
the time of the last event; a run's times never go back (`System.ok`) until it restarts.

What happens in a step besides the change of state is a function of the state before it:
`System.outs` is what was sent, `System.written` the blob a save left in flash.
-/

namespace Wt32Router
namespace Dhcp

/-- The server, the blob under its NVS key, and the time of the last event. -/
structure System where
  srv : Server
  flash : Option (List UInt8)
  clock : Nat

inductive Event where
  /-- the task received a datagram of `len` bytes -/
  | recv (env : Env) (m : DhcpMsg) (len : Nat)
  /-- `dhcp_server_note_observed_ip` -/
  | noteObserved (now : Nat) (mac : Mac) (ip : Ip)
  /-- `dhcp_server_set_quarantined` -/
  | setQuarantined (now : Nat) (macs : List Mac)
  /-- the save check at the end of the task's loop -/
  | poll (now : Nat) (nvs : NvsResult)
  /-- power lost at any point, and `dhcp_server_start` on the next boot -/
  | reboot (now : Nat) (cfg : Config)

/-- When an event happens, on the clock of its boot. -/
def Event.time : Event → Nat
  | .recv env _ _ => env.now
  | .noteObserved now _ _ => now
  | .setQuarantined now _ => now
  | .poll now _ => now
  | .reboot now _ => now

def Event.isReboot : Event → Bool
  | .reboot .. => true
  | _ => false

/-- The request an event carries, if it is a datagram `handle_message` does not drop
    before its `switch`. -/
def Event.request? : Event → Option Request
  | .recv _ m len => readRequest m len
  | _ => none

/-- A client's message arriving on a wired or a wireless port. -/
def Event.sends (now : Nat) (wired : Bool) (type : UInt8) (mac : Mac) (requested : Ip)
    (serverId : Ip := 0) : Event :=
  .recv { now := now, wired := wired } (clientMsg type mac requested serverId) dhcpMinReply

/-- Whether the debounce lets the task loop save now. -/
def saveDue (st : Server) (now : Nat) : Bool :=
  st.dirty && decide (saveDebounceUs < now - st.dirtySinceUs)

/-- A boot with this much in flash. -/
def powerOn (cfg : Config) (flash : Option (List UInt8)) (now : Nat) : System :=
  ⟨bootServer cfg flash now, flash, now⟩

def System.step (s : System) : Event → System
  | .recv env m len => { s with srv := (handleMessage s.srv env m len).1, clock := env.now }
  | .noteObserved now mac ip => { s with srv := noteObservedIp s.srv mac ip now, clock := now }
  | .setQuarantined now macs => { s with srv := setQuarantined s.srv macs now, clock := now }
  | .poll now nvs =>
    if saveDue s.srv now then
      let r := saveToNvsLocked s.srv s.flash nvs
      ⟨r.1, r.2, now⟩
    else { s with clock := now }
  | .reboot now cfg => powerOn cfg s.flash now

def System.outs (s : System) : Event → List Out
  | .recv env m len => (handleMessage s.srv env m len).2
  | _ => []

/-- The blob a step leaves in flash, if it writes one. -/
def System.written (s : System) : Event → Option (List UInt8)
  | .poll now nvs => if saveDue s.srv now && nvs.stored then some (saveBlob s.srv) else none
  | _ => none

/-- Time does not go back within a boot. -/
def System.ok (s : System) (e : Event) : Prop := e.isReboot = false → s.clock ≤ e.time

instance (s : System) (e : Event) : Decidable (s.ok e) :=
  inferInstanceAs (Decidable (_ → _))

/-- A device as it is first switched on: any configuration, nothing in flash. -/
def System.init (s : System) : Prop := ∃ cfg now, s = powerOn cfg none now

/-- A state of some run, over any number of boots. -/
abbrev System.Reachable (s : System) : Prop := Lib.Reachable System.step System.init System.ok s

/-- **The message rule**: a datagram changes and sends nothing, or what the request that was
    read out of it can. -/
theorem System.recv_cases (s : System) (env : Env) (m : DhcpMsg) (len : Nat) :
    ((s.step (.recv env m len)).srv = s.srv ∧ s.outs (.recv env m len) = []) ∨
      ∃ q, readRequest m len = some q ∧
        Handled s.srv env m q (s.step (.recv env m len)).srv (s.outs (.recv env m len)) :=
  handleMessage_cases rfl

theorem System.step_poll_srv (s : System) (now : Nat) (nvs : NvsResult) :
    (s.step (.poll now nvs)).srv =
      if saveDue s.srv now = true ∧ nvs = .ok then markSaved s.srv else s.srv := by
  simp only [System.step, saveToNvsLocked]
  split_ifs <;> simp_all

/-- **The save rule**: what is true of the server before the check and as saved is true of
    it after. -/
theorem System.poll_srv {P : Server → Prop} {s : System} (now : Nat) (nvs : NvsResult)
    (h : P s.srv) (hsaved : P (markSaved s.srv)) : P (s.step (.poll now nvs)).srv := by
  rw [System.step_poll_srv]
  split
  · exact hsaved
  · exact h

/-- What it leaves in flash: what it wrote, or what was there. -/
theorem System.step_poll_flash (s : System) (now : Nat) (nvs : NvsResult) :
    (s.step (.poll now nvs)).flash = (s.written (.poll now nvs)).or s.flash := by
  simp only [System.step, System.written, saveToNvsLocked]
  split_ifs <;> simp_all

theorem System.written_eq {s : System} {e : Event} {blob : List UInt8}
    (h : s.written e = some blob) : blob = saveBlob s.srv := by
  cases e with
  | poll now nvs =>
    simp only [System.written] at h
    split at h
    · exact (Option.some.inj h).symm
    · exact absurd h (by simp)
  | _ => exact absurd h (by simp [System.written])

theorem System.Reachable.switchedOn (cfg : Config) (now : Nat) :
    (powerOn cfg none now).Reachable := .init ⟨cfg, now, rfl⟩

theorem powerOn_not_live {cfg : Config} {now : Nat} {i : Slot} :
    ¬ (powerOn cfg none now).srv.live i := by
  intro hi
  have hi : (bootServer cfg none now).live i := hi
  obtain ⟨hdr, recs, s, hp, -⟩ := bootServer_live hi
  exact absurd hp (by simp)

@[simp] theorem System.step_clock (s : System) (e : Event) : (s.step e).clock = e.time := by
  cases e with
  | poll now nvs => unfold System.step; dsimp only; split <;> rfl
  | _ => rfl

/-! ## What holds of the table in every reachable state -/

/-- The representation invariant of the lease table within a boot. -/
structure TableInv (st : Server) : Prop where
  /-- one entry for a client -/
  mac : MacUnique st.leases
  /-- one entry for a leased address -/
  ip : IpUnique st.leases
  /-- a lease that has not been given back is one this boot granted -/
  seen : ∀ i, st.live i → (st.leases i).expiresUs ≠ 0 → seenThisBoot st (st.leases i) = true

section

variable {st st₁ st' : Server} {mac : Mac} {ip : Ip} {now holdS : Nat} {persist wired : Bool}
  {e i j v : Slot} {requested : Ip} {nvs : NvsResult} {macs : List Mac} {cfg : Config}
  {flash : Option (List UInt8)}

theorem seenThisBoot_iff {l : Lease} : seenThisBoot st l = true ↔ st.bootSeq ≤ l.lastSeenSeq := by
  simp [seenThisBoot]

/-- Any change that leaves every live entry a live entry with the same keys, and not
    newer a lease than it was, keeps the invariant. -/
theorem TableInv.weaken (h : TableInv st) (hseq : st'.bootSeq = st.bootSeq)
    (hw : ∀ j, st'.live j → st.live j ∧ (st.leases j).mac = (st'.leases j).mac ∧
      (st.leases j).ip = (st'.leases j).ip ∧
      ((st'.leases j).expiresUs ≠ 0 → (st.leases j).expiresUs ≠ 0 ∧
        (st'.leases j).lastSeenSeq = (st.leases j).lastSeenSeq)) : TableInv st' where
  mac := h.mac.weaken fun j hj => ⟨(hw j hj).1, (hw j hj).2.1⟩
  ip := h.ip.weaken fun j hj =>
    ⟨⟨(hw j hj.1).1, (hw j hj.1).2.2.1 ▸ hj.2⟩, (hw j hj.1).2.2.1⟩
  seen i hi hx := by
    obtain ⟨hlive, -, -, hexp⟩ := hw i hi
    obtain ⟨hx', hseen⟩ := hexp hx
    have hs := seenThisBoot_iff.mp (h.seen i hlive hx')
    exact seenThisBoot_iff.mpr (by rw [hseq, hseen]; exact hs)

theorem TableInv.dropLease (h : TableInv st) : TableInv (st.dropLease v) :=
  h.weaken rfl fun j hj => by
    obtain ⟨-, heq⟩ := st.dropLease_live v j hj
    rw [Server.live, heq] at hj
    rw [heq]
    exact ⟨hj, rfl, rfl, fun hx => ⟨hx, rfl⟩⟩

theorem TableInv.markDirty (h : TableInv st) : TableInv (st.markDirty now) :=
  h.weaken (by simp) fun j hj => by
    rw [Server.live, Server.markDirty_leases] at hj
    rw [Server.markDirty_leases]
    exact ⟨hj, rfl, rfl, fun hx => ⟨hx, rfl⟩⟩

theorem TableInv.reclaim (h : TableInv st) : TableInv (reclaimLocked st v now) := by
  unfold reclaimLocked
  dsimp only
  split
  · exact h.dropLease.markDirty
  · exact h.dropLease

theorem TableInv.select (h : TableInv st)
    (hs : selectAddressLocked st mac requested wired now = (st₁, ip)) : TableInv st₁ := by
  rcases selectAddressLocked_cases hs with ⟨rfl, -⟩ | ⟨r, -, hsel⟩
  · exact h
  · cases hsel with
    | own _ => exact h
    | asked _ => exact h
    | free _ _ => exact h
    | reclaimed _ => exact h.reclaim

theorem SlotFor.macUnique (hs : SlotFor st mac now st₁ e) (hu : MacUnique st.leases)
    {t' : Slot → Lease} (he : (t' e).mac = mac)
    (hother : ∀ j, j ≠ e → (t' j).inUse = true → t' j = st.leases j) : MacUnique t' := by
  refine Lib.KeyUnique.write hu e (fun j hj hlive => ?_) (fun _ j hj hlive => ?_)
  · have heq := hother j hj hlive
    rw [heq] at hlive
    exact ⟨hlive, by rw [heq]⟩
  · have heq := hother j hj hlive
    rw [heq] at hlive
    rw [he, heq]
    exact hs.other_mac hu hj hlive

theorem SlotFor.ipUnique (hs : SlotFor st mac now st₁ e) (hu : IpUnique st.leases) :
    IpUnique st₁.leases := by
  rcases hs.own_or_fresh with ⟨-, rfl⟩ | ⟨-, hfresh⟩
  · exact hu
  · refine Lib.KeyUnique.write hu e (fun j hj hlive => ?_) (fun hlive => ?_)
    · rw [hs.other hj] at hlive ⊢
      exact ⟨hlive, rfl⟩
    · rw [hfresh] at hlive
      exact absurd rfl hlive.2

/-- Every other slot after a commit: as it was before the slot was found, or gone. -/
theorem SlotFor.commit_other (hs : SlotFor st mac now st₁ e) (hj : j ≠ e)
    (hlive : (commitAt st₁ e ip holdS persist now).live j) :
    (commitAt st₁ e ip holdS persist now).leases j = st.leases j := by
  rw [Server.live, commitAt_other ip holdS persist now hj] at hlive
  rw [commitAt_other ip holdS persist now hj]
  rcases clearClash_other st₁ e ip now j with hsame | ⟨-, hdrop⟩
  · rw [hsame, hs.other hj]
  · rw [hdrop] at hlive
    exact absurd hlive (by simp)

theorem TableInv.commitAt (h : TableInv st) (hs : SlotFor st mac now st₁ e) (hip : ip ≠ 0) :
    TableInv (commitAt st₁ e ip holdS persist now) where
  mac := hs.macUnique h.mac (by rw [commitAt_same]; exact hs.live_mac.2)
    fun j hj hlive => hs.commit_other hj hlive
  ip := by
    refine Lib.KeyUnique.write h.ip e (fun j hj hlive => ?_) (fun _ j hj hlive => ?_)
    · have heq := hs.commit_other hj hlive.1
      rw [heq] at hlive ⊢
      exact ⟨hlive, rfl⟩
    · have hlive' : (clearClash st₁ e ip now).live j := by
        rw [Server.live, ← commitAt_other ip holdS persist now hj]
        exact hlive.1
      obtain ⟨hsame, hne⟩ := clearClash_cleared (hs.ipUnique h.ip) hip hj hlive'
      rw [commitAt_same, commitAt_other ip holdS persist now hj, hsame]
      exact hne
  seen i hi hx := by
    rw [seenThisBoot_iff, commitAt_bootSeq]
    by_cases hie : i = e
    · subst hie
      rw [commitAt_same]
      exact BitVec.le_refl _
    · have heq := hs.commit_other hie hi
      rw [Server.live, heq] at hi
      rw [heq] at hx ⊢
      rw [hs.bootSeq_eq]
      exact seenThisBoot_iff.mp (h.seen i hi hx)

theorem TableInv.commit (h : TableInv st) (mac : Mac) (holdS : Nat) (persist : Bool) (now : Nat)
    (hip : ip ≠ 0) : TableInv (commitLeaseLocked st mac ip holdS persist now).1 := by
  cases hc : commitLeaseLocked st mac ip holdS persist now with
  | mk st' ok =>
    rcases commitLeaseLocked_cases hc with ⟨-, rfl, -⟩ | ⟨st₁, e, -, -, hs, rfl⟩
    · exact h
    · exact h.commitAt hs hip

theorem TableInv.decline (h : TableInv st) : TableInv (declineIp st ip) :=
  h.weaken (by simp) fun j hj => by
    rw [Server.live, declineIp_leases] at hj
    rw [declineIp_leases]
    exact ⟨hj, rfl, rfl, fun hx => ⟨hx, rfl⟩⟩

theorem TableInv.release (h : TableInv st) (seq : BitVec 32) :
    TableInv (st.setLease i { st.leases i with expiresUs := 0, lastSeenSeq := seq }) :=
  h.weaken rfl fun j hj => by
    by_cases hji : j = i
    · subst hji
      rw [Server.live, Server.setLease_same] at hj
      rw [Server.setLease_same]
      exact ⟨hj, rfl, rfl, fun hx => absurd rfl hx⟩
    · rw [Server.live, Server.setLease_ne _ _ _ _ hji] at hj
      rw [Server.setLease_ne _ _ _ _ hji]
      exact ⟨hj, rfl, rfl, fun hx => ⟨hx, rfl⟩⟩

theorem TableInv.handled {env : Env} {m : DhcpMsg} {q : Request} {outs : List Out}
    (h : TableInv st) (hh : Handled st env m q st' outs) : TableInv st' := by
  cases hh with
  | ignored _ => exact h
  | offered _ hs h0 => exact (h.select hs).commit _ _ _ _ h0
  | acked _ _ hs h0 _ => exact (h.select hs).commit _ _ _ _ h0
  | naked _ _ hs _ => exact h.select hs
  | elsewhere _ _ _ _ => exact h.dropLease
  | declined _ _ heq =>
    subst heq
    split
    · exact h.decline.dropLease.markDirty
    · exact h.decline.dropLease
  | declinedUnknown _ _ => exact h.decline
  | released _ _ => exact h.release _

theorem TableInv.message {env : Env} {m : DhcpMsg} {len : Nat} (h : TableInv st) :
    TableInv (handleMessage st env m len).1 := by
  cases hm : handleMessage st env m len with
  | mk st' outs =>
    rcases handleMessage_cases hm with ⟨rfl, -⟩ | ⟨q, -, hh⟩
    · exact h
    · exact h.handled hh

theorem TableInv.note (h : TableInv st) : TableInv (noteObservedIp st mac ip now) := by
  rcases noteObservedIp_cases st mac ip now with ⟨heq, -⟩ | ⟨st₁, e, -, -, hs, heq⟩
  · rw [heq]; exact h
  · rw [heq]
    have hother : ∀ j, j ≠ e → (noteAt st₁ e ip now).leases j = st.leases j := fun j hj => by
      rw [noteAt_other hj, hs.other hj]
    refine ⟨hs.macUnique h.mac (by rw [noteAt_same]; exact hs.live_mac.2)
      fun j hj _ => hother j hj, ?_, fun i hi hx => ?_⟩
    · refine (hs.ipUnique h.ip).weaken fun j hlive => ?_
      by_cases hje : j = e
      · subst hje
        rw [noteAt_same] at hlive ⊢
        exact ⟨hlive, rfl⟩
      · rw [noteAt_other hje] at hlive ⊢
        exact ⟨hlive, rfl⟩
    · rw [seenThisBoot_iff, noteAt_bootSeq]
      by_cases hie : i = e
      · subst hie
        rw [noteAt_same]
        exact BitVec.le_refl _
      · rw [Server.live, hother i hie] at hi
        rw [hother i hie] at hx ⊢
        rw [hs.bootSeq_eq]
        exact seenThisBoot_iff.mp (h.seen i hi hx)

theorem TableInv.quarantine (h : TableInv st) : TableInv (setQuarantined st macs now) :=
  h.weaken (by simp) fun j hj => by
    rw [Server.live, setQuarantined_leases] at hj
    rw [setQuarantined_leases]
    exact ⟨hj, rfl, rfl, fun hx => ⟨hx, rfl⟩⟩

theorem TableInv.saved (h : TableInv st) : TableInv (markSaved st) := by
  refine h.weaken rfl fun j hj => ?_
  obtain ⟨huse, hmac, hip, -, hexp, hseen, -⟩ := markSaved_fields st j
  rw [Server.live, huse] at hj
  exact ⟨hj, hmac.symm, hip.symm, fun hx => ⟨hexp ▸ hx, hseen⟩⟩

theorem TableInv.boot (h : FlashOk flash) : TableInv (bootServer cfg flash now) :=
  ⟨(bootServer_unique h).1, (bootServer_unique h).2,
    fun i _ hx => absurd (bootServer_expired flash i).1 hx⟩

end

/-- The invariant of the machine: a well-formed table, and in flash nothing but what a
    well-formed table was saved as. -/
structure System.Inv (s : System) : Prop where
  table : TableInv s.srv
  flash : FlashOk s.flash

theorem System.Inv.powerOn {cfg : Config} {flash : Option (List UInt8)} {now : Nat}
    (h : FlashOk flash) : (powerOn cfg flash now).Inv := ⟨TableInv.boot h, h⟩

theorem System.Inv.step {s : System} {e : Event} (h : s.Inv) : (s.step e).Inv := by
  cases e with
  | recv env m len => exact ⟨h.table.message, h.flash⟩
  | noteObserved now mac ip => exact ⟨h.table.note, h.flash⟩
  | setQuarantined now macs => exact ⟨h.table.quarantine, h.flash⟩
  | poll now nvs =>
    refine ⟨System.poll_srv now nvs h.table h.table.saved, ?_⟩
    rw [System.step_poll_flash]
    cases hw : s.written (.poll now nvs) with
    | none => exact h.flash
    | some blob =>
      intro buf hbuf
      rw [Option.some_or, Option.some.injEq, System.written_eq hw] at hbuf
      exact ⟨_, _, hbuf.symm, savedRecords_ok h.table.mac h.table.ip⟩
  | reboot now cfg => exact .powerOn h.flash

/-- **Every reachable state is well formed**, whatever happened on the way. -/
theorem System.Reachable.inv {s : System} (h : s.Reachable) : s.Inv :=
  h.invariant
    (fun _ ⟨_, _, hs⟩ => hs ▸ .powerOn (fun _ hbuf => absurd hbuf (by simp)))
    (fun _ _ hI _ => hI.step)

end Dhcp
end Wt32Router
