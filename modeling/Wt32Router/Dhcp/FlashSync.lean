import Wt32Router.Dhcp.Bystander

/-!
# Flash and the table, when the table is clean

`s_dirty` is the table's promise about flash: while it is down, what the last save wrote
is what the table still holds. Keeping it is up to every operation that removes an entry
flash remembers. `reclaim_locked` asks whether flash remembers *either* address of the
entry; the other four places ask less, or do not ask.

The file has one relation between tables, `FlashKept`, that every operation satisfies on
its own (it composes), except in the three branches of `DropsSilently`. With these
excluded the promise holds in every state of every run (`flash_agrees`).
-/

namespace Wt32Router
namespace Dhcp

/-- Flash has a record of this entry, under either of its addresses. -/
def Lease.Remembered (e : Lease) : Prop := e.savedIp ≠ 0 ∨ e.savedObservedIp ≠ 0

instance (e : Lease) : Decidable e.Remembered := inferInstanceAs (Decidable (_ ∨ _))

/-- Every record is the one some entry in use says flash has of it. -/
def Server.Covers (st : Server) (recs : List StoredLease) : Prop :=
  ∀ t ∈ recs, ∃ i, st.live i ∧ (st.leases i).mac = t.mac ∧ (st.leases i).savedIp = t.ip ∧
    (st.leases i).savedObservedIp = t.observedIp

/-- Flash and the table agree, or the table is marked dirty. -/
def System.InSync (s : System) : Prop :=
  s.srv.dirty = false → s.srv.Covers (flashRecords s.flash)

instance (st : Server) (recs : List StoredLease) : Decidable (st.Covers recs) :=
  List.decidableBAll _ _

instance (s : System) : Decidable s.InSync := inferInstanceAs (Decidable (_ → _))

/-- From one table to the next: marked dirty, or clean before, with every entry flash
    remembers still in use and remembered the same. -/
def FlashKept (st st' : Server) : Prop :=
  st'.dirty = false → st.dirty = false ∧ ∀ i, st.live i → (st.leases i).Remembered →
    st'.live i ∧ (st'.leases i).mac = (st.leases i).mac ∧
      (st'.leases i).savedIp = (st.leases i).savedIp ∧
      (st'.leases i).savedObservedIp = (st.leases i).savedObservedIp

/-! ## The branches that drop an entry and say nothing -/

/-- A commit clears the previous holder of the address, which flash remembers by its
    observed address only, and has no other reason to mark the table dirty. -/
def ClearsSilently (st : Server) (mac : Mac) (ip : Ip) (persist : Bool) (now : Nat) : Prop :=
  ∃ p ∈ slotForLocked st mac now, p.1.dirty = false ∧
    (persist = true → (p.1.leases p.2).savedIp = ip) ∧
    ∃ c ∈ findByIpLocked p.1 ip, c ≠ p.2 ∧ (p.1.leases c).savedIp = 0 ∧
      (p.1.leases c).savedObservedIp ≠ 0

/-- An OFFER or ACK is recorded by such a commit. -/
def AnswersSilently (st : Server) (env : Env) (q : Request) : Prop :=
  let res := selectAddressLocked st q.mac q.requested env.wired env.now
  res.2 ≠ 0 ∧ ((q.type = dhcpDiscover ∧ ClearsSilently res.1 q.mac res.2 false env.now) ∨
    (q.type = dhcpRequest ∧ q.ForUs st ∧ (q.requested = 0 ∨ q.requested = res.2) ∧
      ClearsSilently res.1 q.mac res.2 true env.now))

/-- A REQUEST that names another server drops an entry flash remembers. -/
def LeavesSilently (st : Server) (q : Request) : Prop :=
  q.type = dhcpRequest ∧ ¬ q.ForUs st ∧ st.dirty = false ∧
    ∃ i ∈ findByMacLocked st q.mac, (st.leases i).expiresUs ≠ 0 ∧ (st.leases i).Remembered

/-- A DECLINE drops an entry flash remembers by its observed address only. -/
def DeclinesSilently (st : Server) (q : Request) : Prop :=
  q.type = dhcpDecline ∧ st.dirty = false ∧
    ∃ i ∈ findByMacLocked st q.mac, (st.leases i).savedIp = 0 ∧
      (st.leases i).savedObservedIp ≠ 0

/-- The message drops an entry flash remembers and leaves the table marked clean. -/
def DropsSilently (st : Server) (env : Env) (q : Request) : Prop :=
  AnswersSilently st env q ∨ LeavesSilently st q ∨ DeclinesSilently st q

instance (st : Server) (mac : Mac) (ip : Ip) (persist : Bool) (now : Nat) :
    Decidable (ClearsSilently st mac ip persist now) := by
  unfold ClearsSilently; infer_instance

instance (st : Server) (env : Env) (q : Request) : Decidable (AnswersSilently st env q) :=
  inferInstanceAs (Decidable (_ ∧ _))

instance (st : Server) (q : Request) : Decidable (LeavesSilently st q) := by
  unfold LeavesSilently; infer_instance

instance (st : Server) (q : Request) : Decidable (DeclinesSilently st q) := by
  unfold DeclinesSilently; infer_instance

instance (st : Server) (env : Env) (q : Request) : Decidable (DropsSilently st env q) :=
  inferInstanceAs (Decidable (_ ∨ _ ∨ _))

section

variable {st st₁ st₂ st' : Server} {env : Env} {m : DhcpMsg} {q : Request} {outs : List Out}
  {mac : Mac} {ip requested : Ip} {now holdS : Nat} {persist wired : Bool} {e v : Slot}
  {macs : List Mac} {recs : List StoredLease} {s : System}

/-! ## What each operation keeps -/

theorem FlashKept.refl (st : Server) : FlashKept st st :=
  fun hd => ⟨hd, fun _ hi _ => ⟨hi, rfl, rfl, rfl⟩⟩

theorem FlashKept.trans (h : FlashKept st st₁) (h' : FlashKept st₁ st') : FlashKept st st' := by
  intro hd
  obtain ⟨hd₁, hkeep'⟩ := h' hd
  obtain ⟨hd₀, hkeep⟩ := h hd₁
  refine ⟨hd₀, fun i hi hr => ?_⟩
  obtain ⟨hi₁, hmac, hip, hobs⟩ := hkeep i hi hr
  obtain ⟨hi', hmac', hip', hobs'⟩ := hkeep' i hi₁ (by rwa [Lease.Remembered, hip, hobs])
  exact ⟨hi', hmac'.trans hmac, hip'.trans hip, hobs'.trans hobs⟩

/-- What a table covers it covers after an operation that keeps it, as long as it is not
    marked dirty: no record is empty, so every one is of an entry flash remembers. -/
theorem FlashKept.covers (h : FlashKept st st') (hd : st'.dirty = false)
    (hworth : ∀ t ∈ recs, t.ip ≠ 0 ∨ t.observedIp ≠ 0)
    (hc : st.dirty = false → st.Covers recs) : st'.Covers recs := by
  obtain ⟨hd₀, hkeep⟩ := h hd
  intro t ht
  obtain ⟨i, hi, hmac, hip, hobs⟩ := hc hd₀ t ht
  obtain ⟨hi', hmac', hip', hobs'⟩ := hkeep i hi (by
    rw [Lease.Remembered, hip, hobs]; exact hworth t ht)
  exact ⟨i, hi', hmac'.trans hmac, hip'.trans hip, hobs'.trans hobs⟩

theorem FlashKept.reclaim : FlashKept st (reclaimLocked st v now) := by
  intro hd
  have hno : ¬ (st.dirty = true ∨ (st.leases v).Remembered) := fun hr =>
    absurd (hd.symm.trans (reclaimLocked_dirty.mpr hr)) (by simp)
  rw [not_or] at hno
  refine ⟨by simpa using hno.1, fun i hi hr => ?_⟩
  have hiv : i ≠ v := by
    rintro rfl
    exact hno.2 hr
  have hsame : (reclaimLocked st v now).leases i = st.leases i := by simp [hiv]
  exact ⟨by rw [Server.live, hsame]; exact hi, by rw [hsame], by rw [hsame], by rw [hsame]⟩

theorem FlashKept.setLease {l : Lease} (hv : (st.leases v).inUse = false) :
    FlashKept st (st.setLease v l) := by
  refine fun hd => ⟨hd, fun i hi _ => ?_⟩
  have hiv : i ≠ v := by
    rintro rfl
    rw [Server.live, hv] at hi
    exact absurd hi (by simp)
  have hsame : (st.setLease v l).leases i = st.leases i := by simp [hiv]
  exact ⟨by rw [Server.live, hsame]; exact hi, by rw [hsame], by rw [hsame], by rw [hsame]⟩

theorem FlashKept.select
    (hs : selectAddressLocked st mac requested wired now = (st₁, ip)) : FlashKept st st₁ := by
  rcases selectAddressLocked_cases hs with ⟨rfl, -⟩ | ⟨r, -, hsel⟩
  · exact .refl _
  · cases hsel with
    | own _ => exact .refl _
    | asked _ => exact .refl _
    | free _ _ => exact .refl _
    | reclaimed _ => exact .reclaim

theorem SlotFor.flashKept (h : SlotFor st mac now st₁ e) : FlashKept st st₁ := by
  cases h with
  | own _ => exact .refl _
  | free _ hf => exact .setLease hf
  | reclaimed _ _ _ => exact FlashKept.reclaim.trans (.setLease (by simp))

/-- A commit keeps what flash remembers, unless it clears a holder and does not say so. -/
theorem FlashKept.commit (hno : ¬ ClearsSilently st mac ip persist now) :
    FlashKept st (commitLeaseLocked st mac ip holdS persist now).1 := by
  cases hc : commitLeaseLocked st mac ip holdS persist now with
  | mk st' ok =>
    rcases commitLeaseLocked_cases hc with ⟨-, rfl, -⟩ | ⟨st₁, e, -, hslot, hs, rfl⟩
    · exact .refl _
    refine hs.flashKept.trans fun hd => ?_
    obtain ⟨hd₁, hclash, hpersist⟩ := commitAt_clean hd
    refine ⟨hd₁, fun i hi hr => ?_⟩
    by_cases hie : i = e
    · subst hie
      dsimp only
      rw [Server.live, commitAt_same]
      exact ⟨hi, rfl, rfl, rfl⟩
    · dsimp only
      rw [Server.live, commitAt_other ip holdS persist now hie]
      rcases clearClash_other st₁ e ip now i with hsame | ⟨hfind, -⟩
      · rw [hsame]
        exact ⟨hi, rfl, rfl, rfl⟩
      · have hip := hclash i hfind hie
        refine absurd ⟨(st₁, e), hslot, hd₁, hpersist, i, hfind, hie, hip, ?_⟩ hno
        exact hr.resolve_left fun h => h hip

theorem FlashKept.note : FlashKept st (noteObservedIp st mac ip now) := by
  rcases noteObservedIp_cases st mac ip now with ⟨heq, -⟩ | ⟨st₁, e, -, -, hs, heq⟩
  · rw [heq]; exact .refl _
  rw [heq]
  refine hs.flashKept.trans fun hd => ⟨(noteAt_clean hd).1, fun i hi _ => ?_⟩
  by_cases hie : i = e
  · subst hie
    rw [Server.live, noteAt_same]
    exact ⟨hi, rfl, rfl, rfl⟩
  · rw [Server.live, noteAt_other hie]
    exact ⟨hi, rfl, rfl, rfl⟩

theorem FlashKept.quarantine : FlashKept st (setQuarantined st macs now) := by
  refine fun hd => ⟨(setQuarantined_clean hd).1, fun i hi _ => ?_⟩
  rw [Server.live, setQuarantined_leases]
  exact ⟨hi, rfl, rfl, rfl⟩

/-- Every message keeps what flash remembers, unless it takes one of the three silent
    branches. -/
theorem Handled.flashKept (hh : Handled st env m q st' outs) (hno : ¬ DropsSilently st env q) :
    FlashKept st st' := by
  obtain ⟨hans, hleave, hdecl⟩ : ¬ AnswersSilently st env q ∧ ¬ LeavesSilently st q ∧
      ¬ DeclinesSilently st q := by
    simpa only [DropsSilently, not_or] using hno
  cases hh with
  | ignored _ => exact .refl _
  | offered ht hs h0 =>
    refine (FlashKept.select hs).trans (.commit fun hcl => hans ?_)
    unfold AnswersSilently
    rw [hs]
    exact ⟨h0, .inl ⟨ht, hcl⟩⟩
  | acked ht hf hs h0 hreq =>
    refine (FlashKept.select hs).trans (.commit fun hcl => hans ?_)
    unfold AnswersSilently
    rw [hs]
    exact ⟨h0, .inr ⟨ht, hf, hreq, hcl⟩⟩
  | naked _ _ hs _ => exact .select hs
  | @elsewhere i ht hf hi hx =>
    refine fun hd => ⟨hd, fun j hj hr => ?_⟩
    have hji : j ≠ i := by
      rintro rfl
      exact hleave ⟨ht, hf, hd, j, hi, hx, hr⟩
    have hsame : (st.dropLease i).leases j = st.leases j := by simp [hji]
    exact ⟨by rw [Server.live, hsame]; exact hj, by rw [hsame], by rw [hsame], by rw [hsame]⟩
  | @declined i _ ht hi heq =>
    subst heq
    intro hd
    split at hd
    · simp at hd
    · rename_i hip
      rw [not_not] at hip
      rw [if_neg (not_not.mpr hip)]
      have hd₀ : st.dirty = false := by simpa using hd
      refine ⟨hd₀, fun j hj hr => ?_⟩
      have hji : j ≠ i := by
        rintro rfl
        exact hdecl ⟨ht, hd₀, j, hi, hip, hr.resolve_left fun h => h hip⟩
      have hsame : ((declineIp st (st.leases i).ip).dropLease i).leases j = st.leases j := by
        simp [hji]
      exact ⟨by rw [Server.live, hsame]; exact hj, by rw [hsame], by rw [hsame], by rw [hsame]⟩
  | declinedUnknown _ _ =>
    refine fun hd => ⟨by simpa using hd, fun j hj _ => ?_⟩
    rw [Server.live, declineIp_leases]
    exact ⟨hj, rfl, rfl, rfl⟩
  | @released i _ _ =>
    refine fun hd => ⟨hd, fun j hj _ => ?_⟩
    by_cases hji : j = i
    · subst hji
      rw [Server.live, Server.setLease_same]
      exact ⟨hj, rfl, rfl, rfl⟩
    · rw [Server.live, Server.setLease_ne _ _ _ _ hji]
      exact ⟨hj, rfl, rfl, rfl⟩

/-! ## Where flash and the table meet -/

/-- A load that leaves the table clean has restored every record, with both addresses. -/
theorem bootServer_covers {cfg : Config} {flash : Option (List UInt8)} (h : FlashOk flash)
    (hd : (bootServer cfg flash now).dirty = false) :
    (bootServer cfg flash now).Covers (flashRecords flash) := by
  intro t ht
  cases hp : flash.bind parseBlob with
  | none =>
    unfold flashRecords at ht
    rw [hp] at ht
    exact absurd ht (by simp)
  | some p =>
    obtain ⟨hdr, recs⟩ := p
    rw [flashRecords_some hp] at ht
    rw [bootServer_some hp] at hd ⊢
    obtain ⟨hall, -⟩ := loadRecords_clean hd
    obtain ⟨k, hk, rfl⟩ := List.mem_iff_getElem.mp ht
    have hlt : k < maxLeases := Nat.lt_of_lt_of_le hk (h.parse hp).2.2.length_le
    have hget : recs[(⟨k, hlt⟩ : Slot).val]? = some recs[k] := List.getElem?_eq_getElem hk
    refine ⟨⟨k, hlt⟩, ?_⟩
    rw [Server.live, loadRecords_leases, hall, restore_some hget]
    exact ⟨rfl, rfl, rfl, rfl⟩

theorem markSaved_covers : (markSaved st).Covers (savedRecords st) := by
  intro t ht
  obtain ⟨i, hi, rfl⟩ := mem_savedRecords.mp ht
  have hlive : st.live i := (storable_iff.mp hi).1
  refine ⟨i, ?_⟩
  rw [Server.live, markSaved_live hlive]
  exact ⟨hlive, rfl, rfl, rfl⟩

theorem System.InSync.step {ev : Event} (hI : s.Inv) (h : s.InSync)
    (hno : ¬ s.Asking ev DropsSilently) : (s.step ev).InSync := by
  have hworth := hI.flash.records.worth
  cases ev with
  | recv env m len =>
    intro hd
    rcases s.recv_cases env m len with ⟨hsrv, -⟩ | ⟨q, hq, hh⟩
    · rw [hsrv] at hd ⊢
      exact h hd
    · exact (hh.flashKept fun hdrop => hno ⟨q, hq, hdrop⟩).covers hd hworth h
  | noteObserved now mac ip => exact fun hd => FlashKept.note.covers hd hworth h
  | setQuarantined now macs => exact fun hd => FlashKept.quarantine.covers hd hworth h
  | poll now nvs =>
    intro hd
    by_cases hsave : saveDue s.srv now = true ∧ nvs = .ok
    · have hw : s.written (.poll now nvs) = some (saveBlob s.srv) := by
        rw [hsave.2, System.written, hsave.1]
        rfl
      rw [System.step_poll_srv, if_pos hsave, System.step_poll_flash, hw, Option.some_or,
        flashRecords_saveBlob]
      exact markSaved_covers
    · -- no save, or one that fails, leaves the table as dirty as it was: nothing was written
      rw [System.step_poll_srv, if_neg hsave] at hd ⊢
      have hw : s.written (.poll now nvs) = none := by
        simp [System.written, saveDue, hd]
      rw [System.step_poll_flash, hw, Option.none_or]
      exact h hd
  | reboot now cfg => exact bootServer_covers hI.flash

/-- **While the table is clean, flash and the table agree**: from any boot, through any run
    of messages, notes, pushes, saves that succeed or fail and further boots, none of whose
    messages drops an entry in one of the three silent branches. -/
theorem System.Reachable.flash_agrees {s₀ : System} {cfg : Config} {es : List Event}
    (hs : s₀.Reachable) (hok : s₀.ok (.reboot now cfg))
    (hrun : Lib.Along System.step (fun s e => s.ok e ∧ ¬ s.Asking e DropsSilently)
      (s₀.step (.reboot now cfg)) es) :
    (es.foldl System.step (s₀.step (.reboot now cfg))).InSync := by
  have hinv : (s₀.step (.reboot now cfg)).Inv := System.Reachable.inv (.step _ hs hok)
  have hsync : (s₀.step (.reboot now cfg)).InSync := bootServer_covers hs.inv.flash
  refine (hrun.invariant (I := fun s => s.Inv ∧ s.InSync) ⟨hinv, hsync⟩ ?_).2
  intro s e h he
  exact ⟨h.1.step, h.2.step h.1 he.2⟩

/-- A client is told its address and the table saved; it releases, another is given an
    address, and the table is saved again. -/
theorem flash_agrees_released :
    let s₀ := powerOn shipped none 0
    let es := [Event.sends 10 false dhcpRequest 1 (ip4 192 168 5 10), .poll 20000000 .ok,
      .sends 20000001 false dhcpRelease 1 0,
      .sends 30000000 false dhcpRequest 2 (ip4 192 168 5 11), .poll 50000000 .ok]
    (es.foldl System.step (s₀.step (.reboot 0 shipped))).InSync :=
  (System.Reachable.switchedOn shipped 0).flash_agrees (by decide) (by decide +kernel)

def leaseSaved : List Event :=
  [.sends 10 false dhcpRequest 1 (ip4 192 168 5 10), .poll 20000000 .ok]

/-- It takes up another server's offer; its entry is dropped, its record stays in flash, and
    nothing will ever write over it. -/
theorem flash_disagrees : ¬ ∀ s : System, s.Reachable → s.InSync := by
  intro hall
  let s := (leaseSaved ++ [Event.sends 30000000 false dhcpRequest 1 (ip4 192 168 5 10)
    (ip4 192 168 5 77)]).foldl System.step (powerOn shipped none 0)
  have hs : s.Reachable := (System.Reachable.switchedOn shipped 0).run _ (by decide +kernel)
  exact absurd (hall s hs) (by decide +kernel)

end

end Dhcp
end Wt32Router
